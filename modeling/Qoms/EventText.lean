import Qoms.Json
import Qoms.Monitoring
import Qoms.OverloadNotices
import Qoms.QueueNotices
import Qoms.ReservationCache
import Qoms.ReservationNotices

/-!
# Events as texts

What is in the topic are texts. The three services with an outbox store an event in a column of
type `jsonb` and send `JSON.stringify` of what they read from it; the monitoring service sends its
events at once. Both consumers start with `JSON.parse`, look for the event's type in
`KAFKA_EVENTS`, and take the fields they need by name (`readMessage`).

The names go together : the notification service does with the text of an event of the queue, the
reservation or the zone service what it does with the event (`sent_notified`), and the zone
service does so with the text of an occupancy event and passes over the others (`sent_occupancy`).
A field that no consumer reads is not read here either.
-/

set_option autoImplicit false

namespace Qoms

open NotificationService (DomainEvent NotificationPayload NotificationDb Faults HandlerError)
open ZoneService (OccupancyEnvelope ZonePayload ZoneDb ConsumerError)
open QueueService (QueuePayload)
open ReservationService (ReservationPayload)

/-! ## What is sent -/

/-- An event type as it is written. -/
def eventTypeText : KafkaEventType → String
  | .occupancyUpdated => "occupancy_updated"
  | .zoneStatusChanged => "zone_status_changed"
  | .zoneOverloaded => "zone_overloaded"
  | .queueJoined => "queue_joined"
  | .queueLeft => "queue_left"
  | .queueStatusChanged => "queue_status_changed"
  | .reservationCreated => "reservation_created"
  | .reservationCancelled => "reservation_cancelled"

/-- `KAFKA_EVENTS`. -/
def kafkaEvents : List KafkaEventType :=
  [.occupancyUpdated, .zoneStatusChanged, .zoneOverloaded, .queueJoined, .queueLeft,
    .queueStatusChanged, .reservationCreated, .reservationCancelled]

/-- A zone's status as it is written. -/
def zoneStatusText : ZoneStatus → String
  | .open => "open"
  | .closed => "closed"
  | .overloaded => "overloaded"

/-- The object that `createEventEnvelope` returns, of an event whose ids have these texts. -/
def envelopeJson {K P : Type} (eventId correlationId entityId : String)
    (payload : P → List (String × Json ℤ)) (e : EventEnvelope K P) : Json ℤ :=
  .object [
    ("eventId", .string eventId),
    ("eventType", .string (eventTypeText e.eventType)),
    ("version", .number e.version),
    ("occurredAt", .string (toISOString e.occurredAt)),
    ("sourceService", .string e.sourceService),
    ("correlationId", .string correlationId),
    ("entityId", .string entityId),
    ("payload", .object (payload e.payload))]

/-- The payloads of `joinQueue` and `leaveQueue`. -/
def QueueService.QueuePayload.members (spelling : Spelling) :
    QueuePayload → List (String × Json ℤ)
  | .joined zoneId queueEntryId userId | .left zoneId queueEntryId userId => [
    ("zoneId", .string (spelling.text zoneId)),
    ("queueEntryId", .string (spelling.text queueEntryId)),
    ("userId", .string (spelling.text userId))]
  | .statusChanged zoneId queueLength => [
    ("zoneId", .string (spelling.text zoneId)),
    ("queueLength", .number queueLength)]

/-- The payloads of `createReservation` and `cancelReservation`. -/
def ReservationService.ReservationPayload.members (spelling : Spelling) :
    ReservationPayload → List (String × Json ℤ)
  | .created reservationId zoneId userId seatNumber slotStart slotEnd => [
    ("reservationId", .string (spelling.text reservationId)),
    ("zoneId", .string (spelling.text zoneId)),
    ("userId", .string (spelling.text userId)),
    ("seatNumber", .number seatNumber),
    ("slotStart", .string (toISOString slotStart)),
    ("slotEnd", .string (toISOString slotEnd))]
  | .cancelled reservationId zoneId userId seatNumber => [
    ("reservationId", .string (spelling.text reservationId)),
    ("zoneId", .string (spelling.text zoneId)),
    ("userId", .string (spelling.text userId)),
    ("seatNumber", .number seatNumber)]

/-- A member that is left out where the field is undefined. -/
def member (key : String) (value : Option (Json ℤ)) : List (String × Json ℤ) :=
  value.toList.map fun v => (key, v)

theorem lookup_member (key key' : String) (value : Option (Json ℤ)) :
    Json.lookup key' (member key value) = if key = key' then value else none := by
  cases value with
  | none => simp [member, Json.lookup]
  | some v => simp [member, Json.lookup]

/-- The payloads of the zone service. -/
def ZoneService.ZonePayload.members (p : ZonePayload) : List (String × Json ℤ) :=
  ("zoneId", .string (uuidText p.zoneId)) ::
    (member "status" (p.status.map fun status => .string (zoneStatusText status)) ++
      member "currentOccupancy" (p.currentOccupancy.map .number) ++
      member "actorId" (p.actorId.map .string) ++
      member "sourceEventId" (p.sourceEventId.map fun id => .string (uuidText id)) ++
      member "rulesUpdated" (p.rulesUpdated.map .bool))

/-- The payload of `tryPublish`. -/
def OccupancyPayload.members (p : OccupancyPayload) : List (String × Json ℤ) :=
  member "zoneId" (p.zoneId.map .string) ++
    member "occupancy" (p.occupancy.map .number) ++
    member "currentOccupancy" (p.currentOccupancy.map .number) ++
    member "source" (p.source.map .string) ++
    member "sourceEventId" (p.sourceEventId.map fun id => .string (uuidText id)) ++
    member "observedAt" (p.observedAt.map fun t => .string (toISOString t))

/-- The text that `flushOutbox` sends of a stored event. -/
def outboxText {P : Type} (spelling : Spelling) (draw : ℕ ↪ Uuid)
    (payload : P → List (String × Json ℤ)) (e : EventEnvelope Uuid P) : List Char :=
  (envelopeJson (uuidText (draw e.eventId)) (uuidText (draw e.correlationId))
    (spelling.text e.entityId) payload e).jsonb.write

/-- The text that `tryPublish` sends. -/
def occupancyText (e : OccupancyEnvelope) : List Char :=
  (envelopeJson (uuidText e.eventId) (uuidText e.correlationId) e.entityId
    OccupancyPayload.members e).write

/-! ## What is read -/

/-- A text under a key, or nothing; what else may stand there is not modelled. -/
def textField (v : Json ℚ) (key : String) : Option (Option String) :=
  match v.get? key with
  | none => some none
  | some (.string text) => some (some text)
  | some _ => none

/-- A whole number under a key, or nothing. -/
def wholeField (v : Json ℚ) (key : String) : Option (Option ℤ) :=
  match v.get? key with
  | none => some none
  | some (.number q) => if q.den = 1 then some (some q.num) else none
  | some _ => none

/-- The UUID whose text stands under a key. -/
def uuidField (v : Json ℚ) (key : String) : Option Uuid := do
  let some text ← textField v key | none
  uuidIn text

/-- The fields that `buildNotifications` reads. -/
def NotificationService.NotificationPayload.read (v : Json ℚ) : Option NotificationPayload := do
  return {
    userId := ← textField v "userId"
    zoneId := ← textField v "zoneId"
    seatNumber := ← wholeField v "seatNumber"
    reservationId := ← textField v "reservationId"
    currentOccupancy := ← wholeField v "currentOccupancy" }

/-- The fields that `handleOccupancyUpdated` reads. -/
def OccupancyPayload.read (v : Json ℚ) : Option OccupancyPayload := do
  return {
    zoneId := ← textField v "zoneId"
    occupancy := ← wholeField v "occupancy"
    currentOccupancy := ← wholeField v "currentOccupancy"
    source := none
    sourceEventId := none
    observedAt := none }

/-- The object of an event, of a listed type. -/
def readEvent {P : Type} (payload : Json ℚ → Option P) (eventType : KafkaEventType) (v : Json ℚ) :
    Option (EventEnvelope String P) := do
  let some entityId ← textField v "entityId" | none
  return {
    eventId := ← uuidField v "eventId"
    eventType := eventType
    version := 1
    occurredAt := 0
    sourceService := ""
    correlationId := ← uuidField v "correlationId"
    entityId := entityId
    payload := ← payload (← v.get? "payload") }

/-- What `eachMessage` takes the value of a message for. A property of `null` is an error; what
is no object has no property. -/
def readMessage {P : Type} (payload : Json ℚ → Option P) (value : Option (List Char)) :
    Option (MessageValue String P) :=
  match value with
  | none => some .absent
  | some text =>
    match Json.read text with
    | none | some .null => some .malformed
    | some v =>
      match v.get? "eventType" with
      | some (.string text) =>
        match kafkaEvents.find? (eventTypeText · == text) with
        | none => some .unlisted
        | some eventType => (readEvent payload eventType v).map .envelope
      | _ => some .unlisted

/-- `eachMessage` of the notification service. -/
def NotificationService.eachText (db : NotificationDb) (value : Option (List Char))
    (faults : Faults) (now : ℤ) :
    Option (NotificationDb × Except HandlerError (List HandlerError)) :=
  (readMessage NotificationPayload.read value).map fun value => eachMessage db value faults now

/-- `eachMessage` of the zone service. -/
def ZoneService.eachText (db : ZoneDb) (value : Option (List Char)) (clock : Clock) :
    Option (Except ConsumerError ZoneDb) :=
  (readMessage OccupancyPayload.read value).map fun value => eachMessage db value clock

/-! ## A value on its way -/

/-- What a consumer parses of a value that was sent at once, or stored as `jsonb` before. -/
def Carried (v : Json ℤ) (v' : Json ℚ) : Prop :=
  v' = v.map (↑) ∨ v' = v.jsonb.map (↑)

section Carried

variable {v w : Json ℤ} {v' : Json ℚ} {key : String}

theorem Carried.get? (h : Carried v v') (hget : v.get? key = some w) :
    ∃ w', v'.get? key = some w' ∧ Carried w w' := by
  rcases h with rfl | rfl
  · exact ⟨_, by rw [Json.get?_map, hget, Option.map_some], Or.inl rfl⟩
  · exact ⟨_, by rw [Json.get?_map, Json.get?_jsonb, hget, Option.map_some, Option.map_some],
      Or.inr rfl⟩

theorem Carried.get?_none (h : Carried v v') (hget : v.get? key = none) :
    v'.get? key = none := by
  rcases h with rfl | rfl
  · rw [Json.get?_map, hget, Option.map_none]
  · rw [Json.get?_map, Json.get?_jsonb, hget, Option.map_none, Option.map_none]

theorem Carried.string {text : String} (h : Carried (.string text) v') : v' = .string text := by
  rcases h with rfl | rfl <;> rfl

theorem Carried.number {n : ℤ} (h : Carried (.number n) v') : v' = .number n := by
  rcases h with rfl | rfl <;> rfl

theorem Carried.textField (h : Carried v v') (text : Option String)
    (hget : v.get? key = text.map .string) : textField v' key = some text := by
  unfold Qoms.textField
  cases text with
  | none => rw [h.get?_none hget]
  | some text =>
    obtain ⟨w', hw', hcarried⟩ := h.get? hget
    obtain rfl := hcarried.string
    rw [hw']

theorem Carried.wholeField (h : Carried v v') (n : Option ℤ)
    (hget : v.get? key = n.map .number) : wholeField v' key = some n := by
  unfold Qoms.wholeField
  cases n with
  | none => rw [h.get?_none hget]
  | some n =>
    obtain ⟨w', hw', hcarried⟩ := h.get? hget
    obtain rfl := hcarried.number
    rw [hw']
    simp

theorem Carried.uuidField (h : Carried v v') {u : Uuid} (hu : u < 256 ^ 16)
    (hget : v.get? key = some (.string (uuidText u))) : uuidField v' key = some u := by
  rw [Qoms.uuidField, h.textField (some (uuidText u)) hget]
  exact (uuidIn_uuidText u).trans (congrArg some (Nat.mod_eq_of_lt hu))

/-- The text of an envelope is read as its event, if its payload is. -/
theorem readMessage_envelope {K P Q : Type} {eventId correlationId : Uuid} {entityId : String}
    {members : P → List (String × Json ℤ)} {e : EventEnvelope K P} {read : Json ℚ → Option Q}
    {payload : Q} {text : List Char} (hevent : eventId < 256 ^ 16)
    (hcorrelation : correlationId < 256 ^ 16)
    (hpayload : ∀ v', Carried (.object (members e.payload)) v' → read v' = some payload)
    (htext : ∃ v', Json.read text = some v' ∧
      Carried (envelopeJson (uuidText eventId) (uuidText correlationId) entityId members e) v') :
    readMessage read (some text) = some (.envelope
      ⟨eventId, e.eventType, 1, 0, "", correlationId, entityId, payload⟩) := by
  obtain ⟨v', hread, hv'⟩ := htext
  have htype : ∃ w', v'.get? "eventType" = some w' ∧
      Carried (.string (eventTypeText e.eventType)) w' := hv'.get? rfl
  obtain ⟨w', htype, hw'⟩ := htype
  obtain rfl := hw'.string
  have hfound : ∃ w', v'.get? "payload" = some w' ∧ Carried (.object (members e.payload)) w' :=
    hv'.get? rfl
  obtain ⟨w', hfound, hw'⟩ := hfound
  have hlisted : kafkaEvents.find? (eventTypeText · == eventTypeText e.eventType) =
      some e.eventType := by
    cases e.eventType <;> decide
  have hevent' : uuidField v' "eventId" = some eventId := hv'.uuidField hevent rfl
  have hcorrelation' : uuidField v' "correlationId" = some correlationId :=
    hv'.uuidField hcorrelation rfl
  have hentity : textField v' "entityId" = some (some entityId) :=
    hv'.textField (some entityId) rfl
  cases v' with
  | object members' =>
    simp [readMessage, hread, htype, hlisted, readEvent, hentity, hevent', hcorrelation', hfound,
      hpayload w' hw']
  | _ => exact absurd htype (by simp [Json.get?])

/-! ## Payloads -/

/-- The fields of a payload, one by one. -/
theorem NotificationPayload.read_eq {v : Json ℤ} {v' : Json ℚ} (h : Carried v v')
    {payload : NotificationPayload} (huser : v.get? "userId" = payload.userId.map .string)
    (hzone : v.get? "zoneId" = payload.zoneId.map .string)
    (hseat : v.get? "seatNumber" = payload.seatNumber.map .number)
    (hreservation : v.get? "reservationId" = payload.reservationId.map .string)
    (hoccupancy : v.get? "currentOccupancy" = payload.currentOccupancy.map .number) :
    NotificationPayload.read v' = some payload := by
  simp [NotificationPayload.read, h.textField _ huser, h.textField _ hzone, h.wholeField _ hseat,
    h.textField _ hreservation, h.wholeField _ hoccupancy]

theorem QueueService.QueuePayload.read_members (spelling : Spelling) (p : QueuePayload)
    {v' : Json ℚ} (h : Carried (.object (p.members spelling)) v') :
    NotificationPayload.read v' = some (p.json spelling) := by
  cases p <;> exact NotificationPayload.read_eq h rfl rfl rfl rfl rfl

theorem ReservationService.ReservationPayload.read_members (spelling : Spelling)
    (p : ReservationPayload) {v' : Json ℚ} (h : Carried (.object (p.members spelling)) v') :
    NotificationPayload.read v' = some (p.json spelling) := by
  cases p <;> exact NotificationPayload.read_eq h rfl rfl rfl rfl rfl

theorem ZoneService.ZonePayload.read_members (p : ZonePayload) {v' : Json ℚ}
    (h : Carried (.object p.members) v') : NotificationPayload.read v' = some p.json := by
  refine NotificationPayload.read_eq h ?_ ?_ ?_ ?_ ?_
  all_goals
    simp [Json.get?, ZonePayload.members, Json.lookup, Json.lookup_append, lookup_member,
      ZonePayload.json]

theorem OccupancyPayload.read_eq {v : Json ℤ} {v' : Json ℚ} (h : Carried v v')
    (zoneId : Option String) (occupancy currentOccupancy : Option ℤ)
    (hzone : v.get? "zoneId" = zoneId.map .string)
    (hoccupancy : v.get? "occupancy" = occupancy.map .number)
    (hcurrent : v.get? "currentOccupancy" = currentOccupancy.map .number) :
    OccupancyPayload.read v' = some ⟨zoneId, occupancy, currentOccupancy, none, none, none⟩ := by
  simp [OccupancyPayload.read, h.textField _ hzone, h.wholeField _ hoccupancy,
    h.wholeField _ hcurrent]

theorem OccupancyPayload.read_members (p : OccupancyPayload) {v' : Json ℚ}
    (h : Carried (.object p.members) v') : OccupancyPayload.read v' =
      some { p with source := none, sourceEventId := none, observedAt := none } := by
  refine OccupancyPayload.read_eq h p.zoneId p.occupancy p.currentOccupancy ?_ ?_ ?_
  all_goals
    simp [Json.get?, OccupancyPayload.members, Json.lookup_append, lookup_member]

theorem OccupancyPayload.read_notification (p : OccupancyPayload) {v' : Json ℚ}
    (h : Carried (.object p.members) v') : NotificationPayload.read v' =
      some ⟨none, p.zoneId, none, none, p.currentOccupancy⟩ := by
  refine NotificationPayload.read_eq h ?_ ?_ ?_ ?_ ?_
  all_goals
    simp [Json.get?, OccupancyPayload.members, Json.lookup_append, lookup_member]

end Carried

/-! ## What the consumers do with a text -/

/-- The UUIDs that a service draws for an event are UUIDs. -/
def DrawnIds {P : Type} (draw : ℕ ↪ Uuid) (e : EventEnvelope Uuid P) : Prop :=
  draw e.eventId < 256 ^ 16 ∧ draw e.correlationId < 256 ^ 16

/-- A text that a service with an outbox sends, and the event that the notification service is to
take it for. -/
inductive Sent (spelling : Uuid → Spelling) (draw : ℕ ↪ Uuid) : List Char → DomainEvent → Prop
  | queue (e : EventEnvelope Uuid QueuePayload) (he : DrawnIds draw e)
      (htype : e.eventType ∈ (QueueService.wire spelling draw).types) :
    Sent spelling draw (outboxText (spelling e.eventId) draw
      (QueuePayload.members (spelling e.eventId)) e) ((QueueService.wire spelling draw).event e)
  | reservation (e : EventEnvelope Uuid ReservationPayload) (he : DrawnIds draw e)
      (htype : e.eventType ∈ (ReservationService.wire spelling draw).types) :
    Sent spelling draw (outboxText (spelling e.eventId) draw
      (ReservationPayload.members (spelling e.eventId)) e)
      ((ReservationService.wire spelling draw).event e)
  | zone (e : EventEnvelope Uuid ZonePayload) (he : DrawnIds draw e) (admin : Uuid)
      (htype : e.eventType ∈ (ZoneService.wire draw admin).types) :
    Sent spelling draw (outboxText .canonical draw ZonePayload.members e)
      ((ZoneService.wire draw admin).event e)

section

variable {spelling : Uuid → Spelling} {draw : ℕ ↪ Uuid} {text : List Char} {event : DomainEvent}

/-- An outbox's text, read as an event with the payload that is read. -/
theorem readMessage_outboxText {P Q : Type} {spelled : Spelling}
    {members : P → List (String × Json ℤ)} {e : EventEnvelope Uuid P} (he : DrawnIds draw e)
    {read : Json ℚ → Option Q} {payload : Q}
    (hpayload : ∀ v', Carried (.object (members e.payload)) v' → read v' = some payload) :
    readMessage read (some (outboxText spelled draw members e)) = some (.envelope
      ⟨draw e.eventId, e.eventType, 1, 0, "", draw e.correlationId, spelled.text e.entityId,
        payload⟩) :=
  readMessage_envelope he.1 he.2 hpayload ⟨_, Json.read_write _, Or.inr rfl⟩

theorem readMessage_occupancyText {Q : Type} {e : OccupancyEnvelope} (hevent : e.eventId < 256 ^ 16)
    (hcorrelation : e.correlationId < 256 ^ 16) {read : Json ℚ → Option Q} {payload : Q}
    (hpayload : ∀ v', Carried (.object e.payload.members) v' → read v' = some payload) :
    readMessage read (some (occupancyText e)) = some (.envelope
      ⟨e.eventId, e.eventType, 1, 0, "", e.correlationId, e.entityId, payload⟩) :=
  readMessage_envelope hevent hcorrelation hpayload ⟨_, Json.read_write _, Or.inl rfl⟩

theorem Sent.readMessage (h : Sent spelling draw text event) :
    Qoms.readMessage NotificationPayload.read (some text) = some (.envelope
      { event with version := 1, occurredAt := 0, sourceService := "" }) := by
  cases h with
  | queue e he =>
    exact readMessage_outboxText he fun v' => e.payload.read_members (spelling e.eventId)
  | reservation e he =>
    exact readMessage_outboxText he fun v' => e.payload.read_members (spelling e.eventId)
  | zone e he admin => exact readMessage_outboxText he fun v' => e.payload.read_members

/-- The zone service finds an event of another type. -/
theorem Sent.readMessage_occupancy (h : Sent spelling draw text event) :
    ∃ e, Qoms.readMessage OccupancyPayload.read (some text) = some (.envelope e) ∧
      e.eventType ≠ .occupancyUpdated := by
  cases h with
  | queue e he htype =>
    refine ⟨_, readMessage_outboxText he fun v' hv' => OccupancyPayload.read_eq hv'
      (some ((spelling e.eventId).text e.payload.zoneId)) none none ?_ ?_ ?_, ?_⟩
    · cases e.payload <;> rfl
    · cases e.payload <;> rfl
    · cases e.payload <;> rfl
    · rintro heq
      rw [heq] at htype
      exact absurd htype (by simp [QueueService.wire])
  | reservation e he htype =>
    refine ⟨_, readMessage_outboxText he fun v' hv' => OccupancyPayload.read_eq hv'
      (some ((spelling e.eventId).text e.payload.zoneId)) none none ?_ ?_ ?_, ?_⟩
    · cases e.payload <;> rfl
    · cases e.payload <;> rfl
    · cases e.payload <;> rfl
    · rintro heq
      rw [heq] at htype
      exact absurd htype (by simp [ReservationService.wire])
  | zone e he admin htype =>
    refine ⟨_, readMessage_outboxText he fun v' hv' => OccupancyPayload.read_eq hv'
      (some (uuidText e.payload.zoneId)) none e.payload.currentOccupancy ?_ ?_ ?_, ?_⟩
    · simp [Json.get?, ZonePayload.members, Json.lookup, Json.lookup_append, lookup_member]
    · simp [Json.get?, ZonePayload.members, Json.lookup, Json.lookup_append, lookup_member]
    · simp [Json.get?, ZonePayload.members, Json.lookup, Json.lookup_append, lookup_member]
    · rintro heq
      rw [heq] at htype
      exact absurd htype (by simp [ZoneService.wire])

end

/-- Whatever the event, the text that the queue, the reservation or the zone service sends of it,
with its keys in the order of a `jsonb`, is to the notification service what the event is. -/
theorem sent_notified (spelling : Uuid → Spelling) (draw : ℕ ↪ Uuid) (text : List Char)
    (event : DomainEvent) (h : Sent spelling draw text event) (db : NotificationDb)
    (faults : Faults) (now : ℤ) : NotificationService.eachText db (some text) faults now =
      some (NotificationService.eachMessage db (.envelope event) faults now) := by
  rw [NotificationService.eachText, h.readMessage]
  rfl

/-- The user 99 joined the queue of the zone 7. -/
def joinedEvent : EventEnvelope Uuid QueuePayload :=
  ⟨3, .queueJoined, 1, 1709210096789, "queue-service", 4, 7, .joined 7 12 99⟩

/-- The text of it, with nothing failing, leaves its notification. -/
theorem sent_notified_joined : NotificationService.eachText ⟨[], [], 0⟩
    (some (outboxText .canonical (.refl _) (QueuePayload.members .canonical) joinedEvent))
    (noFaults none) 5 =
      some (⟨[⟨0, 99, 3, "Queue joined", s!"You joined the dining queue for zone {uuidText 7}.",
        some 7, 5, none⟩], [⟨1, 3, .queueJoined, uuidText 7, 5⟩], 2⟩, .ok []) := by
  rw [sent_notified (fun _ => .canonical) (.refl _) _ _
    (.queue joinedEvent ⟨by decide, by decide⟩ (by decide))]
  rfl

/-- Whatever the event, the text that `tryPublish` sends of it is to the zone service what the
event is, and to the notification service what an event with its zone and occupancy is; the texts
of the other services change nothing in the zone service. -/
theorem occupancy_sent (spelling : Uuid → Spelling) (draw : ℕ ↪ Uuid) :
    (∀ e : OccupancyEnvelope, e.eventId < 256 ^ 16 → e.correlationId < 256 ^ 16 →
      (∀ db clock, ZoneService.eachText db (some (occupancyText e)) clock =
        some (ZoneService.eachMessage db (.envelope e) clock)) ∧
      ∀ db faults now, NotificationService.eachText db (some (occupancyText e)) faults now =
        some (NotificationService.eachMessage db (.envelope { e with
          payload := ⟨none, e.payload.zoneId, none, none, e.payload.currentOccupancy⟩ }) faults
          now)) ∧
    ∀ text event, Sent spelling draw text event → ∀ db clock,
      ZoneService.eachText db (some text) clock = some (.ok db) := by
  refine ⟨fun e hevent hcorrelation => ⟨fun db clock => ?_, fun db faults now => ?_⟩,
    fun text event h db clock => ?_⟩
  · rw [ZoneService.eachText,
      readMessage_occupancyText hevent hcorrelation fun v' => e.payload.read_members]
    rfl
  · rw [NotificationService.eachText,
      readMessage_occupancyText hevent hcorrelation fun v' => e.payload.read_notification]
    rfl
  · obtain ⟨e, hread, htype⟩ := h.readMessage_occupancy
    rw [ZoneService.eachText, hread]
    exact congrArg some (if_neg htype)

/-- A measured occupancy of the zone 7. -/
def measuredEvent : OccupancyEnvelope :=
  ⟨5, .occupancyUpdated, 1, 1709210096789, "monitoring-event-ingestion-service", 6, uuidText 7,
    ⟨some (uuidText 7), some 12, some 12, some "mock_sensor", some 8, some 1709210096789⟩⟩

/-- The zone service finds no zone 7 for it, and the notification service marks it processed; the
text of a join changes nothing in the zone service. -/
theorem occupancy_sent_measured :
    ZoneService.eachText .empty (some (occupancyText measuredEvent)) ⟨0, 0⟩ =
      some (.ok .empty) ∧
    NotificationService.eachText ⟨[], [], 0⟩ (some (occupancyText measuredEvent)) (noFaults none)
      5 = some (⟨[], [⟨0, 5, .occupancyUpdated, uuidText 7, 5⟩], 1⟩, .ok []) ∧
    ZoneService.eachText .empty (some (outboxText .canonical (.refl _)
      (QueuePayload.members .canonical) joinedEvent)) ⟨0, 0⟩ = some (.ok .empty) := by
  have hsent := occupancy_sent (fun _ => .canonical) (.refl _)
  obtain ⟨hzone, hnotified⟩ := hsent.1 measuredEvent (by decide) (by decide)
  refine ⟨(hzone _ _).trans ?_, (hnotified _ _ _).trans ?_,
    hsent.2 _ _ (.queue joinedEvent ⟨by decide, by decide⟩ (by decide)) _ _⟩
  · rfl
  · rfl

end Qoms
