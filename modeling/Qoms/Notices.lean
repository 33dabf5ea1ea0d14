import Qoms.Pipeline

/-!
# What users are told

A user who joins or leaves a queue, and one whose reservation is created or cancelled, gets a
notification of it. On its way the record is sent as JSON, where UUIDs are texts (`Spelling`),
and the notification service reads the texts back. A service whose events it reads as they
were written (`Addressed`) has, after any run, for each user and zone as many notifications of
a type and awaited records of it as it has records (`Addressed.announced`); and a record in
the topic is awaited until the first delivery of it that meets no fault at the latest
(`Addressed.deliverable`).
-/

set_option autoImplicit false

namespace Qoms

open NotificationService (DomainEvent NotificationPayload NotificationEntity Draft Faults
  buildNotifications isProcessed)

/-! ## Titles -/

/-- The title of the notifications that an event of the type builds; some build none. -/
def noticeTitle : KafkaEventType → Option String
  | .queueJoined => some "Queue joined"
  | .queueLeft => some "Queue left"
  | .reservationCreated => some "Reservation created"
  | .reservationCancelled => some "Reservation cancelled"
  | .zoneOverloaded => some "Zone overloaded"
  | .occupancyUpdated | .zoneStatusChanged | .queueStatusChanged => none

/-- The types whose notification goes to the user the event names. -/
def KafkaEventType.Personal : KafkaEventType → Prop
  | .queueJoined | .queueLeft | .reservationCreated | .reservationCancelled => True
  | _ => False

theorem KafkaEventType.Personal.isSome {t : KafkaEventType} (ht : t.Personal) :
    (noticeTitle t).isSome = true := by
  cases t with
  | queueJoined | queueLeft | reservationCreated | reservationCancelled => rfl
  | _ => exact absurd ht id

theorem noticeTitle_inj {t u : KafkaEventType} (ht : (noticeTitle t).isSome = true)
    (h : noticeTitle u = noticeTitle t) : u = t := by
  cases t with
  | queueJoined | queueLeft | reservationCreated | reservationCancelled | zoneOverloaded =>
    cases u <;> simp [noticeTitle] at h ⊢
  | _ => exact absurd ht Bool.false_ne_true

section

variable {event : DomainEvent} {users : Option (List NotificationService.RemoteUser)}
  {drafts : List Draft} {rows : List NotificationEntity}

theorem title_drafts (h : buildNotifications event users = .ok drafts) :
    ∀ draft ∈ drafts, noticeTitle event.eventType = some draft.title := by
  cases htype : event.eventType with
  | zoneOverloaded =>
    obtain ⟨data, body, -, rfl⟩ := NotificationService.buildNotifications_overloaded htype h
    simp [NotificationService.draftFor, noticeTitle]
  | _ =>
    simp only [buildNotifications, htype, pure_eq_ok] at h
    subst h
    simp [NotificationService.draftFor, noticeTitle]

theorem title_of_isRow {draft : Draft} {row : NotificationEntity} (h : draft.IsRow row) :
    row.title = draft.title := by
  obtain ⟨userId, zoneId, -, -, heq⟩ := NotificationService.Draft.row_eq_ok.mp h
  rw [heq]

theorem zoneId_of_isRow {draft : Draft} {row : NotificationEntity} (h : draft.IsRow row) :
    draft.zoneId.bind uuidIn = row.zoneId := by
  obtain ⟨userId, zoneId, -, hzone, heq⟩ := NotificationService.Draft.row_eq_ok.mp h
  rw [heq]
  cases hdraft : draft.zoneId with
  | none =>
    rw [hdraft, NotificationService.uuidColumn] at hzone
    simpa using hzone
  | some text =>
    rw [hdraft, NotificationService.uuidColumn] at hzone
    cases hread : uuidIn text with
    | none => simp [hread] at hzone
    | some value => simpa [hread] using hzone

/-- An event gives notifications of its own title only. -/
theorem title_rows (h : buildNotifications event users = .ok drafts)
    (hrows : List.Forall₂ Draft.IsRow drafts rows) :
    ∀ row ∈ rows, noticeTitle event.eventType = some row.title := by
  have htitles := title_drafts h
  clear h
  induction hrows with
  | nil => simp
  | cons hrow _ ih =>
    rw [List.forall_mem_cons] at htitles ⊢
    rw [title_of_isRow hrow]
    exact ⟨htitles.1, ih htitles.2⟩

/-- An event of a personal type gives one notification, of the user and the zone it names. -/
theorem rows_of_personal (htype : event.eventType.Personal)
    (h : buildNotifications event users = .ok drafts)
    (hrows : List.Forall₂ Draft.IsRow drafts rows) : ∃ row, rows = [row] ∧
      event.payload.userId.bind uuidIn = some row.userId ∧
      event.payload.zoneId.bind uuidIn = row.zoneId := by
  obtain ⟨hrecipients, hzone⟩ := NotificationService.buildNotifications_ok h
  have hone : NotificationService.recipients event (users.getD []) = [event.payload.userId] := by
    cases ht : event.eventType with
    | queueJoined | queueLeft | reservationCreated | reservationCancelled =>
      simp [NotificationService.recipients, ht]
    | _ =>
      rw [ht] at htype
      exact absurd htype id
  rw [hone] at hrecipients
  obtain ⟨draft, rfl, huser⟩ := List.map_eq_singleton_iff.mp hrecipients
  obtain ⟨row, rest, hrow, hrest, rfl⟩ := List.forall₂_cons_left_iff.mp hrows
  obtain rfl := List.forall₂_nil_left_iff.mp hrest
  refine ⟨row, rfl, ?_, ?_⟩
  · rw [← huser]
    exact hrow.userId_eq
  · rw [← hzone draft List.mem_cons_self]
    exact zoneId_of_isRow hrow

end

/-! ## Events that are read as they were written -/

section

variable {D A R K P : Type} {S : OutboxService D A R K P} {wire : Wire K P}

variable (S wire) in
/-- The notification service reads a zone in each of the service's events, and the user if
there is one; none needs the admins, and the columns take the key. -/
structure Addressed where
  zoneOf : EventEnvelope K P → Uuid
  userOf : EventEnvelope K P → Option Uuid
  eventType : ∀ e, (wire.event e).eventType = e.eventType
  zone : ∀ {d e}, S.Inv d → e ∈ S.events d →
    (wire.event e).payload.zoneId.bind uuidIn = some (zoneOf e)
  user : ∀ {d e}, S.Inv d → e ∈ S.events d →
    (wire.event e).payload.userId.bind uuidIn = userOf e
  named : ∀ {d e}, S.Inv d → e ∈ S.events d → e.eventType.Personal → (userOf e).isSome = true
  entityId : ∀ {d e}, S.Inv d → e ∈ S.events d → (wire.event e).entityId.length ≤ 128
  types : ∀ {d e}, S.Inv d → e ∈ S.events d → e.eventType ∈ wire.types
  notOverloaded : .zoneOverloaded ∉ wire.types

/-- The notifications of a type for a user in a zone. -/
def isNotice (t : KafkaEventType) (zoneId userId : Uuid) (row : NotificationEntity) : Bool :=
  noticeTitle t == some row.title && row.userId == userId && row.zoneId == some zoneId

/-- The events of a type for a user in a zone. -/
def Addressed.isFor (h : Addressed S wire) (t : KafkaEventType) (zoneId userId : Uuid)
    (e : EventEnvelope K P) : Bool :=
  e.eventType == t && h.zoneOf e == zoneId && h.userOf e == some userId

/-- Notifications of another title. -/
theorem countP_isNotice_of_ne {t u : KafkaEventType} (ht : (noticeTitle t).isSome = true)
    (hne : u ≠ t)
    {rows : List NotificationEntity} (htitle : ∀ row ∈ rows, noticeTitle u = some row.title)
    (zoneId userId : Uuid) : rows.countP (isNotice t zoneId userId) = 0 := by
  rw [List.countP_eq_zero]
  intro row hrow h
  simp only [isNotice, Bool.and_eq_true, beq_iff_eq] at h
  exact hne (noticeTitle_inj ht ((htitle row hrow).trans h.1.1.symm))

/-- The notifications of a personal type are a kind, whose events are those of the type. -/
def Addressed.kind (h : Addressed S wire) (t : KafkaEventType) (ht : t.Personal)
    (hmem : t ∈ wire.types) (zoneId userId : Uuid) : Kind S wire where
  notice := isNotice t zoneId userId
  source := h.isFor t zoneId userId
  builds {d e users drafts rows} hd he _ hbuilt hrows := by
    have htype := h.eventType e
    by_cases heq : e.eventType = t
    · obtain ⟨row, rfl, huser, hzone⟩ := rows_of_personal (by rwa [htype, heq]) hbuilt hrows
      rw [h.user hd he] at huser
      rw [h.zone hd he] at hzone
      have htitle := title_rows hbuilt hrows row List.mem_cons_self
      rw [htype, heq] at htitle
      rw [List.countP_singleton]
      simp [isNotice, Addressed.isFor, heq, htitle, huser, ← hzone, and_comm]
    · have htitles := title_rows hbuilt hrows
      rw [htype] at htitles
      rw [countP_isNotice_of_ne ht.isSome heq htitles]
      simp [Addressed.isFor, heq]
  other {event users drafts rows} hforeign hbuilt hrows :=
    countP_isNotice_of_ne ht.isSome (fun heq : event.eventType = t => hforeign (heq ▸ hmem))
      (title_rows hbuilt hrows) zoneId userId

/-- The notifications of a type that a user got in a zone. -/
def Pipeline.notices (s : Pipeline D K P) (t : KafkaEventType) (zoneId userId : Uuid) : ℕ :=
  s.inbox.notifications.countP (isNotice t zoneId userId)

/-- The records of a type for a user in a zone. -/
def Addressed.records (h : Addressed S wire) (s : Pipeline D K P) (t : KafkaEventType)
    (zoneId userId : Uuid) : ℕ :=
  (S.events s.service).countP (h.isFor t zoneId userId)

/-- Those that wait for a delivery that goes through. -/
def Addressed.waiting (h : Addressed S wire) (s : Pipeline D K P) (t : KafkaEventType)
    (zoneId userId : Uuid) : ℕ :=
  (S.events s.service).countP fun e => h.isFor t zoneId userId e && s.awaited wire e

/-- After any run a user has, for each record of a personal type that waits no more, one
notification. -/
theorem Addressed.announced (h : Addressed S wire) {d : D} {request : R}
    (h0 : S.Starts d request) {as : List (ℕ × PipelineAction A)}
    (has : ∀ pa ∈ as, pa.2.Allowed S wire) {t : KafkaEventType} (ht : t.Personal)
    (hmem : t ∈ wire.types) (zoneId userId : Uuid) :
    let s := (run (Shared.step (Pipeline.act S wire)) (Pipeline.start d request) as).db
    s.notices t zoneId userId + h.waiting s t zoneId userId = h.records s t zoneId userId :=
  balanced_run h0 (h.kind t ht hmem zoneId userId) has

/-- No call of the delivery fails. -/
structure NoneFails (faults : Faults) : Prop where
  lookup : faults.lookup = false
  insert : ∀ i, faults.insert i = false
  mark : faults.mark = false
  commit : faults.commit.accepted = true

/-- The columns of the notification service take every event of the service. -/
theorem Addressed.faultless (h : Addressed S wire) {d : D} {e : EventEnvelope K P}
    (hd : S.Inv d) (he : e ∈ S.events d) {faults : Faults} (hfaults : NoneFails faults) :
    NotificationService.Faultless (wire.event e) faults := by
  have htype := h.eventType e
  have hne : (wire.event e).eventType ≠ .zoneOverloaded := by
    rw [htype]
    exact fun heq => h.notOverloaded (heq ▸ h.types hd he)
  obtain ⟨zone, hzone, hread⟩ := Option.bind_eq_some_iff.mp (h.zone hd he)
  refine ⟨hfaults.lookup, fun heq => absurd heq hne, fun i _ => hfaults.insert i, ?_,
    fun _ text htext => ?_, hfaults.mark, h.entityId hd he, hfaults.commit⟩
  · intro user huser
    -- the recipient is the user of a personal event
    have hpersonal : e.eventType.Personal ∧ user = (wire.event e).payload.userId := by
      rw [← htype]
      cases ht : (wire.event e).eventType with
      | zoneOverloaded => exact absurd ht hne
      | queueJoined | queueLeft | reservationCreated | reservationCancelled =>
        simp only [NotificationService.recipients, ht, List.mem_singleton] at huser
        exact ⟨trivial, huser⟩
      | occupancyUpdated | zoneStatusChanged | queueStatusChanged =>
        simp [NotificationService.recipients, ht] at huser
    obtain ⟨value, hvalue⟩ := Option.isSome_iff_exists.mp (h.named hd he hpersonal.1)
    obtain ⟨text, htext, htextRead⟩ := Option.bind_eq_some_iff.mp ((h.user hd he).trans hvalue)
    exact ⟨text, by rw [hpersonal.2, htext]; rfl, by simp [htextRead]⟩
  · rw [hzone] at htext
    obtain rfl := Option.some.inj htext
    simp [hread]

/-- What is processed stays so. -/
theorem awaited_act {s : Pipeline D K P} {e : EventEnvelope K P} (h : s.awaited wire e = false)
    (a : PipelineAction A) (q : Roles R K P) :
    (Pipeline.act S wire a s q).1.awaited wire e = false := by
  have hconsume : ∀ b (s : Pipeline D K P) (q : Roles R K P), s.awaited wire e = false →
      (s.consume b q).1.awaited wire e = false := by
    intro b s q h
    rcases NotificationService.act_db_cases b s.inbox q.delivery with
      hsame | ⟨faults, now, event, drafts, rfl, -, hsaved⟩
    · rw [Pipeline.awaited, Pipeline.consume, hsame]
      exact h
    · obtain ⟨-, -, -, hids⟩ := NotificationService.saveEvent_ok hsaved
      rw [Pipeline.awaited, Bool.not_eq_false', NotificationService.isProcessed_iff] at h ⊢
      rw [Pipeline.consume, hids]
      exact List.mem_append_left _ h
  have htake : ∀ i, (s.take wire i q).1.awaited wire e = false := by
    intro i
    rcases Pipeline.take_cases wire i s q with heq | ⟨m, -, -, heq⟩
    · rw [heq]
      exact h
    · rw [heq]
      exact hconsume _ { s with offset := min i s.offset } { q with taken := some i } h
  cases a with
  | request a => exact h
  | flush a => exact h
  | next => exact htake s.offset
  | deliver i => exact htake i
  | commitOffset =>
    rcases Pipeline.commitOffset_cases S wire s q with heq | ⟨-, -, heq⟩
    · rw [heq]
      exact h
    · rw [heq]
      exact h
  | inbox a => exact hconsume a s q h

theorem awaited_run {t : Shared (Pipeline D K P) (Roles R K P)} {e : EventEnvelope K P}
    (h : t.db.awaited wire e = false) (as : List (ℕ × PipelineAction A)) :
    (run (Shared.step (Pipeline.act S wire)) t as).db.awaited wire e = false := by
  have hkeep : ∀ (t : Shared (Pipeline D K P) (Roles R K P)) (pa : ℕ × PipelineAction A), True →
      t.db.awaited wire e = false →
        (Shared.step (Pipeline.act S wire) t pa).db.awaited wire e = false :=
    fun t pa _ ht => awaited_act ht pa.2 (t.requests pa.1)
  exact run_invariant (fun _ => True) hkeep h fun _ _ => trivial

/-- A delivery of a message that meets no fault leaves its event awaited no more, for good. -/
theorem awaited_of_faultless {d : D} {request : R} (h0 : S.Starts d request)
    {as : List (ℕ × PipelineAction A)} (has : ∀ pa ∈ as, pa.2.Allowed S wire) {p i : ℕ}
    {m : OutboxMessage K P} {faults : Faults} (now : ℤ)
    (hidle : ((run (Shared.step (Pipeline.act S wire)) (Pipeline.start d request) as).requests
      p).delivery = .idle)
    (hm : (run (Shared.step (Pipeline.act S wire)) (Pipeline.start d request) as).db.topic[i]? =
      some m)
    (hfaultless : S.Inv (run (Shared.step (Pipeline.act S wire)) (Pipeline.start d request)
        as).db.service →
      m.value ∈ S.events (run (Shared.step (Pipeline.act S wire)) (Pipeline.start d request)
        as).db.service → NotificationService.Faultless (wire.event m.value) faults)
    (bs : List (ℕ × PipelineAction A)) :
    (run (Shared.step (Pipeline.act S wire)) (Pipeline.start d request)
      (as ++ deliverSteps A p i faults now ++ bs)).db.awaited wire m.value = false := by
  have hsafe : (run (Shared.step (Pipeline.act S wire)) (Pipeline.start d request) as).Safe
      (Pipeline.Inv S wire) (Pipeline.Sound S wire) := safe_pipeline_run h0 has
  replace hfaultless := hfaultless hsafe.store.service
    (hsafe.store.topic m (List.mem_of_getElem? hm))
  rw [run_append]
  refine awaited_run ?_ bs
  rw [run_append, Pipeline.awaited, run_deliverSteps _ hidle hm hfaultless.lookup,
    Bool.not_eq_false', ← wire.eventId_eq]
  set t := run (Shared.step (Pipeline.act S wire)) (Pipeline.start d request) as with ht
  cases hprocessed : isProcessed t.db.inbox (wire.event m.value).eventId with
  | true =>
    rw [NotificationService.handleEvent_of_processed hprocessed]
    exact hprocessed
  | false =>
    obtain ⟨drafts, db', -, hsaved, heq⟩ :=
      NotificationService.handleEvent_of_faultless now hprocessed hfaultless
    obtain ⟨-, -, -, hids⟩ := NotificationService.saveEvent_ok hsaved
    rw [heq, NotificationService.isProcessed_iff, hids]
    simp

variable (S wire) in
/-- After any run that starts with the tables `d`, a delivery of a message of the topic that
meets no fault leaves its event awaited no more, for good. -/
def Deliverable (d : D) (request : R) : Prop :=
  ∀ (as bs : List (ℕ × PipelineAction A)) (p i : ℕ) (m : OutboxMessage K P) (faults : Faults)
    (now : ℤ), (∀ pa ∈ as, pa.2.Allowed S wire) →
    ((run (Shared.step (Pipeline.act S wire)) (Pipeline.start d request) as).requests p).delivery =
      .idle →
    (run (Shared.step (Pipeline.act S wire)) (Pipeline.start d request) as).db.topic[i]? = some m →
    NoneFails faults →
      (run (Shared.step (Pipeline.act S wire)) (Pipeline.start d request)
        (as ++ deliverSteps A p i faults now ++ bs)).db.awaited wire m.value = false

theorem Addressed.deliverable (h : Addressed S wire) {d : D} {request : R}
    (h0 : S.Starts d request) : Deliverable S wire d request := by
  intro as bs p i m faults now has hidle hm hfaults
  exact awaited_of_faultless h0 has now hidle hm (fun hd he => h.faultless hd he hfaults) bs

end

/-! ## UUIDs as texts -/

/-- How the UUIDs of an event are spelled in its JSON. The texts are those of the request, so two
events can spell one UUID in two ways. -/
structure Spelling where
  text : Uuid → String
  reads : ∀ u < 256 ^ 16, uuidIn (text u) = some u
  short : ∀ u < 256 ^ 16, (text u).length ≤ 128

theorem length_writeBytes_le (n u : ℕ) : (writeBytes n u).length ≤ 3 * n := by
  induction n with
  | zero => simp [writeBytes]
  | succ n ih =>
    rw [writeBytes]
    split_ifs
    · simp only [List.length_cons]
      omega
    · simp only [List.length_cons]
      omega

theorem length_uuidText_le (u : Uuid) : (uuidText u).length ≤ 128 := by
  rw [uuidText, String.length_ofList]
  exact (length_writeBytes_le 16 u).trans (by decide)

/-- As the services write them. -/
def Spelling.canonical : Spelling where
  text := uuidText
  reads u hu := by rw [uuidIn_uuidText, Nat.mod_eq_of_lt hu]
  short u _ := length_uuidText_le u

/-- What is sent of an event, but for its payload. -/
def Spelling.envelope {P : Type} (spelling : Uuid → Spelling) (draw : ℕ ↪ Uuid)
    (payload : Spelling → P → NotificationPayload) (e : EventEnvelope Uuid P) : DomainEvent where
  eventId := draw e.eventId
  eventType := e.eventType
  version := e.version
  occurredAt := e.occurredAt
  sourceService := e.sourceService
  correlationId := draw e.correlationId
  entityId := (spelling e.eventId).text e.entityId
  payload := payload (spelling e.eventId) e.payload

end Qoms
