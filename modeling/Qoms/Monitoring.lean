import Qoms.Table
import Qoms.Zone

/-!
# The monitoring and event ingestion service

`MonitoringService` of `services/monitoring-event-ingestion-service`. `ingestEvent` stores
the signal, updates the zone's telemetry snapshot and tries to publish the signal
(`tryPublish`); `retryPendingPublishes` tries again what is pending or failed. The topic
is the list of accepted messages, as a consumer parses them.

The zone service's `eachMessage` does not complete on every message that `ingestEvent`
publishes : the DTO takes any text for a zone id and any size of occupancy, the consumer
reads UUIDs and writes 32-bit integers and lets every error out.
`eachMessage_completes_iff` says which signals it can take.
-/

set_option autoImplicit false

namespace Qoms.MonitoringService

open ZoneService

/-! ## Data -/

/-- `CreateOccupancyEventDto`; `observedAt` is what `new Date` makes of the text. -/
structure CreateOccupancyEventDto where
  zoneId : String
  occupancy : ℤ
  source : Option String
  observedAt : Option JsDate

/-- `OccupancyEvent.publishStatus`. -/
inductive PublishStatus
  | pending
  | published
  | failed
  deriving DecidableEq, Repr

/-- `rawPayload`. -/
structure RawPayload where
  zoneId : String
  occupancy : ℤ
  source : String
  observedAt : ℤ
  deriving DecidableEq, Repr

/-- `OccupancyEvent`, a document of `occupancy_events`. -/
structure OccupancyEvent where
  eventId : Uuid
  correlationId : Uuid
  zoneId : String
  occupancy : ℤ
  source : String
  rawPayload : RawPayload
  publishStatus : PublishStatus
  retryCount : ℕ
  lastError : Option String
  observedAt : ℤ
  publishedAt : Option ℤ
  createdAt : ℤ
  deriving DecidableEq, Repr

/-- `TelemetrySnapshot`, a document of `telemetry_snapshots`. -/
structure TelemetrySnapshot where
  zoneId : String
  occupancy : ℤ
  source : String
  observedAt : ℤ
  rawPayload : RawPayload
  deriving DecidableEq, Repr

/-- The service's collections, and how many UUIDs were drawn. -/
structure MonitoringDb where
  events : List OccupancyEvent
  snapshots : List TelemetrySnapshot
  uuids : ℕ
  deriving Repr

/-- The accepted messages of the topic, in order. -/
abbrev Topic := List OccupancyEnvelope

/-! ## Publishing -/

/-- The envelope of an event, at the time `now`. -/
def OccupancyEvent.envelope (event : OccupancyEvent) (now : ℤ) : OccupancyEnvelope :=
  createEventEnvelope now event.eventId .occupancyUpdated "monitoring-event-ingestion-service"
    event.correlationId event.zoneId
    { zoneId := some event.zoneId
      occupancy := some event.occupancy
      currentOccupancy := none
      source := some event.source
      sourceEventId := some event.eventId
      observedAt := some event.observedAt }

/-- The document as `tryPublish` saves it. -/
def OccupancyEvent.settle (event : OccupancyEvent) (outcome : CallOutcome) (now : ℤ) :
    OccupancyEvent :=
  match outcome with
  | .acknowledged =>
    { event with publishStatus := .published, publishedAt := some now, lastError := none }
  | .failed message | .unacknowledged message =>
    { event with
      publishStatus := .failed
      retryCount := event.retryCount + 1
      lastError := some message }

/-- `tryPublish` of a document whose send ends with `outcome`. -/
def tryPublish (events : List OccupancyEvent) (topic : Topic) (event : OccupancyEvent)
    (outcome : CallOutcome) (now : ℤ) : List OccupancyEvent × Topic :=
  (saveRow (·.eventId) (event.settle outcome now) events,
    if outcome.accepted then topic ++ [event.envelope now] else topic)

/-! ## Ingesting -/

/-- `findOneAndUpdate` with `upsert`. -/
def upsertSnapshot (snapshots : List TelemetrySnapshot) (snapshot : TelemetrySnapshot) :
    List TelemetrySnapshot :=
  if snapshots.any (·.zoneId == snapshot.zoneId) then
    snapshots.map fun old => if old.zoneId = snapshot.zoneId then snapshot else old
  else snapshots ++ [snapshot]

/-- `observedAt` of the stored event; `toISOString` throws on an invalid date. -/
def CreateOccupancyEventDto.observedDate (dto : CreateOccupancyEventDto) (now : ℤ) : JsDate :=
  dto.observedAt.getD (some now)

/-- The document that `ingestEvent` creates. -/
def CreateOccupancyEventDto.event (dto : CreateOccupancyEventDto) (uuid : Uuid)
    (observedAt now : ℤ) : OccupancyEvent :=
  let source := dto.source.getD "admin_web"
  { eventId := uuid
    correlationId := uuid + 1
    zoneId := dto.zoneId
    occupancy := dto.occupancy
    source := source
    rawPayload := ⟨dto.zoneId, dto.occupancy, source, observedAt⟩
    publishStatus := .pending
    retryCount := 0
    lastError := none
    observedAt := observedAt
    publishedAt := none
    createdAt := now }

/-- The snapshot of a document. -/
def OccupancyEvent.snapshot (event : OccupancyEvent) : TelemetrySnapshot :=
  ⟨event.zoneId, event.occupancy, event.source, event.observedAt, event.rawPayload⟩

/-- `ingestEvent`, at the time `now`, with a send that ends with `outcome`; `none` is the
`RangeError` of an invalid date, before anything is written. The document it returns has
the fields of the response. -/
def ingestEvent (db : MonitoringDb) (topic : Topic) (dto : CreateOccupancyEventDto)
    (outcome : CallOutcome) (now : ℤ) : Option (OccupancyEvent × MonitoringDb × Topic) := do
  let observedAt ← dto.observedDate now
  let event := dto.event db.uuids observedAt now
  let (events, topic) := tryPublish (db.events ++ [event]) topic event outcome now
  return (event.settle outcome now,
    { events := events
      snapshots := upsertSnapshot db.snapshots event.snapshot
      uuids := db.uuids + 2 }, topic)

/-- The snapshot of a zone, which `getLatest` returns. -/
def latestOf (snapshots : List TelemetrySnapshot) (zoneId : String) : Option TelemetrySnapshot :=
  snapshots.find? (·.zoneId == zoneId)

/-! ## Retrying -/

/-- The query of `retryPendingPublishes`. -/
def pendingPublishes (rank : Uuid → ℕ) (events : List OccupancyEvent) : List OccupancyEvent :=
  findOldest
    (fun e => (e.publishStatus == .pending || e.publishStatus == .failed) && e.retryCount < 5)
    (·.createdAt) (fun e => rank e.eventId) 20 events

/-- `retryPendingPublishes` with no other writer between its query and its saves; each send
ends with an outcome of the list. -/
def retryPendingPublishes (db : MonitoringDb) (topic : Topic) (rank : Uuid → ℕ)
    (outcomes : List (CallOutcome × ℤ)) : MonitoringDb × Topic :=
  let (events, topic) := ((pendingPublishes rank db.events).zip outcomes).foldl
    (fun (events, topic) (event, outcome, now) => tryPublish events topic event outcome now)
    (db.events, topic)
  ({ db with events := events }, topic)

/-! ## What the service reads and writes -/

theorem mem_of_mem_pendingPublishes {rank : Uuid → ℕ} {events : List OccupancyEvent}
    {event : OccupancyEvent} (h : event ∈ pendingPublishes rank events) : event ∈ events :=
  (mem_of_mem_findOldest h).1

theorem latestOf_upsertSnapshot (snapshots : List TelemetrySnapshot)
    (snapshot : TelemetrySnapshot) :
    latestOf (upsertSnapshot snapshots snapshot) snapshot.zoneId = some snapshot := by
  unfold latestOf upsertSnapshot
  split_ifs with hany
  · obtain ⟨old, hmem, hold⟩ := List.any_eq_true.mp hany
    have hsame : ((fun s : TelemetrySnapshot => s.zoneId == snapshot.zoneId) ∘
        fun old => if old.zoneId = snapshot.zoneId then snapshot else old) =
        fun s => s.zoneId == snapshot.zoneId := by
      funext s
      rw [Function.comp_apply]
      split_ifs with hs <;> simp [hs]
    rw [List.find?_map, hsame]
    cases hfind : snapshots.find? (·.zoneId == snapshot.zoneId) with
    | none => exact absurd hold (by simpa using List.find?_eq_none.mp hfind old hmem)
    | some found =>
      have hfound : found.zoneId = snapshot.zoneId := by simpa using List.find?_some hfind
      rw [Option.map_some, if_pos hfound]
  · rw [List.find?_append, List.find?_eq_none.mpr fun s hs => by
      simpa using fun h => hany (List.any_eq_true.mpr ⟨s, hs, by simpa using h⟩)]
    simp

theorem tryPublish_eventIds (events : List OccupancyEvent) (topic : Topic)
    (event : OccupancyEvent) (outcome : CallOutcome) (now : ℤ) :
    (tryPublish events topic event outcome now).1.map (·.eventId) = events.map (·.eventId) :=
  map_id_saveRow (·.eventId) _ events

theorem tryPublish_topic (events : List OccupancyEvent) (topic : Topic) (event : OccupancyEvent)
    (outcome : CallOutcome) (now : ℤ) : (tryPublish events topic event outcome now).2 =
      topic ++ if outcome.accepted then [event.envelope now] else [] := by
  unfold tryPublish
  split_ifs <;> simp

/-- An ingestion stores one document more, and its message if the broker accepts it. -/
theorem ingestEvent_ok {db db' : MonitoringDb} {topic topic' : Topic}
    {dto : CreateOccupancyEventDto} {outcome : CallOutcome} {now : ℤ} {event : OccupancyEvent}
    (h : ingestEvent db topic dto outcome now = some (event, db', topic')) :
    ∃ observedAt,
      db'.events.map (·.eventId) = db.events.map (·.eventId) ++ [db.uuids] ∧
      topic' = topic ++
        if outcome.accepted then [(dto.event db.uuids observedAt now).envelope now] else [] := by
  simp only [ingestEvent, Option.bind_eq_bind, Option.bind_eq_some_iff, Option.pure_def,
    Option.some_inj, Prod.mk.injEq] at h
  obtain ⟨observedAt, -, -, rfl, rfl⟩ := h
  refine ⟨observedAt, ?_, tryPublish_topic _ _ _ _ _⟩
  rw [tryPublish_eventIds, List.map_append]
  rfl

/-! ## What the consumer can take -/

/-- The zone service can take a signal : its zone id spells a UUID, and there is no such
zone, or its occupancy is a 32-bit integer. -/
def Processable (db : ZoneDb) (dto : CreateOccupancyEventDto) : Prop :=
  ∃ zoneId, uuidIn dto.zoneId = some zoneId ∧
    ((∀ zone ∈ db.zones, zone.id ≠ zoneId) ∨ dto.occupancy ≤ 2147483647)

/-- A message that `ingestEvent` publishes, of an event that was not processed before : the
zone service's `eachMessage` completes on it exactly when it can take the signal. -/
theorem eachMessage_completes_iff {db db' : MonitoringDb} {topic : Topic}
    {dto : CreateOccupancyEventDto} {outcome : CallOutcome} {now : ℤ} {event : OccupancyEvent}
    {message : OccupancyEnvelope} {zones : ZoneDb} {clock : Clock}
    (hpublish : ingestEvent db topic dto outcome now = some (event, db', topic ++ [message]))
    (hnew : isProcessed zones.processed db.uuids = false)
    (hrows : ∀ zone ∈ zones.zones, int4 zone.currentOccupancy = true) :
    (∃ zones', eachMessage zones (.envelope message) clock = .ok zones') ↔
      Processable zones dto := by
  obtain ⟨observedAt, -, htopic⟩ := ingestEvent_ok hpublish
  have hmessage : message = (dto.event db.uuids observedAt now).envelope now := by
    split_ifs at htopic with haccepted
    · exact List.singleton_inj.mp (List.append_cancel_left htopic)
    · simp at htopic
  subst hmessage
  rw [eachMessage_ok_iff rfl, handleOccupancyUpdated_ok_iff hnew]
  have hid : zoneIdOf ((dto.event db.uuids observedAt now).envelope now) = dto.zoneId := rfl
  have hocc : occupancyOf ((dto.event db.uuids observedAt now).envelope now) = dto.occupancy := rfl
  rw [hid, hocc]
  refine exists_congr fun zoneId => and_congr_right fun _ => ?_
  have hfits : int4 (max 0 dto.occupancy) = true ↔ dto.occupancy ≤ 2147483647 := by
    rw [int4_iff]
    omega
  simp only [columnsFit_applyOccupancy, hfits]
  constructor
  · intro h
    cases hrow : zones.row zoneId with
    | none => exact Or.inl (ZoneDb.row_eq_none.mp hrow)
    | some row =>
      right
      obtain ⟨zone, hfind, rfl⟩ := ZoneDb.row_eq_some.mp hrow
      rcases h _ hrow with heq | hfit
      · have hstored := hrows zone (List.mem_of_find?_eq_some hfind)
        rw [show zone.currentOccupancy = max 0 dto.occupancy from heq] at hstored
        exact hfits.mp hstored
      · exact hfit
  · rintro (hnone | hle) row hrow
    · rw [ZoneDb.row_eq_none.mpr hnone] at hrow
      exact absurd hrow (by simp)
    · exact Or.inr hle

/-- A signal for a zone that is not spelled as a UUID. -/
def cafeteria : CreateOccupancyEventDto :=
  ⟨"cafeteria", 5, none, none⟩

/-- The signal is published, and `eachMessage` throws on it. -/
theorem cafeteria_blocks : ∃ event db' message,
    ingestEvent ⟨[], [], 0⟩ [] cafeteria .acknowledged 0 = some (event, db', [message]) ∧
      eachMessage ⟨[], [], [], [], 0⟩ (.envelope message) ⟨0, 0⟩ =
        .error (.database .invalidUuid) :=
  ⟨_, _, _, rfl, rfl⟩

/-- A signal for the zone 1. -/
def smokeTest : CreateOccupancyEventDto :=
  ⟨uuidOne, 110, some "smoke_test", none⟩

/-- The table of the zone 1. -/
def oneZone : ZoneDb :=
  ⟨[⟨1, "Zone", .diningZone, .open, 100, 0, 0, 0⟩], [], [], [], 2⟩

theorem smokeTest_published : ingestEvent ⟨[], [], 5⟩ [] smokeTest .acknowledged 0 =
    some ((smokeTest.event 5 0 0).settle .acknowledged 0,
      ⟨[(smokeTest.event 5 0 0).settle .acknowledged 0], [(smokeTest.event 5 0 0).snapshot], 7⟩,
      [] ++ [(smokeTest.event 5 0 0).envelope 0]) :=
  rfl

/-- The signal is published, and `eachMessage` completes on it. -/
theorem smokeTest_completes : ∃ event db' message,
    ingestEvent ⟨[], [], 5⟩ [] smokeTest .acknowledged 0 = some (event, db', [message]) ∧
      ∃ zones', eachMessage oneZone (.envelope message) ⟨0, 0⟩ = .ok zones' :=
  ⟨_, _, _, smokeTest_published, (eachMessage_completes_iff smokeTest_published rfl (by decide)).mpr
    ⟨1, by decide, Or.inr (by decide)⟩⟩

end Qoms.MonitoringService
