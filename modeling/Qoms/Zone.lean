import Qoms.Guards
import Qoms.Outbox
import Qoms.Table

/-!
# The zone management service

`ZoneService` of `services/zone-management-service`. `updateZone` reads the zone, assigns
the fields of the request to it and saves it, in one transaction. `handleOccupancyUpdated`
looks the event up among the processed ones; in a transaction it reads the zone and its
rules, applies the occupancy (`applyOccupancy`), saves the zone, records the event as
processed and writes one or two outbox events. `eachMessage` is the Kafka consumer around
it, which lets every error out.

`manager.save` compares the entity with its row at the time of the save and writes the
columns that differ, so the row becomes the entity (`saveZone`). Redis is left out here :
the handlers only delete keys in it.
-/

set_option autoImplicit false

namespace Qoms.ZoneService

/-! ## Data -/

/-- `ZoneEntity`. -/
structure ZoneEntity where
  id : Uuid
  name : String
  type : ZoneType
  status : ZoneStatus
  capacity : ℤ
  currentOccupancy : ℤ
  createdAt : ℤ
  updatedAt : ℤ
  deriving DecidableEq, Repr

/-- The columns of a zone that the handlers change. -/
structure ZoneRow where
  name : String
  capacity : ℤ
  status : ZoneStatus
  currentOccupancy : ℤ
  deriving DecidableEq, Repr

/-- `ZoneRuleEntity`, but for its two time columns. -/
structure ZoneRuleEntity where
  zoneId : Uuid
  queueEnabled : Bool
  reservationEnabled : Bool
  overloadThresholdPct : ℤ
  estimatedServiceMinutesPerPerson : ℤ
  reservationSlotMinutes : ℤ
  reservationWindowDays : ℤ
  maxQueueSize : ℤ
  deriving DecidableEq, Repr

/-- `ProcessedEventEntity`. -/
structure ProcessedEvent where
  id : Uuid
  eventId : Uuid
  eventType : KafkaEventType
  entityId : Uuid
  processedAt : ℤ
  deriving DecidableEq, Repr

/-- The payloads of the service's events : a JSON record with some of these fields. -/
structure ZonePayload where
  zoneId : Uuid
  status : Option ZoneStatus
  currentOccupancy : Option ℤ
  actorId : Option String
  sourceEventId : Option Uuid
  rulesUpdated : Option Bool
  deriving DecidableEq, Repr

/-- The service's schema, and how many UUIDs were drawn. -/
structure ZoneDb where
  zones : List ZoneEntity
  rules : List ZoneRuleEntity
  outbox : List (OutboxEvent Uuid ZonePayload)
  processed : List ProcessedEvent
  uuids : ℕ
  deriving Repr

/-- `UpdateZoneDto` : a field that the body leaves out is `none`. -/
structure UpdateZoneDto where
  name : Option String
  capacity : Option ℤ
  status : Option ZoneStatus
  name_ne : ∀ n ∈ name, n ≠ ""
  capacity_pos : ∀ c ∈ capacity, 1 ≤ c

theorem UpdateZoneDto.noName : ∀ n ∈ (none : Option String), n ≠ "" := by
  simp

theorem UpdateZoneDto.noCapacity : ∀ c ∈ (none : Option ℤ), 1 ≤ c := by
  simp

/-- The request that closes a zone. -/
def closing : UpdateZoneDto :=
  ⟨none, none, some .closed, UpdateZoneDto.noName, UpdateZoneDto.noCapacity⟩

/-- An `occupancy_updated` event. -/
abbrev OccupancyEnvelope := EventEnvelope String OccupancyPayload

/-! ## The zones table -/

/-- `findOne` of the zone with the id a text spells. -/
def findZone (zones : List ZoneEntity) (id : String) : Except DbError (Option ZoneEntity) :=
  match uuidIn id with
  | none => .error .invalidUuid
  | some id => .ok (zones.find? (·.id == id))

def ZoneEntity.row (zone : ZoneEntity) : ZoneRow :=
  ⟨zone.name, zone.capacity, zone.status, zone.currentOccupancy⟩

/-- The columns that `manager.save` writes take their values : those that differ from the
row, or all if there is none. -/
def columnsFit (old : Option ZoneRow) (new : ZoneRow) : Bool :=
  (old.any (·.name == new.name) || varchar255 new.name) &&
    (old.any (·.capacity == new.capacity) || int4 new.capacity) &&
    (old.any (·.currentOccupancy == new.currentOccupancy) || int4 new.currentOccupancy)

/-- `updated_at` is set with the columns that are written. -/
def ZoneEntity.touch (zone : ZoneEntity) (now : ℤ) : ZoneEntity :=
  { zone with updatedAt := now }

/-- `manager.save` of a zone, at the database time `now` : a new row, or the columns that
differ from the row it has, and with them `updated_at`. -/
def saveZone (zones : List ZoneEntity) (zone : ZoneEntity) (now : ℤ) :
    Except DbError (List ZoneEntity) :=
  match zones.find? (·.id == zone.id) with
  | none =>
    if columnsFit none zone.row then
      .ok (zones ++ [{ zone with createdAt := now, updatedAt := now }])
    else .error .outOfRange
  | some old =>
    if zone.row = old.row then .ok zones
    else if columnsFit (some old.row) zone.row then
      .ok (saveRow (·.id) (zone.touch now) zones)
    else .error .outOfRange

/-- The row of a zone, by its id. -/
def ZoneDb.row (db : ZoneDb) (id : Uuid) : Option ZoneRow :=
  (db.zones.find? (·.id == id)).map (·.row)

theorem ZoneDb.row_eq_some {db : ZoneDb} {id : Uuid} {row : ZoneRow} :
    db.row id = some row ↔ ∃ zone, db.zones.find? (·.id == id) = some zone ∧ zone.row = row :=
  Option.map_eq_some_iff

theorem find?_id {zones : List ZoneEntity} {id : Uuid} {zone : ZoneEntity}
    (h : zones.find? (·.id == id) = some zone) : zone.id = id := by
  simpa using List.find?_some h

/-- After a save the row is the entity. -/
theorem saveZone_row {zones zones' : List ZoneEntity} {zone old : ZoneEntity} {now : ℤ}
    (hold : zones.find? (·.id == zone.id) = some old) (h : saveZone zones zone now = .ok zones') :
    (zones'.find? (·.id == zone.id)).map (·.row) = some zone.row := by
  simp only [saveZone, hold] at h
  split_ifs at h with hsame hfit
  · obtain rfl := Except.ok.inj h
    rw [hold, Option.map_some, hsame]
  · obtain rfl := Except.ok.inj h
    have hold' : zones.find? (·.id == (zone.touch now).id) = some old := hold
    have hsaved := find?_saveRow ZoneEntity.id hold'
    exact congrArg (Option.map (·.row)) hsaved

/-- A save succeeds when the columns it writes fit. -/
theorem saveZone_ok_iff {zones : List ZoneEntity} {zone old : ZoneEntity} {now : ℤ}
    (hold : zones.find? (·.id == zone.id) = some old) :
    (∃ zones', saveZone zones zone now = .ok zones') ↔
      columnsFit (some old.row) zone.row = true := by
  simp only [saveZone, hold]
  split_ifs with hsame hfit
  · simp [columnsFit, hsame]
  · simp [hfit]
  · simp [hfit]

/-! ## Updating a zone -/

/-- `Object.assign(zone, dto)`. -/
def ZoneEntity.assign (zone : ZoneEntity) (dto : UpdateZoneDto) : ZoneEntity :=
  { zone with
    name := dto.name.getD zone.name
    capacity := dto.capacity.getD zone.capacity
    status := dto.status.getD zone.status }

/-- The read of `updateZone` and its assignment. -/
def editZone (zones : List ZoneEntity) (id : String) (dto : UpdateZoneDto) :
    Except HttpError ZoneEntity := do
  let .ok found := findZone zones id | throw .database
  let some zone := found | throw (.notFound "Zone not found")
  return zone.assign dto

/-- The save of `updateZone` : the zone and its `zone_status_changed` event. -/
def saveEdit (db : ZoneDb) (zone : ZoneEntity) (actorId : String) (clock : Clock) :
    Except HttpError ZoneDb := do
  let .ok zones := saveZone db.zones zone clock.dbNow | throw .database
  let payload : ZonePayload := ⟨zone.id, some zone.status, some zone.currentOccupancy,
    some actorId, none, none⟩
  return { db with
    zones := zones
    outbox := db.outbox ++ [createOutbox "zone-management-service" clock (db.uuids + 1)
      .zoneStatusChanged zone.id db.uuids payload]
    uuids := db.uuids + 3 }

/-- `updateZone`, but for the response, which is `getZone` afterwards. -/
def updateZone (db : ZoneDb) (id : String) (dto : UpdateZoneDto) (actorId : String)
    (clock : Clock) : Except HttpError ZoneDb := do
  let zone ← editZone db.zones id dto
  saveEdit db zone actorId clock

/-! ## Handling an occupancy event -/

/-- `Math.round((currentOccupancy / capacity) * 100)`, the quotient taken exactly : the
nearest integer, halves rounded up. -/
def occupancyPct (currentOccupancy capacity : ℤ) : ℤ :=
  (200 * currentOccupancy + capacity) / (2 * capacity)

/-- The status `handleOccupancyUpdated` gives to a zone. -/
def nextStatus (rules : Option ZoneRuleEntity) (currentOccupancy capacity : ℤ)
    (status : ZoneStatus) : ZoneStatus :=
  if status = .closed then status
  else if rules.any fun r => r.overloadThresholdPct ≤ occupancyPct currentOccupancy capacity then
    .overloaded
  else if status = .overloaded then .open
  else status

/-- The zone as `handleOccupancyUpdated` changes it in memory. -/
def ZoneEntity.applyOccupancy (zone : ZoneEntity) (rules : Option ZoneRuleEntity)
    (occupancy : ℤ) : ZoneEntity :=
  { zone with
    currentOccupancy := max 0 occupancy
    status := nextStatus rules (max 0 occupancy) zone.capacity zone.status }

/-- `String(event.payload.zoneId ?? event.entityId)`. -/
def zoneIdOf (event : OccupancyEnvelope) : String :=
  event.payload.zoneId.getD event.entityId

/-- `Number(event.payload.occupancy ?? event.payload.currentOccupancy ?? 0)`. -/
def occupancyOf (event : OccupancyEnvelope) : ℤ :=
  (event.payload.occupancy.or event.payload.currentOccupancy).getD 0

/-- The lookup of an event among the processed ones. -/
def isProcessed (processed : List ProcessedEvent) (eventId : Uuid) : Bool :=
  processed.any (·.eventId == eventId)

/-- `findOne` of a zone's rules. -/
def rulesOf (rules : List ZoneRuleEntity) (zoneId : Uuid) : Option ZoneRuleEntity :=
  rules.find? (·.zoneId == zoneId)

/-- The reads of the transaction : the zone of the event, and its rules. -/
def readZone (db : ZoneDb) (event : OccupancyEnvelope) :
    Except DbError (Option (ZoneEntity × Option ZoneRuleEntity)) := do
  let found ← findZone db.zones (zoneIdOf event)
  return found.map fun zone => (zone, rulesOf db.rules zone.id)

/-- The writes of the transaction : the zone with the occupancy applied, the processed
event, and the outbox events. -/
def saveOccupancy (db : ZoneDb) (event : OccupancyEnvelope) (zone : ZoneEntity)
    (rules : Option ZoneRuleEntity) (clock : Clock) : Except DbError ZoneDb := do
  let changed := zone.applyOccupancy rules (occupancyOf event)
  let zones ← saveZone db.zones changed clock.dbNow
  if isProcessed db.processed event.eventId then throw .uniqueViolation
  let payload : ZonePayload := ⟨zone.id, some changed.status, some changed.currentOccupancy,
    none, some event.eventId, none⟩
  let statusChanged := createOutbox "zone-management-service" clock (db.uuids + 1)
    .zoneStatusChanged zone.id event.correlationId payload
  let overloaded := createOutbox "zone-management-service" clock (db.uuids + 3)
    .zoneOverloaded zone.id event.correlationId payload
  return { db with
    zones := zones
    processed := db.processed ++
      [⟨db.uuids, event.eventId, event.eventType, zone.id, clock.dbNow⟩]
    outbox := db.outbox ++ statusChanged ::
      if zone.status ≠ .overloaded ∧ changed.status = .overloaded then [overloaded] else []
    uuids := db.uuids + 5 }

/-- `handleOccupancyUpdated`; an event for an unknown zone is ignored with a warning. -/
def handleOccupancyUpdated (db : ZoneDb) (event : OccupancyEnvelope) (clock : Clock) :
    Except DbError ZoneDb := do
  if isProcessed db.processed event.eventId then return db
  let some (zone, rules) ← readZone db event | return db
  saveOccupancy db event zone rules clock

/-- What `eachMessage` throws. -/
inductive ConsumerError
  | json
  | database (error : DbError)
  deriving DecidableEq, Repr

/-- `eachMessage` of the zone service's consumer. -/
def eachMessage (db : ZoneDb) (value : MessageValue String OccupancyPayload) (clock : Clock) :
    Except ConsumerError ZoneDb :=
  match value with
  | .absent => .ok db
  | .malformed => .error .json
  | .unlisted => .ok db
  | .envelope event =>
    if event.eventType = .occupancyUpdated then
      (handleOccupancyUpdated db event clock).mapError .database
    else .ok db

/-- `eachMessage` completes on an occupancy event when the handler does. -/
theorem eachMessage_ok_iff {db : ZoneDb} {event : OccupancyEnvelope} {clock : Clock}
    (h : event.eventType = .occupancyUpdated) :
    (∃ db', eachMessage db (.envelope event) clock = .ok db') ↔
      ∃ db', handleOccupancyUpdated db event clock = .ok db' := by
  simp only [eachMessage, if_pos h, mapError_eq_ok]

theorem eachMessage_ok {db db' : ZoneDb} {event : OccupancyEnvelope} {clock : Clock}
    (htype : event.eventType = .occupancyUpdated)
    (h : eachMessage db (.envelope event) clock = .ok db') :
    handleOccupancyUpdated db event clock = .ok db' := by
  simpa only [eachMessage, if_pos htype, mapError_eq_ok] using h

/-! ## What the handlers read and write -/

/-- `assign` on the columns. -/
def ZoneRow.assign (row : ZoneRow) (dto : UpdateZoneDto) : ZoneRow where
  name := dto.name.getD row.name
  capacity := dto.capacity.getD row.capacity
  status := dto.status.getD row.status
  currentOccupancy := row.currentOccupancy

/-- `applyOccupancy` on the columns. -/
def ZoneRow.applyOccupancy (row : ZoneRow) (rules : Option ZoneRuleEntity) (occupancy : ℤ) :
    ZoneRow where
  name := row.name
  capacity := row.capacity
  status := nextStatus rules (max 0 occupancy) row.capacity row.status
  currentOccupancy := max 0 occupancy

section

variable {db db' : ZoneDb} {id : String} {zoneId : Uuid} {row : ZoneRow} {zone : ZoneEntity}
  {dto : UpdateZoneDto} {actorId : String} {clock : Clock} {event : OccupancyEnvelope}
  {rules : Option ZoneRuleEntity}

theorem editZone_ok (hid : uuidIn id = some zoneId) (hrow : db.row zoneId = some row) :
    ∃ zone, editZone db.zones id dto = .ok zone ∧ zone.id = zoneId ∧
      zone.row = row.assign dto := by
  obtain ⟨zone, hfind, rfl⟩ := ZoneDb.row_eq_some.mp hrow
  have hz : zone.id = zoneId := find?_id hfind
  refine ⟨zone.assign dto, ?_, hz, rfl⟩
  simp [editZone, findZone, hid, hfind]

/-- `saveEdit` succeeds when the columns fit. -/
theorem saveEdit_ok_iff (hrow : db.row zone.id = some row) :
    (∃ db', saveEdit db zone actorId clock = .ok db') ↔ columnsFit (some row) zone.row = true := by
  obtain ⟨old, hfind, rfl⟩ := ZoneDb.row_eq_some.mp hrow
  have hsave : (∃ zones', saveZone db.zones zone clock.dbNow = .ok zones') ↔
      columnsFit (some old.row) zone.row = true := saveZone_ok_iff hfind
  rw [← hsave]
  unfold saveEdit
  cases saveZone db.zones zone clock.dbNow with
  | error e => simp
  | ok zones => simp

/-- What a `saveEdit` that succeeds has saved. -/
theorem saveEdit_eq_ok (h : saveEdit db zone actorId clock = .ok db') :
    ∃ zones, saveZone db.zones zone clock.dbNow = .ok zones ∧
      db' = { db with
        zones := zones
        outbox := db.outbox ++ [createOutbox "zone-management-service" clock (db.uuids + 1)
          .zoneStatusChanged zone.id db.uuids
          ⟨zone.id, some zone.status, some zone.currentOccupancy, some actorId, none, none⟩]
        uuids := db.uuids + 3 } := by
  unfold saveEdit at h
  cases hsave : saveZone db.zones zone clock.dbNow with
  | error e => simp [hsave] at h
  | ok zones =>
    simp only [hsave, pure_eq_ok] at h
    exact ⟨zones, rfl, h.symm⟩

/-- `saveEdit` saves the zone and touches no rules and no processed events. -/
theorem saveEdit_ok (h : saveEdit db zone actorId clock = .ok db') :
    saveZone db.zones zone clock.dbNow = .ok db'.zones ∧ db'.rules = db.rules ∧
      db'.processed = db.processed := by
  obtain ⟨zones, hsave, rfl⟩ := saveEdit_eq_ok h
  exact ⟨hsave, rfl, rfl⟩

theorem saveEdit_row (hrow : db.row zone.id = some row)
    (h : saveEdit db zone actorId clock = .ok db') : db'.row zone.id = some zone.row := by
  obtain ⟨old, hfind, rfl⟩ := ZoneDb.row_eq_some.mp hrow
  exact saveZone_row hfind (saveEdit_ok h).1

theorem readZone_ok (hid : uuidIn (zoneIdOf event) = some zoneId)
    (hrow : db.row zoneId = some row) :
    ∃ zone, readZone db event = .ok (some (zone, rulesOf db.rules zoneId)) ∧
      zone.id = zoneId ∧ zone.row = row := by
  obtain ⟨zone, hfind, rfl⟩ := ZoneDb.row_eq_some.mp hrow
  have hz := find?_id hfind
  refine ⟨zone, ?_, hz, rfl⟩
  simp [readZone, findZone, hid, hfind, hz]

/-- `saveOccupancy` succeeds when the columns fit and the event is not processed. -/
theorem saveOccupancy_ok_iff (hrow : db.row zone.id = some row) :
    (∃ db', saveOccupancy db event zone rules clock = .ok db') ↔
      columnsFit (some row) (zone.row.applyOccupancy rules (occupancyOf event)) = true ∧
        isProcessed db.processed event.eventId = false := by
  obtain ⟨old, hfind, rfl⟩ := ZoneDb.row_eq_some.mp hrow
  have hfind' : db.zones.find? (·.id == (zone.applyOccupancy rules (occupancyOf event)).id) =
      some old := hfind
  have hsave : (∃ zones', saveZone db.zones (zone.applyOccupancy rules (occupancyOf event))
      clock.dbNow = .ok zones') ↔
        columnsFit (some old.row) (zone.row.applyOccupancy rules (occupancyOf event)) = true :=
    saveZone_ok_iff hfind'
  rw [← hsave]
  simp only [saveOccupancy, bind_eq_ok, throw_bind, throw_if_eq_ok, pure_eq_ok]
  constructor
  · rintro ⟨db', zones', hzones, hdone, -⟩
    exact ⟨⟨zones', hzones⟩, by simpa using hdone⟩
  · rintro ⟨⟨zones', hzones⟩, hdone⟩
    exact ⟨_, zones', hzones, by simpa using hdone, rfl⟩

/-- `saveOccupancy` saves the zone with the occupancy applied, touches no rules and
records the event as processed. -/
theorem saveOccupancy_ok (h : saveOccupancy db event zone rules clock = .ok db') :
    saveZone db.zones (zone.applyOccupancy rules (occupancyOf event)) clock.dbNow =
        .ok db'.zones ∧ db'.rules = db.rules ∧
      db'.processed.map (·.eventId) = db.processed.map (·.eventId) ++ [event.eventId] := by
  simp only [saveOccupancy, bind_eq_ok, throw_bind, throw_if_eq_ok, pure_eq_ok] at h
  obtain ⟨zones, hsave, -, rfl⟩ := h
  exact ⟨hsave, rfl, by simp⟩

theorem saveOccupancy_row (hrow : db.row zone.id = some row)
    (h : saveOccupancy db event zone rules clock = .ok db') :
    db'.row zone.id = some (zone.row.applyOccupancy rules (occupancyOf event)) := by
  obtain ⟨old, hfind, rfl⟩ := ZoneDb.row_eq_some.mp hrow
  have hfind' : db.zones.find? (·.id == (zone.applyOccupancy rules (occupancyOf event)).id) =
      some old := hfind
  exact saveZone_row hfind' (saveOccupancy_ok h).1

/-- `updateZone` of an existing zone saves it with the fields of the request. -/
theorem updateZone_eq (hid : uuidIn id = some zoneId) (hrow : db.row zoneId = some row) :
    ∃ zone, updateZone db id dto actorId clock = saveEdit db zone actorId clock ∧
      zone.id = zoneId ∧ zone.row = row.assign dto := by
  obtain ⟨zone, hedit, hz, hzone⟩ : ∃ zone, editZone db.zones id dto = .ok zone ∧
    zone.id = zoneId ∧ zone.row = row.assign dto := editZone_ok hid hrow
  refine ⟨zone, ?_, hz, hzone⟩
  rw [updateZone, hedit]
  rfl

/-- `handleOccupancyUpdated` of a new event for an existing zone saves it with the
occupancy applied. -/
theorem handleOccupancyUpdated_eq (hid : uuidIn (zoneIdOf event) = some zoneId)
    (hrow : db.row zoneId = some row) (hnew : isProcessed db.processed event.eventId = false) :
    ∃ zone, handleOccupancyUpdated db event clock =
        saveOccupancy db event zone (rulesOf db.rules zoneId) clock ∧
      zone.id = zoneId ∧ zone.row = row := by
  obtain ⟨zone, hread, hz, hzone⟩ := readZone_ok hid hrow
  refine ⟨zone, ?_, hz, hzone⟩
  simp [handleOccupancyUpdated, hnew, hread]
  rfl

theorem isProcessed_iff {processed : List ProcessedEvent} {eventId : Uuid} :
    isProcessed processed eventId = true ↔ eventId ∈ processed.map (·.eventId) := by
  simp [isProcessed]

/-- A handled event for an existing zone was processed before, or is now, with its
occupancy applied to the row. -/
theorem handleOccupancyUpdated_ok (hid : uuidIn (zoneIdOf event) = some zoneId)
    (hrow : db.row zoneId = some row) (h : handleOccupancyUpdated db event clock = .ok db') :
    (event.eventId ∈ db.processed.map (·.eventId) ∧ db' = db) ∨
    (event.eventId ∉ db.processed.map (·.eventId) ∧
      db'.row zoneId =
        some (row.applyOccupancy (rulesOf db.rules zoneId) (occupancyOf event)) ∧
      db'.processed.map (·.eventId) = db.processed.map (·.eventId) ++ [event.eventId]) := by
  cases hdone : isProcessed db.processed event.eventId with
  | true =>
    simp [handleOccupancyUpdated, hdone] at h
    exact Or.inl ⟨isProcessed_iff.mp hdone, h.symm⟩
  | false =>
    obtain ⟨zone, hhandle, rfl, rfl⟩ : ∃ zone, handleOccupancyUpdated db event clock =
      saveOccupancy db event zone (rulesOf db.rules zoneId) clock ∧ zone.id = zoneId ∧
        zone.row = row := handleOccupancyUpdated_eq hid hrow hdone
    rw [hhandle] at h
    refine Or.inr ⟨?_, saveOccupancy_row hrow h, (saveOccupancy_ok h).2.2⟩
    rw [← isProcessed_iff, hdone]
    exact Bool.false_ne_true

theorem ZoneDb.row_eq_none : db.row zoneId = none ↔ ∀ zone ∈ db.zones, zone.id ≠ zoneId := by
  simp [ZoneDb.row]

theorem columnsFit_applyOccupancy {occupancy : ℤ} :
    columnsFit (some row) (row.applyOccupancy rules occupancy) = true ↔
      row.currentOccupancy = max 0 occupancy ∨ int4 (max 0 occupancy) = true := by
  simp [columnsFit, ZoneRow.applyOccupancy]

/-- `handleOccupancyUpdated` of a new event succeeds when the text of its zone is a UUID,
and that of no zone or of one whose columns take the occupancy. -/
theorem handleOccupancyUpdated_ok_iff
    (hnew : isProcessed db.processed event.eventId = false) :
    (∃ db', handleOccupancyUpdated db event clock = .ok db') ↔
      ∃ zoneId, uuidIn (zoneIdOf event) = some zoneId ∧ ∀ row, db.row zoneId = some row →
        columnsFit (some row)
          (row.applyOccupancy (rulesOf db.rules zoneId) (occupancyOf event)) = true := by
  cases hid : uuidIn (zoneIdOf event) with
  | none => simp [handleOccupancyUpdated, hnew, readZone, findZone, hid]
  | some zoneId =>
    cases hrow : db.row zoneId with
    | none =>
      have hfind : db.zones.find? (·.id == zoneId) = none := by simpa [ZoneDb.row] using hrow
      simp [handleOccupancyUpdated, hnew, readZone, findZone, hid, hfind, hrow]
    | some row =>
      obtain ⟨zone, hhandle, rfl, rfl⟩ : ∃ zone, handleOccupancyUpdated db event clock =
        saveOccupancy db event zone (rulesOf db.rules zoneId) clock ∧ zone.id = zoneId ∧
          zone.row = row := handleOccupancyUpdated_eq hid hrow hnew
      rw [hhandle, saveOccupancy_ok_iff hrow]
      simp [hnew, hrow]

end

end Qoms.ZoneService
