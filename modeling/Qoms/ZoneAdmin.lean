import Qoms.Zone

/-!
# Creating zones and editing their rules

The other two writes of `ZoneService` : `createZone` inserts a zone together with its
rules, and `updateZoneRules` reads the rules of a zone, assigns the fields of the request
and saves them. Both write a `zone_status_changed` event in the same transaction.

Each of the four writes of the service concerns one zone : it leaves the rows and the
rules of every other zone as they are (`ZoneDb.Frame`). `perform` is one of them with no
other request under way; one that fails leaves the tables as they are.
-/

set_option autoImplicit false

namespace Qoms.ZoneService

/-! ## Requests -/

/-- `ZoneRulesDto`. -/
structure ZoneRulesDto where
  queueEnabled : Bool
  reservationEnabled : Bool
  overloadThresholdPct : ℤ
  estimatedServiceMinutesPerPerson : ℤ
  reservationSlotMinutes : ℤ
  reservationWindowDays : ℤ
  maxQueueSize : ℤ
  overloadThresholdPct_min : 1 ≤ overloadThresholdPct
  estimatedServiceMinutesPerPerson_min : 1 ≤ estimatedServiceMinutesPerPerson
  reservationSlotMinutes_min : 15 ≤ reservationSlotMinutes
  reservationWindowDays_min : 1 ≤ reservationWindowDays
  maxQueueSize_min : 1 ≤ maxQueueSize

/-- `CreateZoneDto`. -/
structure CreateZoneDto where
  name : String
  type : ZoneType
  capacity : ℤ
  status : Option ZoneStatus
  rules : ZoneRulesDto
  name_ne : name ≠ ""
  capacity_min : 1 ≤ capacity

/-- `UpdateZoneRulesDto` : a field that the body leaves out is `none`. -/
structure UpdateZoneRulesDto where
  queueEnabled : Option Bool
  reservationEnabled : Option Bool
  overloadThresholdPct : Option ℤ
  estimatedServiceMinutesPerPerson : Option ℤ
  reservationSlotMinutes : Option ℤ
  reservationWindowDays : Option ℤ
  maxQueueSize : Option ℤ
  overloadThresholdPct_min : ∀ n ∈ overloadThresholdPct, 1 ≤ n
  estimatedServiceMinutesPerPerson_min : ∀ n ∈ estimatedServiceMinutesPerPerson, 1 ≤ n
  reservationSlotMinutes_min : ∀ n ∈ reservationSlotMinutes, 15 ≤ n
  reservationWindowDays_min : ∀ n ∈ reservationWindowDays, 1 ≤ n
  maxQueueSize_min : ∀ n ∈ maxQueueSize, 1 ≤ n

/-! ## The rules table -/

/-- An `INTEGER` column keeps its value, or takes the new one. -/
def columnTakes (old : Option ℤ) (new : ℤ) : Bool :=
  old == some new || int4 new

/-- The columns that `manager.save` writes take their values. -/
def rulesFit (old : Option ZoneRuleEntity) (new : ZoneRuleEntity) : Bool :=
  columnTakes (old.map (·.overloadThresholdPct)) new.overloadThresholdPct &&
    columnTakes (old.map (·.estimatedServiceMinutesPerPerson))
      new.estimatedServiceMinutesPerPerson &&
    columnTakes (old.map (·.reservationSlotMinutes)) new.reservationSlotMinutes &&
    columnTakes (old.map (·.reservationWindowDays)) new.reservationWindowDays &&
    columnTakes (old.map (·.maxQueueSize)) new.maxQueueSize

/-- `manager.save` of a zone's rules. -/
def saveRules (rules : List ZoneRuleEntity) (rule : ZoneRuleEntity) :
    Except DbError (List ZoneRuleEntity) :=
  match rulesOf rules rule.zoneId with
  | none => if rulesFit none rule then .ok (rules ++ [rule]) else .error .outOfRange
  | some old =>
    if rulesFit (some old) rule then .ok (saveRow (·.zoneId) rule rules) else .error .outOfRange

/-- `findOne` of the rules of the zone with the id a text spells. -/
def findRules (rules : List ZoneRuleEntity) (zoneId : String) :
    Except DbError (Option ZoneRuleEntity) :=
  match uuidIn zoneId with
  | none => .error .invalidUuid
  | some zoneId => .ok (rulesOf rules zoneId)

/-! ## Creating a zone -/

/-- The zone of a request, with the times the database fills in. -/
def CreateZoneDto.zone (dto : CreateZoneDto) (id : Uuid) (now : ℤ) : ZoneEntity where
  id := id
  name := dto.name
  type := dto.type
  status := dto.status.getD .open
  capacity := dto.capacity
  currentOccupancy := 0
  createdAt := now
  updatedAt := now

@[simp] theorem CreateZoneDto.zone_id (dto : CreateZoneDto) (id : Uuid) (now : ℤ) :
    (dto.zone id now).id = id :=
  rfl

/-- The rules of a new zone. -/
def ZoneRulesDto.entity (dto : ZoneRulesDto) (zoneId : Uuid) : ZoneRuleEntity where
  zoneId := zoneId
  queueEnabled := dto.queueEnabled
  reservationEnabled := dto.reservationEnabled
  overloadThresholdPct := dto.overloadThresholdPct
  estimatedServiceMinutesPerPerson := dto.estimatedServiceMinutesPerPerson
  reservationSlotMinutes := dto.reservationSlotMinutes
  reservationWindowDays := dto.reservationWindowDays
  maxQueueSize := dto.maxQueueSize

/-- The id of the next zone. -/
def ZoneDb.nextZone (db : ZoneDb) : Uuid :=
  db.uuids + 1

/-- `createZone`, but for the response, which is `getZone` of the new zone. -/
def createZone (db : ZoneDb) (dto : CreateZoneDto) (actorId : String) (clock : Clock) :
    Except HttpError ZoneDb := do
  let correlationId := db.uuids
  let zone := dto.zone db.nextZone clock.dbNow
  let .ok zones := saveZone db.zones zone clock.dbNow | throw .database
  let .ok rules := saveRules db.rules (dto.rules.entity zone.id) | throw .database
  let payload : ZonePayload := ⟨zone.id, some zone.status, some zone.currentOccupancy,
    some actorId, none, none⟩
  return { db with
    zones := zones
    rules := rules
    outbox := db.outbox ++ [createOutbox "zone-management-service" clock (db.uuids + 2)
      .zoneStatusChanged zone.id correlationId payload]
    uuids := db.uuids + 4 }

/-! ## Editing the rules -/

/-- `Object.assign(rules, dto)`. -/
def ZoneRuleEntity.assign (rules : ZoneRuleEntity) (dto : UpdateZoneRulesDto) :
    ZoneRuleEntity where
  zoneId := rules.zoneId
  queueEnabled := dto.queueEnabled.getD rules.queueEnabled
  reservationEnabled := dto.reservationEnabled.getD rules.reservationEnabled
  overloadThresholdPct := dto.overloadThresholdPct.getD rules.overloadThresholdPct
  estimatedServiceMinutesPerPerson :=
    dto.estimatedServiceMinutesPerPerson.getD rules.estimatedServiceMinutesPerPerson
  reservationSlotMinutes := dto.reservationSlotMinutes.getD rules.reservationSlotMinutes
  reservationWindowDays := dto.reservationWindowDays.getD rules.reservationWindowDays
  maxQueueSize := dto.maxQueueSize.getD rules.maxQueueSize

/-- `updateZoneRules`. The event's `entityId` and `zoneId` are the text of the request,
kept here as the UUID it spells. -/
def updateZoneRules (db : ZoneDb) (id : String) (dto : UpdateZoneRulesDto) (actorId : String)
    (clock : Clock) : Except HttpError ZoneDb := do
  let .ok found := findRules db.rules id | throw .database
  let some old := found | throw (.notFound "Zone rules not found")
  let .ok rules := saveRules db.rules (old.assign dto) | throw .database
  let payload : ZonePayload := ⟨old.zoneId, none, none, some actorId, none, some true⟩
  return { db with
    rules := rules
    outbox := db.outbox ++ [createOutbox "zone-management-service" clock (db.uuids + 1)
      .zoneStatusChanged old.zoneId db.uuids payload]
    uuids := db.uuids + 3 }

/-! ## One request after another -/

/-- A write of the service. -/
inductive ZoneOp
  | createZone (dto : CreateZoneDto) (actorId : String) (clock : Clock)
  | updateZone (id : String) (dto : UpdateZoneDto) (actorId : String) (clock : Clock)
  | updateZoneRules (id : String) (dto : UpdateZoneRulesDto) (actorId : String) (clock : Clock)
  | handleOccupancyUpdated (event : OccupancyEnvelope) (clock : Clock)

/-- The tables after the write, or none if it failed. -/
def ZoneOp.result (db : ZoneDb) : ZoneOp → Option ZoneDb
  | .createZone dto actorId clock => (ZoneService.createZone db dto actorId clock).toOption
  | .updateZone id dto actorId clock => (ZoneService.updateZone db id dto actorId clock).toOption
  | .updateZoneRules id dto actorId clock =>
    (ZoneService.updateZoneRules db id dto actorId clock).toOption
  | .handleOccupancyUpdated event clock =>
    (ZoneService.handleOccupancyUpdated db event clock).toOption

/-- The tables after the write; one that failed rolled back. -/
def perform (db : ZoneDb) (op : ZoneOp) : ZoneDb :=
  (op.result db).getD db

/-- The empty tables. -/
def ZoneDb.empty : ZoneDb :=
  ⟨[], [], [], [], 0⟩

/-- A dining zone of ten seats, overloaded from 80 per cent on. -/
def tenSeats : CreateZoneDto where
  name := "Canteen"
  type := .diningZone
  capacity := 10
  status := none
  rules := ⟨true, false, 80, 3, 60, 7, 100, by decide, by decide, by decide, by decide, by decide⟩
  name_ne := by decide
  capacity_min := by decide

/-- The occupancy of a zone, by event. -/
def occupancyEvent (zoneId : String) (eventId : Uuid) (occupancy : ℤ) : OccupancyEnvelope :=
  ⟨eventId, .occupancyUpdated, 1, 0, "monitoring-event-ingestion-service", 0, zoneId,
    ⟨some zoneId, some occupancy, none, none, none, none⟩⟩

theorem perform_eq_of_result {db db' : ZoneDb} {op : ZoneOp} (h : op.result db = some db') :
    perform db op = db' := by
  rw [perform, h, Option.getD_some]

theorem perform_of_failed {db : ZoneDb} {op : ZoneOp} (h : op.result db = none) :
    perform db op = db := by
  rw [perform, h, Option.getD_none]

/-! ## What a write changes -/

/-- The stored zone of an id. -/
def ZoneDb.zone (db : ZoneDb) (id : Uuid) : Option ZoneEntity :=
  db.zones.find? (·.id == id)

theorem ZoneDb.row_eq (db : ZoneDb) (id : Uuid) : db.row id = (db.zone id).map (·.row) :=
  rfl

/-- Only the zone of the id and its rules changed. -/
structure ZoneDb.Frame (id : Uuid) (db db' : ZoneDb) : Prop where
  zone : ∀ other, other ≠ id → db'.zone other = db.zone other
  rules : ∀ other, other ≠ id → rulesOf db'.rules other = rulesOf db.rules other

section

variable {zones zones' : List ZoneEntity} {rules rules' : List ZoneRuleEntity}
  {zone : ZoneEntity} {rule : ZoneRuleEntity} {now : ℤ} {other : Uuid}

/-- A save keeps the other zones. -/
theorem saveZone_of_ne (h : saveZone zones zone now = .ok zones') (hne : other ≠ zone.id) :
    zones'.find? (·.id == other) = zones.find? (·.id == other) := by
  unfold saveZone at h
  split at h
  · split_ifs at h
    obtain rfl := Except.ok.inj h
    rw [List.find?_append]
    simp [hne.symm]
  · split_ifs at h
    · obtain rfl := Except.ok.inj h
      rfl
    · obtain rfl := Except.ok.inj h
      have hne' : other ≠ (zone.touch now).id := hne
      exact find?_saveRow_of_ne hne' zones

/-- A zone with a new id is inserted. -/
theorem saveZone_of_new (hnew : zones.find? (·.id == zone.id) = none)
    (h : saveZone zones zone now = .ok zones') :
    zones' = zones ++ [{ zone with createdAt := now, updatedAt := now }] := by
  simp only [saveZone, hnew] at h
  split_ifs at h
  exact (Except.ok.inj h).symm

/-- After a save the zone is stored with the entity's columns. -/
theorem saveZone_self (h : saveZone zones zone now = .ok zones') :
    ∃ saved, zones'.find? (·.id == zone.id) = some saved ∧ saved.row = zone.row := by
  cases hold : zones.find? (·.id == zone.id) with
  | none =>
    rw [saveZone_of_new hold h, List.find?_append, hold]
    exact ⟨{ zone with createdAt := now, updatedAt := now }, by simp, rfl⟩
  | some old => exact Option.map_eq_some_iff.mp (saveZone_row hold h)

/-- A save keeps the rules of the other zones. -/
theorem saveRules_of_ne (h : saveRules rules rule = .ok rules') (hne : other ≠ rule.zoneId) :
    rulesOf rules' other = rulesOf rules other := by
  unfold saveRules at h
  split at h
  · split_ifs at h
    obtain rfl := Except.ok.inj h
    rw [rulesOf, rulesOf, List.find?_append]
    simp [hne.symm]
  · split_ifs at h
    obtain rfl := Except.ok.inj h
    exact find?_saveRow_of_ne hne rules

/-- After a save the rules of the zone are the entity. -/
theorem saveRules_self (h : saveRules rules rule = .ok rules') :
    rulesOf rules' rule.zoneId = some rule := by
  unfold saveRules at h
  cases hold : rulesOf rules rule.zoneId with
  | none =>
    simp only [hold] at h
    split_ifs at h
    obtain rfl := Except.ok.inj h
    rw [rulesOf] at hold
    rw [rulesOf, List.find?_append, hold]
    simp
  | some old =>
    simp only [hold] at h
    split_ifs at h
    obtain rfl := Except.ok.inj h
    exact find?_saveRow ZoneRuleEntity.zoneId hold

end

section

variable {db db' : ZoneDb} {id actorId : String} {clock : Clock} {event : OccupancyEnvelope}
  {zone : ZoneEntity} {rules : Option ZoneRuleEntity}

theorem saveEdit_frame (h : saveEdit db zone actorId clock = .ok db') :
    ZoneDb.Frame zone.id db db' := by
  obtain ⟨hsave, hrules, -⟩ := saveEdit_ok h
  exact ⟨fun _ hne => saveZone_of_ne hsave hne, fun _ _ => by rw [hrules]⟩

theorem saveEdit_self (h : saveEdit db zone actorId clock = .ok db') :
    ∃ saved, db'.zone zone.id = some saved ∧ saved.row = zone.row :=
  saveZone_self (saveEdit_ok h).1

theorem saveOccupancy_frame (h : saveOccupancy db event zone rules clock = .ok db') :
    ZoneDb.Frame zone.id db db' := by
  obtain ⟨hsave, hrules, -⟩ := saveOccupancy_ok h
  exact ⟨fun _ hne => saveZone_of_ne hsave hne, fun _ _ => by rw [hrules]⟩

/-- A saved edit leaves the fields of the request in the row of its zone. -/
theorem saveEdit_assign {row : ZoneRow} {dto : UpdateZoneDto} (hrow : db.row zone.id = some row)
    (h : saveEdit db (zone.assign dto) actorId clock = .ok db') :
    ZoneDb.Frame zone.id db db' ∧ db'.row zone.id = some (zone.row.assign dto) := by
  have hrow' : db.row (zone.assign dto).id = some row := hrow
  have hframe : ZoneDb.Frame (zone.assign dto).id db db' := saveEdit_frame h
  have hsaved : db'.row (zone.assign dto).id = some (zone.assign dto).row := saveEdit_row hrow' h
  exact ⟨hframe, hsaved⟩

theorem saveEdit_uuids (h : saveEdit db zone actorId clock = .ok db') :
    db'.uuids = db.uuids + 3 := by
  obtain ⟨zones, -, rfl⟩ := saveEdit_eq_ok h
  rfl

theorem saveOccupancy_uuids (h : saveOccupancy db event zone rules clock = .ok db') :
    db'.uuids = db.uuids + 5 := by
  simp only [saveOccupancy, bind_eq_ok, throw_bind, throw_if_eq_ok, pure_eq_ok] at h
  obtain ⟨zones, -, -, rfl⟩ := h
  rfl

/-- What a `createZone` that succeeds has saved. -/
theorem createZone_eq_ok {dto : CreateZoneDto} (h : createZone db dto actorId clock = .ok db') :
    ∃ zones rules,
      saveZone db.zones (dto.zone db.nextZone clock.dbNow) clock.dbNow = .ok zones ∧
      saveRules db.rules (dto.rules.entity db.nextZone) = .ok rules ∧
      db' = { db with
        zones := zones
        rules := rules
        outbox := db.outbox ++ [createOutbox "zone-management-service" clock (db.uuids + 2)
          .zoneStatusChanged db.nextZone db.uuids
          ⟨db.nextZone, some (dto.status.getD .open), some 0, some actorId, none, none⟩]
        uuids := db.uuids + 4 } := by
  unfold createZone at h
  cases hzones : saveZone db.zones (dto.zone db.nextZone clock.dbNow) clock.dbNow with
  | error e => simp [hzones] at h
  | ok zones =>
    cases hrules : saveRules db.rules (dto.rules.entity db.nextZone) with
    | error e => simp [hzones, hrules] at h
    | ok rules =>
      simp only [hzones, CreateZoneDto.zone_id, hrules, pure_eq_ok] at h
      exact ⟨zones, rules, rfl, rfl, h.symm⟩

theorem createZone_frame {dto : CreateZoneDto} (h : createZone db dto actorId clock = .ok db') :
    ZoneDb.Frame db.nextZone db db' := by
  obtain ⟨zones, rules, hzones, hrules, rfl⟩ := createZone_eq_ok h
  exact ⟨fun _ hne => saveZone_of_ne hzones hne, fun _ hne => saveRules_of_ne hrules hne⟩

/-- `createZone` inserts a zone and its rules under a new id. -/
theorem createZone_ok {dto : CreateZoneDto} (hnew : db.zone db.nextZone = none)
    (h : createZone db dto actorId clock = .ok db') :
    ZoneDb.Frame db.nextZone db db' ∧
      db'.zone db.nextZone = some (dto.zone db.nextZone clock.dbNow) ∧
      rulesOf db'.rules db.nextZone = some (dto.rules.entity db.nextZone) ∧
      db'.processed = db.processed ∧ db'.uuids = db.uuids + 4 := by
  have hframe := createZone_frame h
  obtain ⟨zones, rules, hzones, hrules, rfl⟩ := createZone_eq_ok h
  refine ⟨hframe, ?_, saveRules_self hrules, rfl, rfl⟩
  rw [ZoneDb.zone] at hnew
  simp [ZoneDb.zone, saveZone_of_new hnew hzones, hnew, CreateZoneDto.zone]

/-- `updateZone` saves a stored zone with the fields of the request. -/
theorem updateZone_ok {dto : UpdateZoneDto} (h : updateZone db id dto actorId clock = .ok db') :
    ∃ zoneId zone, uuidIn id = some zoneId ∧ db.zone zoneId = some zone ∧ zone.id = zoneId ∧
      saveEdit db (zone.assign dto) actorId clock = .ok db' := by
  simp only [updateZone, editZone, findZone, bind_eq_ok] at h
  obtain ⟨edited, hedit, hsave⟩ := h
  cases hid : uuidIn id with
  | none => simp [hid] at hedit
  | some zoneId =>
    cases hfind : db.zones.find? (·.id == zoneId) with
    | none => simp [hid, hfind] at hedit
    | some zone =>
      obtain rfl : zone.assign dto = edited := by simpa [hid, hfind] using hedit
      exact ⟨zoneId, zone, rfl, hfind, find?_id hfind, hsave⟩

/-- What an `updateZoneRules` that succeeds has found and saved. -/
theorem updateZoneRules_eq_ok {dto : UpdateZoneRulesDto}
    (h : updateZoneRules db id dto actorId clock = .ok db') :
    ∃ zoneId old rules, uuidIn id = some zoneId ∧ rulesOf db.rules zoneId = some old ∧
      old.zoneId = zoneId ∧ saveRules db.rules (old.assign dto) = .ok rules ∧
      db' = { db with
        rules := rules
        outbox := db.outbox ++ [createOutbox "zone-management-service" clock (db.uuids + 1)
          .zoneStatusChanged zoneId db.uuids
          ⟨zoneId, none, none, some actorId, none, some true⟩]
        uuids := db.uuids + 3 } := by
  unfold updateZoneRules findRules at h
  cases hid : uuidIn id with
  | none => simp [hid] at h
  | some zoneId =>
    cases hold : rulesOf db.rules zoneId with
    | none => simp [hid, hold] at h
    | some old =>
      obtain rfl : old.zoneId = zoneId := by simpa using List.find?_some hold
      cases hrules : saveRules db.rules (old.assign dto) with
      | error e => simp [hid, hold, hrules] at h
      | ok rules =>
        simp only [hid, hold, hrules, pure_eq_ok] at h
        exact ⟨old.zoneId, old, rules, rfl, hold, rfl, hrules, h.symm⟩

/-- `updateZoneRules` saves the stored rules with the fields of the request. -/
theorem updateZoneRules_ok {dto : UpdateZoneRulesDto}
    (h : updateZoneRules db id dto actorId clock = .ok db') :
    ∃ zoneId old, uuidIn id = some zoneId ∧ rulesOf db.rules zoneId = some old ∧
      ZoneDb.Frame zoneId db db' ∧ rulesOf db'.rules zoneId = some (old.assign dto) ∧
      db'.zones = db.zones ∧ db'.processed = db.processed ∧ db'.uuids = db.uuids + 3 := by
  obtain ⟨_, old, rules, hid, hold, rfl, hrules, rfl⟩ := updateZoneRules_eq_ok h
  have hself : rulesOf rules old.zoneId = some (old.assign dto) := saveRules_self hrules
  exact ⟨old.zoneId, old, hid, hold,
    ⟨fun _ _ => rfl, fun _ hne => saveRules_of_ne hrules hne⟩, hself, rfl, rfl, rfl⟩

/-- A handled event changed nothing, or was new and had its zone saved. -/
theorem handleOccupancyUpdated_cases (h : handleOccupancyUpdated db event clock = .ok db') :
    db' = db ∨ ∃ zoneId zone, uuidIn (zoneIdOf event) = some zoneId ∧
      db.zone zoneId = some zone ∧ zone.id = zoneId ∧
        saveOccupancy db event zone (rulesOf db.rules zoneId) clock = .ok db' := by
  unfold handleOccupancyUpdated at h
  cases hdone : isProcessed db.processed event.eventId with
  | true =>
    simp only [hdone, if_true, pure_eq_ok] at h
    exact Or.inl h.symm
  | false =>
    simp only [hdone, Bool.false_eq_true, if_false, bind_eq_ok, readZone, findZone, pure_eq_ok] at h
    obtain ⟨found, ⟨read, hread, rfl⟩, h⟩ := h
    cases hid : uuidIn (zoneIdOf event) with
    | none => simp [hid] at hread
    | some zoneId =>
      obtain rfl : db.zones.find? (·.id == zoneId) = read := by simpa [hid] using hread
      cases hfind : db.zones.find? (·.id == zoneId) with
      | none =>
        simp only [hfind, Option.map_none, pure_eq_ok] at h
        exact Or.inl h.symm
      | some zone =>
        have hz := find?_id hfind
        simp only [hfind, Option.map_some, hz] at h
        exact Or.inr ⟨zoneId, zone, rfl, hfind, hz, h⟩

end

/-- What a write can do. -/
inductive Writes (db : ZoneDb) : ZoneOp → ZoneDb → Prop
  | nothing (op : ZoneOp) : Writes db op db
  | created {dto : CreateZoneDto} {actorId : String} {clock : Clock} {db' : ZoneDb}
      (h : createZone db dto actorId clock = .ok db') :
      Writes db (.createZone dto actorId clock) db'
  | edited {id : String} {dto : UpdateZoneDto} {actorId : String} {clock : Clock} {db' : ZoneDb}
      {zone : ZoneEntity} (hid : uuidIn id = some zone.id) (hzone : db.zone zone.id = some zone)
      (h : saveEdit db (zone.assign dto) actorId clock = .ok db') :
      Writes db (.updateZone id dto actorId clock) db'
  | ruled {id : String} {dto : UpdateZoneRulesDto} {actorId : String} {clock : Clock}
      {db' : ZoneDb} (h : updateZoneRules db id dto actorId clock = .ok db') :
      Writes db (.updateZoneRules id dto actorId clock) db'
  | handled {event : OccupancyEnvelope} {clock : Clock} {db' : ZoneDb} {zone : ZoneEntity}
      (hid : uuidIn (zoneIdOf event) = some zone.id) (hzone : db.zone zone.id = some zone)
      (h : saveOccupancy db event zone (rulesOf db.rules zone.id) clock = .ok db') :
      Writes db (.handleOccupancyUpdated event clock) db'

theorem perform_writes (db : ZoneDb) (op : ZoneOp) : Writes db op (perform db op) := by
  cases hresult : op.result db with
  | none =>
    rw [perform_of_failed hresult]
    exact .nothing op
  | some db' =>
    rw [perform_eq_of_result hresult]
    cases op with
    | createZone dto actorId clock => exact .created (toOption_eq_some.mp hresult)
    | updateZone id dto actorId clock =>
      obtain ⟨zoneId, zone, hid, hzone, rfl, h⟩ := updateZone_ok (toOption_eq_some.mp hresult)
      exact .edited hid hzone h
    | updateZoneRules id dto actorId clock => exact .ruled (toOption_eq_some.mp hresult)
    | handleOccupancyUpdated event clock =>
      rcases handleOccupancyUpdated_cases (toOption_eq_some.mp hresult) with
        rfl | ⟨zoneId, zone, hid, hzone, rfl, h⟩
      · exact .nothing _
      · exact .handled hid hzone h

end Qoms.ZoneService
