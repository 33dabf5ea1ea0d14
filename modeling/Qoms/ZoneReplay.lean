import Qoms.Replay
import Qoms.Run
import Qoms.ZoneAdmin

/-!
# Replaying a zone's status

Each of the four writes of `ZoneService` builds the payload of its `zone_status_changed`
record by hand. Three of them put the status and the occupancy of the zone as it is saved into
it; `updateZoneRules`, which saves no zone, puts neither. So the last record of a zone that
carries a status agrees with its row, and a consumer that keeps what these records carry has
the status and the occupancy of every zone (`lastStatus_eq_row`).
-/

set_option autoImplicit false

namespace Qoms.ZoneService

/-- The status and the occupancy that a `zone_status_changed` record carries, and their zone. -/
def carriedStatus (record : OutboxEvent Uuid ZonePayload) :
    Option (Uuid × ZoneStatus × Option ℤ) :=
  if record.eventType = .zoneStatusChanged then
    record.payload.payload.status.map fun status =>
      (record.entityId, status, record.payload.payload.currentOccupancy)
  else none

/-- A `zone_status_changed` record of the zone that carries a status. -/
def isStatusOf (zoneId : Uuid) (record : OutboxEvent Uuid ZonePayload) : Bool :=
  (carriedStatus record).any (·.1 == zoneId)

/-- What a record made of the row carries. -/
def ZoneRow.carried (row : ZoneRow) : ZoneStatus × Option ℤ :=
  (row.status, some row.currentOccupancy)

/-- The outbox replays to the statuses and the occupancies of the zones. -/
def ZoneDb.Replayed (db : ZoneDb) : Prop :=
  ∀ zoneId, replay carriedStatus db.outbox zoneId = (db.row zoneId).map (·.carried)

theorem carriedStatus_eq_some {record : OutboxEvent Uuid ZonePayload}
    {carried : Uuid × ZoneStatus × Option ℤ} (h : carriedStatus record = some carried) :
    record.payload.payload.status = some carried.2.1 ∧
      record.payload.payload.currentOccupancy = carried.2.2 := by
  unfold carriedStatus at h
  split_ifs at h
  obtain ⟨status, hstatus, rfl⟩ := Option.map_eq_some_iff.mp h
  exact ⟨hstatus, rfl⟩

section

variable {db db' : ZoneDb} {id actorId : String} {clock : Clock} {event : OccupancyEnvelope}
  {zone : ZoneEntity} {rules : Option ZoneRuleEntity}

/-! ## What each write records -/

theorem createZone_replay {dto : CreateZoneDto} (h : createZone db dto actorId clock = .ok db') :
    replay carriedStatus db'.outbox = Function.update (replay carriedStatus db.outbox) db.nextZone
      (some (dto.zone db.nextZone clock.dbNow).row.carried) := by
  obtain ⟨zones, rules, -, -, rfl⟩ := createZone_eq_ok h
  exact replay_concat_of_some carriedStatus rfl db.outbox

theorem saveEdit_replay (h : saveEdit db zone actorId clock = .ok db') :
    replay carriedStatus db'.outbox =
      Function.update (replay carriedStatus db.outbox) zone.id (some zone.row.carried) := by
  obtain ⟨zones, -, rfl⟩ := saveEdit_eq_ok h
  exact replay_concat_of_some carriedStatus rfl db.outbox

/-- The event of edited rules carries no status. -/
theorem updateZoneRules_replay {dto : UpdateZoneRulesDto}
    (h : updateZoneRules db id dto actorId clock = .ok db') :
    replay carriedStatus db'.outbox = replay carriedStatus db.outbox := by
  obtain ⟨zoneId, old, rules, -, -, -, -, rfl⟩ := updateZoneRules_eq_ok h
  exact replay_concat_of_none carriedStatus rfl db.outbox

/-- An alarm comes after the record of the status, and is none itself. -/
theorem saveOccupancy_replay (h : saveOccupancy db event zone rules clock = .ok db') :
    replay carriedStatus db'.outbox = Function.update (replay carriedStatus db.outbox) zone.id
      (some (zone.row.applyOccupancy rules (occupancyOf event)).carried) := by
  simp only [saveOccupancy, bind_eq_ok, throw_bind, throw_if_eq_ok, pure_eq_ok] at h
  obtain ⟨zones, -, -, rfl⟩ := h
  dsimp only
  split_ifs
  · rw [← List.singleton_append, ← List.append_assoc]
    exact (replay_concat_of_none carriedStatus rfl _).trans
      (replay_concat_of_some carriedStatus rfl db.outbox)
  · exact replay_concat_of_some carriedStatus rfl db.outbox

/-! ## Runs -/

/-- A write of one zone that records what it leaves in the row. -/
theorem ZoneDb.Replayed.write {zoneId : Uuid} {row : ZoneRow} (h : db.Replayed)
    (hframe : ZoneDb.Frame zoneId db db') (hrow : db'.row zoneId = some row)
    (houtbox : replay carriedStatus db'.outbox =
      Function.update (replay carriedStatus db.outbox) zoneId (some row.carried)) :
    db'.Replayed := by
  intro other
  rw [houtbox]
  rcases eq_or_ne other zoneId with rfl | hne
  · rw [Function.update_self, hrow, Option.map_some]
  · rw [Function.update_of_ne hne, h other, ZoneDb.row_eq, ZoneDb.row_eq, hframe.zone other hne]

theorem createZone_row {dto : CreateZoneDto} (h : createZone db dto actorId clock = .ok db') :
    db'.row db.nextZone = some (dto.zone db.nextZone clock.dbNow).row := by
  obtain ⟨zones, rules, hzones, -, rfl⟩ := createZone_eq_ok h
  exact ZoneDb.row_eq_some.mpr (saveZone_self hzones)

theorem Writes.replayed {op : ZoneOp} (h : Writes db op db') (hreplayed : db.Replayed) :
    db'.Replayed := by
  cases h with
  | nothing => exact hreplayed
  | created h =>
    exact hreplayed.write (createZone_frame h) (createZone_row h) (createZone_replay h)
  | @edited id dto actorId clock _ zone hid hzone h =>
    have hrow : db.row zone.id = some zone.row := by rw [ZoneDb.row_eq, hzone, Option.map_some]
    exact hreplayed.write (saveEdit_frame h) (saveEdit_row hrow h) (saveEdit_replay h)
  | ruled h =>
    obtain ⟨zoneId, old, -, -, -, -, hzones, -, -⟩ := updateZoneRules_ok h
    intro zoneId
    rw [updateZoneRules_replay h, hreplayed zoneId, ZoneDb.row, ZoneDb.row, hzones]
  | @handled event clock _ zone hid hzone h =>
    have hrow : db.row zone.id = some zone.row := by rw [ZoneDb.row_eq, hzone, Option.map_some]
    exact hreplayed.write (saveOccupancy_frame h) (saveOccupancy_row hrow h)
      (saveOccupancy_replay h)

end

/-- After any run of the service's writes, the last `zone_status_changed` record of a zone that
carries a status has the status and the occupancy of the zone's row, and replaying these
records gives the status and the occupancy of every zone. -/
theorem lastStatus_eq_row (ops : List ZoneOp) (zoneId : Uuid) :
    ((run perform .empty ops).outbox.filter (isStatusOf zoneId)).getLast?.map (fun record =>
        (record.payload.payload.status, record.payload.payload.currentOccupancy)) =
      ((run perform .empty ops).row zoneId).map (fun row =>
        (some row.status, some row.currentOccupancy)) ∧
    replay carriedStatus (run perform .empty ops).outbox zoneId =
      ((run perform .empty ops).row zoneId).map (·.carried) := by
  have hreplayed : (run perform .empty ops).Replayed :=
    run_invariant (fun _ => True) (fun db op _ h => (perform_writes db op).replayed h)
      (fun _ => rfl) fun _ _ => trivial
  refine ⟨?_, hreplayed zoneId⟩
  have hlast : ((run perform .empty ops).row zoneId).map (·.carried) =
      ((run perform .empty ops).outbox.filter (isStatusOf zoneId)).getLast?.bind fun record =>
        (carriedStatus record).map (·.2) :=
    (hreplayed zoneId).symm.trans (replay_eq_last carriedStatus _ zoneId)
  cases hrecord : ((run perform .empty ops).outbox.filter (isStatusOf zoneId)).getLast? with
  | none =>
    rw [hrecord, Option.bind_none, Option.map_eq_none_iff] at hlast
    rw [hlast, Option.map_none, Option.map_none]
  | some record =>
    have hstatus : isStatusOf zoneId record = true :=
      (List.mem_filter.mp (List.mem_of_getLast? hrecord)).2
    obtain ⟨carried, hcarried, -⟩ := (Option.any_eq_true _ _).mp hstatus
    obtain ⟨hpayload, hoccupancy⟩ := carriedStatus_eq_some hcarried
    rw [hrecord, Option.bind_some, hcarried, Option.map_some, Option.map_eq_some_iff] at hlast
    obtain ⟨row, hrow, hcarried⟩ := hlast
    rw [hrow, Option.map_some, Option.map_some, hpayload, hoccupancy, ← hcarried]
    rfl

end Qoms.ZoneService
