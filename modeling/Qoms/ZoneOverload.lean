import Qoms.Run
import Qoms.ZoneAdmin
import Qoms.ZoneDelivery

/-!
# When a zone is overloaded

`handleOccupancyUpdated` sets a zone overloaded when its occupancy reaches the threshold of
its rules, and open again when it falls below. The capacity and the threshold are edited
by `updateZone` and `updateZoneRules`, which leave the status as it was : raising the
capacity of an overloaded zone leaves it overloaded (`capacityRaised`). So the status
agrees with the threshold throughout a run exactly when no edit takes a zone to the other
side of its threshold (`statusRight_iff_keepsSide`).

The alarm itself is raised on the edge only. A `zone_overloaded` record is written by the
one handling of its event that finds the zone not overloaded and leaves it so; between two
alarms of a zone some state of the run finds it not overloaded (`overloaded_iff_edge`).
-/

set_option autoImplicit false

namespace Qoms.ZoneService

/-! ## Zones and their rules -/

/-- The occupancy has reached the threshold. -/
def Reaches (rules : ZoneRuleEntity) (row : ZoneRow) : Prop :=
  rules.overloadThresholdPct ≤ occupancyPct row.currentOccupancy row.capacity

/-- The zone of the id, if there is one, has rules, and is overloaded just when its
occupancy reaches their threshold. -/
def ZoneDb.RightAt (db : ZoneDb) (zoneId : Uuid) : Prop :=
  ∀ row, db.row zoneId = some row →
    ∃ rules, rulesOf db.rules zoneId = some rules ∧ (row.status = .overloaded ↔ Reaches rules row)

/-- Every zone is overloaded just when its occupancy reaches the threshold of its rules. -/
def StatusRight (db : ZoneDb) : Prop :=
  ∀ zoneId, db.RightAt zoneId

/-- The write sets no status. -/
def ZoneOp.NoStatus : ZoneOp → Prop
  | .createZone dto _ _ => dto.status = none
  | .updateZone _ dto _ _ => dto.status = none
  | _ => True

/-- If the write edits a zone or its rules, and its columns fit, the zone stays on its side
of the threshold. -/
def KeepsSide (db : ZoneDb) : ZoneOp → Prop
  | .updateZone id dto _ _ => ∀ zoneId row rules, uuidIn id = some zoneId →
    db.row zoneId = some row → rulesOf db.rules zoneId = some rules →
    columnsFit (some row) (row.assign dto) = true →
      (Reaches rules row ↔ Reaches rules (row.assign dto))
  | .updateZoneRules id dto _ _ => ∀ zoneId row rules, uuidIn id = some zoneId →
    db.row zoneId = some row → rulesOf db.rules zoneId = some rules →
    rulesFit (some rules) (rules.assign dto) = true →
      (Reaches rules row ↔ Reaches (rules.assign dto) row)
  | _ => True

/-- The ids from the next one on are free, a zone has rules and rules have a zone, and no
zone is closed. -/
structure ZoneDb.Managed (db : ZoneDb) : Prop where
  free : ∀ id, db.uuids ≤ id → db.zone id = none
  paired : ∀ id, db.zone id = none ↔ rulesOf db.rules id = none
  notClosed : ∀ id row, db.row id = some row → row.status ≠ .closed

theorem managed_empty : ZoneDb.empty.Managed :=
  ⟨fun _ _ => rfl, fun _ => iff_of_true rfl rfl, fun _ _ h => by cases h⟩

theorem occupancyPct_zero {capacity : ℤ} (h : 1 ≤ capacity) : occupancyPct 0 capacity = 0 := by
  rw [occupancyPct, Int.mul_zero, Int.zero_add]
  exact Int.ediv_eq_zero_of_lt (by omega) (by omega)

/-- The status of a zone that is not closed, after an event. -/
theorem nextStatus_eq_overloaded_iff {rules : ZoneRuleEntity} {occupancy capacity : ℤ}
    {status : ZoneStatus} (hopen : status ≠ .closed) :
    nextStatus (some rules) occupancy capacity status = .overloaded ↔
      rules.overloadThresholdPct ≤ occupancyPct occupancy capacity := by
  simp only [nextStatus, if_neg hopen, Option.any_some, decide_eq_true_eq]
  split_ifs with hreach hover
  · exact iff_of_true rfl hreach
  · exact iff_of_false (by decide) hreach
  · exact iff_of_false hover hreach

theorem nextStatus_ne_closed {rules : Option ZoneRuleEntity} {occupancy capacity : ℤ}
    {status : ZoneStatus} (hopen : status ≠ .closed) :
    nextStatus rules occupancy capacity status ≠ .closed := by
  simp only [nextStatus, if_neg hopen]
  split_ifs
  · decide
  · decide
  · exact hopen

/-! ## One write -/

section

variable {db db' : ZoneDb} {id : Uuid}

theorem ZoneDb.Frame.row (h : ZoneDb.Frame id db db') {other : Uuid} (hne : other ≠ id) :
    db'.row other = db.row other := by
  rw [ZoneDb.row_eq, ZoneDb.row_eq, h.zone other hne]

/-- A write of one zone leaves the others right. -/
theorem ZoneDb.Frame.statusRight_iff (h : ZoneDb.Frame id db db') (hright : StatusRight db) :
    StatusRight db' ↔ db'.RightAt id := by
  refine ⟨fun hall => hall id, fun hid other => ?_⟩
  rcases eq_or_ne other id with rfl | hne
  · exact hid
  · have hother := hright other
    rw [ZoneDb.RightAt] at hother ⊢
    rw [h.row hne, h.rules other hne]
    exact hother

/-- What a write has to show of its zone for the tables to stay managed. -/
theorem ZoneDb.Frame.managed (h : ZoneDb.Frame id db db') (hmanaged : db.Managed)
    (huuids : db.uuids ≤ db'.uuids) (hid : id < db'.uuids) {row : ZoneRow} {rules : ZoneRuleEntity}
    (hrow : db'.row id = some row) (hrules : rulesOf db'.rules id = some rules)
    (hopen : row.status ≠ .closed) : db'.Managed where
  free other hother := by
    rw [h.zone other (hid.trans_le hother).ne']
    exact hmanaged.free other (huuids.trans hother)
  paired other := by
    rcases eq_or_ne other id with rfl | hne
    · refine iff_of_false (fun hnone => ?_) (by rw [hrules]; exact Option.some_ne_none rules)
      rw [ZoneDb.row_eq, hnone] at hrow
      cases hrow
    · rw [h.zone other hne, h.rules other hne]
      exact hmanaged.paired other
  notClosed other row' hrow' := by
    rcases eq_or_ne other id with rfl | hne
    · obtain rfl : row = row' := Option.some.inj (hrow.symm.trans hrow')
      exact hopen
    · rw [h.row hne] at hrow'
      exact hmanaged.notClosed other row' hrow'

theorem ZoneDb.Managed.lt_uuids (h : db.Managed) {zone : ZoneEntity}
    (hzone : db.zone id = some zone) :
    id < db.uuids := by
  by_contra hle
  rw [h.free id (not_lt.mp hle)] at hzone
  cases hzone

theorem ZoneDb.Managed.exists_rules (h : db.Managed) {zone : ZoneEntity}
    (hzone : db.zone id = some zone) : ∃ rules, rulesOf db.rules id = some rules := by
  rw [← Option.ne_none_iff_exists']
  intro hnone
  rw [(h.paired id).mpr hnone] at hzone
  cases hzone

theorem ZoneDb.row_of_zone {zone : ZoneEntity} (hzone : db.zone id = some zone) :
    db.row id = some zone.row := by
  rw [ZoneDb.row_eq, hzone, Option.map_some]

/-- What is left of the row of a zone that an event is handled for. -/
theorem rightAt_applyOccupancy {row : ZoneRow} {rules : ZoneRuleEntity} {occupancy : ℤ}
    (hrow : db.row id = some (row.applyOccupancy (some rules) occupancy))
    (hrules : rulesOf db.rules id = some rules) (hopen : row.status ≠ .closed) :
    db.RightAt id := by
  intro row' hrow'
  obtain rfl := Option.some.inj (hrow.symm.trans hrow')
  exact ⟨rules, hrules, nextStatus_eq_overloaded_iff hopen⟩

end

/-- A write that sets no status keeps the tables managed. -/
theorem Writes.managed {db db' : ZoneDb} {op : ZoneOp} (h : Writes db op db')
    (hop : op.NoStatus) (hmanaged : db.Managed) : db'.Managed := by
  cases h with
  | nothing => exact hmanaged
  | @created dto actorId clock _ h =>
    have hnew : db.zone db.nextZone = none := hmanaged.free _ (Nat.le_succ _)
    obtain ⟨hframe, hzone, hrules, -, huuids⟩ := createZone_ok hnew h
    have hid : (db.uuids + 1 : ℕ) < db'.uuids := by omega
    refine hframe.managed hmanaged (by omega) hid (ZoneDb.row_of_zone hzone) hrules ?_
    have hnone : dto.status = none := hop
    simp [CreateZoneDto.zone, ZoneEntity.row, hnone]
  | @edited id dto actorId clock _ zone hid hzone h =>
    have hrow := ZoneDb.row_of_zone hzone
    have hle : db.uuids ≤ db'.uuids := by
      rw [saveEdit_uuids h]
      omega
    obtain ⟨rules, hrules⟩ := hmanaged.exists_rules hzone
    obtain ⟨hframe, hrow'⟩ := saveEdit_assign hrow h
    refine hframe.managed hmanaged hle ((hmanaged.lt_uuids hzone).trans_le hle) hrow'
      (by rw [(saveEdit_ok h).2.1, hrules]) ?_
    have hnone : dto.status = none := hop
    simpa [ZoneRow.assign, hnone] using hmanaged.notClosed _ _ hrow
  | @ruled id dto actorId clock _ h =>
    obtain ⟨zoneId, old, -, hold, hframe, hrules, hzones, -, huuids⟩ := updateZoneRules_ok h
    cases hzone : db.zone zoneId with
    | none => exact absurd ((hmanaged.paired zoneId).mp hzone) (by simp [hold])
    | some zone =>
      have hle : db.uuids ≤ db'.uuids := by omega
      have hrow := ZoneDb.row_of_zone hzone
      have hrow' : db'.row zoneId = some zone.row := by
        rw [ZoneDb.row, hzones]
        exact hrow
      exact hframe.managed hmanaged hle ((hmanaged.lt_uuids hzone).trans_le hle) hrow' hrules
        (hmanaged.notClosed _ _ hrow)
  | @handled event clock _ zone hid hzone h =>
    have hrow := ZoneDb.row_of_zone hzone
    have hle : db.uuids ≤ db'.uuids := by
      rw [saveOccupancy_uuids h]
      omega
    obtain ⟨rules, hrules⟩ := hmanaged.exists_rules hzone
    refine (saveOccupancy_frame h).managed hmanaged hle ((hmanaged.lt_uuids hzone).trans_le hle)
      (saveOccupancy_row hrow h) (by rw [(saveOccupancy_ok h).2.1, hrules]) ?_
    exact nextStatus_ne_closed (hmanaged.notClosed _ _ hrow)

/-- If a zone was right, it stays so exactly when it stays on its side of the threshold, as
long as its status is left as it is. -/
theorem rightAt_iff_of_status {db db' : ZoneDb} {id : Uuid} {row row' : ZoneRow}
    {rules rules' : ZoneRuleEntity} (hright : db.RightAt id) (hrow : db.row id = some row)
    (hrules : rulesOf db.rules id = some rules) (hrow' : db'.row id = some row')
    (hrules' : rulesOf db'.rules id = some rules') (hstatus : row'.status = row.status) :
    db'.RightAt id ↔ (Reaches rules row ↔ Reaches rules' row') := by
  obtain ⟨rules₀, hrules₀, hreach⟩ := hright row hrow
  obtain rfl := Option.some.inj (hrules.symm.trans hrules₀)
  constructor
  · intro hright'
    obtain ⟨rules₁, hrules₁, hreach'⟩ := hright' row' hrow'
    obtain rfl := Option.some.inj (hrules'.symm.trans hrules₁)
    rw [← hreach, ← hreach', hstatus]
  · intro hside row₁ hrow₁
    obtain rfl := Option.some.inj (hrow'.symm.trans hrow₁)
    exact ⟨rules', hrules', by rw [hstatus, hreach, hside]⟩

/-- An edit of a stored zone goes through when its columns fit. -/
theorem updateZone_ok_iff {db : ZoneDb} {id : String} {zoneId : Uuid} {row : ZoneRow}
    (dto : UpdateZoneDto) (actorId : String) (clock : Clock) (hid : uuidIn id = some zoneId)
    (hrow : db.row zoneId = some row) :
    (∃ db', updateZone db id dto actorId clock = .ok db') ↔
      columnsFit (some row) (row.assign dto) = true := by
  obtain ⟨zone, heq, rfl, hzone⟩ : ∃ zone, updateZone db id dto actorId clock =
    saveEdit db zone actorId clock ∧ zone.id = zoneId ∧ zone.row = row.assign dto :=
      updateZone_eq hid hrow
  rw [heq, saveEdit_ok_iff hrow, hzone]

/-- An edit of stored rules goes through when their columns fit. -/
theorem updateZoneRules_ok_iff {db : ZoneDb} {id : String} {zoneId : Uuid}
    {rules : ZoneRuleEntity} (dto : UpdateZoneRulesDto) (actorId : String) (clock : Clock)
    (hid : uuidIn id = some zoneId) (hrules : rulesOf db.rules zoneId = some rules) :
    (∃ db', updateZoneRules db id dto actorId clock = .ok db') ↔
      rulesFit (some rules) (rules.assign dto) = true := by
  have hz : rules.zoneId = zoneId := by simpa using List.find?_some hrules
  have hold : rulesOf db.rules (rules.assign dto).zoneId = some rules := by
    rw [← hrules, ← hz]
    rfl
  have hsave : (∃ saved, saveRules db.rules (rules.assign dto) = .ok saved) ↔
      rulesFit (some rules) (rules.assign dto) = true := by
    simp only [saveRules, hold]
    split_ifs with hfit <;> simp [hfit]
  rw [← hsave]
  simp only [updateZoneRules, findRules, hid, hrules]
  cases saveRules db.rules (rules.assign dto) with
  | error e => simp
  | ok saved => simp

theorem statusRight_createZone {db : ZoneDb} {dto : CreateZoneDto} {actorId : String}
    {clock : Clock} (hnone : dto.status = none) (hmanaged : db.Managed) (hright : StatusRight db) :
    StatusRight (perform db (.createZone dto actorId clock)) := by
  have hwrites := perform_writes db (.createZone dto actorId clock)
  generalize perform db _ = db' at hwrites ⊢
  cases hwrites with
  | nothing => exact hright
  | created h =>
    obtain ⟨hframe, hzone, hrules, -, -⟩ := createZone_ok (hmanaged.free _ (Nat.le_succ _)) h
    refine (hframe.statusRight_iff hright).mpr fun row hrow => ?_
    obtain rfl := Option.some.inj ((ZoneDb.row_of_zone hzone).symm.trans hrow)
    refine ⟨_, hrules, iff_of_false (by simp [CreateZoneDto.zone, ZoneEntity.row, hnone]) ?_⟩
    -- the zone is empty, and the threshold is positive
    have hmin := dto.rules.overloadThresholdPct_min
    simp only [Reaches, ZoneEntity.row, CreateZoneDto.zone, occupancyPct_zero dto.capacity_min,
      ZoneRulesDto.entity]
    omega

theorem statusRight_handleOccupancyUpdated {db : ZoneDb} {event : OccupancyEnvelope}
    {clock : Clock} (hmanaged : db.Managed) (hright : StatusRight db) :
    StatusRight (perform db (.handleOccupancyUpdated event clock)) := by
  have hwrites := perform_writes db (.handleOccupancyUpdated event clock)
  generalize perform db _ = db' at hwrites ⊢
  cases hwrites with
  | nothing => exact hright
  | @handled _ _ _ zone hid hzone h =>
    have hrow := ZoneDb.row_of_zone hzone
    obtain ⟨rules, hrules⟩ := hmanaged.exists_rules hzone
    have hrow' := saveOccupancy_row hrow h
    rw [hrules] at hrow'
    refine ((saveOccupancy_frame h).statusRight_iff hright).mpr ?_
    exact rightAt_applyOccupancy hrow' (by rw [(saveOccupancy_ok h).2.1, hrules])
      (hmanaged.notClosed _ _ hrow)

theorem statusRight_updateZone_iff {db : ZoneDb} {id : String} {dto : UpdateZoneDto}
    {actorId : String} {clock : Clock} (hnone : dto.status = none) (hmanaged : db.Managed)
    (hright : StatusRight db) : StatusRight (perform db (.updateZone id dto actorId clock)) ↔
      KeepsSide db (.updateZone id dto actorId clock) := by
  cases hresult : (ZoneOp.updateZone id dto actorId clock).result db with
  | none =>
    rw [perform_of_failed hresult]
    refine iff_of_true hright fun zoneId row rules hid hrow _ hfit => ?_
    obtain ⟨db', h⟩ := (updateZone_ok_iff dto actorId clock hid hrow).mpr hfit
    exact absurd (toOption_eq_some.mpr h) (by rw [ZoneOp.result] at hresult; simp [hresult])
  | some db' =>
    have h : updateZone db id dto actorId clock = .ok db' := toOption_eq_some.mp hresult
    obtain ⟨zoneId, zone, hid, hzone, rfl, hsave⟩ := updateZone_ok h
    have hrow := ZoneDb.row_of_zone hzone
    obtain ⟨rules, hrules⟩ := hmanaged.exists_rules hzone
    obtain ⟨hframe, hrow'⟩ := saveEdit_assign hrow hsave
    have hrules' : rulesOf db'.rules zone.id = some rules := by rw [(saveEdit_ok hsave).2.1, hrules]
    have hstatus : (zone.row.assign dto).status = zone.row.status := by
      simp [ZoneRow.assign, hnone]
    rw [perform_eq_of_result hresult, hframe.statusRight_iff hright,
      rightAt_iff_of_status (hright zone.id) hrow hrules hrow' hrules' hstatus]
    constructor
    · intro hside zoneId row rules₁ hid₁ hrow₁ hrules₁ _
      obtain rfl := Option.some.inj (hid.symm.trans hid₁)
      obtain rfl := Option.some.inj (hrow.symm.trans hrow₁)
      obtain rfl := Option.some.inj (hrules.symm.trans hrules₁)
      exact hside
    · intro hside
      exact hside zone.id _ _ hid hrow hrules
        ((updateZone_ok_iff dto actorId clock hid hrow).mp ⟨db', h⟩)

theorem statusRight_updateZoneRules_iff {db : ZoneDb} {id : String} {dto : UpdateZoneRulesDto}
    {actorId : String} {clock : Clock} (hmanaged : db.Managed) (hright : StatusRight db) :
    StatusRight (perform db (.updateZoneRules id dto actorId clock)) ↔
      KeepsSide db (.updateZoneRules id dto actorId clock) := by
  cases hresult : (ZoneOp.updateZoneRules id dto actorId clock).result db with
  | none =>
    rw [perform_of_failed hresult]
    refine iff_of_true hright fun zoneId row rules hid _ hrules hfit => ?_
    obtain ⟨db', h⟩ := (updateZoneRules_ok_iff dto actorId clock hid hrules).mpr hfit
    exact absurd (toOption_eq_some.mpr h) (by rw [ZoneOp.result] at hresult; simp [hresult])
  | some db' =>
    have h : updateZoneRules db id dto actorId clock = .ok db' := toOption_eq_some.mp hresult
    obtain ⟨zoneId, rules, hid, hrules, hframe, hrules', hzones, -, -⟩ := updateZoneRules_ok h
    cases hzone : db.zone zoneId with
    | none => exact absurd ((hmanaged.paired zoneId).mp hzone) (by simp [hrules])
    | some zone =>
      have hrow := ZoneDb.row_of_zone hzone
      have hrow' : db'.row zoneId = some zone.row := by
        rw [ZoneDb.row, hzones]
        exact hrow
      rw [perform_eq_of_result hresult, hframe.statusRight_iff hright,
        rightAt_iff_of_status (hright zoneId) hrow hrules hrow' hrules' rfl]
      constructor
      · intro hside zoneId₁ row₁ rules₁ hid₁ hrow₁ hrules₁ _
        obtain rfl := Option.some.inj (hid.symm.trans hid₁)
        obtain rfl := Option.some.inj (hrow.symm.trans hrow₁)
        obtain rfl := Option.some.inj (hrules.symm.trans hrules₁)
        exact hside
      · intro hside
        exact hside zoneId _ _ hid hrow hrules
          ((updateZoneRules_ok_iff dto actorId clock hid hrules).mp ⟨db', h⟩)

/-- A write that sets no status keeps the statuses right just when it keeps its zone on its
side of the threshold. -/
theorem statusRight_perform_iff {db : ZoneDb} {op : ZoneOp} (hop : op.NoStatus)
    (hmanaged : db.Managed) (hright : StatusRight db) :
    StatusRight (perform db op) ↔ KeepsSide db op := by
  cases op with
  | createZone dto actorId clock =>
    exact iff_of_true (statusRight_createZone hop hmanaged hright) trivial
  | updateZone id dto actorId clock => exact statusRight_updateZone_iff hop hmanaged hright
  | updateZoneRules id dto actorId clock => exact statusRight_updateZoneRules_iff hmanaged hright
  | handleOccupancyUpdated event clock =>
    exact iff_of_true (statusRight_handleOccupancyUpdated hmanaged hright) trivial

/-- Throughout a run of writes that set no status, every zone is overloaded just when its
occupancy reaches its threshold, exactly when every edit of the run keeps its zone on its
side of the threshold. -/
theorem statusRight_iff_keepsSide {ops : List ZoneOp} (hops : ∀ op ∈ ops, op.NoStatus) :
    Throughout perform .empty ops StatusRight ↔ EachStep perform .empty ops KeepsSide :=
  throughout_iff_eachStep ZoneOp.NoStatus
    (fun db op hop hmanaged => (perform_writes db op).managed hop hmanaged)
    (fun _ _ hop hmanaged hright => statusRight_perform_iff hop hmanaged hright)
    managed_empty (fun _ _ h => by cases h) hops

/-- Nine guests come to a zone of ten seats, and its capacity is raised to a hundred. -/
def capacityRaised : List ZoneOp :=
  [.createZone tenSeats "admin" ⟨0, 0⟩,
    .handleOccupancyUpdated (occupancyEvent uuidOne 50 9) ⟨1, 1⟩,
    .updateZone uuidOne ⟨none, some 100, none, UpdateZoneDto.noName, by simp⟩ "admin" ⟨2, 2⟩]

theorem capacityRaised_noStatus : ∀ op ∈ capacityRaised, op.NoStatus := by
  simp [capacityRaised, ZoneOp.NoStatus, tenSeats]

theorem capacityRaised_row :
    (run perform .empty capacityRaised).row 1 = some ⟨"Canteen", 100, .overloaded, 9⟩ := by
  decide

theorem capacityRaised_not_right : ¬StatusRight (run perform .empty capacityRaised) := by
  intro hright
  obtain ⟨rules, hrules, hreach⟩ := hright 1 _ capacityRaised_row
  have hsame : rulesOf (run perform .empty capacityRaised).rules 1 =
      some (tenSeats.rules.entity 1) := by decide
  obtain rfl := Option.some.inj (hsame.symm.trans hrules)
  exact absurd (hreach.mp rfl) (by simp only [Reaches]; decide)

/-- The zone is overloaded still, at nine per cent. -/
theorem capacityRaised_wrong : (∀ op ∈ capacityRaised, op.NoStatus) ∧
    (run perform .empty capacityRaised).row 1 = some ⟨"Canteen", 100, .overloaded, 9⟩ ∧
      ¬StatusRight (run perform .empty capacityRaised) :=
  ⟨capacityRaised_noStatus, capacityRaised_row, capacityRaised_not_right⟩

/-- So an edit took it to the other side of its threshold. -/
theorem capacityRaised_crosses : ¬EachStep perform .empty capacityRaised KeepsSide := fun h =>
  capacityRaised_not_right ((statusRight_iff_keepsSide capacityRaised_noStatus).mpr h).last

/-! ## Alarms -/

/-- The step handles the event and takes its zone from another status to overloaded. -/
def OverloadEdge (eventId : Uuid) (db : ZoneDb) : ZoneOp → Prop
  | .handleOccupancyUpdated event clock => event.eventId = eventId ∧ ∃ zoneId row row',
    uuidIn (zoneIdOf event) = some zoneId ∧ db.row zoneId = some row ∧ row.status ≠ .overloaded ∧
      (perform db (.handleOccupancyUpdated event clock)).row zoneId = some row' ∧
        row'.status = .overloaded
  | _ => False

/-- The stored zone of the id is overloaded. -/
def ZoneDb.Overloaded (db : ZoneDb) (zoneId : Uuid) : Prop :=
  ∃ row, db.row zoneId = some row ∧ row.status = .overloaded

section

variable {db db' : ZoneDb} {actorId id : String} {clock : Clock} {event : OccupancyEnvelope}
  {zone : ZoneEntity}

/-- A new zone and edited rules alarm nobody. -/
theorem createZone_records {dto : CreateZoneDto} (h : createZone db dto actorId clock = .ok db') :
    (∀ eventType eventId, db'.records eventType eventId = db.records eventType eventId) ∧
      (∀ zoneId, db'.alarms zoneId = db.alarms zoneId) ∧ db'.processed = db.processed := by
  obtain ⟨zones, rules, -, -, rfl⟩ := createZone_eq_ok h
  simp [ZoneDb.records, ZoneDb.alarms, isRecord, createOutbox, createEventEnvelope]

theorem updateZoneRules_records {dto : UpdateZoneRulesDto}
    (h : updateZoneRules db id dto actorId clock = .ok db') :
    (∀ eventType eventId, db'.records eventType eventId = db.records eventType eventId) ∧
      (∀ zoneId, db'.alarms zoneId = db.alarms zoneId) ∧ db'.processed = db.processed := by
  obtain ⟨zoneId, old, rules, -, -, -, -, rfl⟩ := updateZoneRules_eq_ok h
  simp [ZoneDb.records, ZoneDb.alarms, isRecord, createOutbox, createEventEnvelope]

/-- A handling that saves is an edge just when the zone it read was not overloaded, and is
with the occupancy applied. -/
theorem overloadEdge_iff (hid : uuidIn (zoneIdOf event) = some zone.id)
    (hzone : db.zone zone.id = some zone)
    (h : saveOccupancy db event zone (rulesOf db.rules zone.id) clock =
      .ok (perform db (.handleOccupancyUpdated event clock))) (eventId : Uuid) :
    OverloadEdge eventId db (.handleOccupancyUpdated event clock) ↔
      event.eventId = eventId ∧ zone.status ≠ .overloaded ∧
        (zone.applyOccupancy (rulesOf db.rules zone.id) (occupancyOf event)).status =
          .overloaded := by
  have hrow := ZoneDb.row_of_zone hzone
  have hrow' := saveOccupancy_row hrow h
  refine and_congr_right fun _ => ?_
  constructor
  · rintro ⟨zoneId, row, row', hid₁, hrow₁, hbefore, hrow₁', hafter⟩
    obtain rfl := Option.some.inj (hid.symm.trans hid₁)
    obtain rfl := Option.some.inj (hrow.symm.trans hrow₁)
    obtain rfl := Option.some.inj (hrow'.symm.trans hrow₁')
    exact ⟨hbefore, hafter⟩
  · rintro ⟨hbefore, hafter⟩
    exact ⟨zone.id, zone.row, _, hid, hrow, hbefore, hrow', hafter⟩

end

/-- A write that leaves the tables as they are is no edge. -/
theorem not_overloadEdge_of_same {db : ZoneDb} {op : ZoneOp} (h : perform db op = db)
    (eventId : Uuid) : ¬OverloadEdge eventId db op := by
  cases op with
  | handleOccupancyUpdated event clock =>
    rintro ⟨-, zoneId, row, row', -, hrow, hbefore, hrow', hafter⟩
    rw [h, hrow] at hrow'
    obtain rfl := Option.some.inj hrow'
    exact hbefore hafter
  | _ => exact id

/-- A write adds a `zone_overloaded` record with the source just when it is an edge of that
event. -/
theorem records_perform (db : ZoneDb) (op : ZoneOp) (eventId : Uuid) :
    (OverloadEdge eventId db op ∧
        (perform db op).records .zoneOverloaded eventId =
          db.records .zoneOverloaded eventId + 1) ∨
      (¬OverloadEdge eventId db op ∧
        (perform db op).records .zoneOverloaded eventId = db.records .zoneOverloaded eventId) := by
  have hwrites := perform_writes db op
  generalize hdb' : perform db op = db' at hwrites
  cases hwrites with
  | nothing => exact Or.inr ⟨not_overloadEdge_of_same hdb' eventId, rfl⟩
  | created h => exact Or.inr ⟨id, (createZone_records h).1 _ eventId⟩
  | edited hid hzone h => exact Or.inr ⟨id, saveEdit_records h _ eventId⟩
  | ruled h => exact Or.inr ⟨id, (updateZoneRules_records h).1 _ eventId⟩
  | handled hid hzone h =>
    have hrecords := saveOccupancy_overloadRecords h eventId
    subst hdb'
    have hedge := overloadEdge_iff hid hzone h eventId
    split_ifs at hrecords with hcond
    · exact Or.inl ⟨hedge.mpr hcond, hrecords⟩
    · exact Or.inr ⟨fun he => hcond (hedge.mp he), hrecords⟩

/-- A write that raises an alarm of a zone finds it not overloaded and leaves it so. -/
theorem alarms_perform (db : ZoneDb) (op : ZoneOp) (zoneId : Uuid) :
    (perform db op).alarms zoneId = db.alarms zoneId ∨
      ((perform db op).alarms zoneId = db.alarms zoneId + 1 ∧ ¬db.Overloaded zoneId ∧
        (perform db op).Overloaded zoneId) := by
  have hwrites := perform_writes db op
  generalize perform db op = db' at hwrites
  cases hwrites with
  | nothing => exact Or.inl rfl
  | created h => exact Or.inl ((createZone_records h).2.1 zoneId)
  | edited hid hzone h => exact Or.inl (saveEdit_alarms h zoneId)
  | ruled h => exact Or.inl ((updateZoneRules_records h).2.1 zoneId)
  | @handled event clock _ zone hid hzone h =>
    have halarms := saveOccupancy_alarms h zoneId
    have hrow := ZoneDb.row_of_zone hzone
    split_ifs at halarms with hedge
    · obtain ⟨rfl, hbefore, hafter⟩ := hedge
      refine Or.inr ⟨halarms, ?_, _, saveOccupancy_row hrow h, hafter⟩
      rintro ⟨row, hrow₁, hover⟩
      obtain rfl := Option.some.inj (hrow.symm.trans hrow₁)
      exact hbefore hover
    · exact Or.inl halarms

/-- The write handles the event, and changes the tables. -/
def Handles (eventId : Uuid) (db : ZoneDb) (op : ZoneOp) : Prop :=
  (∃ event clock, op = .handleOccupancyUpdated event clock ∧ event.eventId = eventId) ∧
    perform db op ≠ db

/-- A handling that changes the tables saves its zone together with its event. -/
theorem Handles.saves {eventId : Uuid} {db : ZoneDb} {op : ZoneOp} (h : Handles eventId db op) :
    ∃ event zone rules clock, event.eventId = eventId ∧
      saveOccupancy db event zone rules clock = .ok (perform db op) := by
  obtain ⟨⟨event, clock, rfl, hid⟩, hne⟩ := h
  have hwrites := perform_writes db (.handleOccupancyUpdated event clock)
  generalize perform db _ = db' at hwrites hne ⊢
  cases hwrites with
  | nothing => exact absurd rfl hne
  | handled _ _ hsave => exact ⟨_, _, _, _, hid, hsave⟩

/-- What an event left behind is as it was, or the write handled an event. -/
theorem perform_records_cases (db : ZoneDb) (op : ZoneOp) :
    (∀ eventId, (perform db op).processedRows eventId = db.processedRows eventId ∧
      ∀ eventType, (perform db op).records eventType eventId = db.records eventType eventId) ∨
    ∃ event zone rules clock, saveOccupancy db event zone rules clock = .ok (perform db op) := by
  have hwrites := perform_writes db op
  generalize perform db op = db' at hwrites ⊢
  cases hwrites with
  | nothing => exact Or.inl fun _ => ⟨rfl, fun _ => rfl⟩
  | created h =>
    obtain ⟨hrecords, -, hprocessed⟩ := createZone_records h
    exact Or.inl fun eventId =>
      ⟨by rw [ZoneDb.processedRows, hprocessed]; rfl, fun eventType => hrecords eventType eventId⟩
  | edited hid hzone h =>
    exact Or.inl fun eventId =>
      ⟨saveEdit_processedRows h eventId, fun eventType => saveEdit_records h eventType eventId⟩
  | ruled h =>
    obtain ⟨hrecords, -, hprocessed⟩ := updateZoneRules_records h
    exact Or.inl fun eventId =>
      ⟨by rw [ZoneDb.processedRows, hprocessed]; rfl, fun eventType => hrecords eventType eventId⟩
  | handled hid hzone h => exact Or.inr ⟨_, _, _, _, h⟩

theorem processedRows_perform {db : ZoneDb} {eventId : Uuid} (op : ZoneOp)
    (h : 0 < db.processedRows eventId) : 0 < (perform db op).processedRows eventId := by
  rcases perform_records_cases db op with hsame | ⟨event, zone, rules, clock, hsave⟩
  · rw [(hsame eventId).1]
    exact h
  · rw [saveOccupancy_processedRows hsave]
    exact Nat.add_pos_left h _

theorem Once.perform {db : ZoneDb} (h : Once db) (op : ZoneOp) : Once (perform db op) := by
  rcases perform_records_cases db op with hsame | ⟨event, zone, rules, clock, hsave⟩
  · intro eventId
    obtain ⟨hrows, hrecords⟩ := hsame eventId
    rw [hrows, hrecords, hrecords]
    exact h eventId
  · exact h.saveOccupancy hsave

/-- The records of an event, after a run, as the edges of the run. -/
theorem records_pos_iff (ops : List ZoneOp) (eventId : Uuid) :
    0 < (run perform .empty ops).records .zoneOverloaded eventId ↔
      ∃ pre op, pre ++ [op] <+: ops ∧ OverloadEdge eventId (run perform .empty pre) op := by
  induction ops using List.reverseRecOn with
  | nil => exact iff_of_false (by simp [ZoneDb.records, ZoneDb.empty]) (by simp)
  | append_singleton ops op ih =>
    rw [run_append, run_cons, run_nil]
    rcases records_perform (run perform .empty ops) op eventId with ⟨hedge, heq⟩ | ⟨hnot, heq⟩
    · exact iff_of_true (by omega) ⟨ops, op, List.prefix_refl _, hedge⟩
    · rw [heq, ih]
      constructor
      · rintro ⟨pre, op', hpre, hedge⟩
        exact ⟨pre, op', hpre.trans (List.prefix_append ops [op]), hedge⟩
      · rintro ⟨pre, op', hpre, hedge⟩
        rcases List.prefix_concat_iff.mp hpre with hlast | hpre
        · obtain ⟨rfl, hop⟩ := List.append_inj' hlast rfl
          obtain rfl := List.singleton_inj.mp hop
          exact absurd hedge hnot
        · exact ⟨pre, op', hpre, hedge⟩

/-- In a run of writes at most one handling of an event changes the tables. The event has
one `zone_overloaded` record at most, and has it exactly when that handling took its zone
from another status to overloaded. After an alarm the zone is overloaded, and before the
next one there is a state of the run in which it is not. -/
theorem overloaded_iff_edge (ops : List ZoneOp) (eventId zoneId : Uuid) :
    AtMostOnce perform .empty ops (Handles eventId) ∧
    (run perform .empty ops).records .zoneOverloaded eventId ≤ 1 ∧
    (0 < (run perform .empty ops).records .zoneOverloaded eventId ↔
      ∃ pre op, pre ++ [op] <+: ops ∧ OverloadEdge eventId (run perform .empty pre) op) ∧
    ∀ pre op pre' op', pre ++ [op] <+: pre' → pre' ++ [op'] <+: ops →
      (run perform .empty (pre ++ [op])).alarms zoneId ≠ (run perform .empty pre).alarms zoneId →
      (run perform .empty (pre' ++ [op'])).alarms zoneId ≠
        (run perform .empty pre').alarms zoneId →
      (run perform .empty (pre ++ [op])).Overloaded zoneId ∧
        ∃ mid, pre ++ [op] <+: mid ∧ mid <+: pre' ∧
          ¬(run perform .empty mid).Overloaded zoneId := by
  have honce : Once (run perform .empty ops) := by
    refine run_invariant (fun _ => True) (fun db op _ (h : Once db) => h.perform op) ?_
      fun _ _ => trivial
    intro eventId
    simp [ZoneDb.empty, ZoneDb.processedRows, ZoneDb.records]
  refine ⟨?_, ?_, records_pos_iff ops eventId, ?_⟩
  · refine atMostOnce_of_mark (fun db => 0 < db.processedRows eventId) ?_
      (fun _ op h => processedRows_perform op h) ?_ _ _
    · intro db op h
      obtain ⟨event, zone, rules, clock, rfl, hsave⟩ := h.saves
      rw [saveOccupancy_processedRows hsave, if_pos rfl]
      omega
    · intro db op hdone h
      obtain ⟨event, zone, rules, clock, rfl, hsave⟩ := h.saves
      have hnew := saveOccupancy_new hsave
      omega
  · obtain ⟨hrows, -, hoverload⟩ := honce eventId
    omega
  · intro pre op pre' op' hpre _ hfirst hsecond
    rw [run_append, run_cons, run_nil] at hfirst hsecond ⊢
    exact ⟨((alarms_perform _ op zoneId).resolve_left hfirst).2.2, pre', hpre,
      List.prefix_refl _, ((alarms_perform _ op' zoneId).resolve_left hsecond).2.1⟩

end Qoms.ZoneService
