import Qoms.Shared
import Qoms.Zone

/-!
# An edit against an occupancy event

`updateZone` and `handleOccupancyUpdated` both read a zone, change it in memory and save
it, in transactions that take no lock and check no version (`act`). If each reads before
the other saves, the one that saves last puts back every column as it read it, and the
other's write is lost : a close is undone by an event that was in flight
(`reopened`), and an occupancy by an edit that does not mention it.

`run_schedule` sorts the orders of the five steps by what they end with, and
`serial_iff_undisturbed` says exactly when that is the row of a serial order.
-/

set_option autoImplicit false

namespace Qoms.ZoneService

/-! ## Requests in flight -/

/-- Where a request or a delivery stands. -/
inductive Request
  | idle
  | editing (zone : ZoneEntity) (actorId : String)
  | unprocessed (event : OccupancyEnvelope)
  | handling (event : OccupancyEnvelope) (zone : ZoneEntity) (rules : Option ZoneRuleEntity)
  | committed
  | finished

/-- The tables, and the requests and deliveries. -/
abbrev System := Shared ZoneDb Request

/-- One step : of `updateZone`, its read and its save; of `handleOccupancyUpdated`, the
lookup, the read and the save; or a transaction that rolls back. -/
inductive Action
  | edit (id : String) (dto : UpdateZoneDto) (actorId : String)
  | saveEdit (clock : Clock)
  | lookup (event : OccupancyEnvelope)
  | read
  | save (clock : Clock)
  | abort

/-- What a step does; a step that is not the next one does nothing. -/
def act : Action → ZoneDb → Request → ZoneDb × Request
  | .edit id dto actorId, db, .idle =>
    match editZone db.zones id dto with
    | .error _ => (db, .finished)
    | .ok zone => (db, .editing zone actorId)
  | .saveEdit clock, db, .editing zone actorId =>
    match saveEdit db zone actorId clock with
    | .error _ => (db, .finished)
    | .ok db' => (db', .committed)
  | .lookup event, db, .idle =>
    if isProcessed db.processed event.eventId then (db, .finished) else (db, .unprocessed event)
  | .read, db, .unprocessed event =>
    match readZone db event with
    | .error _ => (db, .finished)
    | .ok none => (db, .finished)
    | .ok (some (zone, rules)) => (db, .handling event zone rules)
  | .save clock, db, .handling event zone rules =>
    match saveOccupancy db event zone rules clock with
    | .error _ => (db, .finished)
    | .ok db' => (db', .committed)
  | .abort, db, .editing _ _ => (db, .finished)
  | .abort, db, .handling _ _ _ => (db, .finished)
  | _, db, request => (db, request)

/-! ## One edit and one event -/

/-- The five steps. -/
inductive Step
  | edit
  | saveEdit
  | lookup
  | read
  | save
  deriving DecidableEq, Repr

/-- The orders in which the steps can come. -/
def schedules : List (List Step) :=
  interleavings [.edit, .saveEdit] [.lookup, .read, .save]

/-- One edit and one delivery. -/
structure Race where
  id : String
  dto : UpdateZoneDto
  actorId : String
  editClock : Clock
  event : OccupancyEnvelope
  eventClock : Clock

/-- The steps as actions : request 0 is the edit and request 1 the delivery. -/
def Race.action (c : Race) : Step → ℕ × Action
  | .edit => (0, .edit c.id c.dto c.actorId)
  | .saveEdit => (0, .saveEdit c.editClock)
  | .lookup => (1, .lookup c.event)
  | .read => (1, .read)
  | .save => (1, .save c.eventClock)

/-- The tables and the requests after the steps of a schedule. -/
def Race.run (c : Race) (s : System) (schedule : List Step) : System :=
  Qoms.run (Shared.step act) s (schedule.map c.action)

/-- The edit, then the event. -/
def Race.editFirst (c : Race) (db : ZoneDb) : Option ZoneDb := do
  let db' ← (updateZone db c.id c.dto c.actorId c.editClock).toOption
  (handleOccupancyUpdated db' c.event c.eventClock).toOption

/-- The event, then the edit. -/
def Race.eventFirst (c : Race) (db : ZoneDb) : Option ZoneDb := do
  let db' ← (handleOccupancyUpdated db c.event c.eventClock).toOption
  (updateZone db' c.id c.dto c.actorId c.editClock).toOption

/-- What the edit makes of a row. -/
def Race.edit (c : Race) (row : ZoneRow) : ZoneRow :=
  row.assign c.dto

/-- What the delivery makes of a row, under the zone's rules. -/
def Race.handle (c : Race) (rules : Option ZoneRuleEntity) (row : ZoneRow) : ZoneRow :=
  row.applyOccupancy rules (occupancyOf c.event)

/-- Nothing but the other can keep the edit or the delivery from committing. -/
structure Race.Admitted (c : Race) (db : ZoneDb) (zoneId : Uuid) (row : ZoneRow) : Prop where
  unprocessed : isProcessed db.processed c.event.eventId = false
  edit_fits : columnsFit (some row) (c.edit row) = true
  handle_fits : columnsFit (some row) (c.handle (rulesOf db.rules zoneId) row) = true

/-- Whether a delivery fits depends on the stored occupancy only. -/
theorem Race.handle_fits_of {c : Race} {rules : Option ZoneRuleEntity} {row : ZoneRow}
    (old row' : ZoneRow)
    (hocc : old.currentOccupancy = row.currentOccupancy)
    (h : columnsFit (some old) (c.handle rules row') = true) :
    columnsFit (some row) (c.handle rules row) = true := by
  simp only [columnsFit, Race.handle, ZoneRow.applyOccupancy, Option.any_some, Bool.and_eq_true,
    hocc] at h ⊢
  exact ⟨by simp, h.2⟩

/-- Whether an edit fits depends on the stored name and capacity only. -/
theorem Race.edit_fits_of {c : Race} {row : ZoneRow} (old row' : ZoneRow)
    (hname : old.name = row.name)
    (hcapacity : old.capacity = row.capacity) (hname' : row'.name = row.name)
    (hcapacity' : row'.capacity = row.capacity)
    (h : columnsFit (some old) (c.edit row') = true) :
    columnsFit (some row) (c.edit row) = true := by
  simp only [columnsFit, Race.edit, ZoneRow.assign, Option.any_some, Bool.and_eq_true, hname,
    hcapacity, hname', hcapacity'] at h ⊢
  exact ⟨h.1, by simp⟩

/-! ## Single steps -/

section

variable {s : System} {p : ℕ} {id : String} {zoneId : Uuid} {row : ZoneRow} {dto : UpdateZoneDto}
  {actorId : String} {clock : Clock} {event : OccupancyEnvelope} {zone : ZoneEntity}
  {rules : Option ZoneRuleEntity}

attribute [local simp] act

/-- The steps that write nothing. -/
theorem act_db (a : Action) (db : ZoneDb) (r : Request)
    (h : (∃ id dto actorId, a = .edit id dto actorId) ∨ (∃ event, a = .lookup event) ∨ a = .read) :
    (act a db r).1 = db := by
  rcases h with ⟨id, dto, actorId, rfl⟩ | ⟨event, rfl⟩ | rfl
  · cases r <;> try rfl
    simp only [act]
    split <;> rfl
  · cases r <;> try rfl
    simp only [act]
    split <;> rfl
  · cases r <;> try rfl
    simp only [act]
    split <;> rfl

theorem act_finished (a : Action) (db : ZoneDb) : (act a db .finished).2 = .finished := by
  cases a <;> rfl

/-- The edit holds the zone with the fields of the request. -/
theorem step_edit (dto : UpdateZoneDto) (actorId : String) (hp : s.requests p = .idle)
    (hid : uuidIn id = some zoneId) (hrow : s.db.row zoneId = some row) :
    ∃ zone, (Shared.step act s (p, .edit id dto actorId)).requests p = .editing zone actorId ∧
      zone.id = zoneId ∧ zone.row = row.assign dto := by
  obtain ⟨zone, hedit, hz, hzone⟩ : ∃ zone, editZone s.db.zones id dto = .ok zone ∧
    zone.id = zoneId ∧ zone.row = row.assign dto := editZone_ok hid hrow
  refine ⟨zone, ?_, hz, hzone⟩
  simp [hp, hedit]

theorem step_lookup (hp : s.requests p = .idle)
    (hnew : isProcessed s.db.processed event.eventId = false) :
    (Shared.step act s (p, .lookup event)).requests p = .unprocessed event := by
  simp [hp, hnew]

/-- The delivery holds the zone as it is, and its rules. -/
theorem step_read (hp : s.requests p = .unprocessed event)
    (hid : uuidIn (zoneIdOf event) = some zoneId) (hrow : s.db.row zoneId = some row) :
    ∃ zone, (Shared.step act s (p, .read)).requests p =
        .handling event zone (rulesOf s.db.rules zoneId) ∧
      zone.id = zoneId ∧ zone.row = row := by
  obtain ⟨zone, hread, hz, hzone⟩ := readZone_ok hid hrow
  refine ⟨zone, ?_, hz, hzone⟩
  simp [hp, hread]

theorem edit_db : (Shared.step act s (p, .edit id dto actorId)).db = s.db :=
  act_db _ _ _ (by simp)

theorem lookup_db : (Shared.step act s (p, .lookup event)).db = s.db :=
  act_db _ _ _ (by simp)

theorem read_db : (Shared.step act s (p, .read)).db = s.db :=
  act_db _ _ _ (by simp)

/-- The lookup and the read of a new event. -/
theorem step_lookup_read (hp : s.requests p = .idle)
    (hnew : isProcessed s.db.processed event.eventId = false)
    (hid : uuidIn (zoneIdOf event) = some zoneId) (hrow : s.db.row zoneId = some row) :
    ∃ zone, (Shared.step act (Shared.step act s (p, .lookup event)) (p, .read)).requests p =
        .handling event zone (rulesOf s.db.rules zoneId) ∧
      zone.id = zoneId ∧ zone.row = row := by
  have hlookup := step_lookup hp hnew
  have hrow' : (Shared.step act s (p, .lookup event)).db.row zoneId = some row := by
    rw [lookup_db]
    exact hrow
  simpa only [lookup_db] using step_read hlookup hid hrow'

theorem saveEdit_of_committed (hp : s.requests p = .editing zone actorId)
    (hc : (Shared.step act s (p, .saveEdit clock)).requests p = .committed) :
    saveEdit s.db zone actorId clock = .ok (Shared.step act s (p, .saveEdit clock)).db := by
  rw [Shared.step_requests_self, hp] at hc
  rw [Shared.step_db, hp]
  cases h : saveEdit s.db zone actorId clock with
  | error e => simp [h] at hc
  | ok db' => simp [h]

theorem saveOccupancy_of_committed (hp : s.requests p = .handling event zone rules)
    (hc : (Shared.step act s (p, .save clock)).requests p = .committed) :
    saveOccupancy s.db event zone rules clock = .ok (Shared.step act s (p, .save clock)).db := by
  rw [Shared.step_requests_self, hp] at hc
  rw [Shared.step_db, hp]
  cases h : saveOccupancy s.db event zone rules clock with
  | error e => simp [h] at hc
  | ok db' => simp [h]

/-- A delivery that commits found its event unprocessed. -/
theorem unprocessed_of_committed (as : List (ℕ × Action)) (hp : s.requests p = .idle)
    (hc : (run (Shared.step act) (Shared.step act s (p, .lookup event)) as).requests p =
      .committed) : isProcessed s.db.processed event.eventId = false := by
  by_contra hdone
  rw [Bool.not_eq_false] at hdone
  have hfin : (Shared.step act s (p, .lookup event)).requests p = .finished := by
    simp [hp, hdone]
  rw [Shared.run_requests_of_stuck act_finished as hfin] at hc
  simp at hc

/-- The lookup reads the processed events only. -/
theorem act_lookup_congr {db db' : ZoneDb} (h : db.processed = db'.processed) (r : Request) :
    (act (.lookup event) db r).2 = (act (.lookup event) db' r).2 := by
  cases r <;> try rfl
  simp only [act, h]
  split <;> rfl

/-- The lookup commutes with the edit's read. -/
theorem step_lookup_edit (s : System) :
    Shared.step act (Shared.step act s (1, .lookup event)) (0, .edit id dto actorId) =
      Shared.step act (Shared.step act s (0, .edit id dto actorId)) (1, .lookup event) := by
  refine Shared.step_comm s (by decide) (act_db _ _ _ (by simp)) ?_
  rw [act_db (.edit id dto actorId) _ _ (by simp)]
  exact Prod.ext (act_db _ _ _ (by simp)) rfl

/-- The edit's read commutes with the delivery's read. -/
theorem step_edit_read (s : System) :
    Shared.step act (Shared.step act s (0, .edit id dto actorId)) (1, .read) =
      Shared.step act (Shared.step act s (1, .read)) (0, .edit id dto actorId) := by
  refine Shared.step_comm s (by decide) (act_db _ _ _ (by simp)) ?_
  rw [act_db .read _ _ (by simp)]
  exact Prod.ext (act_db _ _ _ (by simp)) rfl

/-- The lookup commutes with the edit's save, which processes no event. -/
theorem step_lookup_saveEdit (s : System) :
    Shared.step act (Shared.step act s (1, .lookup event)) (0, .saveEdit clock) =
      Shared.step act (Shared.step act s (0, .saveEdit clock)) (1, .lookup event) := by
  refine Shared.step_comm s (by decide) (act_db _ _ _ (by simp)) ?_
  have hprocessed : (act (.saveEdit clock) s.db (s.requests 0)).1.processed = s.db.processed := by
    cases s.requests 0 <;> try rfl
    rename_i zone actorId
    simp only [act]
    cases hsave : saveEdit s.db zone actorId clock with
    | error e => rfl
    | ok db' => exact (saveEdit_ok hsave).2.2
  exact Prod.ext (act_db _ _ _ (by simp)) (act_lookup_congr hprocessed _)

end

/-! ## The row at the end -/

section

variable {s : System} {p : ℕ} {actorId : String} {clock : Clock} {event : OccupancyEnvelope}
  {zone : ZoneEntity} {rules : Option ZoneRuleEntity} {row : ZoneRow}

/-- An edit that commits wrote columns that fit; the row is the zone it held, and nothing
else changed that a delivery reads. -/
theorem saveEdit_commits (hp : s.requests p = .editing zone actorId)
    (hrow : s.db.row zone.id = some row)
    (hc : (Shared.step act s (p, .saveEdit clock)).requests p = .committed) :
    columnsFit (some row) zone.row = true ∧
      (Shared.step act s (p, .saveEdit clock)).db.row zone.id = some zone.row ∧
      (Shared.step act s (p, .saveEdit clock)).db.rules = s.db.rules ∧
      (Shared.step act s (p, .saveEdit clock)).db.processed = s.db.processed := by
  have hsave := saveEdit_of_committed hp hc
  exact ⟨(saveEdit_ok_iff hrow).mp ⟨_, hsave⟩, saveEdit_row hrow hsave, (saveEdit_ok hsave).2⟩

/-- A delivery that commits wrote columns that fit, and the row is the zone it held with
the occupancy applied. -/
theorem save_commits (hp : s.requests p = .handling event zone rules)
    (hrow : s.db.row zone.id = some row)
    (hc : (Shared.step act s (p, .save clock)).requests p = .committed) :
    columnsFit (some row) (zone.row.applyOccupancy rules (occupancyOf event)) = true ∧
      (Shared.step act s (p, .save clock)).db.row zone.id =
        some (zone.row.applyOccupancy rules (occupancyOf event)) := by
  have hsave := saveOccupancy_of_committed hp hc
  exact ⟨((saveOccupancy_ok_iff hrow).mp ⟨_, hsave⟩).1, saveOccupancy_row hrow hsave⟩

end

/-- In a schedule that starts with the edit's read and the lookup, a delivery that commits
found its event unprocessed. -/
theorem Race.unprocessed_of_committed (c : Race) {s : System} (schedule : List Step)
    (hidle : s.requests 1 = .idle)
    (hc : (c.run s (.edit :: .lookup :: schedule)).requests 1 = .committed) :
    isProcessed s.db.processed c.event.eventId = false := by
  have hidle₁ : (Shared.step act s (c.action .edit)).requests 1 = .idle := by
    rw [Race.action, Shared.step_requests_of_ne _ _ (by decide), hidle]
  have hnew := ZoneService.unprocessed_of_committed (schedule.map c.action) hidle₁ hc
  rwa [Race.action, edit_db] at hnew

section

variable {c : Race} {s : System} {zoneId : Uuid} {row : ZoneRow}
  (hid : uuidIn c.id = some zoneId) (hev : uuidIn (zoneIdOf c.event) = some zoneId)
  (hrow : s.db.row zoneId = some row) (hidle : ∀ p, s.requests p = .idle)

include hid hev hrow hidle

/-- The edit, then the event. -/
theorem run_edit_event
    (hedit : (c.run s [.edit, .saveEdit, .lookup, .read, .save]).requests 0 = .committed)
    (hevent : (c.run s [.edit, .saveEdit, .lookup, .read, .save]).requests 1 = .committed) :
    c.Admitted s.db zoneId row ∧
      (c.run s [.edit, .saveEdit, .lookup, .read, .save]).db.row zoneId =
        some (c.handle (rulesOf s.db.rules zoneId) (c.edit row)) := by
  simp only [Race.run, List.map_cons, List.map_nil, Race.action, run_cons, run_nil]
    at hedit hevent ⊢
  obtain ⟨u, hu, huid, hurow⟩ := step_edit c.dto c.actorId (hidle 0) hid hrow
  have hdb₁ : (Shared.step act s (0, .edit c.id c.dto c.actorId)).db = s.db := edit_db
  set s₁ := Shared.step act s (0, .edit c.id c.dto c.actorId) with hs₁
  set s₂ := Shared.step act s₁ (0, .saveEdit c.editClock) with hs₂
  have hidle₂ : s₂.requests 1 = .idle := by
    rw [hs₂, Shared.step_requests_of_ne _ _ (by decide), hs₁,
      Shared.step_requests_of_ne _ _ (by decide), hidle 1]
  rw [Shared.step_requests_of_ne _ _ (by decide), Shared.step_requests_of_ne _ _ (by decide),
    Shared.step_requests_of_ne _ _ (by decide)] at hedit
  obtain ⟨hfit, hrow₂, hrules, hprocessed⟩ :=
    saveEdit_commits hu (by rw [hdb₁, huid]; exact hrow) hedit
  rw [huid, hurow] at hrow₂
  have hnew := unprocessed_of_committed [(1, .read), (1, .save c.eventClock)] hidle₂ hevent
  obtain ⟨h, hh, hhid, hhrow⟩ := step_lookup_read hidle₂ hnew hev hrow₂
  obtain ⟨hfit', hrow₅⟩ := save_commits hh (by rw [read_db, lookup_db, hhid]; exact hrow₂) hevent
  rw [hhid, hhrow, hrules, hdb₁] at hrow₅
  rw [hhrow, hrules, hdb₁] at hfit'
  rw [hurow] at hfit
  rw [hprocessed, hdb₁] at hnew
  exact ⟨⟨hnew, hfit, Race.handle_fits_of (c.edit row) (c.edit row) rfl hfit'⟩, hrow₅⟩

/-- The event, then the edit. -/
theorem run_event_edit
    (hedit : (c.run s [.lookup, .read, .save, .edit, .saveEdit]).requests 0 = .committed)
    (hevent : (c.run s [.lookup, .read, .save, .edit, .saveEdit]).requests 1 = .committed) :
    c.Admitted s.db zoneId row ∧
      (c.run s [.lookup, .read, .save, .edit, .saveEdit]).db.row zoneId =
        some (c.edit (c.handle (rulesOf s.db.rules zoneId) row)) := by
  simp only [Race.run, List.map_cons, List.map_nil, Race.action, run_cons, run_nil]
    at hedit hevent ⊢
  have hnew := unprocessed_of_committed [(1, .read), (1, .save c.eventClock),
    (0, .edit c.id c.dto c.actorId), (0, .saveEdit c.editClock)] (hidle 1) hevent
  obtain ⟨h, hh, hhid, hhrow⟩ := step_lookup_read (hidle 1) hnew hev hrow
  have hdb₂ : (Shared.step act (Shared.step act s (1, .lookup c.event)) (1, .read)).db = s.db := by
    rw [read_db, lookup_db]
  set s₂ := Shared.step act (Shared.step act s (1, .lookup c.event)) (1, .read) with hs₂
  set s₃ := Shared.step act s₂ (1, .save c.eventClock) with hs₃
  have hidle₃ : s₃.requests 0 = .idle := by
    rw [hs₃, Shared.step_requests_of_ne _ _ (by decide), hs₂,
      Shared.step_requests_of_ne _ _ (by decide), Shared.step_requests_of_ne _ _ (by decide),
      hidle 0]
  rw [Shared.step_requests_of_ne _ _ (by decide), Shared.step_requests_of_ne _ _ (by decide)]
    at hevent
  obtain ⟨hfit, hrow₃⟩ := save_commits hh (by rw [hdb₂, hhid]; exact hrow) hevent
  rw [hhid, hhrow] at hrow₃
  obtain ⟨u, hu, huid, hurow⟩ := step_edit c.dto c.actorId hidle₃ hid hrow₃
  obtain ⟨hfit', hrow₅, -, -⟩ := saveEdit_commits hu (by rw [edit_db, huid]; exact hrow₃) hedit
  rw [huid, hurow] at hrow₅
  rw [hurow] at hfit'
  rw [hhrow] at hfit
  have hedit_fits : columnsFit (some row) (c.edit row) = true :=
    Race.edit_fits_of (c.handle _ row) (c.handle _ row) rfl rfl rfl rfl hfit'
  exact ⟨⟨hnew, hedit_fits, hfit⟩, hrow₅⟩

/-- The reads of both, before either saves. -/
theorem run_reads (hnew : isProcessed s.db.processed c.event.eventId = false) :
    (c.run s [.edit, .lookup, .read]).db = s.db ∧
      (∃ u, (c.run s [.edit, .lookup, .read]).requests 0 = .editing u c.actorId ∧
        u.id = zoneId ∧ u.row = c.edit row) ∧
      ∃ h, (c.run s [.edit, .lookup, .read]).requests 1 =
          .handling c.event h (rulesOf s.db.rules zoneId) ∧ h.id = zoneId ∧ h.row = row := by
  simp only [Race.run, List.map_cons, List.map_nil, Race.action, run_cons, run_nil]
  obtain ⟨u, hu, huid, hurow⟩ := step_edit c.dto c.actorId (hidle 0) hid hrow
  have hdb₁ : (Shared.step act s (0, .edit c.id c.dto c.actorId)).db = s.db := edit_db
  have hidle₁ : (Shared.step act s (0, .edit c.id c.dto c.actorId)).requests 1 = .idle := by
    rw [Shared.step_requests_of_ne _ _ (by decide), hidle 1]
  set s₁ := Shared.step act s (0, .edit c.id c.dto c.actorId)
  obtain ⟨h, hh, hhid, hhrow⟩ := step_lookup_read hidle₁ (by rw [hdb₁]; exact hnew) hev
    (by rw [hdb₁]; exact hrow)
  rw [hdb₁] at hh
  refine ⟨by rw [read_db, lookup_db, hdb₁], ⟨u, ?_, huid, hurow⟩, h, hh, hhid, hhrow⟩
  rw [Shared.step_requests_of_ne _ _ (by decide), Shared.step_requests_of_ne _ _ (by decide), hu]

/-- Both read first and the delivery saves last : the edit is lost. -/
theorem run_edit_lost
    (hedit : (c.run s [.edit, .lookup, .read, .saveEdit, .save]).requests 0 = .committed)
    (hevent : (c.run s [.edit, .lookup, .read, .saveEdit, .save]).requests 1 = .committed) :
    c.Admitted s.db zoneId row ∧
      (c.run s [.edit, .lookup, .read, .saveEdit, .save]).db.row zoneId =
        some (c.handle (rulesOf s.db.rules zoneId) row) := by
  have hnew := c.unprocessed_of_committed [.read, .saveEdit, .save] (hidle 1) hevent
  obtain ⟨hdb, ⟨u, hu, huid, hurow⟩, h, hh, hhid, hhrow⟩ := run_reads hid hev hrow hidle hnew
  have hsplit : c.run s [.edit, .lookup, .read, .saveEdit, .save] =
      Shared.step act (Shared.step act (c.run s [.edit, .lookup, .read]) (0, .saveEdit c.editClock))
        (1, .save c.eventClock) := rfl
  rw [hsplit] at hedit hevent ⊢
  generalize c.run s [.edit, .lookup, .read] = s₃ at hdb hu hh hedit hevent ⊢
  rw [Shared.step_requests_of_ne _ _ (by decide)] at hedit
  obtain ⟨hfit, hrow₄, -, -⟩ := saveEdit_commits hu (by rw [hdb, huid]; exact hrow) hedit
  rw [huid, hurow] at hrow₄
  have hh' : (Shared.step act s₃ (0, .saveEdit c.editClock)).requests 1 =
      .handling c.event h (rulesOf s.db.rules zoneId) := by
    rw [Shared.step_requests_of_ne _ _ (by decide), hh]
  obtain ⟨hfit', hrow₅⟩ := save_commits hh' (by rw [hhid]; exact hrow₄) hevent
  rw [hhid, hhrow] at hrow₅
  rw [hhrow] at hfit'
  rw [hurow] at hfit
  exact ⟨⟨hnew, hfit, Race.handle_fits_of (c.edit row) row rfl hfit'⟩, hrow₅⟩

/-- Both read first and the edit saves last : the event is lost. -/
theorem run_event_lost
    (hedit : (c.run s [.edit, .lookup, .read, .save, .saveEdit]).requests 0 = .committed)
    (hevent : (c.run s [.edit, .lookup, .read, .save, .saveEdit]).requests 1 = .committed) :
    c.Admitted s.db zoneId row ∧
      (c.run s [.edit, .lookup, .read, .save, .saveEdit]).db.row zoneId =
        some (c.edit row) := by
  have hnew := c.unprocessed_of_committed [.read, .save, .saveEdit] (hidle 1) hevent
  obtain ⟨hdb, ⟨u, hu, huid, hurow⟩, h, hh, hhid, hhrow⟩ := run_reads hid hev hrow hidle hnew
  have hsplit : c.run s [.edit, .lookup, .read, .save, .saveEdit] =
      Shared.step act (Shared.step act (c.run s [.edit, .lookup, .read]) (1, .save c.eventClock))
        (0, .saveEdit c.editClock) := rfl
  rw [hsplit] at hedit hevent ⊢
  generalize c.run s [.edit, .lookup, .read] = s₃ at hdb hu hh hedit hevent ⊢
  rw [Shared.step_requests_of_ne _ _ (by decide)] at hevent
  obtain ⟨hfit, hrow₄⟩ := save_commits hh (by rw [hdb, hhid]; exact hrow) hevent
  rw [hhid, hhrow] at hrow₄
  have hu' : (Shared.step act s₃ (1, .save c.eventClock)).requests 0 = .editing u c.actorId := by
    rw [Shared.step_requests_of_ne _ _ (by decide), hu]
  obtain ⟨hfit', hrow₅, -, -⟩ := saveEdit_commits hu' (by rw [huid]; exact hrow₄) hedit
  rw [huid, hurow] at hrow₅
  rw [hhrow] at hfit
  rw [hurow] at hfit'
  exact ⟨⟨hnew, Race.edit_fits_of (c.handle _ row) row rfl rfl rfl rfl hfit', hfit⟩, hrow₅⟩

end

/-! ## The serial orders -/

section

variable {c : Race} {db : ZoneDb} {zoneId : Uuid} {row : ZoneRow}
  (hid : uuidIn c.id = some zoneId) (hev : uuidIn (zoneIdOf c.event) = some zoneId)
  (hrow : db.row zoneId = some row)

include hid hrow in
/-- An edit that fits commits, and what it leaves for a delivery. -/
theorem updateZone_commits (hfit : columnsFit (some row) (c.edit row) = true) :
    ∃ db', updateZone db c.id c.dto c.actorId c.editClock = .ok db' ∧
      db'.row zoneId = some (c.edit row) ∧ db'.rules = db.rules ∧
      db'.processed = db.processed := by
  obtain ⟨zone, hupdate, rfl, hzone⟩ : ∃ zone, updateZone db c.id c.dto c.actorId c.editClock =
    saveEdit db zone c.actorId c.editClock ∧ zone.id = zoneId ∧ zone.row = row.assign c.dto :=
    updateZone_eq hid hrow
  rw [Race.edit, ← hzone] at hfit
  obtain ⟨db', hsave⟩ : ∃ db', saveEdit db zone c.actorId c.editClock = .ok db' :=
    (saveEdit_ok_iff hrow).mpr hfit
  refine ⟨db', hupdate.trans hsave, ?_, (saveEdit_ok hsave).2⟩
  rw [saveEdit_row hrow hsave, hzone]
  rfl

include hev hrow in
/-- A delivery of a new event that fits commits. -/
theorem handle_commits (hnew : isProcessed db.processed c.event.eventId = false)
    (hfit : columnsFit (some row) (c.handle (rulesOf db.rules zoneId) row) = true) :
    ∃ db', handleOccupancyUpdated db c.event c.eventClock = .ok db' ∧
      db'.row zoneId = some (c.handle (rulesOf db.rules zoneId) row) := by
  obtain ⟨zone, hhandle, rfl, rfl⟩ : ∃ zone, handleOccupancyUpdated db c.event c.eventClock =
    saveOccupancy db c.event zone (rulesOf db.rules zoneId) c.eventClock ∧ zone.id = zoneId ∧
      zone.row = row := handleOccupancyUpdated_eq hev hrow hnew
  obtain ⟨db', hsave⟩ : ∃ db', saveOccupancy db c.event zone (rulesOf db.rules zone.id)
    c.eventClock = .ok db' := (saveOccupancy_ok_iff hrow).mpr ⟨hfit, hnew⟩
  exact ⟨db', hhandle.trans hsave, saveOccupancy_row hrow hsave⟩

include hid hev hrow

theorem editFirst_row (h : c.Admitted db zoneId row) : (c.editFirst db).bind (·.row zoneId) =
    some (c.handle (rulesOf db.rules zoneId) (c.edit row)) := by
  obtain ⟨db₁, hupdate, hrow₁, hrules, hprocessed⟩ := updateZone_commits hid hrow h.edit_fits
  have hnew : isProcessed db₁.processed c.event.eventId = false := by
    rw [hprocessed]
    exact h.unprocessed
  have hfit : columnsFit (some (c.edit row))
      (c.handle (rulesOf db₁.rules zoneId) (c.edit row)) = true := by
    rw [hrules]
    exact Race.handle_fits_of row row rfl h.handle_fits
  obtain ⟨db₂, hhandle, hrow₂⟩ := handle_commits hev hrow₁ hnew hfit
  rw [hrules] at hrow₂
  simp [Race.editFirst, hupdate, hhandle, Except.toOption, hrow₂]

theorem eventFirst_row (h : c.Admitted db zoneId row) : (c.eventFirst db).bind (·.row zoneId) =
    some (c.edit (c.handle (rulesOf db.rules zoneId) row)) := by
  obtain ⟨db₁, hhandle, hrow₁⟩ := handle_commits hev hrow h.unprocessed h.handle_fits
  have hfit : columnsFit (some (c.handle (rulesOf db.rules zoneId) row))
      (c.edit (c.handle (rulesOf db.rules zoneId) row)) = true :=
    Race.edit_fits_of row row rfl rfl rfl rfl h.edit_fits
  obtain ⟨db₂, hupdate, hrow₂, -, -⟩ := updateZone_commits hid hrow₁ hfit
  simp [Race.eventFirst, hupdate, hhandle, Except.toOption, hrow₂]

end

/-! ## Serial rows -/

/-- The row of the zone is that of a serial order. -/
def Race.Serial (c : Race) (db final : ZoneDb) (zoneId : Uuid) : Prop :=
  final.row zoneId = (c.editFirst db).bind (·.row zoneId) ∨
    final.row zoneId = (c.eventFirst db).bind (·.row zoneId)

/-- One of the two saves before the other reads. -/
def Apart (schedule : List Step) : Prop :=
  schedule.idxOf .saveEdit < schedule.idxOf .read ∨ schedule.idxOf .save < schedule.idxOf .edit

instance (schedule : List Step) : Decidable (Apart schedule) :=
  inferInstanceAs (Decidable (_ ∨ _))

/-- The edit can be lost with no harm : it keeps the name and the capacity, and neither
closes nor reopens the zone. -/
def Race.EditIdle (c : Race) (row : ZoneRow) : Prop :=
  (c.edit row).name = row.name ∧ (c.edit row).capacity = row.capacity ∧
    ((c.edit row).status = .closed ↔ row.status = .closed)

/-- The event can be lost with no harm : its occupancy is the stored one, and the edit sets
the status, or it is the one the delivery gives at the stored or at the edited capacity. -/
def Race.EventIdle (c : Race) (rules : Option ZoneRuleEntity) (row : ZoneRow) : Prop :=
  max 0 (occupancyOf c.event) = row.currentOccupancy ∧
    (c.dto.status.isSome ∨
      nextStatus rules row.currentOccupancy row.capacity row.status = row.status ∨
      nextStatus rules row.currentOccupancy (c.edit row).capacity row.status = row.status)

/-- The two are apart, or the one that saves last loses nothing of the other. -/
def Race.Undisturbed (c : Race) (rules : Option ZoneRuleEntity) (row : ZoneRow)
    (schedule : List Step) : Prop :=
  Apart schedule ∨
    (schedule.idxOf .saveEdit < schedule.idxOf .save ∧ c.EditIdle row) ∨
    (schedule.idxOf .save < schedule.idxOf .saveEdit ∧ c.EventIdle rules row)

theorem nextStatus_eq_closed_iff {rules : Option ZoneRuleEntity} {occupancy capacity : ℤ}
    {status : ZoneStatus} :
    nextStatus rules occupancy capacity status = .closed ↔ status = .closed := by
  unfold nextStatus
  split_ifs with hclosed <;> simp_all

/-- The status depends on the old one only through whether the zone is closed. -/
theorem nextStatus_eq_iff {rules : Option ZoneRuleEntity} {occupancy capacity : ℤ}
    {status status' : ZoneStatus} :
    nextStatus rules occupancy capacity status' = nextStatus rules occupancy capacity status ↔
      (status' = .closed ↔ status = .closed) := by
  constructor
  · intro h
    rw [← nextStatus_eq_closed_iff, h, nextStatus_eq_closed_iff]
  · intro h
    by_cases hclosed : status = .closed
    · rw [hclosed, h.mpr hclosed]
    · have hclosed' : ¬status' = .closed := fun h' => hclosed (h.mp h')
      unfold nextStatus
      rw [if_neg hclosed, if_neg hclosed']
      split_ifs <;> cases status <;> cases status' <;> simp_all

theorem Race.edit_status_of_none {c : Race} (h : c.dto.status = none) (row : ZoneRow) :
    (c.edit row).status = row.status := by
  simp [Race.edit, ZoneRow.assign, h]

theorem Race.edit_status_of_some {c : Race} {status : ZoneStatus} (h : c.dto.status = some status)
    (row : ZoneRow) : (c.edit row).status = status := by
  simp [Race.edit, ZoneRow.assign, h]

/-- The edit is lost with no harm just when the row without it is that of a serial order. -/
theorem Race.editIdle_iff (c : Race) (rules : Option ZoneRuleEntity) (row : ZoneRow) :
    c.handle rules row = c.handle rules (c.edit row) ∨
      c.handle rules row = c.edit (c.handle rules row) ↔ c.EditIdle row := by
  constructor
  · rintro (h | h)
    · obtain ⟨hname, hcapacity, hstatus, -⟩ := ZoneRow.mk.inj h
      rw [← hcapacity, eq_comm, nextStatus_eq_iff] at hstatus
      exact ⟨hname.symm, hcapacity.symm, hstatus⟩
    · obtain ⟨hname, hcapacity, hstatus, -⟩ := ZoneRow.mk.inj h
      refine ⟨hname.symm, hcapacity.symm, ?_⟩
      cases hset : c.dto.status with
      | none => rw [Race.edit_status_of_none hset]
      | some status =>
        have hlast : nextStatus rules (max 0 (occupancyOf c.event)) row.capacity row.status =
            (c.edit (c.handle rules row)).status := hstatus
        rw [Race.edit_status_of_some hset] at hlast
        rw [Race.edit_status_of_some hset, ← hlast]
        exact nextStatus_eq_closed_iff
  · rintro ⟨hname, hcapacity, hclosed⟩
    left
    simp only [Race.handle, ZoneRow.applyOccupancy, hname, hcapacity, nextStatus_eq_iff.mpr hclosed]

/-- The event is lost with no harm just when the row without it is that of a serial order. -/
theorem Race.eventIdle_iff (c : Race) (rules : Option ZoneRuleEntity) (row : ZoneRow) :
    c.edit row = c.handle rules (c.edit row) ∨ c.edit row = c.edit (c.handle rules row) ↔
      c.EventIdle rules row := by
  constructor
  · rintro (h | h)
    · obtain ⟨-, -, hstatus, hocc⟩ : _ ∧ _ ∧ (c.edit row).status = nextStatus rules
        (max 0 (occupancyOf c.event)) (c.edit row).capacity (c.edit row).status ∧
          row.currentOccupancy = max 0 (occupancyOf c.event) := ZoneRow.mk.inj h
      refine ⟨hocc.symm, ?_⟩
      cases hset : c.dto.status with
      | none =>
        rw [Race.edit_status_of_none hset, ← hocc] at hstatus
        exact Or.inr (Or.inr hstatus.symm)
      | some status => exact Or.inl rfl
    · obtain ⟨-, -, hstatus, hocc⟩ : _ ∧ _ ∧ (c.edit row).status =
        (c.edit (c.handle rules row)).status ∧ row.currentOccupancy =
          max 0 (occupancyOf c.event) := ZoneRow.mk.inj h
      refine ⟨hocc.symm, ?_⟩
      cases hset : c.dto.status with
      | none =>
        rw [Race.edit_status_of_none hset, Race.edit_status_of_none hset] at hstatus
        refine Or.inr (Or.inl ?_)
        rw [hocc]
        exact hstatus.symm
      | some status => exact Or.inl rfl
  · rintro ⟨hocc, hharmless⟩
    cases hset : c.dto.status with
    | some status =>
      right
      simp only [Race.edit, Race.handle, ZoneRow.assign, ZoneRow.applyOccupancy, hset, hocc,
        Option.getD_some]
    | none =>
      rw [hset] at hharmless
      rcases hharmless with h | h | h
      · simp at h
      · right
        simp only [Race.edit, Race.handle, ZoneRow.assign, ZoneRow.applyOccupancy, hset, hocc,
          Option.getD_none, h]
      · left
        refine (ZoneRow.mk.injEq ..).mpr ⟨rfl, rfl, ?_, hocc.symm⟩
        change (c.edit row).status = nextStatus rules _ _ (c.edit row).status
        rw [Race.edit_status_of_none hset, hocc]
        exact h.symm

/-! ## Every schedule -/

theorem Race.run_cons (c : Race) (s : System) (a : Step) (schedule : List Step) :
    c.run s (a :: schedule) = c.run (Shared.step act s (c.action a)) schedule :=
  rfl

/-- The lookup can come after the edit's read. -/
theorem Race.run_lookup_edit (c : Race) (s : System) (schedule : List Step) :
    c.run s (.lookup :: .edit :: schedule) = c.run s (.edit :: .lookup :: schedule) :=
  congrArg (c.run · schedule) (step_lookup_edit s)

/-- The lookup can come after the edit's save. -/
theorem Race.run_lookup_saveEdit (c : Race) (s : System) (schedule : List Step) :
    c.run s (.lookup :: .saveEdit :: schedule) = c.run s (.saveEdit :: .lookup :: schedule) :=
  congrArg (c.run · schedule) (step_lookup_saveEdit s)

/-- The delivery's read can come after the edit's. -/
theorem Race.run_read_edit (c : Race) (s : System) (schedule : List Step) :
    c.run s (.read :: .edit :: schedule) = c.run s (.edit :: .read :: schedule) :=
  congrArg (c.run · schedule) (step_edit_read s).symm

/-- Every schedule ends like one of four : the two serial ones, and the two in which both
read before either saves. -/
theorem run_schedule (c : Race) (s : System) {schedule : List Step}
    (h : schedule ∈ schedules) :
    (schedule.idxOf .saveEdit < schedule.idxOf .read ∧
      c.run s schedule = c.run s [.edit, .saveEdit, .lookup, .read, .save]) ∨
    (schedule.idxOf .save < schedule.idxOf .edit ∧
      c.run s schedule = c.run s [.lookup, .read, .save, .edit, .saveEdit]) ∨
    (¬Apart schedule ∧ schedule.idxOf .saveEdit < schedule.idxOf .save ∧
      c.run s schedule = c.run s [.edit, .lookup, .read, .saveEdit, .save]) ∨
    (¬Apart schedule ∧ schedule.idxOf .save < schedule.idxOf .saveEdit ∧
      c.run s schedule = c.run s [.edit, .lookup, .read, .save, .saveEdit]) := by
  simp only [schedules, interleavings, interleaveCons, List.map_cons, List.map_nil,
    List.cons_append, List.nil_append, List.mem_cons, List.not_mem_nil, or_false] at h
  rcases h with rfl | rfl | rfl | rfl | rfl | rfl | rfl | rfl | rfl | rfl
  · exact Or.inl ⟨by decide, rfl⟩
  · refine Or.inl ⟨by decide, ?_⟩
    rw [c.run_cons, c.run_lookup_saveEdit]
    rfl
  · exact Or.inr (Or.inr (Or.inl ⟨by decide, by decide, rfl⟩))
  · exact Or.inr (Or.inr (Or.inr ⟨by decide, by decide, rfl⟩))
  · refine Or.inl ⟨by decide, ?_⟩
    rw [c.run_lookup_edit, c.run_cons, c.run_lookup_saveEdit]
    rfl
  · exact Or.inr (Or.inr (Or.inl ⟨by decide, by decide, c.run_lookup_edit s _⟩))
  · exact Or.inr (Or.inr (Or.inr ⟨by decide, by decide, c.run_lookup_edit s _⟩))
  · refine Or.inr (Or.inr (Or.inl ⟨by decide, by decide, ?_⟩))
    rw [c.run_cons, c.run_read_edit, ← c.run_cons, c.run_lookup_edit]
  · refine Or.inr (Or.inr (Or.inr ⟨by decide, by decide, ?_⟩))
    rw [c.run_cons, c.run_read_edit, ← c.run_cons, c.run_lookup_edit]
  · exact Or.inr (Or.inl ⟨by decide, rfl⟩)

/-- The row of the zone after an edit and an event that both commit is that of a serial
order exactly when they are undisturbed. -/
theorem serial_iff_undisturbed {c : Race} {s : System} {zoneId : Uuid} {row : ZoneRow}
    {schedule : List Step} (hid : uuidIn c.id = some zoneId)
    (hev : uuidIn (zoneIdOf c.event) = some zoneId) (hrow : s.db.row zoneId = some row)
    (hidle : ∀ p, s.requests p = .idle) (hschedule : schedule ∈ schedules)
    (hedit : (c.run s schedule).requests 0 = .committed)
    (hevent : (c.run s schedule).requests 1 = .committed) :
    c.Serial s.db (c.run s schedule).db zoneId ↔
      c.Undisturbed (rulesOf s.db.rules zoneId) row schedule := by
  rcases run_schedule c s hschedule with ⟨horder, hrun⟩ | ⟨horder, hrun⟩ |
    ⟨hoverlap, horder, hrun⟩ | ⟨hoverlap, horder, hrun⟩
  all_goals rw [hrun] at hedit hevent ⊢
  · obtain ⟨hadm, hfinal⟩ := run_edit_event hid hev hrow hidle hedit hevent
    refine ⟨fun _ => Or.inl (Or.inl horder), fun _ => Or.inl ?_⟩
    rw [hfinal, editFirst_row hid hev hrow hadm]
  · obtain ⟨hadm, hfinal⟩ := run_event_edit hid hev hrow hidle hedit hevent
    refine ⟨fun _ => Or.inl (Or.inr horder), fun _ => Or.inr ?_⟩
    rw [hfinal, eventFirst_row hid hev hrow hadm]
  · obtain ⟨hadm, hfinal⟩ := run_edit_lost hid hev hrow hidle hedit hevent
    rw [Race.Serial, hfinal, editFirst_row hid hev hrow hadm, eventFirst_row hid hev hrow hadm,
      Option.some_inj, Option.some_inj, c.editIdle_iff]
    refine ⟨fun h => Or.inr (Or.inl ⟨horder, h⟩), ?_⟩
    rintro (h | ⟨-, h⟩ | ⟨h, -⟩)
    · exact absurd h hoverlap
    · exact h
    · exact absurd h horder.asymm
  · obtain ⟨hadm, hfinal⟩ := run_event_lost hid hev hrow hidle hedit hevent
    rw [Race.Serial, hfinal, editFirst_row hid hev hrow hadm, eventFirst_row hid hev hrow hadm,
      Option.some_inj, Option.some_inj, c.eventIdle_iff]
    refine ⟨fun h => Or.inr (Or.inr ⟨horder, h⟩), ?_⟩
    rintro (h | ⟨h, -⟩ | ⟨-, h⟩)
    · exact absurd h hoverlap
    · exact absurd h horder.asymm
    · exact h

/-- An admin closes an open zone of capacity 10 while an event with occupancy 5 is in
flight; the delivery read the zone before the close and saves it after. -/
def reopened : Race where
  id := uuidOne
  dto := ⟨none, none, some .closed, by simp, by simp⟩
  actorId := "system"
  editClock := ⟨1, 1⟩
  event := ⟨7, .occupancyUpdated, 1, 0, "monitoring-event-ingestion-service", 6,
    uuidOne,
    ⟨some uuidOne, some 5, none, none, none, none⟩⟩
  eventClock := ⟨2, 2⟩

/-- The open zone. -/
def openZone : System where
  db := ⟨[⟨1, "Zone", .diningZone, .open, 10, 0, 0, 0⟩], [], [], [], 8⟩
  requests _ := .idle

/-- The delivery reads before the edit saves, and saves last. -/
def eventLast : List Step :=
  [.edit, .lookup, .read, .saveEdit, .save]

theorem reopened_committed : (reopened.run openZone eventLast).requests 0 = .committed ∧
    (reopened.run openZone eventLast).requests 1 = .committed :=
  ⟨rfl, rfl⟩

/-- Both serial orders leave the zone closed, and it is open. -/
theorem reopened_row : ¬reopened.Serial openZone.db (reopened.run openZone eventLast).db 1 := by
  rintro (h | h)
  · exact absurd h (by decide)
  · exact absurd h (by decide)

/-- Both commit, and the close is undone. -/
theorem reopened_not_serial : eventLast ∈ schedules ∧
    (reopened.run openZone eventLast).requests 0 = .committed ∧
    (reopened.run openZone eventLast).requests 1 = .committed ∧
    ¬reopened.Serial openZone.db (reopened.run openZone eventLast).db 1 :=
  ⟨by decide, reopened_committed.1, reopened_committed.2, reopened_row⟩

/-- So the two disturbed each other. -/
theorem reopened_not_undisturbed : ¬reopened.Undisturbed (rulesOf openZone.db.rules 1)
    ⟨"Zone", 10, .open, 0⟩ eventLast := fun h =>
  reopened_row ((serial_iff_undisturbed (by decide) (by decide) rfl (fun _ => rfl) (by decide)
    reopened_committed.1 reopened_committed.2).mpr h)

end Qoms.ZoneService
