import Qoms.Reservation
import Qoms.Shared

/-!
# Concurrent reservation requests

`createReservation` runs its conflict query and its insert transaction as two database
steps, and `cancelReservation` its read and its transaction. Here any number of requests
take these steps in any order (`act`, `System`); a statement sees the rows committed
before it, and the table has no constraint but its primary key.

Two requests for the same seat and start can both run their query before either inserts
(`bothChecked`). `uniqueActive_iff_noneSince` says exactly which runs keep the active
reservations of each zone, seat and start unique : those in which, whenever a request
inserts, no reservation of its seat and start that was inserted after its query is still
active. `run_create` ties the two levels : the two steps with nothing between them are
`createReservation`.
-/

set_option autoImplicit false

namespace Qoms.ReservationService

/-! ## Requests in flight -/

/-- Where a request stands. A request that passed its conflict query keeps the table the
query saw, which no step reads. -/
inductive Request
  | idle
  | checked (slot : Slot) (seen : List ReservationEntity)
  | cancelling (reservation : ReservationEntity)
  | finished

/-- The tables and the requests. -/
abbrev System := Shared ReservationDb Request

/-- Empty tables and no request in flight. -/
def init : System :=
  ⟨.empty, fun _ => .idle⟩

/-- One step of a request : a query, a transaction that commits, or one that rolls back. -/
inductive Action
  | create (dto : CreateReservationDto) (user : Option RequestUserContext) (env : CreateEnv)
  | insert (clock : Clock)
  | cancel (id : Uuid) (user : Option RequestUserContext)
  | save (clock : Clock)
  | abort

/-- What a step does; a step that is not the request's next one does nothing. -/
def act : Action → ReservationDb → Request → ReservationDb × Request
  | .create dto user env, db, .idle =>
    match checkRequest dto user env with
    | .error _ => (db, .finished)
    | .ok slot =>
      match findConflict slot db.reservations with
      | some _ => (db, .finished)
      | none => (db, .checked slot db.reservations)
  | .insert clock, db, .checked slot _ => ((insertReservation db slot clock).2, .finished)
  | .cancel id user, db, .idle =>
    match findActive db.reservations id user with
    | .error _ => (db, .finished)
    | .ok reservation => (db, .cancelling reservation)
  | .save clock, db, .cancelling reservation =>
    (saveCancelled db reservation clock, .finished)
  | .abort, db, .checked _ _ => (db, .finished)
  | .abort, db, .cancelling _ => (db, .finished)
  | _, db, request => (db, request)

/-- The step is the request's next one. -/
def Enabled : Action → Request → Prop
  | .create _ _ _, .idle => True
  | .insert _, .checked _ _ => True
  | .cancel _ _, .idle => True
  | .save _, .cancelling _ => True
  | .abort, .checked _ _ => True
  | .abort, .cancelling _ => True
  | _, _ => False

/-- What a step can do. -/
inductive Moves (db : ReservationDb) : Action → Request → ReservationDb → Request → Prop
  | stay {a : Action} {r : Request} (hnot : ¬Enabled a r) : Moves db a r db r
  | refuse (a : Action) : Moves db a .idle db .finished
  | abort (r : Request) : Moves db .abort r db .finished
  | checked {dto : CreateReservationDto} {user : Option RequestUserContext} {env : CreateEnv}
      {slot : Slot} (hslot : checkRequest dto user env = .ok slot)
      (hfree : findConflict slot db.reservations = none) :
      Moves db (.create dto user env) .idle db (.checked slot db.reservations)
  | insert (clock : Clock) (slot : Slot) (seen : List ReservationEntity) :
      Moves db (.insert clock) (.checked slot seen) (insertReservation db slot clock).2 .finished
  | cancelling {id : Uuid} {user : Option RequestUserContext} {reservation : ReservationEntity}
      (hfind : findActive db.reservations id user = .ok reservation) :
      Moves db (.cancel id user) .idle db (.cancelling reservation)
  | save (clock : Clock) (reservation : ReservationEntity) :
      Moves db (.save clock) (.cancelling reservation) (saveCancelled db reservation clock)
        .finished

theorem act_moves (a : Action) (db : ReservationDb) (r : Request) :
    Moves db a r (act a db r).1 (act a db r).2 := by
  unfold act
  split
  · split
    · exact .refuse _
    · rename_i hslot
      split
      · exact .refuse _
      · rename_i hfree
        exact .checked hslot hfree
  · exact .insert _ _ _
  · split
    · exact .refuse _
    · rename_i hfind
      exact .cancelling hfind
  · exact .save _ _
  · exact .abort _
  · exact .abort _
  · refine .stay ?_
    cases a <;> cases r <;> simp_all [Enabled]

/-! ## The invariant -/

/-- `b` is a later version of the row `a` : the same booking, and not active again. -/
def Ages (a b : ReservationEntity) : Prop :=
  a.id = b.id ∧ a.zoneId = b.zoneId ∧ a.seatNumber = b.seatNumber ∧ a.slotStart = b.slotStart ∧
    (b.status = .active → a.status = .active)

theorem Ages.refl (a : ReservationEntity) : Ages a a :=
  ⟨rfl, rfl, rfl, rfl, id⟩

theorem Ages.trans (a b c : ReservationEntity) (hab : Ages a b) (hbc : Ages b c) : Ages a c := by
  obtain ⟨hid, hz, hn, ht, hs⟩ := hab
  obtain ⟨hid', hz', hn', ht', hs'⟩ := hbc
  exact ⟨hid.trans hid', hz.trans hz', hn.trans hn', ht.trans ht', fun h => hs (hs' h)⟩

/-- Cancelling ages the reservation. -/
theorem Ages.cancelled (a : ReservationEntity) (now : ℤ) : Ages a (a.cancel now) :=
  ⟨rfl, rfl, rfl, rfl, fun h => absurd h (by simp [ReservationEntity.cancel])⟩

/-- A cancelled version of a row is a version of each of its versions. -/
theorem Ages.cancel {mem : ReservationEntity} {now : ℤ} (a b : ReservationEntity)
    (hab : Ages a b) (hmem : Ages a (mem.cancel now)) : Ages b (mem.cancel now) := by
  obtain ⟨hid, hz, hn, ht, -⟩ := hab
  obtain ⟨hid', hz', hn', ht', -⟩ := hmem
  exact ⟨hid.symm.trans hid', hz.symm.trans hz', hn.symm.trans hn', ht.symm.trans ht',
    fun h => absurd h (by simp [ReservationEntity.cancel])⟩

/-- The tables of `db'` grew from those of `db`. -/
def ReservationDb.Grows (db db' : ReservationDb) : Prop :=
  Qoms.Grows (·.id) Ages db.reservations db.uuids db'.reservations db'.uuids

/-- What a request relies on : its query found nothing in a table that the present one
grew from, or the entity it cancels is a version of its row. -/
def Request.Sound (db : ReservationDb) : Request → Prop
  | .checked slot seen => Later Ages seen db.reservations ∧ findConflict slot seen = none
  | .cancelling mem =>
    ∀ now, Holds (·.id) Ages (mem.cancel now) db.reservations db.uuids
  | _ => True

theorem Request.Sound.grows {db db' : ReservationDb} {r : Request} (h : r.Sound db)
    (hgrows : db.Grows db') : r.Sound db' := by
  cases r with
  | checked slot seen => exact ⟨h.1.trans Ages.trans hgrows.later, h.2⟩
  | cancelling mem => exact fun now => (h now).grows (fun _ _ hab => hab.1) Ages.cancel hgrows
  | _ => trivial

/-- Row ids are distinct and drawn. -/
def ReservationDb.Keyed (db : ReservationDb) : Prop :=
  Qoms.Keyed (·.id) db.reservations db.uuids

theorem safe_init : init.Safe ReservationDb.Keyed fun db r => r.Sound db :=
  ⟨Keyed.nil, fun _ => trivial⟩

/-- A step keeps the tables keyed, only lets them grow, and leaves its request sound. -/
theorem Moves.guarantees {db db' : ReservationDb} {a : Action} {r r' : Request}
    (h : Moves db a r db' r') (hkeyed : db.Keyed) (hsound : r.Sound db) :
    Shared.Guarantees ReservationDb.Keyed (fun db r => r.Sound db) ReservationDb.Grows db
      (db', r') := by
  cases h with
  | stay => exact ⟨hkeyed, Grows.refl Ages.refl _ _, hsound⟩
  | refuse => exact ⟨hkeyed, Grows.refl Ages.refl _ _, trivial⟩
  | abort => exact ⟨hkeyed, Grows.refl Ages.refl _ _, trivial⟩
  | checked hslot hfree =>
    exact ⟨hkeyed, Grows.refl Ages.refl _ _, Later.refl Ages.refl _, hfree⟩
  | insert clock slot seen =>
    obtain ⟨hle, hlt⟩ := row_drawn db slot clock
    exact ⟨hkeyed.insert hle hlt, Grows.insert Ages.refl hle hlt, trivial⟩
  | cancelling hfind =>
    exact ⟨hkeyed, Grows.refl Ages.refl _ _, fun now =>
      Holds.of_mem hkeyed (findActive_ok hfind).1 rfl (Ages.cancelled _ now)⟩
  | save clock reservation =>
    have hholds := hsound clock.now
    have hle : db.uuids ≤ (saveCancelled db reservation clock).uuids := Nat.le_add_right _ 3
    exact ⟨hkeyed.saveRow hholds.drawn hle, Grows.saveRow Ages.refl hholds hle, trivial⟩

/-! ## One reservation for a seat and a start -/

/-- An active reservation of the zone, the seat and the start. -/
def activeAt (zoneId : Uuid) (seatNumber slotStart : ℤ) (r : ReservationEntity) : Bool :=
  r.status == .active && r.zoneId == zoneId && r.seatNumber == seatNumber &&
    r.slotStart == slotStart

/-- At most one active reservation for each zone, seat and start. -/
def UniqueActive (rows : List ReservationEntity) : Prop :=
  ∀ zoneId seatNumber slotStart, rows.countP (activeAt zoneId seatNumber slotStart) ≤ 1

/-- If the step is an insert, no reservation of its zone, seat and start that was inserted
after the request's conflict query is active. -/
def NoneSince : Action → ReservationDb → Request → Prop
  | .insert _, db, .checked slot seen => ∀ r ∈ db.reservations.drop seen.length,
    activeAt slot.zoneId slot.seatNumber slot.slotStart r = false
  | _, _, _ => True

theorem activeAt_of_ages {zoneId : Uuid} {seatNumber slotStart : ℤ} (a b : ReservationEntity)
    (h : Ages a b) (hb : activeAt zoneId seatNumber slotStart b = true) :
    activeAt zoneId seatNumber slotStart a = true := by
  obtain ⟨-, hz, hn, ht, hs⟩ := h
  simp only [activeAt, Bool.and_eq_true, beq_iff_eq] at hb ⊢
  rw [hz, hn, ht]
  exact ⟨⟨⟨hs hb.1.1.1, hb.1.1.2⟩, hb.1.2⟩, hb.2⟩

/-- A conflict query that finds nothing saw no active reservation at the slot's start. -/
theorem countP_activeAt_eq_zero {slot : Slot} {rows : List ReservationEntity}
    (h : findConflict slot rows = none) :
    rows.countP (activeAt slot.zoneId slot.seatNumber slot.slotStart) = 0 := by
  rw [List.countP_eq_zero]
  intro r hr hactive
  have hno := List.find?_eq_none.mp h r hr
  simp only [activeAt, Bool.and_eq_true, beq_iff_eq] at hactive
  obtain ⟨⟨⟨hs, hz⟩, hn⟩, ht⟩ := hactive
  exact hno (by simp [conflicts, hs, hz, hn, ht, Int.le_of_lt slot.start_lt_end])

theorem noneSince_of_not_enabled {a : Action} {db : ReservationDb} {r : Request}
    (h : ¬Enabled a r) : NoneSince a db r := by
  cases a <;> cases r <;> first | trivial | exact absurd trivial h

theorem uniqueActive_insert_iff {rows : List ReservationEntity} (h : UniqueActive rows)
    (slot : Slot) (id : Uuid) (clock : Clock) : UniqueActive (rows ++ [slot.row id clock]) ↔
      rows.countP (activeAt slot.zoneId slot.seatNumber slot.slotStart) = 0 := by
  have hself : activeAt slot.zoneId slot.seatNumber slot.slotStart (slot.row id clock) = true := by
    simp [activeAt, Slot.row]
  constructor
  · intro hnew
    have := hnew slot.zoneId slot.seatNumber slot.slotStart
    rw [List.countP_append, List.countP_singleton, if_pos hself] at this
    omega
  · intro hzero zoneId seatNumber slotStart
    have hle := h zoneId seatNumber slotStart
    rw [List.countP_append, List.countP_singleton]
    split_ifs with hkey
    · simp only [activeAt, Slot.row, Bool.and_eq_true, beq_iff_eq] at hkey
      obtain ⟨⟨⟨-, rfl⟩, rfl⟩, rfl⟩ := hkey
      omega
    · omega

/-- One step keeps active reservations unique just when it meets the condition. -/
theorem uniqueActive_act_iff {db : ReservationDb} (a : Action) {r : Request}
    (hsound : r.Sound db) (h : UniqueActive db.reservations) :
    UniqueActive (act a db r).1.reservations ↔ NoneSince a db r := by
  have hmoves := act_moves a db r
  generalize (act a db r).1 = db' at hmoves ⊢
  generalize (act a db r).2 = r' at hmoves
  cases hmoves with
  | stay hnot => exact ⟨fun _ => noneSince_of_not_enabled hnot, fun _ => h⟩
  | refuse => exact ⟨fun _ => by cases a <;> trivial, fun _ => h⟩
  | abort => exact ⟨fun _ => trivial, fun _ => h⟩
  | checked => exact ⟨fun _ => trivial, fun _ => h⟩
  | cancelling => exact ⟨fun _ => trivial, fun _ => h⟩
  | insert clock slot seen =>
    obtain ⟨hlater, hfree⟩ := hsound
    rw [insertReservation_reservations, uniqueActive_insert_iff h,
      hlater.countP_eq_zero_iff activeAt_of_ages (countP_activeAt_eq_zero hfree)]
    rfl
  | save clock reservation =>
    rw [saveCancelled_reservations]
    exact ⟨fun _ => trivial, fun _ zoneId seatNumber slotStart =>
      (countP_saveRow_le activeAt_of_ages (hsound clock.now)).trans
        (h zoneId seatNumber slotStart)⟩

/-! ## Runs -/

/-- Throughout a run of concurrent requests there is at most one active reservation for
each zone, seat and start, exactly when at each insert of the run no reservation of its
zone, seat and start inserted since its conflict query is active. -/
theorem uniqueActive_iff_noneSince (as : List (ℕ × Action)) :
    Throughout (Shared.step act) init as (fun s => UniqueActive s.db.reservations) ↔
      EachStep (Shared.step act) init as fun s pa => NoneSince pa.2 s.db (s.requests pa.1) :=
  Shared.throughout_iff_eachStep (fun _ => True) ReservationDb.Grows
    (fun db => UniqueActive db.reservations) NoneSince
    (fun a db r _ hkeyed hsound => (act_moves a db r).guarantees hkeyed hsound)
    (fun _ _ _ hgrows hsound => hsound.grows hgrows)
    (fun a _ _ _ hsound h => uniqueActive_act_iff a hsound h)
    safe_init (by simp [UniqueActive, init, ReservationDb.empty])
    fun _ _ => trivial

/-- Two students book seat 2 of `hourZone` for the same hour; both queries run before the
first insert. -/
def bothChecked : List (ℕ × Action) :=
  let dto : CreateReservationDto := ⟨1, some 3600000, 2⟩
  [(0, .create dto (some ⟨1, .student⟩) ⟨true, some hourZone, 0⟩),
    (1, .create dto (some ⟨2, .student⟩) ⟨true, some hourZone, 0⟩),
    (0, .insert ⟨1, 1⟩), (1, .insert ⟨2, 2⟩)]

/-- Both bookings are active. -/
theorem bothChecked_not_unique :
    ¬UniqueActive (run (Shared.step act) init bothChecked).db.reservations := by
  intro h
  exact absurd (h 1 2 3600000) (by decide)

/-- A request for seat 2 of the zone 1 from one o'clock. -/
def seatTwo : CreateReservationDto :=
  ⟨1, some 3600000, 2⟩

/-! ## One request alone -/

/-- The two steps of a creation with nothing between them are `createReservation`. -/
theorem run_create (s : System) (p : ℕ) (hp : s.requests p = .idle) (dto : CreateReservationDto)
    (user : Option RequestUserContext) (env : CreateEnv) (clock : Clock) :
    (run (Shared.step act) s [(p, .create dto user env), (p, .insert clock)]).db =
      (createReservation s.db dto user env clock).2 := by
  simp only [run_cons, run_nil, Shared.step_db, Shared.step_requests_self, hp, createReservation,
    act]
  cases checkRequest dto user env with
  | error e => rfl
  | ok slot =>
    cases hconflict : findConflict slot s.db.reservations with
    | some r => simp [hconflict]
    | none => simp [hconflict]

/-- The two steps of a cancellation with nothing between them are `cancelReservation`. -/
theorem run_cancel (s : System) (p : ℕ) (hp : s.requests p = .idle) (id : Uuid)
    (user : Option RequestUserContext) (clock : Clock) :
    (run (Shared.step act) s [(p, .cancel id user), (p, .save clock)]).db =
      (cancelReservation s.db id user clock).2 := by
  simp only [run_cons, run_nil, Shared.step_db, Shared.step_requests_self, hp, cancelReservation,
    act]
  cases findActive s.db.reservations id user with
  | error e => rfl
  | ok r => rfl

end Qoms.ReservationService
