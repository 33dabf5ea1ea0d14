import Qoms.QueueRace
import Qoms.ReservationRace

/-!
# Whose entries and reservations

In any interleaving of requests, every queue entry and every reservation comes from a request
of its own user that passed all checks, and its place was free at the moment of its query. Who
may end it differs : an entry is left by its own user only, a reservation is cancelled by its
user or by a system admin, and both were active when that request read them.

A row is only ever written as it was inserted or as it was read, ended. So it is enough that
what requests hold comes from such requests (`Shared.Safe`); nothing is needed of the others. The
request that wrote a row is the one that was let through, or found it, before
(`Shared.Completes`).
-/

set_option autoImplicit false

namespace Qoms

/-! ## Queue entries -/

namespace QueueService

variable (all : List (ℕ × Action))

/-- A new request to join passes the checks, and the zone has a place. -/
def Admits (join : Join) : Action → QueueDb → Request → Prop
  | .join zoneId user env, db, .idle =>
    (∃ u ∈ user, u.userId = join.userId) ∧ checkJoin zoneId user env = .ok join ∧
      ∃ count, checkCapacity db.entries join = .ok count
  | _, _, _ => False

/-- The request that joins commits the entry. -/
def Inserts (join : Join) (entry : QueueEntryEntity) : Action → QueueDb → Request → Prop
  | .commit now, db, .begun begun count _ _ joinedAt => begun = join ∧
    { entry with status := .active, leftAt := none } =
      (insertEntry db join count ⟨now, joinedAt⟩).1
  | _, _, _ => False

/-- A request of the run to join passed the checks, the zone had a place, and it committed the
entry. -/
def Admitted (join : Join) (entry : QueueEntryEntity) : Prop :=
  Shared.Completes act init all (Admits join) (Inserts join entry)

/-- A new request to leave, of the entry's user, finds the entry active. -/
def FindsLeaving (entry : QueueEntryEntity) : Action → QueueDb → Request → Prop
  | .leave zoneId user env hint, db, .idle =>
    zoneId = entry.zoneId ∧ (∃ u ∈ user, u.userId = entry.userId) ∧ ∃ found ∈ db.entries,
      findLeaving db.entries zoneId user env hint = .ok found ∧ found.id = entry.id ∧
        found.status = .active
  | _, _, _ => False

/-- The request saves the entry as it is, left. -/
def SavesLeft (entry : QueueEntryEntity) : Action → QueueDb → Request → Prop
  | .save clock, _, .ready found _ _ => entry = found.leave clock.now
  | _, _, _ => False

/-- A request of the run to leave, of the entry's user, found the entry active and saved it. -/
def LeftByUser (entry : QueueEntryEntity) : Prop :=
  Shared.Completes act init all (FindsLeaving entry) (SavesLeft entry)

/-- The entry joined, and left if it did, by requests of its own user. -/
structure OwnEntry (entry : QueueEntryEntity) : Prop where
  joined : ∃ join, Admitted all join entry ∧ join.zoneId = entry.zoneId ∧
    join.userId = entry.userId
  left : entry.status = .left → LeftByUser all entry
  leftAt : entry.leftAt.isSome = true ↔ entry.status = .left

/-- What a request that leaves holds was joined by its user. -/
def Request.Own : Request → Prop
  | .leaving entry | .ready entry _ _ => OwnEntry all entry
  | _ => True

/-- The request was let through to join. -/
def Request.Joins (join : Join) : Request → Prop
  | .counted held _ _ | .vacant held _ _ _ | .begun held _ _ _ _ => held = join
  | _ => False

/-- The request found the entry to leave. -/
def Request.Leaves (entry : QueueEntryEntity) : Request → Prop
  | .leaving held | .ready held _ _ => held = entry
  | _ => False

variable {all} {db db' : QueueDb} {a : Action} {r r' : Request} {p : ℕ}

theorem findLeaving_user {entries : List QueueEntryEntity} {zoneId hint : Uuid}
    {user : Option RequestUserContext} {env : RequestEnv} {entry : QueueEntryEntity}
    (h : findLeaving entries zoneId user env hint = .ok entry) :
    ∃ u ∈ user, u.userId = entry.userId := by
  unfold findLeaving at h
  cases user with
  | none => simp at h
  | some user =>
    cases hzone : env.zone with
    | none => simp [hzone] at h
    | some zone =>
      cases hfind : findActiveEntry entries zoneId user.userId hint with
      | none => simp [hzone, hfind] at h
      | some e =>
        obtain rfl : e = entry := by simpa [hzone, hfind] using h
        have hactive := (findOne_eq_some hfind).2
        simp only [activeFor, Bool.and_eq_true, beq_iff_eq] at hactive
        exact ⟨user, rfl, hactive.2.symm⟩

/-- A request that joins was let through. -/
theorem joins_act (join : Join) (a : Action) (db : QueueDb) (r : Request)
    (h : (act a db r).2.Joins join) : r.Joins join ∨ Admits join a db r := by
  have hmoves := act_moves a db r
  generalize (act a db r).1 = db', (act a db r).2 = r' at hmoves h
  cases hmoves with
  | @counted zoneId user env join' count hjoin hcount =>
    obtain rfl : join' = join := h
    obtain ⟨-, -, huser⟩ := checkJoin_ok hjoin
    obtain ⟨u, hu, huserId⟩ := Option.map_eq_some_iff.mp huser
    exact Or.inr ⟨⟨u, hu, huserId⟩, hjoin, count, hcount⟩
  | refuse | abort | existing | leaving | count | commit | save => exact absurd h id
  | stay | vacant | begin => exact Or.inl h

/-- A request that leaves found the entry, for its user. -/
theorem leaves_act (entry : QueueEntryEntity) (a : Action) (db : QueueDb) (r : Request)
    (h : (act a db r).2.Leaves entry) : r.Leaves entry ∨ FindsLeaving entry a db r := by
  have hmoves := act_moves a db r
  generalize (act a db r).1 = db', (act a db r).2 = r' at hmoves h
  cases hmoves with
  | @leaving zoneId user env hint found hfind =>
    obtain rfl : found = entry := h
    obtain ⟨hmem, hactive, hzone⟩ := findLeaving_ok hfind
    exact Or.inr ⟨hzone.symm, findLeaving_user hfind, found, hmem, hfind, rfl, hactive⟩
  | refuse | abort | existing | counted | vacant | begin | commit | save => exact absurd h id
  | stay | count => exact Or.inl h

/-- What a request inserts is an entry of its user. -/
theorem OwnEntry.insert {pre : List (ℕ × Action)} {now : ℤ} {join : Join} {count : ℕ}
    {countSeen lookupSeen : List QueueEntryEntity} {joinedAt : ℤ}
    (hpre : pre ++ [(p, .commit now)] <+: all)
    (hrequest : (run (Shared.step act) init pre).requests p =
      .begun join count countSeen lookupSeen joinedAt) :
    OwnEntry all
      (insertEntry (run (Shared.step act) init pre).db join count ⟨now, joinedAt⟩).1 where
  joined := by
    refine ⟨join, ?_, rfl, rfl⟩
    refine Shared.completes_of_holding (joins_act join) (fun _ => id) hpre ?_ ?_
    · rw [hrequest]
      exact rfl
    · rw [hrequest]
      exact ⟨rfl, rfl⟩
  left hleft := absurd hleft (by simp [insertEntry, Join.entry])
  leftAt := by simp [insertEntry, Join.entry]

/-- An entry that a request saves as left is left by its user. -/
theorem OwnEntry.leave {pre : List (ℕ × Action)} {clock : Clock} {entry : QueueEntryEntity}
    {nextCount : ℕ} {countSeen : List QueueEntryEntity} (h : OwnEntry all entry)
    (hpre : pre ++ [(p, .save clock)] <+: all)
    (hrequest : (run (Shared.step act) init pre).requests p = .ready entry nextCount countSeen) :
    OwnEntry all (entry.leave clock.now) where
  joined := h.joined
  left _ := by
    refine Shared.completes_of_holding (leaves_act entry) (fun _ => id) hpre ?_ ?_
    · rw [hrequest]
      exact rfl
    · rw [hrequest]
      exact rfl
  leftAt := by simp [QueueEntryEntity.leave]

/-- A step of the run leaves every entry with its user. -/
theorem Moves.own (h : Moves db a r db' r') {pre : List (ℕ × Action)}
    (hpre : pre ++ [(p, a)] <+: all) (hdb : (run (Shared.step act) init pre).db = db)
    (hrequest : (run (Shared.step act) init pre).requests p = r)
    (hinv : ∀ entry ∈ db.entries, OwnEntry all entry) (hown : r.Own all) :
    Shared.Guarantees (fun db => ∀ entry ∈ db.entries, OwnEntry all entry)
      (fun _ r => r.Own all) (fun _ _ => True) db (db', r') := by
  cases h with
  | stay => exact ⟨hinv, trivial, hown⟩
  | refuse => exact ⟨hinv, trivial, trivial⟩
  | abort => exact ⟨hinv, trivial, trivial⟩
  | counted => exact ⟨hinv, trivial, trivial⟩
  | existing => exact ⟨hinv, trivial, trivial⟩
  | vacant => exact ⟨hinv, trivial, trivial⟩
  | begin => exact ⟨hinv, trivial, trivial⟩
  | commit now join count countSeen lookupSeen joinedAt =>
    refine ⟨fun entry hentry => ?_, trivial, trivial⟩
    rw [insertEntry_entries] at hentry
    rcases List.mem_append.mp hentry with hentry | hentry
    · exact hinv entry hentry
    · rw [List.mem_singleton.mp hentry, ← hdb]
      exact OwnEntry.insert hpre hrequest
  | leaving hfind => exact ⟨hinv, trivial, hinv _ (findLeaving_ok hfind).1⟩
  | count => exact ⟨hinv, trivial, hown⟩
  | save clock entry nextCount countSeen =>
    refine ⟨fun row hrow => ?_, trivial, trivial⟩
    rw [saveLeft_entries] at hrow
    rcases mem_saveRow hrow with ⟨rfl, -⟩ | hrow
    · exact OwnEntry.leave hown hpre hrequest
    · exact hinv row hrow

/-- In any interleaving of requests, every entry was committed by a request of its own user
that had passed the checks and found a place, and every one that was left was saved so by a
request of its own user that had found it active. -/
theorem entries_owned (as : List (ℕ × Action)) :
    ∀ entry ∈ (run (Shared.step act) init as).db.entries, OwnEntry as entry := by
  have hsafe : (run (Shared.step act) init as).Safe
      (fun db => ∀ entry ∈ db.entries, OwnEntry as entry) fun _ r => r.Own as := by
    refine run_invariant_of_prefixes ⟨?_, fun _ => trivial⟩ fun pre pa hpre hsafe => ?_
    · exact fun _ h => absurd h List.not_mem_nil
    · exact hsafe.step ((act_moves pa.2 _ _).own hpre rfl rfl hsafe.store (hsafe.sound pa.1))
        fun _ _ _ _ h => h
  exact hsafe.store

/-- User 7 joins the queue and leaves it. -/
theorem entries_owned_left :
    let user : Option RequestUserContext := some ⟨7, .student⟩
    OwnEntry [(0, .join 1 user diningEnv), (0, .lookup 0), (0, .begin 1), (0, .commit 1),
      (1, .leave 1 user diningEnv 0), (1, .count), (1, .save ⟨2, 2⟩)]
        ⟨1, 1, 7, .left, 1, some 2⟩ :=
  entries_owned _ _ (by decide)

end QueueService

/-! ## Reservations -/

namespace ReservationService

variable (all : List (ℕ × Action))

/-- A new request to reserve passes the checks, and finds no conflict. -/
def Books (slot : Slot) : Action → ReservationDb → Request → Prop
  | .create dto user env, db, .idle =>
    (∃ u ∈ user, u.userId = slot.userId) ∧ checkRequest dto user env = .ok slot ∧
      findConflict slot db.reservations = none
  | _, _, _ => False

/-- The request that booked the slot commits the reservation. -/
def Inserts (slot : Slot) (row : ReservationEntity) : Action → ReservationDb → Request → Prop
  | .insert clock, db, .checked booked _ => booked = slot ∧
    { row with status := .active, cancelledAt := none } = (insertReservation db slot clock).1
  | _, _, _ => False

/-- A request of the run to reserve passed the checks, found no conflict, and committed the
reservation. -/
def Booked (slot : Slot) (row : ReservationEntity) : Prop :=
  Shared.Completes act init all (Books slot) (Inserts slot row)

/-- A new request to cancel, of the reservation's user or of a system admin, finds the
reservation active. -/
def FindsActive (row : ReservationEntity) : Action → ReservationDb → Request → Prop
  | .cancel id user, db, .idle => id = row.id ∧
    (∃ u ∈ user, u.userId = row.userId ∨ u.role = .systemAdmin) ∧ ∃ found ∈ db.reservations,
      findActive db.reservations id user = .ok found ∧ found.id = row.id ∧ found.status = .active
  | _, _, _ => False

/-- The request saves the reservation as it is, cancelled. -/
def SavesCancelled (row : ReservationEntity) : Action → ReservationDb → Request → Prop
  | .save clock, _, .cancelling found => row = found.cancel clock.now
  | _, _, _ => False

/-- A request of the run to cancel, of the reservation's user or of a system admin, found the
reservation active and saved it. -/
def CancelledBy (row : ReservationEntity) : Prop :=
  Shared.Completes act init all (FindsActive row) (SavesCancelled row)

/-- The reservation was booked by its own user, and cancelled, if it was, by its user or a
system admin. -/
structure OwnReservation (row : ReservationEntity) : Prop where
  booked : ∃ slot clock, Booked all slot row ∧
    { row with status := .active, cancelledAt := none } = slot.row row.id clock
  cancelled : row.status = .cancelled → CancelledBy all row
  cancelledAt : row.cancelledAt.isSome = true ↔ row.status = .cancelled

/-- What a request that cancels holds was booked by its user. -/
def Request.Own : Request → Prop
  | .cancelling reservation => OwnReservation all reservation
  | _ => True

/-- The request was let through to reserve. -/
def Request.Reserves (slot : Slot) : Request → Prop
  | .checked held _ => held = slot
  | _ => False

/-- The request found the reservation to cancel. -/
def Request.Cancels (row : ReservationEntity) : Request → Prop
  | .cancelling held => held = row
  | _ => False

variable {all} {db db' : ReservationDb} {a : Action} {r r' : Request} {p : ℕ}

theorem findActive_user {rows : List ReservationEntity} {id : Uuid}
    {user : Option RequestUserContext} {row : ReservationEntity}
    (h : findActive rows id user = .ok row) :
    ∃ u ∈ user, u.userId = row.userId ∨ u.role = .systemAdmin := by
  unfold findActive at h
  cases user with
  | none => simp at h
  | some user =>
    cases hfind : rows.find? (·.id == id) with
    | none => simp [hfind] at h
    | some found =>
      simp only [hfind] at h
      obtain ⟨-, hallowed, rfl⟩ : found.status = .active ∧
          ¬(found.userId ≠ user.userId ∧ user.role ≠ .systemAdmin) ∧ found = row := by
        simpa using h
      refine ⟨user, rfl, ?_⟩
      rcases not_and_or.mp hallowed with huser | hrole
      · exact Or.inl (not_not.mp huser).symm
      · exact Or.inr (not_not.mp hrole)

/-- A request that reserves was let through. -/
theorem reserves_act (slot : Slot) (a : Action) (db : ReservationDb) (r : Request)
    (h : (act a db r).2.Reserves slot) : r.Reserves slot ∨ Books slot a db r := by
  have hmoves := act_moves a db r
  generalize (act a db r).1 = db', (act a db r).2 = r' at hmoves h
  cases hmoves with
  | @checked dto user env held hslot hfree =>
    obtain rfl : held = slot := h
    exact Or.inr ⟨checkRequest_user hslot, hslot, hfree⟩
  | refuse | abort | insert | cancelling | save => exact absurd h id
  | stay => exact Or.inl h

/-- A request that cancels found the reservation, for its user or a system admin. -/
theorem cancels_act (row : ReservationEntity) (a : Action) (db : ReservationDb) (r : Request)
    (h : (act a db r).2.Cancels row) : r.Cancels row ∨ FindsActive row a db r := by
  have hmoves := act_moves a db r
  generalize (act a db r).1 = db', (act a db r).2 = r' at hmoves h
  cases hmoves with
  | @cancelling id user found hfind =>
    obtain rfl : found = row := h
    obtain ⟨hmem, hid, hactive⟩ := findActive_ok hfind
    exact Or.inr ⟨hid.symm, findActive_user hfind, found, hmem, hfind, rfl, hactive⟩
  | refuse | abort | checked | insert | save => exact absurd h id
  | stay => exact Or.inl h

/-- What a request inserts is a reservation of its user. -/
theorem OwnReservation.insert {pre : List (ℕ × Action)} {clock : Clock} {slot : Slot}
    {seen : List ReservationEntity} (hpre : pre ++ [(p, .insert clock)] <+: all)
    (hrequest : (run (Shared.step act) init pre).requests p = .checked slot seen) :
    OwnReservation all (insertReservation (run (Shared.step act) init pre).db slot clock).1 where
  booked := by
    refine ⟨slot, clock, ?_, rfl⟩
    refine Shared.completes_of_holding (reserves_act slot) (fun _ => id) hpre ?_ ?_
    · rw [hrequest]
      exact rfl
    · rw [hrequest]
      exact ⟨rfl, rfl⟩
  cancelled hcancelled := absurd hcancelled (by simp [insertReservation, Slot.row])
  cancelledAt := by simp [insertReservation, Slot.row]

/-- A reservation that a request saves as cancelled is cancelled by its user or a system admin. -/
theorem OwnReservation.cancel {pre : List (ℕ × Action)} {clock : Clock} {row : ReservationEntity}
    (h : OwnReservation all row) (hpre : pre ++ [(p, .save clock)] <+: all)
    (hrequest : (run (Shared.step act) init pre).requests p = .cancelling row) :
    OwnReservation all (row.cancel clock.now) where
  booked := h.booked
  cancelled _ := by
    refine Shared.completes_of_holding (cancels_act row) (fun _ => id) hpre ?_ ?_
    · rw [hrequest]
      exact rfl
    · rw [hrequest]
      exact rfl
  cancelledAt := by simp [ReservationEntity.cancel]

/-- A step of the run leaves every reservation with its user. -/
theorem Moves.own (h : Moves db a r db' r') {pre : List (ℕ × Action)}
    (hpre : pre ++ [(p, a)] <+: all) (hdb : (run (Shared.step act) init pre).db = db)
    (hrequest : (run (Shared.step act) init pre).requests p = r)
    (hinv : ∀ row ∈ db.reservations, OwnReservation all row) (hown : r.Own all) :
    Shared.Guarantees (fun db => ∀ row ∈ db.reservations, OwnReservation all row)
      (fun _ r => r.Own all) (fun _ _ => True) db (db', r') := by
  cases h with
  | stay => exact ⟨hinv, trivial, hown⟩
  | refuse => exact ⟨hinv, trivial, trivial⟩
  | abort => exact ⟨hinv, trivial, trivial⟩
  | checked => exact ⟨hinv, trivial, trivial⟩
  | insert clock slot seen =>
    refine ⟨fun row hrow => ?_, trivial, trivial⟩
    rw [insertReservation_reservations] at hrow
    rcases List.mem_append.mp hrow with hrow | hrow
    · exact hinv row hrow
    · rw [List.mem_singleton.mp hrow, ← hdb]
      exact OwnReservation.insert hpre hrequest
  | cancelling hfind => exact ⟨hinv, trivial, hinv _ (findActive_ok hfind).1⟩
  | save clock reservation =>
    refine ⟨fun row hrow => ?_, trivial, trivial⟩
    rw [saveCancelled_reservations] at hrow
    rcases mem_saveRow hrow with ⟨rfl, -⟩ | hrow
    · exact OwnReservation.cancel hown hpre hrequest
    · exact hinv row hrow

/-- In any interleaving of requests, every reservation was committed by a request of its own user
that had passed the checks and found no conflict, and every cancelled one was saved so by a
request of its user or of a system admin that had found it active. -/
theorem reservations_owned (as : List (ℕ × Action)) :
    ∀ row ∈ (run (Shared.step act) init as).db.reservations, OwnReservation as row := by
  have hsafe : (run (Shared.step act) init as).Safe
      (fun db => ∀ row ∈ db.reservations, OwnReservation as row) fun _ r => r.Own as := by
    refine run_invariant_of_prefixes ⟨?_, fun _ => trivial⟩ fun pre pa hpre hsafe => ?_
    · exact fun _ h => absurd h List.not_mem_nil
    · exact hsafe.step ((act_moves pa.2 _ _).own hpre rfl rfl hsafe.store (hsafe.sound pa.1))
        fun _ _ _ _ h => h
  exact hsafe.store

/-- A system admin cancels the reservation of user 1. -/
theorem reservations_owned_cancelled :
    OwnReservation [(0, .create seatTwo (some ⟨1, .student⟩) ⟨true, some hourZone, 0⟩),
      (0, .insert ⟨1, 1⟩), (1, .cancel 1 (some ⟨9, .systemAdmin⟩)), (1, .save ⟨2, 2⟩)]
        ⟨1, 1, 1, 2, 3600000, 7200000, .cancelled, 1, some 2⟩ :=
  reservations_owned _ _ (by decide)

end ReservationService

end Qoms
