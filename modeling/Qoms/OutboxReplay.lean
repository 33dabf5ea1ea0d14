import Qoms.QueueRace
import Qoms.Replay
import Qoms.ReservationRace

/-!
# Replaying the outbox

Both services write a row and its event in one transaction, so the outbox replays to the
table (`Replays`). This is an invariant of every run : the requests of the queue service
and of the reservation service can hold outdated entities, but an insert logs a fresh id,
and a save only ever writes an entity as left or cancelled, which it logs too
(`Moves.replays`). So replaying the outbox gives the active rows
(`active_iff_replayed`).

What the handlers check before they save is that the entity they read is active, so a row that
was saved as left or cancelled is found no more. But a request that is sent twice can pass the
check twice and is logged twice (`leftTwice`, `cancelledTwice`) : `endedOnce_iff_noneBetween` says
that a row ends once exactly when no request saves it between the lookup and the save of another.
-/

set_option autoImplicit false

namespace Qoms

/-! ## The queue -/

namespace QueueService

/-- The entry that joined, of a `queue_joined` record. -/
def joinedEntry (row : OutboxEvent Uuid QueuePayload) : Option Uuid :=
  match row.eventType, row.payload.payload with
  | .queueJoined, .joined _ queueEntryId _ => some queueEntryId
  | _, _ => none

/-- The entry that left, of a `queue_left` record. -/
def leftEntry (row : OutboxEvent Uuid QueuePayload) : Option Uuid :=
  match row.eventType, row.payload.payload with
  | .queueLeft, .left _ queueEntryId _ => some queueEntryId
  | _, _ => none

/-- The entries of the `queue_joined` records. -/
def QueueDb.joinedIds (db : QueueDb) : List Uuid :=
  db.outbox.filterMap joinedEntry

/-- The entries of the `queue_left` records. -/
def QueueDb.leftIds (db : QueueDb) : List Uuid :=
  db.outbox.filterMap leftEntry

def QueueEntryEntity.isActive (e : QueueEntryEntity) : Bool :=
  e.status == .active

/-- The outbox replays to the table. -/
def QueueDb.Replays (db : QueueDb) : Prop :=
  Qoms.Replays (·.id) (·.isActive) db.entries db.joinedIds db.leftIds

/-- The active entries are those that a `queue_joined` record names and no `queue_left`
record does, so the outbox gives them in their order. -/
structure QueueDb.ActiveReplayed (db : QueueDb) : Prop where
  active_iff : ∀ e ∈ db.entries, e.status = .active ↔ e.id ∈ db.joinedIds ∧ e.id ∉ db.leftIds
  active_eq : (db.entries.filter (·.isActive)).map (·.id) = db.joinedIds.filter (· ∉ db.leftIds)

theorem QueueDb.Replays.activeReplayed {db : QueueDb} (h : db.Replays) : db.ActiveReplayed where
  active_iff e he := by
    rw [← Qoms.Replays.live_iff_replayed h he]
    exact beq_iff_eq.symm
  active_eq := Qoms.Replays.map_id_live h

theorem joinedIds_insertEntry (db : QueueDb) (join : Join) (activeCount : ℕ) (clock : Clock) :
    (insertEntry db join activeCount clock).2.joinedIds = db.joinedIds ++ [db.uuids + 1] := by
  simp [insertEntry, QueueDb.joinedIds, joinedEntry, createOutbox, createEventEnvelope, Join.entry]

theorem leftIds_insertEntry (db : QueueDb) (join : Join) (activeCount : ℕ) (clock : Clock) :
    (insertEntry db join activeCount clock).2.leftIds = db.leftIds := by
  simp [insertEntry, QueueDb.leftIds, leftEntry, createOutbox, createEventEnvelope]

theorem joinedIds_saveLeft (db : QueueDb) (entry : QueueEntryEntity) (nextCount : ℕ)
    (clock : Clock) : (saveLeft db entry nextCount clock).joinedIds = db.joinedIds := by
  simp [saveLeft, QueueDb.joinedIds, joinedEntry, createOutbox, createEventEnvelope]

theorem leftIds_saveLeft (db : QueueDb) (entry : QueueEntryEntity) (nextCount : ℕ)
    (clock : Clock) : (saveLeft db entry nextCount clock).leftIds = db.leftIds ++ [entry.id] := by
  simp [saveLeft, QueueDb.leftIds, leftEntry, createOutbox, createEventEnvelope]

/-- The entity that a request holds is one of the table. -/
def Request.Held (db : QueueDb) : Request → Prop
  | .leaving entry => entry.id ∈ db.entries.map (·.id)
  | .ready entry _ _ => entry.id ∈ db.entries.map (·.id)
  | _ => True

theorem Request.Held.grows {db db' : QueueDb} {r : Request} (h : r.Held db)
    (hgrows : db.Grows db') : r.Held db' := by
  cases r with
  | leaving entry => exact hgrows.mem_map_id (fun _ _ hab => hab.1) h
  | ready entry nextCount countSeen => exact hgrows.mem_map_id (fun _ _ hab => hab.1) h
  | _ => trivial

theorem Moves.held {db db' : QueueDb} {a : Action} {r r' : Request} (h : Moves db a r db' r')
    (hheld : r.Held db) : r'.Held db' := by
  cases h with
  | stay => exact hheld
  | leaving hfind => exact List.mem_map_of_mem (findLeaving_ok hfind).1
  | count => exact hheld
  | _ => trivial

/-- One step keeps the outbox in step with the table. -/
theorem Moves.replays {db db' : QueueDb} {a : Action} {r r' : Request} (h : Moves db a r db' r')
    (hkeyed : db.Keyed) (hheld : r.Held db) (hreplays : db.Replays) : db'.Replays := by
  cases h with
  | commit now join count countSeen lookupSeen joinedAt =>
    rw [QueueDb.Replays, joinedIds_insertEntry, leftIds_insertEntry, insertEntry_entries]
    exact Qoms.Replays.insert hreplays hkeyed (Nat.le_succ _) rfl
  | save clock entry nextCount countSeen =>
    rw [QueueDb.Replays, joinedIds_saveLeft, leftIds_saveLeft, saveLeft_entries]
    exact Qoms.Replays.save hreplays hheld rfl
  | _ => exact hreplays

/-- Keyed tables that the outbox replays to. -/
structure QueueDb.Logged (db : QueueDb) : Prop where
  keyed : db.Keyed
  replays : db.Replays

theorem logged_init : init.Safe QueueDb.Logged fun db r => r.Sound db ∧ r.Held db :=
  ⟨⟨Keyed.nil, Replays.nil⟩, fun _ => ⟨trivial, trivial⟩⟩

theorem logged_act (a : Action) {db : QueueDb} {r : Request} (hdb : db.Logged)
    (hr : r.Sound db ∧ r.Held db) : Shared.Guarantees QueueDb.Logged
      (fun db r => r.Sound db ∧ r.Held db) QueueDb.Grows db (act a db r) := by
  have hmoves := act_moves a db r
  obtain ⟨hkeyed, hgrows, hsound⟩ := hmoves.guarantees hdb.keyed hr.1
  exact ⟨⟨hkeyed, hmoves.replays hdb.keyed hr.2 hdb.replays⟩, hgrows, hsound,
    hmoves.held hr.2⟩

theorem logged_step {s : System} (h : s.Safe QueueDb.Logged fun db r => r.Sound db ∧ r.Held db)
    (pa : ℕ × Action) :
    (Shared.step act s pa).Safe QueueDb.Logged fun db r => r.Sound db ∧ r.Held db :=
  h.step (logged_act pa.2 h.store (h.sound pa.1))
    fun _ _ _ hgrows hr => ⟨hr.1.grows hgrows, hr.2.grows hgrows⟩

theorem logged_run (as : List (ℕ × Action)) : (run (Shared.step act) init as).db.Logged :=
  (Shared.Safe.run (fun _ => True) QueueDb.Grows (fun a _ _ _ hdb hr => logged_act a hdb hr)
    (fun _ _ _ hgrows hr => ⟨hr.1.grows hgrows, hr.2.grows hgrows⟩) logged_init
    fun _ _ => trivial).store

/-- The entry that the step looks up to leave it. -/
def foundEntry : Action → QueueDb → Request → Option Uuid
  | .leave zoneId user env hint, db, .idle =>
    (findLeaving db.entries zoneId user env hint).toOption.map (·.id)
  | _, _, _ => none

/-- The entry that the request holds to leave it. -/
def Request.heldEntry : Request → Option Uuid
  | .leaving entry => some entry.id
  | .ready entry _ _ => some entry.id
  | _ => none

/-- The entry that the step saves as left. -/
def savedEntry : Action → Request → Option Uuid
  | .save _, .ready entry _ _ => some entry.id
  | _, _ => none

theorem savedEntry_of_not_enabled {a : Action} {r : Request} (h : ¬Enabled a r) :
    savedEntry a r = none := by
  cases a <;> cases r <;> first | rfl | exact absurd trivial h

theorem heldEntry_of_saved {a : Action} {r : Request} {id : Uuid} (h : savedEntry a r = some id) :
    r.heldEntry = some id := by
  cases a <;> cases r <;> first | exact h | cases h

/-- A request holds an entry that it held, or that it just found. -/
theorem heldEntry_act (a : Action) (db : QueueDb) (r : Request) {id : Uuid}
    (h : (act a db r).2.heldEntry = some id) :
    r.heldEntry = some id ∨ foundEntry a db r = some id := by
  have hmoves := act_moves a db r
  generalize (act a db r).1 = db' at hmoves
  generalize (act a db r).2 = r' at hmoves h
  cases hmoves with
  | stay => exact Or.inl h
  | count => exact Or.inl h
  | leaving hfind =>
    refine Or.inr ?_
    rw [foundEntry, hfind]
    exact h
  | _ => cases h

/-- A save logs its entry, and no other step logs one as left. -/
theorem leftIds_act (a : Action) (db : QueueDb) (r : Request) :
    (act a db r).1.leftIds = db.leftIds ++ (savedEntry a r).toList := by
  have hmoves := act_moves a db r
  generalize (act a db r).1 = db' at hmoves ⊢
  generalize (act a db r).2 = r' at hmoves
  cases hmoves with
  | stay hnot => rw [savedEntry_of_not_enabled hnot, Option.toList_none, List.append_nil]
  | refuse => cases a <;> exact (List.append_nil _).symm
  | commit =>
    rw [leftIds_insertEntry]
    exact (List.append_nil _).symm
  | save => exact leftIds_saveLeft ..
  | _ => exact (List.append_nil _).symm

/-- The lookup finds an active entry, so one that was not logged as left. -/
theorem not_mem_leftIds_of_found {a : Action} {db : QueueDb} {r : Request} {id : Uuid}
    (hreplays : db.Replays) (h : foundEntry a db r = some id) : id ∉ (act a db r).1.leftIds := by
  cases a with
  | leave zoneId user env hint =>
    cases r with
    | idle =>
      obtain ⟨entry, hfind, rfl⟩ := Option.map_eq_some_iff.mp h
      rw [toOption_eq_some] at hfind
      obtain ⟨hmem, hactive, -⟩ := findLeaving_ok hfind
      rw [leftIds_act]
      simpa [savedEntry] using ((hreplays.activeReplayed.active_iff entry hmem).mp hactive).2
    | _ => cases h
  | _ => cases h

/-- A user leaves, and submits the request a second time; both lookups run before the
first save. -/
def leftTwice : List (ℕ × Action) :=
  let user : Option RequestUserContext := some ⟨7, .student⟩
  [(0, .join 1 user diningEnv), (0, .lookup 0), (0, .begin 1), (0, .commit 1),
    (1, .leave 1 user diningEnv 0), (2, .leave 1 user diningEnv 0), (1, .count), (2, .count),
    (1, .save ⟨2, 2⟩), (2, .save ⟨3, 3⟩)]

end QueueService

/-! ## The reservations -/

namespace ReservationService

/-- The reservation of a `reservation_created` record. -/
def createdReservation (row : OutboxEvent Uuid ReservationPayload) : Option Uuid :=
  match row.eventType, row.payload.payload with
  | .reservationCreated, .created reservationId _ _ _ _ _ => some reservationId
  | _, _ => none

/-- The reservation of a `reservation_cancelled` record. -/
def cancelledReservation (row : OutboxEvent Uuid ReservationPayload) : Option Uuid :=
  match row.eventType, row.payload.payload with
  | .reservationCancelled, .cancelled reservationId _ _ _ => some reservationId
  | _, _ => none

/-- The reservations of the `reservation_created` records. -/
def ReservationDb.createdIds (db : ReservationDb) : List Uuid :=
  db.outbox.filterMap createdReservation

/-- The reservations of the `reservation_cancelled` records. -/
def ReservationDb.cancelledIds (db : ReservationDb) : List Uuid :=
  db.outbox.filterMap cancelledReservation

def ReservationEntity.isActive (r : ReservationEntity) : Bool :=
  r.status == .active

/-- The outbox replays to the table. -/
def ReservationDb.Replays (db : ReservationDb) : Prop :=
  Qoms.Replays (·.id) (·.isActive) db.reservations db.createdIds db.cancelledIds

/-- The active reservations are those that a `reservation_created` record names and no
`reservation_cancelled` record does, so the outbox gives them in their order. -/
structure ReservationDb.ActiveReplayed (db : ReservationDb) : Prop where
  active_iff : ∀ r ∈ db.reservations,
    r.status = .active ↔ r.id ∈ db.createdIds ∧ r.id ∉ db.cancelledIds
  active_eq : (db.reservations.filter (·.isActive)).map (·.id) =
    db.createdIds.filter (· ∉ db.cancelledIds)

theorem ReservationDb.Replays.activeReplayed {db : ReservationDb} (h : db.Replays) :
    db.ActiveReplayed where
  active_iff r hr := by
    rw [← Qoms.Replays.live_iff_replayed h hr]
    exact beq_iff_eq.symm
  active_eq := Qoms.Replays.map_id_live h

theorem createdIds_insertReservation (db : ReservationDb) (slot : Slot) (clock : Clock) :
    (insertReservation db slot clock).2.createdIds = db.createdIds ++ [db.uuids + 1] := by
  simp [insertReservation, ReservationDb.createdIds, createdReservation, createOutbox,
    createEventEnvelope, Slot.row]

theorem cancelledIds_insertReservation (db : ReservationDb) (slot : Slot) (clock : Clock) :
    (insertReservation db slot clock).2.cancelledIds = db.cancelledIds := by
  simp [insertReservation, ReservationDb.cancelledIds, cancelledReservation, createOutbox,
    createEventEnvelope]

theorem createdIds_saveCancelled (db : ReservationDb) (r : ReservationEntity) (clock : Clock) :
    (saveCancelled db r clock).createdIds = db.createdIds := by
  simp [saveCancelled, ReservationDb.createdIds, createdReservation, createOutbox,
    createEventEnvelope]

theorem cancelledIds_saveCancelled (db : ReservationDb) (r : ReservationEntity) (clock : Clock) :
    (saveCancelled db r clock).cancelledIds = db.cancelledIds ++ [r.id] := by
  simp [saveCancelled, ReservationDb.cancelledIds, cancelledReservation, createOutbox,
    createEventEnvelope]

/-- The entity that a request holds is one of the table. -/
def Request.Held (db : ReservationDb) : Request → Prop
  | .cancelling reservation => reservation.id ∈ db.reservations.map (·.id)
  | _ => True

theorem Request.Held.grows {db db' : ReservationDb} {r : Request} (h : r.Held db)
    (hgrows : db.Grows db') : r.Held db' := by
  cases r with
  | cancelling reservation => exact hgrows.mem_map_id (fun _ _ hab => hab.1) h
  | _ => trivial

theorem Moves.held {db db' : ReservationDb} {a : Action} {r r' : Request}
    (h : Moves db a r db' r') (hheld : r.Held db) : r'.Held db' := by
  cases h with
  | stay => exact hheld
  | cancelling hfind => exact List.mem_map_of_mem (findActive_ok hfind).1
  | _ => trivial

/-- One step keeps the outbox in step with the table. -/
theorem Moves.replays {db db' : ReservationDb} {a : Action} {r r' : Request}
    (h : Moves db a r db' r') (hkeyed : db.Keyed) (hheld : r.Held db) (hreplays : db.Replays) :
    db'.Replays := by
  cases h with
  | insert clock slot seen =>
    rw [ReservationDb.Replays, createdIds_insertReservation, cancelledIds_insertReservation,
      insertReservation_reservations]
    exact Qoms.Replays.insert hreplays hkeyed (Nat.le_succ _) rfl
  | save clock reservation =>
    rw [ReservationDb.Replays, createdIds_saveCancelled, cancelledIds_saveCancelled,
      saveCancelled_reservations]
    exact Qoms.Replays.save hreplays hheld rfl
  | _ => exact hreplays

/-- Keyed tables that the outbox replays to. -/
structure ReservationDb.Logged (db : ReservationDb) : Prop where
  keyed : db.Keyed
  replays : db.Replays

theorem logged_init : init.Safe ReservationDb.Logged fun db r => r.Sound db ∧ r.Held db :=
  ⟨⟨Keyed.nil, Replays.nil⟩, fun _ => ⟨trivial, trivial⟩⟩

theorem logged_act (a : Action) {db : ReservationDb} {r : Request} (hdb : db.Logged)
    (hr : r.Sound db ∧ r.Held db) : Shared.Guarantees ReservationDb.Logged
      (fun db r => r.Sound db ∧ r.Held db) ReservationDb.Grows db (act a db r) := by
  have hmoves := act_moves a db r
  obtain ⟨hkeyed, hgrows, hsound⟩ := hmoves.guarantees hdb.keyed hr.1
  exact ⟨⟨hkeyed, hmoves.replays hdb.keyed hr.2 hdb.replays⟩, hgrows, hsound,
    hmoves.held hr.2⟩

theorem logged_step {s : System}
    (h : s.Safe ReservationDb.Logged fun db r => r.Sound db ∧ r.Held db) (pa : ℕ × Action) :
    (Shared.step act s pa).Safe ReservationDb.Logged fun db r => r.Sound db ∧ r.Held db :=
  h.step (logged_act pa.2 h.store (h.sound pa.1))
    fun _ _ _ hgrows hr => ⟨hr.1.grows hgrows, hr.2.grows hgrows⟩

theorem logged_run (as : List (ℕ × Action)) : (run (Shared.step act) init as).db.Logged :=
  (Shared.Safe.run (fun _ => True) ReservationDb.Grows (fun a _ _ _ hdb hr => logged_act a hdb hr)
    (fun _ _ _ hgrows hr => ⟨hr.1.grows hgrows, hr.2.grows hgrows⟩) logged_init
    fun _ _ => trivial).store

/-- The reservation that the step looks up to cancel it. -/
def foundReservation : Action → ReservationDb → Request → Option Uuid
  | .cancel id user, db, .idle => (findActive db.reservations id user).toOption.map (·.id)
  | _, _, _ => none

/-- The reservation that the request holds to cancel it. -/
def Request.heldReservation : Request → Option Uuid
  | .cancelling reservation => some reservation.id
  | _ => none

/-- The reservation that the step saves as cancelled. -/
def savedReservation : Action → Request → Option Uuid
  | .save _, .cancelling reservation => some reservation.id
  | _, _ => none

theorem savedReservation_of_not_enabled {a : Action} {r : Request} (h : ¬Enabled a r) :
    savedReservation a r = none := by
  cases a <;> cases r <;> first | rfl | exact absurd trivial h

theorem heldReservation_of_saved {a : Action} {r : Request} {id : Uuid}
    (h : savedReservation a r = some id) : r.heldReservation = some id := by
  cases a <;> cases r <;> first | exact h | cases h

/-- A request holds a reservation that it held, or that it just found. -/
theorem heldReservation_act (a : Action) (db : ReservationDb) (r : Request) {id : Uuid}
    (h : (act a db r).2.heldReservation = some id) :
    r.heldReservation = some id ∨ foundReservation a db r = some id := by
  have hmoves := act_moves a db r
  generalize (act a db r).1 = db' at hmoves
  generalize (act a db r).2 = r' at hmoves h
  cases hmoves with
  | stay => exact Or.inl h
  | cancelling hfind =>
    refine Or.inr ?_
    rw [foundReservation, hfind]
    exact h
  | _ => cases h

/-- A save logs its reservation, and no other step logs one as cancelled. -/
theorem cancelledIds_act (a : Action) (db : ReservationDb) (r : Request) :
    (act a db r).1.cancelledIds = db.cancelledIds ++ (savedReservation a r).toList := by
  have hmoves := act_moves a db r
  generalize (act a db r).1 = db' at hmoves ⊢
  generalize (act a db r).2 = r' at hmoves
  cases hmoves with
  | stay hnot => rw [savedReservation_of_not_enabled hnot, Option.toList_none, List.append_nil]
  | refuse => cases a <;> exact (List.append_nil _).symm
  | insert =>
    rw [cancelledIds_insertReservation]
    exact (List.append_nil _).symm
  | save => exact cancelledIds_saveCancelled ..
  | _ => exact (List.append_nil _).symm

/-- The lookup finds an active reservation, so one that was not logged as cancelled. -/
theorem not_mem_cancelledIds_of_found {a : Action} {db : ReservationDb} {r : Request} {id : Uuid}
    (hreplays : db.Replays) (h : foundReservation a db r = some id) :
    id ∉ (act a db r).1.cancelledIds := by
  cases a with
  | cancel i user =>
    cases r with
    | idle =>
      obtain ⟨reservation, hfind, rfl⟩ := Option.map_eq_some_iff.mp h
      rw [toOption_eq_some] at hfind
      obtain ⟨hmem, -, hactive⟩ := findActive_ok hfind
      rw [cancelledIds_act]
      simpa [savedReservation] using
        ((hreplays.activeReplayed.active_iff reservation hmem).mp hactive).2
    | _ => cases h
  | _ => cases h

/-- A student cancels a reservation, and submits the request a second time; both reads run
before the first save. -/
def cancelledTwice : List (ℕ × Action) :=
  let user : Option RequestUserContext := some ⟨1, .student⟩
  [(0, .create seatTwo user ⟨true, some hourZone, 0⟩), (0, .insert ⟨1, 1⟩), (1, .cancel 1 user),
    (2, .cancel 1 user), (1, .save ⟨2, 2⟩), (2, .save ⟨3, 3⟩)]

end ReservationService

/-! ## Both services -/

/-- After any run of concurrent requests on empty tables, replaying the outbox gives the
active queue entries, and the active reservations. -/
theorem active_iff_replayed (as : List (ℕ × QueueService.Action))
    (bs : List (ℕ × ReservationService.Action)) :
    (run (Shared.step QueueService.act) QueueService.init as).db.ActiveReplayed ∧
      (run (Shared.step ReservationService.act) ReservationService.init bs).db.ActiveReplayed :=
  ⟨(QueueService.logged_run as).replays.activeReplayed,
    (ReservationService.logged_run bs).replays.activeReplayed⟩

/-- Throughout a run of concurrent requests every queue entry has at most one `queue_left`
record, exactly when no entry is saved as left between the lookup of a request that found it and
the save of that request; and likewise every reservation at most one `reservation_cancelled`
record. -/
theorem endedOnce_iff_noneBetween (as : List (ℕ × QueueService.Action))
    (bs : List (ℕ × ReservationService.Action)) :
    (Throughout (Shared.step QueueService.act) QueueService.init as
        (fun s => ∀ id, s.db.leftIds.count id ≤ 1) ↔
      ∀ id, Shared.NoneBetween QueueService.act QueueService.init as
        (fun a db r => QueueService.foundEntry a db r = some id)
        fun a _ r => QueueService.savedEntry a r = some id) ∧
    (Throughout (Shared.step ReservationService.act) ReservationService.init bs
        (fun s => ∀ id, s.db.cancelledIds.count id ≤ 1) ↔
      ∀ id, Shared.NoneBetween ReservationService.act ReservationService.init bs
        (fun a db r => ReservationService.foundReservation a db r = some id)
        fun a _ r => ReservationService.savedReservation a r = some id) := by
  simp only [← List.nodup_iff_count_le_one]
  constructor
  · exact Shared.nodup_iff_noneBetween (fun _ pa h => QueueService.logged_step h pa)
      (fun a db r _ => QueueService.heldEntry_act a db r)
      (fun _ _ _ => QueueService.heldEntry_of_saved) QueueService.leftIds_act
      (fun _ _ _ _ h => QueueService.not_mem_leftIds_of_found h.store.replays)
      QueueService.logged_init (fun _ => rfl) List.nodup_nil
  · exact Shared.nodup_iff_noneBetween (fun _ pa h => ReservationService.logged_step h pa)
      (fun a db r _ => ReservationService.heldReservation_act a db r)
      (fun _ _ _ => ReservationService.heldReservation_of_saved)
      ReservationService.cancelledIds_act
      (fun _ _ _ _ h => ReservationService.not_mem_cancelledIds_of_found h.store.replays)
      ReservationService.logged_init (fun _ => rfl) List.nodup_nil

/-- Each of the two rows has two records of its one end. -/
theorem endedTwice :
    (run (Shared.step QueueService.act) QueueService.init QueueService.leftTwice).db.leftIds.count
        1 = 2 ∧
      (run (Shared.step ReservationService.act) ReservationService.init
        ReservationService.cancelledTwice).db.cancelledIds.count 1 = 2 := by
  decide

end Qoms
