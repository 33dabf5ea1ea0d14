import Qoms.Notification
import Qoms.Shared

/-!
# Concurrent deliveries to the notification service

`handleEvent` looks its event up, builds the notifications from what the user service
answers at that moment, and stores them in one transaction. Here any number of deliveries
take these three steps in any order (`act`), an event can be delivered again and meet
other admins each time, and any call can fail.

The inserts of the notifications come first and know of no other delivery, so it is the
row of the event id, last in the same transaction, that keeps two deliveries apart : a
transaction that commits found no such row, and leaves one (`act_db_cases`). So an event
has no row and no notifications, or one row and the notifications that one delivery built
(`storedOnce`); if no admin is listed twice, no user has two of them.
-/

set_option autoImplicit false

namespace Qoms.NotificationService

/-! ## Deliveries in flight -/

/-- Where a delivery stands. -/
inductive Request
  | idle
  | unprocessed (event : DomainEvent)
  | built (event : DomainEvent) (drafts : List Draft)
  | finished

/-- The tables and the deliveries. -/
abbrev System := Shared NotificationDb Request

/-- Empty tables and no delivery in flight. -/
def init : System :=
  ⟨⟨[], [], 0⟩, fun _ => .idle⟩

/-- One step of a delivery : the lookup, the answer of the user service, the transaction
with its faults, or the end of a delivery whose call failed. -/
inductive Action
  | lookup (event : DomainEvent)
  | build (users : Option (List RemoteUser))
  | save (faults : Faults) (now : ℤ)
  | abort

/-- What a step does; a step that is not the next one does nothing. -/
def act : Action → NotificationDb → Request → NotificationDb × Request
  | .lookup event, db, .idle =>
    if isProcessed db event.eventId then (db, .finished) else (db, .unprocessed event)
  | .build users, db, .unprocessed event =>
    match buildNotifications event users with
    | .error _ => (db, .finished)
    | .ok drafts => (db, .built event drafts)
  | .save faults now, db, .built event drafts =>
    ((transaction db (saveEvent db event drafts faults now) faults.commit).1, .finished)
  | .abort, db, .unprocessed _ => (db, .finished)
  | .abort, db, .built _ _ => (db, .finished)
  | _, db, request => (db, request)

/-- The steps of a delivery with nothing between them are `handleEvent`. -/
theorem run_handleEvent (s : System) (p : ℕ) (hp : s.requests p = .idle) (event : DomainEvent)
    (faults : Faults) (now : ℤ) (hlookup : faults.lookup = false) :
    (run (Shared.step act) s [(p, .lookup event), (p, .build faults.users),
        (p, .save faults now)]).db = (handleEvent s.db event faults now).1 := by
  simp only [run_cons, run_nil, Shared.step_db, Shared.step_requests_self, hp, handleEvent, act,
    hlookup]
  cases hdone : isProcessed s.db event.eventId with
  | true => rfl
  | false =>
    cases hbuilt : buildNotifications event faults.users with
    | error e => simp [hbuilt]
    | ok drafts => simp [hbuilt]

/-- A step changes the tables only where a transaction commits. -/
theorem act_db_cases (a : Action) (db : NotificationDb) (r : Request) :
    (act a db r).1 = db ∨ ∃ faults now event drafts, a = .save faults now ∧
      r = .built event drafts ∧ saveEvent db event drafts faults now = .ok (act a db r).1 := by
  unfold act
  split
  · split <;> exact Or.inl rfl
  · split <;> exact Or.inl rfl
  · rename_i faults now event drafts
    cases hsaved : saveEvent db event drafts faults now with
    | error e => exact Or.inl rfl
    | ok db' =>
      cases hcommit : faults.commit with
      | failed message => exact Or.inl rfl
      | acknowledged => exact Or.inr ⟨faults, now, event, drafts, rfl, rfl, hsaved⟩
      | unacknowledged message => exact Or.inr ⟨faults, now, event, drafts, rfl, rfl, hsaved⟩
  · exact Or.inl rfl
  · exact Or.inl rfl
  · exact Or.inl rfl

/-! ## What a delivery builds -/

/-- No user is listed twice in the answer of the user service. -/
def Action.DistinctUsers : Action → Prop
  | .build (some users) => (users.filterMap fun user => uuidIn user.id).Nodup
  | _ => True

/-- The users that the drafts are for. -/
def userIdsOf (drafts : List Draft) : List Uuid :=
  drafts.filterMap fun draft => draft.userId.bind uuidIn

theorem buildNotifications_eventId {event : DomainEvent} {users : Option (List RemoteUser)}
    {drafts : List Draft} (h : buildNotifications event users = .ok drafts) :
    ∀ draft ∈ drafts, draft.eventId = event.eventId := by
  cases htype : event.eventType with
  | zoneOverloaded =>
    obtain ⟨data, body, -, rfl⟩ := buildNotifications_overloaded htype h
    simp [draftFor]
  | _ =>
    simp only [buildNotifications, htype, pure_eq_ok] at h
    subst h
    simp [draftFor]

/-- If no user is listed twice, no user gets two drafts. -/
theorem nodup_userIdsOf {event : DomainEvent} {users : Option (List RemoteUser)}
    {drafts : List Draft} (h : buildNotifications event users = .ok drafts)
    (hdistinct : (Action.build users).DistinctUsers) : (userIdsOf drafts).Nodup := by
  cases htype : event.eventType with
  | zoneOverloaded =>
    obtain ⟨data, body, rfl, rfl⟩ := buildNotifications_overloaded htype h
    have hsub : (adminsOf data).Sublist data := List.filter_sublist
    refine List.Nodup.sublist ?_ hdistinct
    simpa [userIdsOf, draftFor, List.filterMap_map, Function.comp_def] using
      hsub.filterMap fun user => uuidIn user.id
  | queueJoined | queueLeft | reservationCreated | reservationCancelled =>
    simp only [buildNotifications, htype, pure_eq_ok] at h
    subst h
    cases hu : event.payload.userId.bind uuidIn with
    | none => simp [userIdsOf, draftFor, hu]
    | some user => simp [userIdsOf, draftFor, hu]
  | occupancyUpdated | zoneStatusChanged | queueStatusChanged =>
    simp only [buildNotifications, htype, pure_eq_ok] at h
    subst h
    simp [userIdsOf]

theorem Draft.IsRow.eventId_eq {draft : Draft} {row : NotificationEntity} (h : draft.IsRow row) :
    row.eventId = draft.eventId := by
  obtain ⟨userId, zoneId, -, -, heq⟩ := Draft.row_eq_ok.mp h
  rw [heq]

theorem Draft.IsRow.userId_eq {draft : Draft} {row : NotificationEntity} (h : draft.IsRow row) :
    draft.userId.bind uuidIn = some row.userId := by
  obtain ⟨userId, zoneId, huser, -, heq⟩ := Draft.row_eq_ok.mp h
  obtain ⟨text, htext, hread⟩ := uuidColumn_eq_some.mp huser
  rw [Option.mem_def.mp htext, heq]
  exact hread

/-- The rows of a batch are for the users of its drafts. -/
theorem map_userId_rows {drafts : List Draft} {rows : List NotificationEntity}
    (h : List.Forall₂ Draft.IsRow drafts rows) : rows.map (·.userId) = userIdsOf drafts := by
  induction h with
  | nil => rfl
  | @cons draft row drafts rows hrow _ ih =>
    have huser : draft.userId.bind uuidIn = some row.userId := hrow.userId_eq
    simp only [userIdsOf, List.filterMap_cons, List.map_cons, huser, ih]

/-- The rows of a batch have the event id of its drafts. -/
theorem eventId_rows {eventId : Uuid} {drafts : List Draft} {rows : List NotificationEntity}
    (h : List.Forall₂ Draft.IsRow drafts rows)
    (hdrafts : ∀ draft ∈ drafts, draft.eventId = eventId) :
    ∀ row ∈ rows, row.eventId = eventId := by
  induction h with
  | nil => simp
  | cons hrow _ ih =>
    rw [List.forall_mem_cons] at hdrafts ⊢
    exact ⟨hrow.eventId_eq.trans hdrafts.1, ih hdrafts.2⟩

/-- What a delivery holds was built from its event, with no user twice. -/
def Request.Sound : Request → Prop
  | .built event drafts =>
    (∃ users, buildNotifications event users = .ok drafts) ∧ (userIdsOf drafts).Nodup
  | _ => True

theorem sound_act {a : Action} (db : NotificationDb) {r : Request} (ha : a.DistinctUsers)
    (hr : r.Sound) : (act a db r).2.Sound := by
  unfold act
  split
  · split <;> trivial
  · split
    · trivial
    · rename_i hbuilt
      exact ⟨⟨_, hbuilt⟩, nodup_userIdsOf hbuilt ha⟩
  · trivial
  · trivial
  · trivial
  · exact hr

theorem sound_run {as : List (ℕ × Action)} (has : ∀ pa ∈ as, pa.2.DistinctUsers) (p : ℕ) :
    ((run (Shared.step act) init as).requests p).Sound := by
  have hinit : init.Safe (fun _ => True) fun _ r => r.Sound := ⟨trivial, fun _ => trivial⟩
  have hact : ∀ (a : Action) (db : NotificationDb) (r : Request), a.DistinctUsers → True →
      r.Sound → Shared.Guarantees (fun _ => True) (fun _ r => r.Sound) (fun _ _ => True) db
        (act a db r) :=
    fun a db r ha _ hr => ⟨trivial, trivial, sound_act db ha hr⟩
  exact (hinit.run Action.DistinctUsers (fun _ _ => True) hact (fun _ _ _ _ hr => hr) has).sound p

/-! ## What is stored of an event -/

/-- The notifications of an event. -/
def NotificationDb.batch (db : NotificationDb) (eventId : Uuid) : List NotificationEntity :=
  db.notifications.filter (·.eventId == eventId)

/-- The rows of an event among the processed ones. -/
def NotificationDb.processedRows (db : NotificationDb) (eventId : Uuid) : ℕ :=
  (db.processed.map (·.eventId)).count eventId

/-- A delivery of the event that took part in the run built the drafts, and went on to its
transaction. -/
def Delivered (as : List (ℕ × Action)) (eventId : Uuid) (drafts : List Draft) : Prop :=
  ∃ pre p faults now event users, pre ++ [(p, .save faults now)] <+: as ∧
    (run (Shared.step act) init pre).requests p = .built event drafts ∧
      event.eventId = eventId ∧ buildNotifications event users = .ok drafts

/-- The event is processed, and its notifications are those of the drafts. -/
structure NotificationDb.Stored (db : NotificationDb) (eventId : Uuid) (drafts : List Draft) :
    Prop where
  batch : List.Forall₂ Draft.IsRow drafts (db.batch eventId)
  processed : db.processedRows eventId = 1

/-- The event is not processed, and has no notifications. -/
structure NotificationDb.Unstored (db : NotificationDb) (eventId : Uuid) : Prop where
  batch : db.batch eventId = []
  processed : db.processedRows eventId = 0

section

variable {db db' : NotificationDb} {event : DomainEvent} {drafts : List Draft} {faults : Faults}
  {now : ℤ}

/-- A transaction that goes through stores the drafts of an event that was not processed. -/
theorem saveEvent_stores (h : saveEvent db event drafts faults now = .ok db')
    (hdrafts : ∀ draft ∈ drafts, draft.eventId = event.eventId) :
    db.processedRows event.eventId = 0 ∧
      (db.batch event.eventId = [] → db'.Stored event.eventId drafts) := by
  obtain ⟨rows, hrows, hforall, hprocessed⟩ := saveEvent_ok h
  have hnew : db.processedRows event.eventId = 0 := by
    simp only [saveEvent, throw_bind, throw_if_eq_ok, bind_eq_ok] at h
    obtain ⟨saved, hsaved, -, -, hnew, -⟩ := h
    rw [isProcessed, (saveNotifications_ok hsaved).choose_spec.2.2] at hnew
    rw [NotificationDb.processedRows, List.count_eq_zero]
    simpa using hnew
  refine ⟨hnew, fun hempty => ⟨?_, ?_⟩⟩
  · have hall : rows.filter (·.eventId == event.eventId) = rows :=
      List.filter_eq_self.mpr fun row hrow => by simpa using eventId_rows hforall hdrafts row hrow
    rw [NotificationDb.batch] at hempty
    rw [NotificationDb.batch, hrows, List.filter_append, hempty, hall, List.nil_append]
    exact hforall
  · rw [NotificationDb.processedRows] at hnew ⊢
    rw [hprocessed, List.count_append, hnew]
    simp

/-- It leaves the other events as they are. -/
theorem saveEvent_of_ne (h : saveEvent db event drafts faults now = .ok db')
    (hdrafts : ∀ draft ∈ drafts, draft.eventId = event.eventId) {eventId : Uuid}
    (hne : event.eventId ≠ eventId) :
    db'.batch eventId = db.batch eventId ∧
      db'.processedRows eventId = db.processedRows eventId := by
  obtain ⟨rows, hrows, hforall, hprocessed⟩ := saveEvent_ok h
  constructor
  · have hnone : rows.filter (·.eventId == eventId) = [] :=
      List.filter_eq_nil_iff.mpr fun row hrow => by
        simpa [eventId_rows hforall hdrafts row hrow] using hne
    rw [NotificationDb.batch, hrows, List.filter_append, hnone, List.append_nil]
    rfl
  · rw [NotificationDb.processedRows, hprocessed, List.count_append]
    simp [hne, NotificationDb.processedRows]

end

/-! ## Runs -/

theorem Delivered.concat {as : List (ℕ × Action)} {eventId : Uuid} {drafts : List Draft}
    (h : Delivered as eventId drafts) (pa : ℕ × Action) :
    Delivered (as ++ [pa]) eventId drafts := by
  obtain ⟨pre, p, faults, now, event, users, hpre, hrest⟩ := h
  exact ⟨pre, p, faults, now, event, users, hpre.trans (List.prefix_append as [pa]), hrest⟩

/-- After a run an event is unstored, or what one delivery built is stored. -/
theorem stored_run {as : List (ℕ × Action)} (has : ∀ pa ∈ as, pa.2.DistinctUsers)
    (eventId : Uuid) : (run (Shared.step act) init as).db.Unstored eventId ∨
      ∃ drafts, Delivered as eventId drafts ∧ (userIdsOf drafts).Nodup ∧
        (run (Shared.step act) init as).db.Stored eventId drafts := by
  induction as using List.reverseRecOn with
  | nil => exact Or.inl ⟨rfl, rfl⟩
  | append_singleton as pa ih =>
    obtain ⟨p, a⟩ := pa
    have has' : ∀ pa ∈ as, pa.2.DistinctUsers := fun pb hpb => has pb (by simp [hpb])
    set s := run (Shared.step act) init as with hs
    rw [run_append, run_cons, run_nil, ← hs, Shared.step_db]
    rcases act_db_cases a s.db (s.requests p) with
      hsame | ⟨faults, now, event, drafts, rfl, hr, hsaved⟩
    · rw [hsame]
      exact (ih has').imp id fun ⟨drafts, hdelivered, h⟩ => ⟨drafts, hdelivered.concat _, h⟩
    · have hsound := sound_run has' p
      rw [← hs, hr] at hsound
      obtain ⟨⟨users, hbuilt⟩, hnodup⟩ := hsound
      have hdrafts := buildNotifications_eventId hbuilt
      rcases eq_or_ne event.eventId eventId with rfl | hne
      · -- the transaction found the event unprocessed, so it was unstored
        obtain ⟨hnew, hstored⟩ := saveEvent_stores hsaved hdrafts
        rcases ih has' with hun | ⟨_, -, -, hold⟩
        · exact Or.inr ⟨drafts, ⟨as, p, faults, now, event, users, List.prefix_refl _, hr, rfl,
            hbuilt⟩, hnodup, hstored hun.batch⟩
        · rw [hold.processed] at hnew
          exact absurd hnew one_ne_zero
      · obtain ⟨hbatch, hprocessed⟩ := saveEvent_of_ne hsaved hdrafts hne
        refine (ih has').imp (fun hun => ⟨?_, ?_⟩) ?_
        · rw [hbatch, hun.batch]
        · rw [hprocessed, hun.processed]
        · rintro ⟨drafts', hdelivered, hnodup', hold⟩
          refine ⟨drafts', hdelivered.concat _, hnodup', ?_, ?_⟩
          · rw [hbatch]
            exact hold.batch
          · rw [hprocessed, hold.processed]

/-- After any run of concurrent deliveries with no user listed twice, an event has no
processed row and no notifications, or one processed row and the notifications that a
single delivery built; and no user has two notifications for it. -/
theorem storedOnce {as : List (ℕ × Action)} (has : ∀ pa ∈ as, pa.2.DistinctUsers)
    (eventId : Uuid) :
    ((run (Shared.step act) init as).db.Unstored eventId ∨ ∃ drafts,
      Delivered as eventId drafts ∧ (run (Shared.step act) init as).db.Stored eventId drafts) ∧
    ∀ userId,
      ((run (Shared.step act) init as).db.batch eventId).countP (·.userId == userId) ≤ 1 := by
  rcases stored_run has eventId with hun | ⟨drafts, hdelivered, hnodup, hstored⟩
  · refine ⟨Or.inl hun, fun userId => ?_⟩
    rw [hun.batch]
    exact Nat.zero_le 1
  · refine ⟨Or.inr ⟨drafts, hdelivered, hstored⟩, fun userId => ?_⟩
    rw [← map_userId_rows hstored.batch] at hnodup
    have hcount := List.nodup_iff_count_le_one.mp hnodup userId
    rwa [List.count, List.countP_map] at hcount

/-- An overload is delivered twice at once; between the two answers of the user service
the admin changed. -/
def adminsDiffer : List (ℕ × Action) :=
  let event : DomainEvent := ⟨5, .zoneOverloaded, 1, 0, "zone-management-service", 6, uuidOne,
    ⟨none, some uuidOne, none, none, some 9⟩⟩
  let faults : Faults := ⟨false, none, fun _ => false, false, .acknowledged⟩
  [(0, .lookup event), (1, .lookup event),
    (0, .build (some [⟨uuidOne, "dining_admin"⟩])),
    (1, .build (some [⟨"00000000-0000-0000-0000-000000000002", "system_admin"⟩])),
    (1, .save faults 1), (0, .save faults 2)]

theorem adminsDiffer_distinct : ∀ pa ∈ adminsDiffer, pa.2.DistinctUsers := by
  simp [adminsDiffer, Action.DistinctUsers, List.filterMap_cons]
  decide

/-- The second admin is told, and the first is not. -/
theorem adminsDiffer_stored :
    (((run (Shared.step act) init adminsDiffer).db.Unstored 5 ∨ ∃ drafts,
        Delivered adminsDiffer 5 drafts ∧
          (run (Shared.step act) init adminsDiffer).db.Stored 5 drafts) ∧
      ∀ userId, ((run (Shared.step act) init adminsDiffer).db.batch 5).countP
        (·.userId == userId) ≤ 1) ∧
    ((run (Shared.step act) init adminsDiffer).db.batch 5).map (·.userId) = [2] :=
  ⟨storedOnce adminsDiffer_distinct 5, by decide⟩

end Qoms.NotificationService
