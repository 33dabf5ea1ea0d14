import Qoms.QueuePosition

/-!
# Joining the queue again

`joinQueue` looks for the user's active entry after it has counted the active entries of the
zone, and the count includes that entry. So a user in the queue who joins again gets the state
of the entry, and the tables stay as they are, unless the queue is full : then the answer is
"Queue is full" (`rejoin_iff`). The last user a queue took is the case of `lastAdmitted`.
-/

set_option autoImplicit false

namespace Qoms.QueueService

/-! ## What a join checks -/

/-- A zone that has a queue : a dining zone, not closed, whose rules enable it. -/
structure ZoneSummary.TakesQueue (zone : ZoneSummary) : Prop where
  dining : zone.type = .diningZone
  opened : zone.status ≠ .closed
  enabled : zone.rules.map (·.queueEnabled) = some true

section

variable {zoneId hint : Uuid} {user : RequestUserContext} {env : RequestEnv} {zone : ZoneSummary}
  {join : Join} {clock : Clock} {db db' : QueueDb} {e : QueueEntryEntity} {st : QueueState}
  {count : ℕ}

theorem checkJoin_eq_ok_iff (hzone : env.zone = some zone) (htakes : zone.TakesQueue) :
    checkJoin zoneId (some user) env = .ok join ↔
      env.userFound = true ∧ join = ⟨zone, zoneId, user.userId⟩ := by
  obtain ⟨hdining, hopened, henabled⟩ := htakes
  rw [checkJoin, hzone]
  simp only [hdining, henabled, ne_eq, not_true_eq_false, if_false, if_neg hopened,
    Option.getD_some, if_true, bind_pure_comp, map_throw, throw_unless_eq_ok, pure_eq_ok]
  exact and_congr_right fun _ => eq_comm

theorem checkCapacity_eq_ok_iff : checkCapacity db.entries join = .ok count ↔
    activeCount db.entries join.zoneId < maxQueueSize join.zone ∧
      count = activeCount db.entries join.zoneId := by
  simp only [checkCapacity, throw_bind, throw_if_eq_ok, pure_eq_ok, ge_iff_le, not_le]
  exact and_congr_right fun _ => eq_comm

/-- Any of several active entries can be the one the lookup returns. -/
theorem findActiveEntry_self {userId : Uuid} (hkeyed : db.Keyed) (he : e ∈ db.entries)
    (hactive : activeFor zoneId userId e = true) :
    findActiveEntry db.entries zoneId userId e.id = some e := by
  have hfind : (db.entries.find? fun r => activeFor zoneId userId r && r.id == e.id) = some e := by
    cases h : db.entries.find? fun r => activeFor zoneId userId r && r.id == e.id with
    | none => exact absurd (List.find?_eq_none.mp h e he) (by simp [hactive])
    | some r =>
      have hid := List.find?_some h
      rw [Bool.and_eq_true, beq_iff_eq] at hid
      rw [hkeyed.eq_of_id_eq (List.mem_of_find?_eq_some h) he hid.2]
  rw [findActiveEntry, findOne, hfind, Option.some_or]

/-! ## A user in the queue -/

/-- A join that finds an entry succeeds just when the queue has room for one more. -/
theorem joinQueue_existing_iff (hzone : env.zone = some zone) (htakes : zone.TakesQueue)
    (hfind : findActiveEntry db.entries zoneId user.userId hint = some e) :
    joinQueue db zoneId (some user) env hint clock = (.ok st, db') ↔
      (env.userFound = true ∧ activeCount db.entries zoneId < maxQueueSize zone) ∧
        st = buildQueueState db.entries zone e (some (activeCount db.entries zoneId)) ∧
        db' = db := by
  rw [joinQueue]
  cases hjoin : checkJoin zoneId (some user) env with
  | error err =>
    have hnot : ¬env.userFound = true := fun hfound => by
      rw [(checkJoin_eq_ok_iff hzone htakes).mpr ⟨hfound, rfl⟩] at hjoin
      exact absurd hjoin (by simp)
    exact iff_of_false (by simp) fun h => hnot h.1.1
  | ok join =>
    obtain ⟨hfound, rfl⟩ := (checkJoin_eq_ok_iff hzone htakes).mp hjoin
    cases hcount : checkCapacity db.entries ⟨zone, zoneId, user.userId⟩ with
    | error err =>
      have hfull : ¬activeCount db.entries zoneId < maxQueueSize zone := fun hlt => by
        rw [checkCapacity_eq_ok_iff.mpr ⟨hlt, rfl⟩] at hcount
        exact absurd hcount (by simp)
      simp only [hcount, hfull, and_false, false_and]
      simp
    | ok count =>
      obtain ⟨hlt, rfl⟩ := checkCapacity_eq_ok_iff.mp hcount
      simp only [hcount, hfind, Prod.mk.injEq, Except.ok.injEq]
      exact (and_congr eq_comm eq_comm).trans (and_iff_right ⟨hfound, hlt⟩).symm

/-- After a join that succeeded the user has the active entry it returned. -/
theorem joinQueue_eq_ok (hzone : env.zone = some zone) (htakes : zone.TakesQueue)
    (h : joinQueue db zoneId (some user) env hint clock = (.ok st, db')) :
    env.userFound = true ∧ ∃ e ∈ db'.entries, activeFor zoneId user.userId e = true ∧
      st.queueEntryId = e.id := by
  cases hfind : findActiveEntry db.entries zoneId user.userId hint with
  | some e =>
    obtain ⟨hmem, hactive⟩ := findOne_eq_some hfind
    obtain ⟨⟨hfound, -⟩, rfl, rfl⟩ := (joinQueue_existing_iff hzone htakes hfind).mp h
    exact ⟨hfound, e, hmem, hactive, rfl⟩
  | none =>
    rw [joinQueue] at h
    cases hjoin : checkJoin zoneId (some user) env with
    | error err => simp [hjoin] at h
    | ok join =>
      obtain ⟨hfound, rfl⟩ := (checkJoin_eq_ok_iff hzone htakes).mp hjoin
      cases hcount : checkCapacity db.entries ⟨zone, zoneId, user.userId⟩ with
      | error err => simp [hjoin, hcount] at h
      | ok count =>
        simp only [hjoin, hcount, hfind, Prod.mk.injEq, Except.ok.injEq] at h
        obtain ⟨rfl, rfl⟩ := h
        exact ⟨hfound, _, List.mem_append_right _ (List.mem_singleton_self _),
          by simp [activeFor, Join.entry], rfl⟩

/-- A user with an active entry who joins again gets one and changes nothing just when the
queue is not full. -/
theorem rejoin_of_active_iff (hzone : env.zone = some zone) (htakes : zone.TakesQueue)
    (hactive : ∃ e ∈ db.entries, activeFor zoneId user.userId e = true) :
    (∃ e ∈ db.entries, activeFor zoneId user.userId e = true ∧
        joinQueue db zoneId (some user) env hint clock =
          (.ok (buildQueueState db.entries zone e (some (activeCount db.entries zoneId))), db)) ↔
      env.userFound = true ∧ activeCount db.entries zoneId < maxQueueSize zone := by
  cases hfind : findActiveEntry db.entries zoneId user.userId hint with
  | none =>
    obtain ⟨e, he, hactive⟩ := hactive
    exact absurd (findOne_eq_none.mp hfind e he) (by simp [hactive])
  | some e =>
    constructor
    · rintro ⟨_, -, -, heq⟩
      exact ((joinQueue_existing_iff hzone htakes hfind).mp heq).1
    · intro hroom
      obtain ⟨hmem, hactive⟩ := findOne_eq_some hfind
      exact ⟨e, hmem, hactive,
        (joinQueue_existing_iff hzone htakes hfind).mpr ⟨hroom, rfl, rfl⟩⟩

/-- A join after one that succeeded gets the same entry, whichever the lookup returns, just
when the queue is not full and the user has one entry only. -/
theorem rejoin_after_iff (hkeyed : db'.Keyed) (hzone : env.zone = some zone)
    (htakes : zone.TakesQueue)
    (h : joinQueue db zoneId (some user) env hint clock = (.ok st, db')) :
    (∀ hint' clock', ∃ st', joinQueue db' zoneId (some user) env hint' clock' = (.ok st', db') ∧
        st'.queueEntryId = st.queueEntryId) ↔
      activeCount db'.entries zoneId < maxQueueSize zone ∧
        db'.entries.countP (activeFor zoneId user.userId) = 1 := by
  obtain ⟨hfound, e, he, hactive, hid⟩ := joinQueue_eq_ok hzone htakes h
  rw [hid, countP_eq_one_iff (List.Nodup.of_map _ hkeyed.nodup) he hactive]
  constructor
  · intro hsame
    refine ⟨?_, fun x hx hx' => ?_⟩
    · obtain ⟨st', hjoin, -⟩ := hsame e.id clock
      exact ((joinQueue_existing_iff hzone htakes
        (findActiveEntry_self hkeyed he hactive)).mp hjoin).1.2
    · obtain ⟨st', hjoin, hid'⟩ := hsame x.id clock
      obtain ⟨-, rfl, -⟩ := (joinQueue_existing_iff hzone htakes
        (findActiveEntry_self hkeyed hx hx')).mp hjoin
      exact hkeyed.eq_of_id_eq hx he hid'
  · rintro ⟨hroom, hone⟩ hint' clock'
    cases hfind : findActiveEntry db'.entries zoneId user.userId hint' with
    | none => exact absurd (findOne_eq_none.mp hfind e he) (by simp [hactive])
    | some x =>
      obtain ⟨hx, hx'⟩ := findOne_eq_some hfind
      obtain rfl := hone x hx hx'
      exact ⟨_, (joinQueue_existing_iff hzone htakes hfind).mpr ⟨⟨hfound, hroom⟩, rfl, rfl⟩, rfl⟩

end

/-- The tables after a join that came to a reachable state are keyed. -/
theorem keyed_joinQueue (as : List (ℕ × Action)) (zoneId : Uuid)
    (user : Option RequestUserContext) (env : RequestEnv) (hint : Uuid) (clock : Clock) :
    (joinQueue (run (Shared.step act) init as).db zoneId user env hint clock).2.Keyed := by
  obtain ⟨p, hp⟩ := Shared.exists_bound as
  have hidle : (run (Shared.step act) init as).requests p = .idle :=
    Shared.run_requests_of_absent fun pa hpa => (hp pa hpa).ne
  rw [← run_join _ p hidle, ← run_append]
  exact keyed_run _

/-- In every reachable state, for a zone that has a queue : a user with an active entry who
joins again gets such an entry and changes nothing, exactly when the user service knows the
user and the queue is not full. After a join that succeeded, the next gets the same entry and
changes nothing, exactly when the queue is not full now and the user has no second entry. -/
theorem rejoin_iff (as : List (ℕ × Action)) (zoneId : Uuid) (user : RequestUserContext)
    (env : RequestEnv) (zone : ZoneSummary) (hint : Uuid) (clock : Clock)
    (hzone : env.zone = some zone) (htakes : zone.TakesQueue) :
    let db := (run (Shared.step act) init as).db
    ((∃ e ∈ db.entries, activeFor zoneId user.userId e = true) →
      ((∃ e ∈ db.entries, activeFor zoneId user.userId e = true ∧
          joinQueue db zoneId (some user) env hint clock = (.ok
            (buildQueueState db.entries zone e (some (activeCount db.entries zoneId))), db)) ↔
        env.userFound = true ∧ activeCount db.entries zoneId < maxQueueSize zone)) ∧
    ∀ st db', joinQueue db zoneId (some user) env hint clock = (.ok st, db') →
      ((∀ hint' clock', ∃ st',
          joinQueue db' zoneId (some user) env hint' clock' = (.ok st', db') ∧
            st'.queueEntryId = st.queueEntryId) ↔
        activeCount db'.entries zoneId < maxQueueSize zone ∧
          db'.entries.countP (activeFor zoneId user.userId) = 1) := by
  refine ⟨rejoin_of_active_iff hzone htakes, fun st db' hjoin => ?_⟩
  have hkeyed := keyed_joinQueue as zoneId (some user) env hint clock
  rw [hjoin] at hkeyed
  exact rejoin_after_iff hkeyed hzone htakes hjoin

/-- A zone whose queue takes two users. -/
def smallZone : ZoneSummary :=
  ⟨1, .diningZone, .open, 10, some ⟨true, 2, 4, by decide, by decide⟩⟩

theorem smallZone_takesQueue : smallZone.TakesQueue :=
  ⟨rfl, by decide, rfl⟩

/-- Two users join, the one after the other. -/
def lastAdmitted : List (ℕ × Action) :=
  [(0, .join 1 (some ⟨7, .student⟩) ⟨some smallZone, true⟩), (0, .lookup 0), (0, .begin 1000),
    (0, .commit 1), (1, .join 1 (some ⟨8, .student⟩) ⟨some smallZone, true⟩), (1, .lookup 0),
    (1, .begin 2000), (1, .commit 2)]

/-- The last user has an active entry, and is told that the queue is full. -/
theorem lastAdmitted_refused : smallZone.TakesQueue ∧
    (∃ e ∈ (run (Shared.step act) init lastAdmitted).db.entries, activeFor 1 8 e = true) ∧
    (joinQueue (run (Shared.step act) init lastAdmitted).db 1 (some ⟨8, .student⟩)
      ⟨some smallZone, true⟩ 0 ⟨3, 3000⟩).1 = .error (.badRequest "Queue is full") :=
  ⟨smallZone_takesQueue, by decide, rfl⟩

/-- The same in a queue with room. -/
theorem rejoin_iff_diningEnv : ∃ zone, diningEnv.zone = some zone ∧ zone.TakesQueue ∧
    ∃ e ∈ (run (Shared.step act) init firstInLine).db.entries, activeFor 1 7 e = true ∧
      joinQueue (run (Shared.step act) init firstInLine).db 1 (some ⟨7, .student⟩) diningEnv 0
        ⟨2, 2⟩ = (.ok (buildQueueState (run (Shared.step act) init firstInLine).db.entries zone e
          (some (activeCount (run (Shared.step act) init firstInLine).db.entries 1))),
        (run (Shared.step act) init firstInLine).db) := by
  refine ⟨_, rfl, ⟨rfl, by decide, rfl⟩, ?_⟩
  exact ((rejoin_iff firstInLine 1 ⟨7, .student⟩ diningEnv _ 0 ⟨2, 2⟩ rfl
    ⟨rfl, by decide, rfl⟩).1 (by decide)).mpr (by decide)

end Qoms.QueueService
