import Qoms.Queue
import Qoms.Shared

/-!
# Concurrent queue requests

`joinQueue` is four database steps : the count of the zone's active entries, the lookup
of the user's own, the begin of the insert transaction, which fixes `joined_at`, and its
commit. `leaveQueue` is three : the lookup, the count, and the transaction that saves the
entry as left. Any number of requests take these steps in any order (`act`, `System`); a
statement sees the rows committed before it, and the table has no constraint but its
primary key.

Nothing an entry's lookup or count saw need hold when the entry is committed. A user who
clicks twice gets two entries (`doubleClick`), and two users get the one place of a zone
(`lastPlace`). `oneEntryPerUser_iff_noneSince` and `activeCount_le_iff_room` say exactly
which runs keep one entry for each user, and the size of a zone's queue : at each commit,
nothing that came in after the lookup is active, or what came in after the count left
room. `run_join` and `run_leave` tie the steps to the sequential functions.
-/

set_option autoImplicit false

namespace Qoms.QueueService

/-! ## Requests in flight -/

/-- Where a request stands. `countSeen` and `lookupSeen` are the tables that the count and the
lookup saw, which no step reads. -/
inductive Request
  | idle
  | counted (join : Join) (count : ℕ) (countSeen : List QueueEntryEntity)
  | vacant (join : Join) (count : ℕ) (countSeen lookupSeen : List QueueEntryEntity)
  | begun (join : Join) (count : ℕ) (countSeen lookupSeen : List QueueEntryEntity)
      (joinedAt : ℤ)
  | leaving (entry : QueueEntryEntity)
  | ready (entry : QueueEntryEntity) (nextCount : ℕ) (countSeen : List QueueEntryEntity)
  | finished

/-- The tables and the requests. -/
abbrev System := Shared QueueDb Request

/-- Empty tables and no request in flight. -/
def init : System :=
  ⟨.empty, fun _ => .idle⟩

/-- One step of a request : a query, the begin or the end of a transaction, or a
transaction that rolls back. -/
inductive Action
  | join (zoneId : Uuid) (user : Option RequestUserContext) (env : RequestEnv)
  | lookup (hint : Uuid)
  | begin (dbNow : ℤ)
  | commit (now : ℤ)
  | leave (zoneId : Uuid) (user : Option RequestUserContext) (env : RequestEnv) (hint : Uuid)
  | count
  | save (clock : Clock)
  | abort

/-- What a step does; a step that is not the request's next one does nothing. -/
def act : Action → QueueDb → Request → QueueDb × Request
  | .join zoneId user env, db, .idle =>
    match checkJoin zoneId user env with
    | .error _ => (db, .finished)
    | .ok join =>
      match checkCapacity db.entries join with
      | .error _ => (db, .finished)
      | .ok count => (db, .counted join count db.entries)
  | .lookup hint, db, .counted join count countSeen =>
    match findActiveEntry db.entries join.zoneId join.userId hint with
    | some _ => (db, .finished)
    | none => (db, .vacant join count countSeen db.entries)
  | .begin dbNow, db, .vacant join count countSeen lookupSeen =>
    (db, .begun join count countSeen lookupSeen dbNow)
  | .commit now, db, .begun join count _ _ joinedAt =>
    ((insertEntry db join count ⟨now, joinedAt⟩).2, .finished)
  | .leave zoneId user env hint, db, .idle =>
    match findLeaving db.entries zoneId user env hint with
    | .error _ => (db, .finished)
    | .ok entry => (db, .leaving entry)
  | .count, db, .leaving entry =>
    (db, .ready entry (nextCount db.entries entry.zoneId) db.entries)
  | .save clock, db, .ready entry nextCount _ => (saveLeft db entry nextCount clock, .finished)
  | .abort, db, .begun _ _ _ _ _ => (db, .finished)
  | .abort, db, .ready _ _ _ => (db, .finished)
  | _, db, request => (db, request)

/-- The step is the request's next one. -/
def Enabled : Action → Request → Prop
  | .join _ _ _, .idle => True
  | .lookup _, .counted _ _ _ => True
  | .begin _, .vacant _ _ _ _ => True
  | .commit _, .begun _ _ _ _ _ => True
  | .leave _ _ _ _, .idle => True
  | .count, .leaving _ => True
  | .save _, .ready _ _ _ => True
  | .abort, .begun _ _ _ _ _ => True
  | .abort, .ready _ _ _ => True
  | _, _ => False

/-- What a step can do. -/
inductive Moves (db : QueueDb) : Action → Request → QueueDb → Request → Prop
  | stay {a : Action} {r : Request} (hnot : ¬Enabled a r) : Moves db a r db r
  | refuse (a : Action) : Moves db a .idle db .finished
  | abort (r : Request) : Moves db .abort r db .finished
  | counted {zoneId : Uuid} {user : Option RequestUserContext} {env : RequestEnv} {join : Join}
      {count : ℕ} (hjoin : checkJoin zoneId user env = .ok join)
      (hcount : checkCapacity db.entries join = .ok count) :
      Moves db (.join zoneId user env) .idle db (.counted join count db.entries)
  | existing (hint : Uuid) (join : Join) (count : ℕ) (countSeen : List QueueEntryEntity) :
      Moves db (.lookup hint) (.counted join count countSeen) db .finished
  | vacant {hint : Uuid} {join : Join} {count : ℕ} {countSeen : List QueueEntryEntity}
      (hnone : findActiveEntry db.entries join.zoneId join.userId hint = none) :
      Moves db (.lookup hint) (.counted join count countSeen) db
        (.vacant join count countSeen db.entries)
  | begin (dbNow : ℤ) (join : Join) (count : ℕ) (countSeen lookupSeen : List QueueEntryEntity) :
      Moves db (.begin dbNow) (.vacant join count countSeen lookupSeen) db
        (.begun join count countSeen lookupSeen dbNow)
  | commit (now : ℤ) (join : Join) (count : ℕ) (countSeen lookupSeen : List QueueEntryEntity)
      (joinedAt : ℤ) :
      Moves db (.commit now) (.begun join count countSeen lookupSeen joinedAt)
        (insertEntry db join count ⟨now, joinedAt⟩).2 .finished
  | leaving {zoneId : Uuid} {user : Option RequestUserContext} {env : RequestEnv} {hint : Uuid}
      {entry : QueueEntryEntity}
      (hfind : findLeaving db.entries zoneId user env hint = .ok entry) :
      Moves db (.leave zoneId user env hint) .idle db (.leaving entry)
  | count (entry : QueueEntryEntity) :
      Moves db .count (.leaving entry) db
        (.ready entry (nextCount db.entries entry.zoneId) db.entries)
  | save (clock : Clock) (entry : QueueEntryEntity) (nextCount : ℕ)
      (countSeen : List QueueEntryEntity) :
      Moves db (.save clock) (.ready entry nextCount countSeen)
        (saveLeft db entry nextCount clock) .finished

theorem act_moves (a : Action) (db : QueueDb) (r : Request) :
    Moves db a r (act a db r).1 (act a db r).2 := by
  unfold act
  split
  · split
    · exact .refuse _
    · rename_i hjoin
      split
      · exact .refuse _
      · rename_i hcount
        exact .counted hjoin hcount
  · split
    · exact .existing _ _ _ _
    · rename_i hnone
      exact .vacant hnone
  · exact .begin _ _ _ _ _
  · exact .commit _ _ _ _ _ _
  · split
    · exact .refuse _
    · rename_i hfind
      exact .leaving hfind
  · exact .count _
  · exact .save _ _ _ _
  · exact .abort _
  · exact .abort _
  · refine .stay ?_
    cases a <;> cases r <;> grind [Enabled]

/-! ## The invariant -/

/-- `b` is a later version of the row `a` : the same entry, and not active again. -/
def Ages (a b : QueueEntryEntity) : Prop :=
  a.id = b.id ∧ a.zoneId = b.zoneId ∧ a.userId = b.userId ∧ a.joinedAt = b.joinedAt ∧
    (b.status = .active → a.status = .active)

theorem Ages.refl (a : QueueEntryEntity) : Ages a a :=
  ⟨rfl, rfl, rfl, rfl, id⟩

theorem Ages.trans (a b c : QueueEntryEntity) (hab : Ages a b) (hbc : Ages b c) : Ages a c := by
  obtain ⟨hid, hz, hu, ht, hs⟩ := hab
  obtain ⟨hid', hz', hu', ht', hs'⟩ := hbc
  exact ⟨hid.trans hid', hz.trans hz', hu.trans hu', ht.trans ht', fun h => hs (hs' h)⟩

/-- Leaving ages the entry. -/
theorem Ages.leave (a : QueueEntryEntity) (now : ℤ) : Ages a (a.leave now) :=
  ⟨rfl, rfl, rfl, rfl, fun h => absurd h (by simp [QueueEntryEntity.leave])⟩

/-- A left version of a row is a version of each of its versions. -/
theorem Ages.left {mem : QueueEntryEntity} {now : ℤ} (a b : QueueEntryEntity)
    (hab : Ages a b) (hmem : Ages a (mem.leave now)) : Ages b (mem.leave now) := by
  obtain ⟨hid, hz, hu, ht, -⟩ := hab
  obtain ⟨hid', hz', hu', ht', -⟩ := hmem
  exact ⟨hid.symm.trans hid', hz.symm.trans hz', hu.symm.trans hu', ht.symm.trans ht',
    fun h => absurd h (by simp [QueueEntryEntity.leave])⟩

/-- The tables of `db'` grew from those of `db`. -/
def QueueDb.Grows (db db' : QueueDb) : Prop :=
  Qoms.Grows (·.id) Ages db.entries db.uuids db'.entries db'.uuids

/-- The count was taken in a table that the present one grew from, and left a place. -/
structure Join.Counted (join : Join) (count : ℕ) (countSeen : List QueueEntryEntity)
    (db : QueueDb) : Prop where
  later : Later Ages countSeen db.entries
  count_eq : count = activeCount countSeen join.zoneId
  count_lt : count < maxQueueSize join.zone

/-- The lookup found nothing in a table that the present one grew from. -/
structure Join.Vacant (join : Join) (lookupSeen : List QueueEntryEntity) (db : QueueDb) :
    Prop where
  later : Later Ages lookupSeen db.entries
  none_active : lookupSeen.countP (activeFor join.zoneId join.userId) = 0

/-- The count of a leave was taken in a table that the present one grew from. -/
structure LeaveCounted (entry : QueueEntryEntity) (next : ℕ) (countSeen : List QueueEntryEntity)
    (db : QueueDb) : Prop where
  later : Later Ages countSeen db.entries
  nodup : (countSeen.map (·.id)).Nodup
  next_eq : next = nextCount countSeen entry.zoneId

/-- What a request relies on. -/
def Request.Sound (db : QueueDb) : Request → Prop
  | .counted join count countSeen => join.Counted count countSeen db
  | .vacant join count countSeen lookupSeen =>
    join.Counted count countSeen db ∧ join.Vacant lookupSeen db
  | .begun join count countSeen lookupSeen _ =>
    join.Counted count countSeen db ∧ join.Vacant lookupSeen db
  | .leaving entry => ∀ now, Holds (·.id) Ages (entry.leave now) db.entries db.uuids
  | .ready entry nextCount countSeen =>
    (∀ now, Holds (·.id) Ages (entry.leave now) db.entries db.uuids) ∧
      LeaveCounted entry nextCount countSeen db
  | _ => True

theorem Join.Counted.grows {db db' : QueueDb} {join : Join} {count : ℕ}
    {countSeen : List QueueEntryEntity} (h : join.Counted count countSeen db)
    (hgrows : db.Grows db') : join.Counted count countSeen db' :=
  ⟨h.later.trans Ages.trans hgrows.later, h.count_eq, h.count_lt⟩

theorem Join.Vacant.grows {db db' : QueueDb} {join : Join} {lookupSeen : List QueueEntryEntity}
    (h : join.Vacant lookupSeen db) (hgrows : db.Grows db') : join.Vacant lookupSeen db' :=
  ⟨h.later.trans Ages.trans hgrows.later, h.none_active⟩

theorem LeaveCounted.grows {db db' : QueueDb} {entry : QueueEntryEntity} {next : ℕ}
    {countSeen : List QueueEntryEntity} (h : LeaveCounted entry next countSeen db)
    (hgrows : db.Grows db') : LeaveCounted entry next countSeen db' :=
  ⟨h.later.trans Ages.trans hgrows.later, h.nodup, h.next_eq⟩

theorem Request.Sound.grows {db db' : QueueDb} {r : Request} (h : r.Sound db)
    (hgrows : db.Grows db') : r.Sound db' := by
  cases r with
  | counted join count countSeen => exact Join.Counted.grows h hgrows
  | vacant join count countSeen lookupSeen => exact ⟨h.1.grows hgrows, h.2.grows hgrows⟩
  | begun join count countSeen lookupSeen joinedAt => exact ⟨h.1.grows hgrows, h.2.grows hgrows⟩
  | leaving entry => exact fun now => (h now).grows (fun _ _ hab => hab.1) Ages.left hgrows
  | ready entry nextCount countSeen =>
    exact ⟨fun now => (h.1 now).grows (fun _ _ hab => hab.1) Ages.left hgrows, h.2.grows hgrows⟩
  | _ => trivial

/-- Row ids are distinct and drawn. -/
def QueueDb.Keyed (db : QueueDb) : Prop :=
  Qoms.Keyed (·.id) db.entries db.uuids

theorem safe_init : init.Safe QueueDb.Keyed fun db r => r.Sound db :=
  ⟨Keyed.nil, fun _ => trivial⟩

/-- A step keeps the tables keyed, only lets them grow, and leaves its request sound. -/
theorem Moves.guarantees {db db' : QueueDb} {a : Action} {r r' : Request}
    (h : Moves db a r db' r') (hkeyed : db.Keyed) (hsound : r.Sound db) :
    Shared.Guarantees QueueDb.Keyed (fun db r => r.Sound db) QueueDb.Grows db (db', r') := by
  have hsame : db.Grows db := Grows.refl Ages.refl _ _
  cases h with
  | stay => exact ⟨hkeyed, hsame, hsound⟩
  | refuse => exact ⟨hkeyed, hsame, trivial⟩
  | abort => exact ⟨hkeyed, hsame, trivial⟩
  | counted hjoin hcount =>
    obtain ⟨heq, hlt⟩ := checkCapacity_ok hcount
    exact ⟨hkeyed, hsame, Later.refl Ages.refl _, heq, hlt⟩
  | existing => exact ⟨hkeyed, hsame, trivial⟩
  | vacant hnone =>
    refine ⟨hkeyed, hsame, hsound, Later.refl Ages.refl _, ?_⟩
    rw [List.countP_eq_zero]
    intro e he
    simp [findOne_eq_none.mp hnone e he]
  | begin => exact ⟨hkeyed, hsame, hsound⟩
  | commit now join count countSeen lookupSeen joinedAt =>
    have hle : db.uuids ≤ (join.entry (db.uuids + 1) joinedAt).id := Nat.le_succ _
    have hlt : (join.entry (db.uuids + 1) joinedAt).id <
        (insertEntry db join count ⟨now, joinedAt⟩).2.uuids :=
      Nat.lt_add_of_pos_right (n := db.uuids + 1) (k := 5) (by decide)
    exact ⟨hkeyed.insert hle hlt, Grows.insert Ages.refl hle hlt, trivial⟩
  | leaving hfind =>
    exact ⟨hkeyed, hsame, fun now =>
      Holds.of_mem hkeyed (findLeaving_ok hfind).1 rfl (Ages.leave _ now)⟩
  | count => exact ⟨hkeyed, hsame, hsound, Later.refl Ages.refl _, hkeyed.nodup, rfl⟩
  | save clock entry nextCount countSeen =>
    have hholds := hsound.1 clock.now
    have hle : db.uuids ≤ (saveLeft db entry nextCount clock).uuids := Nat.le_add_right _ 5
    exact ⟨hkeyed.saveRow hholds.drawn hle, Grows.saveRow Ages.refl hholds hle, trivial⟩

/-! ## One active entry for each user -/

/-- At most one active entry for each zone and user. -/
def UniqueActive (entries : List QueueEntryEntity) : Prop :=
  ∀ zoneId userId, entries.countP (activeFor zoneId userId) ≤ 1

/-- If the step is a commit, no entry of its zone and user that was inserted after the
request's lookup is active. -/
def NoneSince : Action → QueueDb → Request → Prop
  | .commit _, db, .begun join _ _ lookupSeen _ => ∀ e ∈ db.entries.drop lookupSeen.length,
    activeFor join.zoneId join.userId e = false
  | _, _, _ => True

theorem noneSince_of_not_enabled {a : Action} {db : QueueDb} {r : Request}
    (h : ¬Enabled a r) : NoneSince a db r := by
  cases a <;> cases r <;> first | trivial | exact absurd trivial h

theorem activeFor_of_ages {zoneId userId : Uuid} (a b : QueueEntryEntity) (h : Ages a b)
    (hb : activeFor zoneId userId b = true) : activeFor zoneId userId a = true := by
  obtain ⟨-, hz, hu, -, hs⟩ := h
  simp only [activeFor, Bool.and_eq_true, beq_iff_eq] at hb ⊢
  rw [hz, hu]
  exact ⟨⟨hs hb.1.1, hb.1.2⟩, hb.2⟩

theorem uniqueActive_insert_iff {entries : List QueueEntryEntity} (h : UniqueActive entries)
    (join : Join) (id : Uuid) (joinedAt : ℤ) : UniqueActive (entries ++ [join.entry id joinedAt]) ↔
      entries.countP (activeFor join.zoneId join.userId) = 0 := by
  have hself : activeFor join.zoneId join.userId (join.entry id joinedAt) = true := by
    simp [activeFor, Join.entry]
  constructor
  · intro hnew
    have := hnew join.zoneId join.userId
    rw [List.countP_append, List.countP_singleton, if_pos hself] at this
    omega
  · intro hzero zoneId userId
    have hle := h zoneId userId
    rw [List.countP_append, List.countP_singleton]
    split_ifs with hkey
    · simp only [activeFor, Join.entry, Bool.and_eq_true, beq_iff_eq] at hkey
      obtain ⟨⟨-, rfl⟩, rfl⟩ := hkey
      omega
    · omega

/-- One step keeps the active entries unique just when it meets the condition. -/
theorem uniqueActive_act_iff {db : QueueDb} (a : Action) {r : Request} (hsound : r.Sound db)
    (h : UniqueActive db.entries) :
    UniqueActive (act a db r).1.entries ↔ NoneSince a db r := by
  have hmoves := act_moves a db r
  generalize (act a db r).1 = db' at hmoves ⊢
  generalize (act a db r).2 = r' at hmoves
  cases hmoves with
  | stay hnot => exact ⟨fun _ => noneSince_of_not_enabled hnot, fun _ => h⟩
  | refuse => exact ⟨fun _ => by cases a <;> trivial, fun _ => h⟩
  | commit now join count countSeen lookupSeen joinedAt =>
    obtain ⟨-, hlater, hzero⟩ := hsound
    rw [insertEntry_entries, uniqueActive_insert_iff h,
      hlater.countP_eq_zero_iff activeFor_of_ages hzero]
    rfl
  | save clock entry nextCount countSeen =>
    rw [saveLeft_entries]
    exact ⟨fun _ => trivial, fun _ zoneId userId =>
      (countP_saveRow_le activeFor_of_ages (hsound.1 clock.now)).trans (h zoneId userId)⟩
  | _ => exact ⟨fun _ => trivial, fun _ => h⟩

/-- Throughout a run of concurrent requests each user has at most one active entry in each
zone, exactly when at each commit of the run no entry of its zone and user inserted since
its lookup is active. -/
theorem oneEntryPerUser_iff_noneSince (as : List (ℕ × Action)) :
    Throughout (Shared.step act) init as (fun s => UniqueActive s.db.entries) ↔
      EachStep (Shared.step act) init as fun s pa => NoneSince pa.2 s.db (s.requests pa.1) :=
  Shared.throughout_iff_eachStep (fun _ => True) QueueDb.Grows
    (fun db => UniqueActive db.entries) NoneSince
    (fun a db r _ hkeyed hsound => (act_moves a db r).guarantees hkeyed hsound)
    (fun _ _ _ hgrows hsound => hsound.grows hgrows)
    (fun a _ _ _ hsound h => uniqueActive_act_iff a hsound h)
    safe_init (by simp [UniqueActive, init, QueueDb.empty])
    fun _ _ => trivial

/-- A user joins twice; both lookups run before the first commit. -/
def doubleClick : List (ℕ × Action) :=
  let zone : ZoneSummary := ⟨1, .diningZone, .open, 10, some ⟨true, 5, 3, by decide, by decide⟩⟩
  let env : RequestEnv := ⟨some zone, true⟩
  [(0, .join 1 (some ⟨7, .student⟩) env), (1, .join 1 (some ⟨7, .student⟩) env),
    (0, .lookup 0), (1, .lookup 0), (0, .begin 1), (0, .commit 1), (1, .begin 2),
    (1, .commit 2)]

/-- Both entries are active. -/
theorem doubleClick_not_unique :
    ¬UniqueActive (run (Shared.step act) init doubleClick).db.entries := by
  intro h
  exact absurd (h 1 7) (by decide)

/-- A dining zone whose queue takes five, and the requests' answers for it. -/
def diningEnv : RequestEnv :=
  ⟨some ⟨1, .diningZone, .open, 10, some ⟨true, 5, 3, by decide, by decide⟩⟩, true⟩

/-! ## The size of a zone's queue -/

/-- If the step is a join of the zone, the zone it fetched has the queue size `m`. -/
def Action.FetchesSize (zoneId : Uuid) (m : ℕ) : Action → Prop
  | .join zoneId' _ env => zoneId' = zoneId → ∀ zone, env.zone = some zone → maxQueueSize zone = m
  | _ => True

/-- If the request joins the zone, it compares its count with `m`. -/
def Request.HasSize (zoneId : Uuid) (m : ℕ) : Request → Prop
  | .counted join _ _ => join.zoneId = zoneId → maxQueueSize join.zone = m
  | .vacant join _ _ _ => join.zoneId = zoneId → maxQueueSize join.zone = m
  | .begun join _ _ _ _ => join.zoneId = zoneId → maxQueueSize join.zone = m
  | _ => True

theorem Moves.hasSize {db db' : QueueDb} {a : Action} {r r' : Request} {zoneId : Uuid} {m : ℕ}
    (h : Moves db a r db' r') (ha : a.FetchesSize zoneId m) (hsize : r.HasSize zoneId m) :
    r'.HasSize zoneId m := by
  cases h with
  | counted hjoin hcount =>
    obtain ⟨hz, hzone, -⟩ := checkJoin_ok hjoin
    exact fun hz' => ha (hz.symm.trans hz') _ hzone
  | stay | vacant | begin => exact hsize
  | _ => trivial

/-- If the step is a commit into the zone, the entries of the zone that came in since the
request's count and are active still are fewer than the places the count left, with the
places freed since by entries the count saw. -/
def Room (zoneId : Uuid) : Action → QueueDb → Request → Prop
  | .commit _, db, .begun join count countSeen _ _ => join.zoneId = zoneId →
    arrived (activeIn zoneId) countSeen db.entries <
      maxQueueSize join.zone - count + departed (activeIn zoneId) countSeen db.entries
  | _, _, _ => True

theorem room_of_not_enabled {zoneId : Uuid} {a : Action} {db : QueueDb} {r : Request}
    (h : ¬Enabled a r) : Room zoneId a db r := by
  cases a <;> cases r <;> first | trivial | exact absurd trivial h

theorem activeIn_of_ages {zoneId : Uuid} (a b : QueueEntryEntity) (h : Ages a b)
    (hb : activeIn zoneId b = true) : activeIn zoneId a = true := by
  obtain ⟨-, hz, -, -, hs⟩ := h
  simp only [activeIn, Bool.and_eq_true, beq_iff_eq] at hb ⊢
  rw [hz]
  exact ⟨hs hb.1, hb.2⟩

theorem activeCount_insert (entries : List QueueEntryEntity) (join : Join) (id zoneId : Uuid)
    (joinedAt : ℤ) : activeCount (entries ++ [join.entry id joinedAt]) zoneId =
      activeCount entries zoneId + if join.zoneId = zoneId then 1 else 0 := by
  simp [activeCount, activeIn, Join.entry, List.countP_append, List.countP_singleton]

/-- A count that left a place leaves one still, just when there is room. -/
theorem Join.Counted.activeCount_lt_iff {db : QueueDb} {join : Join} {count : ℕ}
    {countSeen : List QueueEntryEntity} (h : join.Counted count countSeen db) :
    activeCount db.entries join.zoneId < maxQueueSize join.zone ↔
      arrived (activeIn join.zoneId) countSeen db.entries <
        maxQueueSize join.zone - count +
          departed (activeIn join.zoneId) countSeen db.entries := by
  have hiff := h.later.count_lt_iff (@activeIn_of_ages join.zoneId)
    (maxQueueSize join.zone)
  have heq := h.count_eq
  have hlt := h.count_lt
  rw [activeCount] at heq ⊢
  rw [hiff]
  omega

/-- One step keeps the queue of the zone within its size just when it has room. -/
theorem activeCount_act_iff {db : QueueDb} {zoneId : Uuid} {m : ℕ} (a : Action) {r : Request}
    (hsound : r.Sound db) (hsize : r.HasSize zoneId m) (h : activeCount db.entries zoneId ≤ m) :
    activeCount (act a db r).1.entries zoneId ≤ m ↔ Room zoneId a db r := by
  have hmoves := act_moves a db r
  generalize (act a db r).1 = db' at hmoves ⊢
  generalize (act a db r).2 = r' at hmoves
  cases hmoves with
  | stay hnot => exact ⟨fun _ => room_of_not_enabled hnot, fun _ => h⟩
  | refuse => exact ⟨fun _ => by cases a <;> trivial, fun _ => h⟩
  | commit now join count countSeen lookupSeen joinedAt =>
    rw [insertEntry_entries, activeCount_insert]
    by_cases hz : join.zoneId = zoneId
    · obtain rfl := hz
      have hroom := hsound.1.activeCount_lt_iff
      rw [hsize rfl] at hroom
      simp only [if_true, Room, true_implies, hsize rfl]
      rw [← hroom]
      exact Nat.succ_le_iff
    · rw [if_neg hz]
      exact ⟨fun _ hz' => absurd hz' hz, fun _ => h⟩
  | save clock entry nextCount countSeen =>
    rw [saveLeft_entries]
    exact ⟨fun _ => trivial, fun _ =>
      (countP_saveRow_le activeIn_of_ages (hsound.1 clock.now)).trans h⟩
  | _ => exact ⟨fun _ => trivial, fun _ => h⟩

/-- From a zone with an empty queue whose `maxQueueSize` stays `m` : throughout a run of
concurrent requests the zone has at most `m` active entries, exactly when each commit of
the run into the zone has room. -/
theorem activeCount_le_iff_room {s : System} {zoneId : Uuid} {m : ℕ} {as : List (ℕ × Action)}
    (hkeyed : s.db.Keyed) (hidle : ∀ p, s.requests p = .idle)
    (hempty : activeCount s.db.entries zoneId = 0)
    (hsize : ∀ pa ∈ as, pa.2.FetchesSize zoneId m) :
    Throughout (Shared.step act) s as (fun t => activeCount t.db.entries zoneId ≤ m) ↔
      EachStep (Shared.step act) s as fun t pa => Room zoneId pa.2 t.db (t.requests pa.1) := by
  have hsafe : s.Safe QueueDb.Keyed fun db r => r.Sound db ∧ r.HasSize zoneId m := by
    refine ⟨hkeyed, fun p => ?_⟩
    rw [hidle p]
    exact ⟨trivial, trivial⟩
  refine Shared.throughout_iff_eachStep (Action.FetchesSize zoneId m) QueueDb.Grows
    (fun db => activeCount db.entries zoneId ≤ m) (Room zoneId) (fun a db r ha hk hs => ?_) ?_ ?_
    hsafe (by omega) hsize
  · have hmoves := act_moves a db r
    obtain ⟨hk', hgrows, hsound⟩ := hmoves.guarantees hk hs.1
    exact ⟨hk', hgrows, hsound, hmoves.hasSize ha hs.2⟩
  · exact fun _ _ _ hgrows hs => ⟨hs.1.grows hgrows, hs.2⟩
  · exact fun a _ _ _ hs h => activeCount_act_iff a hs.1 hs.2 h

/-- Two users join a zone whose queue has one place; both counts run before the first
commit. -/
def lastPlace : List (ℕ × Action) :=
  let zone : ZoneSummary := ⟨1, .diningZone, .open, 10, some ⟨true, 1, 3, by decide, by decide⟩⟩
  let env : RequestEnv := ⟨some zone, true⟩
  [(0, .join 1 (some ⟨7, .student⟩) env), (1, .join 1 (some ⟨8, .student⟩) env),
    (0, .lookup 0), (1, .lookup 0), (0, .begin 1), (1, .begin 2), (0, .commit 1),
    (1, .commit 2)]

theorem lastPlace_fetchesSize : ∀ pa ∈ lastPlace, pa.2.FetchesSize 1 1 := by
  simp [lastPlace, Action.FetchesSize, maxQueueSize]

/-- Both users are in the queue of size one. -/
theorem lastPlace_overshoots : (∀ pa ∈ lastPlace, pa.2.FetchesSize 1 1) ∧
    activeCount (run (Shared.step act) init lastPlace).db.entries 1 = 2 :=
  ⟨lastPlace_fetchesSize, by decide⟩

/-- So a commit of the run had no room. -/
theorem lastPlace_not_room : ¬EachStep (Shared.step act) init lastPlace
    fun s pa => Room 1 pa.2 s.db (s.requests pa.1) := by
  intro h
  have hle := ((activeCount_le_iff_room (s := init) (m := 1) Keyed.nil (fun _ => rfl) rfl
    lastPlace_fetchesSize).mpr h).last
  exact absurd hle (by decide)

/-! ## One request alone -/

/-- The steps of a join with nothing between them are `joinQueue`. -/
theorem run_join (s : System) (p : ℕ) (hp : s.requests p = .idle) (zoneId : Uuid)
    (user : Option RequestUserContext) (env : RequestEnv) (hint : Uuid) (clock : Clock) :
    (run (Shared.step act) s [(p, .join zoneId user env), (p, .lookup hint),
        (p, .begin clock.dbNow), (p, .commit clock.now)]).db =
      (joinQueue s.db zoneId user env hint clock).2 := by
  simp only [run_cons, run_nil, Shared.step_db, Shared.step_requests_self, hp, joinQueue, act]
  cases hjoin : checkJoin zoneId user env with
  | error e => rfl
  | ok join =>
    have hz : join.zoneId = zoneId := (checkJoin_ok hjoin).1
    cases hcount : checkCapacity s.db.entries join with
    | error e => simp [hcount]
    | ok count =>
      cases hfind : findActiveEntry s.db.entries zoneId join.userId hint with
      | some entry => simp [hcount, hfind, hz]
      | none => simp [hcount, hfind, hz]

/-- The steps of a leave with nothing between them are `leaveQueue`. -/
theorem run_leave (s : System) (p : ℕ) (hp : s.requests p = .idle) (zoneId : Uuid)
    (user : Option RequestUserContext) (env : RequestEnv) (hint : Uuid) (clock : Clock) :
    (run (Shared.step act) s [(p, .leave zoneId user env hint), (p, .count),
        (p, .save clock)]).db = (leaveQueue s.db zoneId user env hint clock).2 := by
  simp only [run_cons, run_nil, Shared.step_db, Shared.step_requests_self, hp, leaveQueue, act]
  cases hfind : findLeaving s.db.entries zoneId user env hint with
  | error e => rfl
  | ok entry => simp [(findLeaving_ok hfind).2.2]

end Qoms.QueueService
