import Qoms.RateLimit
import Qoms.Shared
import Mathlib.Data.List.Perm.Basic

/-!
# Concurrent sliding windows

`checkSlidingWindow` sends four commands, one by one : it removes the members that have left the
window, counts the rest, and if there are fewer than the limit adds a member of its own and
renews the expiry. Any number of calls for one key take these steps in any order (`act`), on a
clock that any step may advance.

Between a call's count and its add other calls can add theirs, so six calls at once get past a
limit of five (`sixAtOnce`). What a count finds is right (`Window.Logged.countP_allowed`) : of the
earlier calls let through in a window of its own time it misses only those that a call of a later
time has trimmed, and those that expired with the key, which can be before the call that added the
last member has renewed it. `withinLimit_iff_room` says which runs keep to the limit : in each
window that takes in a call that adds its member, the calls let through since its count, with those
that it missed, are fewer than the places it left. `run_check` ties the steps to
`checkSlidingWindow`.
-/

set_option autoImplicit false

namespace Qoms.RateLimitService.SlidingWindow

/-! ## Calls in flight -/

/-- The key and the clock; and, which no step reads, the times of the calls let through, those
of the members that were trimmed, each with the time of the call that did, and those of the members
that expired with the key. -/
structure Window where
  zset : Slot (List ℤ)
  clock : ℤ
  allowed : List ℤ
  trimmed : List (ℤ × ℤ)
  expired : List ℤ

/-- The members that a command finds. -/
def Window.members (db : Window) : List ℤ :=
  db.zset.scores db.clock

/-- Where a call stands; `now` is the time it read, `seen` what its count saw, which no step
reads. -/
inductive Call
  | idle
  | started (now : ℤ)
  | trimmed (now : ℤ)
  | counted (now : ℤ) (seen : Window)
  | added
  | finished (result : CheckResult)

/-- The key and the calls. -/
abbrev System := Shared Window Call

/-- No key, no calls, and any time. -/
def init (clock : ℤ) : System :=
  ⟨⟨none, clock, [], [], []⟩, fun _ => .idle⟩

/-- One step of a call, or a time that passes. -/
inductive Action
  | start
  | zremrangebyscore
  | zcard
  | zadd
  | expire
  | pass (d : ℕ)

variable (policy : SlidingWindowPolicy)

/-- `zremrangebyscore(key, 0, now - windowSeconds * 1000)`. -/
def Window.trim (db : Window) (now : ℤ) : Window :=
  let windowStart := now - policy.windowSeconds * 1000
  { db with
    zset := db.zset.removeScores db.clock 0 windowStart
    trimmed := db.trimmed ++
      (db.members.filter fun score => 0 ≤ score ∧ score ≤ windowStart).map (·, now) }

/-- `zadd(key, now, …)`. -/
def Window.add (db : Window) (now : ℤ) : Window :=
  { db with zset := db.zset.addScore db.clock now, allowed := db.allowed ++ [now] }

/-- `expire(key, windowSeconds)`. -/
def Window.renew (db : Window) : Window :=
  { db with zset := db.zset.expire db.clock policy.windowSeconds }

/-- Time passes; the key may expire. -/
def Window.pass (db : Window) (d : ℕ) : Window :=
  { db with
    clock := db.clock + d
    expired := db.expired ++
      if (db.zset.live (db.clock + d)).isNone then db.members else [] }

/-- What a step does; a step that is not the call's next one does nothing. -/
def act : Action → Window → Call → Window × Call
  | .start, db, .idle => (db, .started db.clock)
  | .zremrangebyscore, db, .started now => (db.trim policy now, .trimmed now)
  | .zcard, db, .trimmed now =>
    if db.members.length ≥ policy.limit then (db, .finished (.denied policy.windowSeconds))
    else (db, .counted now db)
  | .zadd, db, .counted now _ => (db.add now, .added)
  | .expire, db, .added => (db.renew policy, .finished .allowed)
  | .pass d, db, call => (db.pass d, call)
  | _, db, call => (db, call)

/-- The step is the call's next one, or time passes. -/
def Enabled : Action → Call → Prop
  | .start, .idle => True
  | .zremrangebyscore, .started _ => True
  | .zcard, .trimmed _ => True
  | .zadd, .counted _ _ => True
  | .expire, .added => True
  | .pass _, _ => True
  | _, _ => False

/-- What a step can do. -/
inductive Moves (db : Window) : Action → Call → Window → Call → Prop
  | stay {a : Action} {call : Call} (hnot : ¬Enabled a call) : Moves db a call db call
  | started : Moves db .start .idle db (.started db.clock)
  | trimmed (now : ℤ) :
      Moves db .zremrangebyscore (.started now) (db.trim policy now) (.trimmed now)
  | denied (now : ℤ) : Moves db .zcard (.trimmed now) db (.finished (.denied policy.windowSeconds))
  | counted (now : ℤ) (hroom : db.members.length < policy.limit) :
      Moves db .zcard (.trimmed now) db (.counted now db)
  | added (now : ℤ) (seen : Window) : Moves db .zadd (.counted now seen) (db.add now) .added
  | renewed : Moves db .expire .added (db.renew policy) (.finished .allowed)
  | passed (d : ℕ) (call : Call) : Moves db (.pass d) call (db.pass d) call

theorem act_moves (a : Action) (db : Window) (call : Call) :
    Moves policy db a call (act policy a db call).1 (act policy a db call).2 := by
  unfold act
  split
  · exact .started
  · exact .trimmed _
  · split_ifs with hfull
    · exact .denied _
    · exact .counted _ (not_le.mp hfull)
  · exact .added _ _
  · exact .renewed
  · exact .passed _ _
  · refine .stay ?_
    cases a <;> cases call <;> grind [Enabled]

/-! ## The invariant -/

/-- The calls let through are the members, those that a call trimmed as they had left its window,
and those that expired. -/
structure Window.Logged (db : Window) : Prop where
  allowed_perm : db.allowed.Perm (db.members ++ (db.trimmed.map (·.1) ++ db.expired))
  trimmed_le : ∀ m ∈ db.trimmed, m.1 ≤ m.2 - policy.windowSeconds * 1000

/-- A call counted fewer members than the limit, at a moment before which no call was let
through that is not now. -/
structure Counted (seen db : Window) : Prop where
  logged : seen.Logged policy
  lt_limit : seen.members.length < policy.limit
  allowed_prefix : seen.allowed <+: db.allowed

/-- What a call relies on. -/
def Call.Sound (db : Window) : Call → Prop
  | .counted _ seen => Counted policy seen db
  | _ => True

/-- More calls are let through. -/
def Window.Grows (db db' : Window) : Prop :=
  db.allowed <+: db'.allowed

variable {policy}

theorem Call.Sound.grows {db db' : Window} {call : Call} (h : call.Sound policy db)
    (hgrows : db.Grows db') : call.Sound policy db' := by
  cases call with
  | counted now seen => exact ⟨h.logged, h.lt_limit, h.allowed_prefix.trans hgrows⟩
  | _ => trivial

theorem safe_init (clock : ℤ) :
    (init clock).Safe (Window.Logged policy) fun db call => call.Sound policy db :=
  ⟨⟨List.Perm.nil, by simp [init]⟩, fun _ => trivial⟩

theorem members_trim (db : Window) (now : ℤ) : (db.trim policy now).members =
    db.members.filter fun score =>
      !decide (0 ≤ score ∧ score ≤ now - policy.windowSeconds * 1000) := by
  rw [Window.members, Window.trim]
  simp only [Slot.scores_removeScores, Window.members, decide_not]

theorem trimmed_trim (db : Window) (now : ℤ) : (db.trim policy now).trimmed.map (·.1) =
    db.trimmed.map (·.1) ++ db.members.filter fun score =>
      decide (0 ≤ score ∧ score ≤ now - policy.windowSeconds * 1000) := by
  simp [Window.trim, Function.comp_def]

theorem Window.Logged.trim {db : Window} (h : db.Logged policy) (now : ℤ) :
    (db.trim policy now).Logged policy where
  allowed_perm := by
    refine h.allowed_perm.trans ?_
    rw [members_trim, trimmed_trim, List.perm_iff_count]
    intro score
    have hcount := (List.filter_append_perm (fun score : ℤ =>
      decide (0 ≤ score ∧ score ≤ now - policy.windowSeconds * 1000)) db.members).count_eq score
    have hexpired : (db.trim policy now).expired = db.expired := rfl
    rw [hexpired]
    simp only [List.count_append] at hcount ⊢
    omega
  trimmed_le m hm := by
    rcases List.mem_append.mp hm with hm | hm
    · exact h.trimmed_le m hm
    · obtain ⟨score, hscore, rfl⟩ := List.mem_map.mp hm
      exact (of_decide_eq_true (List.mem_filter.mp hscore).2).2

theorem Window.Logged.add {db : Window} (h : db.Logged policy) (now : ℤ) :
    (db.add now).Logged policy where
  allowed_perm := by
    have hmembers : (db.add now).members = db.members ++ [now] :=
      Slot.scores_addScore db.clock now db.zset
    have hcomm : (db.trimmed.map (·.1) ++ db.expired ++ [now]).Perm
        ([now] ++ (db.trimmed.map (·.1) ++ db.expired)) := List.perm_append_comm
    have hswap := hcomm.append_left db.members
    rw [hmembers, List.append_assoc]
    rw [← List.append_assoc] at hswap
    exact (h.allowed_perm.append_right [now]).trans hswap
  trimmed_le := h.trimmed_le

theorem Window.Logged.renew {db : Window} (h : db.Logged policy) :
    (db.renew policy).Logged policy where
  allowed_perm := by
    have hmembers : (db.renew policy).members = db.members :=
      Slot.scores_expire (Int.natCast_nonneg _) db.zset
    rw [hmembers]
    exact h.allowed_perm
  trimmed_le := h.trimmed_le

theorem Window.Logged.pass {db : Window} (h : db.Logged policy) (d : ℕ) :
    (db.pass d).Logged policy where
  allowed_perm := by
    have hle : db.clock ≤ db.clock + d := by omega
    have hmembers : db.members = (db.pass d).members ++
        if (db.zset.live (db.clock + d)).isNone then db.members else [] :=
      Slot.scores_of_le hle db.zset
    refine h.allowed_perm.trans ?_
    rw [List.perm_iff_count]
    intro score
    have hcount := congrArg (List.count score) hmembers
    have hexpired : (db.pass d).expired = db.expired ++
      if (db.zset.live (db.clock + d)).isNone then db.members else [] := rfl
    have htrimmed : (db.pass d).trimmed = db.trimmed := rfl
    rw [hexpired, htrimmed]
    simp only [List.count_append] at hcount ⊢
    omega
  trimmed_le := h.trimmed_le

theorem Moves.guarantees {db db' : Window} {a : Action} {call call' : Call}
    (h : Moves policy db a call db' call') (hlogged : db.Logged policy)
    (hsound : call.Sound policy db) :
    Shared.Guarantees (Window.Logged policy) (fun db call => call.Sound policy db) Window.Grows db
      (db', call') := by
  have hsame : db.Grows db := List.prefix_rfl
  cases h with
  | stay => exact ⟨hlogged, hsame, hsound⟩
  | started => exact ⟨hlogged, hsame, trivial⟩
  | trimmed now => exact ⟨hlogged.trim now, hsame, trivial⟩
  | denied => exact ⟨hlogged, hsame, trivial⟩
  | counted now hroom => exact ⟨hlogged, hsame, hlogged, hroom, hsame⟩
  | added now seen => exact ⟨hlogged.add now, List.prefix_append _ _, trivial⟩
  | renewed => exact ⟨hlogged.renew, hsame, trivial⟩
  | passed d call => exact ⟨hlogged.pass d, hsame, Call.Sound.grows hsound hsame⟩

/-! ## The limit -/

/-- The time lies in the window that ends at `t`. -/
def inWindow (policy : SlidingWindowPolicy) (t now : ℤ) : Bool :=
  decide (t - policy.windowSeconds * 1000 < now ∧ now ≤ t)

/-- No window has more calls let through than the limit. -/
def WithinLimit (policy : SlidingWindowPolicy) (db : Window) : Prop :=
  ∀ t, db.allowed.countP (inWindow policy t) ≤ policy.limit

/-- The calls let through in the window that ends at `t` that a count at the time `now` misses :
a call of a later time trimmed the member, or it expired with the key. -/
def missed (policy : SlidingWindowPolicy) (seen : Window) (now t : ℤ) : ℕ :=
  (seen.trimmed.countP fun m => inWindow policy t m.1 && decide (now < m.2)) +
    seen.expired.countP (inWindow policy t)

/-- If the step adds a member, then in each window that takes in its call, the calls let through
since its count, with those that the count missed, are fewer than the places it left, with those of
the members it saw outside the window. -/
def Room (policy : SlidingWindowPolicy) : Action → Window → Call → Prop
  | .zadd, db, .counted now seen => ∀ t, inWindow policy t now = true →
    (db.allowed.drop seen.allowed.length).countP (inWindow policy t) + missed policy seen now t <
      policy.limit - seen.members.length + seen.members.countP (fun x => !inWindow policy t x)
  | _, _, _ => True

theorem room_of_not_enabled {a : Action} {db : Window} {call : Call} (h : ¬Enabled a call) :
    Room policy a db call := by
  cases a <;> cases call <;> first | trivial | exact absurd trivial h

/-- A count sees all calls let through before it in a window of its own time, but for those that it
misses. -/
theorem Window.Logged.countP_allowed {seen : Window} (h : seen.Logged policy) {now t : ℤ}
    (hin : inWindow policy t now = true) : seen.allowed.countP (inWindow policy t) =
      seen.members.countP (inWindow policy t) + missed policy seen now t := by
  have htrimmed : (seen.trimmed.map (·.1)).countP (inWindow policy t) =
      seen.trimmed.countP fun m => inWindow policy t m.1 && decide (now < m.2) := by
    rw [List.countP_map]
    refine List.countP_congr fun m hm => ?_
    -- a member in the window had not left that of an earlier call
    have hle := h.trimmed_le m hm
    simp only [Function.comp_apply, inWindow, Bool.and_eq_true, decide_eq_true_eq] at hin ⊢
    omega
  rw [h.allowed_perm.countP_eq, List.countP_append, List.countP_append, htrimmed, missed]

theorem withinLimit_add_iff {db : Window} (h : WithinLimit policy db) (now : ℤ) :
    WithinLimit policy (db.add now) ↔
      ∀ t, inWindow policy t now = true → db.allowed.countP (inWindow policy t) < policy.limit := by
  refine forall_congr' fun t => ?_
  have ht := h t
  rw [Window.add, List.countP_append, List.countP_singleton]
  split_ifs with hin
  · exact ⟨fun hle _ => Nat.lt_of_succ_le hle, fun hlt => Nat.succ_le_of_lt (hlt hin)⟩
  · exact ⟨fun _ hin' => absurd hin' hin, fun _ => ht⟩

/-- One step keeps to the limit just when it has room. -/
theorem withinLimit_act_iff {db : Window} (a : Action) {call : Call}
    (hsound : call.Sound policy db) (h : WithinLimit policy db) :
    WithinLimit policy (act policy a db call).1 ↔ Room policy a db call := by
  have hmoves := act_moves policy a db call
  generalize (act policy a db call).1 = db' at hmoves ⊢
  generalize (act policy a db call).2 = call' at hmoves
  cases hmoves with
  | stay hnot => exact iff_of_true h (room_of_not_enabled hnot)
  | added now seen =>
    obtain ⟨hlogged, hlt, since, hallowed⟩ := hsound
    rw [withinLimit_add_iff h]
    refine forall₂_congr fun t hin => ?_
    have hthen := hlogged.countP_allowed hin
    have hnow := congrArg (List.countP (inWindow policy t)) hallowed
    have hsince := congrArg (List.drop seen.allowed.length) hallowed
    have hlength := List.length_eq_countP_add_countP (inWindow policy t) (l := seen.members)
    rw [List.drop_left] at hsince
    rw [List.countP_append] at hnow
    simp only [Bool.not_eq_true, Bool.decide_eq_false] at hlength
    rw [← hsince]
    omega
  | passed d call => exact iff_of_true h (by cases call <;> trivial)
  | _ => exact iff_of_true h trivial

/-- Any number of concurrent calls for a key that is not there, in any order of their commands :
throughout the run no window has more calls let through than the limit, exactly when each step
that adds a member has room. -/
theorem withinLimit_iff_room (policy : SlidingWindowPolicy) (clock : ℤ)
    (as : List (ℕ × Action)) :
    Throughout (Shared.step (act policy)) (init clock) as (fun s => WithinLimit policy s.db) ↔
      EachStep (Shared.step (act policy)) (init clock) as
        fun s pa => Room policy pa.2 s.db (s.requests pa.1) :=
  Shared.throughout_iff_eachStep (fun _ => True) Window.Grows (WithinLimit policy) (Room policy)
    (fun a db call _ hlogged hsound => (act_moves policy a db call).guarantees hlogged hsound)
    (fun _ _ _ hgrows hsound => hsound.grows hgrows)
    (fun a _ _ _ hsound h => withinLimit_act_iff a hsound h) (safe_init clock)
    (fun _ => Nat.zero_le _) fun _ _ => trivial

/-- Six calls of one principal, whose counts all come before the first add. -/
def sixAtOnce : List (ℕ × Action) :=
  (List.range 6).flatMap (fun p => [(p, .start), (p, .zremrangebyscore), (p, .zcard)]) ++
    (List.range 6).flatMap fun p => [(p, .zadd), (p, .expire)]

/-- All six are let through. -/
theorem sixAtOnce_allowed : ∃ policy, policies .login = .slidingWindow policy ∧
    ¬WithinLimit policy (run (Shared.step (act policy)) (init 1760000000000) sixAtOnce).db := by
  refine ⟨_, rfl, fun h => ?_⟩
  exact absurd (h 1760000000000) (by decide)

/-! ## One call alone -/

/-- The steps of a call with nothing between them are `checkSlidingWindow`. -/
theorem run_check (s : System) (p : ℕ) (hp : s.requests p = .idle) (redis : Redis)
    (policyName : RatePolicyName) (principal : String)
    (hzset : redis.zsets (redisKey policyName principal) = s.db.zset) :
    let t := run (Shared.step (act policy)) s
      [(p, .start), (p, .zremrangebyscore), (p, .zcard), (p, .zadd), (p, .expire)]
    let checked := checkSlidingWindow redis policyName principal policy s.db.clock
    t.requests p = .finished checked.1 ∧
      t.db.zset = checked.2.zsets (redisKey policyName principal) := by
  have hscores : (s.db.zset.removeScores s.db.clock 0
      (s.db.clock - policy.windowSeconds * 1000)).scores s.db.clock =
        (s.db.trim policy s.db.clock).members := rfl
  simp only [run_cons, run_nil, Shared.step_db, Shared.step_requests_self, hp, act,
    checkSlidingWindow, Redis.zremrangebyscore, Redis.zcard, Redis.zadd, Redis.expire,
    Function.update_self, hzset, hscores]
  by_cases hfull : (s.db.trim policy s.db.clock).members.length ≥ policy.limit
  · simp only [hfull, if_true, Function.update_self, true_and]
    rfl
  · simp only [hfull, if_false, Function.update_self, true_and]
    rfl

end Qoms.RateLimitService.SlidingWindow
