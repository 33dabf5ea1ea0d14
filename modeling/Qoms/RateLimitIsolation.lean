import Qoms.RateLimitRetry

/-!
# Rate limits of different clients

A check sends its commands one by one (`Script`), and the commands of checks under way at one
time come in any order, with time passing in between (`act`). Each check keeps to the key of
its policy and principal, and no two of these have one key (`redisKey_injective`). So what the
checks of one policy and principal find and answer is what they would find and answer with all
other checks left out (`alone_run`) : nobody's requests use up or renew another's limit.

A check with nothing between its commands is `check` (`eval_script`).
-/

set_option autoImplicit false

namespace Qoms.RateLimitService

/-! ## Checks as commands -/

/-- What a check still sends, on its one key, and what it answers. -/
inductive Script
  | done (result : CheckResult)
  | clock (next : ℤ → Script)
  | hgetall (next : Hash → Script)
  | hset (fields : List (String × ℚ)) (next : Script)
  | zremrangebyscore (lo hi : ℤ) (next : Script)
  | zcard (next : ℕ → Script)
  | zadd (score : ℤ) (next : Script)
  | expire (seconds : ℤ) (next : Script)

/-- The commands of `checkTokenBucket`. -/
def tokenBucketScript (policy : TokenBucketPolicy) : Script :=
  .hgetall fun current => .clock fun now =>
    let refilledTokens := refilledTokens policy current now
    if refilledTokens < 1 then
      .done (.denied (max 1 ⌈(1 - refilledTokens) / policy.refillPerSecond⌉))
    else
      .hset [("tokens", refilledTokens - 1), ("lastRefill", now)]
        (.expire ⌈policy.capacity / policy.refillPerSecond⌉ (.done .allowed))

/-- The commands of `checkSlidingWindow`. -/
def slidingWindowScript (policy : SlidingWindowPolicy) : Script :=
  .clock fun now =>
    let windowStart := now - policy.windowSeconds * 1000
    .zremrangebyscore 0 windowStart (.zcard fun currentCount =>
      if currentCount ≥ policy.limit then .done (.denied policy.windowSeconds)
      else .zadd now (.expire policy.windowSeconds (.done .allowed)))

/-- The commands of `checkLeakyBucket`. -/
def leakyBucketScript (policy : LeakyBucketPolicy) : Script :=
  .hgetall fun current => .clock fun now =>
    let leakedLevel := leakedLevel policy current now
    if leakedLevel ≥ policy.capacity then
      .done (.denied (max 1 ⌈(leakedLevel - policy.capacity + 1) / policy.leakPerSecond⌉))
    else
      .hset [("level", leakedLevel + 1), ("lastLeak", now)]
        (.expire ⌈policy.capacity / policy.leakPerSecond⌉ (.done .allowed))

/-- The commands of `check`. -/
def script (policyName : RatePolicyName) : Script :=
  match policies policyName with
  | .tokenBucket policy => tokenBucketScript policy
  | .slidingWindow policy => slidingWindowScript policy
  | .leakyBucket policy => leakyBucketScript policy

/-- The next command, at the time `now`. -/
def Script.step (redis : Redis) (key : String) (now : ℤ) : Script → Redis × Script
  | .done result => (redis, .done result)
  | .clock next => (redis, next now)
  | .hgetall next => (redis, next (redis.hgetall key now))
  | .hset fields next => (redis.hset key fields now, next)
  | .zremrangebyscore lo hi next => (redis.zremrangebyscore key lo hi now, next)
  | .zcard next => (redis, next (redis.zcard key now))
  | .zadd score next => (redis.zadd key score now, next)
  | .expire seconds next => (redis.expire key seconds now, next)

/-- All commands at one time, with nothing between them. -/
def Script.eval (key : String) (now : ℤ) : Redis → Script → CheckResult × Redis
  | redis, .done result => (result, redis)
  | redis, .clock next => (next now).eval key now redis
  | redis, .hgetall next => (next (redis.hgetall key now)).eval key now redis
  | redis, .hset fields next => next.eval key now (redis.hset key fields now)
  | redis, .zremrangebyscore lo hi next =>
    next.eval key now (redis.zremrangebyscore key lo hi now)
  | redis, .zcard next => (next (redis.zcard key now)).eval key now redis
  | redis, .zadd score next => next.eval key now (redis.zadd key score now)
  | redis, .expire seconds next => next.eval key now (redis.expire key seconds now)

/-- The check answers after at most `n` more commands. -/
def Script.Within : Script → ℕ → Prop
  | .done _, _ => True
  | _, 0 => False
  | .clock next, n + 1 => ∀ now, (next now).Within n
  | .hgetall next, n + 1 => ∀ current, (next current).Within n
  | .zcard next, n + 1 => ∀ currentCount, (next currentCount).Within n
  | .hset _ next, n + 1 | .zremrangebyscore _ _ next, n + 1 | .zadd _ next, n + 1
  | .expire _ next, n + 1 => next.Within n

theorem Script.within_step {redis : Redis} {key : String} {now : ℤ} {n : ℕ} {rest : Script}
    (h : rest.Within (n + 1)) : (rest.step redis key now).2.Within n := by
  cases rest with
  | done => simp [Script.step, Script.Within]
  | clock | hgetall | zcard => exact h _
  | hset | zremrangebyscore | zadd | expire => exact h

theorem Script.Within.mono {m n : ℕ} {rest : Script} (h : rest.Within m) (hle : m ≤ n) :
    rest.Within n := by
  induction m generalizing n rest with
  | zero =>
    cases rest with
    | done => simp [Script.Within]
    | _ => exact h.elim
  | succ m ih =>
    obtain ⟨n, rfl⟩ := Nat.exists_eq_succ_of_ne_zero (by omega : n ≠ 0)
    cases rest with
    | done => simp [Script.Within]
    | clock | hgetall | zcard => exact fun answer => ih (h answer) (by omega)
    | hset _ next | zadd _ next | expire _ next =>
      exact (ih h (by omega) : next.Within n)
    | zremrangebyscore _ _ next => exact (ih h (by omega) : next.Within n)

/-- A check sends five commands at most. -/
theorem script_within (policyName : RatePolicyName) : (script policyName).Within 5 := by
  unfold script
  cases policies policyName with
  | tokenBucket =>
    intro current now
    dsimp only
    split_ifs
    · exact trivial
    · exact trivial
  | slidingWindow =>
    intro now currentCount
    dsimp only
    split_ifs
    · exact trivial
    · exact trivial
  | leakyBucket =>
    intro current now
    dsimp only
    split_ifs
    · exact trivial
    · exact trivial

/-- One command more, and the rest with nothing between. -/
theorem Script.eval_step (redis : Redis) (key : String) (now : ℤ) (rest : Script) :
    (rest.step redis key now).2.eval key now (rest.step redis key now).1 =
      rest.eval key now redis := by
  cases rest <;> rfl

/-- With nothing between them, the commands are the check. -/
theorem eval_script (redis : Redis) (policyName : RatePolicyName) (principal : String) (now : ℤ) :
    (script policyName).eval (redisKey policyName principal) now redis =
      check redis policyName principal now := by
  unfold script check
  cases policies policyName with
  | tokenBucket policy =>
    simp only [tokenBucketScript, Script.eval, checkTokenBucket]
    split_ifs
    · rfl
    · rfl
  | slidingWindow policy =>
    simp only [slidingWindowScript, Script.eval, checkSlidingWindow]
    split_ifs
    · rfl
    · rfl
  | leakyBucket policy =>
    simp only [leakyBucketScript, Script.eval, checkLeakyBucket]
    split_ifs
    · rfl
    · rfl

/-! ## Checks in flight -/

/-- Redis and the clock. -/
structure Limits where
  redis : Redis
  clock : ℤ

/-- A check sends its next command, or time passes. -/
inductive ScriptAction
  | command
  | pass (d : ℕ)
  deriving DecidableEq

/-- What a step does; a check has its key, and what it still sends. -/
def act : ScriptAction → Limits → String × Script → Limits × (String × Script)
  | .command, db, (key, rest) =>
    let r := rest.step db.redis key db.clock
    ({ db with redis := r.1 }, (key, r.2))
  | .pass d, db, call => ({ db with clock := db.clock + d }, call)

/-- The check of each process, before its first command. -/
def calls (who : ℕ → RatePolicyName × String) (p : ℕ) : String × Script :=
  (redisKey (who p).1 (who p).2, script (who p).1)

/-- Any store and time, and all checks before their first command. -/
def start (who : ℕ → RatePolicyName × String) (db : Limits) : Shared Limits (String × Script) :=
  ⟨db, calls who⟩

/-- The steps of the checks of one policy and principal, and the time that passes. -/
def stepsOf (who : ℕ → RatePolicyName × String) (client : RatePolicyName × String)
    (as : List (ℕ × ScriptAction)) : List (ℕ × ScriptAction) :=
  as.filter fun pa => pa.2 ≠ .command ∨ who pa.1 = client

/-! ## Keys -/

/-- Each policy and principal has a key of its own. -/
theorem redisKey_injective {policyName policyName' : RatePolicyName} {principal principal' : String}
    (h : redisKey policyName principal = redisKey policyName' principal') :
    policyName = policyName' ∧ principal = principal' := by
  have hchars := congrArg String.toList h
  cases policyName <;> cases policyName' <;>
    simp [redisKey, RatePolicyName.text, String.ext_iff] at hchars ⊢
  all_goals exact hchars

section

variable {key other : String} {redis redis' : Redis} {now : ℤ}

theorem SameKey.symm (h : SameKey key redis redis') : SameKey key redis' redis :=
  ⟨h.1.symm, h.2.symm⟩

theorem SameKey.trans {redis'' : Redis} (h : SameKey key redis redis')
    (h' : SameKey key redis' redis'') : SameKey key redis redis'' :=
  ⟨h'.1.trans h.1, h'.2.trans h.2⟩

/-- A command leaves the other keys as they are. -/
theorem Script.step_other (hne : key ≠ other) (rest : Script) :
    SameKey key redis (rest.step redis other now).1 := by
  cases rest with
  | hset | zremrangebyscore | zadd | expire =>
    exact ⟨by simp [Script.step, Redis.hset, Redis.zremrangebyscore, Redis.zadd, Redis.expire, hne],
      by simp [Script.step, Redis.hset, Redis.zremrangebyscore, Redis.zadd, Redis.expire, hne]⟩
  | _ => exact ⟨rfl, rfl⟩

/-- What a command finds and writes depends on its own key only. -/
theorem Script.step_same (h : SameKey key redis redis') (rest : Script) :
    SameKey key (rest.step redis key now).1 (rest.step redis' key now).1 ∧
      (rest.step redis' key now).2 = (rest.step redis key now).2 := by
  obtain ⟨hhash, hzset⟩ := h
  cases rest with
  | hset | zremrangebyscore | zadd | expire =>
    exact ⟨⟨by simp [Script.step, Redis.hset, Redis.zremrangebyscore, Redis.zadd, Redis.expire,
        hhash],
      by simp [Script.step, Redis.hset, Redis.zremrangebyscore, Redis.zadd, Redis.expire, hzset]⟩,
      rfl⟩
  | hgetall => exact ⟨⟨hhash, hzset⟩, by simp [Script.step, Redis.hgetall, hhash]⟩
  | zcard => exact ⟨⟨hhash, hzset⟩, by simp [Script.step, Redis.zcard, hzset]⟩
  | _ => exact ⟨⟨hhash, hzset⟩, rfl⟩

end

/-! ## One client among many -/

variable (who : ℕ → RatePolicyName × String) (client : RatePolicyName × String)

/-- The stores and times that the checks of a client cannot tell apart. -/
def SameFor (db db' : Limits) : Prop :=
  db'.clock = db.clock ∧ SameKey (redisKey client.1 client.2) db.redis db'.redis

/-- A check sends its commands to the key of its policy and principal. -/
def AtKey (p : ℕ) (call : String × Script) : Prop :=
  call.1 = redisKey (who p).1 (who p).2

/-- The checks of one client do not see those of others. -/
theorem separates : Shared.Separates act (AtKey who) (fun p => who p = client)
    (fun pa => pa.2 ≠ .command ∨ who pa.1 = client) (SameFor client) where
  stays p a d q h := by
    cases a with
    | command => exact h
    | pass => exact h
  other p a d q hk hq := by
    obtain ⟨ha, hne⟩ := not_or.mp hk
    obtain rfl : a = .command := not_not.mp ha
    refine ⟨hne, rfl, Script.step_other (fun heq => hne ?_) q.2⟩
    obtain ⟨hname, hprincipal⟩ := redisKey_injective (heq.trans hq)
    exact (Prod.ext hname hprincipal).symm
  kept p a d d' q q' hk hq hq' hsame hmine := by
    obtain ⟨hclock, hkey⟩ := hsame
    cases a with
    | pass n => exact ⟨⟨by simp only [act, hclock], hkey⟩, hmine⟩
    | command =>
      obtain rfl : who p = client := hk.resolve_left (by simp)
      obtain rfl : q' = q := hmine rfl
      obtain ⟨key, rest⟩ := q'
      obtain rfl : key = redisKey (who p).1 (who p).2 := hq
      obtain ⟨hstore, hrest⟩ := @Script.step_same _ _ _ d.clock hkey rest
      exact ⟨⟨hclock, by simpa only [act, hclock] using hstore⟩, fun _ => by
        simp only [act, hclock, hrest]⟩

theorem SameFor.left_trans {db db' db'' : Limits} (h : SameFor client db db')
    (h' : SameFor client db db'') : SameFor client db' db'' :=
  ⟨h'.1.trans h.1.symm, h.2.symm.trans h'.2⟩

/-- A run, and the run with the steps of the checks of a client alone. -/
theorem alike_run (db : Limits) (as : List (ℕ × ScriptAction)) :
    Shared.Alike (AtKey who) (fun p => who p = client) (SameFor client)
      (run (Shared.step act) (start who db) as)
      (run (Shared.step act) (start who db) (stepsOf who client as)) := by
  have hstart : Shared.Alike (AtKey who) (fun p => who p = client) (SameFor client)
      (start who db) (start who db) :=
    ⟨⟨rfl, rfl, rfl⟩, fun _ _ => rfl, fun _ => ⟨rfl, rfl⟩⟩
  exact hstart.run_filter (separates who client) (fun _ _ _ => SameFor.left_trans client) as

/-- The checks of a client find and answer, and leave at its key, what they would with all
other checks left out. -/
theorem client_alone (db : Limits) (as : List (ℕ × ScriptAction)) :
    SameFor client (run (Shared.step act) (start who db) as).db
        (run (Shared.step act) (start who db) (stepsOf who client as)).db ∧
      ∀ p, who p = client →
        (run (Shared.step act) (start who db) (stepsOf who client as)).requests p =
          (run (Shared.step act) (start who db) as).requests p :=
  ⟨(alike_run who client db as).store, (alike_run who client db as).requests⟩

/-! ## Checks that overlap -/

/-- A check whose commands all come now. -/
theorem run_own {p n : ℕ} {rest : Script} (hwithin : rest.Within n)
    {s : Shared Limits (String × Script)} {key : String} (h : s.requests p = (key, rest)) :
    (run (Shared.step act) s (List.replicate n (p, .command))).requests p =
        (key, .done (rest.eval key s.db.clock s.db.redis).1) ∧
      (run (Shared.step act) s (List.replicate n (p, .command))).db.redis =
        (rest.eval key s.db.clock s.db.redis).2 := by
  induction n generalizing s rest with
  | zero =>
    cases rest with
    | done => exact ⟨h, rfl⟩
    | _ => exact hwithin.elim
  | succ n ih =>
    have hrest : (Shared.step act s (p, .command)).requests p =
        (key, (rest.step s.db.redis key s.db.clock).2) := by
      simp only [Shared.step_requests_self, h, act]
    have hdb : (Shared.step act s (p, .command)).db =
        { s.db with redis := (rest.step s.db.redis key s.db.clock).1 } := by
      simp only [Shared.step_db, h, act]
    have hrun := ih (Script.within_step hwithin) hrest
    rw [hdb, Script.eval_step] at hrun
    exact hrun

/-- At any moment of any run, a check that overlaps with checks of other clients only, at one
time, answers and leaves at its key what `check` does on the store it began with. -/
theorem overlapping_check (db : Limits) (before as : List (ℕ × ScriptAction)) (p : ℕ)
    (hnew : (run (Shared.step act) (start who db) before).requests p = calls who p)
    (hothers : ∀ pa ∈ as, pa.2 = .command ∧ (pa.1 = p ∨ who pa.1 ≠ who p))
    (hcount : 5 ≤ as.count (p, .command)) :
    let s := run (Shared.step act) (start who db) before
    let r := check s.db.redis (who p).1 (who p).2 s.db.clock
    let t := run (Shared.step act) s as
    t.requests p = (redisKey (who p).1 (who p).2, .done r.1) ∧
      SameKey (redisKey (who p).1 (who p).2) r.2 t.db.redis := by
  intro s r t
  have hs : Shared.Alike (AtKey who) (fun q => who q = who p) (SameFor (who p)) s s :=
    ⟨⟨rfl, rfl, rfl⟩, fun _ _ => rfl, fun q =>
      have hkey := ((alike_run who (who p) db before).placed q).1
      ⟨hkey, hkey⟩⟩
  have hrun := hs.run_filter (separates who (who p)) (fun _ _ _ => SameFor.left_trans (who p)) as
  -- Of the steps of this client only those of the check itself are left.
  have hown : (as.filter fun pa => pa.2 ≠ .command ∨ who pa.1 = who p) =
      List.replicate (as.count (p, .command)) (p, .command) := by
    rw [← List.filter_eq]
    refine List.filter_congr fun pa hpa => ?_
    obtain ⟨hcommand, hwho⟩ := hothers pa hpa
    rcases hwho with rfl | hne
    · simp [hcommand, Prod.ext_iff]
    · have hp : pa.1 ≠ p := fun heq => hne (heq ▸ rfl)
      simp [hcommand, hne, Prod.ext_iff, hp]
  obtain ⟨hanswer, hstore⟩ := run_own ((script_within (who p).1).mono hcount) hnew
  rw [hown] at hrun
  rw [eval_script] at hanswer hstore
  refine ⟨(hrun.requests p rfl).symm.trans hanswer, ?_⟩
  rw [← hstore]
  exact hrun.store.2.symm

/-- User 7 joins a queue while user 8 does : the commands of the two checks alternate. -/
theorem overlapping_check_alternating :
    let who : ℕ → RatePolicyName × String := fun p => (.joinQueue, if p = 0 then "7" else "8")
    let as : List (ℕ × ScriptAction) :=
      (List.range 5).flatMap fun _ => [(0, .command), (1, .command)]
    (run (Shared.step act) (start who ⟨.empty, 0⟩) as).requests 0 =
        ("ratelimit:join_queue:7", .done .allowed) ∧
      (run (Shared.step act) (start who ⟨.empty, 0⟩) as).db.redis.zcard
        "ratelimit:join_queue:7" 0 = 1 := by
  intro who as
  have hothers : ∀ pa ∈ as, pa.2 = .command ∧ (pa.1 = 0 ∨ who pa.1 ≠ who 0) := by
    simp only [as, who, List.forall_mem_flatMap]
    decide
  obtain ⟨hanswer, -, hzset⟩ :=
    overlapping_check who ⟨.empty, 0⟩ [] as 0 rfl hothers (by decide)
  exact ⟨hanswer, (congrArg (fun slot => (Slot.scores 0 slot).length) hzset).trans rfl⟩

end Qoms.RateLimitService
