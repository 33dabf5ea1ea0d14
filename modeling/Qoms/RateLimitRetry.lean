import Qoms.RateLimitLeaky
import Qoms.RateLimitLog

/-!
# Waiting as told

A denied check says how many seconds to wait. Whatever the key holds then, a check after that
time is let through, if none was in between (`retryAfter_suffices`) : by then there is a token,
or room for one, or the window has moved past all that the key holds; and a key that expires
meanwhile leaves a bucket or a window without anything in it.

What a key can hold is whatever the checks' commands can make of it, in any order and with any
values (`Reachable`), so that it does not matter which of them were under way at one time. The
states between checks that come one after another are among these (`Reachable.check`).
-/

set_option autoImplicit false

namespace Qoms.RateLimitService

/-! ## What a key can hold -/

/-- The check of a policy's kind. -/
def checkPolicy (redis : Redis) (policyName : RatePolicyName) (principal : String)
    (config : RatePolicyConfig) (now : ℤ) : CheckResult × Redis :=
  match config with
  | .tokenBucket policy => checkTokenBucket redis policyName principal policy now
  | .slidingWindow policy => checkSlidingWindow redis policyName principal policy now
  | .leakyBucket policy => checkLeakyBucket redis policyName principal policy now

theorem check_eq_checkPolicy (redis : Redis) (policyName : RatePolicyName) (principal : String)
    (now : ℤ) : check redis policyName principal now =
      checkPolicy redis policyName principal (policies policyName) now :=
  rfl

/-- A command on one key that writes. -/
inductive Command
  | hset (fields : List (String × ℚ))
  | zremrangebyscore (lo hi : ℤ)
  | zadd (score : ℤ)
  | expire (seconds : ℤ)

/-- What a command makes of the store. -/
def Command.exec (redis : Redis) (key : String) (now : ℤ) : Command → Redis
  | .hset fields => redis.hset key fields now
  | .zremrangebyscore lo hi => redis.zremrangebyscore key lo hi now
  | .zadd score => redis.zadd key score now
  | .expire seconds => redis.expire key seconds now

/-- Checks of the policy send such commands at the time `now`, with values that they may have
computed before. -/
def SentBy : RatePolicyConfig → ℤ → Command → Prop
  | .tokenBucket _, _, .hset fields => ∃ tokens lastRefill : ℚ,
    fields = [("tokens", tokens), ("lastRefill", lastRefill)]
  | .leakyBucket _, _, .hset fields => ∃ level lastLeak : ℚ,
    fields = [("level", level), ("lastLeak", lastLeak)]
  | .slidingWindow _, _, .zremrangebyscore _ _ => True
  | .slidingWindow _, now, .zadd score => 0 ≤ score ∧ score ≤ now
  | _, _, .expire _ => True
  | _, _, _ => False

/-- The stores hold the same under the key. -/
def SameKey (key : String) (redis redis' : Redis) : Prop :=
  redis'.hashes key = redis.hashes key ∧ redis'.zsets key = redis.zsets key

/-- The states of a key that is not there at first, under the commands of the checks of a
policy, while time passes and other keys change. -/
inductive Reachable (config : RatePolicyConfig) (key : String) : Redis → ℤ → Prop
  | start {redis : Redis} {now : ℤ} (hclock : 0 ≤ now) (hhash : redis.hashes key = none)
      (hzset : redis.zsets key = none) : Reachable config key redis now
  | pass {redis redis' : Redis} {now later : ℤ} (h : Reachable config key redis now)
      (hle : now ≤ later) (hsame : SameKey key redis redis') : Reachable config key redis' later
  | command {redis : Redis} {now : ℤ} (h : Reachable config key redis now) (c : Command)
      (hsent : SentBy config now c) : Reachable config key (c.exec redis key now) now

/-- Time passes, other keys change, and checks of the key are denied. -/
inductive Waits (config : RatePolicyConfig) (policyName : RatePolicyName) (principal : String)
    (redis : Redis) (start : ℤ) : Redis → ℤ → Prop
  | refl : Waits config policyName principal redis start redis start
  | pass {redis' redis'' : Redis} {now later : ℤ}
      (h : Waits config policyName principal redis start redis' now) (hle : now ≤ later)
      (hsame : SameKey (redisKey policyName principal) redis' redis'') :
      Waits config policyName principal redis start redis'' later
  | denied {redis' : Redis} {now : ℤ}
      (h : Waits config policyName principal redis start redis' now)
      (hdenied : (checkPolicy redis' policyName principal config now).1.isAllowed = false) :
      Waits config policyName principal redis start
        (checkPolicy redis' policyName principal config now).2 now

section

variable {config : RatePolicyConfig} {policyName : RatePolicyName} {principal key : String}
  {redis redis' : Redis} {now later : ℤ}

theorem Reachable.clock (h : Reachable config key redis now) : 0 ≤ now := by
  induction h with
  | start hclock => exact hclock
  | pass _ hle _ ih => exact ih.trans hle
  | command _ _ _ ih => exact ih

/-- A check sends commands of its policy. -/
theorem Reachable.check (h : Reachable config (redisKey policyName principal) redis now) :
    Reachable config (redisKey policyName principal)
      (checkPolicy redis policyName principal config now).2 now := by
  cases config with
  | tokenBucket policy =>
    simp only [checkPolicy, checkTokenBucket]
    split_ifs
    · exact h
    · exact (h.command (.hset _) ⟨_, _, rfl⟩).command (.expire _) trivial
  | slidingWindow policy =>
    have htrim := h.command (.zremrangebyscore 0 (now - policy.windowSeconds * 1000)) trivial
    simp only [checkPolicy, checkSlidingWindow]
    split_ifs
    · exact htrim
    · exact (htrim.command (.zadd now) ⟨h.clock, le_rfl⟩).command (.expire _) trivial
  | leakyBucket policy =>
    simp only [checkPolicy, checkLeakyBucket]
    split_ifs
    · exact h
    · exact (h.command (.hset _) ⟨_, _, rfl⟩).command (.expire _) trivial

/-- The field is there, or no field is. -/
def Whole (field : String) (key : String) (redis : Redis) : Prop :=
  ∀ now, redis.hgetall key now field ≠ none ∨ redis.hgetall key now = fun _ => none

/-- Every `HSET` writes the field. -/
theorem Reachable.whole {field : String} (h : Reachable config key redis now)
    (hfield : ∀ now fields, SentBy config now (.hset fields) → ∀ current : Hash,
      current.set fields field ≠ none) : Whole field key redis := by
  induction h with
  | start _ hhash _ => exact fun t => Or.inr (Redis.hgetall_of_none hhash t)
  | pass _ _ hsame ih =>
    intro t
    have heq : Redis.hgetall _ key t = Redis.hgetall _ key t :=
      congrArg (fun slot => (Slot.read t slot).getD fun _ => none) hsame.1
    rw [heq]
    exact ih t
  | @command redis now _ c hsent ih =>
    intro t
    cases c with
    | hset fields =>
      rcases Redis.hgetall_hset redis key fields now t with heq | heq
      · exact Or.inl (by rw [Command.exec, heq]; exact hfield now fields hsent _)
      · exact Or.inr heq
    | expire seconds =>
      rcases Redis.hgetall_expire redis key seconds now t with heq | heq
      · rw [Command.exec, heq]
        exact ih now
      · exact Or.inr heq
    | zremrangebyscore lo hi => exact ih t
    | zadd score => exact ih t

/-- The members are times from 1970 until now. -/
theorem Reachable.stored (h : Reachable config key redis now) :
    ∀ score ∈ (redis.zsets key).stored, 0 ≤ score ∧ score ≤ now := by
  induction h with
  | start _ _ hzset => simp [hzset, Slot.stored]
  | pass _ hle hsame ih =>
    intro score hscore
    rw [hsame.2] at hscore
    exact ⟨(ih score hscore).1, (ih score hscore).2.trans hle⟩
  | @command redis now _ c hsent ih =>
    intro score hscore
    cases c with
    | hset fields => exact ih score hscore
    | zremrangebyscore lo hi =>
      simp only [Command.exec, Redis.zremrangebyscore, Function.update_self] at hscore
      exact ih score ((Slot.stored_removeScores_sublist _ _ _ _).subset hscore)
    | zadd added =>
      simp only [Command.exec, Redis.zadd, Function.update_self, Slot.stored_addScore,
        List.mem_append, List.mem_singleton] at hscore
      rcases hscore with hold | rfl
      · exact ih score ((Slot.scores_sublist _ _).subset hold)
      · cases config with
        | slidingWindow policy => exact hsent
        | tokenBucket policy => exact hsent.elim
        | leakyBucket policy => exact hsent.elim
    | expire seconds =>
      simp only [Command.exec, Redis.expire, Function.update_self] at hscore
      exact ih score ((Slot.stored_expire_sublist _ _ _).subset hscore)

/-! ## While a client waits -/

theorem checkSlidingWindow_fst (policy : SlidingWindowPolicy) :
    (checkSlidingWindow redis policyName principal policy now).1 =
      if policy.limit ≤ (keptScores policy redis policyName principal now).length then
        .denied policy.windowSeconds
      else .allowed := by
  split_ifs with h
  · exact (checkSlidingWindow_of_le h).1
  · exact (checkSlidingWindow_of_lt (not_le.mp h)).1

/-- A check reads its own key only. -/
theorem checkPolicy_fst_of_sameKey (hsame : SameKey (redisKey policyName principal) redis redis')
    (now : ℤ) : (checkPolicy redis' policyName principal config now).1 =
      (checkPolicy redis policyName principal config now).1 := by
  have hhash : redis'.hgetall (redisKey policyName principal) now =
      redis.hgetall (redisKey policyName principal) now :=
    congrArg (fun slot => (Slot.read now slot).getD fun _ => none) hsame.1
  cases config with
  | tokenBucket policy =>
    simp only [checkPolicy, checkTokenBucket, hhash]
    split_ifs
    · rfl
    · rfl
  | slidingWindow policy =>
    have hkept : keptScores policy redis' policyName principal now =
        keptScores policy redis policyName principal now := by
      rw [keptScores, keptScores, windowScores, windowScores, hsame.2]
    simp only [checkPolicy]
    rw [checkSlidingWindow_fst, checkSlidingWindow_fst, hkept]
  | leakyBucket policy =>
    simp only [checkPolicy, checkLeakyBucket, hhash]
    split_ifs
    · rfl
    · rfl

/-- A denied check changes no later answer. -/
theorem checkPolicy_fst_of_denied (hle : now ≤ later)
    (hdenied : (checkPolicy redis policyName principal config now).1.isAllowed = false) :
    (checkPolicy (checkPolicy redis policyName principal config now).2 policyName principal config
        later).1 = (checkPolicy redis policyName principal config later).1 := by
  cases config with
  | tokenBucket policy =>
    rcases le_or_gt 1 (refilledTokens policy
      (redis.hgetall (redisKey policyName principal) now) now) with hle' | hlt
    · rw [checkPolicy, checkTokenBucket_of_le hle'] at hdenied
      exact absurd hdenied (by simp [CheckResult.isAllowed])
    · obtain ⟨retryAfterSeconds, heq⟩ := checkTokenBucket_of_lt hlt
      rw [checkPolicy, checkPolicy, heq]
      rfl
  | slidingWindow policy =>
    rcases lt_or_ge (keptScores policy redis policyName principal now).length policy.limit with
      hlt | hge
    · rw [checkPolicy, (checkSlidingWindow_of_lt hlt).1] at hdenied
      exact absurd hdenied (by simp [CheckResult.isAllowed])
    · simp only [checkPolicy]
      rw [checkSlidingWindow_fst, checkSlidingWindow_fst, keptScores_of_denied hle hge]
  | leakyBucket policy =>
    rcases le_or_gt policy.capacity (leakedLevel policy
      (redis.hgetall (redisKey policyName principal) now) now) with hle' | hlt
    · obtain ⟨retryAfterSeconds, heq⟩ := checkLeakyBucket_of_le hle'
      rw [checkPolicy, checkPolicy, heq]
      rfl
    · rw [checkPolicy, checkLeakyBucket_of_lt hlt] at hdenied
      exact absurd hdenied (by simp [CheckResult.isAllowed])

/-- While a client waits, no later answer changes. -/
theorem Waits.alike {start : ℤ} (h : Waits config policyName principal redis start redis' now) :
    start ≤ now ∧ ∀ later, now ≤ later →
      (checkPolicy redis' policyName principal config later).1 =
        (checkPolicy redis policyName principal config later).1 := by
  induction h with
  | refl => exact ⟨le_rfl, fun _ _ => rfl⟩
  | pass _ hle hsame ih =>
    exact ⟨ih.1.trans hle, fun later hlater =>
      (checkPolicy_fst_of_sameKey hsame later).trans (ih.2 later (hle.trans hlater))⟩
  | denied _ hdenied ih =>
    exact ⟨ih.1, fun later hlater =>
      (checkPolicy_fst_of_denied hlater hdenied).trans (ih.2 later hlater)⟩

/-! ## After the wait -/

/-- A wait of at least `amount / rate` seconds, rounded up, is long enough for the amount. -/
theorem le_of_wait {amount rate : ℚ} {k : ℤ} (hrate : 0 < rate)
    (hk : max 1 ⌈amount / rate⌉ = k) (hlater : now + k * 1000 ≤ later) :
    amount ≤ (later - now) / 1000 * rate := by
  have hceil : amount / rate ≤ k :=
    (Int.le_ceil _).trans (Int.cast_le.mpr ((le_max_right _ _).trans hk.le))
  have hcast : (now : ℚ) + k * 1000 ≤ later := by exact_mod_cast hlater
  have hwait : (k : ℚ) ≤ (later - now) / 1000 := by linarith
  exact (div_le_iff₀ hrate).mp (hceil.trans hwait)

/-- Below one the tokens are not cut off at the capacity, and grow with the time. -/
theorem refilledTokens_later {policy : TokenBucketPolicy} {current : Hash}
    (hfield : current "lastRefill" ≠ none) (h : refilledTokens policy current now < 1) :
    refilledTokens policy current later = min policy.capacity
      (refilledTokens policy current now + (later - now) / 1000 * policy.refillPerSecond) := by
  obtain ⟨lastRefill, hlast⟩ := Option.ne_none_iff_exists'.mp hfield
  simp only [refilledTokens, hlast, Option.getD_some] at h ⊢
  have hone := policy.one_le_capacity
  rw [min_eq_right ((min_lt_iff.mp h).resolve_left hone.not_gt |>.le.trans hone)]
  ring_nf

/-- At the capacity or above the level is not cut off at zero, and falls with the time. -/
theorem leakedLevel_later {policy : LeakyBucketPolicy} {current : Hash}
    (hfield : current "lastLeak" ≠ none) (h : policy.capacity ≤ leakedLevel policy current now) :
    leakedLevel policy current later = max 0
      (leakedLevel policy current now - (later - now) / 1000 * policy.leakPerSecond) := by
  obtain ⟨lastLeak, hlast⟩ := Option.ne_none_iff_exists'.mp hfield
  simp only [leakedLevel, hlast, Option.getD_some] at h ⊢
  have hpos : 0 < policy.capacity := zero_lt_one.trans_le policy.one_le_capacity
  rw [max_eq_right ((le_max_iff.mp h).resolve_left hpos.not_ge |>.trans' hpos.le)]
  ring_nf

/-- Then there is a token. -/
theorem checkTokenBucket_after {policy : TokenBucketPolicy} {k : ℤ}
    (hwhole : Whole "lastRefill" (redisKey policyName principal) redis)
    (hdenied : (checkTokenBucket redis policyName principal policy now).1 = .denied k)
    (hlater : now + k * 1000 ≤ later) (hle : now ≤ later) :
    (checkTokenBucket redis policyName principal policy later).1 = .allowed := by
  rcases le_or_gt 1 (refilledTokens policy
    (redis.hgetall (redisKey policyName principal) now) now) with henough | hfew
  · rw [checkTokenBucket_of_le henough] at hdenied
    exact absurd hdenied (by simp)
  · have hk : max 1 ⌈(1 - refilledTokens policy (redis.hgetall (redisKey policyName principal) now)
        now) / policy.refillPerSecond⌉ = k := by
      simpa [checkTokenBucket, hfew] using hdenied
    have hwait := le_of_wait policy.refill_pos hk hlater
    have hfield : redis.hgetall (redisKey policyName principal) now "lastRefill" ≠ none := by
      refine (hwhole now).resolve_right fun hnone => ?_
      rw [hnone, refilledTokens_none] at hfew
      exact hfew.not_ge policy.one_le_capacity
    rw [checkTokenBucket_of_le]
    rcases Redis.hgetall_of_le hle redis (redisKey policyName principal) with heq | heq
    · rw [heq, refilledTokens_later hfield hfew]
      exact le_min policy.one_le_capacity (by linarith)
    · rw [heq, refilledTokens_none]
      exact policy.one_le_capacity

/-- Then there is room for one. -/
theorem checkLeakyBucket_after {policy : LeakyBucketPolicy} {k : ℤ}
    (hwhole : Whole "lastLeak" (redisKey policyName principal) redis)
    (hdenied : (checkLeakyBucket redis policyName principal policy now).1 = .denied k)
    (hlater : now + k * 1000 ≤ later) (hle : now ≤ later) :
    (checkLeakyBucket redis policyName principal policy later).1 = .allowed := by
  have hpos : 0 < policy.capacity := zero_lt_one.trans_le policy.one_le_capacity
  rcases lt_or_ge (leakedLevel policy
    (redis.hgetall (redisKey policyName principal) now) now) policy.capacity with hroom | hfull
  · rw [checkLeakyBucket_of_lt hroom] at hdenied
    exact absurd hdenied (by simp)
  · have hk : max 1 ⌈(leakedLevel policy (redis.hgetall (redisKey policyName principal) now) now -
        policy.capacity + 1) / policy.leakPerSecond⌉ = k := by
      simpa [checkLeakyBucket, hfull] using hdenied
    have hwait := le_of_wait policy.leak_pos hk hlater
    have hfield : redis.hgetall (redisKey policyName principal) now "lastLeak" ≠ none := by
      refine (hwhole now).resolve_right fun hnone => ?_
      rw [hnone, leakedLevel_none] at hfull
      exact hfull.not_gt hpos
    rw [checkLeakyBucket_of_lt]
    rcases Redis.hgetall_of_le hle redis (redisKey policyName principal) with heq | heq
    · rw [heq, leakedLevel_later hfield hfull]
      exact max_lt hpos (by linarith)
    · rw [heq, leakedLevel_none]
      exact hpos

/-- Then the window has moved past all members. -/
theorem checkSlidingWindow_after {policy : SlidingWindowPolicy} {k : ℤ}
    (hlimit : 1 ≤ policy.limit)
    (hstored : ∀ score ∈ (redis.zsets (redisKey policyName principal)).stored,
      0 ≤ score ∧ score ≤ now)
    (hdenied : (checkSlidingWindow redis policyName principal policy now).1 = .denied k)
    (hlater : now + k * 1000 ≤ later) :
    (checkSlidingWindow redis policyName principal policy later).1 = .allowed := by
  rw [checkSlidingWindow_fst] at hdenied
  split_ifs at hdenied with hfull
  obtain rfl := CheckResult.denied.inj hdenied
  have hnone : keptScores policy redis policyName principal later = [] := by
    refine List.filter_eq_nil_iff.mpr fun score hscore => ?_
    obtain ⟨hnonneg, hle⟩ := hstored score ((Slot.scores_sublist _ _).subset hscore)
    rw [decide_eq_true_eq]
    omega
  rw [checkSlidingWindow_fst, hnone, List.length_nil, if_neg (Nat.not_le.mpr hlimit)]

end

/-- A check of any policy that is denied at the time `now`, whatever the key can hold then : a
check of the key that comes after the seconds it was told is let through, if those in between
were denied. -/
theorem retryAfter_suffices (config : RatePolicyConfig)
    (hlimit : ∀ policy, config = .slidingWindow policy → 1 ≤ policy.limit)
    (policyName : RatePolicyName) (principal : String) (redis redis' : Redis)
    (now later retryAfterSeconds : ℤ)
    (hreachable : Reachable config (redisKey policyName principal) redis now)
    (hdenied : (checkPolicy redis policyName principal config now).1 = .denied retryAfterSeconds)
    (hwaits : Waits config policyName principal
      (checkPolicy redis policyName principal config now).2 now redis' later)
    (hlater : now + retryAfterSeconds * 1000 ≤ later) :
    (checkPolicy redis' policyName principal config later).1 = .allowed := by
  obtain ⟨hle, halike⟩ := hwaits.alike
  rw [halike later le_rfl, checkPolicy_fst_of_denied hle (by rw [hdenied]; rfl)]
  cases config with
  | tokenBucket policy =>
    refine checkTokenBucket_after (hreachable.whole ?_) hdenied hlater hle
    rintro _ _ ⟨tokens, lastRefill, rfl⟩ current
    simp [Hash.set]
  | slidingWindow policy =>
    exact checkSlidingWindow_after (hlimit policy rfl) hreachable.stored hdenied hlater
  | leakyBucket policy =>
    refine checkLeakyBucket_after (hreachable.whole ?_) hdenied hlater hle
    rintro _ _ ⟨level, lastLeak, rfl⟩ current
    simp [Hash.set]

/-- A bucket of one token that fills in two seconds : the second of two requests at once is told
to wait two seconds, and is let through then. -/
theorem retryAfter_suffices_oneToken : ∃ policy : TokenBucketPolicy, policy.capacity = 1 ∧
    (checkTokenBucket (checkTokenBucket .empty .defaultWrite "7" policy 0).2 .defaultWrite "7"
      policy 0).1 = .denied 2 ∧
    (checkTokenBucket (checkTokenBucket (checkTokenBucket .empty .defaultWrite "7" policy 0).2
      .defaultWrite "7" policy 0).2 .defaultWrite "7" policy 2000).1 = .allowed := by
  refine ⟨⟨1, 1 / 2, by norm_num, by norm_num⟩, rfl, by decide +kernel, ?_⟩
  have hstart : Reachable (.tokenBucket ⟨1, 1 / 2, by norm_num, by norm_num⟩)
      (redisKey .defaultWrite "7") .empty 0 := .start le_rfl rfl rfl
  have hreachable := hstart.check
  exact retryAfter_suffices _ (fun _ h => by cases h) .defaultWrite "7" _ _ 0 2000 2 hreachable
    (by decide +kernel) (.pass .refl (by decide) ⟨rfl, rfl⟩) (by decide)

end Qoms.RateLimitService
