import Qoms.RateLimitBucket
import Qoms.Run
import Mathlib.Algebra.Order.Group.MinMax
import Mathlib.Data.List.Pairwise

/-!
# The leaky bucket of a principal

`checkLeakyBucket` lets a request through while the level is below the capacity, and then adds
one. So the level gets above the capacity where the room left is less than one (`Overfills`),
although the check asks a denied client to wait until there is room for one, and
`checkTokenBucket` asks for a whole token. `elevenInAMillisecond` is such a run.

Where no check overfills, the room that is left is the level of a token bucket (`Drains`), and
the bound of the one is that of the other. `leakyBucket_bounded_iff` says that this is the exact
condition.
-/

set_option autoImplicit false

namespace Qoms.RateLimitService

namespace LeakyBucketPolicy

variable (policy : LeakyBucketPolicy)

/-- The token bucket whose tokens are the room in the leaky bucket. -/
def room : TokenBucketPolicy where
  capacity := policy.capacity
  refillPerSecond := policy.leakPerSecond
  one_le_capacity := policy.one_le_capacity
  refill_pos := policy.leak_pos

/-- By the stored fields there is room at the time `now`, but not for one. -/
def Overfills (current : Hash) (now : ℤ) : Prop :=
  let lastLeak := (current "lastLeak").getD now
  let level := (current "level").getD 0 - (now - lastLeak) / 1000 * policy.leakPerSecond
  policy.capacity - 1 < level ∧ level < policy.capacity

instance (current : Hash) (now : ℤ) : Decidable (policy.Overfills current now) :=
  inferInstanceAs (Decidable (_ ∧ _))

/-- The stored level, whenever it is read, is at most the capacity. -/
def LevelWithin (key : String) (redis : Redis) : Prop :=
  ∀ now level, redis.hgetall key now "level" = some level → level ≤ policy.capacity

/-- From the time of `s` on, a check finds the room that the token bucket has tokens. -/
def Drains (key : String) (redis : Redis) (s : TokenBucket.Level ℚ) : Prop :=
  ∀ now, s.time ≤ seconds now → leakedLevel policy (redis.hgetall key now) now =
    policy.capacity - policy.room.ideal.refill s (seconds now)

end LeakyBucketPolicy

section

variable {policy : LeakyBucketPolicy} {policyName : RatePolicyName} {principal : String}
  {redis : Redis} {now later t : ℤ} {s : TokenBucket.Level ℚ}

/-! ## The level -/

/-- Without fields the bucket is empty. -/
theorem leakedLevel_none : leakedLevel policy (fun _ => none) now = 0 := by
  simp [leakedLevel]

theorem leakedLevel_set (h : Hash) (tokens : ℚ) :
    leakedLevel policy (h.set [("level", policy.capacity - tokens), ("lastLeak", (t : ℚ))]) now =
      policy.capacity - policy.room.ideal.refill ⟨tokens, seconds t⟩ (seconds now) := by
  simp only [leakedLevel, Hash.set, List.foldl_cons, List.foldl_nil, Function.update_self,
    ne_eq, String.reduceEq, not_false_eq_true, Function.update_of_ne, Option.getD_some,
    TokenBucket.refill, TokenBucketPolicy.ideal, LeakyBucketPolicy.room, seconds]
  rw [← max_sub_sub_left, sub_self, ← sub_sub, ← sub_div, mul_comm policy.leakPerSecond]

/-- A level that is cut off at zero is not near the capacity. -/
theorem overfills_iff {current : Hash} : policy.Overfills current now ↔
    policy.capacity - 1 < leakedLevel policy current now ∧
      leakedLevel policy current now < policy.capacity := by
  have hone := policy.one_le_capacity
  unfold LeakyBucketPolicy.Overfills leakedLevel
  dsimp only
  constructor
  · rintro ⟨hlt, hgt⟩
    exact ⟨hlt.trans_le (le_max_right _ _), max_lt (by linarith) hgt⟩
  · rintro ⟨hlt, hgt⟩
    rcases lt_max_iff.mp hlt with hzero | hlt
    · exact absurd hzero (by linarith)
    · exact ⟨hlt, (le_max_right _ _).trans_lt hgt⟩

/-- The bucket of a key that is not there has all its room. -/
theorem drains_full {key : String} (h : redis.hashes key = none) (t : ℤ) :
    policy.Drains key redis (policy.room.full t) := by
  intro now hle
  have hfull : refilledTokens policy.room (redis.hgetall key now) now =
      policy.room.ideal.refill (policy.room.full t) (seconds now) := tracks_full h t now hle
  rw [Redis.hgetall_of_none h, refilledTokens_none] at hfull
  rw [Redis.hgetall_of_none h, leakedLevel_none, ← hfull]
  exact (sub_self _).symm

/-! ## One check -/

theorem checkLeakyBucket_of_le (h : policy.capacity ≤
      leakedLevel policy (redis.hgetall (redisKey policyName principal) now) now) :
    ∃ retryAfterSeconds, checkLeakyBucket redis policyName principal policy now =
      (.denied retryAfterSeconds, redis) :=
  ⟨_, if_pos h⟩

theorem checkLeakyBucket_of_lt
    (h : leakedLevel policy (redis.hgetall (redisKey policyName principal) now) now <
      policy.capacity) :
    checkLeakyBucket redis policyName principal policy now = (.allowed,
      (redis.hset (redisKey policyName principal)
        [("level", leakedLevel policy (redis.hgetall (redisKey policyName principal) now) now + 1),
          ("lastLeak", now)] now).expire (redisKey policyName principal)
          ⌈policy.capacity / policy.leakPerSecond⌉ now) :=
  if_neg h.not_ge

/-- A check keeps the level within the capacity just when it does not overfill. -/
theorem levelWithin_check_iff (h : policy.LevelWithin (redisKey policyName principal) redis)
    (now : ℤ) :
    policy.LevelWithin (redisKey policyName principal)
        (checkLeakyBucket redis policyName principal policy now).2 ↔
      ¬policy.Overfills (redis.hgetall (redisKey policyName principal) now) now := by
  rw [overfills_iff, not_and_or, not_lt, not_lt]
  rcases le_or_gt policy.capacity
    (leakedLevel policy (redis.hgetall (redisKey policyName principal) now) now) with hfull | hroom
  · obtain ⟨retryAfterSeconds, heq⟩ := checkLeakyBucket_of_le hfull
    rw [heq]
    exact iff_of_true h (Or.inr hfull)
  · rw [checkLeakyBucket_of_lt hroom, or_iff_left hroom.not_ge]
    have hceil : 0 ≤ ⌈policy.capacity / policy.leakPerSecond⌉ :=
      Int.ceil_nonneg (div_nonneg (zero_le_one.trans policy.one_le_capacity) policy.leak_pos.le)
    constructor
    · intro hwithin
      have hlevel := hwithin now
        (leakedLevel policy (redis.hgetall (redisKey policyName principal) now) now + 1) (by
          rw [Redis.hgetall_expire_hset, if_pos (by omega)]
          simp [Hash.set])
      exact le_sub_iff_add_le.mpr hlevel
    · intro hle later level hlevel
      rw [Redis.hgetall_expire_hset] at hlevel
      split_ifs at hlevel with hlive
      obtain rfl : leakedLevel policy (redis.hgetall (redisKey policyName principal) now) now + 1 =
          level := by simpa [Hash.set] using hlevel
      exact le_sub_iff_add_le.mp hle

/-- A check that does not overfill decides as the token bucket and drains as it does. -/
theorem LeakyBucketPolicy.Drains.check
    (h : policy.Drains (redisKey policyName principal) redis s) (hle : s.time ≤ seconds now)
    (hnot : ¬policy.Overfills (redis.hgetall (redisKey policyName principal) now) now) :
    (checkLeakyBucket redis policyName principal policy now).1.isAllowed =
        (policy.room.ideal.take s (seconds now)).1 ∧
      policy.Drains (redisKey policyName principal)
        (checkLeakyBucket redis policyName principal policy now).2
        (policy.room.ideal.take s (seconds now)).2 := by
  have hlevel := h now hle
  rw [overfills_iff, not_and_or, not_lt, not_lt] at hnot
  rcases hnot with henough | hfull
  · have hroom : 1 ≤ policy.room.ideal.refill s (seconds now) := by linarith
    rw [checkLeakyBucket_of_lt (by linarith), TokenBucket.take_of_le hroom]
    refine ⟨rfl, fun later hlater => ?_⟩
    rw [Redis.hgetall_expire_hset]
    split_ifs with hlive
    · rw [hlevel, sub_add, leakedLevel_set]
    · have hrefill : policy.room.ideal.refill ⟨_, seconds now⟩ (seconds later) = policy.capacity :=
        refill_of_expired (sub_nonneg.mpr hroom) (not_le.mp hlive)
      rw [leakedLevel_none, hrefill]
      exact (sub_self _).symm
  · have hfew : policy.room.ideal.refill s (seconds now) < 1 := by linarith
    obtain ⟨retryAfterSeconds, heq⟩ := checkLeakyBucket_of_le hfull
    rw [heq, TokenBucket.take_of_lt hfew]
    refine ⟨rfl, fun later hlater => ?_⟩
    rw [h later (hle.trans hlater), TokenBucket.refill_refill hlater]

/-! ## Runs -/

/-- If no check of a run overfills, the answers are those of the token bucket. -/
theorem LeakyBucketPolicy.Drains.answers {times : List ℤ}
    (h : policy.Drains (redisKey policyName principal) redis s)
    (hsorted : (s.time :: times.map seconds).Pairwise (· ≤ ·))
    (hnot : EachStep (fun redis now => (checkLeakyBucket redis policyName principal policy now).2)
      redis times fun redis now =>
        ¬policy.Overfills (redis.hgetall (redisKey policyName principal) now) now) :
    (RateLimitService.answers (fun redis now => checkLeakyBucket redis policyName principal policy
        now) redis times).map CheckResult.isAllowed =
      policy.room.ideal.decisions s (times.map seconds) := by
  induction times generalizing redis s with
  | nil => rfl
  | cons now times ih =>
    obtain ⟨hfirst, hrest⟩ := List.pairwise_cons.mp hsorted
    obtain ⟨hnow, hnot⟩ := eachStep_cons.mp hnot
    obtain ⟨hdecision, hdrains⟩ := h.check (hfirst _ List.mem_cons_self) hnow
    have htime : (policy.room.ideal.take s (seconds now)).2.time = seconds now :=
      TokenBucket.take_time
    rw [List.map_cons, ← htime] at hrest
    rw [RateLimitService.answers, List.map_cons, List.map_cons, TokenBucket.decisions, hdecision,
      ih hdrains hrest hnot]

end

/-- Checks of one key, the first on a key that is not there, at times that do not decrease : the
stored level stays within the capacity, and no interval of `d` seconds has more checks let
through than the capacity and `d` times the leak rate, exactly when no check finds room for a
part of a request only. -/
theorem leakyBucket_bounded_iff (policy : LeakyBucketPolicy) (policyName : RatePolicyName)
    (principal : String) (redis : Redis)
    (hnew : redis.hashes (redisKey policyName principal) = none) (times : List ℤ)
    (hsorted : times.Pairwise (· ≤ ·)) :
    let check := fun redis now => checkLeakyBucket redis policyName principal policy now
    (Throughout (fun redis now => (check redis now).2) redis times
        (policy.LevelWithin (redisKey policyName principal)) ∧
      ∀ a d : ℚ, 0 ≤ d →
        ((admitted (times.map seconds) ((answers check redis times).map
            CheckResult.isAllowed)).countP (fun t => a ≤ t ∧ t ≤ a + d) : ℚ) ≤
          policy.capacity + policy.leakPerSecond * d) ↔
    EachStep (fun redis now => (check redis now).2) redis times fun redis now =>
      ¬policy.Overfills (redis.hgetall (redisKey policyName principal) now) now := by
  intro check
  have hwithin : policy.LevelWithin (redisKey policyName principal) redis := by
    intro now level hlevel
    rw [Redis.hgetall_of_none hnew] at hlevel
    exact absurd hlevel (by simp)
  have hlevels : Throughout (fun redis now => (check redis now).2) redis times
      (policy.LevelWithin (redisKey policyName principal)) ↔
      EachStep (fun redis now => (check redis now).2) redis times fun redis now =>
        ¬policy.Overfills (redis.hgetall (redisKey policyName principal) now) now :=
    @throughout_iff_eachStep _ _ _ (fun _ => True) (fun _ => True) _ _ _ _ (fun _ _ _ _ => trivial)
      (fun _ now _ _ h => levelWithin_check_iff h now) trivial hwithin fun _ _ => trivial
  refine ⟨fun h => hlevels.mp h.1, fun hnot => ⟨hlevels.mpr hnot, fun a d hd => ?_⟩⟩
  cases times with
  | nil =>
    rw [List.map_nil, admitted_nil, List.countP_nil, Nat.cast_zero]
    exact add_nonneg (zero_le_one.trans policy.one_le_capacity) (mul_nonneg policy.leak_pos.le hd)
  | cons t times =>
    have hfull : (t :: t :: times).Pairwise (· ≤ ·) :=
      List.pairwise_cons_cons_iff_of_trans.mpr ⟨le_rfl, hsorted⟩
    rw [(drains_full hnew t).answers (policy.room.pairwise_full hfull) hnot]
    exact policy.room.countP_full_le hfull a hd

/-- Ten requests at once and one a millisecond later. -/
def elevenInAMillisecond : List ℤ :=
  [0, 0, 0, 0, 0, 0, 0, 0, 0, 0, 1]

/-- All eleven are let through, which is more than ten and what leaks in a millisecond, and the
level is above ten. -/
theorem elevenInAMillisecond_overfills : ∃ policy,
    policies .occupancyIngest = .leakyBucket policy ∧
    ¬policy.LevelWithin (redisKey .occupancyIngest "7") (Qoms.run (fun redis now =>
      (checkLeakyBucket redis .occupancyIngest "7" policy now).2) .empty elevenInAMillisecond) ∧
    policy.capacity + policy.leakPerSecond * (1 / 1000) <
      ((admitted (elevenInAMillisecond.map seconds) ((answers (fun redis now =>
        checkLeakyBucket redis .occupancyIngest "7" policy now) .empty
          elevenInAMillisecond).map CheckResult.isAllowed)).countP
            (fun t => 0 ≤ t ∧ t ≤ 0 + 1 / 1000) : ℚ) := by
  refine ⟨_, rfl, fun h => ?_, by decide +kernel⟩
  have hlevel : (21999 / 2000 : ℚ) ≤ 10 := h 1 (21999 / 2000) (by decide +kernel)
  norm_num at hlevel

/-- Two requests at once keep to the bound. -/
theorem leakyBucket_bounded_iff_twoAtOnce : ∃ policy,
    policies .occupancyIngest = .leakyBucket policy ∧
    Throughout (fun redis now => (checkLeakyBucket redis .occupancyIngest "7" policy now).2) .empty
      [0, 0] (policy.LevelWithin (redisKey .occupancyIngest "7")) := by
  refine ⟨_, rfl, ((leakyBucket_bounded_iff _ .occupancyIngest "7" .empty rfl [0, 0]
    (by decide)).mpr ?_).1⟩
  exact eachStep_cons.mpr ⟨by decide +kernel, eachStep_cons.mpr ⟨by decide +kernel, eachStep_nil⟩⟩

end Qoms.RateLimitService
