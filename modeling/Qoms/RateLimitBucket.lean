import Qoms.RateLimit
import Qoms.TokenBucket
import Mathlib.Algebra.Order.Archimedean.Basic

/-!
# The token bucket of a principal

`checkTokenBucket` writes only when it lets a request through, and lets the key expire after
the time in which an empty bucket fills. Neither is seen : until the next write the tokens that a
check computes are those of an ideal bucket that was refilled all the time (`Tracks`), as
refilling in two steps is refilling in one, and a bucket whose key is gone is full.

So the answers are those of the ideal bucket, and bounded like its (`tokenBucket_ideal`).
-/

set_option autoImplicit false

namespace Qoms.RateLimitService

/-- Time in seconds. -/
def seconds (now : ℤ) : ℚ :=
  now / 1000

theorem seconds_le_seconds {t u : ℤ} (h : t ≤ u) : seconds t ≤ seconds u :=
  div_le_div_of_nonneg_right (Int.cast_le.mpr h) (by norm_num)

namespace TokenBucketPolicy

variable (policy : TokenBucketPolicy)

/-- The ideal bucket of a policy, with time in seconds. -/
def ideal : TokenBucket ℚ where
  capacity := policy.capacity
  rate := policy.refillPerSecond
  capacity_nonneg := zero_le_one.trans policy.one_le_capacity
  rate_nonneg := policy.refill_pos.le

/-- A full bucket. -/
def full (now : ℤ) : TokenBucket.Level ℚ :=
  ⟨policy.capacity, seconds now⟩

section

variable {start : ℤ} {times : List ℤ}

theorem pairwise_full (hsorted : (start :: times).Pairwise (· ≤ ·)) :
    ((policy.full start).time :: times.map seconds).Pairwise (· ≤ ·) :=
  (List.pairwise_map (l := start :: times)).mpr (hsorted.imp seconds_le_seconds)

/-- What a bucket lets through in an interval, when it is full before the first request. -/
theorem countP_full_le (hsorted : (start :: times).Pairwise (· ≤ ·)) (a : ℚ) {d : ℚ}
    (hd : 0 ≤ d) :
    ((admitted (times.map seconds) (policy.ideal.decisions (policy.full start)
        (times.map seconds))).countP (fun t => a ≤ t ∧ t ≤ a + d) : ℚ) ≤
      policy.capacity + policy.refillPerSecond * d := by
  have hbound := TokenBucket.countP_window_le (b := policy.ideal) (s := policy.full start)
    (t := a) (u := a + d) (zero_le_one.trans policy.one_le_capacity)
    (policy.pairwise_full hsorted) (le_add_of_nonneg_right hd)
  rwa [add_sub_cancel_left] at hbound

end

end TokenBucketPolicy

section

variable {policy : TokenBucketPolicy} {policyName : RatePolicyName} {principal : String}
  {redis : Redis} {now later t : ℤ}

/-- Without fields the bucket is full. -/
theorem refilledTokens_none : refilledTokens policy (fun _ => none) now = policy.capacity := by
  simp [refilledTokens]

theorem refilledTokens_set (h : Hash) (tokens : ℚ) :
    refilledTokens policy (h.set [("tokens", tokens), ("lastRefill", (t : ℚ))]) now =
      policy.ideal.refill ⟨tokens, seconds t⟩ (seconds now) := by
  simp only [refilledTokens, Hash.set, List.foldl_cons, List.foldl_nil, Function.update_self,
    ne_eq, String.reduceEq, not_false_eq_true, Function.update_of_ne, Option.getD_some,
    TokenBucket.refill, TokenBucketPolicy.ideal, seconds]
  rw [sub_div, mul_comm policy.refillPerSecond]

/-- Once the key has expired, the bucket is full again. -/
theorem refill_of_expired {tokens : ℚ} (htokens : 0 ≤ tokens)
    (h : now + ⌈policy.capacity / policy.refillPerSecond⌉ * 1000 < later) :
    policy.ideal.refill ⟨tokens, seconds now⟩ (seconds later) = policy.capacity := by
  refine min_eq_left (le_add_of_nonneg_of_le htokens ?_)
  have hcast : (now : ℚ) + ⌈policy.capacity / policy.refillPerSecond⌉ * 1000 < later := by
    exact_mod_cast h
  have hgap : policy.capacity / policy.refillPerSecond ≤ seconds later - seconds now := by
    have hceil := Int.le_ceil (policy.capacity / policy.refillPerSecond)
    rw [seconds, seconds]
    linarith
  rw [mul_comm]
  exact (div_le_iff₀ policy.refill_pos).mp hgap

/-- From the time of the level on, a check computes the tokens of the ideal bucket. -/
def Tracks (policy : TokenBucketPolicy) (key : String) (redis : Redis)
    (s : TokenBucket.Level ℚ) : Prop :=
  ∀ now, s.time ≤ seconds now →
    refilledTokens policy (redis.hgetall key now) now = policy.ideal.refill s (seconds now)

/-- A bucket that was never used is full. -/
theorem tracks_full {key : String} (h : redis.hashes key = none) (t : ℤ) :
    Tracks policy key redis (policy.full t) := by
  intro now hle
  rw [Redis.hgetall_of_none h, refilledTokens_none]
  exact (min_eq_left (le_add_of_nonneg_right
    (mul_nonneg policy.refill_pos.le (sub_nonneg.mpr hle)))).symm

section

variable {s : TokenBucket.Level ℚ}

theorem checkTokenBucket_of_lt
    (h : refilledTokens policy (redis.hgetall (redisKey policyName principal) now) now < 1) :
    ∃ retryAfterSeconds, checkTokenBucket redis policyName principal policy now =
      (.denied retryAfterSeconds, redis) :=
  ⟨_, if_pos h⟩

theorem checkTokenBucket_of_le
    (h : 1 ≤ refilledTokens policy (redis.hgetall (redisKey policyName principal) now) now) :
    checkTokenBucket redis policyName principal policy now = (.allowed,
      (redis.hset (redisKey policyName principal)
        [("tokens", refilledTokens policy (redis.hgetall (redisKey policyName principal) now) now
          - 1), ("lastRefill", now)] now).expire (redisKey policyName principal)
          ⌈policy.capacity / policy.refillPerSecond⌉ now) :=
  if_neg h.not_gt

/-- One check decides as the ideal bucket and tracks it still. -/
theorem Tracks.check (h : Tracks policy (redisKey policyName principal) redis s)
    (hle : s.time ≤ seconds now) :
    (checkTokenBucket redis policyName principal policy now).1.isAllowed =
        (policy.ideal.take s (seconds now)).1 ∧
      Tracks policy (redisKey policyName principal)
        (checkTokenBucket redis policyName principal policy now).2
        (policy.ideal.take s (seconds now)).2 := by
  have htokens := h now hle
  rcases le_or_gt 1 (policy.ideal.refill s (seconds now)) with henough | hfew
  · rw [checkTokenBucket_of_le (htokens ▸ henough), TokenBucket.take_of_le henough, htokens]
    refine ⟨rfl, fun later hlater => ?_⟩
    rw [Redis.hgetall_expire_hset]
    split_ifs with hlive
    · exact refilledTokens_set _ _
    · rw [refilledTokens_none, refill_of_expired (sub_nonneg.mpr henough) (not_le.mp hlive)]
  · obtain ⟨retryAfterSeconds, heq⟩ := checkTokenBucket_of_lt (htokens ▸ hfew)
    rw [heq, TokenBucket.take_of_lt hfew]
    refine ⟨rfl, fun later hlater => ?_⟩
    -- nothing was written, and the ideal bucket only waited
    rw [h later (hle.trans hlater), TokenBucket.refill_refill hlater]

/-- So the answers are those of the ideal bucket. -/
theorem Tracks.answers {times : List ℤ}
    (h : Tracks policy (redisKey policyName principal) redis s)
    (hsorted : (s.time :: times.map seconds).Pairwise (· ≤ ·)) :
    (answers (fun redis now => checkTokenBucket redis policyName principal policy now) redis
        times).map CheckResult.isAllowed =
      policy.ideal.decisions s (times.map seconds) := by
  induction times generalizing redis s with
  | nil => rfl
  | cons now times ih =>
    obtain ⟨hfirst, hrest⟩ := List.pairwise_cons.mp hsorted
    obtain ⟨hdecision, htracks⟩ := h.check (hfirst _ List.mem_cons_self)
    have htime : (policy.ideal.take s (seconds now)).2.time = seconds now := TokenBucket.take_time
    rw [List.map_cons, ← htime] at hrest
    rw [RateLimitService.answers, List.map_cons, List.map_cons, TokenBucket.decisions, hdecision,
      ih htracks hrest]

end

/-- The first request finds a full bucket. -/
theorem checkTokenBucket_empty_isAllowed :
    (checkTokenBucket .empty policyName principal policy now).1.isAllowed = true := by
  rw [checkTokenBucket_of_le]
  · rfl
  · rw [Redis.hgetall_of_none rfl, refilledTokens_none]
    exact policy.one_le_capacity

/-- At one time a bucket runs dry. -/
theorem exists_tokenBucket_denied (policy : TokenBucketPolicy) (policyName : RatePolicyName)
    (principal : String) (now : ℤ) : ∃ n,
      (checkTokenBucket (afterChecks
        (fun redis now => checkTokenBucket redis policyName principal policy now) .empty now n)
          policyName principal policy now).1.isAllowed = false := by
  by_contra hnone
  simp only [not_exists, Bool.not_eq_false] at hnone
  -- each request takes a token
  have htracks : ∀ n : ℕ, 0 ≤ policy.capacity - n ∧
      Tracks policy (redisKey policyName principal) (afterChecks
        (fun redis now => checkTokenBucket redis policyName principal policy now) .empty now n)
        ⟨policy.capacity - n, seconds now⟩ := by
    intro n
    induction n with
    | zero =>
      rw [Nat.cast_zero, sub_zero]
      exact ⟨zero_le_one.trans policy.one_le_capacity, tracks_full rfl now⟩
    | succ n ih =>
      obtain ⟨-, htracks⟩ := ih
      have hself := TokenBucket.refill_self (b := policy.ideal)
        (s := ⟨policy.capacity - n, seconds now⟩) (sub_le_self _ n.cast_nonneg)
      obtain ⟨hdecision, htracks'⟩ := htracks.check le_rfl
      rw [hnone n, TokenBucket.take, hself] at hdecision
      split_ifs at hdecision with htoken
      rw [TokenBucket.take, hself, if_pos htoken] at htracks'
      rw [Nat.cast_succ, ← sub_sub]
      exact ⟨sub_nonneg.mpr htoken, htracks'⟩
  obtain ⟨n, hn⟩ := exists_nat_gt policy.capacity
  exact absurd (htracks n).1 (sub_neg.mpr hn).not_ge

end

/-- Checks of one key, the first on a key that is not there, answer as the ideal token bucket
that is full before the first of them. So in no interval of `d` seconds more than the capacity
and `d` times the refill rate are let through. -/
theorem tokenBucket_ideal (policy : TokenBucketPolicy) (policyName : RatePolicyName)
    (principal : String) (redis : Redis)
    (hnew : redis.hashes (redisKey policyName principal) = none) (start : ℤ) (times : List ℤ)
    (hsorted : (start :: times).Pairwise (· ≤ ·)) :
    let decisions := (answers
      (fun redis now => checkTokenBucket redis policyName principal policy now) redis times).map
        CheckResult.isAllowed
    decisions = policy.ideal.decisions (policy.full start) (times.map seconds) ∧
      ∀ a d : ℚ, 0 ≤ d →
        ((admitted (times.map seconds) decisions).countP (fun t => a ≤ t ∧ t ≤ a + d) : ℚ) ≤
          policy.capacity + policy.refillPerSecond * d := by
  have hdecisions := (tracks_full hnew start).answers (policy.pairwise_full hsorted)
  refine ⟨hdecisions, fun a d hd => ?_⟩
  rw [hdecisions]
  exact policy.countP_full_le hsorted a hd

/-- Of two requests at once and one two seconds later, a bucket of one token that fills in two
seconds denies the one in between. -/
theorem tokenBucket_ideal_oneToken : ∃ policy : TokenBucketPolicy, policy.capacity = 1 ∧
    policy.refillPerSecond = 1 / 2 ∧
    (answers (fun redis now => checkTokenBucket redis .defaultWrite "7" policy now) .empty
        [0, 0, 2000]).map CheckResult.isAllowed = [true, false, true] := by
  refine ⟨⟨1, 1 / 2, by norm_num, by norm_num⟩, rfl, rfl, ?_⟩
  refine (tokenBucket_ideal _ .defaultWrite "7" .empty rfl 0 [0, 0, 2000] (by decide)).1.trans ?_
  norm_num [TokenBucket.decisions, TokenBucket.take, TokenBucket.refill, seconds,
    TokenBucketPolicy.ideal, TokenBucketPolicy.full]

end Qoms.RateLimitService
