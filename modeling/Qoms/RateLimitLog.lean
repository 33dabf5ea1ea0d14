import Qoms.RateLimitRace
import Qoms.RateLimitWindow
import Qoms.TokenBucket

/-!
# The log of a sliding window

Checks of one key, one after another. The sorted set is trimmed at each check and is gone some
time after the last success, and a denied check leaves no member. Still, what a check counts are
just the earlier checks that were let through within its window (`Logs`) : what was trimmed or
has expired is outside of every later window too. So a check is let through exactly when fewer
than the limit were (`slidingWindow_exact`).

A clock counts from 1970, so no score is below the trim's lower bound.
-/

set_option autoImplicit false

namespace Qoms.RateLimitService

open SlidingWindow

/-- The times of the checks that were let through. -/
def allowedTimes (check : Redis → ℤ → CheckResult × Redis) (redis : Redis) (times : List ℤ) :
    List ℤ :=
  admitted times ((answers check redis times).map CheckResult.isAllowed)

variable {policy : SlidingWindowPolicy} {policyName : RatePolicyName} {principal : String}
  {redis : Redis} {log : List ℤ} {last now later : ℤ}

/-- From the time `last` on, a check counts those of the `log` within its window. -/
structure Logs (policy : SlidingWindowPolicy) (policyName : RatePolicyName) (principal : String)
    (redis : Redis) (log : List ℤ) (last : ℤ) : Prop where
  nonneg : ∀ t ∈ log, 0 ≤ t
  le_last : ∀ t ∈ log, t ≤ last
  kept : ∀ now, last ≤ now →
    keptScores policy redis policyName principal now = log.filter (inWindow policy now)

theorem logs_nil (hnew : redis.zsets (redisKey policyName principal) = none) (last : ℤ) :
    Logs policy policyName principal redis [] last where
  nonneg t ht := absurd ht List.not_mem_nil
  le_last t ht := absurd ht List.not_mem_nil
  kept now _ := by
    rw [keptScores, windowScores, hnew]
    rfl

/-- The window of a later check leaves out what the window of an earlier one left out. -/
theorem filter_inWindow_filter (hle : ∀ t ∈ log, t ≤ now) (hlater : now ≤ later) :
    (log.filter (inWindow policy now)).filter (inWindow policy later) =
      log.filter (inWindow policy later) := by
  rw [List.filter_filter]
  refine List.filter_congr fun t ht => ?_
  have := hle t ht
  rw [inWindow, inWindow, ← Bool.decide_and, decide_eq_decide]
  omega

/-- What a trim keeps of a log is what lies in the window. -/
theorem filter_trim (hnonneg : ∀ t ∈ log, 0 ≤ t) (hle : ∀ t ∈ log, t ≤ now) :
    (log.filter fun score => ¬(0 ≤ score ∧ score ≤ now - policy.windowSeconds * 1000)) =
      log.filter (inWindow policy now) := by
  refine List.filter_congr fun t ht => ?_
  have := hnonneg t ht
  have := hle t ht
  rw [inWindow, decide_eq_decide]
  omega

/-- Whether a check is let through, by what it keeps. -/
theorem checkSlidingWindow_isAllowed_iff :
    (checkSlidingWindow redis policyName principal policy now).1.isAllowed = true ↔
      (keptScores policy redis policyName principal now).length < policy.limit := by
  rcases lt_or_ge (keptScores policy redis policyName principal now).length policy.limit with
    hlt | hle
  · rw [(checkSlidingWindow_of_lt hlt).1]
    exact iff_of_true rfl hlt
  · rw [(checkSlidingWindow_of_le hle).1]
    exact iff_of_false Bool.false_ne_true hle.not_gt

/-- A denied check only trims. -/
theorem keptScores_of_denied (hlater : now ≤ later)
    (h : policy.limit ≤ (keptScores policy redis policyName principal now).length) :
    keptScores policy (checkSlidingWindow redis policyName principal policy now).2 policyName
        principal later = keptScores policy redis policyName principal later := by
  have hzset : (checkSlidingWindow redis policyName principal policy now).2.zsets
      (redisKey policyName principal) = (redis.zsets (redisKey policyName principal)).removeScores
        now 0 (now - policy.windowSeconds * 1000) := by
    simp only [checkSlidingWindow, Redis.zremrangebyscore, Redis.zcard, Function.update_self,
      scores_trimmed, ge_iff_le, if_pos h]
  rw [keptScores, keptScores, windowScores, windowScores, hzset,
    Slot.scores_removeScores_of_le hlater, List.filter_filter]
  refine List.filter_congr fun t _ => ?_
  rw [← Bool.decide_and, decide_eq_decide]
  omega

/-- After a check that is let through, its key holds what was kept and its time, until it
expires. -/
theorem windowScores_of_allowed
    (h : (keptScores policy redis policyName principal now).length < policy.limit) :
    windowScores (checkSlidingWindow redis policyName principal policy now).2 policyName principal
        later =
      if later ≤ now + policy.windowSeconds * 1000 then
        keptScores policy redis policyName principal now ++ [now]
      else [] := by
  simp only [checkSlidingWindow, Redis.zremrangebyscore, Redis.zcard, Redis.zadd, Redis.expire,
    Function.update_self, scores_trimmed, ge_iff_le, if_neg h.not_ge, windowScores,
    Slot.scores_expire_addScore]

/-- One check is let through as the log says, and is logged if it is. -/
theorem Logs.check (h : Logs policy policyName principal redis log last) (hclock : 0 ≤ last)
    (hle : last ≤ now) :
    ((checkSlidingWindow redis policyName principal policy now).1.isAllowed = true ↔
        log.countP (inWindow policy now) < policy.limit) ∧
      Logs policy policyName principal (checkSlidingWindow redis policyName principal policy now).2
        (log ++ admitted [now]
          [(checkSlidingWindow redis policyName principal policy now).1.isAllowed]) now := by
  have hkept := h.kept now hle
  have hcount : (keptScores policy redis policyName principal now).length =
      log.countP (inWindow policy now) := by
    rw [hkept, List.countP_eq_length_filter]
  refine ⟨by rw [checkSlidingWindow_isAllowed_iff, hcount], ?_⟩
  have hold : ∀ t ∈ log, t ≤ now := fun t ht => (h.le_last t ht).trans hle
  rcases lt_or_ge (keptScores policy redis policyName principal now).length policy.limit with
    hlt | hge
  · rw [checkSlidingWindow_isAllowed_iff.mpr hlt]
    have hlog : log ++ admitted [now] [true] = log ++ [now] := rfl
    have hnonneg : ∀ t ∈ log ++ [now], 0 ≤ t := by
      simpa [or_imp, forall_and] using ⟨h.nonneg, hclock.trans hle⟩
    have hall : ∀ t ∈ log ++ [now], t ≤ now := by simpa [or_imp, forall_and] using hold
    rw [hlog]
    refine ⟨hnonneg, hall, fun later hlater => ?_⟩
    rw [keptScores, windowScores_of_allowed hlt]
    split_ifs with hlive
    · have hsub : ∀ t ∈ keptScores policy redis policyName principal now ++ [now],
          t ∈ log ++ [now] := by
        rw [hkept]
        exact fun t ht => (List.filter_sublist.append_right [now]).subset ht
      rw [filter_trim (fun t ht => hnonneg t (hsub t ht))
        (fun t ht => (hall t (hsub t ht)).trans hlater), List.filter_append, List.filter_append,
        hkept, filter_inWindow_filter hold hlater]
    · -- all of the log is older than the window
      refine (List.filter_eq_nil_iff.mpr fun t ht => ?_).symm
      have := hall t ht
      rw [inWindow, decide_eq_true_eq]
      omega
  · have hdenied := mt checkSlidingWindow_isAllowed_iff.mp hge.not_gt
    rw [Bool.not_eq_true] at hdenied
    have hlog : log ++ admitted [now] [false] = log := List.append_nil log
    rw [hdenied, hlog]
    refine ⟨h.nonneg, hold, fun later hlater => ?_⟩
    rw [keptScores_of_denied hlater hge, h.kept later (hle.trans hlater)]

/-- After a run of checks the next is let through as the log of all says. -/
theorem Logs.run {times : List ℤ} (h : Logs policy policyName principal redis log last)
    (hclock : 0 ≤ last) (hsorted : (last :: times ++ [now]).Pairwise (· ≤ ·)) :
    (checkSlidingWindow (Qoms.run (fun redis now =>
        (checkSlidingWindow redis policyName principal policy now).2) redis times) policyName
          principal policy now).1.isAllowed = true ↔
      (log ++ allowedTimes (fun redis now => checkSlidingWindow redis policyName principal policy
        now) redis times).countP (inWindow policy now) < policy.limit := by
  induction times generalizing redis log last with
  | nil =>
    have hle : last ≤ now := (List.pairwise_cons.mp hsorted).1 now (by simp)
    rw [run_nil, allowedTimes, admitted_nil, List.append_nil]
    exact (h.check hclock hle).1
  | cons t times ih =>
    obtain ⟨hfirst, hrest⟩ := List.pairwise_cons.mp hsorted
    have ht : last ≤ t := hfirst t (by simp)
    have hnext := (h.check hclock ht).2
    have hsplit : allowedTimes (fun redis now => checkSlidingWindow redis policyName principal
        policy now) redis (t :: times) =
          admitted [t] [(checkSlidingWindow redis policyName principal policy t).1.isAllowed] ++
            allowedTimes (fun redis now => checkSlidingWindow redis policyName principal policy
              now) (checkSlidingWindow redis policyName principal policy t).2 times := by
      rw [allowedTimes, answers, List.map_cons]
      cases (checkSlidingWindow redis policyName principal policy t).1.isAllowed with
      | true => rfl
      | false => rfl
    rw [run_cons, hsplit, ← List.append_assoc]
    exact ih hnext (hclock.trans ht) hrest

/-- Checks of one key, the first on a key that is not there, at times that do not decrease : a
check is let through exactly when fewer than the limit of the earlier ones were, in the window
that ends at its time. -/
theorem slidingWindow_exact (policy : SlidingWindowPolicy) (policyName : RatePolicyName)
    (principal : String) (redis : Redis)
    (hnew : redis.zsets (redisKey policyName principal) = none) (times : List ℤ) (now : ℤ)
    (hsorted : ((0 : ℤ) :: times ++ [now]).Pairwise (· ≤ ·)) :
    (checkSlidingWindow (Qoms.run (fun redis now =>
        (checkSlidingWindow redis policyName principal policy now).2) redis times) policyName
          principal policy now).1.isAllowed = true ↔
      (allowedTimes (fun redis now => checkSlidingWindow redis policyName principal policy now)
        redis times).countP (inWindow policy now) < policy.limit :=
  (logs_nil hnew 0).run le_rfl hsorted

/-- After five logins at once the sixth is denied, and the next a minute later is let through. -/
theorem slidingWindow_exact_login : ∃ policy, policies .login = .slidingWindow policy ∧
    (checkSlidingWindow (Qoms.run (fun redis now =>
      (checkSlidingWindow redis .login "7" policy now).2) .empty [0, 0, 0, 0, 0]) .login "7" policy
        0).1.isAllowed = false ∧
    (checkSlidingWindow (Qoms.run (fun redis now =>
      (checkSlidingWindow redis .login "7" policy now).2) .empty [0, 0, 0, 0, 0, 0]) .login "7"
        policy 60000).1.isAllowed = true := by
  refine ⟨_, rfl, ?_, ?_⟩
  · rw [← Bool.not_eq_true, slidingWindow_exact _ .login "7" .empty rfl _ 0 (by decide)]
    decide +kernel
  · rw [slidingWindow_exact _ .login "7" .empty rfl _ 60000 (by decide)]
    decide +kernel

end Qoms.RateLimitService
