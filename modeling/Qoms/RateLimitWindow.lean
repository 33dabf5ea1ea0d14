import Qoms.RateLimit

/-!
# The sliding window of a principal

What one `checkSlidingWindow` does to the scores of its key (`checkSlidingWindow_of_lt`,
`checkSlidingWindow_of_le`). At one time no more requests are let through than the limit
(`exists_slidingWindow_denied`).
-/

set_option autoImplicit false

namespace Qoms.RateLimitService

variable {policy : SlidingWindowPolicy} {policyName : RatePolicyName} {principal : String}
  {redis : Redis} {now : ℤ}

/-- The scores of a principal's key. -/
def windowScores (redis : Redis) (policyName : RatePolicyName) (principal : String) (now : ℤ) :
    List ℤ :=
  (redis.zsets (redisKey policyName principal)).scores now

/-- The scores that a check at the time `now` leaves there. -/
def keptScores (policy : SlidingWindowPolicy) (redis : Redis) (policyName : RatePolicyName)
    (principal : String) (now : ℤ) : List ℤ :=
  (windowScores redis policyName principal now).filter fun score =>
    ¬(0 ≤ score ∧ score ≤ now - policy.windowSeconds * 1000)

/-- The scores after the first command. -/
theorem scores_trimmed (policy : SlidingWindowPolicy) (redis : Redis)
    (policyName : RatePolicyName) (principal : String) (now : ℤ) :
    ((redis.zsets (redisKey policyName principal)).removeScores now 0
        (now - policy.windowSeconds * 1000)).scores now =
      keptScores policy redis policyName principal now :=
  Slot.scores_removeScores ..

/-- With fewer scores than the limit the request is let through and its time is added. -/
theorem checkSlidingWindow_of_lt
    (h : (keptScores policy redis policyName principal now).length < policy.limit) :
    (checkSlidingWindow redis policyName principal policy now).1 = .allowed ∧
      windowScores (checkSlidingWindow redis policyName principal policy now).2 policyName
        principal now = keptScores policy redis policyName principal now ++ [now] := by
  have hwindow : (0 : ℤ) ≤ policy.windowSeconds := Int.natCast_nonneg _
  simp only [checkSlidingWindow, Redis.zremrangebyscore, Redis.zcard, Redis.zadd, Redis.expire,
    Function.update_self, scores_trimmed, ge_iff_le, if_neg h.not_ge, windowScores,
    Slot.scores_expire hwindow, Slot.scores_addScore, and_self]

/-- Otherwise it is denied. -/
theorem checkSlidingWindow_of_le
    (h : policy.limit ≤ (keptScores policy redis policyName principal now).length) :
    (checkSlidingWindow redis policyName principal policy now).1 = .denied policy.windowSeconds ∧
      windowScores (checkSlidingWindow redis policyName principal policy now).2 policyName
        principal now = keptScores policy redis policyName principal now := by
  simp only [checkSlidingWindow, Redis.zremrangebyscore, Redis.zcard, Function.update_self,
    scores_trimmed, ge_iff_le, if_pos h, windowScores, and_self]

/-- The scores of now stay. -/
theorem keptScores_of_replicate (policy : SlidingWindowPolicy) {n : ℕ}
    (h : windowScores redis policyName principal now = List.replicate n now) :
    keptScores policy redis policyName principal now = List.replicate n now := by
  rw [keptScores, h, List.filter_eq_self]
  intro score hscore
  have hpos := policy.window_pos
  rw [List.eq_of_mem_replicate hscore, decide_eq_true_eq]
  omega

/-- The first request is let through. -/
theorem checkSlidingWindow_empty_isAllowed (h : 0 < policy.limit) :
    (checkSlidingWindow .empty policyName principal policy now).1.isAllowed = true := by
  have hkept : keptScores policy .empty policyName principal now = List.replicate 0 now :=
    keptScores_of_replicate policy rfl
  rw [(checkSlidingWindow_of_lt (by rwa [hkept])).1]
  rfl

/-- At one time no more requests are let through than the limit. -/
theorem exists_slidingWindow_denied (policy : SlidingWindowPolicy) (policyName : RatePolicyName)
    (principal : String) (now : ℤ) : ∃ n,
      (checkSlidingWindow (afterChecks
        (fun redis now => checkSlidingWindow redis policyName principal policy now) .empty now n)
          policyName principal policy now).1.isAllowed = false := by
  have hscores : ∀ n ≤ policy.limit, windowScores (afterChecks
      (fun redis now => checkSlidingWindow redis policyName principal policy now) .empty now n)
        policyName principal now = List.replicate n now := by
    intro n hn
    induction n with
    | zero => rfl
    | succ n ih =>
      have hkept := keptScores_of_replicate policy (ih (Nat.le_of_succ_le hn))
      rw [afterChecks, (checkSlidingWindow_of_lt (by rwa [hkept, List.length_replicate])).2, hkept,
        ← List.replicate_succ']
  have hkept := keptScores_of_replicate policy (hscores policy.limit le_rfl)
  refine ⟨policy.limit, ?_⟩
  rw [(checkSlidingWindow_of_le (by rw [hkept, List.length_replicate])).1]
  rfl

end Qoms.RateLimitService
