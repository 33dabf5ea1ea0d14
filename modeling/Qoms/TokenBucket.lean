import Mathlib.Algebra.Order.Field.Basic
import Mathlib.Data.List.Basic
import Mathlib.Tactic.Linarith
import Mathlib.Tactic.Ring

/-!
# Token buckets

The ideal token bucket : a level that refills continuously at `rate`, up to `capacity`. A
request takes one token if there is one, and is denied otherwise. The level is a number, and
time too, of any ordered field.

Refilling for a while and then for another is refilling for both (`refill_refill`), so a
request that is denied changes nothing. From a level `x` no more than `x + rate * d` requests
are admitted within the time `d` (`countP_admitted_le`), and the level is at most `capacity`, so
no more than `capacity + rate * d` within any interval of the length `d`
(`countP_window_le`).
-/

set_option autoImplicit false

namespace Qoms

/-- The times of the requests that were let through. -/
def admitted {T : Type*} (times : List T) (decisions : List Bool) : List T :=
  ((times.zip decisions).filter (·.2)).map (·.1)

section

variable {T : Type*} (times : List T) (decisions : List Bool) (t : T)

@[simp] theorem admitted_nil : admitted ([] : List T) decisions = [] :=
  rfl

@[simp] theorem admitted_cons_true :
    admitted (t :: times) (true :: decisions) = t :: admitted times decisions :=
  rfl

@[simp] theorem admitted_cons_false :
    admitted (t :: times) (false :: decisions) = admitted times decisions :=
  rfl

theorem mem_of_mem_admitted {times : List T} {decisions : List Bool} {t : T}
    (h : t ∈ admitted times decisions) : t ∈ times := by
  obtain ⟨⟨t', d⟩, hmem, rfl⟩ := List.mem_map.mp h
  exact (List.of_mem_zip (List.mem_filter.mp hmem).1).1

theorem first_le_of_mem_admitted [Preorder T] {times : List T} {decisions : List Bool} {t u : T}
    (hsorted : (t :: times).Pairwise (· ≤ ·)) (h : u ∈ admitted (t :: times) decisions) :
    t ≤ u := by
  rcases List.mem_cons.mp (mem_of_mem_admitted h) with rfl | hu
  · exact le_rfl
  · exact (List.pairwise_cons.mp hsorted).1 u hu

/-- Where all requests come after `u`, none is let through until then. -/
theorem countP_admitted_eq_zero [Preorder T] {times : List T} {decisions : List Bool} {t u : T}
    {p : T → Bool} (hsorted : (t :: times).Pairwise (· ≤ ·)) (h : u < t)
    (hp : ∀ x, p x = true → x ≤ u) : (admitted (t :: times) decisions).countP p = 0 := by
  rw [List.countP_eq_zero]
  intro x hx hcounted
  have hlt : u < x := h.trans_le (first_le_of_mem_admitted hsorted hx)
  exact hlt.not_ge (hp x hcounted)

end

/-- A capacity and a refill rate. -/
structure TokenBucket (K : Type*) [Field K] [LinearOrder K] where
  capacity : K
  rate : K
  capacity_nonneg : 0 ≤ capacity
  rate_nonneg : 0 ≤ rate

namespace TokenBucket

variable {K : Type*} [Field K] [LinearOrder K]

/-- The tokens that were in the bucket at a time. -/
structure Level (K : Type*) where
  tokens : K
  time : K

/-- The tokens at the time `t`. -/
def refill (b : TokenBucket K) (s : Level K) (t : K) : K :=
  min b.capacity (s.tokens + b.rate * (t - s.time))

/-- A request at the time `t` : whether there is a token, and what is left. -/
def take (b : TokenBucket K) (s : Level K) (t : K) : Bool × Level K :=
  if 1 ≤ b.refill s t then (true, ⟨b.refill s t - 1, t⟩) else (false, ⟨b.refill s t, t⟩)

/-- Whether each of the requests is let through. -/
def decisions (b : TokenBucket K) : Level K → List K → List Bool
  | _, [] => []
  | s, t :: times => (b.take s t).1 :: decisions b (b.take s t).2 times

variable {b : TokenBucket K} {s : Level K} {t u : K} {times : List K}

theorem take_of_le (h : 1 ≤ b.refill s t) : b.take s t = (true, ⟨b.refill s t - 1, t⟩) :=
  if_pos h

theorem take_of_lt (h : b.refill s t < 1) : b.take s t = (false, ⟨b.refill s t, t⟩) :=
  if_neg h.not_ge

theorem take_time : (b.take s t).2.time = t := by
  unfold take
  split_ifs
  · rfl
  · rfl

theorem refill_le_capacity : b.refill s t ≤ b.capacity :=
  min_le_left _ _

theorem refill_self (hs : s.tokens ≤ b.capacity) : b.refill s s.time = s.tokens := by
  rw [refill, sub_self, mul_zero, add_zero, min_eq_right hs]

/-- Waiting for the first request takes nothing. -/
theorem decisions_cons_refill :
    b.decisions ⟨b.refill s t, t⟩ (t :: times) = b.decisions s (t :: times) := by
  have htake : b.take ⟨b.refill s t, t⟩ t = b.take s t := by
    rw [take, take, refill_self (s := ⟨b.refill s t, t⟩) refill_le_capacity]
  rw [decisions, decisions, htake]

variable [IsStrictOrderedRing K]

theorem refill_add_le :
    b.refill s t + b.rate * (u - t) ≤ s.tokens + b.rate * (u - s.time) := by
  have hmin : b.refill s t ≤ s.tokens + b.rate * (t - s.time) := min_le_right _ _
  have hsum : s.tokens + b.rate * (t - s.time) + b.rate * (u - t) =
      s.tokens + b.rate * (u - s.time) := by ring
  rw [← hsum]
  exact add_le_add_left hmin _

theorem refill_nonneg (hs : 0 ≤ s.tokens) (h : s.time ≤ t) : 0 ≤ b.refill s t :=
  le_min b.capacity_nonneg (add_nonneg hs (mul_nonneg b.rate_nonneg (sub_nonneg.mpr h)))

theorem refill_refill (h : t ≤ u) : b.refill ⟨b.refill s t, t⟩ u = b.refill s u := by
  have hgain : 0 ≤ b.rate * (u - t) := mul_nonneg b.rate_nonneg (sub_nonneg.mpr h)
  have hsum : s.tokens + b.rate * (t - s.time) + b.rate * (u - t) =
      s.tokens + b.rate * (u - s.time) := by ring
  rw [refill, refill, refill, ← min_add_add_right, hsum, ← min_assoc,
    min_eq_left (le_add_of_nonneg_right hgain)]

/-- A request at the time of the level leaves a level that is not below zero. -/
theorem take_tokens_nonneg (hs : 0 ≤ s.tokens) (h : s.time ≤ t) :
    0 ≤ (b.take s t).2.tokens := by
  rcases le_or_gt 1 (b.refill s t) with hle | hlt
  · rw [take_of_le hle]
    exact sub_nonneg.mpr hle
  · rw [take_of_lt hlt]
    exact refill_nonneg hs h

/-- Requests up to the time `u` are let through as far as the tokens reach : those there are,
and those that come until then. -/
theorem countP_admitted_le (hs : 0 ≤ s.tokens) (hsorted : (s.time :: times).Pairwise (· ≤ ·))
    (h : s.time ≤ u) :
    ((admitted times (b.decisions s times)).countP (· ≤ u) : K) ≤
      s.tokens + b.rate * (u - s.time) := by
  induction times generalizing s with
  | nil =>
    rw [admitted_nil, List.countP_nil, Nat.cast_zero]
    exact add_nonneg hs (mul_nonneg b.rate_nonneg (sub_nonneg.mpr h))
  | cons t times ih =>
    obtain ⟨hfirst, hrest⟩ := List.pairwise_cons.mp hsorted
    have ht : s.time ≤ t := hfirst t List.mem_cons_self
    rcases le_or_gt t u with hle | hlt
    · have hih := ih (take_tokens_nonneg (b := b) hs ht)
      have hbound := refill_add_le (b := b) (s := s) (t := t) (u := u)
      rcases le_or_gt 1 (b.refill s t) with htoken | hnone
      · rw [take_of_le htoken] at hih
        have hnext := hih hrest hle
        rw [decisions, take_of_le htoken, admitted_cons_true, List.countP_cons_of_pos (by simpa),
          Nat.cast_succ]
        linarith
      · rw [take_of_lt hnone] at hih
        have hnext := hih hrest hle
        rw [decisions, take_of_lt hnone, admitted_cons_false]
        linarith
    · rw [countP_admitted_eq_zero hrest hlt (by simp), Nat.cast_zero]
      exact add_nonneg hs (mul_nonneg b.rate_nonneg (sub_nonneg.mpr h))

/-- The level at the first request is at most the capacity. -/
theorem countP_until_le (hs : 0 ≤ s.tokens) (hsorted : (s.time :: t :: times).Pairwise (· ≤ ·))
    (h : t ≤ u) :
    ((admitted (t :: times) (b.decisions s (t :: times))).countP (· ≤ u) : K) ≤
      b.capacity + b.rate * (u - t) := by
  obtain ⟨hfirst, hrest⟩ := List.pairwise_cons.mp hsorted
  have hsorted' : (t :: t :: times).Pairwise (· ≤ ·) := by
    refine List.pairwise_cons.mpr ⟨fun x hx => ?_, hrest⟩
    rcases List.mem_cons.mp hx with rfl | hx
    · exact le_rfl
    · exact (List.pairwise_cons.mp hrest).1 x hx
  have hbound := countP_admitted_le (b := b) (s := ⟨b.refill s t, t⟩) (u := u)
    (refill_nonneg hs (hfirst t List.mem_cons_self)) hsorted' h
  rw [decisions_cons_refill] at hbound
  exact hbound.trans (add_le_add_left refill_le_capacity _)

/-- In no interval more requests are let through than the capacity and what is refilled in the
interval. -/
theorem countP_window_le (hs : 0 ≤ s.tokens) (hsorted : (s.time :: times).Pairwise (· ≤ ·))
    (h : t ≤ u) :
    ((admitted times (b.decisions s times)).countP (fun x => t ≤ x ∧ x ≤ u) : K) ≤
      b.capacity + b.rate * (u - t) := by
  have hnonneg : 0 ≤ b.capacity + b.rate * (u - t) :=
    add_nonneg b.capacity_nonneg (mul_nonneg b.rate_nonneg (sub_nonneg.mpr h))
  induction times generalizing s with
  | nil => simpa using hnonneg
  | cons x times ih =>
    obtain ⟨hfirst, hrest⟩ := List.pairwise_cons.mp hsorted
    have hx : s.time ≤ x := hfirst x List.mem_cons_self
    rcases lt_or_ge x t with hbefore | hin
    · -- the first request is not in the interval
      have hnot : ¬(t ≤ x ∧ x ≤ u) := fun hmem => hbefore.not_ge hmem.1
      have hih := ih (take_tokens_nonneg (b := b) hs hx)
      rcases le_or_gt 1 (b.refill s x) with htoken | hnone
      · rw [take_of_le htoken] at hih
        rw [decisions, take_of_le htoken, admitted_cons_true,
          List.countP_cons_of_neg (by simpa using hnot)]
        exact hih hrest
      · rw [take_of_lt hnone] at hih
        rw [decisions, take_of_lt hnone, admitted_cons_false]
        exact hih hrest
    · rcases le_or_gt x u with hle | hlt
      · have hcount : (admitted (x :: times) (b.decisions s (x :: times))).countP
            (fun y => t ≤ y ∧ y ≤ u) ≤
            (admitted (x :: times) (b.decisions s (x :: times))).countP (· ≤ u) :=
          List.countP_mono_left fun y _ hy => by
            rw [decide_eq_true_eq] at hy ⊢
            exact hy.2
        have hbound := countP_until_le (b := b) hs hsorted hle
        have hgain : b.rate * (u - x) ≤ b.rate * (u - t) :=
          mul_le_mul_of_nonneg_left (sub_le_sub_left hin u) b.rate_nonneg
        have hcast := Nat.cast_le (α := K).mpr hcount
        linarith
      · rw [countP_admitted_eq_zero hrest hlt (by simp), Nat.cast_zero]
        exact hnonneg

end TokenBucket

end Qoms
