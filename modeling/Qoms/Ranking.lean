import Mathlib.Data.List.Nodup
import Mathlib.Data.List.Sort
import Mathlib.Order.Basic
import Mathlib.Order.Defs.LinearOrder

/-!
# Places in a line

Rows stand in a line by their times. The place of a row is one more than the number of rows
with an earlier time (`earlier`). A service that does not have the exact time of a row counts
the rows up to a reading of it (`upTo`), which is not later. That count is the place just when
the reading is exact and no other row has the same time (`upTo_eq_iff`). In a line without
equal times the places are the numbers from one on (`map_earlier_eq_range`).
-/

set_option autoImplicit false

namespace Qoms

variable {R T : Type} [LinearOrder T]

/-- The rows with a time before `t`. -/
def earlier (time : R → T) (rows : List R) (t : T) : ℕ :=
  rows.countP fun r => decide (time r < t)

/-- The rows with a time up to `t`. -/
def upTo (time : R → T) (rows : List R) (t : T) : ℕ :=
  rows.countP fun r => decide (time r ≤ t)

/-- The rows with the time `t`. -/
def atTime (time : R → T) (rows : List R) (t : T) : ℕ :=
  rows.countP fun r => decide (time r = t)

variable {time : R → T} {rows : List R} {t u : T}

theorem upTo_eq_add (time : R → T) (rows : List R) (t : T) :
    upTo time rows t = earlier time rows t + atTime time rows t := by
  induction rows with
  | nil => rfl
  | cons r rows ih =>
    simp only [upTo, earlier, atTime, List.countP_cons, decide_eq_true_eq] at ih ⊢
    rcases lt_trichotomy (time r) t with hlt | heq | hgt
    · simp only [hlt.le, hlt, hlt.ne, if_true, if_false]
      omega
    · simp only [heq, le_refl, lt_irrefl, if_true, if_false]
      omega
    · simp only [hgt.not_ge, hgt.not_gt, hgt.ne', if_false]
      omega

theorem upTo_le_earlier (h : u < t) : upTo time rows u ≤ earlier time rows t :=
  List.countP_mono_left fun r _ hr => by
    simp only [decide_eq_true_eq] at hr ⊢
    exact hr.trans_lt h

/-- What is counted up to a reading of the time is the place of the row just when the reading
is exact and one row has this time. -/
theorem upTo_eq_iff (h : u ≤ t) :
    upTo time rows u = 1 + earlier time rows t ↔ u = t ∧ atTime time rows t = 1 := by
  rcases h.lt_or_eq with hlt | rfl
  · have hle : upTo time rows u ≤ earlier time rows t := upTo_le_earlier hlt
    exact iff_of_false (by omega) fun hboth => hlt.ne hboth.1
  · rw [upTo_eq_add]
    constructor
    · intro heq
      exact ⟨rfl, by omega⟩
    · rintro ⟨-, hone⟩
      omega

/-- Of distinct rows one is such just when no other is. -/
theorem countP_eq_one_iff {p : R → Bool} (hnodup : rows.Nodup) {a : R} (ha : a ∈ rows)
    (hp : p a = true) : rows.countP p = 1 ↔ ∀ r ∈ rows, p r = true → r = a := by
  obtain ⟨pre, post, rfl⟩ := List.append_of_mem ha
  have hperm : (pre ++ a :: post).Perm (a :: (pre ++ post)) := List.perm_middle
  have hrest : a ∉ pre ++ post := (List.nodup_cons.mp (hperm.nodup_iff.mp hnodup)).1
  rw [hperm.countP_eq, List.countP_cons_of_pos hp, Nat.add_eq_right, List.countP_eq_zero]
  constructor
  · intro hnone r hr hr'
    rcases List.mem_cons.mp (hperm.mem_iff.mp hr) with rfl | hr
    · rfl
    · exact absurd hr' (hnone r hr)
  · intro hall r hr hr'
    have heq : r = a := hall r (hperm.mem_iff.mpr (List.mem_cons_of_mem a hr)) hr'
    exact hrest (heq ▸ hr)

theorem atTime_eq_one_iff (hnodup : rows.Nodup) {a : R} (ha : a ∈ rows) :
    atTime time rows (time a) = 1 ↔ ∀ r ∈ rows, time r = time a → r = a := by
  rw [atTime, countP_eq_one_iff hnodup ha (by simp)]
  simp only [decide_eq_true_eq]

/-- In a line with increasing times the rows have zero, one, two, … rows before them. -/
theorem map_earlier_eq_range (h : rows.Pairwise fun a b => time a < time b) :
    rows.map (fun r => earlier time rows (time r)) = List.range rows.length := by
  induction rows with
  | nil => rfl
  | cons r rows ih =>
    obtain ⟨hfirst, hrows⟩ := List.pairwise_cons.mp h
    have hnone : earlier time (r :: rows) (time r) = 0 := by
      rw [earlier, List.countP_eq_zero]
      intro x hx
      rcases List.mem_cons.mp hx with rfl | hx
      · simp
      · simpa using (hfirst x hx).le
    have hnext : ∀ x ∈ rows,
        earlier time (r :: rows) (time x) = earlier time rows (time x) + 1 := by
      intro x hx
      simp [earlier, hfirst x hx]
    rw [List.map_cons, hnone, List.map_congr_left hnext, List.length_cons,
      List.range_succ_eq_map, ← ih hrows, List.map_map]
    rfl

end Qoms
