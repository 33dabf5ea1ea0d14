import Mathlib.Data.List.Infix
import Mathlib.Data.List.Nodup

/-!
# Logs with redelivery

A broker appends what it accepts to a log. A producer that is not told of an acceptance
sends again, so a key can come several times; a consumer that remembers the keys it has
seen takes each at its first occurrence. So what counts is `log.eraseDups`, the keys in
the order of their first acceptance, or for two keys which comes first : one that is
accepted for the first time comes after all that were (`idxOf_concat_lt`).

A log follows a list of keys (`Follows`) if first acceptances come in the list's order.
It goes on doing so as long as a key is not accepted for the first time after a later
one (`Follows.concat`). Once every key of the list is accepted, the order of first
acceptances is the list (`Follows.eraseDups_eq`), and its last key was the last to count.
-/

set_option autoImplicit false

namespace Qoms

variable {K : Type*} [DecidableEq K] {keys log : List K} {k : K}

/-! ## First acceptances -/

theorem eraseDups_concat_of_mem (h : k ∈ log) : (log ++ [k]).eraseDups = log.eraseDups := by
  simp [List.eraseDups_append, List.removeAll, h]

theorem eraseDups_concat_of_notMem (h : k ∉ log) :
    (log ++ [k]).eraseDups = log.eraseDups ++ [k] := by
  simp [List.eraseDups_append, List.removeAll, h, List.eraseDups_cons]

omit [DecidableEq K] in
theorem notMem_concat {j : K} (h : k ∉ log) (hne : j ≠ k) : k ∉ log ++ [j] := by
  simp [h, hne.symm]

/-- What was accepted comes before what is accepted now for the first time. -/
theorem idxOf_concat_lt {j : K} (hk : k ∈ log) (hj : j ∉ log) :
    (log ++ [j]).idxOf k < (log ++ [j]).idxOf j := by
  have hlt := List.idxOf_lt_length_of_mem hk
  rw [List.idxOf_append_of_mem hk, List.idxOf_append_of_notMem hj]
  omega

/-! ## Logs that follow a list -/

/-- First acceptances come in the order of `keys`. -/
def Follows (keys log : List K) : Prop :=
  log.eraseDups.Sublist keys

theorem Follows.nil (keys : List K) : Follows keys [] := by
  simp [Follows]

/-- A new key at the end of the list. -/
theorem Follows.append_key (h : Follows keys log) (k : K) : Follows (keys ++ [k]) log :=
  h.trans (List.sublist_append_left keys [k])

/-- A repeated acceptance. -/
theorem Follows.concat_of_mem (h : Follows keys log) (hk : k ∈ log) :
    Follows keys (log ++ [k]) := by
  rw [Follows, eraseDups_concat_of_mem hk]
  exact h

/-- A first acceptance, if no later key of the list was accepted. -/
theorem Follows.concat {pre post : List K} (h : Follows (pre ++ k :: post) log)
    (hpost : ∀ j ∈ post, j ∉ log) : Follows (pre ++ k :: post) (log ++ [k]) := by
  by_cases hk : k ∈ log
  · exact h.concat_of_mem hk
  · obtain ⟨l₁, l₂, heq, h₁, h₂⟩ := List.sublist_append_iff.mp h
    have hnil : l₂ = [] := by
      rw [List.eq_nil_iff_forall_not_mem]
      intro j hj
      have hmem : j ∈ log := by
        rw [← List.mem_eraseDups, heq]
        exact List.mem_append_right l₁ hj
      rcases List.mem_cons.mp (h₂.subset hj) with rfl | hj'
      · exact hk hmem
      · exact hpost j hj' hmem
    rw [Follows, eraseDups_concat_of_notMem hk, heq, hnil, List.append_nil]
    exact h₁.append ((List.nil_sublist post).cons_cons k)

/-- When every key is accepted, the order of first acceptances is the list. -/
theorem Follows.eraseDups_eq (h : Follows keys log) (hkeys : keys.Nodup)
    (hall : ∀ k ∈ keys, k ∈ log) : log.eraseDups = keys := by
  refine h.eq_of_length_le (hkeys.length_le_of_subset fun k hk => ?_)
  exact List.mem_eraseDups.mpr (hall k hk)

end Qoms
