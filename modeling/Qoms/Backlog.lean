import Qoms.Run
import Mathlib.Algebra.BigOperators.Group.List.Basic
import Mathlib.Algebra.Ring.Nat
import Mathlib.Data.List.Nodup

/-!
# Backlogs that are worked off in rounds

Each row of a table has a number of attempts left (`left`). A round takes rows that have some,
`limit` of them or all if they are fewer; each row it takes has fewer attempts left after it,
and no row has more (`Works`).

A full round uses up `limit` of the attempts of all rows, and a round that is not full takes
every row that has any. So nothing is starved : with `budget` attempts for a row at most,
`n * budget / limit` rounds for the `n` rows of the backlog and `budget` more leave no attempts
(`settled_of_rounds`).
-/

set_option autoImplicit false

namespace Qoms

variable {R : Type*} (left : R → ℕ)

/-- How many rows have attempts left. -/
def backlog (rows : List R) : ℕ :=
  rows.countP fun r => 0 < left r

/-- The attempts that are left of all rows. -/
def attemptsLeft (rows : List R) : ℕ :=
  (rows.map left).sum

/-- No row has attempts left. -/
def Settled (rows : List R) : Prop :=
  ∀ r ∈ rows, left r = 0

/-- A round made `rows'` of the rows. -/
def Works (limit : ℕ) (rows rows' : List R) : Prop :=
  ∃ (g : R → R) (taken : R → Bool), rows' = rows.map g ∧
    min limit (backlog left rows) ≤ rows.countP taken ∧
      (∀ r ∈ rows, taken r = true → left (g r) < left r) ∧ ∀ r ∈ rows, left (g r) ≤ left r

variable {left} {limit budget : ℕ} {rows rows' : List R}

/-- A count that another bounds, of elements among those of the other. -/
theorem of_countP_le {p q : R → Bool} (himp : ∀ r ∈ rows, p r = true → q r = true)
    (hle : rows.countP q ≤ rows.countP p) : ∀ r ∈ rows, q r = true → p r = true := by
  induction rows with
  | nil => simp
  | cons r rows ih =>
    rw [List.forall_mem_cons] at himp ⊢
    have hrest : rows.countP p ≤ rows.countP q := List.countP_mono_left himp.2
    rw [List.countP_cons, List.countP_cons] at hle
    cases hp : p r with
    | true =>
      simp only [hp, himp.1 hp, if_true] at hle
      exact ⟨fun _ => rfl, ih himp.2 (by omega)⟩
    | false =>
      cases hq : q r with
      | true =>
        simp only [hp, hq, if_true, Bool.false_eq_true, if_false] at hle
        omega
      | false =>
        simp only [hp, hq, Bool.false_eq_true, if_false] at hle
        exact ⟨nofun, ih himp.2 (by omega)⟩

theorem attemptsLeft_le (h : ∀ r ∈ rows, left r ≤ budget) :
    attemptsLeft left rows ≤ backlog left rows * budget := by
  induction rows with
  | nil => simp [attemptsLeft]
  | cons r rows ih =>
    rw [List.forall_mem_cons] at h
    have hrest := ih h.2
    have := h.1
    simp only [attemptsLeft, backlog, List.map_cons, List.sum_cons, List.countP_cons] at hrest ⊢
    by_cases hr : 0 < left r
    · simp only [hr, decide_true, if_true, Nat.succ_mul]
      omega
    · simp only [hr, decide_false, Bool.false_eq_true, if_false, Nat.add_zero]
      omega

theorem settled_of_attemptsLeft (h : attemptsLeft left rows = 0) : Settled left rows := by
  intro r hr
  exact List.sum_eq_zero_iff_forall_eq_nat.mp h _ (List.mem_map_of_mem hr)

namespace Works

/-- No row has more attempts left. -/
theorem left_le (h : Works left limit rows rows') (hrows : ∀ r ∈ rows, left r ≤ budget) :
    ∀ r ∈ rows', left r ≤ budget := by
  obtain ⟨g, taken, rfl, -, -, hle⟩ := h
  intro r' hr'
  obtain ⟨r, hr, rfl⟩ := List.mem_map.mp hr'
  exact (hle r hr).trans (hrows r hr)

/-- A round that is not full takes every row that has attempts left. -/
theorem left_lt (h : Works left limit rows rows') (hfew : backlog left rows ≤ limit)
    (hrows : ∀ r ∈ rows, left r ≤ budget + 1) : ∀ r ∈ rows', left r ≤ budget := by
  obtain ⟨g, taken, rfl, hcount, hlt, hle⟩ := h
  intro r' hr'
  obtain ⟨r, hr, rfl⟩ := List.mem_map.mp hr'
  rw [Nat.min_eq_right hfew] at hcount
  have htaken : ∀ r ∈ rows, taken r = true → decide (0 < left r) = true := by
    intro r hr htaken
    have := hlt r hr htaken
    simp only [decide_eq_true_eq]
    omega
  have := hrows r hr
  by_cases hpos : 0 < left r
  · have := hlt r hr (of_countP_le htaken hcount r hr (by simpa using hpos))
    omega
  · have := hle r hr
    omega

/-- The backlog does not grow. -/
theorem backlog_le (h : Works left limit rows rows') : backlog left rows' ≤ backlog left rows := by
  obtain ⟨g, taken, rfl, -, -, hle⟩ := h
  rw [backlog, List.countP_map]
  refine List.countP_mono_left fun r hr hpos => ?_
  have := hle r hr
  simp only [Function.comp_apply, decide_eq_true_eq] at hpos ⊢
  omega

/-- The rows that are taken lose an attempt each. -/
theorem attemptsLeft_add_le {g : R → R} {taken : R → Bool}
    (hlt : ∀ r ∈ rows, taken r = true → left (g r) < left r)
    (hle : ∀ r ∈ rows, left (g r) ≤ left r) :
    attemptsLeft left (rows.map g) + rows.countP taken ≤ attemptsLeft left rows := by
  induction rows with
  | nil => simp
  | cons r rows ih =>
    rw [List.forall_mem_cons] at hlt hle
    have hrest := ih hlt.2 hle.2
    have := hle.1
    simp only [attemptsLeft, List.map_cons, List.sum_cons, List.countP_cons] at hrest ⊢
    cases htaken : taken r with
    | true =>
      have := hlt.1 htaken
      simp only [if_true]
      omega
    | false =>
      simp only [Bool.false_eq_true, if_false]
      omega

/-- A full round uses up `limit` attempts. -/
theorem attemptsLeft_add_limit (h : Works left limit rows rows')
    (hmany : limit ≤ backlog left rows) :
    attemptsLeft left rows' + limit ≤ attemptsLeft left rows := by
  obtain ⟨g, taken, rfl, hcount, hlt, hle⟩ := h
  rw [Nat.min_eq_left hmany] at hcount
  have := attemptsLeft_add_le hlt hle
  omega

end Works

/-- A round over the rows that a query found. -/
theorem Works.of_found {id : R → ℕ} {found : List R} {g : R → R} (hnodup : (rows.map id).Nodup)
    (hdistinct : (found.map id).Nodup) (hfound : found ⊆ rows)
    (hlength : found.length = min limit (backlog left rows))
    (hother : ∀ r ∈ rows, id r ∉ found.map id → g r = r)
    (hlt : ∀ r ∈ found, left (g r) < left r) : Works left limit rows (rows.map g) := by
  have hmem : ∀ r ∈ rows, id r ∈ found.map id → r ∈ found := by
    intro r hr hid
    obtain ⟨r', hr', heq⟩ := List.mem_map.mp hid
    exact List.inj_on_of_nodup_map hnodup (hfound hr') hr heq ▸ hr'
  refine ⟨g, fun r => id r ∈ found.map id, rfl, ?_, fun r hr htaken => ?_, fun r hr => ?_⟩
  · have hsub : found ⊆ rows.filter fun r => id r ∈ found.map id := fun r hr =>
      List.mem_filter.mpr ⟨hfound hr, by simpa using ⟨r, hr, rfl⟩⟩
    have hle := (List.subperm_of_subset (List.Nodup.of_map id hdistinct) hsub).length_le
    rwa [hlength, ← List.countP_eq_length_filter] at hle
  · exact hlt r (hmem r hr (by simpa using htaken))
  · by_cases hid : id r ∈ found.map id
    · exact (hlt r (hmem r hr hid)).le
    · rw [hother r hr hid]

/-! ## Rounds one after another -/

section

variable {σ α : Type*} {step : σ → α → σ} {rowsOf : σ → List R} {Inv : σ → Prop}
  {Allowed : α → Prop}

/-- Once the backlog is within the limit, `budget` rounds settle it. -/
theorem settled_of_few
    (hinv : ∀ s a, Allowed a → Inv s → Inv (step s a))
    (hworks : ∀ s a, Allowed a → Inv s → Works left limit (rowsOf s) (rowsOf (step s a)))
    {as : List α} (has : ∀ a ∈ as, Allowed a) {s : σ} (h0 : Inv s)
    (hfew : backlog left (rowsOf s) ≤ limit) (hleft : ∀ r ∈ rowsOf s, left r ≤ budget)
    (hrounds : budget ≤ as.length) : Settled left (rowsOf (run step s as)) := by
  induction as generalizing s budget with
  | nil =>
    intro r hr
    have := hleft r hr
    simp only [List.length_nil] at hrounds
    omega
  | cons a as ih =>
    rw [List.forall_mem_cons] at has
    have hwork := hworks s a has.1 h0
    have hless : ∀ r ∈ rowsOf (step s a), left r ≤ budget - 1 := by
      refine hwork.left_lt hfew fun r hr => ?_
      have := hleft r hr
      omega
    refine ih has.2 (hinv s a has.1 h0) (hwork.backlog_le.trans hfew) hless ?_
    simp only [List.length_cons] at hrounds
    omega

/-- Whatever comes of the attempts, enough rounds settle the backlog. -/
theorem settled_of_rounds
    (hinv : ∀ s a, Allowed a → Inv s → Inv (step s a))
    (hworks : ∀ s a, Allowed a → Inv s → Works left limit (rowsOf s) (rowsOf (step s a)))
    {as : List α} (has : ∀ a ∈ as, Allowed a) {s : σ} (h0 : Inv s)
    (hleft : ∀ r ∈ rowsOf s, left r ≤ budget) {full : ℕ}
    (hfull : backlog left (rowsOf s) * budget ≤ limit * full)
    (hrounds : full + budget ≤ as.length) : Settled left (rowsOf (run step s as)) := by
  replace hfull := (attemptsLeft_le hleft).trans hfull
  induction full generalizing s as with
  | zero =>
    have hsettled : ∀ r ∈ rowsOf s, left r ≤ 0 := fun r hr =>
      (settled_of_attemptsLeft (by simpa using hfull) r hr).le
    have hnone : backlog left (rowsOf s) = 0 := by
      rw [backlog, List.countP_eq_zero]
      intro r hr
      have := hsettled r hr
      simp only [decide_eq_true_eq]
      omega
    exact settled_of_few hinv hworks has h0 (by omega) hsettled (Nat.zero_le _)
  | succ full ih =>
    by_cases hfew : backlog left (rowsOf s) ≤ limit
    · exact settled_of_few hinv hworks has h0 hfew hleft (by omega)
    · cases as with
      | nil =>
        simp only [List.length_nil] at hrounds
        omega
      | cons a as =>
        rw [List.forall_mem_cons] at has
        have hwork := hworks s a has.1 h0
        have hused := hwork.attemptsLeft_add_limit (by omega)
        rw [Nat.mul_succ] at hfull
        simp only [List.length_cons] at hrounds
        exact ih has.2 (hinv s a has.1 h0) (hwork.left_le hleft) (by omega) (by omega)

end

end Qoms
