import Mathlib.Data.List.Infix

/-!
# Runs of a transition system

A system is a total step function `step : σ → α → σ` : an action that is not enabled
leaves the state as it is. A run is the list of its actions, so "in every reachable
state" is "after every list of actions" (`run`), and "at any moment of the run" is
"after every prefix of it" (`Throughout`).

`run_invariant` is the induction every safety result goes through; where a step is justified
by the run before it, it is `run_invariant_of_prefixes`. Where a property is kept only by some
steps, `throughout_iff_eachStep` says exactly when a run keeps it : if, under an invariant, a
step keeps the property just when it meets a condition, the property holds throughout a run if
and only if every step of the run meets it. Where a property depends on the last step of a kind
only, `run_iff_lastStep` says the same of that step. Where a property compares two moments of a
run (`Steadily`), it is enough to compare the two ends of each step (`steadily_iff_eachStep`).
`AtMostOnce` says that a run takes no second step of a kind.

`interleavings` are the orders in which the steps of two sequential programs can come.
-/

set_option autoImplicit false

namespace Qoms

variable {σ α : Type*}

/-! ## Runs and their invariants -/

/-- The state after the actions `as`, in order. -/
def run (step : σ → α → σ) (s : σ) (as : List α) : σ :=
  as.foldl step s

@[simp] theorem run_nil (step : σ → α → σ) (s : σ) : run step s [] = s :=
  rfl

@[simp] theorem run_cons (step : σ → α → σ) (s : σ) (a : α) (as : List α) :
    run step s (a :: as) = run step (step s a) as :=
  rfl

@[simp] theorem run_append (step : σ → α → σ) (s : σ) (as bs : List α) :
    run step s (as ++ bs) = run step (run step s as) bs := by
  simp [run]

/-- What one allowed step preserves, a run of allowed steps preserves. -/
theorem run_invariant {step : σ → α → σ} (Allowed : α → Prop) {Inv : σ → Prop}
    (hstep : ∀ s a, Allowed a → Inv s → Inv (step s a)) {s : σ} (h0 : Inv s) {as : List α}
    (has : ∀ a ∈ as, Allowed a) : Inv (run step s as) := by
  induction as generalizing s with
  | nil => exact h0
  | cons a as ih =>
    exact ih (hstep s a (has a (by simp)) h0) fun b hb => has b (by simp [hb])

/-- What each step of a run preserves, given the steps before it, holds at its end. -/
theorem run_invariant_of_prefixes {step : σ → α → σ} {Inv : σ → Prop} {s : σ} {as : List α}
    (h0 : Inv s) (hstep : ∀ pre a, pre ++ [a] <+: as → Inv (run step s pre) →
      Inv (step (run step s pre) a)) : Inv (run step s as) := by
  induction as using List.reverseRecOn with
  | nil => exact h0
  | append_singleton as a ih =>
    have hinv := ih fun pre b hpre => hstep pre b (hpre.trans (List.prefix_append as [a]))
    simpa using hstep as a List.prefix_rfl hinv

/-! ## Every state and every step of a run -/

/-- `P` holds at every state the run visits. -/
def Throughout (step : σ → α → σ) (s : σ) (as : List α) (P : σ → Prop) : Prop :=
  ∀ pre, pre <+: as → P (run step s pre)

/-- Every step of the run meets `C` at the state it is taken from. -/
def EachStep (step : σ → α → σ) (s : σ) (as : List α) (C : σ → α → Prop) : Prop :=
  ∀ pre a, pre ++ [a] <+: as → C (run step s pre) a

theorem throughout_nil {step : σ → α → σ} {s : σ} {P : σ → Prop} :
    Throughout step s [] P ↔ P s := by
  simp [Throughout]

theorem throughout_concat {step : σ → α → σ} {s : σ} {as : List α} {a : α} {P : σ → Prop} :
    Throughout step s (as ++ [a]) P ↔
      Throughout step s as P ∧ P (step (run step s as) a) := by
  constructor
  · intro h
    exact ⟨fun pre hpre => h pre (hpre.trans (List.prefix_append as [a])),
      by simpa using h (as ++ [a]) (List.prefix_refl _)⟩
  · rintro ⟨h, ha⟩ pre hpre
    rcases List.prefix_concat_iff.mp hpre with rfl | hpre
    · simpa using ha
    · exact h pre hpre

theorem Throughout.last {step : σ → α → σ} {s : σ} {as : List α} {P : σ → Prop}
    (h : Throughout step s as P) : P (run step s as) :=
  h as (List.prefix_refl as)

/-- What holds throughout a run holds throughout its rest. -/
theorem Throughout.rest {step : σ → α → σ} {s : σ} {as bs : List α} {P : σ → Prop}
    (h : Throughout step s (as ++ bs) P) : Throughout step (run step s as) bs P := by
  intro pre hpre
  rw [← run_append]
  exact h (as ++ pre) ((List.prefix_append_right_inj as).mpr hpre)

theorem eachStep_nil {step : σ → α → σ} {s : σ} {C : σ → α → Prop} : EachStep step s [] C := by
  intro pre a h
  simp at h

theorem eachStep_cons {step : σ → α → σ} {s : σ} {as : List α} {a : α} {C : σ → α → Prop} :
    EachStep step s (a :: as) C ↔ C s a ∧ EachStep step (step s a) as C := by
  constructor
  · intro h
    exact ⟨h [] a (by simp), fun pre b hpre => h (a :: pre) b (by simpa using hpre)⟩
  · rintro ⟨ha, h⟩ pre b hpre
    cases pre with
    | nil =>
      obtain rfl : b = a := by simpa using hpre
      exact ha
    | cons c pre =>
      obtain ⟨rfl, hpre'⟩ : c = a ∧ pre ++ [b] <+: as := List.cons_prefix_cons.mp hpre
      exact h pre b hpre'

theorem eachStep_concat {step : σ → α → σ} {s : σ} {as : List α} {a : α} {C : σ → α → Prop} :
    EachStep step s (as ++ [a]) C ↔ EachStep step s as C ∧ C (run step s as) a := by
  constructor
  · intro h
    exact ⟨fun pre b hpre => h pre b (hpre.trans (List.prefix_append as [a])),
      h as a (List.prefix_refl _)⟩
  · rintro ⟨h, ha⟩ pre b hpre
    rcases List.prefix_concat_iff.mp hpre with heq | hpre
    · obtain ⟨rfl, hab⟩ := List.append_inj' heq rfl
      obtain rfl := List.singleton_inj.mp hab
      exact ha
    · exact h pre b hpre

section

variable {step : σ → α → σ} (Allowed : α → Prop) {Inv P : σ → Prop} {C : σ → α → Prop} {s : σ}
  {as : List α}

/-- What holds of an allowed step under an invariant holds of each step of a run. -/
theorem eachStep_of_invariant (hinv : ∀ s a, Allowed a → Inv s → Inv (step s a))
    (hC : ∀ s a, Allowed a → Inv s → C s a) (h0 : Inv s) (has : ∀ a ∈ as, Allowed a) :
    EachStep step s as C := by
  intro pre a hpre
  have hall : ∀ b ∈ pre ++ [a], Allowed b := fun b hb => has b (hpre.subset hb)
  exact hC _ _ (hall a (by simp))
    (run_invariant Allowed hinv h0 fun b hb => hall b (by simp [hb]))

/-- If a step that meets `C` keeps `P`, a run whose steps all meet `C` keeps it throughout. -/
theorem throughout_of_eachStep (hinv : ∀ s a, Allowed a → Inv s → Inv (step s a))
    (hkeep : ∀ s a, Allowed a → Inv s → P s → C s a → P (step s a)) (h0 : Inv s) (hP : P s)
    (has : ∀ a ∈ as, Allowed a) (hC : EachStep step s as C) : Throughout step s as P := by
  induction as using List.reverseRecOn with
  | nil => exact throughout_nil.mpr hP
  | append_singleton as a ih =>
    obtain ⟨hCas, hCa⟩ := eachStep_concat.mp hC
    have hall : ∀ b ∈ as, Allowed b := fun b hb => has b (by simp [hb])
    have hih := ih hall hCas
    exact throughout_concat.mpr
      ⟨hih, hkeep _ _ (has a (by simp)) (run_invariant Allowed hinv h0 hall) hih.last hCa⟩

/-- If a step keeps `P` just when it meets `C`, `P` holds throughout a run if and only if
every step of the run meets `C`. -/
theorem throughout_iff_eachStep (hinv : ∀ s a, Allowed a → Inv s → Inv (step s a))
    (hstep : ∀ s a, Allowed a → Inv s → P s → (P (step s a) ↔ C s a)) (h0 : Inv s) (hP : P s)
    (has : ∀ a ∈ as, Allowed a) : Throughout step s as P ↔ EachStep step s as C := by
  refine ⟨fun h => ?_, throughout_of_eachStep Allowed hinv
    (fun s a ha hi hp => (hstep s a ha hi hp).mpr) h0 hP has⟩
  induction as using List.reverseRecOn with
  | nil => exact eachStep_nil
  | append_singleton as a ih =>
    obtain ⟨hold, hlast⟩ := throughout_concat.mp h
    have hall : ∀ b ∈ as, Allowed b := fun b hb => has b (by simp [hb])
    have hinv' := run_invariant Allowed hinv h0 hall
    exact eachStep_concat.mpr
      ⟨ih hall hold, (hstep _ _ (has a (by simp)) hinv' hold.last).mp hlast⟩

end

/-- If a step keeps `P` just when it meets `C`, and nothing brings `P` back, a run keeps it just
when each of its steps meets `C`. -/
theorem run_iff_eachStep {step : σ → α → σ} {P : σ → Prop} {C : σ → α → Prop}
    (hstep : ∀ s a, P (step s a) ↔ P s ∧ C s a) (s : σ) (as : List α) :
    P (run step s as) ↔ P s ∧ EachStep step s as C := by
  induction as using List.reverseRecOn with
  | nil => exact (and_iff_left eachStep_nil).symm
  | append_singleton as a ih =>
    rw [run_append, run_cons, run_nil, hstep, ih, eachStep_concat, and_assoc]

/-! ## The last step of a kind -/

/-- If a step of the run is of the kind `E`, the last one that is meets `C`. -/
def LastStep (step : σ → α → σ) (s : σ) (as : List α) (E C : σ → α → Prop) : Prop :=
  ∀ pre a post, as = pre ++ a :: post → E (run step s pre) a →
    EachStep step (step (run step s pre) a) post (fun t b => ¬E t b) → C (run step s pre) a

theorem lastStep_nil {step : σ → α → σ} {s : σ} {E C : σ → α → Prop} :
    LastStep step s [] E C := by
  intro pre a post h
  simp at h

theorem lastStep_concat_of {step : σ → α → σ} {s : σ} {as : List α} {a : α}
    {E C : σ → α → Prop} (h : E (run step s as) a) :
    LastStep step s (as ++ [a]) E C ↔ C (run step s as) a := by
  constructor
  · intro hlast
    exact hlast as a [] rfl h eachStep_nil
  · intro hC pre b post heq _ hrest
    rcases List.eq_nil_or_concat post with rfl | ⟨post, c, rfl⟩
    · obtain ⟨rfl, hab⟩ := List.append_inj' heq rfl
      obtain rfl := List.singleton_inj.mp hab
      exact hC
    · -- then `a` is a later step of the kind
      rw [List.concat_eq_append, ← List.cons_append, ← List.append_assoc] at heq
      obtain ⟨rfl, hac⟩ := List.append_inj' heq rfl
      obtain rfl := List.singleton_inj.mp hac
      rw [List.concat_eq_append] at hrest
      refine absurd ?_ (eachStep_concat.mp hrest).2
      rwa [run_append, run_cons] at h

theorem lastStep_concat_of_not {step : σ → α → σ} {s : σ} {as : List α} {a : α}
    {E C : σ → α → Prop} (h : ¬E (run step s as) a) :
    LastStep step s (as ++ [a]) E C ↔ LastStep step s as E C := by
  constructor
  · intro hlast pre b post heq hE hrest
    obtain rfl := heq
    refine hlast pre b (post ++ [a]) (by simp) hE (eachStep_concat.mpr ⟨hrest, ?_⟩)
    rwa [run_append, run_cons] at h
  · intro hlast pre b post heq hE hrest
    rcases List.eq_nil_or_concat post with rfl | ⟨post, c, rfl⟩
    · obtain ⟨rfl, hab⟩ := List.append_inj' heq rfl
      obtain rfl := List.singleton_inj.mp hab
      exact absurd hE h
    · rw [List.concat_eq_append, ← List.cons_append, ← List.append_assoc] at heq
      obtain ⟨rfl, -⟩ := List.append_inj' heq rfl
      rw [List.concat_eq_append] at hrest
      exact hlast pre b post rfl hE (eachStep_concat.mp hrest).1

/-- If a step of the kind makes `P` true just when it meets `C`, and no other step changes
`P`, then `P` holds after a run if and only if its last step of the kind met `C`. -/
theorem run_iff_lastStep {step : σ → α → σ} (Allowed : α → Prop) (Inv P : σ → Prop)
    (E C : σ → α → Prop) (hinv : ∀ s a, Allowed a → Inv s → Inv (step s a))
    (hE : ∀ s a, Inv s → E s a → (P (step s a) ↔ C s a))
    (hrest : ∀ s a, Inv s → ¬E s a → (P (step s a) ↔ P s)) {s : σ} (h0 : Inv s) (hP : P s)
    {as : List α} (has : ∀ a ∈ as, Allowed a) : P (run step s as) ↔ LastStep step s as E C := by
  induction as using List.reverseRecOn with
  | nil => exact iff_of_true hP lastStep_nil
  | append_singleton as a ih =>
    have hall : ∀ b ∈ as, Allowed b := fun b hb => has b (by simp [hb])
    have hi : Inv (run step s as) := run_invariant Allowed hinv h0 hall
    rw [run_append, run_cons, run_nil]
    by_cases h : E (run step s as) a
    · rw [hE _ _ hi h, lastStep_concat_of h]
    · rw [hrest _ _ hi h, ih hall, lastStep_concat_of_not h]

/-! ## Two moments of a run -/

/-- Any two moments of the run, the earlier and the later, are related. -/
def Steadily (step : σ → α → σ) (s : σ) (as : List α) (R : σ → σ → Prop) : Prop :=
  ∀ pre mid, pre <+: mid → mid <+: as → R (run step s pre) (run step s mid)

/-- If a step relates its two states just when it meets `C`, any two moments of a run are
related if and only if every step of the run meets `C`. -/
theorem steadily_iff_eachStep {step : σ → α → σ} (Allowed : α → Prop) {Inv : σ → Prop}
    {R : σ → σ → Prop} {C : σ → α → Prop} (hinv : ∀ s a, Allowed a → Inv s → Inv (step s a))
    (hrefl : ∀ s, Inv s → R s s) (htrans : ∀ s t u, R s t → R t u → R s u)
    (hstep : ∀ s a, Allowed a → Inv s → (R s (step s a) ↔ C s a)) {s : σ} (h0 : Inv s)
    {as : List α} (has : ∀ a ∈ as, Allowed a) :
    Steadily step s as R ↔ EachStep step s as C := by
  have hall : ∀ bs, bs <+: as → ∀ b ∈ bs, Allowed b := fun bs hbs b hb => has b (hbs.subset hb)
  have hrun : ∀ bs, bs <+: as → Inv (run step s bs) := fun bs hbs =>
    run_invariant Allowed hinv h0 (hall bs hbs)
  constructor
  · intro h pre a hpre
    have hbefore : pre <+: as := (List.prefix_append pre [a]).trans hpre
    have hnext := h pre (pre ++ [a]) (List.prefix_append pre [a]) hpre
    rw [run_append, run_cons, run_nil] at hnext
    exact (hstep _ a (hall _ hpre a (by simp)) (hrun pre hbefore)).mp hnext
  · rintro h pre _ ⟨rest, rfl⟩ hmid
    induction rest using List.reverseRecOn with
    | nil =>
      rw [List.append_nil] at hmid ⊢
      exact hrefl _ (hrun pre hmid)
    | append_singleton rest a ih =>
      rw [← List.append_assoc] at hmid ⊢
      have hbefore : pre ++ rest <+: as := (List.prefix_append _ [a]).trans hmid
      rw [run_append step s (pre ++ rest), run_cons, run_nil]
      exact htrans _ _ _ (ih hbefore) ((hstep _ a (hall _ hmid a (by simp)) (hrun _ hbefore)).mpr
        (h (pre ++ rest) a hmid))

/-- What every step gives, any two moments of a run have. -/
theorem steadily_of_step {step : σ → α → σ} (Allowed : α → Prop) {Inv : σ → Prop}
    {G : σ → σ → Prop} (hinv : ∀ s a, Allowed a → Inv s → Inv (step s a))
    (hrefl : ∀ s, Inv s → G s s) (htrans : ∀ s t u, G s t → G t u → G s u)
    (hstep : ∀ s a, Allowed a → Inv s → G s (step s a)) {s : σ} (h0 : Inv s) {as : List α}
    (has : ∀ a ∈ as, Allowed a) : Steadily step s as G :=
  (steadily_iff_eachStep Allowed hinv hrefl htrans
    (fun s a ha hi => iff_of_true (hstep s a ha hi) trivial) h0 has).mpr fun _ _ _ => trivial

/-! ## Steps that are taken once -/

/-- At most one step of the run is of the kind `E`. -/
def AtMostOnce (step : σ → α → σ) (s : σ) (as : List α) (E : σ → α → Prop) : Prop :=
  ∀ pre a pre' b, pre ++ [a] <+: as → pre' ++ [b] <+: as → E (run step s pre) a →
    E (run step s pre') b → pre = pre'

/-- A step of the kind leaves a mark that stays, and where the mark is none is taken. -/
theorem atMostOnce_of_mark {step : σ → α → σ} (M : σ → Prop) {E : σ → α → Prop}
    (hmark : ∀ s a, E s a → M (step s a)) (hkeep : ∀ s a, M s → M (step s a))
    (honce : ∀ s a, M s → ¬E s a) (s : σ) (as : List α) : AtMostOnce step s as E := by
  -- the later of two such steps would be taken where the mark is
  have hlater : ∀ pre a pre' b, pre ++ [a] <+: pre' → E (run step s pre) a →
      ¬E (run step s pre') b := by
    rintro pre a pre' b ⟨rest, rfl⟩ hE
    refine honce _ _ ?_
    rw [List.append_assoc, run_append, List.singleton_append, run_cons]
    exact run_invariant (fun _ => True) (fun t c _ h => hkeep t c h) (hmark _ _ hE)
      fun _ _ => trivial
  intro pre a pre' b hpre hpre' hE hE'
  rcases List.prefix_or_prefix_of_prefix hpre hpre' with h | h
  · rcases List.prefix_concat_iff.mp h with heq | h
    · exact (List.append_inj' heq rfl).1
    · exact absurd hE' (hlater pre a pre' b h hE)
  · rcases List.prefix_concat_iff.mp h with heq | h
    · exact (List.append_inj' heq rfl).1.symm
    · exact absurd hE (hlater pre' b pre a h hE')

/-! ## Interleavings of two programs -/

/-- The orders in which the steps of `a :: as` and of another program can come, where
`rest` are those of `as` and the other program. -/
def interleaveCons (a : α) (as : List α) (rest : List α → List (List α)) :
    List α → List (List α)
  | [] => [a :: as]
  | b :: bs => (rest (b :: bs)).map (a :: ·) ++ (interleaveCons a as rest bs).map (b :: ·)

/-- The orders in which the steps of `as` and `bs` can come, each program's own steps in
its order. -/
def interleavings : List α → List α → List (List α)
  | [], bs => [bs]
  | a :: as, bs => interleaveCons a as (interleavings as) bs

end Qoms
