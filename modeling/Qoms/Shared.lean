import Qoms.Run
import Mathlib.Algebra.BigOperators.Group.Finset.Basic
import Mathlib.Logic.Function.Basic

/-!
# Processes over a shared store

Any number of processes share a store. A process takes one atomic step at a time : it
reads the store, may write it, and moves to its next local state (`act`); the others
stay where they are (`step`). A run interleaves the steps of all processes in any order.

What a process learned of the store can be outdated at its next step, so it keeps only
facts that the steps of the others preserve. If each step keeps the store's invariant,
changes the store by `Rely` at most and leaves its own process sound, and `Rely` keeps
every process sound, then the store and all processes stay so together (`Safe.step`).

A process can hold what it read until a step that ends it. What was so when it read is so still at
that step, exactly when no process took such a step in between (`eachStep_iff_noneBetween`).

A weight of local states can be summed over the processes that take part (`total`); a step
changes the sum as it changes the weight of its own process (`total_step`).

Two steps of different processes commute if the one only reads and the other changes
nothing that it reads (`step_comm`).

A group of processes does not see the steps of the others if these change nothing that a
step of the group reads (`Separates`) : then the group goes through a run as it goes through
the run with the steps of the others left out (`Alike.run_filter`).
-/

set_option autoImplicit false

namespace Qoms

/-- The store, and the local state of each process. -/
structure Shared (D Q : Type*) where
  db : D
  requests : ℕ → Q

namespace Shared

variable {α D Q : Type*} {act : α → D → Q → D × Q}

/-- Process `pa.1` takes the step `pa.2`. -/
def step (act : α → D → Q → D × Q) (s : Shared D Q) (pa : ℕ × α) : Shared D Q where
  db := (act pa.2 s.db (s.requests pa.1)).1
  requests := Function.update s.requests pa.1 (act pa.2 s.db (s.requests pa.1)).2

@[simp] theorem step_db (s : Shared D Q) (p : ℕ) (a : α) :
    (step act s (p, a)).db = (act a s.db (s.requests p)).1 :=
  rfl

@[simp] theorem step_requests_self (s : Shared D Q) (p : ℕ) (a : α) :
    (step act s (p, a)).requests p = (act a s.db (s.requests p)).2 := by
  simp [step]

theorem step_requests_of_ne (s : Shared D Q) {p q : ℕ} (a : α) (h : q ≠ p) :
    (step act s (p, a)).requests q = s.requests q := by
  simp [step, h]

/-- A process that no step moves stays where it is. -/
theorem run_requests_of_stuck {q : Q} (hq : ∀ a d, (act a d q).2 = q) {p : ℕ}
    (as : List (ℕ × α)) {s : Shared D Q} (h : s.requests p = q) :
    (run (step act) s as).requests p = q := by
  induction as generalizing s with
  | nil => exact h
  | cons pa as ih =>
    refine ih ?_
    obtain ⟨p', a⟩ := pa
    rcases eq_or_ne p p' with rfl | hne
    · rw [step_requests_self, h, hq]
    · rw [step_requests_of_ne s a hne, h]

/-- A process that takes no step stays where it is. -/
theorem run_requests_of_absent {p : ℕ} {as : List (ℕ × α)} {s : Shared D Q}
    (h : ∀ pa ∈ as, pa.1 ≠ p) : (run (step act) s as).requests p = s.requests p := by
  induction as generalizing s with
  | nil => rfl
  | cons pa as ih =>
    obtain ⟨q, a⟩ := pa
    rw [run_cons, ih fun qb hqb => h qb (by simp [hqb])]
    exact step_requests_of_ne s a (h (q, a) (by simp)).symm

/-- What the steps of a process preserve of its own state, whatever the store, holds of it
throughout. -/
theorem run_requests_invariant {I : ℕ → Q → Prop} {s : Shared D Q} {as : List (ℕ × α)}
    (hstep : ∀ p a d q, (p, a) ∈ as → I p q → I p (act a d q).2) (h0 : ∀ p, I p (s.requests p))
    (p : ℕ) : I p ((run (step act) s as).requests p) := by
  induction as generalizing s with
  | nil => exact h0 p
  | cons pa as ih =>
    obtain ⟨q, a⟩ := pa
    refine ih (fun p b d r hb => hstep p b d r (List.mem_cons_of_mem _ hb)) fun p => ?_
    rcases eq_or_ne p q with rfl | hne
    · rw [step_requests_self]
      exact hstep p a _ _ List.mem_cons_self (h0 p)
    · rw [step_requests_of_ne s a hne]
      exact h0 p

/-! ## Rely and guarantee -/

/-- The store satisfies its invariant and every process is sound in it. -/
structure Safe (Inv : D → Prop) (Sound : D → Q → Prop) (s : Shared D Q) : Prop where
  store : Inv s.db
  sound : ∀ p, Sound s.db (s.requests p)

/-- What a step owes to its own process and to the others. -/
structure Guarantees (Inv : D → Prop) (Sound : D → Q → Prop) (Rely : D → D → Prop) (d : D)
    (r : D × Q) : Prop where
  store : Inv r.1
  rely : Rely d r.1
  sound : Sound r.1 r.2

section

variable {Inv : D → Prop} {Sound : D → Q → Prop} {Rely : D → D → Prop}

theorem Safe.step {s : Shared D Q} (h : s.Safe Inv Sound) {p : ℕ} {a : α}
    (hact : Guarantees Inv Sound Rely s.db (act a s.db (s.requests p)))
    (hrely : ∀ d d' q, Rely d d' → Sound d q → Sound d' q) :
    (Shared.step act s (p, a)).Safe Inv Sound where
  store := hact.store
  sound q := by
    rcases eq_or_ne q p with rfl | hne
    · rw [step_requests_self]
      exact hact.sound
    · rw [step_requests_of_ne s a hne]
      exact hrely _ _ _ hact.rely (h.sound q)

variable (Allowed : α → Prop) (Rely : D → D → Prop) {s : Shared D Q} {as : List (ℕ × α)}

/-- A run of allowed steps, each with its guarantees, stays safe. -/
theorem Safe.run
    (hact : ∀ a d q, Allowed a → Inv d → Sound d q → Guarantees Inv Sound Rely d (act a d q))
    (hrely : ∀ d d' q, Rely d d' → Sound d q → Sound d' q) (h0 : s.Safe Inv Sound)
    (has : ∀ pa ∈ as, Allowed pa.2) : (Qoms.run (Shared.step act) s as).Safe Inv Sound :=
  run_invariant (fun pa => Allowed pa.2)
    (fun _ pa ha h => h.step (hact pa.2 _ _ ha h.store (h.sound pa.1)) hrely) h0 has

/-- If a sound process's step keeps `P` just when it meets `C`, then `P` holds throughout
a run if and only if every step of the run meets `C`. -/
theorem throughout_iff_eachStep (P : D → Prop) (C : α → D → Q → Prop)
    (hact : ∀ a d q, Allowed a → Inv d → Sound d q → Guarantees Inv Sound Rely d (act a d q))
    (hrely : ∀ d d' q, Rely d d' → Sound d q → Sound d' q)
    (hstep : ∀ a d q, Inv d → Sound d q → P d → (P (act a d q).1 ↔ C a d q))
    (h0 : s.Safe Inv Sound) (hP : P s.db) (has : ∀ pa ∈ as, Allowed pa.2) :
    Throughout (Shared.step act) s as (fun t => P t.db) ↔
      EachStep (Shared.step act) s as fun t pa => C pa.2 t.db (t.requests pa.1) :=
  Qoms.throughout_iff_eachStep (fun pa => Allowed pa.2)
    (fun _ pa ha h => Safe.step h (hact pa.2 _ _ ha h.store (h.sound pa.1)) hrely)
    (fun _ pa _ h hp => hstep pa.2 _ _ h.store (h.sound pa.1) hp) h0 hP has

end

/-! ## Between two steps of a process -/

/-- A process takes a step that `Begins`, and later one that `Ends`. -/
def Completes (act : α → D → Q → D × Q) (s : Shared D Q) (as : List (ℕ × α))
    (Begins Ends : α → D → Q → Prop) : Prop :=
  ∃ pre p a mid b, pre ++ (p, a) :: (mid ++ [(p, b)]) <+: as ∧
    Begins a (run (step act) s pre).db ((run (step act) s pre).requests p) ∧
    Ends b (run (step act) s (pre ++ (p, a) :: mid)).db
      ((run (step act) s (pre ++ (p, a) :: mid)).requests p)

/-- Whenever a process takes a step that `Begins` and later one that `Ends`, nobody takes one that
`Ends` between the two. -/
def NoneBetween (act : α → D → Q → D × Q) (s : Shared D Q) (as : List (ℕ × α))
    (Begins Ends : α → D → Q → Prop) : Prop :=
  ∀ pre p a mid b, pre ++ (p, a) :: (mid ++ [(p, b)]) <+: as →
    Begins a (run (step act) s pre).db ((run (step act) s pre).requests p) →
    Ends b (run (step act) s (pre ++ (p, a) :: mid)).db
      ((run (step act) s (pre ++ (p, a) :: mid)).requests p) →
    EachStep (step act) (run (step act) s (pre ++ [(p, a)])) mid
      fun t qc => ¬Ends qc.2 t.db (t.requests qc.1)

section

variable {Begins Ends : α → D → Q → Prop} {Inv : Shared D Q → Prop} {Holding : Q → Prop}
  {s : Shared D Q} {as : List (ℕ × α)}

/-- A process that holds something came to it by a step of the run. -/
theorem exists_begins (hhold : ∀ a d q, Holding (act a d q).2 → Holding q ∨ Begins a d q)
    (h0 : ∀ p, ¬Holding (s.requests p)) {p : ℕ}
    (h : Holding ((run (step act) s as).requests p)) :
    ∃ pre a mid, as = pre ++ (p, a) :: mid ∧
      Begins a (run (step act) s pre).db ((run (step act) s pre).requests p) := by
  induction as using List.reverseRecOn with
  | nil => exact absurd h (h0 p)
  | append_singleton as qb ih =>
    obtain ⟨q, b⟩ := qb
    rw [run_append, run_cons, run_nil] at h
    have hcase : Holding ((run (step act) s as).requests p) ∨
        (p = q ∧ Begins b (run (step act) s as).db ((run (step act) s as).requests p)) := by
      rcases eq_or_ne p q with rfl | hne
      · rw [step_requests_self] at h
        exact (hhold _ _ _ h).imp_right fun hbegins => ⟨rfl, hbegins⟩
      · rw [step_requests_of_ne _ b hne] at h
        exact Or.inl h
    rcases hcase with hbefore | ⟨rfl, hbegins⟩
    · obtain ⟨pre, a, mid, rfl, hbegins⟩ := ih hbefore
      exact ⟨pre, a, mid ++ [(q, b)], by simp, hbegins⟩
    · exact ⟨as, b, [], rfl, hbegins⟩

/-- A process that holds something, and takes a step that ends, came to it by a step of the run. -/
theorem completes_of_holding
    (hhold : ∀ a d q, Holding (act a d q).2 → Holding q ∨ Begins a d q)
    (h0 : ∀ p, ¬Holding (s.requests p)) {pre : List (ℕ × α)} {p : ℕ} {b : α}
    (hpre : pre ++ [(p, b)] <+: as) (hholding : Holding ((run (step act) s pre).requests p))
    (hends : Ends b (run (step act) s pre).db ((run (step act) s pre).requests p)) :
    Completes act s as Begins Ends := by
  obtain ⟨before, a, mid, rfl, hbegins⟩ := exists_begins hhold h0 hholding
  exact ⟨before, p, a, mid, b, by simpa using hpre, hbegins, hends⟩

/-- If `P` holds after a step that begins, and is lost for good by the first step that ends, then
it holds at every step that ends, if and only if none comes between the two of a process. -/
theorem eachStep_iff_noneBetween (P : D → Prop) (Holding : Q → Prop)
    (hinv : ∀ s pa, Inv s → Inv (step act s pa))
    (hhold : ∀ a d q, Holding (act a d q).2 → Holding q ∨ Begins a d q)
    (hends : ∀ a d q, Ends a d q → Holding q)
    (hbegins : ∀ s p a, Inv s → Begins a s.db (s.requests p) → P (step act s (p, a)).db)
    (hstep : ∀ a d q, P (act a d q).1 ↔ P d ∧ ¬Ends a d q) (h0 : Inv s)
    (hidle : ∀ p, ¬Holding (s.requests p)) :
    EachStep (step act) s as (fun t pa => Ends pa.2 t.db (t.requests pa.1) → P t.db) ↔
      NoneBetween act s as Begins Ends := by
  -- from the step that begins on, `P` is lost by the first step that ends
  have hmid : ∀ pre p a mid,
      Begins a (run (step act) s pre).db ((run (step act) s pre).requests p) →
      (P (run (step act) s (pre ++ (p, a) :: mid)).db ↔
        EachStep (step act) (run (step act) s (pre ++ [(p, a)])) mid
          fun t qc => ¬Ends qc.2 t.db (t.requests qc.1)) := by
    intro pre p a mid h
    have hinv' : Inv (run (step act) s pre) :=
      run_invariant (fun _ => True) (fun t pa _ ht => hinv t pa ht) h0 fun _ _ => trivial
    have hP : P (run (step act) s (pre ++ [(p, a)])).db := by
      rw [run_append, run_cons, run_nil]
      exact hbegins _ p a hinv' h
    have hsplit : pre ++ (p, a) :: mid = pre ++ [(p, a)] ++ mid := by simp
    rw [hsplit, run_append]
    have hkeeps : ∀ (t : Shared D Q) (qc : ℕ × α), P (step act t qc).db ↔
        P t.db ∧ ¬Ends qc.2 t.db (t.requests qc.1) := fun t qc => hstep qc.2 t.db (t.requests qc.1)
    have hrun := run_iff_eachStep (P := fun t => P t.db) hkeeps
      (run (step act) s (pre ++ [(p, a)])) mid
    exact hrun.trans (and_iff_right hP)
  constructor
  · intro h pre p a mid b hpre hbegin hend
    refine (hmid pre p a mid hbegin).mp (h (pre ++ (p, a) :: mid) (p, b) ?_ hend)
    simpa using hpre
  · rintro h pre ⟨p, b⟩ hpre hend
    obtain ⟨before, a, mid, rfl, hbegin⟩ := exists_begins hhold hidle (hends _ _ _ hend)
    exact (hmid before p a mid hbegin).mpr
      (h before p a mid b (by simpa using hpre) hbegin hend)

/-- A step that logs an end keeps the log free of repetitions just when the end is a new one. -/
theorem nodup_append_toList_iff {ι : Type*} {log : List ι} (h : log.Nodup) (i : Option ι) :
    (log ++ i.toList).Nodup ↔ ∀ j, i = some j → j ∉ log := by
  cases i with
  | none => simpa using h
  | some i =>
    have hiff : (log ++ [i]).Nodup ↔ i ∉ log := by
      simp [← List.concat_eq_append, List.nodup_concat, h]
    rw [Option.toList_some, hiff]
    simp

/-- Processes look things up, hold them, and log that they end. If a thing that ended is never
found again, nothing is logged twice exactly when none ends between its lookup by a process and
its end by that process. -/
theorem nodup_iff_noneBetween {ι : Type*} {ended : D → List ι} {finds : α → D → Q → Option ι}
    {holds : Q → Option ι} {ends : α → Q → Option ι} (hinv : ∀ s pa, Inv s → Inv (step act s pa))
    (hhold : ∀ a d q i, holds (act a d q).2 = some i → holds q = some i ∨ finds a d q = some i)
    (hends : ∀ a q i, ends a q = some i → holds q = some i)
    (hlog : ∀ a d q, ended (act a d q).1 = ended d ++ (ends a q).toList)
    (hfinds : ∀ s p a i, Inv s → finds a s.db (s.requests p) = some i →
      i ∉ ended (step act s (p, a)).db)
    (h0 : Inv s) (hidle : ∀ p, holds (s.requests p) = none) (hnodup : (ended s.db).Nodup) :
    Throughout (step act) s as (fun t => (ended t.db).Nodup) ↔
      ∀ i, NoneBetween act s as (fun a d q => finds a d q = some i) fun a _ q =>
        ends a q = some i := by
  have hsteps : Throughout (step act) s as (fun t => (ended t.db).Nodup) ↔ EachStep (step act) s as
      fun t pa => ∀ i, ends pa.2 (t.requests pa.1) = some i → i ∉ ended t.db :=
    Qoms.throughout_iff_eachStep (fun _ => True) (fun _ _ _ (_ : True) => trivial)
      (fun t pa _ _ h => by rw [step, hlog]; exact nodup_append_toList_iff h _) trivial hnodup
      fun _ _ => trivial
  rw [hsteps]
  have heach : ∀ i, EachStep (step act) s as
      (fun t pa => ends pa.2 (t.requests pa.1) = some i → i ∉ ended t.db) ↔
        NoneBetween act s as (fun a d q => finds a d q = some i) fun a _ q =>
          ends a q = some i := by
    intro i
    refine eachStep_iff_noneBetween (fun d => i ∉ ended d) (fun q => holds q = some i) hinv
      (fun a d q => hhold a d q i) (fun a _ q => hends a q i) (fun s p a => hfinds s p a i)
      (fun a d q => ?_) h0 fun p => by simp [hidle p]
    rw [hlog, List.mem_append, not_or, Option.mem_toList]
  exact ⟨fun h i => (heach i).mp fun pre a hpre => h pre a hpre i,
    fun h pre a hpre i => (heach i).mpr (h i) pre a hpre⟩

end

/-! ## Totals over the processes -/

/-- The weights of the first `n` processes, summed. -/
def total (w : Q → ℕ) (n : ℕ) (s : Shared D Q) : ℕ :=
  ∑ p ∈ Finset.range n, w (s.requests p)

theorem total_step (w : Q → ℕ) {n p : ℕ} (hp : p < n) (s : Shared D Q) (a : α) :
    (step act s (p, a)).total w n + w (s.requests p) =
      s.total w n + w (act a s.db (s.requests p)).2 := by
  have hmem : p ∈ Finset.range n := Finset.mem_range.mpr hp
  have hrest : ∑ q ∈ (Finset.range n).erase p, w ((step act s (p, a)).requests q) =
      ∑ q ∈ (Finset.range n).erase p, w (s.requests q) :=
    Finset.sum_congr rfl fun q hq => by rw [step_requests_of_ne s a (Finset.ne_of_mem_erase hq)]
  rw [total, total, ← Finset.add_sum_erase _ _ hmem, ← Finset.add_sum_erase _ _ hmem, hrest,
    step_requests_self]
  omega

/-- Only finitely many processes take part in a run. -/
theorem exists_bound (as : List (ℕ × α)) : ∃ n, ∀ pa ∈ as, pa.1 < n := by
  induction as with
  | nil => exact ⟨0, by simp⟩
  | cons pa as ih =>
    obtain ⟨n, hn⟩ := ih
    refine ⟨max n (pa.1 + 1), List.forall_mem_cons.mpr ⟨by omega, fun qb hqb => ?_⟩⟩
    have := hn qb hqb
    omega

/-! ## Steps that commute -/

/-- A step that only reads commutes with a step of another process that it does not see. -/
theorem step_comm (s : Shared D Q) {p q : ℕ} {a b : α} (hne : p ≠ q)
    (hread : (act a s.db (s.requests p)).1 = s.db)
    (hunseen : act a (act b s.db (s.requests q)).1 (s.requests p) =
      ((act b s.db (s.requests q)).1, (act a s.db (s.requests p)).2)) :
    step act (step act s (p, a)) (q, b) = step act (step act s (q, b)) (p, a) := by
  have hq : (step act s (p, a)).requests q = s.requests q := step_requests_of_ne s a hne.symm
  have hp : (step act s (q, b)).requests p = s.requests p := step_requests_of_ne s b hne
  have hdb : (step act s (p, a)).db = s.db := hread
  simp only [step, hread] at hq hp hdb ⊢
  simp only [hq, hp, hunseen]
  rw [Function.update_comm hne]

/-! ## Steps of others -/

/-- Of the steps, those in `keep` go alike for the processes in `mine`, wherever the stores
look the same to these; a step outside `keep` is of another process, and the store looks the
same to them after it. `Local` is what holds of the local states of a process. -/
structure Separates (act : α → D → Q → D × Q) (Local : ℕ → Q → Prop) (mine : ℕ → Prop)
    (keep : ℕ × α → Prop) (Same : D → D → Prop) : Prop where
  stays : ∀ p a d q, Local p q → Local p (act a d q).2
  other : ∀ p a d q, ¬ keep (p, a) → Local p q → ¬ mine p ∧ Same d (act a d q).1
  kept : ∀ p a d d' q q', keep (p, a) → Local p q → Local p q' → Same d d' →
    (mine p → q' = q) → Same (act a d q).1 (act a d' q').1 ∧
      (mine p → (act a d' q').2 = (act a d q).2)

/-- Two moments that the processes in `mine` cannot tell apart. -/
structure Alike (Local : ℕ → Q → Prop) (mine : ℕ → Prop) (Same : D → D → Prop)
    (s t : Shared D Q) : Prop where
  store : Same s.db t.db
  requests : ∀ p, mine p → t.requests p = s.requests p
  placed : ∀ p, Local p (s.requests p) ∧ Local p (t.requests p)

section

variable {Local : ℕ → Q → Prop} {mine : ℕ → Prop} {keep : ℕ × α → Prop} {Same : D → D → Prop}
  {s t : Shared D Q}

/-- A step that is kept, taken at both moments. -/
theorem Alike.step_kept (hsep : Separates act Local mine keep Same) (h : Alike Local mine Same s t)
    {p : ℕ} {a : α} (hk : keep (p, a)) :
    Alike Local mine Same (step act s (p, a)) (step act t (p, a)) := by
  have hstep := hsep.kept p a s.db t.db (s.requests p) (t.requests p) hk (h.placed p).1
    (h.placed p).2 h.store (h.requests p)
  refine ⟨hstep.1, fun q hq => ?_, fun q => ?_⟩
  · rcases eq_or_ne q p with rfl | hne
    · simpa only [step_requests_self] using hstep.2 hq
    · simpa only [step_requests_of_ne _ a hne] using h.requests q hq
  · rcases eq_or_ne q p with rfl | hne
    · simp only [step_requests_self]
      exact ⟨hsep.stays _ _ _ _ (h.placed q).1, hsep.stays _ _ _ _ (h.placed q).2⟩
    · simpa only [step_requests_of_ne _ a hne] using h.placed q

/-- A step that is left out at the second moment. -/
theorem Alike.step_other (hsep : Separates act Local mine keep Same)
    (htrans : ∀ d d' d'', Same d d' → Same d d'' → Same d' d'') (h : Alike Local mine Same s t)
    {p : ℕ} {a : α} (hk : ¬ keep (p, a)) : Alike Local mine Same (step act s (p, a)) t := by
  obtain ⟨hmine, hsame⟩ := hsep.other p a s.db (s.requests p) hk (h.placed p).1
  refine ⟨htrans _ _ _ hsame h.store, fun q hq => ?_, fun q => ⟨?_, (h.placed q).2⟩⟩
  · rw [step_requests_of_ne s a fun (heq : q = p) => hmine (heq ▸ hq)]
    exact h.requests q hq
  · rcases eq_or_ne q p with rfl | hne
    · rw [step_requests_self]
      exact hsep.stays _ _ _ _ (h.placed q).1
    · rw [step_requests_of_ne s a hne]
      exact (h.placed q).1

/-- With the other steps left out, the run goes alike. -/
theorem Alike.run_filter [DecidablePred keep] (hsep : Separates act Local mine keep Same)
    (htrans : ∀ d d' d'', Same d d' → Same d d'' → Same d' d'') (h : Alike Local mine Same s t)
    (as : List (ℕ × α)) :
    Alike Local mine Same (run (step act) s as)
      (run (step act) t (as.filter fun pa => keep pa)) := by
  induction as generalizing s t with
  | nil => exact h
  | cons pa as ih =>
    by_cases hk : keep pa
    · rw [List.filter_cons_of_pos (by simpa using hk)]
      exact ih (h.step_kept hsep hk)
    · rw [List.filter_cons_of_neg (by simpa using hk)]
      exact ih (h.step_other hsep htrans hk)

end

end Shared

end Qoms
