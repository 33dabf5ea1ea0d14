import Mathlib.Data.List.Forall2
import Mathlib.Data.List.Nodup
import Mathlib.Order.Nat
import Mathlib.Tactic.SplitIfs

/-!
# Tables under concurrent requests

A table is the list of its rows in insertion order. Rows are never removed; a row
changes only by ageing, a preorder `ages` on rows, and a new row gets an id that was not
drawn before. So a later version of a table has its rows, aged, at their old places, and
the new rows after them (`Later`, `Grows`). A request that read a table, or a row of it,
can rely on no more than that when it writes.

Many services admit a new row by a query and, later, an insert : the query counts the
live rows, and if they are few enough the row is inserted in a transaction of its own.
If ageing never brings a row back to life, the live rows now are the live rows the query
saw, less those that died since (`departed`), plus the rows inserted since that are still
alive (`arrived`). So the insert has room exactly when the arrivals leave a place that
the query saw free or a departure freed (`Later.count_lt_iff`).

A request can also save an entity it read earlier (`saveRow`). While it holds the entity
its row can age, but as long as the entity is a last version of its row (`Holds`) the
save only ages the table (`Grows.saveRow`).
-/

set_option autoImplicit false

namespace Qoms

variable {R : Type*} {id : R → ℕ} {ages : R → R → Prop} {s t u : List R} {n m k : ℕ}

/-! ## Later versions of a table -/

/-- `t` is a later version of the table `s`. -/
def Later (ages : R → R → Prop) (s t : List R) : Prop :=
  ∃ old new, t = old ++ new ∧ List.Forall₂ ages s old

theorem Later.refl (hrefl : ∀ r, ages r r) (s : List R) : Later ages s s :=
  ⟨s, [], by simp, List.forall₂_same.mpr fun r _ => hrefl r⟩

theorem forall₂_trans (htrans : ∀ a b c, ages a b → ages b c → ages a c)
    (hst : List.Forall₂ ages s t) (htu : List.Forall₂ ages t u) : List.Forall₂ ages s u := by
  induction hst generalizing u with
  | nil =>
    cases htu
    exact .nil
  | cons hab _ ih =>
    cases htu with
    | cons hbc htu => exact .cons (htrans _ _ _ hab hbc) (ih htu)

theorem Later.trans (htrans : ∀ a b c, ages a b → ages b c → ages a c) (hst : Later ages s t)
    (htu : Later ages t u) : Later ages s u := by
  obtain ⟨old, new, rfl, hold⟩ := hst
  obtain ⟨old', new', rfl, hold'⟩ := htu
  have htake := List.forall₂_take old.length hold'
  rw [List.take_left] at htake
  refine ⟨old'.take old.length, old'.drop old.length ++ new', ?_, forall₂_trans htrans hold htake⟩
  rw [← List.append_assoc, List.take_append_drop]

/-! ## Growing tables -/

/-- The rows have distinct ids, all drawn : below `n`. -/
structure Keyed (id : R → ℕ) (s : List R) (n : ℕ) : Prop where
  nodup : (s.map id).Nodup
  fresh : ∀ r ∈ s, id r < n

/-- A step took the table `s`, with `n` ids drawn, to `t`, with `m` drawn : `t` is a later
version of `s`, and each of its rows is a version of a row of `s` or newly drawn. -/
structure Grows (id : R → ℕ) (ages : R → R → Prop) (s : List R) (n : ℕ) (t : List R) (m : ℕ) :
    Prop where
  later : Later ages s t
  origin : ∀ r ∈ t, (∃ r' ∈ s, ages r' r) ∨ (n ≤ id r ∧ id r < m)
  drawn : n ≤ m

theorem Grows.refl (hrefl : ∀ r, ages r r) (s : List R) (n : ℕ) : Grows id ages s n s n where
  later := Later.refl hrefl s
  origin r hr := Or.inl ⟨r, hr, hrefl r⟩
  drawn := le_rfl

theorem Keyed.nil : Keyed id [] n where
  nodup := List.nodup_nil
  fresh := by simp

/-- The row of an id. -/
theorem Keyed.eq_of_id_eq (h : Keyed id s n) {a b : R} (ha : a ∈ s) (hb : b ∈ s)
    (hid : id a = id b) : a = b :=
  List.inj_on_of_nodup_map h.nodup ha hb hid

theorem Grows.trans (hid : ∀ a b, ages a b → id a = id b)
    (htrans : ∀ a b c, ages a b → ages b c → ages a c) (hst : Grows id ages s n t m)
    (htu : Grows id ages t m u k) : Grows id ages s n u k where
  later := hst.later.trans htrans htu.later
  origin r hr := by
    rcases htu.origin r hr with ⟨b, hb, hbr⟩ | ⟨hle, hlt⟩
    · rcases hst.origin b hb with ⟨a, ha, hab⟩ | ⟨hle, hlt⟩
      · exact Or.inl ⟨a, ha, htrans a b r hab hbr⟩
      · rw [hid b r hbr] at hle hlt
        exact Or.inr ⟨hle, hlt.trans_le htu.drawn⟩
    · exact Or.inr ⟨hst.drawn.trans hle, hlt⟩
  drawn := hst.drawn.trans htu.drawn

/-- Each row has a later version. -/
theorem Later.exists_version (h : Later ages s t) {r : R} (hr : r ∈ s) :
    ∃ r' ∈ t, ages r r' := by
  obtain ⟨old, new, rfl, hold⟩ := h
  obtain ⟨i, hi, rfl⟩ := List.mem_iff_getElem.mp hr
  have hi' : i < old.length := hold.length_eq ▸ hi
  exact ⟨old.get ⟨i, hi'⟩, List.mem_append_left new (List.get_mem old _), hold.get hi hi'⟩

/-- The row with the id of an old one is a version of it. -/
theorem Grows.ages_of_id (hid : ∀ a b, ages a b → id a = id b) (h : Grows id ages s n t m)
    (hkeyed : Keyed id s n) {a b : R} (ha : a ∈ s) (hb : b ∈ t) (heq : id b = id a) :
    ages a b := by
  rcases h.origin b hb with ⟨a', ha', hages⟩ | ⟨hle, -⟩
  · obtain rfl := hkeyed.eq_of_id_eq ha' ha ((hid a' b hages).trans heq)
    exact hages
  · exact absurd (hkeyed.fresh a ha) (heq ▸ hle.not_gt)

/-- Inserting a row with a newly drawn id. -/
theorem Grows.insert (hrefl : ∀ r, ages r r) {r : R} (hle : n ≤ id r) (hlt : id r < m) :
    Grows id ages s n (s ++ [r]) m where
  later := ⟨s, [r], rfl, List.forall₂_same.mpr fun r _ => hrefl r⟩
  origin x hx := by
    rcases List.mem_append.mp hx with hx | hx
    · exact Or.inl ⟨x, hx, hrefl x⟩
    · rw [List.mem_singleton.mp hx]
      exact Or.inr ⟨hle, hlt⟩
  drawn := hle.trans hlt.le

theorem Keyed.insert (h : Keyed id s n) {r : R} (hle : n ≤ id r) (hlt : id r < m) :
    Keyed id (s ++ [r]) m where
  nodup := by
    rw [List.map_append, List.nodup_append]
    refine ⟨h.nodup, by simp, ?_⟩
    intro x hx y hy
    obtain ⟨r', hr', rfl⟩ := List.mem_map.mp hx
    obtain rfl : y = id r := by simpa using hy
    exact ((h.fresh r' hr').trans_le hle).ne
  fresh x hx := by
    rcases List.mem_append.mp hx with hx | hx
    · exact (h.fresh x hx).trans (hle.trans_lt hlt)
    · rw [List.mem_singleton.mp hx]
      exact hlt

/-! ## Saving an entity -/

/-- Save an entity that was read : the columns that differ are written, so the row with
its id becomes the entity in memory. -/
def saveRow (id : R → ℕ) (mem : R) (s : List R) : List R :=
  s.map fun r => if id r = id mem then mem else r

theorem mem_saveRow {mem r : R} (h : r ∈ saveRow id mem s) :
    (r = mem ∧ ∃ r' ∈ s, id r' = id mem) ∨ r ∈ s := by
  obtain ⟨r', hr', rfl⟩ := List.mem_map.mp h
  split_ifs with hid
  · exact Or.inl ⟨rfl, r', hr', hid⟩
  · exact Or.inr hr'

/-- Saving an entity keeps the ids of the table. -/
theorem map_id_saveRow (id : R → ℕ) (mem : R) (s : List R) :
    (saveRow id mem s).map id = s.map id := by
  rw [saveRow, List.map_map]
  refine List.map_congr_left fun r _ => ?_
  rw [Function.comp_apply]
  split_ifs with hid
  · exact hid.symm
  · rfl

/-- A save keeps what tells the rows apart, if the entity has it from its row. -/
theorem map_saveRow_of_mem {β : Type*} {f : R → β} (hf : ∀ a b, f a = f b → id a = id b)
    (hnodup : (s.map id).Nodup) {mem : R} (h : f mem ∈ s.map f) :
    (saveRow id mem s).map f = s.map f := by
  obtain ⟨row, hrow, heq⟩ := List.mem_map.mp h
  rw [saveRow, List.map_map]
  refine List.map_congr_left fun r hr => ?_
  rw [Function.comp_apply]
  split_ifs with hid
  · rw [← heq, List.inj_on_of_nodup_map hnodup hr hrow (hid.trans (hf _ _ heq).symm)]
  · rfl

/-- A saved entity is found in place of its row. -/
theorem find?_saveRow (id : R → ℕ) {mem row : R}
    (h : s.find? (fun r => id r == id mem) = some row) :
    (saveRow id mem s).find? (fun r => id r == id mem) = some mem := by
  have hid : id row = id mem := by simpa using List.find?_some h
  have hsame : ((fun r => id r == id mem) ∘ fun r => if id r = id mem then mem else r) =
      fun r => id r == id mem := by
    funext r
    rw [Function.comp_apply]
    split_ifs with hr
    · simp [hr]
    · rfl
  rw [saveRow, List.find?_map, hsame, h, Option.map_some, if_pos hid]

/-- A save keeps the rows of the other ids. -/
theorem find?_saveRow_of_ne {mem : R} {i : ℕ} (hne : i ≠ id mem) (s : List R) :
    (saveRow id mem s).find? (fun r => id r == i) = s.find? (fun r => id r == i) := by
  induction s with
  | nil => rfl
  | cons r s ih =>
    rw [saveRow] at ih
    rw [saveRow, List.map_cons, List.find?_cons, List.find?_cons, ih]
    split_ifs with hid
    · have hmem : (id mem == i) = false := by simpa using hne.symm
      rw [hid, hmem]
    · rfl

/-- The entity is drawn, and a version of its row. -/
structure Holds (id : R → ℕ) (ages : R → R → Prop) (mem : R) (s : List R) (n : ℕ) : Prop where
  drawn : id mem < n
  version : ∀ r ∈ s, id r = id mem → ages r mem

/-- An entity that was read from a row and then aged in memory. -/
theorem Holds.of_mem (h : Keyed id s n) {r mem : R} (hr : r ∈ s) (hid : id mem = id r)
    (hages : ages r mem) : Holds id ages mem s n where
  drawn := by
    rw [hid]
    exact h.fresh r hr
  version r' hr' hid' := by
    rw [h.eq_of_id_eq hr' hr (hid'.trans hid)]
    exact hages

/-- A save keeps each row, or ages it to the entity. -/
theorem Holds.exists_mem_saveRow (hrefl : ∀ r, ages r r) {mem r : R} (h : Holds id ages mem s n)
    (hr : r ∈ s) : ∃ r' ∈ saveRow id mem s, ages r r' := by
  refine ⟨_, List.mem_map_of_mem hr, ?_⟩
  split_ifs with hid
  · exact h.version r hr hid
  · exact hrefl r

/-- A row after a save is a version of one before. -/
theorem Holds.of_mem_saveRow (hrefl : ∀ r, ages r r) {mem r' : R} (h : Holds id ages mem s n)
    (hr' : r' ∈ saveRow id mem s) : ∃ r ∈ s, ages r r' := by
  rcases mem_saveRow hr' with ⟨rfl, r, hr, hid⟩ | hr'
  · exact ⟨r, hr, h.version r hr hid⟩
  · exact ⟨r', hr', hrefl r'⟩

/-- While the table grows the entity stays a version of its row, if every version of the
row ages to it. -/
theorem Holds.grows (hid : ∀ a b, ages a b → id a = id b) {mem : R}
    (hlast : ∀ a b, ages a b → ages a mem → ages b mem) (h : Holds id ages mem s n)
    (hst : Grows id ages s n t m) : Holds id ages mem t m where
  drawn := h.drawn.trans_le hst.drawn
  version r hr hr' := by
    rcases hst.origin r hr with ⟨r₀, hr₀, hages⟩ | ⟨hle, -⟩
    · exact hlast r₀ r hages (h.version r₀ hr₀ ((hid r₀ r hages).trans hr'))
    · exact absurd h.drawn (by rw [← hr']; exact hle.not_gt)

theorem Grows.saveRow (hrefl : ∀ r, ages r r) {mem : R} (h : Holds id ages mem s n) (hle : n ≤ m) :
    Grows id ages s n (saveRow id mem s) m where
  later := by
    refine ⟨Qoms.saveRow id mem s, [], by simp, ?_⟩
    rw [Qoms.saveRow, List.forall₂_map_right_iff, List.forall₂_same]
    intro r hr
    split_ifs with hid
    · exact h.version r hr hid
    · exact hrefl r
  origin r hr := Or.inl (h.of_mem_saveRow hrefl hr)
  drawn := hle

theorem Keyed.saveRow (h : Keyed id s n) {mem : R} (hdrawn : id mem < n) (hle : n ≤ m) :
    Keyed id (saveRow id mem s) m where
  nodup := by
    rw [map_id_saveRow]
    exact h.nodup
  fresh r hr := by
    rcases mem_saveRow hr with ⟨rfl, -⟩ | hr
    · exact hdrawn.trans_le hle
    · exact (h.fresh r hr).trans_le hle

/-! ## Counting the live rows -/

section

variable {live : R → Bool}

/-- The live rows of `t` that were inserted after `seen` was read. -/
def arrived (live : R → Bool) (seen t : List R) : ℕ :=
  (t.drop seen.length).countP live

/-- The live rows of `seen` that are live no more in `t`. -/
def departed (live : R → Bool) (seen t : List R) : ℕ :=
  (seen.zip t).countP fun p => live p.1 && !live p.2

theorem countP_add_departed_of_forall₂ (hlive : ∀ a b, ages a b → live b = true → live a = true)
    {old : List R} (h : List.Forall₂ ages s old) (new : List R) :
    old.countP live + (s.zip (old ++ new)).countP (fun p => live p.1 && !live p.2) =
      s.countP live := by
  induction h with
  | nil => simp
  | @cons a b s old hab _ ih =>
    simp only [List.cons_append, List.zip_cons_cons, List.countP_cons]
    cases hb : live b with
    | true =>
      simp only [hlive a b hab hb, Bool.not_true, Bool.and_false, if_true, Bool.false_eq_true,
        if_false]
      omega
    | false =>
      cases ha : live a with
      | true =>
        simp only [Bool.not_false, Bool.and_self, if_true, Bool.false_eq_true, if_false]
        omega
      | false =>
        simp only [Bool.false_and, Bool.false_eq_true, if_false]
        omega

/-- The live rows now, and what became of the rows the check saw. -/
theorem Later.countP_add_departed (hlive : ∀ a b, ages a b → live b = true → live a = true)
    (h : Later ages s t) :
    t.countP live + departed live s t = s.countP live + arrived live s t := by
  obtain ⟨old, new, rfl, hold⟩ := h
  have hold' := countP_add_departed_of_forall₂ hlive hold new
  have hdrop : (old ++ new).drop s.length = new := by simp [hold.length_eq]
  rw [departed, arrived, hdrop, List.countP_append]
  omega

/-- There is room for one more row exactly when the arrivals since the check are fewer
than the places it saw free and the departures. -/
theorem Later.count_lt_iff (hlive : ∀ a b, ages a b → live b = true → live a = true)
    (h : Later ages s t) (m : ℕ) :
    t.countP live < m ↔ s.countP live + arrived live s t < m + departed live s t := by
  have := h.countP_add_departed hlive
  omega

/-- If the check saw no live row, there is none now exactly when every row inserted
since is dead. -/
theorem Later.countP_eq_zero_iff (hlive : ∀ a b, ages a b → live b = true → live a = true)
    (h : Later ages s t) (hs : s.countP live = 0) :
    t.countP live = 0 ↔ ∀ r ∈ t.drop s.length, live r = false := by
  have hcount := h.countP_add_departed hlive
  have hdep : departed live s t = 0 := by
    rw [departed, List.countP_eq_zero]
    intro p hp
    have := List.countP_eq_zero.mp hs p.1 (List.of_mem_zip hp).1
    simp [this]
  rw [hdep, hs] at hcount
  rw [show t.countP live = arrived live s t by omega, arrived, List.countP_eq_zero]
  simp

/-- Saving a dead entity takes its row from the live ones. -/
theorem countP_saveRow_add {mem : R} (hdead : live mem = false) (s : List R) :
    (saveRow id mem s).countP live + s.countP (fun r => id r == id mem && live r) =
      s.countP live := by
  induction s with
  | nil => rfl
  | cons r s ih =>
    rw [saveRow] at ih
    simp only [saveRow, List.map_cons, List.countP_cons]
    by_cases hid : id r = id mem
    · rw [if_pos hid, hid, hdead]
      simp only [beq_self_eq_true, Bool.true_and, Bool.false_eq_true, if_false]
      omega
    · have hne : (id r == id mem) = false := by simpa using hid
      rw [if_neg hid, hne]
      simp only [Bool.false_and, Bool.false_eq_true, if_false]
      omega

/-- Saving an entity leaves no more live rows. -/
theorem countP_saveRow_le (hlive : ∀ a b, ages a b → live b = true → live a = true) {mem : R}
    (h : Holds id ages mem s n) : (saveRow id mem s).countP live ≤ s.countP live := by
  rw [Qoms.saveRow, List.countP_map]
  refine List.countP_mono_left fun r hr hr' => ?_
  rw [Function.comp_apply] at hr'
  split_ifs at hr' with hid
  · exact hlive r mem (h.version r hr hid) hr'
  · exact hr'

end

end Qoms
