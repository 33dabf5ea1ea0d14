import Qoms.Table
import Mathlib.Data.List.Induction
import Mathlib.Logic.Function.Basic

/-!
# Tables and the log of their changes

A service that writes an event in the transaction of the change itself keeps, next to a
table, a log : the ids of the rows that were created, and the ids of those that ended. If
every insert logs its row and every save of a dead entity logs its end, the log replays
to the table (`Replays`) : its rows are the created ones, and a row is live unless it
ended. Neither a request that holds an outdated entity nor one that ends a row a second
time can break that.

A log whose records carry a new value of a row is replayed by letting the later values
overwrite the earlier ones (`replay`); what a key has then is the value of its last record
(`replay_eq_last`).
-/

set_option autoImplicit false

namespace Qoms

variable {R : Type*} {id : R → ℕ} {live : R → Bool} {ages : R → R → Prop} {rows rows' : List R}
  {n m : ℕ} {created ended : List ℕ}

/-- The rows are the created ones in their order, and a row is live unless it ended. -/
structure Replays (id : R → ℕ) (live : R → Bool) (rows : List R) (created ended : List ℕ) :
    Prop where
  rows_eq : rows.map id = created
  ended_subset : ∀ i ∈ ended, i ∈ created
  live_iff : ∀ r ∈ rows, live r = true ↔ id r ∉ ended

theorem Replays.nil : Replays id live [] [] [] where
  rows_eq := rfl
  ended_subset := by simp
  live_iff := by simp

/-! ## One change of the table -/

/-- A live row is inserted under a newly drawn id, and logged. -/
theorem Replays.insert (h : Replays id live rows created ended) (hkeyed : Keyed id rows n) {r : R}
    (hle : n ≤ id r) (hlive : live r = true) :
    Replays id live (rows ++ [r]) (created ++ [id r]) ended where
  rows_eq := by rw [List.map_append, List.map_singleton, h.rows_eq]
  ended_subset i hi := List.mem_append_left _ (h.ended_subset i hi)
  live_iff x hx := by
    rcases List.mem_append.mp hx with hx | hx
    · exact h.live_iff x hx
    · rw [List.mem_singleton.mp hx]
      refine iff_of_true hlive fun hr => ?_
      -- an ended row was created, so its id was drawn before
      have hr' := h.ended_subset _ hr
      rw [← h.rows_eq] at hr'
      obtain ⟨x', hx', hid⟩ := List.mem_map.mp hr'
      exact absurd (hkeyed.fresh x' hx') (by rw [hid]; exact hle.not_gt)

/-- A dead entity of the table is saved, and its end is logged. -/
theorem Replays.save (h : Replays id live rows created ended) {mem : R}
    (hmem : id mem ∈ rows.map id)
    (hdead : live mem = false) :
    Replays id live (saveRow id mem rows) created (ended ++ [id mem]) where
  rows_eq := by rw [map_id_saveRow, h.rows_eq]
  ended_subset i hi := by
    rcases List.mem_append.mp hi with hi | hi
    · exact h.ended_subset i hi
    · rw [List.mem_singleton.mp hi, ← h.rows_eq]
      exact hmem
  live_iff r hr := by
    obtain ⟨r', hr', rfl⟩ := List.mem_map.mp hr
    split_ifs with hid
    · simp [hdead]
    · rw [h.live_iff r' hr']
      simp [hid]

/-! ## What the log says of the table -/

/-- A row is live exactly when it was created and has not ended. -/
theorem Replays.live_iff_replayed (h : Replays id live rows created ended) {r : R}
    (hr : r ∈ rows) : live r = true ↔ id r ∈ created ∧ id r ∉ ended := by
  have hcreated : id r ∈ created := h.rows_eq ▸ List.mem_map_of_mem hr
  rw [h.live_iff r hr]
  exact ⟨fun hnot => ⟨hcreated, hnot⟩, fun hboth => hboth.2⟩

/-- The live rows, replayed from the log. -/
theorem Replays.map_id_live (h : Replays id live rows created ended) :
    (rows.filter live).map id = created.filter (· ∉ ended) := by
  rw [← h.rows_eq, List.filter_map]
  congr 1
  refine List.filter_congr fun r hr => ?_
  rw [Bool.eq_iff_iff, h.live_iff r hr]
  simp

/-- The ids of a table stay while it grows. -/
theorem Grows.mem_map_id (hid : ∀ a b, ages a b → id a = id b) (h : Grows id ages rows n rows' m)
    {i : ℕ} (hi : i ∈ rows.map id) : i ∈ rows'.map id := by
  obtain ⟨old, new, rfl, hold⟩ := h.later
  have hsame : rows.map id = old.map id := by
    have hmap : List.Forall₂ (fun a b => id a = id b) rows old := hold.imp hid
    rwa [← List.forall₂_eq_eq_eq, List.forall₂_map_left_iff, List.forall₂_map_right_iff]
  rw [hsame] at hi
  rw [List.map_append]
  exact List.mem_append_left _ hi

/-! ## The last value of a key -/

section

variable {E K V : Type*} [DecidableEq K] (carries : E → Option (K × V)) {record : E}

/-- The values that the records of a log carry, the later ones over the earlier. -/
def replay (log : List E) : K → Option V :=
  log.foldl (fun values record =>
    match carries record with
    | some (k, v) => Function.update values k (some v)
    | none => values) fun _ => none

theorem replay_concat_of_none (h : carries record = none) (log : List E) :
    replay carries (log ++ [record]) = replay carries log := by
  simp [replay, List.foldl_append, h]

theorem replay_concat_of_some {k : K} {v : V} (h : carries record = some (k, v)) (log : List E) :
    replay carries (log ++ [record]) = Function.update (replay carries log) k (some v) := by
  simp [replay, List.foldl_append, h]

/-- A key has the value of its last record. -/
theorem replay_eq_last (log : List E) (k : K) :
    replay carries log k =
      (log.filter fun record => (carries record).any (·.1 == k)).getLast?.bind
        fun record => (carries record).map (·.2) := by
  induction log using List.reverseRecOn with
  | nil => rfl
  | append_singleton log record ih =>
    rw [List.filter_append]
    cases h : carries record with
    | none =>
      rw [replay_concat_of_none carries h, ih]
      simp [h]
    | some kv =>
      obtain ⟨k', v⟩ := kv
      rw [replay_concat_of_some carries h]
      rcases eq_or_ne k k' with rfl | hne
      · simp [h]
      · rw [Function.update_of_ne hne, ih]
        simp [h, hne.symm]

end

end Qoms
