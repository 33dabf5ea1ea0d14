import Mathlib.Data.Nat.Notation
import Mathlib.Logic.Function.Basic

/-!
# A cache beside a store

A service reads a value through a cache : an entry that is there is the answer, otherwise
the value is computed from the store and put into the cache (`fetch`). Its writers change
the store and delete keys, and an entry may go at any moment.

`Coherent Now cache` says that every entry is one that the store would give now. Filling
with a value of now and dropping entries keep it, and a write keeps it if every key that it
does not delete has the values it had (`Coherent.del`). Then a read returns a value of now, from the
cache or not (`fetch_fst`, `Coherent.fetch_eq`).

The values a key can have are a predicate, so that a query that leaves something open, such
as the order of equal rows, may be answered in any of its ways.
-/

set_option autoImplicit false

namespace Qoms

/-- The entries of a cache, each key with its own type of values. -/
abbrev Cache (K : Type) (V : K → Type) := (k : K) → Option (V k)

namespace Cache

variable {K : Type} {V : K → Type}

def empty : Cache K V :=
  fun _ => none

section

variable [DecidableEq K]

/-- Put an entry into the cache. -/
def set (cache : Cache K V) (k : K) (v : V k) : Cache K V :=
  Function.update cache k (some v)

/-- Drop the entries of some keys. -/
def del (cache : Cache K V) (keys : List K) : Cache K V :=
  fun k => if k ∈ keys then none else cache k

@[simp] theorem set_self (cache : Cache K V) (k : K) (v : V k) : cache.set k v k = some v := by
  simp [set]

theorem set_of_ne (cache : Cache K V) {k k' : K} (v : V k) (h : k' ≠ k) :
    cache.set k v k' = cache k' := by
  simp [set, h]

theorem del_of_mem (cache : Cache K V) {keys : List K} {k : K} (h : k ∈ keys) :
    cache.del keys k = none := by
  simp [del, h]

theorem del_of_not_mem (cache : Cache K V) {keys : List K} {k : K} (h : k ∉ keys) :
    cache.del keys k = cache k := by
  simp [del, h]

/-- Read a key through the cache : the answer, and the cache afterwards. -/
def fetch {ε : Type} (cache : Cache K V) (k : K) (compute : Except ε (V k)) :
    Except ε (V k) × Cache K V :=
  match cache k with
  | some v => (.ok v, cache)
  | none =>
    match compute with
    | .ok v => (.ok v, cache.set k v)
    | .error e => (.error e, cache)

end

/-- Every entry is a value of now. -/
def Coherent (Now : (k : K) → V k → Prop) (cache : Cache K V) : Prop :=
  ∀ k v, cache k = some v → Now k v

theorem Coherent.empty (Now : (k : K) → V k → Prop) : Coherent Now empty := by
  intro k v h
  simp [Cache.empty] at h

section

variable [DecidableEq K] {Now Now' : (k : K) → V k → Prop} {cache : Cache K V} {k : K}

theorem Coherent.set (h : Coherent Now cache) {v : V k} (hv : Now k v) :
    Coherent Now (cache.set k v) := by
  intro k' v' hget
  rcases eq_or_ne k' k with rfl | hne
  · rw [set_self] at hget
    obtain rfl := Option.some.inj hget
    exact hv
  · rw [set_of_ne cache v hne] at hget
    exact h k' v' hget

/-- A write may change what the keys it deletes stand for. -/
theorem Coherent.del (h : Coherent Now cache) {keys : List K}
    (hkeep : ∀ k, k ∉ keys → ∀ v, Now k v → Now' k v) : Coherent Now' (cache.del keys) := by
  intro k v hget
  by_cases hk : k ∈ keys
  · rw [del_of_mem cache hk] at hget
    exact absurd hget (Option.some_ne_none v).symm
  · rw [del_of_not_mem cache hk] at hget
    exact hkeep k hk v (h k v hget)

variable {ε : Type} {compute : Except ε (V k)}

theorem fetch_hit {v : V k} (h : cache k = some v) (compute : Except ε (V k)) :
    (cache.fetch k compute).1 = .ok v := by
  unfold fetch
  rw [h]

theorem fetch_miss (h : cache k = none) (compute : Except ε (V k)) :
    (cache.fetch k compute).1 = compute := by
  unfold fetch
  rw [h]
  cases compute with
  | ok v => rfl
  | error e => rfl

/-- A read is answered from the cache or computed. -/
theorem fetch_fst (cache : Cache K V) (k : K) (compute : Except ε (V k)) :
    (∃ v, cache k = some v ∧ (cache.fetch k compute).1 = .ok v) ∨
      (cache.fetch k compute).1 = compute := by
  cases hget : cache k with
  | some v => exact Or.inl ⟨v, rfl, fetch_hit hget compute⟩
  | none => exact Or.inr (fetch_miss hget compute)

/-- Where a key has the one value that is computed, reading through a coherent cache is
computing it. -/
theorem Coherent.fetch_eq (h : Coherent Now cache) (hnow : ∀ v, Now k v ↔ compute = .ok v) :
    (cache.fetch k compute).1 = compute := by
  rcases fetch_fst cache k compute with ⟨v, hget, heq⟩ | heq
  · rw [heq]
    exact ((hnow v).mp (h k v hget)).symm
  · exact heq

/-- A read leaves the cache as it is, or puts what it computed into it. -/
theorem fetch_snd (cache : Cache K V) (k : K) (compute : Except ε (V k)) :
    (cache.fetch k compute).2 = cache ∨
      ∃ v, cache k = none ∧ compute = .ok v ∧ (cache.fetch k compute).2 = cache.set k v := by
  unfold fetch
  cases hget : cache k with
  | some v => exact Or.inl rfl
  | none =>
    cases compute with
    | ok v => exact Or.inr ⟨v, rfl, rfl, rfl⟩
    | error e => exact Or.inl rfl

theorem Coherent.fetch_snd (h : Coherent Now cache) (hnow : ∀ v, compute = .ok v → Now k v) :
    Coherent Now (cache.fetch k compute).2 := by
  rcases Cache.fetch_snd cache k compute with heq | ⟨v, -, hv, heq⟩
  · rwa [heq]
  · rw [heq]
    exact h.set (hnow v hv)

end

end Cache

end Qoms
