import Qoms.Domain
import Mathlib.Data.List.Sort
import Mathlib.Tactic.Ring

/-!
# The database

What the services rely on of PostgreSQL and TypeORM. `findOne` without an order returns
any one matching row, so the row that comes back is up to a `hint`. `find` ordered by a
time returns rows of the same time in any order, the order of a `rank`. A `uuid` column is
compared with the value of a text (`uuidIn`, PostgreSQL's own reading), and a text that
is not a UUID is an error; an `INTEGER` column takes 32-bit values only (`int4`).
-/

set_option autoImplicit false

namespace Qoms

/-- A failed database statement : a text that is not a UUID, a value that its column does
not take, a missing one, or a second row with a unique value. -/
inductive DbError
  | invalidUuid
  | outOfRange
  | notNullViolation
  | uniqueViolation
  deriving DecidableEq, Repr

/-! ## One matching row -/

/-- `repository.findOne({ where })` : a row that matches, the one `hint` prefers if
several do. -/
def findOne {R : Type} (cond : R → Bool) (hint : R → Bool) (rows : List R) : Option R :=
  (rows.find? fun r => cond r && hint r).or (rows.find? cond)

section

variable {R : Type} {cond hint : R → Bool} {rows : List R}

theorem findOne_eq_none : findOne cond hint rows = none ↔ ∀ r ∈ rows, cond r = false := by
  simp only [findOne, Option.or_eq_none_iff, List.find?_eq_none]
  constructor
  · rintro ⟨-, h⟩ r hr
    simpa using h r hr
  · intro h
    exact ⟨fun r hr => by simp [h r hr], fun r hr => by simp [h r hr]⟩

theorem findOne_eq_some {r : R} (h : findOne cond hint rows = some r) :
    r ∈ rows ∧ cond r = true := by
  rcases Option.or_eq_some_iff.mp h with h | ⟨-, h⟩
  · have hr := List.find?_some h
    simp only [Bool.and_eq_true] at hr
    exact ⟨List.mem_of_find?_eq_some h, hr.1⟩
  · exact ⟨List.mem_of_find?_eq_some h, List.find?_some h⟩

end

/-! ## The oldest matching rows -/

/-- The order of `createdAt: "ASC"`. -/
def CreatedBefore {R : Type} (createdAt : R → ℤ) (rank : R → ℕ) (a b : R) : Prop :=
  createdAt a < createdAt b ∨ (createdAt a = createdAt b ∧ rank a ≤ rank b)

instance {R : Type} (createdAt : R → ℤ) (rank : R → ℕ) :
    DecidableRel (CreatedBefore createdAt rank) := fun a b =>
  inferInstanceAs (Decidable
    (createdAt a < createdAt b ∨ (createdAt a = createdAt b ∧ rank a ≤ rank b)))

/-- `repository.find({ where, order: { createdAt: "ASC" }, take })`. -/
def findOldest {R : Type} (cond : R → Bool) (createdAt : R → ℤ) (rank : R → ℕ) (limit : ℕ)
    (rows : List R) : List R :=
  ((rows.filter cond).insertionSort (CreatedBefore createdAt rank)).take limit

section

variable {R : Type} {cond : R → Bool} {createdAt : R → ℤ} {rank : R → ℕ} {limit : ℕ}
  {rows : List R} {a b : R}

theorem CreatedBefore.le (h : CreatedBefore createdAt rank a b) : createdAt a ≤ createdAt b := by
  rcases h with h | ⟨h, -⟩ <;> omega

instance : Std.Total (CreatedBefore createdAt rank) where
  total a b := by
    unfold CreatedBefore
    omega

instance : IsTrans R (CreatedBefore createdAt rank) where
  trans a b c hab hbc := by
    unfold CreatedBefore at *
    omega

theorem mem_sorted_iff : a ∈ (rows.filter cond).insertionSort (CreatedBefore createdAt rank) ↔
    a ∈ rows ∧ cond a = true := by
  rw [List.mem_insertionSort, List.mem_filter]

theorem pairwise_sorted : ((rows.filter cond).insertionSort
    (CreatedBefore createdAt rank)).Pairwise (CreatedBefore createdAt rank) :=
  List.pairwise_insertionSort _ _

theorem mem_of_mem_findOldest (h : a ∈ findOldest cond createdAt rank limit rows) :
    a ∈ rows ∧ cond a = true :=
  mem_sorted_iff.mp (List.mem_of_mem_take h)

theorem pairwise_findOldest : (findOldest cond createdAt rank limit rows).Pairwise
    (CreatedBefore createdAt rank) :=
  pairwise_sorted.sublist (List.take_sublist _ _)

theorem nodup_map_findOldest {id : R → ℕ} (h : (rows.map id).Nodup) :
    ((findOldest cond createdAt rank limit rows).map id).Nodup := by
  refine List.Nodup.sublist ((List.take_sublist _ _).map id) ?_
  rw [((List.perm_insertionSort (CreatedBefore createdAt rank) _).map id).nodup_iff]
  exact h.sublist (List.filter_sublist.map id)

theorem length_findOldest : (findOldest cond createdAt rank limit rows).length =
    min limit (rows.countP cond) := by
  rw [findOldest, List.length_take, List.length_insertionSort, List.countP_eq_length_filter]

/-- The rows that are found, and the other matching ones, none of which is older. -/
theorem findOldest_append_perm {id : R → ℕ} (hnodup : (rows.map id).Nodup) :
    (findOldest cond createdAt rank limit rows ++ rows.filter fun r =>
        cond r && id r ∉ (findOldest cond createdAt rank limit rows).map id).Perm
      (rows.filter cond) ∧
      ∀ a ∈ findOldest cond createdAt rank limit rows, ∀ b ∈ rows, cond b = true →
        id b ∉ (findOldest cond createdAt rank limit rows).map id →
          createdAt a ≤ createdAt b := by
  have hperm : ((rows.filter cond).insertionSort (CreatedBefore createdAt rank)).Perm
      (rows.filter cond) := List.perm_insertionSort _ _
  have hpairwise : ((rows.filter cond).insertionSort (CreatedBefore createdAt rank)).Pairwise
      (CreatedBefore createdAt rank) := pairwise_sorted
  unfold findOldest
  generalize (rows.filter cond).insertionSort (CreatedBefore createdAt rank) = sorted
    at hperm hpairwise ⊢
  have hcut := List.take_append_drop limit sorted
  generalize sorted.take limit = found at hcut ⊢
  generalize sorted.drop limit = rest at hcut
  rw [← hcut] at hperm hpairwise
  have hids : ((found ++ rest).map id).Nodup := by
    rw [(hperm.map id).nodup_iff]
    exact hnodup.sublist (List.filter_sublist.map id)
  rw [List.map_append, List.nodup_append] at hids
  -- the rows behind the limit are the matching ones that are not found
  have hrest : (rows.filter fun r => cond r && id r ∉ found.map id).Perm rest := by
    have hsplit : (rows.filter fun r => cond r && id r ∉ found.map id) =
        (rows.filter cond).filter fun r => id r ∉ found.map id := by
      rw [List.filter_filter]
      exact List.filter_congr fun r _ => Bool.and_comm _ _
    have hfound : found.filter (fun r => id r ∉ found.map id) = [] := by
      refine List.filter_eq_nil_iff.mpr fun r hr => ?_
      rw [decide_eq_true_eq, not_not]
      exact List.mem_map_of_mem hr
    have hself : rest.filter (fun r => id r ∉ found.map id) = rest := by
      refine List.filter_eq_self.mpr fun r hr => ?_
      rw [decide_eq_true_eq]
      exact fun hmem => hids.2.2 _ hmem _ (List.mem_map_of_mem hr) rfl
    rw [hsplit]
    refine (hperm.symm.filter _).trans ?_
    rw [List.filter_append, hfound, hself, List.nil_append]
  refine ⟨(hrest.append_left _).trans hperm, fun a ha b hb hcond hid => ?_⟩
  have hb' : b ∈ rest := by
    refine hrest.subset (List.mem_filter.mpr ⟨hb, ?_⟩)
    rw [hcond, Bool.true_and, decide_eq_true_eq]
    exact hid
  exact ((List.pairwise_append.mp hpairwise).2.2 a ha b hb').le

/-- A matching row is found once it is among the first `limit` of them. -/
theorem mem_findOldest (ha : a ∈ rows) (hcond : cond a = true)
    (hcount : (rows.filter cond).countP (CreatedBefore createdAt rank · a) ≤ limit) :
    a ∈ findOldest cond createdAt rank limit rows := by
  have hmem : a ∈ (rows.filter cond).insertionSort (CreatedBefore createdAt rank) :=
    mem_sorted_iff.mpr ⟨ha, hcond⟩
  have hsorted : ((rows.filter cond).insertionSort (CreatedBefore createdAt rank)).Pairwise
      (CreatedBefore createdAt rank) := pairwise_sorted
  rw [← (List.perm_insertionSort (CreatedBefore createdAt rank) _).countP_eq] at hcount
  obtain ⟨pre, post, heq⟩ := List.append_of_mem hmem
  rw [heq] at hsorted hcount
  -- `a` and the rows before it are all created before `a`
  have hbefore : ∀ b ∈ pre ++ [a], CreatedBefore createdAt rank b a := by
    intro b hb
    rcases List.mem_append.mp hb with hb | hb
    · exact (List.pairwise_append.mp hsorted).2.2 b hb a (by simp)
    · rw [List.mem_singleton.mp hb]
      exact Or.inr ⟨rfl, le_rfl⟩
  have hlength : (pre ++ [a]).length ≤ limit := by
    have hall : (pre ++ [a]).countP (CreatedBefore createdAt rank · a) = (pre ++ [a]).length :=
      List.countP_eq_length.mpr fun b hb => by simpa using hbefore b hb
    rw [show pre ++ a :: post = (pre ++ [a]) ++ post by simp, List.countP_append, hall] at hcount
    omega
  have hinitial : pre ++ [a] <+: pre ++ a :: post := ⟨post, by simp⟩
  rw [findOldest, heq]
  exact (List.prefix_take_iff.mpr ⟨hinitial, hlength⟩).subset (by simp)

end

/-! ## Reading a UUID -/

/-- The value of a hexadecimal digit. -/
def hexDigit (c : Char) : Option ℕ :=
  if '0' ≤ c ∧ c ≤ '9' then some (c.toNat - '0'.toNat)
  else if 'a' ≤ c ∧ c ≤ 'f' then some (c.toNat - 'a'.toNat + 10)
  else if 'A' ≤ c ∧ c ≤ 'F' then some (c.toNat - 'A'.toNat + 10)
  else none

/-- A hyphen may follow every second byte but the last. -/
def skipHyphen (left : ℕ) : List Char → List Char
  | '-' :: cs => if left % 2 = 0 ∧ 0 < left then cs else '-' :: cs
  | cs => cs

/-- Read `n` bytes of two hexadecimal digits each. -/
def readBytes : ℕ → ℕ → List Char → Option (ℕ × List Char)
  | 0, acc, cs => some (acc, cs)
  | n + 1, acc, a :: b :: cs => do
    let hi ← hexDigit a
    let lo ← hexDigit b
    readBytes n (acc * 256 + hi * 16 + lo) (skipHyphen n cs)
  | _ + 1, _, _ => none

/-- The UUID a text spells, or `none` where PostgreSQL reports an invalid input : sixteen
bytes, in braces or not. -/
def uuidIn (text : String) : Option Uuid :=
  match text.toList with
  | '{' :: cs =>
    match readBytes 16 0 cs with
    | some (u, ['}']) => some u
    | _ => none
  | cs =>
    match readBytes 16 0 cs with
    | some (u, []) => some u
    | _ => none

/-- The text of the UUID 1. -/
def uuidOne : String :=
  "00000000-0000-0000-0000-000000000001"

example : uuidIn uuidOne = some 1 := by
  decide

/-! ## Writing a UUID -/

/-- `n` bytes of a value, two digits each, the highest first, with a hyphen after the
fourth, sixth, eighth and tenth of sixteen. -/
def writeBytes : ℕ → ℕ → List Char
  | 0, _ => []
  | n + 1, u =>
    Nat.digitChar (u / 256 ^ n % 256 / 16) :: Nat.digitChar (u / 256 ^ n % 16) ::
      (if n = 12 ∨ n = 10 ∨ n = 8 ∨ n = 6 then '-' :: writeBytes n u else writeBytes n u)

/-- The text PostgreSQL and `uuidv4` write for a UUID. -/
def uuidText (u : Uuid) : String :=
  String.ofList (writeBytes 16 u)

theorem hexDigit_digitChar {d : ℕ} (h : d < 16) : hexDigit (Nat.digitChar d) = some d := by
  have hall : ∀ d < 16, hexDigit (Nat.digitChar d) = some d := by decide
  exact hall d h

/-- The bytes written are no hyphen to skip. -/
theorem skipHyphen_writeBytes (n u : ℕ) : skipHyphen n (writeBytes n u) = writeBytes n u := by
  cases n with
  | zero => rfl
  | succ n =>
    have hdigit : ∀ d < 16, Nat.digitChar d ≠ '-' := by decide
    have hne : Nat.digitChar (u / 256 ^ n % 256 / 16) ≠ '-' := hdigit _ (by omega)
    rw [writeBytes]
    unfold skipHyphen
    split
    · rename_i heq
      exact absurd (List.cons.inj heq).1 hne
    · rfl

/-- The bytes written are read back. -/
theorem readBytes_writeBytes (n u acc : ℕ) :
    readBytes n acc (writeBytes n u) = some (acc * 256 ^ n + u % 256 ^ n, []) := by
  induction n generalizing acc with
  | zero => simp [readBytes, writeBytes, Nat.mod_one]
  | succ n ih =>
    have hi : hexDigit (Nat.digitChar (u / 256 ^ n % 256 / 16)) = some (u / 256 ^ n % 256 / 16) :=
      hexDigit_digitChar (by omega)
    have hlo : hexDigit (Nat.digitChar (u / 256 ^ n % 16)) = some (u / 256 ^ n % 16) :=
      hexDigit_digitChar (by omega)
    have hskip : skipHyphen n (if n = 12 ∨ n = 10 ∨ n = 8 ∨ n = 6 then '-' :: writeBytes n u
        else writeBytes n u) = writeBytes n u := by
      split_ifs with hyphen
      · have heven : n % 2 = 0 ∧ 0 < n := by omega
        rw [skipHyphen, if_pos heven]
      · exact skipHyphen_writeBytes n u
    have hbyte : acc * 256 + u / 256 ^ n % 256 / 16 * 16 + u / 256 ^ n % 16 =
        acc * 256 + u / 256 ^ n % 256 := by
      omega
    rw [writeBytes, readBytes, hi, hlo]
    simp only [Option.bind_eq_bind, Option.bind_some, hskip, hbyte, ih]
    rw [pow_succ, Nat.mod_mul]
    ring_nf

/-- A UUID is read back from its text, up to the 128 bits a UUID has. -/
theorem uuidIn_uuidText (u : Uuid) : uuidIn (uuidText u) = some (u % 256 ^ 16) := by
  have hread : readBytes 16 0 (writeBytes 16 u) = some (u % 256 ^ 16, []) := by
    simpa using readBytes_writeBytes 16 u 0
  have hdigit : ∀ d < 16, Nat.digitChar d ≠ '{' := by decide
  have hne : Nat.digitChar (u / 256 ^ 15 % 256 / 16) ≠ '{' := hdigit _ (by omega)
  rw [uuidIn, uuidText, String.toList_ofList]
  split
  · rename_i heq
    rw [writeBytes] at heq
    exact absurd (List.cons.inj heq).1 hne
  · rw [hread]

theorem writeBytes_mod (n m u : ℕ) (h : n ≤ m) :
    writeBytes n (u % 256 ^ m) = writeBytes n u := by
  induction n with
  | zero => rfl
  | succ n ih =>
    have hdvd : 256 ^ n * 256 ∣ 256 ^ m := by
      rw [← pow_succ]
      exact pow_dvd_pow 256 h
    have hdiv : u % 256 ^ m / 256 ^ n % 256 = u / 256 ^ n % 256 := by
      obtain ⟨k, hk⟩ := hdvd
      rw [hk, mul_assoc, Nat.mod_mul_right_div_self, Nat.mod_mul_right_mod]
    have hlow : u % 256 ^ m / 256 ^ n % 16 = u / 256 ^ n % 16 := by omega
    rw [writeBytes, writeBytes, hdiv, hlow, ih (by omega)]

/-- A text is spelled as the services and the database write it, if it spells a UUID. -/
def Canonical (text : String) : Prop :=
  ∀ u, uuidIn text = some u → text = uuidText u

theorem canonical_uuidText (u : Uuid) : Canonical (uuidText u) := by
  intro v hv
  obtain rfl : u % 256 ^ 16 = v := Option.some.inj ((uuidIn_uuidText u).symm.trans hv)
  rw [uuidText, uuidText, writeBytes_mod 16 16 u le_rfl]

/-- Canonical texts of one UUID are the same. -/
theorem Canonical.eq {a b : String} {u : Uuid} (ha : Canonical a) (hb : Canonical b)
    (hau : uuidIn a = some u) (hbu : uuidIn b = some u) : a = b :=
  (ha u hau).trans (hb u hbu).symm

example : uuidText 1 = uuidOne := by
  decide

/-! ## Columns -/

/-- An `INTEGER` column takes `n`. -/
def int4 (n : ℤ) : Bool :=
  -2147483648 ≤ n && n ≤ 2147483647

theorem int4_iff {n : ℤ} : int4 n = true ↔ -2147483648 ≤ n ∧ n ≤ 2147483647 := by
  simp [int4]

/-- A `VARCHAR(255)` column takes `text`. -/
def varchar255 (text : String) : Bool :=
  text.length ≤ 255

end Qoms
