import Mathlib.Algebra.Order.Field.Rat
import Mathlib.Data.List.Forall2
import Mathlib.Data.List.Sort
import Qoms.Url

/-!
# JSON texts

`JSON.stringify` writes no blanks and escapes what it has to (`write`); `JSON.parse` reads the
whole grammar (`read`). A value that is written is read back (`read_write`). A text column of the
type `jsonb` keeps of an object's equal keys the last, and sorts them (`jsonb`); what a key is
found to have stays the same (`get?_jsonb`).

The numbers that are written are whole, without an exponent; those that are read are exact. A text
is a list of characters, so an escape of half a surrogate pair has no value here.
-/

set_option autoImplicit false

namespace Qoms

/-- A JSON value, with numbers in `N`. -/
inductive Json (N : Type)
  | null
  | bool (b : Bool)
  | number (n : N)
  | string (text : String)
  | array (items : List (Json N))
  | object (members : List (String × Json N))

namespace Json

variable {M N α β : Type}

/-! ## Recursion -/

/-- What a function makes of each kind of value, of an array's and an object's parts made so. -/
structure Fold (N β : Type) where
  null : β
  bool : Bool → β
  number : N → β
  string : String → β
  array : List β → β
  object : List (String × β) → β

mutual

def fold (f : Fold N β) : Json N → β
  | .null => f.null
  | .bool b => f.bool b
  | .number n => f.number n
  | .string text => f.string text
  | .array items => f.array (foldItems f items)
  | .object members => f.object (foldMembers f members)

def foldItems (f : Fold N β) : List (Json N) → List β
  | [] => []
  | item :: items => item.fold f :: foldItems f items

def foldMembers (f : Fold N β) : List (String × Json N) → List (String × β)
  | [] => []
  | (key, value) :: members => (key, value.fold f) :: foldMembers f members

end

theorem foldItems_eq (f : Fold N β) (items : List (Json N)) :
    foldItems f items = items.map (fold f) := by
  induction items with
  | nil => rfl
  | cons item items ih => rw [foldItems, ih, List.map_cons]

theorem foldMembers_eq (f : Fold N β) (members : List (String × Json N)) :
    foldMembers f members = members.map fun m => (m.1, m.2.fold f) := by
  induction members with
  | nil => rfl
  | cons m members ih => rw [foldMembers, ih, List.map_cons]

/-- Induction over a value, its items and its members' values. -/
@[elab_as_elim]
theorem induction {P : Json N → Prop} (null : P .null) (bool : ∀ b, P (.bool b))
    (number : ∀ n, P (.number n)) (string : ∀ text, P (.string text))
    (array : ∀ items, (∀ v ∈ items, P v) → P (.array items))
    (object : ∀ members, (∀ m ∈ members, P m.2) → P (.object members)) (v : Json N) : P v := by
  refine Json.rec (motive_1 := P) (motive_2 := fun items => ∀ v ∈ items, P v)
    (motive_3 := fun members => ∀ m ∈ members, P m.2) (motive_4 := fun m => P m.2)
    null bool number string array object ?_ ?_ ?_ ?_ ?_ v
  · simp
  · exact fun item items hitem hitems => List.forall_mem_cons.mpr ⟨hitem, hitems⟩
  · simp
  · exact fun m members hm hmembers => List.forall_mem_cons.mpr ⟨hm, hmembers⟩
  · exact fun key value hvalue => hvalue

/-- The value with its numbers replaced. -/
def map (f : M → N) : Json M → Json N :=
  fold ⟨.null, .bool, fun n => .number (f n), .string, .array, .object⟩

/-! ## Writing -/

/-- The letters of the short escapes, each with its character. -/
def shortEscapes : List (Char × Char) :=
  [('"', '"'), ('\\', '\\'), ('b', '\x08'), ('f', '\x0c'), ('n', '\n'), ('r', '\r'), ('t', '\t')]

/-- A character of a text as it is written. -/
def writeChar (c : Char) : List Char :=
  match shortEscapes.find? (·.2 == c) with
  | some (letter, _) => ['\\', letter]
  | none =>
    if c.toNat < 32 then
      ['\\', 'u', '0', '0', Nat.digitChar (c.toNat / 16), Nat.digitChar (c.toNat % 16)]
    else [c]

/-- A text in quotes. -/
def writeText (text : String) : List Char :=
  '"' :: (text.toList.flatMap writeChar ++ ['"'])

/-- A whole number. -/
def writeWhole (n : ℤ) : List Char :=
  if n < 0 then '-' :: Nat.toDigits 10 n.natAbs else Nat.toDigits 10 n.natAbs

/-- Parts between brackets, with commas. -/
def bracket (opening closing : Char) (parts : List (List Char)) : List Char :=
  opening :: ([','].intercalate parts ++ [closing])

/-- `JSON.stringify`. -/
def write : Json ℤ → List Char :=
  fold {
    null := "null".toList
    bool := fun b => (if b then "true" else "false").toList
    number := writeWhole
    string := writeText
    array := bracket '[' ']'
    object := fun members =>
      bracket '\x7b' '\x7d' (members.map fun m => writeText m.1 ++ ':' :: m.2) }

example : write (.object [("a\n", .array [.number (-10), .null]), ("b", .object [])]) =
    "\x7b\"a\\n\":[-10,null],\"b\":\x7b\x7d\x7d".toList := by
  decide

/-! ## Reading -/

/-- White space between tokens. -/
def blank (c : Char) : Bool :=
  c == ' ' || c == '\t' || c == '\n' || c == '\r'

def skip (s : List Char) : List Char :=
  s.dropWhile blank

/-- The code unit of four hexadecimal digits. -/
def codeUnit (digits : List Char) : Option ℕ :=
  (digits.mapM Url.hexValue).map fun values => values.foldl (fun u v => 16 * u + v) 0

/-- The rest of a text up to its closing quote, as code units; a character is one unit. -/
def units : List Char → Option (List ℕ × List Char)
  | [] => none
  | '"' :: s => some ([], s)
  | '\\' :: 'u' :: a :: b :: c :: d :: s => do
    let u ← codeUnit [a, b, c, d]
    let (us, s) ← units s
    return (u :: us, s)
  | '\\' :: letter :: s => do
    let (_, c) ← (('/', '/') :: shortEscapes).find? (·.1 == letter)
    let (us, s) ← units s
    return (c.toNat :: us, s)
  | c :: s => do
    guard (32 ≤ c.toNat)
    let (us, s) ← units s
    return (c.toNat :: us, s)

/-- The characters of code units : two surrogates make one. -/
def characters : List ℕ → Option (List Char)
  | [] => some []
  | u :: us =>
    if 0xD800 ≤ u ∧ u < 0xDC00 then
      match us with
      | [] => none
      | v :: us => do
        guard (0xDC00 ≤ v ∧ v < 0xE000)
        let cs ← characters us
        return Char.ofNat (0x10000 + (u - 0xD800) * 0x400 + (v - 0xDC00)) :: cs
    else if 0xDC00 ≤ u ∧ u < 0xE000 then none
    else do
      let cs ← characters us
      return Char.ofNat u :: cs

/-- The rest of a text, with what comes after it. -/
def readText (s : List Char) : Option (String × List Char) := do
  let (us, s) ← units s
  let cs ← characters us
  return (String.ofList cs, s)

/-- A run of digits, of one at least. -/
def digits (s : List Char) : Option (List Char × List Char) :=
  let ds := s.takeWhile Char.isDigit
  if ds = [] then none else some (ds, s.dropWhile Char.isDigit)

/-- The digits after a point, if there is one. -/
def readFraction : List Char → Option (List Char × List Char)
  | '.' :: s => digits s
  | s => some ([], s)

/-- The sign of an exponent. -/
def readSign : List Char → ℤ × List Char
  | '-' :: s => (-1, s)
  | '+' :: s => (1, s)
  | s => (1, s)

/-- The exponent, if there is one. -/
def readExponent : List Char → Option (ℤ × List Char)
  | 'e' :: s | 'E' :: s =>
    let (sign, s) := readSign s
    (digits s).map fun (ds, s) => (sign * Nat.ofDigitChars 10 ds 0, s)
  | s => some (0, s)

/-- A number without a sign. -/
def readUnsigned (s : List Char) : Option (ℚ × List Char) := do
  let (whole, s) ← digits s
  guard (whole.head? = some '0' → whole.length = 1)
  let (fraction, s) ← readFraction s
  let (exponent, s) ← readExponent s
  return (Nat.ofDigitChars 10 (whole ++ fraction) 0 * 10 ^ (exponent - fraction.length), s)

def readNumber : List Char → Option (ℚ × List Char)
  | '-' :: s => (readUnsigned s).map fun (q, s) => (-q, s)
  | s => readUnsigned s

/-- What `read` makes of the parts up to a closing bracket, each after a comma. -/
def readParts (read : List Char → Option (α × List Char)) (closing : Char) :
    ℕ → List Char → Option (List α × List Char)
  | 0, _ => none
  | fuel + 1, s =>
    match skip s with
    | [] => none
    | c :: s =>
      if c = closing then some ([], s)
      else if c = ',' then do
        let (a, s) ← read s
        let (parts, s) ← readParts read closing fuel s
        return (a :: parts, s)
      else none

/-- The parts after an opening bracket. -/
def readBracket (read : List Char → Option (α × List Char)) (closing : Char) (s : List Char) :
    Option (List α × List Char) :=
  if (skip s).head? = some closing then some ([], (skip s).tail)
  else readParts read closing (s.length + 1) (',' :: s)

/-- A member of an object. -/
def readMember (read : List Char → Option (α × List Char)) (s : List Char) :
    Option ((String × α) × List Char) := do
  let '"' :: s := skip s | none
  let (key, s) ← readText s
  let ':' :: s := skip s | none
  let (value, s) ← read s
  return ((key, value), s)

/-- The value at the head of a text, with what comes after it; `fuel` bounds the nesting. -/
def readValue : ℕ → List Char → Option (Json ℚ × List Char)
  | 0, _ => none
  | fuel + 1, s =>
    match skip s with
    | [] => none
    | '"' :: s => (readText s).map fun (text, s) => (.string text, s)
    | '[' :: s => (readBracket (readValue fuel) ']' s).map fun (items, s) => (.array items, s)
    | '\x7b' :: s =>
      (readBracket (readMember (readValue fuel)) '\x7d' s).map fun (members, s) =>
        (.object members, s)
    | 'n' :: 'u' :: 'l' :: 'l' :: s => some (.null, s)
    | 't' :: 'r' :: 'u' :: 'e' :: s => some (.bool true, s)
    | 'f' :: 'a' :: 'l' :: 's' :: 'e' :: s => some (.bool false, s)
    | s => (readNumber s).map fun (q, s) => (.number q, s)

/-- `JSON.parse`. -/
def read (s : List Char) : Option (Json ℚ) := do
  let (v, s) ← readValue s.length s
  guard (skip s = [])
  return v

/-! ## What is written is read back -/

/-- The text is read as the value, whatever comes after it that does not go on with a number. -/
def Ends (s : List Char) : Prop :=
  ∀ c ∈ s.head?, c.isDigit = false ∧ c ∉ ['.', 'e', 'E']

def Reads (read : List Char → Option (α × List Char)) (text : List Char) (a : α) : Prop :=
  ∀ s, Ends s → read (text ++ s) = some (a, s)

theorem ends_nil : Ends [] := by
  simp [Ends]

theorem skip_cons {c : Char} (h : blank c = false) (s : List Char) : skip (c :: s) = c :: s := by
  rw [skip, List.dropWhile_cons_of_neg (by simp [h])]

section Texts

/-- The code unit of an escaped control character. -/
theorem codeUnit_control : ∀ n < 32,
    codeUnit ['0', '0', Nat.digitChar (n / 16), Nat.digitChar (n % 16)] = some n := by
  decide

theorem units_cons {c : Char} (hquote : c ≠ '"') (hescape : c ≠ '\\') (hcontrol : 32 ≤ c.toNat)
    (s : List Char) : units (c :: s) = (units s).map fun p => (c.toNat :: p.1, p.2) := by
  rw [units.eq_5 c s (by simpa using hquote) (by simp [hescape]) (by simp [hescape])]
  simp only [hcontrol]
  cases units s <;> rfl

/-- The letters of the short escapes are distinct. -/
theorem find?_shortEscapes : ∀ entry ∈ shortEscapes, entry.1 ≠ 'u' ∧
    (('/', '/') :: shortEscapes).find? (·.1 == entry.1) = some entry := by
  decide

theorem units_writeChar (c : Char) (s : List Char) :
    units (writeChar c ++ s) = (units s).map fun p => (c.toNat :: p.1, p.2) := by
  unfold writeChar
  cases hshort : shortEscapes.find? (·.2 == c) with
  | some entry =>
    obtain ⟨letter, c'⟩ := entry
    obtain rfl : c' = c := by simpa using List.find?_some hshort
    obtain ⟨hletter, hfind⟩ := find?_shortEscapes _ (List.mem_of_find?_eq_some hshort)
    simp only [List.cons_append, List.nil_append]
    rw [units.eq_4 letter s fun _ _ _ _ _ hu _ => hletter hu, hfind]
    cases units s <;> rfl
  | none =>
    by_cases hcontrol : c.toNat < 32
    · simp only [hcontrol, if_true, List.cons_append, List.nil_append, units,
        codeUnit_control _ hcontrol]
      cases units s <;> rfl
    · have hnone : ∀ entry ∈ shortEscapes, entry.2 ≠ c := by
        simpa using List.find?_eq_none.mp hshort
      simp only [hcontrol, if_false, List.cons_append, List.nil_append]
      exact units_cons (hnone ('"', '"') (by decide)).symm (hnone ('\\', '\\') (by decide)).symm
        (by omega) s

theorem units_flatMap_writeChar (cs s : List Char) :
    units (cs.flatMap writeChar ++ '"' :: s) = some (cs.map Char.toNat, s) := by
  induction cs with
  | nil => rw [List.flatMap_nil, List.nil_append, units, List.map_nil]
  | cons c cs ih =>
    rw [List.flatMap_cons, List.append_assoc, units_writeChar, ih, Option.map_some, List.map_cons]

theorem characters_toNat (cs : List Char) : characters (cs.map Char.toNat) = some cs := by
  induction cs with
  | nil => rfl
  | cons c cs ih =>
    -- no character is a surrogate
    have hvalid : c.toNat < 0xD800 ∨ 0xDFFF < c.toNat ∧ c.toNat < 0x110000 := c.valid
    rw [List.map_cons, characters.eq_def]
    simp only [ih]
    rw [if_neg (by omega), if_neg (by omega), Char.ofNat_toNat]
    rfl

theorem readText_write (text : String) (s : List Char) :
    readText (text.toList.flatMap writeChar ++ '"' :: s) = some (text, s) := by
  simp [readText, units_flatMap_writeChar, characters_toNat]

end Texts

section Numbers

theorem digits_append {ds s : List Char} (hne : ds ≠ []) (hds : ∀ c ∈ ds, c.isDigit = true)
    (hs : Ends s) : digits (ds ++ s) = some (ds, s) := by
  have hstop : s.takeWhile Char.isDigit = [] ∧ s.dropWhile Char.isDigit = s := by
    cases s with
    | nil => exact ⟨rfl, rfl⟩
    | cons c s => 
      have hc := (hs c rfl).1
      simp [hc]
  simp only [digits, List.takeWhile_append_of_pos hds, List.dropWhile_append_of_pos hds, hstop,
    List.append_nil, if_neg hne]

/-- A number that is not zero is written with a first digit that is not. -/
theorem head?_toDigits {n : ℕ} (hpos : 0 < n) : (Nat.toDigits 10 n).head? ≠ some '0' := by
  induction n using Nat.strongRecOn with
  | _ n ih =>
    rcases Nat.lt_or_ge n 10 with hlt | hge
    · have hall : ∀ n < 10, 0 < n → Nat.digitChar n ≠ '0' := by decide
      rw [Nat.toDigits_of_lt_base hlt, List.head?_cons]
      exact fun h => hall n hlt hpos (Option.some_inj.mp h)
    · rw [Nat.toDigits_of_base_le (by decide) hge,
        List.head?_append_of_ne_nil _ Nat.toDigits_ne_nil]
      exact ih (n / 10) (by omega) (by omega)

theorem readUnsigned_toDigits (n : ℕ) {s : List Char} (hs : Ends s) :
    readUnsigned (Nat.toDigits 10 n ++ s) = some ((n : ℚ), s) := by
  have hstop : ∀ c s', s = c :: s' → c ≠ '.' ∧ c ≠ 'e' ∧ c ≠ 'E' := by
    rintro c s' rfl
    simpa using (hs c rfl).2
  have hfraction : readFraction s = some ([], s) :=
    readFraction.eq_2 s fun s' h => (hstop _ s' h).1 rfl
  have hexponent : readExponent s = some (0, s) :=
    readExponent.eq_3 s (fun s' h => (hstop _ s' h).2.1 rfl) fun s' h => (hstop _ s' h).2.2 rfl
  have hdigits := digits_append (Nat.toDigits_ne_nil (n := n) (b := 10))
    (fun c hc => Nat.isDigit_of_mem_toDigits (by decide) le_rfl hc) hs
  have hzero : (Nat.toDigits 10 n).head? = some '0' → (Nat.toDigits 10 n).length = 1 := by
    intro h
    rcases Nat.eq_zero_or_pos n with rfl | hpos
    · rfl
    · exact absurd h (head?_toDigits hpos)
  simp [readUnsigned, hdigits, hfraction, hexponent, if_pos hzero, Nat.ofDigitChars_ten_toDigits,
    guard]

theorem reads_writeWhole (n : ℤ) : Reads readNumber (writeWhole n) (n : ℚ) := by
  intro s hs
  unfold writeWhole
  split_ifs with hneg
  · have hcast : -(n.natAbs : ℚ) = n := by
      rw [← Int.cast_natCast, show (n.natAbs : ℤ) = -n by omega, Int.cast_neg, neg_neg]
    rw [List.cons_append, readNumber, readUnsigned_toDigits _ hs]
    exact congrArg (fun q => some (q, s)) hcast
  · have hcast : (n.natAbs : ℚ) = n := by
      rw [← Int.cast_natCast, show (n.natAbs : ℤ) = n by omega]
    have hsign : ∀ s', Nat.toDigits 10 n.natAbs ++ s ≠ '-' :: s' := by
      intro s' heq
      have hmem : '-' ∈ Nat.toDigits 10 n.natAbs := by
        cases hds : Nat.toDigits 10 n.natAbs with
        | nil => exact absurd hds Nat.toDigits_ne_nil
        | cons c ds =>
          rw [hds, List.cons_append] at heq
          exact List.mem_cons.mpr (Or.inl (List.cons.inj heq).1.symm)
      exact absurd (Nat.isDigit_of_mem_toDigits (by decide) le_rfl hmem) (by decide)
    rw [readNumber.eq_2 _ hsign, readUnsigned_toDigits _ hs, hcast]

end Numbers

section Brackets

variable {read : List Char → Option (α × List Char)} {closing : Char} {parts : List (List Char)}
  {values : List α}

theorem ends_cons {c : Char} (h : c = ',' ∨ c = ']' ∨ c = '\x7d') (s : List Char) :
    Ends (c :: s) := by
  rintro c' ⟨⟩
  rcases h with rfl | rfl | rfl <;> decide

theorem readParts_flatMap (hclosing : closing = ']' ∨ closing = '\x7d')
    (h : List.Forall₂ (Reads read) parts values) {fuel : ℕ} (hfuel : parts.length < fuel)
    (s : List Char) :
    readParts read closing fuel (parts.flatMap (',' :: ·) ++ closing :: s) = some (values, s) := by
  have hblank : blank closing = false := by rcases hclosing with rfl | rfl <;> rfl
  induction h generalizing fuel with
  | nil =>
    obtain ⟨fuel, rfl⟩ := Nat.exists_eq_succ_of_ne_zero (Nat.ne_zero_of_lt hfuel)
    rw [List.flatMap_nil, List.nil_append, readParts, skip_cons hblank]
    simp
  | @cons part value parts values hpart hparts ih =>
    obtain ⟨fuel, rfl⟩ := Nat.exists_eq_succ_of_ne_zero (Nat.ne_zero_of_lt hfuel)
    rw [List.length_cons] at hfuel
    have hends : Ends (parts.flatMap (',' :: ·) ++ closing :: s) := by
      cases parts with
      | nil => exact ends_cons (Or.inr hclosing) _
      | cons part parts => exact ends_cons (Or.inl rfl) _
    have hcomma : ',' ≠ closing := by rcases hclosing with rfl | rfl <;> decide
    rw [List.flatMap_cons, List.cons_append, List.cons_append, readParts, skip_cons rfl,
      List.append_assoc]
    simp [hcomma, hpart _ hends, ih (Nat.lt_of_succ_lt_succ hfuel)]

theorem intercalate_cons (part : List Char) (parts : List (List Char)) :
    [','].intercalate (part :: parts) = part ++ parts.flatMap (',' :: ·) := by
  induction parts generalizing part with
  | nil => simp
  | cons next parts ih =>
    rw [List.intercalate_cons_cons, ih next, List.flatMap_cons, List.append_assoc]
    rfl

theorem length_le_flatMap (parts : List (List Char)) :
    parts.length ≤ (parts.flatMap (',' :: ·)).length := by
  induction parts with
  | nil => simp
  | cons part parts ih =>
    rw [List.flatMap_cons, List.length_append, List.length_cons, List.length_cons]
    omega

/-- Bracketed parts are read, if the first does not look like white space or the end. -/
theorem readBracket_bracket (hclosing : closing = ']' ∨ closing = '\x7d')
    (h : List.Forall₂ (Reads read) parts values)
    (hhead : ∀ part ∈ parts, ∃ c s, part = c :: s ∧ blank c = false ∧ c ≠ closing)
    (opening : Char) (s : List Char) :
    ∃ inner, bracket opening closing parts ++ s = opening :: inner ∧
      readBracket read closing inner = some (values, s) := by
  refine ⟨[','].intercalate parts ++ closing :: s, by simp [bracket], ?_⟩
  have hblank : blank closing = false := by rcases hclosing with rfl | rfl <;> rfl
  cases h with
  | nil => simp [readBracket, skip_cons hblank]
  | @cons part value parts values hpart hparts =>
    obtain ⟨c, rest, rfl, hc, hne⟩ := hhead part List.mem_cons_self
    have hlength := length_le_flatMap parts
    have hfuel : ((c :: rest) :: parts).length <
        ([','].intercalate ((c :: rest) :: parts) ++ closing :: s).length + 1 := by
      simp only [intercalate_cons, List.length_append, List.length_cons]
      omega
    have hread := readParts_flatMap hclosing (.cons hpart hparts) hfuel s
    rw [List.flatMap_cons, List.cons_append, ← intercalate_cons, List.cons_append] at hread
    rw [readBracket, if_neg]
    · exact hread
    · simpa [intercalate_cons, skip_cons hc] using hne

end Brackets

section Values

theorem write_array (items : List (Json ℤ)) :
    write (.array items) = bracket '[' ']' (items.map write) := by
  rw [write, fold, foldItems_eq]

theorem write_object (members : List (String × Json ℤ)) : write (.object members) =
    bracket '\x7b' '\x7d' (members.map fun m => writeText m.1 ++ ':' :: write m.2) := by
  rw [write, fold, foldMembers_eq]
  exact congrArg (bracket '\x7b' '\x7d') (List.map_map ..)

theorem map_array (f : M → N) (items : List (Json M)) :
    map f (.array items) = .array (items.map (map f)) := by
  rw [map, fold, foldItems_eq]

theorem map_object (f : M → N) (members : List (String × Json M)) :
    map f (.object members) = .object (members.map fun m => (m.1, map f m.2)) := by
  rw [map, fold, foldMembers_eq]

/-- A bracket is longer than its parts. -/
theorem length_part {part : List Char} {parts : List (List Char)} (h : part ∈ parts)
    (opening closing : Char) : part.length < (bracket opening closing parts).length := by
  have hle : part.length ≤ ([','].intercalate parts).length := by
    cases parts with
    | nil => exact absurd h List.not_mem_nil
    | cons first parts =>
      rw [intercalate_cons, List.length_append]
      rcases List.mem_cons.mp h with rfl | h
      · exact Nat.le_add_right _ _
      · obtain ⟨before, after, rfl⟩ := List.append_of_mem h
        simp only [List.flatMap_append, List.flatMap_cons, List.length_append, List.length_cons]
        omega
  rw [bracket, List.length_cons, List.length_append]
  omega

/-- The first character of a number. -/
def Numeral (c : Char) : Prop :=
  c = '-' ∨ c.isDigit = true

theorem Numeral.ne {c d : Char} (h : Numeral c) (hd : d ≠ '-' ∧ d.isDigit = false) : c ≠ d := by
  rintro rfl
  rcases h with rfl | h
  · exact hd.1 rfl
  · exact absurd h (by simp [hd.2])

theorem Numeral.not_blank {c : Char} (h : Numeral c) : blank c = false := by
  simp [blank, h.ne (d := ' ') (by decide), h.ne (d := '\t') (by decide),
    h.ne (d := '\n') (by decide), h.ne (d := '\r') (by decide)]

theorem writeWhole_head (n : ℤ) : ∃ c s, writeWhole n = c :: s ∧ Numeral c := by
  unfold writeWhole
  split_ifs
  · exact ⟨_, _, rfl, Or.inl rfl⟩
  · cases hds : Nat.toDigits 10 n.natAbs with
    | nil => exact absurd hds Nat.toDigits_ne_nil
    | cons c ds =>
      have hc : c ∈ Nat.toDigits 10 n.natAbs := by simp [hds]
      exact ⟨c, ds, rfl, Or.inr (Nat.isDigit_of_mem_toDigits (by decide) le_rfl hc)⟩

/-- No written value looks like white space or the end of an array. -/
theorem write_head (v : Json ℤ) : ∃ c s, write v = c :: s ∧ blank c = false ∧ c ≠ ']' := by
  cases v with
  | null => exact ⟨'n', _, rfl, rfl, by decide⟩
  | bool b => cases b <;> exact ⟨_, _, rfl, rfl, by decide⟩
  | number n =>
    obtain ⟨c, s, hwrite, hc⟩ := writeWhole_head n
    exact ⟨c, s, hwrite, hc.not_blank, hc.ne (by decide)⟩
  | string text => exact ⟨'"', _, rfl, rfl, by decide⟩
  | array items => exact ⟨'[', _, write_array items, rfl, by decide⟩
  | object members => exact ⟨'\x7b', _, write_object members, rfl, by decide⟩

theorem readValue_number {c : Char} (h : Numeral c) (fuel : ℕ) (s : List Char) :
    readValue (fuel + 1) (c :: s) = (readNumber (c :: s)).map fun (q, s) => (.number q, s) := by
  rw [readValue, skip_cons h.not_blank]
  split
  case h_8 => rfl
  case h_1 => contradiction
  all_goals
    rename_i heq
    exact absurd (List.cons.inj heq).1 (h.ne (by decide))

/-- A member's key and its value. -/
theorem reads_readMember {read : List Char → Option (α × List Char)} {text : List Char} {a : α}
    (h : Reads read text a) (key : String) :
    Reads (readMember read) (writeText key ++ ':' :: text) (key, a) := by
  intro s hs
  have hcolon : skip (':' :: (text ++ s)) = ':' :: (text ++ s) := rfl
  rw [writeText, List.append_assoc, List.cons_append, List.append_assoc, readMember,
    skip_cons rfl]
  simp [readText_write, hcolon, h s hs]

/-- There is fuel for one level. -/
theorem exists_fuel (v : Json ℤ) {fuel : ℕ} (h : (write v).length ≤ fuel) : ∃ n, fuel = n + 1 := by
  obtain ⟨c, s, hwrite, -⟩ := write_head v
  rw [hwrite, List.length_cons] at h
  exact ⟨fuel - 1, by omega⟩

theorem reads_write (v : Json ℤ) : ∀ fuel, (write v).length ≤ fuel →
    Reads (readValue fuel) (write v) (v.map (↑)) := by
  induction v using induction with
  | null =>
    intro fuel hfuel
    obtain ⟨fuel, rfl⟩ := exists_fuel _ hfuel
    exact fun s _ => rfl
  | bool b =>
    intro fuel hfuel
    obtain ⟨fuel, rfl⟩ := exists_fuel _ hfuel
    cases b <;> exact fun s _ => rfl
  | number n =>
    intro fuel hfuel s hs
    obtain ⟨fuel, rfl⟩ := exists_fuel _ hfuel
    obtain ⟨c, rest, hwrite, hc⟩ := writeWhole_head n
    have hread := reads_writeWhole n s hs
    change readValue (fuel + 1) (writeWhole n ++ s) = _
    rw [hwrite, List.cons_append] at hread ⊢
    rw [readValue_number hc, hread]
    rfl
  | string text =>
    intro fuel hfuel s _
    obtain ⟨fuel, rfl⟩ := exists_fuel _ hfuel
    change (readText (text.toList.flatMap writeChar ++ ['"'] ++ s)).map _ = _
    rw [List.append_assoc, List.singleton_append, readText_write]
    rfl
  | array items ih =>
    intro fuel hfuel s _
    obtain ⟨fuel, rfl⟩ := exists_fuel _ hfuel
    rw [write_array] at hfuel ⊢
    have hitems : List.Forall₂ (Reads (readValue fuel)) (items.map write)
        (items.map (map (↑))) := by
      rw [List.forall₂_map_left_iff, List.forall₂_map_right_iff, List.forall₂_same]
      intro item hitem
      have hlength : (write item).length < _ := length_part (List.mem_map_of_mem hitem) '[' ']'
      exact ih item hitem fuel (by omega)
    obtain ⟨inner, hinner, hread⟩ := readBracket_bracket (Or.inl rfl) hitems
      (List.forall_mem_map.mpr fun item _ => write_head item) '[' s
    rw [hinner, map_array]
    change (readBracket (readValue fuel) ']' inner).map _ = _
    rw [hread]
    rfl
  | object members ih =>
    intro fuel hfuel s _
    obtain ⟨fuel, rfl⟩ := exists_fuel _ hfuel
    rw [write_object] at hfuel ⊢
    have hmembers : List.Forall₂ (Reads (readMember (readValue fuel)))
        (members.map fun m => writeText m.1 ++ ':' :: write m.2)
        (members.map fun m => (m.1, m.2.map (↑))) := by
      rw [List.forall₂_map_left_iff, List.forall₂_map_right_iff, List.forall₂_same]
      intro m hm
      have hmem : writeText m.1 ++ ':' :: write m.2 ∈
          members.map fun m => writeText m.1 ++ ':' :: write m.2 := List.mem_map.mpr ⟨m, hm, rfl⟩
      have hlength := length_part hmem '\x7b' '\x7d'
      rw [List.length_append, List.length_cons] at hlength
      exact reads_readMember (ih m hm fuel (by omega)) m.1
    obtain ⟨inner, hinner, hread⟩ := readBracket_bracket (Or.inr rfl) hmembers
      (List.forall_mem_map.mpr fun m _ => ⟨'"', _, rfl, rfl, by decide⟩) '\x7b' s
    rw [hinner, map_object]
    change (readBracket (readMember (readValue fuel)) '\x7d' inner).map _ = _
    rw [hread]
    rfl

/-- `JSON.parse` of what `JSON.stringify` makes of a value. -/
theorem read_write (v : Json ℤ) : read (write v) = some (v.map (↑)) := by
  have hread := reads_write v _ le_rfl [] ends_nil
  rw [List.append_nil] at hread
  rw [read, hread]
  rfl

end Values

/-! ## Members by their keys -/

/-- The value of the last member with the key. -/
def lookup (key : String) : List (String × β) → Option β
  | [] => none
  | m :: members => (lookup key members).or (if m.1 = key then some m.2 else none)

/-- `v[key]`, where `v` has the key. -/
def get? (v : Json N) (key : String) : Option (Json N) :=
  match v with
  | .object members => lookup key members
  | _ => none

/-- The members without those that have a later one of their key. -/
def lastOfEach : List (String × β) → List (String × β)
  | [] => []
  | m :: members =>
    if m.1 ∈ members.map (·.1) then lastOfEach members else m :: lastOfEach members

/-- The order of keys in a `jsonb` : the shorter first. -/
def KeyLE (m m' : String × β) : Prop :=
  m.1.utf8ByteSize < m'.1.utf8ByteSize ∨ m.1.utf8ByteSize = m'.1.utf8ByteSize ∧ m.1 ≤ m'.1

instance : DecidableRel (KeyLE (β := β)) := fun m m' =>
  inferInstanceAs (Decidable (m.1.utf8ByteSize < m'.1.utf8ByteSize ∨
    m.1.utf8ByteSize = m'.1.utf8ByteSize ∧ m.1 ≤ m'.1))

/-- What a column of type `jsonb` stores of a value. -/
def jsonb : Json N → Json N :=
  fold ⟨.null, .bool, .number, .string, .array,
    fun members => .object ((lastOfEach members).insertionSort KeyLE)⟩

section Keys

variable {key : String} {members members' : List (String × β)}

theorem mem_of_lookup {b : β} (h : lookup key members = some b) : (key, b) ∈ members := by
  induction members with
  | nil => cases h
  | cons m members ih =>
    rcases Option.or_eq_some_iff.mp h with hlater | ⟨-, hfirst⟩
    · exact List.mem_cons_of_mem _ (ih hlater)
    · split_ifs at hfirst with hkey
      obtain rfl := hkey
      obtain rfl := Option.some_inj.mp hfirst
      exact List.mem_cons_self

theorem lookup_isSome : (lookup key members).isSome ↔ key ∈ members.map (·.1) := by
  induction members with
  | nil => simp [lookup]
  | cons m members ih =>
    rw [lookup, Option.isSome_or, Bool.or_eq_true, ih, List.map_cons, List.mem_cons, or_comm]
    refine or_congr ?_ Iff.rfl
    split_ifs with hkey
    · simp [hkey]
    · simp [Ne.symm hkey]

theorem lookup_append (members members' : List (String × β)) :
    lookup key (members ++ members') = (lookup key members').or (lookup key members) := by
  induction members with
  | nil => rw [List.nil_append, lookup, Option.or_none]
  | cons m members ih => rw [List.cons_append, lookup, ih, lookup, Option.or_assoc]

/-- If no key comes twice, the order of the members does not matter. -/
theorem lookup_eq_some_iff (hnodup : (members.map (·.1)).Nodup) {b : β} :
    lookup key members = some b ↔ (key, b) ∈ members := by
  refine ⟨mem_of_lookup, fun h => ?_⟩
  obtain ⟨b', hb'⟩ := Option.isSome_iff_exists.mp
    (lookup_isSome.mpr (List.mem_map_of_mem h))
  have heq : (key, b') = (key, b) := List.inj_on_of_nodup_map hnodup (mem_of_lookup hb') h rfl
  rw [hb', (Prod.mk.inj heq).2]

theorem lookup_perm (h : members.Perm members') (hnodup : (members.map (·.1)).Nodup) :
    lookup key members = lookup key members' := by
  refine Option.ext fun b => ?_
  rw [lookup_eq_some_iff hnodup, lookup_eq_some_iff ((h.map _).nodup_iff.mp hnodup), h.mem_iff]

theorem nodup_lastOfEach (members : List (String × β)) :
    ((lastOfEach members).map (·.1)).Nodup ∧ (lastOfEach members).Sublist members := by
  induction members with
  | nil => simp [lastOfEach]
  | cons m members ih =>
    rw [lastOfEach]
    split_ifs with hlater
    · exact ⟨ih.1, ih.2.cons m⟩
    · exact ⟨List.nodup_cons.mpr ⟨fun h => hlater ((ih.2.map _).subset h), ih.1⟩, ih.2.cons_cons m⟩

theorem lookup_lastOfEach (members : List (String × β)) :
    lookup key (lastOfEach members) = lookup key members := by
  induction members with
  | nil => rfl
  | cons m members ih =>
    rw [lastOfEach, lookup]
    split_ifs with hlater hkey
    · obtain ⟨b, hb⟩ := Option.isSome_iff_exists.mp (lookup_isSome.mpr (hkey ▸ hlater))
      rw [ih, hb, Option.some_or]
    · rw [ih, Option.or_none]
    · rw [lookup, ih, if_pos ‹_›]
    · rw [lookup, ih, if_neg ‹_›]

theorem lookup_map (f : α → β) (members : List (String × α)) :
    lookup key (members.map fun m => (m.1, f m.2)) = (lookup key members).map f := by
  induction members with
  | nil => rfl
  | cons m members ih =>
    rw [List.map_cons, lookup, lookup, ih]
    cases lookup key members with
    | none => split_ifs <;> rfl
    | some a => rfl

theorem get?_map (f : M → N) (v : Json M) (key : String) :
    (v.map f).get? key = (v.get? key).map (map f) := by
  cases v with
  | object members => rw [map_object, get?, get?, lookup_map]
  | _ => rfl

/-- What a key is found to have is not changed by the order of the members. -/
theorem get?_jsonb (v : Json N) (key : String) : v.jsonb.get? key = (v.get? key).map jsonb := by
  cases v with
  | object members =>
    have hsorted := List.perm_insertionSort KeyLE
      (lastOfEach (members.map fun m => (m.1, jsonb m.2)))
    have hnodup := (nodup_lastOfEach (members.map fun m => (m.1, jsonb m.2))).1
    rw [jsonb, fold, foldMembers_eq]
    change lookup key (List.insertionSort KeyLE (lastOfEach (members.map fun m =>
      (m.1, jsonb m.2)))) = (lookup key members).map jsonb
    rw [lookup_perm hsorted ((hsorted.map _).nodup_iff.mpr hnodup), lookup_lastOfEach, lookup_map]
  | _ => rfl

end Keys

end Json

end Qoms
