import Mathlib.Data.List.DropRight
import Mathlib.Data.List.Flatten

/-!
# Percent-encoding and the path of a URL

`decodeURIComponent` reads `%XX` as bytes and the result as UTF-8, strictly : an incomplete
escape or malformed UTF-8 is an error. `percentEncode` writes the characters of a set as bytes,
and leaves `%` alone, as a URL parser does. So what it wrote of a text is read back as that text
if the text has no `%` (`decode_percentEncode`), and is read as something shorter if it has one
(`eq_of_decode_percentEncode`).

`segments` are the path segments of a URL of a special scheme as its parser sets them : white
space goes, `?` and `#` end the path, `/` and `\` separate its segments, dot segments are
resolved, and the rest is percent-encoded. A path of `Clean` segments keeps them all
(`segments_path`). If one of them is arbitrary, whatever came of it is shorter than it was, or
it is clean (`clean_of_mem_segments`).
-/

set_option autoImplicit false

namespace Qoms.Url

/-! ## Percent-encoding -/

/-- The hexadecimal digits : the sixteen that are written, and the lower case of the last six. -/
def hexDigits : List Char :=
  ['0', '1', '2', '3', '4', '5', '6', '7', '8', '9', 'A', 'B', 'C', 'D', 'E', 'F', 'a', 'b', 'c',
    'd', 'e', 'f']

/-- The value of a hexadecimal digit. -/
def hexValue (c : Char) : Option ℕ :=
  (hexDigits.idxOf? c).map fun i => if i < 16 then i else i - 6

/-- A byte as it is percent-encoded. -/
def percentByte (b : UInt8) : List Char :=
  ['%', hexDigits.getD (b.toNat / 16) '0', hexDigits.getD (b.toNat % 16) '0']

/-- The UTF-8 bytes of a text. -/
def utf8 (s : List Char) : List UInt8 :=
  s.flatMap String.utf8EncodeChar

/-- The text with the characters of the set percent-encoded. -/
def percentEncode (set : Char → Bool) (s : List Char) : List Char :=
  s.flatMap fun c => if set c then (String.utf8EncodeChar c).flatMap percentByte else [c]

/-- The bytes of a text with escapes. -/
def percentDecode : List Char → Option (List UInt8)
  | [] => some []
  | '%' :: a :: b :: s => do
    let hi ← hexValue a
    let lo ← hexValue b
    let bytes ← percentDecode s
    return UInt8.ofNat (hi * 16 + lo) :: bytes
  | '%' :: _ => none
  | c :: s => do
    let bytes ← percentDecode s
    return String.utf8EncodeChar c ++ bytes

/-- `decodeURIComponent`. -/
def decodeURIComponent (s : List Char) : Option (List Char) :=
  (percentDecode s).bind fun bytes => (bytes.toByteArray.utf8Decode?).map (·.toList)

theorem hexValue_digit {n : ℕ} (h : n < 16) : hexValue (hexDigits.getD n '0') = some n := by
  have hall : ∀ n < 16, hexValue (hexDigits.getD n '0') = some n := by decide
  exact hall n h

theorem mem_hexDigits {c : Char} {n : ℕ} (h : hexValue c = some n) : c ∈ hexDigits := by
  obtain ⟨i, hi, -⟩ := Option.map_eq_some_iff.mp h
  rw [← List.isSome_idxOf?, hi]
  rfl

theorem hexDigit_ascii :
    ∀ c ∈ hexDigits, c ≠ '%' ∧ (String.utf8EncodeChar c).length = 1 := by
  have hall : hexDigits.all (fun c => c != '%' && (String.utf8EncodeChar c).length == 1) = true :=
    by decide
  simpa using List.all_eq_true.mp hall

theorem percentDecode_cons {c : Char} (h : c ≠ '%') (s : List Char) :
    percentDecode (c :: s) = (percentDecode s).map (String.utf8EncodeChar c ++ ·) := by
  rw [percentDecode.eq_4 c s (fun _ _ _ heq _ => h heq) h]
  cases percentDecode s <;> rfl

/-- An escape is complete, and gives one byte. -/
theorem percentDecode_escape {s : List Char} {bytes : List UInt8}
    (h : percentDecode ('%' :: s) = some bytes) : ∃ a b s' hi lo rest, s = a :: b :: s' ∧
      hexValue a = some hi ∧ hexValue b = some lo ∧ percentDecode s' = some rest ∧
      bytes = UInt8.ofNat (hi * 16 + lo) :: rest := by
  match s with
  | [] => exact absurd h (by simp [percentDecode])
  | [a] => exact absurd h (by simp [percentDecode])
  | a :: b :: s' =>
    simp only [percentDecode, Option.bind_eq_bind, Option.bind_eq_some_iff, Option.pure_def,
      Option.some_inj] at h
    obtain ⟨hi, hhi, lo, hlo, rest, hrest, rfl⟩ := h
    exact ⟨a, b, s', hi, lo, rest, rfl, hhi, hlo, hrest, rfl⟩

theorem percentDecode_percentByte (b : UInt8) (s : List Char) :
    percentDecode (percentByte b ++ s) = (percentDecode s).map (b :: ·) := by
  have hb : b.toNat < 256 := b.toNat_lt
  have hhi : hexValue (hexDigits.getD (b.toNat / 16) '0') = some (b.toNat / 16) :=
    hexValue_digit (by omega)
  have hlo : hexValue (hexDigits.getD (b.toNat % 16) '0') = some (b.toNat % 16) :=
    hexValue_digit (by omega)
  have hbyte : UInt8.ofNat (b.toNat / 16 * 16 + b.toNat % 16) = b := by
    rw [Nat.div_add_mod', UInt8.ofNat_toNat]
  rw [percentByte, List.cons_append, List.cons_append, List.cons_append, List.nil_append,
    percentDecode, hhi, hlo]
  cases hs : percentDecode s with
  | none => rfl
  | some bytes => exact congrArg (fun byte => some (byte :: bytes)) hbyte

/-- `decodeURIComponent` returns the text whose UTF-8 bytes these are. -/
theorem decode_eq_some_iff {s v : List Char} :
    decodeURIComponent s = some v ↔ percentDecode s = some (utf8 v) := by
  have hbytes : ∀ bytes : List UInt8,
      (bytes.toByteArray.utf8Decode?).map (·.toList) = some v ↔ bytes = utf8 v := by
    intro bytes
    constructor
    · intro h
      obtain ⟨text, htext, rfl⟩ := Option.map_eq_some_iff.mp h
      have hencode : text.toList.utf8Encode = bytes.toByteArray := by
        have := @ByteArray.utf8Encode_get_utf8Decode? bytes.toByteArray (by simp [htext])
        simpa [htext] using this
      have := congrArg (·.data.toList) hencode
      simpa [List.utf8Encode, utf8] using this.symm
    · rintro rfl
      have : (utf8 v).toByteArray = v.utf8Encode := rfl
      rw [this, List.utf8Decode?_utf8Encode]
      rfl
  rw [decodeURIComponent]
  cases percentDecode s with
  | none => simp
  | some bytes => rw [Option.bind_some, hbytes bytes, Option.some_inj]

theorem utf8_injective {v w : List Char} (h : utf8 v = utf8 w) : v = w := by
  have hencode : v.utf8Encode = w.utf8Encode := congrArg List.toByteArray h
  have hdecode := congrArg ByteArray.utf8Decode? hencode
  rw [List.utf8Decode?_utf8Encode, List.utf8Decode?_utf8Encode] at hdecode
  simpa using hdecode

theorem decode_nil : decodeURIComponent [] = some [] :=
  decode_eq_some_iff.mpr rfl

/-- A text that is not empty is not read as the empty one. -/
theorem ne_nil_of_decode {s v : List Char} (hs : s ≠ []) (h : decodeURIComponent s = some v) :
    v ≠ [] := by
  rintro rfl
  rw [decode_eq_some_iff] at h
  cases s with
  | nil => exact hs rfl
  | cons c s =>
    rcases eq_or_ne c '%' with rfl | hc
    · obtain ⟨_, _, _, _, _, _, -, -, -, -, heq⟩ := percentDecode_escape h
      exact absurd heq (by simp [utf8])
    · rw [percentDecode_cons hc] at h
      obtain ⟨bytes, -, heq⟩ := Option.map_eq_some_iff.mp h
      exact String.utf8EncodeChar_ne_nil (List.append_eq_nil_iff.mp heq).1

/-! ## What is encoded and read back -/

section

variable {set : Char → Bool}

theorem percentEncode_cons (c : Char) (s : List Char) : percentEncode set (c :: s) =
    (if set c then (String.utf8EncodeChar c).flatMap percentByte else [c]) ++
      percentEncode set s :=
  rfl

theorem percentDecode_flatMap_percentByte (bytes : List UInt8) (s : List Char) :
    percentDecode (bytes.flatMap percentByte ++ s) = (percentDecode s).map (bytes ++ ·) := by
  induction bytes with
  | nil => simp
  | cons b bytes ih =>
    rw [List.flatMap_cons, List.append_assoc, percentDecode_percentByte, ih, Option.map_map]
    rfl

/-- A character, encoded or not, is read back as its bytes, unless it starts an escape. -/
theorem percentDecode_encoded {c : Char} (h : c ≠ '%') (w : List Char) :
    percentDecode (percentEncode set (c :: w)) =
      (percentDecode (percentEncode set w)).map (String.utf8EncodeChar c ++ ·) := by
  rw [percentEncode_cons]
  split_ifs with hset
  · exact percentDecode_flatMap_percentByte _ _
  · exact percentDecode_cons h _

/-- A text without `%` is read back as it was. -/
theorem decode_percentEncode {w : List Char} (h : '%' ∉ w) :
    decodeURIComponent (percentEncode set w) = some w := by
  rw [decode_eq_some_iff]
  induction w with
  | nil => rfl
  | cons c w ih =>
    rw [List.mem_cons, not_or] at h
    rw [percentDecode_encoded (Ne.symm h.1), ih h.2]
    rfl

/-- A hexadecimal digit of the encoded text stood there before. -/
theorem eq_cons_of_percentEncode {w s : List Char} {a : Char} {n : ℕ} (ha : hexValue a = some n)
    (h : percentEncode set w = a :: s) : ∃ w', w = a :: w' ∧ percentEncode set w' = s := by
  cases w with
  | nil => exact absurd h (by simp [percentEncode])
  | cons c w =>
    rw [percentEncode_cons] at h
    split_ifs at h with hset
    · -- an escape starts with `%`, which is no digit
      obtain ⟨b, bytes, hbytes⟩ := List.exists_cons_of_ne_nil (@String.utf8EncodeChar_ne_nil c)
      rw [hbytes, List.flatMap_cons, percentByte] at h
      obtain rfl : '%' = a := (List.cons.inj h).1
      have hnone : hexValue '%' = none := by decide
      exact absurd (hnone.symm.trans ha) (by simp)
    · obtain ⟨rfl, rfl⟩ := List.cons.inj h
      exact ⟨w, rfl, rfl⟩

/-- Each escape in a text makes its bytes two less. -/
theorem length_percentDecode_percentEncode (hpercent : set '%' = false) {w : List Char}
    {bytes : List UInt8} (h : percentDecode (percentEncode set w) = some bytes) :
    bytes.length + 2 * w.count '%' = (utf8 w).length := by
  induction hn : w.length using Nat.strong_induction_on generalizing w bytes with
  | _ n ih =>
    cases w with
    | nil =>
      obtain rfl : [] = bytes := Option.some_inj.mp h
      rfl
    | cons c w =>
      rcases eq_or_ne c '%' with rfl | hc
      · rw [percentEncode_cons, hpercent] at h
        obtain ⟨a, b, s, hi, lo, rest, hw, ha, hb, hrest, rfl⟩ := percentDecode_escape h
        obtain ⟨w', rfl, hw'⟩ := eq_cons_of_percentEncode ha hw
        obtain ⟨w'', rfl, rfl⟩ := eq_cons_of_percentEncode hb hw'
        have hshorter : w''.length < n := by
          simp only [List.length_cons] at hn
          omega
        have := ih w''.length hshorter hrest rfl
        obtain ⟨hapercent, halength⟩ := hexDigit_ascii a (mem_hexDigits ha)
        obtain ⟨hbpercent, hblength⟩ := hexDigit_ascii b (mem_hexDigits hb)
        rw [List.count_cons_self, List.count_cons_of_ne hapercent,
          List.count_cons_of_ne hbpercent, List.length_cons]
        simp only [utf8, List.flatMap_cons, List.length_append, halength, hblength] at this ⊢
        have hpercent : (String.utf8EncodeChar '%').length = 1 := rfl
        omega
      · rw [percentDecode_encoded hc] at h
        obtain ⟨rest, hrest, rfl⟩ := Option.map_eq_some_iff.mp h
        have := ih w.length (by simp [← hn]) hrest rfl
        rw [List.length_append, List.count_cons_of_ne hc]
        rw [utf8, List.flatMap_cons, List.length_append, ← utf8]
        omega

end

/-- What a sublist of a text is read back as is no longer than it; so it is the text itself only
if the sublist is, and has no `%`. -/
theorem eq_of_decode_percentEncode {set : Char → Bool} (hpercent : set '%' = false)
    {c v : List Char} (hsub : c.Sublist v)
    (h : decodeURIComponent (percentEncode set c) = some v) : c = v ∧ '%' ∉ v := by
  have hlength := length_percentDecode_percentEncode hpercent (decode_eq_some_iff.mp h)
  have hutf8 : (utf8 c).Sublist (utf8 v) := hsub.flatMap _
  have hle := hutf8.length_le
  obtain rfl := utf8_injective (hutf8.eq_of_length (by omega))
  exact ⟨rfl, List.count_eq_zero.mp (by omega)⟩

/-! ## The path of a URL -/

/-- The characters that are stripped at the end of a URL. -/
def isC0OrSpace (c : Char) : Bool :=
  c.toNat ≤ 0x20

/-- The characters that are removed anywhere. -/
def isTabOrNewline (c : Char) : Bool :=
  c == '\t' || c == '\n' || c == '\r'

/-- The characters after which the query or the fragment begins. -/
def endsPath (c : Char) : Bool :=
  c == '?' || c == '#'

/-- The characters between segments, in a URL of a special scheme. -/
def isSlash (c : Char) : Bool :=
  c == '/' || c == '\\'

/-- The path percent-encode set. -/
def pathSet (c : Char) : Bool :=
  c.toNat ≤ 0x20 || 0x7e < c.toNat ||
    [0x22, 0x23, 0x3c, 0x3e, 0x3f, 0x5e, 0x60, 0x7b, 0x7d].contains c.toNat

/-- The spellings of `.`. -/
def singleDots : List (List Char) :=
  [['.'], ['%', '2', 'e'], ['%', '2', 'E']]

/-- The spellings of `..`. -/
def doubleDots : List (List Char) :=
  singleDots.flatMap fun a => singleDots.map (a ++ ·)

/-- The path as far as it goes, without white space. -/
def stripped (path : List Char) : List Char :=
  ((path.rdropWhile isC0OrSpace).filter (!isTabOrNewline ·)).takeWhile (!endsPath ·)

/-- A dot segment at the end leaves an empty segment. -/
def closed (path rest : List (List Char)) : List (List Char) :=
  if rest = [] then [] :: path else path

/-- The path after these segments, where `path` are the segments before them, last first. -/
def resolve (path : List (List Char)) : List (List Char) → List (List Char)
  | [] => path.reverse
  | s :: rest =>
    if s ∈ doubleDots then resolve (closed path.tail rest) rest
    else if s ∈ singleDots then resolve (closed path rest) rest
    else resolve (percentEncode pathSet s :: path) rest

/-- The segments of a path that starts with a slash. -/
def segments (path : List Char) : List (List Char) :=
  resolve [] ((stripped path).splitOnP isSlash).tail

/-- A path of these segments, as it is written. -/
def join (parts : List (List Char)) : List Char :=
  parts.flatMap ('/' :: ·)

/-- A character that the parser leaves in its segment, and that starts no escape. -/
def isPlain (c : Char) : Bool :=
  !isTabOrNewline c && !endsPath c && !isSlash c && c != '%'

/-- A segment that stays as it is, but for percent-encoding. -/
def Clean (s : List Char) : Prop :=
  s.all isPlain = true ∧ s ≠ ['.'] ∧ s ≠ ['.', '.']

instance : DecidablePred Clean := fun _ => inferInstanceAs (Decidable (_ ∧ _ ∧ _))

/-- A segment that stays as it is. -/
def Word (s : List Char) : Prop :=
  Clean s ∧ s ≠ [] ∧ s.all (!pathSet ·) = true

instance : DecidablePred Word := fun _ => inferInstanceAs (Decidable (_ ∧ _ ∧ _))

/-! ### Characters and segments -/

theorem isPlain_iff {c : Char} : isPlain c = true ↔
    isTabOrNewline c = false ∧ endsPath c = false ∧ isSlash c = false ∧ c ≠ '%' := by
  simp [isPlain, and_assoc]

theorem Clean.isPlain {s : List Char} (h : Clean s) {c : Char} (hc : c ∈ s) : isPlain c = true :=
  List.all_eq_true.mp h.1 c hc

theorem dots_spelled : (∀ s ∈ singleDots, s = ['.'] ∨ '%' ∈ s) ∧
    ∀ s ∈ doubleDots, s = ['.', '.'] ∨ '%' ∈ s := by
  decide

theorem Clean.percent_notMem {s : List Char} (h : Clean s) : '%' ∉ s := by
  intro hmem
  exact (isPlain_iff.mp (h.isPlain hmem)).2.2.2 rfl

theorem Clean.not_dots {s : List Char} (h : Clean s) : s ∉ singleDots ∧ s ∉ doubleDots := by
  constructor
  · intro hmem
    rcases dots_spelled.1 s hmem with heq | hpercent
    · exact h.2.1 heq
    · exact h.percent_notMem hpercent
  · intro hmem
    rcases dots_spelled.2 s hmem with heq | hpercent
    · exact h.2.2 heq
    · exact h.percent_notMem hpercent

theorem Word.percentEncode_eq {s : List Char} (h : Word s) : percentEncode pathSet s = s := by
  obtain ⟨-, -, hset⟩ := h
  induction s with
  | nil => rfl
  | cons c s ih =>
    rw [List.all_cons, Bool.and_eq_true, Bool.not_eq_true'] at hset
    rw [percentEncode_cons, if_neg (by simp [hset.1]), ih hset.2]
    rfl

theorem Word.decode_eq {s : List Char} (h : Word s) : decodeURIComponent s = some s := by
  have hdecode := @decode_percentEncode pathSet s h.1.percent_notMem
  rwa [h.percentEncode_eq] at hdecode

theorem Word.rdropWhile_eq {s : List Char} (h : Word s) : s.rdropWhile isC0OrSpace = s := by
  rw [List.rdropWhile_eq_self_iff]
  intro hne hlast
  have hset := List.all_eq_true.mp h.2.2 _ (List.getLast_mem hne)
  simp only [isC0OrSpace, decide_eq_true_eq] at hlast
  simp [pathSet, hlast] at hset

@[simp] theorem join_nil : join [] = [] :=
  rfl

theorem join_append (parts parts' : List (List Char)) :
    join (parts ++ parts') = join parts ++ join parts' :=
  List.flatMap_append

theorem join_cons (s : List Char) (parts : List (List Char)) :
    join (s :: parts) = '/' :: (s ++ join parts) :=
  rfl

theorem plain_of_mem_join {parts : List (List Char)} (h : ∀ s ∈ parts, Clean s) {c : Char}
    (hc : c ∈ join parts) : isTabOrNewline c = false ∧ endsPath c = false := by
  obtain ⟨s, hs, hmem⟩ := List.mem_flatMap.mp hc
  rcases List.mem_cons.mp hmem with rfl | hmem
  · decide
  · obtain ⟨htab, hend, -⟩ := isPlain_iff.mp ((h s hs).isPlain hmem)
    exact ⟨htab, hend⟩

/-! ### Splitting a path -/

theorem sublist_of_mem_splitOnP {p : Char → Bool} {s chunk : List Char}
    (h : chunk ∈ s.splitOnP p) : chunk.Sublist s ∧ ∀ c ∈ chunk, p c = false := by
  induction s generalizing chunk with
  | nil =>
    obtain rfl : chunk = [] := by simpa using h
    exact ⟨List.Sublist.refl _, by simp⟩
  | cons c s ih =>
    rw [List.splitOnP_cons_eq_if_modifyHead] at h
    split_ifs at h with hc
    · rcases List.mem_cons.mp h with rfl | h
      · exact ⟨List.nil_sublist _, by simp⟩
      · exact ⟨(ih h).1.cons c, (ih h).2⟩
    · obtain ⟨first, rest, hsplit⟩ := List.exists_cons_of_ne_nil (List.splitOnP_ne_nil p s)
      rw [hsplit] at h ih
      rcases List.mem_cons.mp h with rfl | h
      · obtain ⟨hsub, hfirst⟩ := ih List.mem_cons_self
        exact ⟨hsub.cons_cons c, List.forall_mem_cons.mpr ⟨by simpa using hc, hfirst⟩⟩
      · obtain ⟨hsub, hchunk⟩ := ih (List.mem_cons_of_mem _ h)
        exact ⟨hsub.cons c, hchunk⟩

theorem splitOnP_append_join {parts : List (List Char)} (h : ∀ s ∈ parts, Clean s)
    (x : List Char) : (x ++ join parts).splitOnP isSlash = x.splitOnP isSlash ++ parts := by
  induction parts generalizing x with
  | nil => rw [join_nil, List.append_nil, List.append_nil]
  | cons s parts ih =>
    have hs : s.splitOnP isSlash = [s] := List.splitOnP_eq_singleton fun c hc =>
      (isPlain_iff.mp ((h s List.mem_cons_self).isPlain hc)).2.2.1
    rw [join_cons, List.splitOnP_append_cons x _ (by decide),
      ih (fun t ht => h t (List.mem_cons_of_mem _ ht)), hs]
    rfl

theorem rdropWhile_append_cons {p : Char → Bool} {c : Char} (hc : p c = false)
    (a b : List Char) : (a ++ c :: b).rdropWhile p = a ++ c :: b.rdropWhile p := by
  induction b using List.reverseRecOn with
  | nil => exact List.rdropWhile_concat_neg p a c (by simp [hc])
  | append_singleton b d ih =>
    by_cases hd : p d = true
    · rw [← List.cons_append, ← List.append_assoc, List.rdropWhile_concat_pos p _ d hd, ih,
        List.rdropWhile_concat_pos p b d hd]
    · rw [← List.cons_append, ← List.append_assoc, List.rdropWhile_concat_neg p _ d hd,
        List.rdropWhile_concat_neg p b d hd, List.append_assoc, List.cons_append]

/-- What is left of a segment at the end or in the middle of a URL. -/
def trimmed (s : List Char) (rest : List (List Char)) : List Char :=
  if rest = [] then s.rdropWhile isC0OrSpace else s

theorem trimmed_sublist (s : List Char) (rest : List (List Char)) : (trimmed s rest).Sublist s := by
  unfold trimmed
  split_ifs
  · exact (List.rdropWhile_prefix isC0OrSpace s).sublist
  · exact List.Sublist.refl s

section

variable {pre suf : List (List Char)} {v x : List Char}

/-- Only the end of a path is trimmed. -/
theorem rdropWhile_path (hsuf : ∀ w ∈ suf, Word w) (a v : List Char) :
    (a ++ '/' :: (v ++ join suf)).rdropWhile isC0OrSpace =
      a ++ '/' :: (trimmed v suf ++ join suf) := by
  rcases List.eq_nil_or_concat suf with rfl | ⟨front, w, rfl⟩
  · rw [join_nil, List.append_nil, trimmed, if_pos rfl, List.append_nil,
      rdropWhile_append_cons (by decide)]
  · have hw : Word w := hsuf w (by simp)
    have hassoc : a ++ '/' :: (v ++ join (front ++ [w])) =
        (a ++ '/' :: (v ++ join front)) ++ '/' :: w := by
      simp [join_append, join_cons]
    rw [List.concat_eq_append, trimmed, if_neg (by simp), hassoc,
      rdropWhile_append_cons (by decide), hw.rdropWhile_eq]

/-- What is left of a path with one arbitrary segment. -/
theorem stripped_path (hpre : ∀ w ∈ pre, Word w) (hsuf : ∀ w ∈ suf, Word w) (v : List Char) :
    ∃ v' suf', stripped (join pre ++ '/' :: (v ++ join suf)) =
        join pre ++ '/' :: (v' ++ join suf') ∧
      v'.Sublist (trimmed v suf) ∧ suf' ⊆ suf ∧
      ∀ c ∈ v', isTabOrNewline c = false ∧ endsPath c = false := by
  have hplain : ∀ parts : List (List Char), (∀ w ∈ parts, Word w) → ∀ c ∈ join parts,
      (!isTabOrNewline c) = true ∧ (!endsPath c) = true := by
    intro parts hparts c hc
    obtain ⟨htab, hend⟩ := plain_of_mem_join (fun w hw => (hparts w hw).1) hc
    simp [htab, hend]
  set kept := (trimmed v suf).filter (!isTabOrNewline ·) with hkept
  have hfilter : (join pre ++ '/' :: (trimmed v suf ++ join suf)).filter (!isTabOrNewline ·) =
      join pre ++ '/' :: (kept ++ join suf) := by
    rw [List.filter_append, List.filter_cons_of_pos (by decide), List.filter_append,
      List.filter_eq_self.mpr fun c hc => (hplain pre hpre c hc).1,
      List.filter_eq_self.mpr fun c hc => (hplain suf hsuf c hc).1]
  have htake : ∀ c ∈ kept.takeWhile (!endsPath ·),
      isTabOrNewline c = false ∧ endsPath c = false := by
    intro c hc
    have hmem := List.mem_filter.mp ((List.takeWhile_sublist _).subset hc)
    exact ⟨by simpa using hmem.2, by simpa using List.mem_takeWhile_imp hc⟩
  have hsub : (kept.takeWhile (!endsPath ·)).Sublist (trimmed v suf) :=
    (List.takeWhile_sublist _).trans List.filter_sublist
  refine ⟨kept.takeWhile (!endsPath ·),
    if (kept.takeWhile (!endsPath ·)).length = kept.length then suf else [], ?_, hsub, ?_, htake⟩
  · rw [stripped, rdropWhile_path hsuf, hfilter,
      List.takeWhile_append_of_pos fun c hc => (hplain pre hpre c hc).2,
      List.takeWhile_cons_of_pos (by decide), List.takeWhile_append]
    split_ifs with hall
    · rw [List.takeWhile_eq_self_iff.mpr fun c hc => (hplain suf hsuf c hc).2,
        (List.takeWhile_sublist _).eq_of_length hall]
    · rw [join_nil, List.append_nil]
  · split_ifs
    · exact List.Subset.refl suf
    · exact List.nil_subset suf

/-! ### Segments of a path -/

theorem mem_resolve {path chunks : List (List Char)} (h : x ∈ resolve path chunks) :
    x ∈ path ∨ x = [] ∨ ∃ s ∈ chunks, s ∉ singleDots ∧ s ∉ doubleDots ∧
      x = percentEncode pathSet s := by
  induction chunks generalizing path with
  | nil => exact Or.inl (List.mem_reverse.mp h)
  | cons s rest ih =>
    have hclosed : ∀ {path' : List (List Char)}, x ∈ closed path' rest → x ∈ path' ∨ x = [] := by
      intro path' hmem
      unfold closed at hmem
      split_ifs at hmem
      · exact (List.mem_cons.mp hmem).symm
      · exact Or.inl hmem
    have hlift : (∃ t ∈ rest, t ∉ singleDots ∧ t ∉ doubleDots ∧ x = percentEncode pathSet t) →
        ∃ t ∈ s :: rest, t ∉ singleDots ∧ t ∉ doubleDots ∧ x = percentEncode pathSet t := by
      rintro ⟨t, ht, hrest⟩
      exact ⟨t, List.mem_cons_of_mem s ht, hrest⟩
    rw [resolve] at h
    split_ifs at h with hdouble hsingle
    · rcases ih h with hmem | hnil | hchunk
      · rcases hclosed hmem with hmem | hnil
        · exact Or.inl (List.mem_of_mem_tail hmem)
        · exact Or.inr (Or.inl hnil)
      · exact Or.inr (Or.inl hnil)
      · exact Or.inr (Or.inr (hlift hchunk))
    · rcases ih h with hmem | hnil | hchunk
      · exact (hclosed hmem).imp_right Or.inl
      · exact Or.inr (Or.inl hnil)
      · exact Or.inr (Or.inr (hlift hchunk))
    · rcases ih h with hmem | hnil | hchunk
      · rcases List.mem_cons.mp hmem with rfl | hmem
        · exact Or.inr (Or.inr ⟨s, List.mem_cons_self, hsingle, hdouble, rfl⟩)
        · exact Or.inl hmem
      · exact Or.inr (Or.inl hnil)
      · exact Or.inr (Or.inr (hlift hchunk))

theorem resolve_of_clean {path chunks : List (List Char)} (h : ∀ s ∈ chunks, Clean s) :
    resolve path chunks = path.reverse ++ chunks.map (percentEncode pathSet) := by
  induction chunks generalizing path with
  | nil => rw [resolve, List.map_nil, List.append_nil]
  | cons s rest ih =>
    obtain ⟨hsingle, hdouble⟩ := (h s List.mem_cons_self).not_dots
    rw [resolve, if_neg hdouble, if_neg hsingle, ih fun t ht => h t (List.mem_cons_of_mem s ht),
      List.reverse_cons, List.append_assoc, List.map_cons, List.singleton_append]

/-- A path of clean segments keeps them. -/
theorem segments_path (hpre : ∀ w ∈ pre, Word w) (hsuf : ∀ w ∈ suf, Word w) (hv : Clean v)
    (htrimmed : trimmed v suf = v) :
    segments (join pre ++ '/' :: (v ++ join suf)) =
      (pre ++ v :: suf).map (percentEncode pathSet) := by
  have hclean : ∀ s ∈ pre ++ v :: suf, Clean s := by
    intro s hs
    rcases List.mem_append.mp hs with hs | hs
    · exact (hpre s hs).1
    · rcases List.mem_cons.mp hs with rfl | hs
      · exact hv
      · exact (hsuf s hs).1
  have hpath : join pre ++ '/' :: (v ++ join suf) = join (pre ++ v :: suf) := by
    rw [join_append, join_cons]
  have hplain := fun c (hc : c ∈ join (pre ++ v :: suf)) => plain_of_mem_join hclean hc
  have hstripped : stripped (join (pre ++ v :: suf)) = [] ++ join (pre ++ v :: suf) := by
    rw [stripped, ← hpath, rdropWhile_path hsuf, htrimmed, hpath,
      List.filter_eq_self.mpr fun c hc => by simp [(hplain c hc).1],
      List.takeWhile_eq_self_iff.mpr fun c hc => by simp [(hplain c hc).2], List.nil_append]
  rw [segments, hpath, hstripped, splitOnP_append_join hclean, List.splitOnP_nil,
    List.singleton_append, List.tail_cons, resolve_of_clean hclean, List.reverse_nil,
    List.nil_append]

/-- A segment of a path with one arbitrary part `v`, if it is read as `v`, was clean. -/
theorem clean_of_mem_segments (hpre : ∀ w ∈ pre, Word w) (hsuf : ∀ w ∈ suf, Word w)
    (hx : x ∈ segments (join pre ++ '/' :: (v ++ join suf))) (hne : x ≠ [])
    (hdecode : decodeURIComponent x = some v) : Clean v ∧ trimmed v suf = v := by
  obtain ⟨v', suf', hstripped, hsub, hsuf', hkept⟩ := stripped_path hpre hsuf v
  have hsplit : ((stripped (join pre ++ '/' :: (v ++ join suf))).splitOnP isSlash).tail =
      pre ++ (v'.splitOnP isSlash ++ suf') := by
    have hjoin := splitOnP_append_join (fun w hw => (hpre w hw).1) []
    rw [hstripped, List.splitOnP_append_cons _ _ (by decide),
      splitOnP_append_join fun w hw => (hsuf w (hsuf' hw)).1, ← List.nil_append (join pre), hjoin,
      List.splitOnP_nil, List.singleton_append, List.cons_append, List.tail_cons]
  -- a word is read as itself
  have hword : ∀ s, Word s → x = percentEncode pathSet s → Clean v ∧ trimmed v suf = v := by
    rintro s hs rfl
    rw [hs.percentEncode_eq, hs.decode_eq] at hdecode
    obtain rfl := Option.some_inj.mp hdecode
    refine ⟨hs.1, ?_⟩
    unfold trimmed
    split_ifs
    · exact hs.rdropWhile_eq
    · rfl
  rw [segments, hsplit] at hx
  rcases mem_resolve hx with hnil | hnil | ⟨s, hs, hsingle, hdouble, hencode⟩
  · exact absurd hnil List.not_mem_nil
  · exact absurd hnil hne
  · rcases List.mem_append.mp hs with hs | hs
    · exact hword s (hpre s hs) hencode
    · rcases List.mem_append.mp hs with hs | hs
      · -- the segment comes from `v`, and nothing of it was lost
        obtain ⟨hchunk, hslash⟩ := sublist_of_mem_splitOnP hs
        have hv := (hchunk.trans hsub).trans (trimmed_sublist v suf)
        subst hencode
        obtain ⟨rfl, hpercent⟩ := eq_of_decode_percentEncode (by decide) hv hdecode
        refine ⟨⟨List.all_eq_true.mpr fun c hc => isPlain_iff.mpr ?_, ?_, ?_⟩,
          (trimmed_sublist s suf).antisymm (hchunk.trans hsub)⟩
        · obtain ⟨htab, hend⟩ := hkept c (hchunk.subset hc)
          exact ⟨htab, hend, hslash c hc, fun heq => hpercent (heq ▸ hc)⟩
        · rintro rfl
          exact hsingle (by decide)
        · rintro rfl
          exact hdouble (by decide)
      · exact hword s (hsuf s (hsuf' hs)) hencode

end

end Qoms.Url
