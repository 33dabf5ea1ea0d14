import Qoms.Url

/-!
# Routes with parameters

A router goes through its endpoints in their order. The first whose pattern matches the raw
segments of the path and whose method is the request's answers it, with the parameters decoded;
a parameter that cannot be decoded ends the search with an error (`dispatch`).

A client that writes a value into a path and sends it reaches the endpoint it means, with the
value it means, exactly when the value is a clean segment (`dispatch_path_iff`) : what a URL
parser makes of any other value is read as something else, or is not there.
-/

set_option autoImplicit false

namespace Qoms.Routing

open Url

/-! ## Patterns -/

/-- A part of a pattern : a word, or a parameter. -/
inductive Part
  | word (text : List Char)
  | param
  deriving DecidableEq

/-- A method and the pattern of a path. -/
structure Endpoint (μ : Type) where
  method : μ
  parts : List Part
  deriving DecidableEq

/-- Words are compared without regard to case. -/
def sameWord (a b : List Char) : Bool :=
  a.map Char.toLower == b.map Char.toLower

/-- The raw parameters of a path that matches the pattern; a slash may follow. -/
def captures : List Part → List (List Char) → Option (List (List Char))
  | [], [] => some []
  | [], [s] => if s = [] then some [] else none
  | [], _ => none
  | .word text :: parts, s :: rest => if sameWord text s then captures parts rest else none
  | .param :: parts, s :: rest => if s = [] then none else (captures parts rest).map (s :: ·)
  | _ :: _, [] => none

/-- The endpoint that answers a request, with its parameters. -/
def dispatch {μ : Type} [DecidableEq μ] (method : μ) (path : List (List Char)) :
    List (Endpoint μ) → Option (Endpoint μ × List (List Char))
  | [] => none
  | e :: table =>
    match captures e.parts path with
    | none => dispatch method path table
    | some raw =>
      match raw.mapM decodeURIComponent with
      | none => none
      | some values => if e.method = method then some (e, values) else dispatch method path table

/-! ## What a router finds -/

theorem mem_of_mapM_decode {raw values : List (List Char)}
    (h : raw.mapM decodeURIComponent = some values) :
    raw.length = values.length ∧ ∀ v ∈ values, ∃ x ∈ raw, decodeURIComponent x = some v := by
  induction raw generalizing values with
  | nil =>
    obtain rfl : [] = values := by simpa using h
    simp
  | cons x raw ih =>
    simp only [List.mapM_cons, Option.bind_eq_bind, Option.bind_eq_some_iff, Option.pure_def,
      Option.some_inj] at h
    obtain ⟨v, hv, rest, hrest, rfl⟩ := h
    obtain ⟨hlength, hmem⟩ := ih hrest
    refine ⟨by rw [List.length_cons, List.length_cons, hlength], fun w hw => ?_⟩
    rcases List.mem_cons.mp hw with rfl | hw
    · exact ⟨x, List.mem_cons_self, hv⟩
    · obtain ⟨y, hy, hdecode⟩ := hmem w hw
      exact ⟨y, List.mem_cons_of_mem x hy, hdecode⟩

/-- A pattern captures a segment for each of its parameters, none of them empty. -/
theorem captures_eq_some {parts : List Part} {path raw : List (List Char)}
    (h : captures parts path = some raw) :
    raw.length = parts.count .param ∧ ∀ x ∈ raw, x ∈ path ∧ x ≠ [] := by
  induction parts generalizing path raw with
  | nil =>
    match path with
    | [] =>
      obtain rfl : [] = raw := Option.some_inj.mp h
      simp
    | [s] =>
      rw [captures] at h
      split_ifs at h
      obtain rfl : [] = raw := Option.some_inj.mp h
      simp
    | _ :: _ :: _ => exact absurd h (by simp [captures])
  | cons part parts ih =>
    match part, path with
    | .word _, [] | .param, [] => exact absurd h (by simp [captures])
    | .word text, s :: rest =>
      rw [captures] at h
      split_ifs at h
      obtain ⟨hlength, hmem⟩ := ih h
      refine ⟨hlength.trans (by simp), fun x hx => ?_⟩
      exact ⟨List.mem_cons_of_mem s (hmem x hx).1, (hmem x hx).2⟩
    | .param, s :: rest =>
      rw [captures] at h
      split_ifs at h with hs
      obtain ⟨raw', hraw', rfl⟩ := Option.map_eq_some_iff.mp h
      obtain ⟨hlength, hmem⟩ := ih hraw'
      refine ⟨by rw [List.length_cons, hlength, List.count_cons_self], fun x hx => ?_⟩
      rcases List.mem_cons.mp hx with rfl | hx
      · exact ⟨List.mem_cons_self, hs⟩
      · exact ⟨List.mem_cons_of_mem s (hmem x hx).1, (hmem x hx).2⟩

section

variable {μ : Type} [DecidableEq μ] {method : μ} {path : List (List Char)}
  {table : List (Endpoint μ)} {e : Endpoint μ} {values : List (List Char)}

/-- What is dispatched to an endpoint has its method and matches its pattern. -/
theorem dispatch_eq_some (h : dispatch method path table = some (e, values)) :
    e ∈ table ∧ e.method = method ∧ ∃ raw, captures e.parts path = some raw ∧
      raw.mapM decodeURIComponent = some values := by
  induction table with
  | nil => exact absurd h (by simp [dispatch])
  | cons e' table ih =>
    have hlater : dispatch method path table = some (e, values) → e ∈ e' :: table ∧
        e.method = method ∧ ∃ raw, captures e.parts path = some raw ∧
          raw.mapM decodeURIComponent = some values := by
      intro hrest
      obtain ⟨hmem, hfound⟩ := ih hrest
      exact ⟨List.mem_cons_of_mem e' hmem, hfound⟩
    rw [dispatch] at h
    cases hraw : captures e'.parts path with
    | none =>
      simp only [hraw] at h
      exact hlater h
    | some raw =>
      cases hvalues : raw.mapM decodeURIComponent with
      | none => simp [hraw, hvalues] at h
      | some values' =>
        simp only [hraw, hvalues] at h
        split_ifs at h with hmethod
        · obtain ⟨rfl, rfl⟩ := Prod.mk.inj (Option.some_inj.mp h)
          exact ⟨List.mem_cons_self, hmethod, raw, hraw, hvalues⟩
        · exact hlater h

/-- Each parameter is read from a segment of the path. -/
theorem values_of_dispatch (h : dispatch method path table = some (e, values)) :
    values.length = e.parts.count .param ∧
      ∀ v ∈ values, ∃ x ∈ path, x ≠ [] ∧ decodeURIComponent x = some v := by
  obtain ⟨-, -, raw, hraw, hvalues⟩ := dispatch_eq_some h
  obtain ⟨hlength, hmem⟩ := mem_of_mapM_decode hvalues
  obtain ⟨hcount, hcaptured⟩ := captures_eq_some hraw
  refine ⟨hlength.symm.trans hcount, fun v hv => ?_⟩
  obtain ⟨x, hx, hdecode⟩ := hmem v hv
  exact ⟨x, (hcaptured x hx).1, (hcaptured x hx).2, hdecode⟩

end

/-! ## Paths that are filled in -/

/-- The segment for a part, where `raw` stands for the parameter. -/
def Part.fill (raw : List Char) : Part → List Char
  | .word text => text
  | .param => raw

/-- No path fits both patterns, as their words differ or their lengths. -/
def apart : List Part → List Part → Bool
  | [], [] => false
  | [], _ :: _ => true
  | _ :: _, [] => true
  | .word a :: parts, .word b :: parts' => !sameWord a b || apart parts parts'
  | _ :: parts, _ :: parts' => apart parts parts'

theorem sameWord_self (text : List Char) : sameWord text text = true :=
  beq_self_eq_true _

theorem captures_fill {raw : List Char} (hraw : raw ≠ []) (parts : List Part) :
    captures parts (parts.map (·.fill raw)) = some (List.replicate (parts.count .param) raw) := by
  induction parts with
  | nil => rfl
  | cons part parts ih =>
    cases part with
    | word text =>
      rw [List.map_cons, Part.fill, captures, if_pos (sameWord_self text), ih,
        List.count_cons_of_ne (by simp)]
    | param =>
      rw [List.map_cons, Part.fill, captures, if_neg hraw, ih, List.count_cons_self,
        List.replicate_succ, Option.map_some]

theorem captures_of_apart {raw : List Char} {parts parts' : List Part}
    (h : apart parts parts' = true) (hne : ∀ s ∈ parts'.map (·.fill raw), s ≠ []) :
    captures parts (parts'.map (·.fill raw)) = none := by
  induction parts generalizing parts' with
  | nil =>
    match parts' with
    | [] => exact absurd h (by simp [apart])
    | [part] => exact if_neg (hne _ (by simp))
    | _ :: _ :: _ => rfl
  | cons part parts ih =>
    match parts' with
    | [] => cases part <;> rfl
    | part' :: parts' =>
      have hrest := fun h' => ih h' fun s hs => hne s (List.mem_cons_of_mem _ hs)
      have hhead : part'.fill raw ≠ [] := hne _ List.mem_cons_self
      rw [List.map_cons]
      match part, part' with
      | .word a, .word b =>
        rw [captures]
        split_ifs with hsame
        · have hab : sameWord a b = true := hsame
          exact hrest (by simpa [apart, hab] using h)
        · rfl
      | .word a, .param =>
        rw [captures, hrest h]
        exact ite_self none
      | .param, .word b | .param, .param =>
        rw [captures, if_neg hhead, hrest h, Option.map_none]

theorem exists_mapM_decode {raw : List (List Char)}
    (h : ∀ x ∈ raw, ∃ v, decodeURIComponent x = some v) :
    ∃ values, raw.mapM decodeURIComponent = some values := by
  induction raw with
  | nil => exact ⟨[], rfl⟩
  | cons x raw ih =>
    obtain ⟨v, hv⟩ := h x List.mem_cons_self
    obtain ⟨values, hvalues⟩ := ih fun y hy => h y (List.mem_cons_of_mem x hy)
    exact ⟨v :: values, by simp [hv, hvalues]⟩

section

variable {μ : Type} [DecidableEq μ] {table : List (Endpoint μ)} {e : Endpoint μ}
  {pre suf : List (List Char)} {v : List Char}

/-- The path of an endpoint with one parameter reaches it, if no earlier endpoint of its method
fits the path. -/
theorem dispatch_fill {raw : List Char} (hraw : raw ≠ []) (hv : decodeURIComponent raw = some v)
    (hone : e.parts.count .param = 1) (hwords : ∀ text, Part.word text ∈ e.parts → Word text)
    (he : e ∈ table) (hbefore : ∀ e' ∈ table.takeWhile (· ≠ e),
      e'.method ≠ e.method ∨ apart e'.parts e.parts = true) :
    dispatch e.method (e.parts.map (·.fill raw)) table = some (e, [v]) := by
  have hpath : ∀ s ∈ e.parts.map (·.fill raw), s ≠ [] ∧ ∃ w, decodeURIComponent s = some w := by
    intro s hs
    obtain ⟨part, hpart, rfl⟩ := List.mem_map.mp hs
    cases part with
    | word text => exact ⟨(hwords text hpart).2.1, text, (hwords text hpart).decode_eq⟩
    | param => exact ⟨hraw, v, hv⟩
  induction table with
  | nil => exact absurd he List.not_mem_nil
  | cons e' table ih =>
    rw [dispatch]
    rcases eq_or_ne e' e with rfl | hne
    · have hcaptures := captures_fill hraw e'.parts
      rw [hone] at hcaptures
      simp [hcaptures, hv]
    · rw [List.takeWhile_cons_of_pos (by simpa using hne)] at hbefore
      have hrest := ih ((List.mem_cons.mp he).resolve_left hne.symm)
        fun e'' he'' => hbefore e'' (List.mem_cons_of_mem e' he'')
      cases hcaptures : captures e'.parts (e.parts.map (·.fill raw)) with
      | none => exact hrest
      | some captured =>
        obtain ⟨values, hvalues⟩ := exists_mapM_decode fun x hx =>
          (hpath x ((captures_eq_some hcaptures).2 x hx).1).2
        rcases hbefore e' List.mem_cons_self with hmethod | hapart
        · simp only [hvalues, if_neg hmethod]
          exact hrest
        · rw [captures_of_apart hapart fun s hs => (hpath s hs).1] at hcaptures
          exact absurd hcaptures (by simp)

/-- A value that is written into a path reaches the endpoint of the path, as itself, exactly when
it is a clean segment, and has no white space at its end if it comes last. -/
theorem dispatch_path_iff (he : e ∈ table) (hbefore : ∀ e' ∈ table.takeWhile (· ≠ e),
      e'.method ≠ e.method ∨ apart e'.parts e.parts = true)
    (hparts : e.parts = pre.map .word ++ .param :: suf.map .word)
    (hpre : ∀ w ∈ pre, Word w) (hsuf : ∀ w ∈ suf, Word w) (hv : v ≠ []) :
    dispatch e.method (segments (join pre ++ '/' :: (v ++ join suf))) table = some (e, [v]) ↔
      Clean v ∧ trimmed v suf = v := by
  constructor
  · intro h
    obtain ⟨x, hx, hne, hdecode⟩ := (values_of_dispatch h).2 v (List.mem_singleton_self v)
    exact clean_of_mem_segments hpre hsuf hx hne hdecode
  · rintro ⟨hclean, htrimmed⟩
    have hwords : ∀ text, Part.word text ∈ e.parts → Word text := by
      intro text htext
      rw [hparts] at htext
      simp only [List.mem_append, List.mem_map, List.mem_cons, Part.word.injEq, reduceCtorEq,
        exists_eq_right, false_or] at htext
      exact htext.elim (hpre text) (hsuf text)
    have hkept : ∀ parts : List (List Char), (∀ w ∈ parts, Word w) →
        parts.map (percentEncode pathSet) = (parts.map Part.word).map
          (·.fill (percentEncode pathSet v)) := by
      intro parts hparts
      rw [List.map_map]
      exact List.map_congr_left fun w hw => (hparts w hw).percentEncode_eq
    have hfill : (pre ++ v :: suf).map (percentEncode pathSet) =
        e.parts.map (·.fill (percentEncode pathSet v)) := by
      rw [hparts, List.map_append, List.map_append, List.map_cons, List.map_cons, hkept pre hpre,
        hkept suf hsuf]
      rfl
    have hone : e.parts.count .param = 1 := by
      have hnone : ∀ parts : List (List Char), (parts.map Part.word).count .param = 0 := by
        intro parts
        exact List.count_eq_zero.mpr (by simp)
      rw [hparts, List.count_append, List.count_cons_self, hnone, hnone]
    have hdecode : decodeURIComponent (percentEncode pathSet v) = some v :=
      decode_percentEncode hclean.percent_notMem
    have hne : percentEncode pathSet v ≠ [] := by
      intro hnil
      rw [hnil, decode_nil] at hdecode
      exact hv (Option.some_inj.mp hdecode).symm
    rw [segments_path hpre hsuf hclean htrimmed, hfill]
    exact dispatch_fill hne hdecode hone hwords he hbefore

end

end Qoms.Routing
