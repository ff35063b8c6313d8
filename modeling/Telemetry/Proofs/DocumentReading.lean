import Telemetry.Proofs.WrittenNumbers

/-!
# Reading a written document

A written document is read back as the document it was written from, up to
its numbers: they come back as the reader of numbers takes them, a double that
is not finite comes back as null, and so does what has no value. Nothing is
assumed of the document, of its strings or of the reader of numbers.
-/

set_option autoImplicit false

namespace Telemetry.Json

open WrittenNumbers

def lettered : List Char := ['\x08', '\x0c', '\n', '\r', '\t']

def piece (c : Char) : Piece :=
  if c.toNat < 32 ∧ c ∉ lettered then .unit c.toNat else .char c

theorem hexValue_hexDigit {n : ℕ} (h : n < 16) : hexValue (hexDigit n) = some n := by
  interval_cases n <;> rfl

theorem pieces_plain {c : Char} {cs : List Char} (hc : 32 ≤ c.toNat) (hquote : c ≠ '"')
    (hslash : c ≠ '\\') :
    pieces (c :: cs) = (pieces cs).map fun (ps, rest) => (.char c :: ps, rest) := by
  rw [pieces.eq_def]
  split <;> simp_all

theorem pieces_letter {e c : Char} {cs : List Char} (h : escaped e = some c) :
    pieces ('\\' :: e :: cs) = (pieces cs).map fun (ps, rest) => (.char c :: ps, rest) := by
  have hu : e ≠ 'u' := by
    intro heq
    subst heq
    cases h
  rw [pieces.eq_def]
  split
  case h_5 hno hcons =>
    obtain ⟨rfl, rfl⟩ := List.cons.inj hcons
    exact absurd rfl (hno e cs rfl)
  all_goals simp_all

theorem pieces_unit {n : ℕ} {cs : List Char} (h : n < 32) :
    pieces ('\\' :: 'u' :: '0' :: '0' :: hexDigit (n / 16) :: hexDigit (n % 16) :: cs) =
      (pieces cs).map fun (ps, rest) => (.unit n :: ps, rest) := by
  have hhigh := hexValue_hexDigit (n := n / 16) (by omega)
  have hlow := hexValue_hexDigit (n := n % 16) (by omega)
  have hzero : hexValue '0' = some 0 := rfl
  have hvalue : ((0 * 16 + 0) * 16 + n / 16) * 16 + n % 16 = n := by omega
  rw [pieces, hzero, hhigh, hlow]
  simp only [hvalue]

theorem piece_char {c : Char} (h : 32 ≤ c.toNat) : piece c = .char c := by
  unfold piece
  rw [if_neg]
  intro hsmall
  omega

theorem pieces_escape (c : Char) (cs : List Char) :
    pieces (escape c ++ cs) = (pieces cs).map fun (ps, rest) => (piece c :: ps, rest) := by
  unfold escape
  -- the quote, the backslash and the control characters that have a letter
  iterate 7
    split
    · subst c
      exact pieces_letter rfl
  rename_i hquote hslash hb hf hn hr ht
  split
  · rename_i hsmall
    have hpiece : piece c = .unit c.toNat := if_pos ⟨hsmall, by simp [lettered, *]⟩
    rw [hpiece]
    exact pieces_unit hsmall
  · rename_i hlarge
    rw [piece_char (Nat.not_lt.mp hlarge)]
    exact pieces_plain (Nat.not_lt.mp hlarge) hquote hslash

/-- The closing quote is found behind the last character of the string. -/
theorem pieces_string (cs rest : List Char) :
    pieces (cs.flatMap escape ++ '"' :: rest) = some (cs.map piece, rest) := by
  induction cs with
  | nil => rfl
  | cons c cs ih =>
    rw [List.flatMap_cons, List.append_assoc, pieces_escape, ih]
    rfl

theorem joinPieces_piece (cs : List Char) : joinPieces (cs.map piece) = some cs := by
  induction cs with
  | nil => rfl
  | cons c cs ih =>
    rw [List.map_cons, piece]
    split
    · rename_i h
      rw [joinPieces.eq_def]
      dsimp only
      rw [if_pos (by omega), ih, Option.map_some, Char.ofNat_toNat]
    · rw [joinPieces, ih, Option.map_some]

theorem readString_chars (s : String) (rest : List Char) :
    readString (s.toList.flatMap escape ++ '"' :: rest) = some (some s, rest) := by
  unfold readString
  rw [pieces_string, Option.map_some]
  dsimp only
  rw [joinPieces_piece, Option.map_some, String.ofList_toList]

section

variable (read : Number → Json)

mutual

def reread : Json → Json
  | .null => .null
  | .bool b => .bool b
  | .int n => read (ofInt n)
  | .float x => if x.isFinite then read (ofFloat x) else .null
  | .string s => .string s
  | .array elements => .array (rereadElements elements)
  | .object members => .object (rereadMembers members)
  | .unreadable => .null

def rereadElements : List Json → List Json
  | [] => []
  | e :: es => e.reread :: rereadElements es

def rereadMembers : List (String × Json) → List (String × Json)
  | [] => []
  | (k, v) :: ms => (k, v.reread) :: rereadMembers ms

end

theorem rereadElements_map (es : List Json) : rereadElements read es = es.map (reread read) := by
  induction es with
  | nil => rfl
  | cons e es ih => rw [rereadElements, ih, List.map_cons]

theorem rereadMembers_texts (l : List (String × String)) :
    rereadMembers read (l.map fun (k, v) => (k, .string v)) =
      l.map fun (k, v) => (k, .string v) := by
  induction l with
  | nil => rfl
  | cons e l ih => rw [List.map_cons, rereadMembers, ih, reread]

def Closed (rest : List Char) : Prop :=
  ∀ c ∈ rest.head?, c ∈ [',', ']', '\x7d']

theorem Closed.stops {rest : List Char} (h : Closed rest) : Stops rest := by
  intro c hc
  have hmem := h c hc
  simp only [List.mem_cons, List.not_mem_nil, or_false] at hmem
  rcases hmem with rfl | rfl | rfl <;> decide

theorem closed_cons {c : Char} {rest : List Char} (h : c ∈ [',', ']', '\x7d']) :
    Closed (c :: rest) := by
  intro d hd
  cases hd
  exact h

theorem skipSpace_cons {c : Char} {cs : List Char} (h : isSpace c = false) :
    skipSpace (c :: cs) = c :: cs :=
  List.dropWhile_cons_of_neg (by simp [h])

theorem isSpace_digit {c : Char} (h : Text.isDigit c = true) : isSpace c = false := by
  apply Bool.eq_false_iff.mpr
  intro hspace
  simp only [isSpace, Bool.or_eq_true, beq_iff_eq] at hspace
  rcases hspace with ((rfl | rfl) | rfl) | rfl <;> revert h <;> decide

theorem digit_cases {c : Char} (h : Text.isDigit c = true) :
    c ≠ '"' ∧ c ≠ '-' ∧ c ≠ '[' ∧ c ≠ ']' ∧ c ≠ '\x7b' ∧ c ≠ 't' ∧ c ≠ 'f' ∧ c ≠ 'n' := by
  refine ⟨?_, ?_, ?_, ?_, ?_, ?_, ?_, ?_⟩
  all_goals
    rintro rfl
    revert h
    decide

theorem value_digit {c : Char} (h : Text.isDigit c = true) (fuel : ℕ) (cs : List Char) :
    value read (fuel + 1) (c :: cs) = readNumber read false (c :: cs) := by
  have hno := digit_cases h
  rw [value, skipSpace_cons (isSpace_digit h)]
  split <;> simp_all

theorem value_number {n : Number} {rest : List Char} (h : Proper n) (hrest : Stops rest)
    (fuel : ℕ) : value read (fuel + 1) (signed n ++ rest) = some (read n, rest) := by
  have hread := readNumber_magnitude read h hrest
  unfold signed
  cases hn : n.negative with
  | true =>
    rw [hn] at hread
    rw [if_pos rfl, List.cons_append, value, skipSpace_cons (by decide)]
    exact hread
  | false =>
    rw [hn] at hread
    obtain ⟨c, tail, hhead, hc⟩ := magnitude_head h
    rw [hhead] at hread
    rw [if_neg (by decide), hhead]
    exact (value_digit read hc fuel _).trans hread

theorem skipSpace_string (s : String) (cs : List Char) :
    skipSpace (stringChars s.toList ++ cs) = '"' :: (s.toList.flatMap escape ++ '"' :: cs) := by
  unfold stringChars
  rw [List.cons_append, List.cons_append, List.append_assoc, List.singleton_append]
  exact skipSpace_cons (by decide)

theorem value_string (s : String) (rest : List Char) (fuel : ℕ) :
    value read (fuel + 1) (stringChars s.toList ++ rest) = some (.string s, rest) := by
  rw [value, skipSpace_string]
  simp only [readString_chars]

theorem value_null (rest : List Char) (fuel : ℕ) :
    value read (fuel + 1) ("null".toList ++ rest) = some (.null, rest) := rfl

theorem value_bool (b : Bool) (rest : List Char) (fuel : ℕ) :
    value read (fuel + 1) ((Json.bool b).chars ++ rest) = some (.bool b, rest) := by
  cases b <;> rfl

def Opens (c : Char) : Prop := isSpace c = false ∧ c ≠ ']'

theorem signed_head {n : Number} (h : Proper n) : ∃ c tail, signed n = c :: tail ∧ Opens c := by
  unfold signed
  split
  · exact ⟨'-', magnitude n, rfl, by decide, by decide⟩
  · obtain ⟨c, tail, hhead, hc⟩ := magnitude_head h
    exact ⟨c, tail, hhead, isSpace_digit hc, (digit_cases hc).2.2.2.1⟩

theorem floatChars_eq (x : Float) :
    floatChars x = if x.isFinite then signed (ofFloat x) else "null".toList := by
  rw [floatChars, documentText_chars]

theorem chars_head (j : Json) : ∃ c tail, j.chars = c :: tail ∧ Opens c := by
  cases j with
  | null => exact ⟨'n', _, rfl, by decide, by decide⟩
  | bool b =>
    cases b
    · exact ⟨'f', _, rfl, by decide, by decide⟩
    · exact ⟨'t', _, rfl, by decide, by decide⟩
  | int n =>
    rw [chars, intText_chars]
    exact signed_head (ofInt_proper n)
  | float x =>
    rw [chars, floatChars_eq]
    split
    · exact signed_head (ofFloat_proper x)
    · exact ⟨'n', _, rfl, by decide, by decide⟩
  | string s => exact ⟨'"', _, rfl, by decide, by decide⟩
  | array elements => exact ⟨'[', _, rfl, by decide, by decide⟩
  | object members => exact ⟨'\x7b', _, rfl, by decide, by decide⟩
  | unreadable => exact ⟨'n', _, rfl, by decide, by decide⟩

theorem elementsChars_head (e : Json) (es : List Json) :
    ∃ c tail, elementsChars (e :: es) = c :: tail ∧ Opens c := by
  obtain ⟨c, tail, hhead, hopens⟩ := chars_head e
  cases es with
  | nil => exact ⟨c, tail ++ [']'], by rw [elementsChars, hhead, List.cons_append], hopens⟩
  | cons next es =>
    exact ⟨c, tail ++ ',' :: elementsChars (next :: es),
      by rw [elementsChars, hhead, List.cons_append], hopens⟩

theorem membersChars_head (m : String × Json) (ms : List (String × Json)) :
    ∃ tail, membersChars (m :: ms) = '"' :: tail := by
  cases ms with
  | nil => exact ⟨_, rfl⟩
  | cons next ms => exact ⟨_, rfl⟩

theorem value_array {c : Char} (h : Opens c) (fuel : ℕ) (cs : List Char) :
    value read (fuel + 1) ('[' :: c :: cs) =
      (elements read fuel (c :: cs)).map fun (es, rest) => (.array es, rest) := by
  have hbracket : skipSpace ('[' :: c :: cs) = '[' :: c :: cs := skipSpace_cons (by decide)
  rw [value, hbracket]
  simp only [skipSpace_cons h.1]
  split
  · rename_i heq
    exact absurd (List.cons.inj heq).1 h.2
  · rfl

theorem value_object {fuel : ℕ} {cs rest : List Char} {ms : List (String × Json)}
    (h : members read fuel ('"' :: cs) = some (some ms, rest)) :
    value read (fuel + 1) ('\x7b' :: '"' :: cs) = some (.object ms, rest) := by
  have hbrace : skipSpace ('\x7b' :: '"' :: cs) = '\x7b' :: '"' :: cs := rfl
  have hquote : skipSpace ('"' :: cs) = '"' :: cs := rfl
  rw [value, hbrace]
  simp only [hquote]
  split
  · rename_i heq
    exact absurd (List.cons.inj heq).1 (by decide)
  · rw [h, Option.map_some]

variable {read} {fuel : ℕ} {cs rest : List Char} {v : Json}

theorem elements_last (h : value read fuel cs = some (v, ']' :: rest)) :
    elements read (fuel + 1) cs = some ([v], rest) := by
  rw [elements, h]
  rfl

theorem elements_next (h : value read fuel cs = some (v, ',' :: rest)) :
    elements read (fuel + 1) cs =
      (elements read fuel rest).map fun (es, rest) => (v :: es, rest) := by
  rw [elements, h]
  rfl

theorem members_last (k : String) (h : value read fuel cs = some (v, '\x7d' :: rest)) :
    members read (fuel + 1) (stringChars k.toList ++ ':' :: cs) = some (some [(k, v)], rest) := by
  have hcolon : skipSpace (':' :: cs) = ':' :: cs := rfl
  have hend : skipSpace ('\x7d' :: rest) = '\x7d' :: rest := rfl
  rw [members, skipSpace_string]
  simp only [readString_chars, hcolon, h, hend, Option.map_some]

theorem members_next (k : String) {ms : List (String × Json)} {behind : List Char}
    (h : value read fuel cs = some (v, ',' :: rest))
    (hms : members read fuel rest = some (some ms, behind)) :
    members read (fuel + 1) (stringChars k.toList ++ ':' :: cs) =
      some (some ((k, v) :: ms), behind) := by
  have hcolon : skipSpace (':' :: cs) = ':' :: cs := rfl
  have hcomma : skipSpace (',' :: rest) = ',' :: rest := rfl
  rw [members, skipSpace_string]
  simp only [readString_chars, hcolon, h, hcomma, hms, Option.map_some]

variable (read)

mutual

/-- The invariant of reading: a written value is read up to its end, whatever
comes behind it. Every value takes no more fuel than it has characters. -/
theorem value_chars : ∀ (j : Json) (fuel : ℕ) (rest : List Char), j.chars.length ≤ fuel →
    Closed rest → value read fuel (j.chars ++ rest) = some (j.reread read, rest)
  | j, 0, rest, hfuel, _ => by
    obtain ⟨c, tail, hhead, -⟩ := chars_head j
    simp [hhead] at hfuel
  | .null, fuel + 1, rest, _, _ => value_null read rest fuel
  | .bool b, fuel + 1, rest, _, _ => value_bool read b rest fuel
  | .int n, fuel + 1, rest, _, hrest => by
    rw [chars, intText_chars]
    exact value_number read (ofInt_proper n) hrest.stops fuel
  | .float x, fuel + 1, rest, _, hrest => by
    rw [chars, floatChars_eq, reread]
    split
    · exact value_number read (ofFloat_proper x) hrest.stops fuel
    · exact value_null read rest fuel
  | .string s, fuel + 1, rest, _, _ => value_string read s rest fuel
  | .array [], fuel + 1, rest, _, _ => rfl
  | .array (e :: es), fuel + 1, rest, hfuel, _ => by
    obtain ⟨c, tail, hhead, hopens⟩ := elementsChars_head e es
    have hes := elements_chars e es fuel rest (Nat.le_of_succ_le_succ hfuel)
    rw [hhead] at hes
    rw [chars, hhead]
    exact (value_array read hopens fuel _).trans (congrArg _ hes)
  | .object [], fuel + 1, rest, _, _ => rfl
  | .object (m :: ms), fuel + 1, rest, hfuel, _ => by
    obtain ⟨tail, hhead⟩ := membersChars_head m ms
    have hms := members_chars m ms fuel rest (Nat.le_of_succ_le_succ hfuel)
    rw [hhead] at hms
    rw [chars, hhead]
    exact value_object read hms
  | .unreadable, fuel + 1, rest, _, _ => value_null read rest fuel

theorem elements_chars : ∀ (e : Json) (es : List Json) (fuel : ℕ) (rest : List Char),
    (elementsChars (e :: es)).length ≤ fuel →
    elements read fuel (elementsChars (e :: es) ++ rest) =
      some (rereadElements read (e :: es), rest)
  | e, es, 0, rest, hfuel => by
    obtain ⟨c, tail, hhead, -⟩ := elementsChars_head e es
    simp [hhead] at hfuel
  | e, [], fuel + 1, rest, hfuel => by
    rw [elementsChars, List.length_append] at hfuel
    have hvalue := value_chars e fuel (']' :: rest) (Nat.le_of_succ_le_succ hfuel)
      (closed_cons (by decide))
    rw [elementsChars, List.append_assoc, List.singleton_append, elements_last hvalue]
    rfl
  | e, next :: es, fuel + 1, rest, hfuel => by
    rw [elementsChars, List.length_append, List.length_cons] at hfuel
    have hvalue := value_chars e fuel (',' :: (elementsChars (next :: es) ++ rest)) (by omega)
      (closed_cons (by decide))
    have hes := elements_chars next es fuel rest (by omega)
    rw [elementsChars, List.append_assoc, List.cons_append, elements_next hvalue, hes]
    rfl

theorem members_chars : ∀ (m : String × Json) (ms : List (String × Json)) (fuel : ℕ)
    (rest : List Char), (membersChars (m :: ms)).length ≤ fuel →
    members read fuel (membersChars (m :: ms) ++ rest) =
      some (some (rereadMembers read (m :: ms)), rest)
  | m, ms, 0, rest, hfuel => by
    obtain ⟨tail, hhead⟩ := membersChars_head m ms
    simp [hhead] at hfuel
  | (k, v), [], fuel + 1, rest, hfuel => by
    rw [membersChars] at hfuel ⊢
    simp only [List.length_append, List.length_cons] at hfuel
    have hvalue := value_chars v fuel ('\x7d' :: rest) (by omega) (closed_cons (by decide))
    rw [List.append_assoc, List.append_assoc, List.cons_append, List.singleton_append,
      members_last k hvalue]
    rfl
  | (k, v), next :: ms, fuel + 1, rest, hfuel => by
    rw [membersChars] at hfuel ⊢
    simp only [List.length_append, List.length_cons] at hfuel
    have hvalue := value_chars v fuel (',' :: (membersChars (next :: ms) ++ rest)) (by omega)
      (closed_cons (by decide))
    have hms := members_chars next ms fuel rest (by omega)
    rw [List.append_assoc, List.append_assoc, List.cons_append, List.cons_append,
      members_next k hvalue hms]
    rfl

end

theorem parseWith_text (j : Json) : parseWith read j.text = some (j.reread read) := by
  have hvalue := value_chars read j (2 * j.chars.length + 2) [] (by omega) (fun _ h => by cases h)
  rw [List.append_nil] at hvalue
  unfold parseWith text
  rw [String.toList_ofList]
  dsimp only
  rw [hvalue]
  rfl

end

end Telemetry.Json
