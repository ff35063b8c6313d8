import Mathlib.Computability.Language
import Telemetry.Pattern.Matching

/-!
# Tables and languages

Each item of a pattern stands for a language, and a sequence of items for the
product of theirs. A table of answers for all suffixes of a text tells a
language when every answer is right. Every step that matching takes turns a
table that tells a language into one that tells the product with the language
of the item, so matching decides the language of all items.
-/

set_option autoImplicit false

namespace Telemetry.PatternTables

open Pattern

def single (p : Char → Bool) : Language Char := {u | ∃ c, u = [c] ∧ p c = true}

def inSegment : Language Char := {u | '/' ∉ u}

def atomLanguage : Atom → Language Char
  | .run => inSegment
  | .any => single (· != '/')
  | .char c => single (· == c)
  | .oneOf k => single k.holds

def atomsLanguage (atoms : List Atom) : Language Char := (atoms.map atomLanguage).prod

def itemLanguage : Item → Language Char
  | .atom a => atomLanguage a
  | .choice alternatives => (alternatives.map atomsLanguage).sum

def itemsLanguage (items : List Item) : Language Char := (items.map itemLanguage).prod

theorem mem_inSegment (u : List Char) : u ∈ inSegment ↔ '/' ∉ u := Iff.rfl

theorem mem_sum (ls : List (Language Char)) (u : List Char) :
    u ∈ ls.sum ↔ ∃ l ∈ ls, u ∈ l := by
  induction ls with
  | nil => simp
  | cons l ls ih => simp [Language.mem_add, ih]

theorem nil_mem_single_mul (p : Char → Bool) (l : Language Char) : [] ∉ single p * l := by
  rw [Language.mem_mul]
  rintro ⟨v, ⟨c, rfl, _⟩, w, _, h⟩
  cases h

theorem cons_mem_single_mul (p : Char → Bool) (l : Language Char) (c : Char) (u : List Char) :
    c :: u ∈ single p * l ↔ p c = true ∧ u ∈ l := by
  rw [Language.mem_mul]
  constructor
  · rintro ⟨v, ⟨d, rfl, hd⟩, w, hw, h⟩
    cases h
    exact ⟨hd, hw⟩
  · rintro ⟨hc, hu⟩
    exact ⟨[c], ⟨c, rfl, hc⟩, u, hu, rfl⟩

theorem nil_mem_inSegment_mul (l : Language Char) : [] ∈ inSegment * l ↔ [] ∈ l := by
  rw [Language.mem_mul]
  constructor
  · rintro ⟨v, _, w, hw, h⟩
    obtain ⟨_, rfl⟩ := List.append_eq_nil_iff.mp h
    exact hw
  · intro h
    exact ⟨[], by simp [mem_inSegment], [], h, rfl⟩

/-- A run ends here or goes on by one character other than the separator. -/
theorem cons_mem_inSegment_mul (l : Language Char) (c : Char) (u : List Char) :
    c :: u ∈ inSegment * l ↔ c :: u ∈ l ∨ c ≠ '/' ∧ u ∈ inSegment * l := by
  simp only [Language.mem_mul]
  constructor
  · rintro ⟨v, hv, w, hw, h⟩
    cases v with
    | nil => exact Or.inl (h ▸ hw)
    | cons d v =>
      cases h
      rw [mem_inSegment, List.mem_cons, not_or] at hv
      exact Or.inr ⟨Ne.symm hv.1, v, hv.2, w, hw, rfl⟩
  · rintro (h | ⟨hc, v, hv, w, hw, rfl⟩)
    · exact ⟨[], by simp [mem_inSegment], c :: u, h, rfl⟩
    · refine ⟨c :: v, ?_, w, hw, rfl⟩
      rw [mem_inSegment, List.mem_cons, not_or]
      exact ⟨Ne.symm hc, hv⟩

/-- Every answer of a table is right for its suffix. -/
inductive Tells (l : Language Char) : List Char → Table → Prop where
  | nil {b : Bool} (h : b = true ↔ [] ∈ l) : Tells l [] [b]
  | cons {c : Char} {cs : List Char} {b : Bool} {t : Table} (h : b = true ↔ c :: cs ∈ l)
      (rest : Tells l cs t) : Tells l (c :: cs) (b :: t)

theorem tells_head {l : Language Char} {cs : List Char} {t : Table} (h : Tells l cs t) :
    t.headD false = true ↔ cs ∈ l := by
  cases h with
  | nil h => exact h
  | cons h _ => exact h

theorem tells_atEnd (cs : List Char) : Tells 1 cs (atEnd cs) := by
  induction cs with
  | nil => exact .nil (by simp)
  | cons c cs ih => exact .cons (by simp [Language.mem_one]) ih

theorem tells_one {l : Language Char} {cs : List Char} {t : Table} (p : Char → Bool)
    (h : Tells l cs t) : Tells (single p * l) cs (stepOne p cs t) := by
  induction h with
  | nil h => exact .nil (by simp [nil_mem_single_mul])
  | cons _ hrest ih =>
    refine .cons ?_ ih
    rw [cons_mem_single_mul, Bool.and_eq_true, tells_head hrest]

theorem tells_run {l : Language Char} {cs : List Char} {t : Table} (h : Tells l cs t) :
    Tells (inSegment * l) cs (stepRun cs t) := by
  induction h with
  | nil h => exact .nil (h.trans (nil_mem_inSegment_mul l).symm)
  | cons h _ ih =>
    refine .cons ?_ ih
    rw [cons_mem_inSegment_mul, Bool.or_eq_true, Bool.and_eq_true, h, tells_head ih,
      bne_iff_ne]

theorem tells_union {l m : Language Char} {cs : List Char} {s t : Table} (hs : Tells l cs s)
    (ht : Tells m cs t) : Tells (l + m) cs (union s t) := by
  induction hs generalizing t with
  | nil h =>
    cases ht with
    | nil h' => exact .nil (by rw [Bool.or_eq_true, h, h', Language.mem_add])
  | cons h _ ih =>
    cases ht with
    | cons h' hrest => exact .cons (by rw [Bool.or_eq_true, h, h', Language.mem_add]) (ih hrest)

theorem tells_none {l : Language Char} {cs : List Char} {t : Table} (h : Tells l cs t) :
    Tells 0 cs (t.map fun _ => false) := by
  induction h with
  | nil _ => exact .nil (by simp)
  | cons _ _ ih => exact .cons (by simp) ih

theorem tells_atom {l : Language Char} {cs : List Char} {t : Table} (a : Atom)
    (h : Tells l cs t) : Tells (atomLanguage a * l) cs (a.step cs t) := by
  cases a with
  | run => exact tells_run h
  | any => exact tells_one _ h
  | char c => exact tells_one _ h
  | oneOf k => exact tells_one _ h

theorem tells_atoms {l : Language Char} {cs : List Char} {t : Table} (atoms : List Atom)
    (h : Tells l cs t) : Tells (atomsLanguage atoms * l) cs (atomsTable atoms cs t) := by
  induction atoms with
  | nil => simpa [atomsLanguage, atomsTable] using h
  | cons a atoms ih =>
    rw [atomsLanguage, List.map_cons, List.prod_cons, mul_assoc]
    exact tells_atom a ih

theorem tells_item {l : Language Char} {cs : List Char} {t : Table} (i : Item)
    (h : Tells l cs t) : Tells (itemLanguage i * l) cs (i.step cs t) := by
  cases i with
  | atom a => exact tells_atom a h
  | choice alternatives =>
    rw [itemLanguage, Item.step]
    induction alternatives with
    | nil => simpa using tells_none h
    | cons atoms rest ih =>
      rw [List.map_cons, List.sum_cons, add_mul]
      exact tells_union (tells_atoms atoms h) ih

theorem tells_items (items : List Item) (cs : List Char) :
    Tells (itemsLanguage items) cs (itemsTable items cs) := by
  induction items with
  | nil => exact tells_atEnd cs
  | cons i items ih =>
    rw [itemsLanguage, List.map_cons, List.prod_cons]
    exact tells_item i ih

theorem accepts_iff (items : List Item) (cs : List Char) :
    accepts items cs = true ↔ cs ∈ itemsLanguage items :=
  tells_head (tells_items items cs)

end Telemetry.PatternTables
