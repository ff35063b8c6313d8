import Telemetry.Proofs.PatternPieces

/-!
# The grammar of pattern texts

Which texts are patterns can be said without reading them: a text is a
sequence of items, an item is a character, an operator, an escape, a class or
braces, the ranges of a class go upwards, and the parts of braces are sequences
without braces. Compiling a text accepts it exactly when it is of this form and
not empty, as long as none of its classes has two dashes next to each other.
-/

set_option autoImplicit false

namespace Telemetry.PatternGrammar

open Pattern PatternLanguage PatternReading PatternPieces

/-- No range of the letters runs backwards; a dash between two letters makes a
range of them, ranges being read from the left. -/
def Rising : List Letter → Prop
  | x :: m :: y :: rest =>
    if m.isDash then x.char ≤ y.char ∧ Rising rest else Rising (m :: y :: rest)
  | _ => True

inductive PlainItem : List Char → Prop where
  | star : PlainItem ['*']
  | any : PlainItem ['?']
  | escape (c : Char) : PlainItem ['\\', c]
  | listed {ls : List Letter} (plain : ∀ l ∈ ls, l.Plain) (some : ls ≠ [])
      (unsigned : ∀ l ∈ ls.head?, l.isSign = false) (rising : Rising ls) :
      PlainItem ('[' :: (spell ls ++ [']']))
  | unlisted {sign : Char} {ls : List Letter} (plain : ∀ l ∈ ls, l.Plain) (some : ls ≠ [])
      (signed : sign = '!' ∨ sign = '^') (rising : Rising ls) :
      PlainItem ('[' :: sign :: (spell ls ++ [']']))
  | other {c : Char} (h : c ∉ ['*', '?', '[', '{', '\\']) : PlainItem [c]

inductive Sequence (item : List Char → Prop) : List Char → Prop where
  | nil : Sequence item []
  | cons {piece text : List Char} (h : item piece) (rest : Sequence item text) :
      Sequence item (piece ++ text)

inductive AnyItem : List Char → Prop where
  | plain {piece : List Char} (h : PlainItem piece) : AnyItem piece
  | braces {parts : List (List Char)} (bare : ∀ q ∈ parts, Bare q)
      (some : parts ≠ []) (each : ∀ q ∈ parts, Sequence PlainItem q) :
      AnyItem ('{' :: (Text.join ',' parts ++ ['}']))

/-- The letters of every class of a text; the letters so far are given inside
of brackets. Brackets that are never closed are no class. -/
def classesFrom : Option (List Letter) → List Char → List (List Letter)
  | _, [] => []
  | none, '\\' :: _ :: cs => classesFrom none cs
  | none, '[' :: cs => classesFrom (some []) cs
  | none, _ :: cs => classesFrom none cs
  | some ls, ']' :: cs => ls :: classesFrom none cs
  | some ls, '\\' :: c :: cs => classesFrom (some (ls ++ [⟨c, true⟩])) cs
  | some ls, c :: cs => classesFrom (some (ls ++ [⟨c, false⟩])) cs

def classes (text : List Char) : List (List Letter) := classesFrom none text

def Sparse (text : List Char) : Prop := ∀ ls ∈ classes text, crowded false ls = false

instance (text : List Char) : Decidable (Sparse text) := inferInstanceAs (Decidable (∀ _ ∈ _, _))

def Splits (text : List Char) : Prop :=
  ∀ tail, classes (text ++ tail) = classes text ++ classes tail

theorem splits_nil : Splits [] := fun _ => rfl

theorem splits_append {p q : List Char} (hp : Splits p) (hq : Splits q) : Splits (p ++ q) := by
  intro tail
  rw [List.append_assoc, hp, hq, hp, List.append_assoc]

theorem classes_char {c : Char} (hb : c ≠ '[') (he : c ≠ '\\') (tail : List Char) :
    classes (c :: tail) = classes tail := by
  rw [classes, classesFrom, ← classes]
  all_goals simp_all

theorem splits_char {c : Char} (hb : c ≠ '[') (he : c ≠ '\\') : Splits [c] := by
  intro tail
  rw [List.singleton_append, classes_char hb he, classes_char hb he]
  rfl

theorem splits_escape (c : Char) : Splits ['\\', c] := fun _ => rfl

theorem classesFrom_spell {ls : List Letter} (plain : ∀ l ∈ ls, l.Plain) (front : List Letter)
    (tail : List Char) :
    classesFrom (some front) (spell ls ++ ']' :: tail) = (front ++ ls) :: classes tail := by
  induction ls generalizing front with
  | nil => rw [List.append_nil]; rfl
  | cons l ls ih =>
    have hrest := ih (fun m hm => plain m (List.mem_cons_of_mem l hm)) (front ++ [l])
    rw [List.append_assoc, List.singleton_append] at hrest
    rw [spell, List.flatMap_cons, List.append_assoc, ← hrest]
    obtain ⟨c, escaped⟩ := l
    rcases text_append (plain _ List.mem_cons_self) (ls.flatMap Letter.text ++ ']' :: tail) with
      ⟨rfl, ht⟩ | ⟨rfl, hb, hs, ht⟩
    · rw [ht]
      rfl
    · rw [ht, classesFrom]
      · rfl
      all_goals simp_all

theorem classes_brackets {ls : List Letter} (plain : ∀ l ∈ ls, l.Plain) (tail : List Char) :
    classes ('[' :: (spell ls ++ ']' :: tail)) = ls :: classes tail := by
  rw [classes, classesFrom, classesFrom_spell plain, List.nil_append]

theorem splits_brackets {ls : List Letter} (plain : ∀ l ∈ ls, l.Plain) :
    Splits ('[' :: (spell ls ++ [']'])) := by
  intro tail
  rw [List.cons_append, List.append_assoc, List.singleton_append, classes_brackets plain,
    classes_brackets plain]
  rfl

theorem splits_spells {piece : List Char} {a : Atom} (h : Spells piece a) : Splits piece := by
  cases h with
  | run => exact splits_char (by decide) (by decide)
  | any => exact splits_char (by decide) (by decide)
  | escape c => exact splits_escape c
  | listed plain _ _ => exact splits_brackets plain
  | unlisted plain _ signed => exact splits_brackets (plain_cons (sign_letter signed).1 plain)
  | other h =>
    simp only [List.mem_cons, not_or] at h
    exact splits_char h.2.2.2.1 h.2.2.1

theorem splits_cut {α : Type} {spells : List Char → α → Prop} {text : List Char} {xs : List α}
    (hspells : ∀ piece x, spells piece x → Splits piece) (h : Cut spells text xs) :
    Splits text := by
  induction h with
  | nil => exact splits_nil
  | cons h _ ih => exact splits_append (hspells _ _ h) ih

theorem classes_join {parts : List (List Char)} (h : ∀ q ∈ parts, Splits q) (tail : List Char) :
    classes (Text.join ',' parts ++ tail) = parts.flatMap classes ++ classes tail := by
  induction parts with
  | nil => rfl
  | cons part parts ih =>
    have hpart := h part List.mem_cons_self
    have hrest := ih fun q hq => h q (List.mem_cons_of_mem part hq)
    cases parts with
    | nil =>
      rw [Text.join, hpart]
      simp
    | cons next parts =>
      rw [Text.join, List.append_assoc, hpart, List.cons_append,
        classes_char (by decide) (by decide), hrest, ← List.append_assoc]
      rfl

theorem classes_braces {parts : List (List Char)} (h : ∀ q ∈ parts, Splits q)
    (tail : List Char) :
    classes ('{' :: (Text.join ',' parts ++ '}' :: tail)) =
      parts.flatMap classes ++ classes tail := by
  rw [classes_char (by decide) (by decide), classes_join h, classes_char (by decide) (by decide)]

theorem splits_parts {parts : List (List Char)} {choices : List (List Atom)}
    (h : List.Forall₂ (Cut Spells) parts choices) : ∀ q ∈ parts, Splits q :=
  ((List.forall₂_and_left _ _).mp
    (h.imp fun _ _ hpart => ⟨splits_cut (fun _ _ => splits_spells) hpart, hpart⟩)).1

theorem splits_spellsItem {piece : List Char} {i : Item} (h : SpellsItem piece i) :
    Splits piece := by
  cases h with
  | atom h => exact splits_spells h
  | choice _ _ h =>
    intro tail
    rw [List.cons_append, List.append_assoc, List.singleton_append,
      classes_braces (splits_parts h), classes_braces (splits_parts h)]
    simp [classes, classesFrom]

theorem sparse_append {p q : List Char} (hp : Splits p) :
    Sparse (p ++ q) ↔ Sparse p ∧ Sparse q := by
  unfold Sparse
  rw [hp]
  exact List.forall_mem_append

theorem rising_iff (ls : List Letter) :
    (spelled ls).all (·.ordered) = true ↔ Rising ls := by
  fun_induction spelled ls with
  | case1 => exact iff_of_true rfl trivial
  | case2 x m y rest hm ih =>
    rw [List.all_cons, Bool.and_eq_true, ih, Rising, if_pos hm, Member.ordered,
      decide_eq_true_iff]
  | case3 x m y rest hm ih =>
    rw [List.all_cons, Member.ordered, Bool.true_and, ih, Rising, if_neg hm]
  | case4 x rest hshort ih =>
    rw [List.all_cons, Member.ordered, Bool.true_and, ih]
    cases rest with
    | nil => exact Iff.rfl
    | cons m rest =>
      cases rest with
      | nil => exact Iff.rfl
      | cons y rest => exact (hshort m y rest rfl).elim

/-- The class that letters make is ordered when its ranges rise. -/
theorem ofTokens_ordered {ls : List Letter} (h : crowded false ls = false) (negated : Bool) :
    (CharClass.ofTokens negated (tokens false ls)).ordered = true ↔ Rising ls := by
  rw [ofTokens_spelled h, CharClass.ordered, List.all_nil, Bool.and_true, rising_iff]

theorem uncrowded_brackets {ls : List Letter} (plain : ∀ l ∈ ls, l.Plain)
    (hs : Sparse ('[' :: (spell ls ++ [']']))) : crowded false ls = false := by
  refine hs ls ?_
  rw [classes_brackets plain []]
  exact List.mem_cons_self

theorem uncrowded_signed {sign : Char} {ls : List Letter} (plain : ∀ l ∈ ls, l.Plain)
    (signed : sign = '!' ∨ sign = '^') (hs : Sparse ('[' :: sign :: (spell ls ++ [']']))) :
    crowded false ls = false := by
  have hall := uncrowded_brackets (plain_cons (sign_letter signed).1 plain) hs
  rw [crowded, Bool.or_eq_false_iff] at hall
  exact crowded_false hall.2

theorem spells_plainItem {piece : List Char} {a : Atom} (h : Spells piece a)
    (ho : a.ordered = true) (hs : Sparse piece) : PlainItem piece := by
  cases h with
  | run => exact .star
  | any => exact .any
  | escape c => exact .escape c
  | listed plain some unsigned =>
    exact .listed plain some unsigned
      ((ofTokens_ordered (uncrowded_brackets plain hs) false).mp ho)
  | unlisted plain some signed =>
    exact .unlisted plain some signed
      ((ofTokens_ordered (uncrowded_signed plain signed hs) true).mp ho)
  | other h =>
    simp only [List.mem_cons, not_or] at h
    exact .other (by simp [h])

theorem plainItem_spells {piece : List Char} (h : PlainItem piece) :
    ∃ a, Spells piece a ∧ (Sparse piece → a.ordered = true) := by
  cases h with
  | star => exact ⟨_, .run, fun _ => rfl⟩
  | any => exact ⟨_, .any, fun _ => rfl⟩
  | escape c => exact ⟨_, .escape c, fun _ => rfl⟩
  | listed plain some unsigned rising =>
    exact ⟨_, .listed plain some unsigned, fun hs =>
      (ofTokens_ordered (uncrowded_brackets plain hs) false).mpr rising⟩
  | unlisted plain some signed rising =>
    exact ⟨_, .unlisted plain some signed, fun hs =>
      (ofTokens_ordered (uncrowded_signed plain signed hs) true).mpr rising⟩
  | other h =>
    simp only [List.mem_cons, not_or] at h
    exact ⟨_, .other (by simp [h]), fun _ => rfl⟩

section Sequences

variable {α : Type} {spells : List Char → α → Prop} (ordered : α → Bool)
  {item : List Char → Prop} {text : List Char} {xs : List α}

theorem cut_sequence (hsplits : ∀ piece x, spells piece x → Splits piece)
    (hitem : ∀ piece x, spells piece x → ordered x = true → Sparse piece → item piece)
    (h : Cut spells text xs) (ho : xs.all ordered = true) (hs : Sparse text) :
    Sequence item text := by
  induction h with
  | nil => exact .nil
  | cons hpiece _ ih =>
    rw [List.all_cons, Bool.and_eq_true] at ho
    rw [sparse_append (hsplits _ _ hpiece)] at hs
    exact .cons (hitem _ _ hpiece ho.1 hs.1) (ih ho.2 hs.2)

theorem sequence_cut (hsplits : ∀ piece x, spells piece x → Splits piece)
    (hspells : ∀ piece, item piece → ∃ x, spells piece x ∧ (Sparse piece → ordered x = true))
    (h : Sequence item text) :
    ∃ xs, Cut spells text xs ∧ (Sparse text → xs.all ordered = true) := by
  induction h with
  | nil => exact ⟨[], .nil, fun _ => rfl⟩
  | cons hpiece _ ih =>
    obtain ⟨x, hx, hone⟩ := hspells _ hpiece
    obtain ⟨xs, hxs, hall⟩ := ih
    refine ⟨x :: xs, .cons hx hxs, fun hs => ?_⟩
    rw [sparse_append (hsplits _ _ hx)] at hs
    rw [List.all_cons, hone hs.1, hall hs.2]
    rfl

end Sequences

theorem parts_sequence {parts : List (List Char)} {choices : List (List Atom)}
    (h : List.Forall₂ (Cut Spells) parts choices)
    (ho : choices.all (·.all (·.ordered)) = true) (hs : ∀ q ∈ parts, Sparse q) :
    ∀ q ∈ parts, Sequence PlainItem q := by
  induction h with
  | nil => simp
  | cons hpart _ ih =>
    rw [List.all_cons, Bool.and_eq_true] at ho
    intro q hq
    rcases List.mem_cons.mp hq with rfl | hq
    · exact cut_sequence Atom.ordered (fun _ _ => splits_spells) (fun _ _ => spells_plainItem)
        hpart ho.1 (hs q List.mem_cons_self)
    · exact ih ho.2 (fun q hq => hs q (List.mem_cons_of_mem _ hq)) q hq

theorem sequence_parts {parts : List (List Char)} (h : ∀ q ∈ parts, Sequence PlainItem q) :
    ∃ choices, List.Forall₂ (Cut Spells) parts choices ∧
      ((∀ q ∈ parts, Sparse q) → choices.all (·.all (·.ordered)) = true) := by
  induction parts with
  | nil => exact ⟨[], .nil, fun _ => rfl⟩
  | cons part parts ih =>
    obtain ⟨atoms, hatoms, hone⟩ := sequence_cut Atom.ordered (fun _ _ => splits_spells)
      (fun _ => plainItem_spells) (h part List.mem_cons_self)
    obtain ⟨choices, hchoices, hall⟩ := ih fun q hq => h q (List.mem_cons_of_mem part hq)
    refine ⟨atoms :: choices, .cons hatoms hchoices, fun hs => ?_⟩
    rw [List.all_cons, hone (hs part List.mem_cons_self),
      hall fun q hq => hs q (List.mem_cons_of_mem part hq)]
    rfl

theorem sparse_braces {parts : List (List Char)} (h : ∀ q ∈ parts, Splits q) :
    Sparse ('{' :: (Text.join ',' parts ++ ['}'])) ↔ ∀ q ∈ parts, Sparse q := by
  unfold Sparse
  rw [classes_braces h []]
  simp only [List.mem_append, List.mem_flatMap]
  constructor
  · intro hs q hq ls hls
    exact hs ls (Or.inl ⟨q, hq, hls⟩)
  · rintro hs ls (⟨q, hq, hls⟩ | hls)
    · exact hs q hq ls hls
    · cases hls

theorem spellsItem_anyItem {piece : List Char} {i : Item} (h : SpellsItem piece i)
    (ho : i.ordered = true) (hs : Sparse piece) : AnyItem piece := by
  cases h with
  | atom h => exact .plain (spells_plainItem h ho hs)
  | choice bare some h =>
    exact .braces bare some (parts_sequence h ho ((sparse_braces (splits_parts h)).mp hs))

theorem anyItem_spellsItem {piece : List Char} (h : AnyItem piece) :
    ∃ i, SpellsItem piece i ∧ (Sparse piece → i.ordered = true) := by
  cases h with
  | plain h =>
    obtain ⟨a, ha, ho⟩ := plainItem_spells h
    exact ⟨_, .atom ha, ho⟩
  | braces bare some each =>
    obtain ⟨choices, hchoices, ho⟩ := sequence_parts each
    exact ⟨_, .choice bare some hchoices, fun hs =>
      ho ((sparse_braces (splits_parts hchoices)).mp hs)⟩

theorem classes_trimLeft (text : List Char) : classes (Text.trimLeft '/' text) = classes text :=
  Text.trimLeft_invariant (classes_char (by decide) (by decide)) text

def Grammatical (pattern : String) : Prop :=
  Text.trimLeft '/' pattern.toList ≠ [] ∧ Sequence AnyItem (Text.trimLeft '/' pattern.toList)

theorem read_accepts (raw : List Char) (hs : Sparse raw) :
    (∃ items, Pattern.read raw = .ok items) ↔ raw ≠ [] ∧ Sequence AnyItem raw := by
  constructor
  · rintro ⟨items, hr⟩
    obtain ⟨hne, hcut, ho⟩ := (read_iff raw items).mp hr
    exact ⟨hne, cut_sequence Item.ordered (fun _ _ => splits_spellsItem)
      (fun _ _ => spellsItem_anyItem) hcut ho hs⟩
  · rintro ⟨hne, hsequence⟩
    obtain ⟨items, hcut, ho⟩ := sequence_cut Item.ordered (fun _ _ => splits_spellsItem)
      (fun _ => anyItem_spellsItem) hsequence
    exact ⟨items, (read_iff raw items).mpr ⟨hne, hcut, ho hs⟩⟩

/-- A text without two dashes next to each other in a class is a pattern
exactly when it is a nonempty sequence of items whose expression is within the
limit. Any other text is refused, and the error holds the text as it was given,
and a reason: that it is too large just when it is such a sequence. -/
theorem compile_accepts [SizeLimit] (pattern : String) (hs : Sparse pattern.toList) :
    ((∃ p, Pattern.compile pattern = .ok p) ↔ Grammatical pattern ∧
      SizeLimit.exceeds (Text.trimLeft '/' pattern.toList) = false) ∧
    (¬Grammatical pattern →
      ∃ fault : Fault, Pattern.compile pattern = .error ⟨pattern, fault.reason⟩) ∧
    (Pattern.compile pattern = .error ⟨pattern, tooLarge⟩ ↔ Grammatical pattern ∧
      SizeLimit.exceeds (Text.trimLeft '/' pattern.toList) = true) := by
  have hsparse : Sparse (Text.trimLeft '/' pattern.toList) := by
    unfold Sparse
    rw [classes_trimLeft]
    exact hs
  have hread := read_accepts _ hsparse
  rw [Grammatical, ← hread]
  cases hr : Pattern.read (Text.trimLeft '/' pattern.toList) with
  | error fault =>
    have hreason : fault.reason ≠ tooLarge := by cases fault <;> decide
    have hc : Pattern.compile pattern = .error ⟨pattern, fault.reason⟩ := by
      simp only [Pattern.compile, hr]
    simp [hc, hreason]
  | ok items =>
    cases hl : SizeLimit.exceeds (Text.trimLeft '/' pattern.toList) with
    | true =>
      have hc : Pattern.compile pattern = .error ⟨pattern, tooLarge⟩ := by
        simp only [Pattern.compile, hr, hl]
      simp [hc]
    | false =>
      have hc : Pattern.compile pattern =
          .ok ⟨Text.trimLeft '/' pattern.toList, items⟩ := by
        simp only [Pattern.compile, hr, hl]
      simp [hc]

attribute [local instance] SizeLimit.ofAnys

/-- Braces with an empty part and a class that ends in a dash are in the grammar;
dashes in brackets that are never closed are in no class, but refused. -/
theorem compile_accepts_core :
    Sparse coreText.toList ∧ Grammatical coreText ∧ Sparse "[a--b".toList ∧
      ∃ fault : Fault, Pattern.compile "[a--b" = .error ⟨"[a--b", fault.reason⟩ := by
  have hcore : Sparse coreText.toList := by decide
  have hopen : Sparse "[a--b".toList := by decide
  refine ⟨hcore, ((compile_accepts coreText hcore).1.mp ⟨_, compile_core⟩).1, hopen,
    (compile_accepts "[a--b" hopen).2.1 fun hgrammar => ?_⟩
  have hrefused : Pattern.compile "[a--b" = .error ⟨"[a--b", Fault.unclosedClass.reason⟩ := by cbv
  obtain ⟨p, hp⟩ := (compile_accepts "[a--b" hopen).1.mpr ⟨hgrammar, by decide⟩
  rw [hrefused] at hp
  cases hp

def anys (n : ℕ) : List Char := List.replicate n '?'

theorem anys_trimmed (n : ℕ) : Text.trimLeft '/' (anys n) = anys n :=
  Text.trimLeft_plain (by simp [anys])

theorem anys_sparse (n : ℕ) : Sparse (anys n) := by
  have hnone : classes (anys n) = [] := by
    induction n with
    | zero => rfl
    | succ n ih =>
      rw [anys, List.replicate_succ, classes_char (by decide) (by decide)]
      exact ih
  rw [Sparse, hnone]
  exact List.forall_mem_nil _

theorem anys_sequence (n : ℕ) : Sequence AnyItem (anys n) := by
  induction n with
  | zero => exact .nil
  | succ n ih => exact .cons (.plain .any) ih

/-- A sequence of items is refused for its size. -/
theorem anys_too_large :
    Sparse (String.ofList (anys 100000)).toList ∧
    ¬((∃ p, Pattern.compile (String.ofList (anys 100000)) = .ok p) ↔
      Grammatical (String.ofList (anys 100000))) := by
  have hgrammar : Grammatical (String.ofList (anys 100000)) := by
    rw [Grammatical, String.toList_ofList, anys_trimmed]
    exact ⟨by rw [anys, ne_eq, List.replicate_eq_nil_iff]; decide, anys_sequence 100000⟩
  have hexceeds : SizeLimit.exceeds (Text.trimLeft '/' (String.ofList (anys 100000)).toList) =
      true := by
    rw [String.toList_ofList, anys_trimmed, anys]
    exact decide_eq_true (by rw [List.count_replicate_self]; decide)
  rw [String.toList_ofList]
  refine ⟨anys_sparse 100000, fun h => ?_⟩
  obtain ⟨p, hp⟩ := h.mpr hgrammar
  have hwithin := (compile_ok_iff.mp hp).2.2
  rw [(compile_ok_iff.mp hp).1, hexceeds] at hwithin
  cases hwithin

end Telemetry.PatternGrammar
