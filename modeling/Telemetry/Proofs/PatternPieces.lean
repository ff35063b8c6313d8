import Telemetry.Proofs.PatternReading

/-!
# Patterns cut into pieces

Reading takes the text of one item after the other off the front. So a text is
read exactly when it can be cut into pieces each of which spells an item, and
what is read are the items that the pieces spell. A compiled pattern is a text
cut like this whose ranges do not run backwards.
-/

set_option autoImplicit false

namespace Telemetry.PatternPieces

open Pattern PatternLanguage PatternReading

/-- A text cut into pieces, each of which stands for one element of a list. -/
inductive Cut {α : Type} (spells : List Char → α → Prop) : List Char → List α → Prop where
  | nil : Cut spells [] []
  | cons {piece text : List Char} {x : α} {xs : List α} (h : spells piece x)
      (rest : Cut spells text xs) : Cut spells (piece ++ text) (x :: xs)

theorem cut_single {α : Type} {spells : List Char → α → Prop} {piece : List Char} {x : α}
    (h : spells piece x) : Cut spells piece [x] := by
  have hcut := Cut.cons h Cut.nil
  rwa [List.append_nil] at hcut

theorem cut_append {α : Type} {spells : List Char → α → Prop} {text tail : List Char}
    {xs ys : List α} (h : Cut spells text xs) (ht : Cut spells tail ys) :
    Cut spells (text ++ tail) (xs ++ ys) := by
  induction h with
  | nil => exact ht
  | cons h _ ih =>
    rw [List.append_assoc]
    exact .cons h ih

inductive Spells : List Char → Atom → Prop where
  | run : Spells ['*'] .run
  | any : Spells ['?'] .any
  | escape (c : Char) : Spells ['\\', c] (.char c)
  | listed {ls : List Letter} (plain : ∀ l ∈ ls, l.Plain) (some : ls ≠ [])
      (unsigned : ∀ l ∈ ls.head?, l.isSign = false) :
      Spells ('[' :: (spell ls ++ [']'])) (.oneOf (.ofTokens false (tokens false ls)))
  | unlisted {sign : Char} {ls : List Letter} (plain : ∀ l ∈ ls, l.Plain) (some : ls ≠ [])
      (signed : sign = '!' ∨ sign = '^') :
      Spells ('[' :: sign :: (spell ls ++ [']'])) (.oneOf (.ofTokens true (tokens false ls)))
  | other {c : Char} (h : c ∉ ['*', '?', '\\', '[', '{']) : Spells [c] (.char c)

inductive SpellsItem : List Char → Item → Prop where
  | atom {piece : List Char} {a : Atom} (h : Spells piece a) : SpellsItem piece (.atom a)
  | choice {parts : List (List Char)} {choices : List (List Atom)} (bare : ∀ q ∈ parts, Bare q)
      (some : parts ≠ []) (h : List.Forall₂ (Cut Spells) parts choices) :
      SpellsItem ('{' :: (Text.join ',' parts ++ ['}'])) (.choice choices)

theorem classTokens_letters {ls : List Letter} (plain : ∀ l ∈ ls, l.Plain) (started : Bool)
    (rest : List Char) :
    classTokens started (spell ls ++ ']' :: rest) = .ok (tokens started ls, rest) := by
  induction ls generalizing started with
  | nil => rfl
  | cons l ls ih =>
    have hls : ∀ m ∈ ls, m.Plain := fun m hm => plain m (List.mem_cons_of_mem l hm)
    have hrest := ih hls true
    have hspan := spansFrom_spell hls rest
    rw [spell, List.flatMap_cons, List.append_assoc]
    rcases text_append (plain l List.mem_cons_self) (ls.flatMap Letter.text ++ ']' :: rest) with
      ⟨he, ht⟩ | ⟨he, hb, hs, ht⟩
    · have hd : l.isDash = false := by simp [Letter.isDash, he]
      rw [ht, classTokens, ← spell, hrest, tokens, hd]
      rfl
    · have hd : l.isDash = (l.char == '-') := by simp [Letter.isDash, he]
      rw [ht, classTokens, ← spell, hrest, hspan, tokens, hd]
      all_goals simp_all

theorem classSign_unsigned {ls : List Letter} (plain : ∀ l ∈ ls, l.Plain) (some : ls ≠ [])
    (unsigned : ∀ l ∈ ls.head?, l.isSign = false) (rest : List Char) :
    classSign (spell ls ++ rest) = (false, spell ls ++ rest) := by
  obtain ⟨l, ls, rfl⟩ := List.exists_cons_of_ne_nil some
  have hl := unsigned l (by simp)
  rw [spell, List.flatMap_cons, List.append_assoc]
  rcases text_append (plain l List.mem_cons_self) (ls.flatMap Letter.text ++ rest) with
    ⟨_, ht⟩ | ⟨he, _, _, ht⟩
  · rw [ht]
    rfl
  · simp only [Letter.isSign, he, Bool.not_false, Bool.true_and, Bool.or_eq_false_iff,
      beq_eq_false_iff_ne] at hl
    rw [ht]
    unfold classSign
    split <;> simp_all

theorem tokens_ne_nil {ls : List Letter} (some : ls ≠ []) (started : Bool) :
    tokens started ls ≠ [] := by
  obtain ⟨l, ls, rfl⟩ := List.exists_cons_of_ne_nil some
  simp [tokens]

theorem readClass_of_tokens {cs after rest : List Char} {negated : Bool} {ts : List Token}
    (hs : classSign cs = (negated, after)) (hts : classTokens false after = .ok (ts, rest))
    (hne : ts ≠ []) : readClass cs = .ok (.ofTokens negated ts, rest) := by
  unfold readClass
  rw [hs]
  dsimp only
  rw [hts]
  cases ts with
  | nil => exact absurd rfl hne
  | cons t ts => rfl

theorem readAtom_spells {c : Char} {cs rest : List Char} {a : Atom} (hb : c ≠ '{')
    (h : readAtom c cs = .ok (a, rest)) : ∃ piece, Spells piece a ∧ c :: cs = piece ++ rest := by
  unfold readAtom at h
  split at h
  · rename_i hc
    cases h
    exact ⟨['*'], .run, by rw [hc]; rfl⟩
  split at h
  · rename_i hc
    cases h
    exact ⟨['?'], .any, by rw [hc]; rfl⟩
  split at h
  · rename_i hc
    split at h
    · cases h
    · rename_i d rest
      cases h
      exact ⟨['\\', d], .escape d, by rw [hc]; rfl⟩
  split at h
  · rename_i hc
    split at h
    · cases h
    · rename_i k rest hk
      cases h
      obtain ⟨ls, plain, some, ⟨rfl, unsigned, rfl⟩ | ⟨sign, signed, rfl, rfl⟩⟩ :=
        readClass_cases hk
      · exact ⟨_, .listed plain some unsigned, by rw [hc]; simp⟩
      · exact ⟨_, .unlisted plain some signed, by rw [hc]; simp⟩
  · rename_i hs ha he hcl
    cases h
    exact ⟨[c], .other (by simp [hs, ha, he, hcl, hb]), rfl⟩

/-- What spells a plain item is read as that item, whatever follows. -/
theorem spells_readAtom {piece : List Char} {a : Atom} (h : Spells piece a) :
    ∃ c cs, piece = c :: cs ∧ c ≠ '{' ∧ ∀ rest, readAtom c (cs ++ rest) = .ok (a, rest) := by
  cases h with
  | run => exact ⟨'*', [], rfl, by decide, fun rest => by simp [readAtom]⟩
  | any => exact ⟨'?', [], rfl, by decide, fun rest => by simp [readAtom]⟩
  | escape c => exact ⟨'\\', [c], rfl, by decide, fun rest => by simp [readAtom]⟩
  | @listed ls plain some unsigned =>
    refine ⟨'[', spell ls ++ [']'], rfl, by decide, fun rest => ?_⟩
    have hclass := readClass_of_tokens (classSign_unsigned plain some unsigned (']' :: rest))
      (classTokens_letters plain false rest) (tokens_ne_nil some false)
    rw [List.append_assoc, List.singleton_append]
    simp [readAtom, hclass]
  | @unlisted sign ls plain some signed =>
    refine ⟨'[', sign :: (spell ls ++ [']']), rfl, by decide, fun rest => ?_⟩
    have hsign : classSign (sign :: (spell ls ++ ']' :: rest)) =
        (true, spell ls ++ ']' :: rest) := by
      rcases signed with rfl | rfl <;> rfl
    have hclass := readClass_of_tokens hsign (classTokens_letters plain false rest)
      (tokens_ne_nil some false)
    rw [List.cons_append, List.append_assoc, List.singleton_append]
    simp [readAtom, hclass]
  | @other c h =>
    simp only [List.mem_cons, not_or] at h
    exact ⟨c, [], rfl, h.2.2.2.2.1, fun rest => by simp [readAtom, h]⟩

theorem readAtoms_atom {c : Char} {cs rest : List Char} {a : Atom} (hc : c ≠ '{')
    (ha : readAtom c cs = .ok (a, rest)) :
    readAtoms (c :: cs) = (readAtoms rest).map (a :: ·) := by
  rw [readAtoms, if_neg hc]
  split
  · rename_i ha'
    rw [ha] at ha'
    cases ha'
  · rename_i ha'
    rw [ha] at ha'
    cases ha'
    cases readAtoms rest <;> rfl

theorem readAtoms_iff (cs : List Char) (atoms : List Atom) :
    readAtoms cs = .ok atoms ↔ Cut Spells cs atoms := by
  constructor
  · intro h
    fun_induction readAtoms cs generalizing atoms with
    | case1 =>
      cases h
      exact .nil
    | case2 => cases h
    | case3 => cases h
    | case4 => cases h
    | case5 c cs hb a rest hr _ atoms' hrest ih =>
      cases h
      obtain ⟨piece, hpiece, ht⟩ := readAtom_spells hb hr
      rw [ht]
      exact .cons hpiece (ih _ hrest)
  · intro h
    induction h with
    | nil => rw [readAtoms]
    | @cons piece text a atoms hpiece _ ih =>
      obtain ⟨c, cs, rfl, hc, hread⟩ := spells_readAtom hpiece
      rw [List.cons_append, readAtoms_atom hc (hread text), ih]
      rfl

theorem readAlternatives_iff (parts : List (List Char)) (choices : List (List Atom)) :
    readAlternatives parts = .ok choices ↔ List.Forall₂ (Cut Spells) parts choices := by
  constructor
  · intro h
    exact (readAlternatives_parts h).imp fun part atoms => (readAtoms_iff part atoms).mp
  · intro h
    induction h with
    | nil => rfl
    | cons hpart _ ih => rw [readAlternatives, (readAtoms_iff _ _).mpr hpart, ih]

theorem readItems_brace {cs body rest : List Char} {choices : List (List Atom)}
    (hb : readBody cs = .ok (body, rest))
    (hc : readAlternatives (alternatives body) = .ok choices) :
    readItems ('{' :: cs) = (readItems rest).map (.choice choices :: ·) := by
  rw [readItems, if_pos rfl]
  split
  · rename_i hb'
    rw [hb] at hb'
    cases hb'
  · rename_i hb'
    rw [hb] at hb'
    cases hb'
    rw [hc]
    cases readItems rest <;> rfl

theorem readItems_atom {c : Char} {cs rest : List Char} {a : Atom} (hc : c ≠ '{')
    (ha : readAtom c cs = .ok (a, rest)) :
    readItems (c :: cs) = (readItems rest).map (.atom a :: ·) := by
  rw [readItems, if_neg hc]
  split
  · rename_i ha'
    rw [ha] at ha'
    cases ha'
  · rename_i ha'
    rw [ha] at ha'
    cases ha'
    cases readItems rest <;> rfl

theorem readItems_iff (cs : List Char) (items : List Item) :
    readItems cs = .ok items ↔ Cut SpellsItem cs items := by
  constructor
  · intro h
    fun_induction readItems cs generalizing items with
    | case1 =>
      cases h
      exact .nil
    | case2 => cases h
    | case3 => cases h
    | case4 => cases h
    | case5 cs body rest hbody hlt choices hchoices items' hitems ih =>
      cases h
      obtain ⟨rfl, parts, hne, bare, rfl⟩ := readBody_parts hbody
      rw [alternatives_join bare hne, readAlternatives_iff] at hchoices
      have hpiece : '{' :: (Text.join ',' parts ++ '}' :: rest) =
          ('{' :: (Text.join ',' parts ++ ['}'])) ++ rest := by simp
      rw [hpiece]
      exact .cons (.choice bare hne hchoices) (ih _ hitems)
    | case6 => cases h
    | case7 => cases h
    | case8 c cs hb a rest hr hlt items' hitems ih =>
      cases h
      obtain ⟨piece, hpiece, ht⟩ := readAtom_spells hb hr
      rw [ht]
      exact .cons (.atom hpiece) (ih _ hitems)
  · intro h
    induction h with
    | nil => rw [readItems]
    | @cons piece text i items hpiece _ ih =>
      cases hpiece with
      | atom hatom =>
        obtain ⟨c, cs, rfl, hc, hread⟩ := spells_readAtom hatom
        rw [List.cons_append, readItems_atom hc (hread text), ih]
        rfl
      | @choice parts choices bare hne hchoices =>
        have hbody := readBody_join bare text
        rw [List.cons_append, List.append_assoc, List.singleton_append,
          readItems_brace hbody
            (by rw [alternatives_join bare hne, readAlternatives_iff]; exact hchoices), ih]
        rfl

theorem cut_unique {text : List Char} {items items' : List Item} (h : Cut SpellsItem text items)
    (h' : Cut SpellsItem text items') : items = items' := by
  rw [← readItems_iff] at h h'
  rw [h] at h'
  exact Except.ok.inj h'

theorem read_iff (raw : List Char) (items : List Item) :
    Pattern.read raw = .ok items ↔
      raw ≠ [] ∧ Cut SpellsItem raw items ∧ items.all (·.ordered) = true := by
  rw [← readItems_iff, Pattern.read]
  by_cases hempty : raw = []
  · simp [hempty]
  · rw [if_neg hempty]
    cases hread : readItems raw with
    | error fault => simp
    | ok read =>
      by_cases hordered : read.all (·.ordered) = true
      · simp only [hordered, if_true, Except.ok.injEq]
        constructor
        · rintro rfl
          exact ⟨hempty, rfl, hordered⟩
        · rintro ⟨-, rfl, -⟩
          rfl
      · simp only [hordered, Except.ok.injEq]
        constructor
        · intro h
          cases h
        · rintro ⟨-, rfl, ho⟩
          exact absurd ho hordered

/-- A pattern is compiled from a nonempty text that is cut into its items, if it
is within the limit. -/
theorem compile_iff [SizeLimit] (pattern : String) (p : Pattern) :
    Pattern.compile pattern = .ok p ↔
      p.raw = Text.trimLeft '/' pattern.toList ∧ p.raw ≠ [] ∧ Cut SpellsItem p.raw p.items ∧
        p.items.all (·.ordered) = true ∧ SizeLimit.exceeds p.raw = false := by
  rw [compile_ok_iff, read_iff, and_assoc, and_assoc]

end Telemetry.PatternPieces
