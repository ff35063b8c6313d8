import Telemetry.Proofs.PatternLanguage

/-!
# What reading a pattern makes of it

Reading takes an item from the front of a text and goes on with the rest, and
the language of the text is the product of that of the item and that of the
rest. So a pattern that is read stands for the names that its text stands for,
as long as no class holds two dashes next to each other.
-/

set_option autoImplicit false

namespace Telemetry.PatternReading

open Pattern PatternTables PatternLanguage

inductive Place where
  | outside
  | inside (dash : Bool)

def adjacentDashes : Place → List Char → Bool
  | _, [] => false
  | .outside, '\\' :: _ :: cs => adjacentDashes .outside cs
  | .outside, '[' :: cs => adjacentDashes (.inside false) cs
  | .outside, _ :: cs => adjacentDashes .outside cs
  | .inside _, ']' :: cs => adjacentDashes .outside cs
  | .inside _, '\\' :: _ :: cs => adjacentDashes (.inside false) cs
  | .inside dash, '-' :: cs => dash || adjacentDashes (.inside true) cs
  | .inside _, _ :: cs => adjacentDashes (.inside false) cs

def crowded : Bool → List Letter → Bool
  | _, [] => false
  | dash, l :: ls => (dash && l.isDash) || crowded l.isDash ls

theorem crowded_false {dash : Bool} {ls : List Letter} (h : crowded dash ls = false) :
    crowded false ls = false := by
  cases ls with
  | nil => rfl
  | cons l ls =>
    rw [crowded, Bool.or_eq_false_iff] at h
    rw [crowded, h.2]
    rfl

theorem adjacentDashes_spell {ls : List Letter} (plain : ∀ l ∈ ls, l.Plain) (dash : Bool)
    (p : List Char) :
    adjacentDashes (.inside dash) (spell ls ++ ']' :: p) =
      (crowded dash ls || adjacentDashes .outside p) := by
  induction ls generalizing dash with
  | nil => rfl
  | cons l ls ih =>
    have hrest := ih fun l hl => plain l (by simp [hl])
    rw [spell, List.flatMap_cons, List.append_assoc, crowded]
    rcases text_append (plain l (by simp)) (ls.flatMap Letter.text ++ ']' :: p) with
      ⟨he, ht⟩ | ⟨he, hb, hs, ht⟩
    · have hd : l.isDash = false := by simp [Letter.isDash, he]
      rw [ht, hd, Bool.and_false, Bool.false_or]
      exact hrest false
    · rw [ht]
      by_cases hd : l.char = '-'
      · have hdash : l.isDash = true := by simp [Letter.isDash, he, hd]
        rw [hd, hdash, Bool.and_true, Bool.or_assoc, ← hrest true]
        rfl
      · have hdash : l.isDash = false := by simp [Letter.isDash, he, hd]
        rw [hdash, Bool.and_false, Bool.false_or, ← hrest false, adjacentDashes]
        · rfl
        all_goals simp_all

def tokens : Bool → List Letter → List Token
  | _, [] => []
  | started, l :: ls =>
    (if l.isDash && started && !ls.isEmpty then .dash else .char l.char) :: tokens true ls

theorem spansFrom_spell {ls : List Letter} (plain : ∀ l ∈ ls, l.Plain) (after : List Char) :
    spansFrom (spell ls ++ ']' :: after) = !ls.isEmpty := by
  cases ls with
  | nil => rfl
  | cons l ls =>
    rw [spell, List.flatMap_cons, List.append_assoc]
    rcases text_append (plain l (by simp)) (ls.flatMap Letter.text ++ ']' :: after) with
      ⟨_, ht⟩ | ⟨_, hb, _, ht⟩
    · rw [ht]
      rfl
    · rw [ht, spansFrom, List.isEmpty_cons, Bool.not_false, bne_iff_ne]
      exact hb

/-- A character that begins neither an unfinished nor a finished escape. -/
theorem ne_escape {c : Char} {cs : List Char} (hn : c = '\\' → cs = [] → False)
    (hc : ∀ d rest, c = '\\' → cs = d :: rest → False) : c ≠ '\\' := by
  intro he
  cases cs with
  | nil => exact hn he rfl
  | cons d rest => exact hc d rest he rfl

theorem classTokens_spell {started : Bool} {cs after : List Char} {ts : List Token}
    (h : classTokens started cs = .ok (ts, after)) :
    ∃ ls, (∀ l ∈ ls, l.Plain) ∧ cs = spell ls ++ ']' :: after ∧ ts = tokens started ls := by
  fun_induction classTokens started cs generalizing ts after with
  | case1 => cases h
  | case2 started rest =>
    cases h
    exact ⟨[], by simp, rfl, rfl⟩
  | case3 => cases h
  | case4 => cases h
  | case5 started c rest ts' after' hr ih =>
    cases h
    obtain ⟨ls, plain, rfl, rfl⟩ := ih hr
    refine ⟨⟨c, true⟩ :: ls, plain_cons (fun he => by cases he) plain, rfl, ?_⟩
    simp [tokens, Letter.isDash]
  | case6 => cases h
  | case7 started c rest hb hn hc ts' after' hr ih =>
    cases h
    obtain ⟨ls, plain, rfl, rfl⟩ := ih hr
    refine ⟨⟨c, false⟩ :: ls, plain_cons (fun _ => ⟨hb, ne_escape hn hc⟩) plain, rfl, ?_⟩
    rw [spansFrom_spell plain]
    rfl

theorem operands_one (t : Token) {ts : List Token} (h : ∀ d ∈ ts.head?, d ≠ .dash) :
    operands (t :: ts) = consMember (.one t.toChar) (operands ts) := by
  cases ts with
  | nil => cases t <;> rfl
  | cons d ts =>
    cases d with
    | dash => exact absurd rfl (h .dash (by simp))
    | char c => cases t <;> rfl

theorem token_toChar (l : Letter) (between : Bool) :
    (if l.isDash && between then Token.dash else .char l.char).toChar = l.char := by
  cases hd : l.isDash && between with
  | false => rfl
  | true =>
    rw [Bool.and_eq_true, Letter.isDash, Bool.and_eq_true] at hd
    exact (beq_iff_eq.mp hd.1.2).symm

theorem listed_cons (m : Member) (ms : List Member) (c : Char) :
    listed (m :: ms) c = true ↔ m.holds c = true ∨ listed ms c = true := by
  simp [listed]

theorem operands_letter (x : Letter) {ls : List Letter} {members : List Member} (started : Bool)
    (hd : ∀ d ∈ (tokens true ls).head?, d ≠ .dash)
    (h : operands (tokens true ls) = [members]) :
    operands (tokens started (x :: ls)) = [.one x.char :: members] := by
  rw [tokens, operands_one _ hd, h, Bool.and_assoc, token_toChar]
  rfl

def spelled : List Letter → List Member
  | [] => []
  | x :: m :: y :: rest =>
    if m.isDash then .range x.char y.char :: spelled rest
    else .one x.char :: spelled (m :: y :: rest)
  | x :: rest => .one x.char :: spelled rest

theorem listed_spelled (ls : List Letter) (c : Char) :
    listed (spelled ls) c = true ↔ InClass c ls := by
  fun_induction spelled ls with
  | case1 => simp [listed, InClass]
  | case2 x m y rest hm ih =>
    rw [listed_cons, ih, InClass, if_pos hm, Member.holds, Bool.and_eq_true, decide_eq_true_iff,
      decide_eq_true_iff]
  | case3 x m y rest hm ih =>
    rw [listed_cons, ih, InClass, if_neg hm, Member.holds, beq_iff_eq]
  | case4 x rest hshort ih =>
    rw [listed_cons, ih, InClass, Member.holds, beq_iff_eq]
    exact hshort

/-- Without dashes next to each other, tokens make the members that the letters
spell. -/
theorem operands_tokens (ls : List Letter) (started dash : Bool)
    (h : crowded dash ls = false) : operands (tokens started ls) = [spelled ls] := by
  -- a range is seen from its first letter, two letters ahead
  match ls with
  | [] => rfl
  | [x] => exact operands_letter x started (by simp [tokens]) rfl
  | [x, y] =>
    have hy : operands (tokens true [y]) = [[.one y.char]] :=
      operands_letter y true (by simp [tokens]) rfl
    exact operands_letter x started (by simp [tokens]) hy
  | x :: m :: y :: rest =>
    simp only [crowded, Bool.or_eq_false_iff] at h
    obtain ⟨_, hxm, hmy, hrest⟩ := h
    cases hm : m.isDash with
    | true =>
      rw [hm, Bool.and_true] at hxm
      rw [hm, Bool.true_and] at hmy
      have ht : tokens started (x :: m :: y :: rest) =
          .char x.char :: .dash :: .char y.char :: tokens true rest := by
        simp [tokens, hxm, hm, hmy]
      rw [ht, operands, operands_tokens rest true y.isDash hrest, spelled, if_pos hm]
      rfl
    | false =>
      have hlater : crowded x.isDash (m :: y :: rest) = false := by
        simp [crowded, hm, hrest]
      rw [spelled, if_neg (by simp [hm])]
      exact operands_letter x started (by simp [tokens, hm])
        (operands_tokens (m :: y :: rest) true x.isDash hlater)

theorem ofTokens_spelled {ls : List Letter} (h : crowded false ls = false) (negated : Bool) :
    CharClass.ofTokens negated (tokens false ls) = ⟨negated, spelled ls, []⟩ := by
  rw [CharClass.ofTokens, operands_tokens ls false false h]

theorem ofTokens_holds {ls : List Letter} (h : crowded false ls = false) (c : Char) :
    ((CharClass.ofTokens false (tokens false ls)).holds c = true ↔ InClass c ls) ∧
    ((CharClass.ofTokens true (tokens false ls)).holds c = true ↔ c ≠ '/' ∧ ¬InClass c ls) := by
  rw [ofTokens_spelled h, ofTokens_spelled h, ← listed_spelled]
  constructor
  · simp [CharClass.holds]
  · simp [CharClass.holds]

theorem classSign_cases (cs : List Char) :
    (classSign cs = (false, cs) ∧ ∀ c ∈ cs.head?, c ≠ '!' ∧ c ≠ '^') ∨
    ∃ sign rest, (sign = '!' ∨ sign = '^') ∧ cs = sign :: rest ∧ classSign cs = (true, rest) := by
  unfold classSign
  split
  · exact Or.inr ⟨'!', _, Or.inl rfl, rfl, rfl⟩
  · exact Or.inr ⟨'^', _, Or.inr rfl, rfl, rfl⟩
  · rename_i hb hc
    refine Or.inl ⟨rfl, fun c hc' => ?_⟩
    cases cs with
    | nil => simp at hc'
    | cons d cs =>
      obtain rfl : d = c := by simpa using hc'
      exact ⟨fun he => hb cs (he ▸ rfl), fun he => hc cs (he ▸ rfl)⟩

/-- The two forms of a class, by the letters it is spelled with. -/
theorem readClass_cases {cs rest : List Char} {k : CharClass}
    (h : readClass cs = .ok (k, rest)) :
    ∃ ls, (∀ l ∈ ls, l.Plain) ∧ ls ≠ [] ∧
      ((cs = spell ls ++ ']' :: rest ∧ (∀ l ∈ ls.head?, l.isSign = false) ∧
          k = .ofTokens false (tokens false ls)) ∨
        ∃ sign, (sign = '!' ∨ sign = '^') ∧ cs = sign :: (spell ls ++ ']' :: rest) ∧
          k = .ofTokens true (tokens false ls)) := by
  unfold readClass at h
  split at h
  · cases h
  · cases h
  · rename_i ts after hne hts
    cases h
    obtain ⟨ls, plain, hcs, rfl⟩ := classTokens_spell hts
    refine ⟨ls, plain, fun hnil => hne (hnil ▸ rfl), ?_⟩
    rcases classSign_cases cs with ⟨hs, hh⟩ | ⟨sign, after, signed, rfl, hs⟩
    · rw [hs] at hcs ⊢
      dsimp only at hcs
      refine Or.inl ⟨hcs, fun l hl => ?_, rfl⟩
      cases ls with
      | nil => simp at hl
      | cons m ls =>
        obtain rfl : m = l := by simpa using hl
        by_contra hsign
        rw [Bool.not_eq_false, Letter.isSign, Bool.and_eq_true, Bool.not_eq_true'] at hsign
        have hhead : m.char ∈ cs.head? := by simp [hcs, spell, Letter.text, hsign.1]
        simpa [(hh _ hhead).1, (hh _ hhead).2] using hsign.2
    · rw [hs] at hcs ⊢
      exact Or.inr ⟨sign, signed, congrArg (List.cons sign) hcs, rfl⟩

def Closed (text : List Char) : Prop :=
  ∀ tail, adjacentDashes .outside (text ++ tail) =
    (adjacentDashes .outside text || adjacentDashes .outside tail)

theorem closed_nil : Closed [] := fun _ => rfl

theorem closed_append {p q : List Char} (hp : Closed p) (hq : Closed q) : Closed (p ++ q) := by
  intro tail
  rw [List.append_assoc, hp, hq, hp, Bool.or_assoc]

theorem closed_char {c : Char} (hb : c ≠ '[') (he : c ≠ '\\') : Closed [c] := by
  intro tail
  rw [List.singleton_append, adjacentDashes, adjacentDashes]
  · rfl
  all_goals simp_all

theorem closed_escape (c : Char) : Closed ['\\', c] := fun _ => rfl

theorem closed_class {ls : List Letter} (plain : ∀ l ∈ ls, l.Plain) :
    Closed ('[' :: (spell ls ++ [']'])) := by
  intro tail
  have htail := adjacentDashes_spell plain false tail
  have hnil := adjacentDashes_spell plain false []
  rw [adjacentDashes, Bool.or_false] at hnil
  rw [List.cons_append, List.append_assoc, adjacentDashes, List.singleton_append, htail,
    adjacentDashes, hnil]

theorem readClass_language {cs rest : List Char} {k : CharClass}
    (h : readClass cs = .ok (k, rest)) :
    (∃ piece, '[' :: cs = piece ++ rest ∧ Closed piece) ∧
    (adjacentDashes .outside ('[' :: cs) = false →
      language ('[' :: cs) = single k.holds * language rest) := by
  obtain ⟨ls, plain, -, ⟨rfl, unsigned, rfl⟩ | ⟨sign, signed, rfl, rfl⟩⟩ := readClass_cases h
  · refine ⟨⟨_, by simp, closed_class plain⟩, fun hd => ?_⟩
    rw [adjacentDashes, adjacentDashes_spell plain, Bool.or_eq_false_iff] at hd
    exact language_listed plain unsigned (fun c => (ofTokens_holds hd.1 c).1) rest
  · have plain' := plain_cons (sign_letter signed).1 plain
    refine ⟨⟨_, by simp [spell, Letter.text], closed_class plain'⟩, fun hd => ?_⟩
    have hs : sign :: (spell ls ++ ']' :: rest) = spell (⟨sign, false⟩ :: ls) ++ ']' :: rest := rfl
    rw [adjacentDashes, hs, adjacentDashes_spell plain', Bool.or_eq_false_iff, crowded] at hd
    exact language_unlisted plain signed
      (fun c => (ofTokens_holds (crowded_false hd.1) c).2) rest

theorem closed_rest {text piece rest : List Char} (ht : text = piece ++ rest)
    (hp : Closed piece) (h : adjacentDashes .outside text = false) :
    adjacentDashes .outside rest = false := by
  rw [ht, hp, Bool.or_eq_false_iff] at h
  exact h.2

theorem readAtom_language {c : Char} {cs rest : List Char} {a : Atom} (hb : c ≠ '{')
    (h : readAtom c cs = .ok (a, rest)) :
    (∃ piece, c :: cs = piece ++ rest ∧ Closed piece) ∧
    (adjacentDashes .outside (c :: cs) = false →
      language (c :: cs) = atomLanguage a * language rest) := by
  unfold readAtom at h
  split at h
  · rename_i hc
    cases h
    subst hc
    exact ⟨⟨['*'], rfl, closed_char (by decide) (by decide)⟩, fun _ => language_star cs⟩
  split at h
  · rename_i hc
    cases h
    subst hc
    exact ⟨⟨['?'], rfl, closed_char (by decide) (by decide)⟩, fun _ => language_any cs⟩
  split at h
  · rename_i hc
    subst hc
    split at h
    · cases h
    · rename_i d rest
      cases h
      exact ⟨⟨['\\', d], rfl, closed_escape d⟩, fun _ => language_escape d rest⟩
  split at h
  · rename_i hc
    subst hc
    split at h
    · cases h
    · rename_i k rest hk
      cases h
      exact readClass_language hk
  · rename_i hs ha he hcl
    cases h
    have hc : c ∉ ['*', '?', '\\', '[', '{'] := by simp [hs, ha, he, hcl, hb]
    exact ⟨⟨[c], rfl, closed_char hcl he⟩, fun _ => language_other hc cs⟩

theorem readAtoms_language {cs : List Char} {atoms : List Atom} (h : readAtoms cs = .ok atoms) :
    Closed cs ∧ (adjacentDashes .outside cs = false → language cs = atomsLanguage atoms) := by
  fun_induction readAtoms cs generalizing atoms with
  | case1 =>
    cases h
    exact ⟨closed_nil, fun _ => language_nil⟩
  | case2 => cases h
  | case3 => cases h
  | case4 => cases h
  | case5 c cs hb a rest hr _ atoms' hrest ih =>
    cases h
    obtain ⟨⟨piece, ht, hp⟩, hl⟩ := readAtom_language hb hr
    obtain ⟨hclosed, hlrest⟩ := ih hrest
    refine ⟨ht ▸ closed_append hp hclosed, fun hd => ?_⟩
    rw [hl hd, hlrest (closed_rest ht hp hd), atomsLanguage, atomsLanguage, List.map_cons,
      List.prod_cons]

theorem readBody_append {part : List Char} (hp : Bare part) (cs : List Char) :
    readBody (part ++ cs) = (readBody cs).map fun (body, after) => (part ++ body, after) := by
  induction hp with
  | nil => cases h : readBody cs <;> simp [h, Except.map]
  | escape c _ ih =>
    rw [List.cons_append, List.cons_append, readBody, ih]
    cases readBody cs <;> rfl
  | char h _ ih =>
    simp only [List.mem_cons, not_or] at h
    rw [List.cons_append, readBody, ih]
    · cases readBody cs <;> rfl
    all_goals simp_all

theorem alternatives_append {part : List Char} (hp : Bare part) (cs : List Char) :
    alternatives (part ++ cs) = part.foldr consHead (alternatives cs) := by
  induction hp with
  | nil => rfl
  | escape c _ ih => rw [List.cons_append, List.cons_append, alternatives, ih]; rfl
  | char h _ ih =>
    simp only [List.mem_cons, not_or] at h
    rw [List.cons_append, alternatives, ih]
    · rfl
    all_goals simp_all

theorem foldr_consHead (part q : List Char) (qs : List (List Char)) :
    part.foldr consHead (q :: qs) = (part ++ q) :: qs := by
  induction part with
  | nil => rfl
  | cons c part ih => rw [List.foldr_cons, ih]; rfl

theorem readBody_join {parts : List (List Char)} (hp : ∀ q ∈ parts, Bare q) (p : List Char) :
    readBody (Text.join ',' parts ++ '}' :: p) = .ok (Text.join ',' parts, p) := by
  induction parts with
  | nil => rfl
  | cons part parts ih =>
    have hrest := ih fun q hq => hp q (by simp [hq])
    cases parts with
    | nil =>
      rw [Text.join, readBody_append (hp part (by simp))]
      simp [readBody, Except.map]
    | cons next parts =>
      have hcomma : readBody (',' :: (Text.join ',' (next :: parts) ++ '}' :: p)) =
          .ok (',' :: Text.join ',' (next :: parts), p) := by
        rw [readBody, hrest]
        all_goals simp
      rw [Text.join, List.append_assoc, readBody_append (hp part (by simp)), List.cons_append,
        hcomma]
      rfl

theorem alternatives_join {parts : List (List Char)} (hp : ∀ q ∈ parts, Bare q)
    (hne : parts ≠ []) : alternatives (Text.join ',' parts) = parts := by
  induction parts with
  | nil => exact absurd rfl hne
  | cons part parts ih =>
    cases parts with
    | nil =>
      have ha := alternatives_append (hp part (by simp)) []
      rw [List.append_nil] at ha
      rw [Text.join, ha, alternatives, foldr_consHead, List.append_nil]
    | cons next parts =>
      have hrest := ih (fun q hq => hp q (by simp [hq])) (by simp)
      rw [Text.join, alternatives_append (hp part (by simp)), alternatives, hrest, foldr_consHead,
        List.append_nil]

theorem readBody_parts {cs body after : List Char} (h : readBody cs = .ok (body, after)) :
    cs = body ++ '}' :: after ∧
    ∃ parts, parts ≠ [] ∧ (∀ q ∈ parts, Bare q) ∧ body = Text.join ',' parts := by
  fun_induction readBody cs generalizing body after with
  | case1 => cases h
  | case2 rest =>
    cases h
    exact ⟨rfl, [[]], by simp, by simp [Bare.nil], rfl⟩
  | case3 => cases h
  | case4 => cases h
  | case5 => cases h
  | case6 c rest body' after' hr ih =>
    cases h
    obtain ⟨rfl, parts, hne, hbare, rfl⟩ := ih hr
    refine ⟨rfl, ?_⟩
    cases parts with
    | nil => exact absurd rfl hne
    | cons q qs =>
      refine ⟨('\\' :: c :: q) :: qs, by simp, ?_, ?_⟩
      · intro r hr
        rcases List.mem_cons.mp hr with rfl | hr
        · exact .escape c (hbare q (by simp))
        · exact hbare r (by simp [hr])
      · rw [Text.join_cons_cons, Text.join_cons_cons]
  | case7 => cases h
  | case8 c rest hclose hopen hn hc body' after' hr ih =>
    cases h
    obtain ⟨rfl, parts, hne, hbare, rfl⟩ := ih hr
    refine ⟨rfl, ?_⟩
    by_cases hcomma : c = ','
    · subst hcomma
      cases parts with
      | nil => exact absurd rfl hne
      | cons q qs =>
        refine ⟨[] :: q :: qs, by simp, ?_, rfl⟩
        intro r hr
        rcases List.mem_cons.mp hr with rfl | hr
        · exact .nil
        · exact hbare r hr
    · cases parts with
      | nil => exact absurd rfl hne
      | cons q qs =>
        refine ⟨(c :: q) :: qs, by simp, ?_, (Text.join_cons_cons ',' c q qs).symm⟩
        intro r hr
        rcases List.mem_cons.mp hr with rfl | hr
        · have hbrace : c ≠ '{' ∧ c ≠ '}' := ⟨hopen, hclose⟩
          exact .char (by simp [ne_escape hn hc, hcomma, hbrace]) (hbare q (by simp))
        · exact hbare r (by simp [hr])

theorem language_braces {parts : List (List Char)} (bare : ∀ q ∈ parts, Bare q)
    (hne : parts ≠ []) (p : List Char) :
    language ('{' :: (Text.join ',' parts ++ '}' :: p)) =
      (parts.map language).sum * language p := by
  ext u
  rw [mem_language, Language.mem_mul]
  constructor
  · intro h
    -- reading tells the parts, so two ways to take the braces apart are the same
    generalize ht : '{' :: (Text.join ',' parts ++ '}' :: p) = text at h
    cases h with
    | @braces q _ _ part parts' bare' chosen hv rest =>
      have hread := readBody_join bare' q
      rw [← (List.cons.inj ht).2, readBody_join bare p] at hread
      obtain ⟨hjoin, rfl⟩ := Prod.mk.inj (Except.ok.inj hread)
      have hparts := alternatives_join bare' (List.ne_nil_of_mem chosen)
      rw [← hjoin, alternatives_join bare hne] at hparts
      subst hparts
      exact ⟨_, (mem_sum _ _).mpr ⟨_, List.mem_map_of_mem chosen, hv⟩, _, rest, rfl⟩
    | other h _ => simp [← (List.cons.inj ht).1] at h
    | _ => cases ht
  · rintro ⟨v, hv, w, hw, rfl⟩
    obtain ⟨_, hl, hv⟩ := (mem_sum _ _).mp hv
    obtain ⟨part, hpart, rfl⟩ := List.mem_map.mp hl
    exact .braces bare hpart hv hw

theorem readAlternatives_parts {parts : List (List Char)} {choices : List (List Atom)}
    (h : readAlternatives parts = .ok choices) :
    List.Forall₂ (fun part atoms => readAtoms part = .ok atoms) parts choices := by
  induction parts generalizing choices with
  | nil =>
    cases h
    exact .nil
  | cons part parts ih =>
    unfold readAlternatives at h
    split at h
    · cases h
    · rename_i atoms ha
      split at h
      · cases h
      · rename_i rest hrest
        cases h
        exact .cons ha (ih hrest)

/-- Parts that close their brackets do so with commas between them. -/
theorem closed_join {parts : List (List Char)} (h : ∀ q ∈ parts, Closed q) :
    Closed (Text.join ',' parts) ∧
    (adjacentDashes .outside (Text.join ',' parts) = false →
      ∀ q ∈ parts, adjacentDashes .outside q = false) := by
  induction parts with
  | nil => exact ⟨closed_nil, by simp⟩
  | cons part parts ih =>
    have hpart := h part (by simp)
    obtain ⟨hjoin, hall⟩ := ih fun q hq => h q (by simp [hq])
    cases parts with
    | nil => exact ⟨hpart, by simp [Text.join]⟩
    | cons next parts =>
      rw [Text.join]
      have hcomma : Closed ([','] ++ Text.join ',' (next :: parts)) :=
        closed_append (closed_char (by decide) (by decide)) hjoin
      refine ⟨closed_append hpart hcomma, fun hd q hq => ?_⟩
      rw [hpart, Bool.or_eq_false_iff] at hd
      rcases List.mem_cons.mp hq with rfl | hq
      · exact hd.1
      · exact hall hd.2 q hq

theorem choices_language {parts : List (List Char)} {choices : List (List Atom)}
    (h : List.Forall₂ (fun part atoms => readAtoms part = .ok atoms) parts choices)
    (hd : ∀ q ∈ parts, adjacentDashes .outside q = false) :
    (parts.map language).sum = (choices.map atomsLanguage).sum := by
  induction h with
  | nil => rfl
  | cons ha _ ih =>
    rw [List.map_cons, List.map_cons, List.sum_cons, List.sum_cons,
      (readAtoms_language ha).2 (hd _ (by simp)), ih fun q hq => hd q (by simp [hq])]

theorem choices_closed {parts : List (List Char)} {choices : List (List Atom)}
    (h : List.Forall₂ (fun part atoms => readAtoms part = .ok atoms) parts choices) :
    ∀ q ∈ parts, Closed q :=
  ((List.forall₂_and_left _ _).mp
    (h.imp fun _ _ hpart => ⟨(readAtoms_language hpart).1, hpart⟩)).1

theorem readItems_language {cs : List Char} {items : List Item} (h : readItems cs = .ok items)
    (hd : adjacentDashes .outside cs = false) : language cs = itemsLanguage items := by
  fun_induction readItems cs generalizing items with
  | case1 =>
    cases h
    exact language_nil
  | case2 => cases h
  | case3 => cases h
  | case4 => cases h
  | case5 cs body rest hbody hlt choices hchoices items' hitems ih =>
    cases h
    obtain ⟨rfl, parts, hne, bare, rfl⟩ := readBody_parts hbody
    rw [alternatives_join bare hne] at hchoices
    have hparts := readAlternatives_parts hchoices
    obtain ⟨hclosed, hall⟩ := closed_join (choices_closed hparts)
    rw [adjacentDashes, hclosed, Bool.or_eq_false_iff] at hd
    · rw [language_braces bare hne, choices_language hparts (hall hd.1), ih hitems hd.2,
        itemsLanguage, itemsLanguage, List.map_cons, List.prod_cons, itemLanguage]
    all_goals simp
  | case6 => cases h
  | case7 => cases h
  | case8 c cs hb a rest hr hlt items' hitems ih =>
    cases h
    obtain ⟨⟨piece, ht, hp⟩, hl⟩ := readAtom_language hb hr
    rw [hl hd, ih hitems (closed_rest ht hp hd), itemsLanguage, itemsLanguage, List.map_cons,
      List.prod_cons, itemLanguage]

theorem adjacentDashes_trim (cs : List Char) :
    adjacentDashes .outside (Text.trimLeft '/' cs) = adjacentDashes .outside cs :=
  Text.trimLeft_invariant (fun _ => rfl) cs

/-- A pattern that compiles matches the names that its text stands for. -/
theorem matches_language [SizeLimit] (pattern name : String) (p : Pattern)
    (hp : Pattern.compile pattern = .ok p)
    (hd : adjacentDashes .outside pattern.toList = false) :
    p.matchesName name = true ↔
      Denotes (Text.trimLeft '/' pattern.toList) (Text.trimLeft '/' name.toList) := by
  have hread : readItems (Text.trimLeft '/' pattern.toList) = .ok p.items := by
    obtain ⟨hraw, hr, -⟩ := compile_ok_iff.mp hp
    rw [hraw] at hr
    unfold Pattern.read at hr
    split at hr
    · cases hr
    · split at hr
      · cases hr
      · split at hr
        · rename_i hi _
          cases hr
          exact hi
        · cases hr
  rw [← adjacentDashes_trim] at hd
  rw [Pattern.matchesName, accepts_iff, ← readItems_language hread hd]
  exact mem_language _ _

def coreText : String := "/c/{x[0-2-],}*"

def corePattern : Pattern where
  raw := ['c', '/', '{', 'x', '[', '0', '-', '2', '-', ']', ',', '}', '*']
  items := [.atom (.char 'c'), .atom (.char '/'),
    .choice [[.char 'x', .oneOf ⟨false, [.range '0' '2', .one '-'], []⟩], []], .atom .run]

attribute [local instance] SizeLimit.ofAnys

theorem compile_core : Pattern.compile coreText = .ok corePattern := by
  cbv

theorem matches_language_core :
    Pattern.compile coreText = .ok corePattern ∧
    adjacentDashes .outside coreText.toList = false ∧
    (corePattern.matchesName "c/x1abc" = true ↔
      Denotes (Text.trimLeft '/' coreText.toList) (Text.trimLeft '/' "c/x1abc".toList)) :=
  ⟨compile_core, by decide,
    matches_language coreText "c/x1abc" corePattern compile_core (by decide)⟩

end Telemetry.PatternReading
