import Telemetry.Proofs.PatternTables

/-!
# The language of a pattern text

A pattern text says by itself which names it stands for. An operator stands
for what its letters say, a class for one character, braces for one of the
parts between their commas, and every other character for itself. What begins
with an operator can be taken apart in one way only.
-/

set_option autoImplicit false

namespace Telemetry.PatternLanguage

open PatternTables

structure Letter where
  char : Char
  escaped : Bool

namespace Letter

def text (l : Letter) : List Char :=
  if l.escaped then ['\\', l.char] else [l.char]

def Plain (l : Letter) : Prop := l.escaped = false → l.char ≠ ']' ∧ l.char ≠ '\\'

def isDash (l : Letter) : Bool := !l.escaped && l.char == '-'

def isSign (l : Letter) : Bool := !l.escaped && (l.char == '!' || l.char == '^')

end Letter

def spell (ls : List Letter) : List Char := ls.flatMap Letter.text

/-- A character is in a class when it is one of the letters or lies in a range;
a dash between two letters makes a range of them, ranges being read from the
left. -/
def InClass (c : Char) : List Letter → Prop
  | [] => False
  | x :: m :: y :: rest =>
    if m.isDash then (x.char ≤ c ∧ c ≤ y.char) ∨ InClass c rest
    else c = x.char ∨ InClass c (m :: y :: rest)
  | x :: rest => c = x.char ∨ InClass c rest

inductive Bare : List Char → Prop where
  | nil : Bare []
  | escape (c : Char) {part : List Char} (rest : Bare part) : Bare ('\\' :: c :: part)
  | char {c : Char} {part : List Char} (h : c ∉ ['\\', ',', '{', '}']) (rest : Bare part) :
      Bare (c :: part)

/-- The names that a pattern text stands for. -/
inductive Denotes : List Char → List Char → Prop where
  | nil : Denotes [] []
  | star {p run u : List Char} (h : '/' ∉ run) (rest : Denotes p u) :
      Denotes ('*' :: p) (run ++ u)
  | any {p u : List Char} {c : Char} (h : c ≠ '/') (rest : Denotes p u) :
      Denotes ('?' :: p) (c :: u)
  | escape {p u : List Char} (c : Char) (rest : Denotes p u) : Denotes ('\\' :: c :: p) (c :: u)
  | listed {p u : List Char} {c : Char} {ls : List Letter} (plain : ∀ l ∈ ls, l.Plain)
      (unsigned : ∀ l ∈ ls.head?, l.isSign = false) (h : InClass c ls) (rest : Denotes p u) :
      Denotes ('[' :: (spell ls ++ ']' :: p)) (c :: u)
  | unlisted {p u : List Char} {c sign : Char} {ls : List Letter} (plain : ∀ l ∈ ls, l.Plain)
      (signed : sign = '!' ∨ sign = '^') (h : c ≠ '/' ∧ ¬InClass c ls) (rest : Denotes p u) :
      Denotes ('[' :: sign :: (spell ls ++ ']' :: p)) (c :: u)
  | braces {p u v part : List Char} {parts : List (List Char)} (bare : ∀ q ∈ parts, Bare q)
      (chosen : part ∈ parts) (h : Denotes part v) (rest : Denotes p u) :
      Denotes ('{' :: (Text.join ',' parts ++ '}' :: p)) (v ++ u)
  | other {p u : List Char} {c : Char} (h : c ∉ ['*', '?', '\\', '[', '{']) (rest : Denotes p u) :
      Denotes (c :: p) (c :: u)

def language (text : List Char) : Language Char := {u | Denotes text u}

theorem mem_language (p u : List Char) : u ∈ language p ↔ Denotes p u := Iff.rfl

theorem text_append {l : Letter} (h : l.Plain) (rest : List Char) :
    (l.escaped = true ∧ l.text ++ rest = '\\' :: l.char :: rest) ∨
    (l.escaped = false ∧ l.char ≠ ']' ∧ l.char ≠ '\\' ∧ l.text ++ rest = l.char :: rest) := by
  cases he : l.escaped with
  | true => exact Or.inl ⟨rfl, by simp [Letter.text, he]⟩
  | false => exact Or.inr ⟨rfl, (h he).1, (h he).2, by simp [Letter.text, he]⟩

/-- A letter that closes nothing differs from the closing bracket. -/
theorem spell_cons_ne {l : Letter} (h : l.Plain) (ls : List Letter) (p q : List Char) :
    spell (l :: ls) ++ p ≠ ']' :: q := by
  intro he
  rw [spell, List.flatMap_cons, List.append_assoc] at he
  rcases text_append h (ls.flatMap Letter.text ++ p) with ⟨_, ht⟩ | ⟨_, hb, _, ht⟩
  · rw [ht] at he
    cases he
  · rw [ht] at he
    exact hb (List.cons.inj he).1

theorem letter_unique {l m : Letter} {p q : List Char} (hl : l.Plain) (hm : m.Plain)
    (h : l.text ++ p = m.text ++ q) : l = m ∧ p = q := by
  obtain ⟨c, escaped⟩ := l
  obtain ⟨d, escaped'⟩ := m
  rcases text_append hl p with ⟨rfl, ht⟩ | ⟨rfl, _, hs, ht⟩
  · rcases text_append hm q with ⟨rfl, ht'⟩ | ⟨rfl, _, hs', ht'⟩
    · rw [ht, ht'] at h
      obtain ⟨rfl, rfl⟩ := List.cons.inj (List.cons.inj h).2
      exact ⟨rfl, rfl⟩
    · rw [ht, ht'] at h
      exact absurd (List.cons.inj h).1.symm hs'
  · rcases text_append hm q with ⟨rfl, ht'⟩ | ⟨rfl, _, _, ht'⟩
    · rw [ht, ht'] at h
      exact absurd (List.cons.inj h).1 hs
    · rw [ht, ht'] at h
      obtain ⟨rfl, rfl⟩ := List.cons.inj h
      exact ⟨rfl, rfl⟩

/-- The letters of a class end at the first bracket that closes it. -/
theorem spell_unique {ls ms : List Letter} {p q : List Char} (hl : ∀ l ∈ ls, l.Plain)
    (hm : ∀ m ∈ ms, m.Plain) (h : spell ls ++ ']' :: p = spell ms ++ ']' :: q) :
    ls = ms ∧ p = q := by
  induction ls generalizing ms with
  | nil =>
    cases ms with
    | nil => exact ⟨rfl, (List.cons.inj h).2⟩
    | cons m ms => exact absurd h.symm (spell_cons_ne (hm m (by simp)) ms _ _)
  | cons l ls ih =>
    cases ms with
    | nil => exact absurd h (spell_cons_ne (hl l (by simp)) ls _ _)
    | cons m ms =>
      rw [spell, spell, List.flatMap_cons, List.append_assoc, List.flatMap_cons,
        List.append_assoc] at h
      obtain ⟨rfl, htail⟩ := letter_unique (hl l (by simp)) (hm m (by simp)) h
      obtain ⟨rfl, hpq⟩ := ih (fun k hk => hl k (by simp [hk]))
        (fun k hk => hm k (by simp [hk])) htail
      exact ⟨rfl, hpq⟩

theorem sign_letter {sign : Char} (hs : sign = '!' ∨ sign = '^') :
    (Letter.mk sign false).Plain ∧ (Letter.mk sign false).isSign = true := by
  rcases hs with rfl | rfl
  · exact ⟨fun _ => by decide, rfl⟩
  · exact ⟨fun _ => by decide, rfl⟩

theorem plain_cons {l : Letter} {ls : List Letter} (h : l.Plain) (hl : ∀ l ∈ ls, l.Plain) :
    ∀ m ∈ l :: ls, m.Plain := by
  intro m hm
  rcases List.mem_cons.mp hm with rfl | hm
  · exact h
  · exact hl m hm

theorem language_nil : language [] = 1 := by
  ext u
  rw [mem_language, Language.mem_one]
  constructor
  · intro h
    cases h
    rfl
  · rintro rfl
    exact .nil

theorem language_star (p : List Char) : language ('*' :: p) = inSegment * language p := by
  ext u
  rw [mem_language, Language.mem_mul]
  constructor
  · intro h
    cases h with
    | star h rest => exact ⟨_, h, _, rest, rfl⟩
    | other h _ => simp at h
  · rintro ⟨run, hrun, v, hv, rfl⟩
    exact .star hrun hv

theorem language_single {text p : List Char} {holds : Char → Bool}
    (h : ∀ u, Denotes text u ↔ ∃ c v, u = c :: v ∧ holds c = true ∧ Denotes p v) :
    language text = single holds * language p := by
  ext u
  rw [mem_language, h, Language.mem_mul]
  constructor
  · rintro ⟨c, v, rfl, hc, hv⟩
    exact ⟨[c], ⟨c, rfl, hc⟩, v, hv, rfl⟩
  · rintro ⟨_, ⟨c, rfl, hc⟩, v, hv, rfl⟩
    exact ⟨c, v, rfl, hc, hv⟩

theorem language_any (p : List Char) : language ('?' :: p) = single (· != '/') * language p := by
  refine language_single fun u => ⟨fun h => ?_, ?_⟩
  · cases h with
    | any h rest => exact ⟨_, _, rfl, bne_iff_ne.mpr h, rest⟩
    | other h _ => simp at h
  · rintro ⟨c, v, rfl, hc, hv⟩
    exact .any (bne_iff_ne.mp hc) hv

theorem language_escape (c : Char) (p : List Char) :
    language ('\\' :: c :: p) = single (· == c) * language p := by
  refine language_single fun u => ⟨fun h => ?_, ?_⟩
  · cases h with
    | escape c rest => exact ⟨_, _, rfl, beq_self_eq_true c, rest⟩
    | other h _ => simp at h
  · rintro ⟨d, v, rfl, hd, hv⟩
    rw [beq_iff_eq.mp hd]
    exact .escape c hv

theorem language_other {c : Char} (hc : c ∉ ['*', '?', '\\', '[', '{']) (p : List Char) :
    language (c :: p) = single (· == c) * language p := by
  refine language_single fun u => ⟨fun h => ?_, ?_⟩
  · cases h with
    | other _ rest => exact ⟨_, _, rfl, beq_self_eq_true c, rest⟩
    | _ => simp at hc
  · rintro ⟨d, v, rfl, hd, hv⟩
    rw [beq_iff_eq.mp hd]
    exact .other hc hv

theorem language_listed {ls : List Letter} {holds : Char → Bool} (plain : ∀ l ∈ ls, l.Plain)
    (unsigned : ∀ l ∈ ls.head?, l.isSign = false) (hh : ∀ c, holds c = true ↔ InClass c ls)
    (p : List Char) :
    language ('[' :: (spell ls ++ ']' :: p)) = single holds * language p := by
  refine language_single fun u => ⟨fun h => ?_, ?_⟩
  -- letters are appended to what follows, so the two spellings are compared by an equation
  · generalize ht : '[' :: (spell ls ++ ']' :: p) = text at h
    cases h with
    | listed plain' _ h rest =>
      obtain ⟨rfl, rfl⟩ := spell_unique plain plain' (List.cons.inj ht).2
      exact ⟨_, _, rfl, (hh _).mpr h, rest⟩
    | unlisted plain' signed _ _ =>
      obtain ⟨hsp, hsn⟩ := sign_letter signed
      obtain ⟨rfl, _⟩ := spell_unique plain (plain_cons hsp plain') (List.cons.inj ht).2
      rw [unsigned _ (by simp)] at hsn
      cases hsn
    | other h _ => simp [← (List.cons.inj ht).1] at h
    | _ => cases ht
  · rintro ⟨c, v, rfl, hc, hv⟩
    exact .listed plain unsigned ((hh c).mp hc) hv

theorem language_unlisted {sign : Char} {ls : List Letter} {holds : Char → Bool}
    (plain : ∀ l ∈ ls, l.Plain) (signed : sign = '!' ∨ sign = '^')
    (hh : ∀ c, holds c = true ↔ c ≠ '/' ∧ ¬InClass c ls) (p : List Char) :
    language ('[' :: sign :: (spell ls ++ ']' :: p)) = single holds * language p := by
  obtain ⟨hsp, hsn⟩ := sign_letter signed
  refine language_single fun u => ⟨fun h => ?_, ?_⟩
  · generalize ht : '[' :: sign :: (spell ls ++ ']' :: p) = text at h
    cases h with
    | listed plain' unsigned' _ _ =>
      obtain ⟨rfl, _⟩ := spell_unique (plain_cons hsp plain) plain' (List.cons.inj ht).2
      rw [unsigned' _ (by simp)] at hsn
      cases hsn
    | unlisted plain' _ h rest =>
      obtain ⟨_, hrest⟩ := List.cons.inj (List.cons.inj ht).2
      obtain ⟨rfl, rfl⟩ := spell_unique plain plain' hrest
      exact ⟨_, _, rfl, (hh _).mpr h, rest⟩
    | other h _ => simp [← (List.cons.inj ht).1] at h
    | _ => cases ht
  · rintro ⟨c, v, rfl, hc, hv⟩
    exact .unlisted plain signed ((hh c).mp hc) hv

end Telemetry.PatternLanguage
