import Telemetry.Pattern.Basic
import Telemetry.Text.Split

/-!
# Reading patterns

A pattern is read from the left. An escape, a class and an alternation each
take a piece from the front of the text, and what remains is never longer, so
reading ends. The first fault met is the one reported; ranges are checked once
the whole text has been read. The expression that a pattern stands for is
compiled last, and refused when it grows too large. How large it grows is up to
the engine of expressions, and so a parameter here.
-/

set_option autoImplicit false

namespace Telemetry.Pattern

/-- A dash may stand for a range when another member can follow it. -/
def spansFrom : List Char → Bool
  | [] => false
  | c :: _ => c != ']'

/-- Tokens of a class text up to its first bare `]`, and the text after it.
`started` tells that a member has been read already. -/
def classTokens (started : Bool) : List Char → Except Fault (List Token × List Char)
  | [] => .error .unclosedClass
  | ']' :: rest => .ok ([], rest)
  | ['\\'] => .error .trailingEscape
  | '\\' :: c :: rest =>
    match classTokens true rest with
    | .error e => .error e
    | .ok (ts, after) => .ok (.char c :: ts, after)
  | c :: rest =>
    match classTokens true rest with
    | .error e => .error e
    | .ok (ts, after) =>
      .ok ((if c == '-' && started && spansFrom rest then .dash else .char c) :: ts, after)

theorem classTokens_length (started : Bool) (cs : List Char) (ts : List Token)
    (after : List Char) (h : classTokens started cs = .ok (ts, after)) :
    after.length < cs.length := by
  fun_induction classTokens started cs generalizing ts after with
  | case1 => simp at h
  | case2 => simp_all
  | case3 => simp at h
  | case4 => simp at h
  | case5 _ _ _ _ _ hr ih =>
    have := ih _ _ hr
    simp only [Except.ok.injEq, Prod.mk.injEq] at h
    simp only [List.length_cons, ← h.2]
    omega
  | case6 => simp at h
  | case7 _ _ _ _ _ _ _ _ hr ih =>
    have := ih _ _ hr
    simp only [Except.ok.injEq, Prod.mk.injEq] at h
    simp only [List.length_cons, ← h.2]
    omega

def classSign : List Char → Bool × List Char
  | '!' :: cs => (true, cs)
  | '^' :: cs => (true, cs)
  | cs => (false, cs)

theorem classSign_length (cs : List Char) : (classSign cs).2.length ≤ cs.length := by
  unfold classSign
  split <;> simp

def readClass (cs : List Char) : Except Fault (CharClass × List Char) :=
  match classTokens false (classSign cs).2 with
  | .error e => .error e
  | .ok ([], _) => .error .emptyClass
  | .ok (ts, after) => .ok (.ofTokens (classSign cs).1 ts, after)

theorem readClass_length (cs : List Char) (k : CharClass) (after : List Char)
    (h : readClass cs = .ok (k, after)) : after.length < cs.length := by
  unfold readClass at h
  split at h
  · simp at h
  · simp at h
  · rename_i ts rest _ hr
    simp only [Except.ok.injEq, Prod.mk.injEq] at h
    have := classTokens_length _ _ _ _ hr
    have := classSign_length cs
    rw [← h.2]
    omega

def readAtom (c : Char) (cs : List Char) : Except Fault (Atom × List Char) :=
  if c = '*' then .ok (.run, cs)
  else if c = '?' then .ok (.any, cs)
  else if c = '\\' then
    match cs with
    | [] => .error .trailingEscape
    | escaped :: rest => .ok (.char escaped, rest)
  else if c = '[' then
    match readClass cs with
    | .error e => .error e
    | .ok (k, rest) => .ok (.oneOf k, rest)
  else .ok (.char c, cs)

theorem readAtom_length (c : Char) (cs : List Char) (a : Atom) (after : List Char)
    (h : readAtom c cs = .ok (a, after)) : after.length ≤ cs.length := by
  unfold readAtom at h
  split at h
  · simp_all
  split at h
  · simp_all
  split at h
  · split at h
    · simp at h
    · simp only [Except.ok.injEq, Prod.mk.injEq] at h
      simp [← h.2]
  split at h
  · split at h
    · simp at h
    · rename_i k rest hk
      simp only [Except.ok.injEq, Prod.mk.injEq] at h
      have := readClass_length _ _ _ hk
      rw [← h.2]
      omega
  · simp_all

def readAtoms : List Char → Except Fault (List Atom)
  | [] => .ok []
  | c :: cs =>
    if c = '{' then .error .nestedAlternation
    else match h : readAtom c cs with
      | .error e => .error e
      | .ok (a, rest) =>
        have : rest.length < cs.length + 1 := by
          have := readAtom_length _ _ _ _ h
          omega
        match readAtoms rest with
        | .error e => .error e
        | .ok atoms => .ok (a :: atoms)
  termination_by cs => cs.length

def readBody : List Char → Except Fault (List Char × List Char)
  | [] => .error .unclosedAlternation
  | '}' :: rest => .ok ([], rest)
  | '{' :: _ => .error .nestedAlternation
  | ['\\'] => .error .trailingEscape
  | '\\' :: c :: rest =>
    match readBody rest with
    | .error e => .error e
    | .ok (body, after) => .ok ('\\' :: c :: body, after)
  | c :: rest =>
    match readBody rest with
    | .error e => .error e
    | .ok (body, after) => .ok (c :: body, after)

theorem readBody_length (cs body after : List Char) (h : readBody cs = .ok (body, after)) :
    after.length < cs.length := by
  fun_induction readBody cs generalizing body after with
  | case1 => simp at h
  | case2 => simp_all
  | case3 => simp at h
  | case4 => simp at h
  | case5 => simp at h
  | case6 _ _ _ _ hr ih =>
    have := ih _ _ hr
    simp only [Except.ok.injEq, Prod.mk.injEq] at h
    simp only [List.length_cons, ← h.2]
    omega
  | case7 => simp at h
  | case8 _ _ _ _ _ _ _ _ hr ih =>
    have := ih _ _ hr
    simp only [Except.ok.injEq, Prod.mk.injEq] at h
    simp only [List.length_cons, ← h.2]
    omega

def consHead (c : Char) : List (List Char) → List (List Char)
  | [] => [[c]]
  | part :: parts => (c :: part) :: parts

def alternatives : List Char → List (List Char)
  | [] => [[]]
  | '\\' :: c :: cs => consHead '\\' (consHead c (alternatives cs))
  | ',' :: cs => [] :: alternatives cs
  | c :: cs => consHead c (alternatives cs)

def readAlternatives : List (List Char) → Except Fault (List (List Atom))
  | [] => .ok []
  | part :: parts =>
    match readAtoms part with
    | .error e => .error e
    | .ok atoms =>
      match readAlternatives parts with
      | .error e => .error e
      | .ok rest => .ok (atoms :: rest)

def readItems : List Char → Except Fault (List Item)
  | [] => .ok []
  | c :: cs =>
    if c = '{' then
      match h : readBody cs with
      | .error e => .error e
      | .ok (body, rest) =>
        have : rest.length < cs.length + 1 := by
          have := readBody_length _ _ _ h
          omega
        match readAlternatives (alternatives body) with
        | .error e => .error e
        | .ok choices =>
          match readItems rest with
          | .error e => .error e
          | .ok items => .ok (.choice choices :: items)
    else
      match h : readAtom c cs with
      | .error e => .error e
      | .ok (a, rest) =>
        have : rest.length < cs.length + 1 := by
          have := readAtom_length _ _ _ _ h
          omega
        match readItems rest with
        | .error e => .error e
        | .ok items => .ok (.atom a :: items)
  termination_by cs => cs.length

def read (raw : List Char) : Except Fault (List Item) :=
  if raw = [] then .error .empty
  else match readItems raw with
    | .error e => .error e
    | .ok items => if items.all (·.ordered) then .ok items else .error .reversedRange

/-- Tells the texts whose expression exceeds the size limit of compiled
expressions. A few characters never do. -/
class SizeLimit where
  exceeds : List Char → Bool
  small : ∀ raw : List Char, raw.length ≤ 8 → exceeds raw = false

/-- A limit that only `?` counts against, each as the least that it takes. -/
@[reducible] def SizeLimit.ofAnys : SizeLimit where
  exceeds raw := decide (10485760 < 105 * raw.count '?')
  small raw h := by
    have hcount : raw.count '?' ≤ raw.length := List.count_le_length
    rw [decide_eq_false_iff_not]
    omega

def compile [SizeLimit] (pattern : String) : Except PatternError Pattern :=
  let raw := Text.trimLeft '/' pattern.toList
  match read raw with
  | .error fault => .error ⟨pattern, fault.reason⟩
  | .ok items =>
    match SizeLimit.exceeds raw with
    | true => .error ⟨pattern, tooLarge⟩
    | false => .ok ⟨raw, items⟩

theorem compile_ok_iff [SizeLimit] {pattern : String} {p : Pattern} :
    compile pattern = .ok p ↔ p.raw = Text.trimLeft '/' pattern.toList ∧
      read p.raw = .ok p.items ∧ SizeLimit.exceeds p.raw = false := by
  obtain ⟨raw, items⟩ := p
  unfold compile
  constructor
  · intro h
    cases hr : read (Text.trimLeft '/' pattern.toList) with
    | error fault => simp [hr] at h
    | ok read =>
      cases hl : SizeLimit.exceeds (Text.trimLeft '/' pattern.toList) with
      | true => simp [hr, hl] at h
      | false =>
        simp only [hr, hl, Except.ok.injEq, Pattern.mk.injEq] at h
        obtain ⟨rfl, rfl⟩ := h
        exact ⟨rfl, hr, hl⟩
  · rintro ⟨rfl, hr, hl⟩
    simp [hr, hl]

def compileAll [SizeLimit] : List String → Except PatternError (List Pattern)
  | [] => .ok []
  | text :: texts =>
    match compile text with
    | .error e => .error e
    | .ok p =>
      match compileAll texts with
      | .error e => .error e
      | .ok ps => .ok (p :: ps)

end Telemetry.Pattern
