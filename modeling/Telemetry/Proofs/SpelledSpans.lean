import Mathlib
import Telemetry.Span.Parser
import Telemetry.Span.Printer

/-!
# Spelled lengths of time

A length of time below the bound is spelled as a sum of whole units that is
read back as the same length, and nothing at or above the bound is ever read.
A term is followed through the states of the reader from its first digit to
the end of its unit. Places in the text count for faults only, so what is
read is said of all places at once.
-/

set_option autoImplicit false

namespace Telemetry.SpelledSpans

open Telemetry.Span

theorem exists_of_bind {α β ε : Type} {x : Except ε α} {f : α → Except ε β} {b : β}
    (h : (x >>= f) = .ok b) : ∃ a, x = .ok a ∧ f a = .ok b := by
  cases x with
  | error e => cases h
  | ok a => exact ⟨a, rfl, h⟩

theorem exists_of_map {α β ε : Type} {x : Except ε α} {f : α → β} {b : β}
    (h : x.map f = .ok b) : ∃ a, x = .ok a ∧ f a = b := by
  cases x with
  | error e => cases h
  | ok a => exact ⟨a, rfl, Except.ok.inj h⟩

theorem plus_bound {total added s : Span} (h : plus total added = .ok s) : s < bound := by
  unfold plus at h
  split at h
  · cases h
  · rename_i hlt
    cases h
    exact Nat.lt_of_not_le hlt

theorem plusFine_bound {total added s : Span} (h : plusFine total added = .ok s) : s < bound := by
  obtain ⟨_, _, hplus⟩ := exists_of_bind h
  exact plus_bound hplus

theorem plusIn_bound {u : TimeUnit} {total added s : Span} (h : plusIn u total added = .ok s) :
    s < bound := by
  unfold plusIn at h
  split at h
  · exact plusFine_bound h
  · exact plus_bound h

theorem plusFraction_bound {u : TimeUnit} {total added s : Span}
    (h : plusFraction u total added = .ok s) : s < bound := by
  unfold plusFraction at h
  split at h
  · exact plus_bound h
  · exact plusFine_bound h

theorem addTerm_bound {total s : Span} {n : Nat} {p : Option Places} {name : List Char}
    (h : addTerm total n p name = .ok s) : s < bound := by
  unfold addTerm at h
  split at h
  · cases h
  · obtain ⟨added, _, h⟩ := exists_of_bind h
    obtain ⟨sum, hsum, h⟩ := exists_of_bind h
    cases p with
    | none => exact Except.ok.inj h ▸ plusIn_bound hsum
    | some places =>
      obtain ⟨part, _, h⟩ := exists_of_bind h
      exact plusFraction_bound h

theorem step_total {total next : Span} {s s' : State} {i : Nat} {c : Char}
    (h : step total s i c = .ok (next, s')) :
    next = total ∨ ∃ n p name, addTerm total n p name = .ok next := by
  cases s with
  | number since => grind [step]
  | whole n => grind [step, → exists_of_map]
  | places n p place => grind [step, → exists_of_map]
  | unit n p name => grind [step, → exists_of_map]

theorem finish_bound {total r : Span} {s : State} (ht : total < bound)
    (h : finish total s = .ok r) : r < bound := by
  cases s with
  | number since => exact Except.ok.inj h ▸ ht
  | whole n =>
    rw [finish] at h
    exact addTerm_bound h
  | places n p place =>
    rw [finish] at h
    split at h
    · cases h
    · exact addTerm_bound h
  | unit n p name =>
    rw [finish] at h
    exact addTerm_bound h

theorem run_bound {total r : Span} {s : State} {i : Nat} {cs : List Char} (ht : total < bound)
    (h : run total s i cs = .ok r) : r < bound := by
  induction cs generalizing total s i with
  | nil => exact finish_bound ht h
  | cons c cs ih =>
    rw [run] at h
    cases hstep : step total s i c with
    | error e => simp [hstep] at h
    | ok next =>
      rw [hstep] at h
      rcases step_total hstep with heq | ⟨_, _, _, hterm⟩
      · exact ih (heq ▸ ht) h
      · exact ih (addTerm_bound hterm) h

theorem parse_bound {text : String} {s : Span} (h : Span.parse text = .ok s) : s < bound := by
  have hzero : 0 < bound := by decide
  unfold Span.parse at h
  cases hchars : ofChars (Text.trimBlank text.toList) with
  | error e => simp [hchars] at h
  | ok r =>
    rw [hchars] at h
    obtain rfl : r = s := Except.ok.inj h
    unfold ofChars at hchars
    split at hchars
    · exact Except.ok.inj hchars ▸ hzero
    · split at hchars
      · cases hchars
      · exact run_bound hzero hchars

theorem ofName?_mem {u : TimeUnit} {name : String} (h : name ∈ u.names) :
    TimeUnit.ofName? name = some u := by
  revert name
  cases u <;> decide

theorem names_letters {u : TimeUnit} {name : String} (h : name ∈ u.names) :
    name.toList ≠ [] ∧ ∀ c ∈ name.toList, isUnitLetter c = true := by
  have hall : u.names.all (fun name => !name.toList.isEmpty && name.toList.all isUnitLetter) = true := by
    cases u <;> rfl
  have hname := List.all_eq_true.mp hall name h
  simpa using hname

theorem letter_plain {c : Char} (h : isUnitLetter c = true) :
    Text.isDigit c = false ∧ Text.isBlank c = false := by
  have hle : ∀ a b : Char, a ≤ b ↔ a.toNat ≤ b.toNat := fun _ _ => Iff.rfl
  have heq : c = 'µ' ↔ c.toNat = 'µ'.toNat := Char.toNat_inj.symm
  simp only [isUnitLetter, Bool.or_eq_true, Bool.and_eq_true, decide_eq_true_eq, beq_iff_eq, heq,
    hle, Char.reduceToNat] at h
  constructor
  · simp only [Text.isDigit, hle, Bool.and_eq_false_iff, decide_eq_false_iff_not,
      Char.reduceToNat]
    omega
  · simp only [Text.isBlank, Bool.or_eq_false_iff, Bool.and_eq_false_iff, beq_eq_false_iff_ne,
      decide_eq_false_iff_not]
    omega

theorem digit_plain {c : Char} (h : Text.isDigit c = true) : Text.isBlank c = false := by
  have hle : ∀ a b : Char, a ≤ b ↔ a.toNat ≤ b.toNat := fun _ _ => Iff.rfl
  simp only [Text.isDigit, hle, Bool.and_eq_true, decide_eq_true_eq, Char.reduceToNat] at h
  simp only [Text.isBlank, Bool.or_eq_false_iff, Bool.and_eq_false_iff, beq_eq_false_iff_ne,
    decide_eq_false_iff_not]
  omega

theorem nanos_eq {u : TimeUnit} (h : u.seconds ≠ 0) : u.nanos = u.seconds * nanosPerSecond := by
  cases u <;> grind [TimeUnit.seconds, TimeUnit.nanos]

theorem nanos_pos (u : TimeUnit) : 0 < u.nanos := by
  cases u <;> decide

structure Part where
  count : Nat
  unit : TimeUnit
  name : String

def Part.text (p : Part) : List Char := Text.natDigits p.count ++ p.name.toList

def Part.length (p : Part) : Nat := p.count * p.unit.nanos

structure Part.Proper (p : Part) : Prop where
  named : p.name ∈ p.unit.names
  fine : p.unit.seconds = 0 → p.length < nanosPerSecond

theorem fit_ok {n : Nat} (h : n < Word.count64) : fit n = .ok n := if_pos h

theorem plus_ok {total added : Span} (h : total + added < bound) :
    plus total added = .ok (total + added) := if_neg (Nat.not_le_of_lt h)

theorem seconds_fit {p : Part} (h : p.length < bound) (hs : p.unit.seconds ≠ 0) :
    p.count * p.unit.seconds < Word.count64 := by
  refine Nat.lt_of_mul_lt_mul_right (a := nanosPerSecond) ?_
  rw [Nat.mul_assoc, ← nanos_eq hs]
  exact h

theorem count_fit {p : Part} (hp : p.Proper) (h : p.length < bound) : p.count < Word.count64 := by
  by_cases hs : p.unit.seconds = 0
  · have hle : p.count ≤ p.length := Nat.le_mul_of_pos_right _ (nanos_pos _)
    have hfine := hp.fine hs
    have hsecond : nanosPerSecond < Word.count64 := by decide
    omega
  · exact Nat.lt_of_le_of_lt (Nat.le_mul_of_pos_right _ (Nat.pos_of_ne_zero hs)) (seconds_fit h hs)

theorem wholePart_ok {p : Part} (hp : p.Proper) (h : p.length < bound) :
    wholePart p.unit p.count = .ok p.length := by
  by_cases hs : p.unit.seconds = 0
  · have hfine := hp.fine hs
    have hsecond : nanosPerSecond < Word.count64 := by decide
    have hfit : p.length < Word.count64 := by omega
    rw [wholePart, if_pos hs]
    exact fit_ok hfit
  · rw [wholePart, if_neg hs, fit_ok (seconds_fit h hs), Part.length, nanos_eq hs, ← Nat.mul_assoc]
    rfl

theorem plusIn_ok {p : Part} (hp : p.Proper) {total : Span} (h : total + p.length < bound) :
    plusIn p.unit total p.length = .ok (total + p.length) := by
  by_cases hs : p.unit.seconds = 0
  · have hfine := hp.fine hs
    have hrest : subsecond total < nanosPerSecond := Nat.mod_lt _ (by decide)
    have hsecond : nanosPerSecond + nanosPerSecond < Word.count64 := by decide
    have hfit : subsecond total + p.length < Word.count64 := by omega
    rw [plusIn, if_pos hs, plusFine, fit_ok hfit]
    exact plus_ok h
  · rw [plusIn, if_neg hs, plus_ok h]

theorem addTerm_part {p : Part} (hp : p.Proper) {total : Span} (h : total + p.length < bound) :
    addTerm total p.count none p.name.toList = .ok (total + p.length) := by
  have hlength : p.length < bound := Nat.lt_of_le_of_lt (Nat.le_add_left _ _) h
  rw [addTerm, String.ofList_toList, ofName?_mem hp.named]
  dsimp only
  rw [wholePart_ok hp hlength]
  show (plusIn p.unit total p.length >>= fun total => pure total) = _
  rw [plusIn_ok hp h]
  rfl

def Adds (total : Span) (s : State) (cs : List Char) (result : Span) : Prop :=
  ∀ i, run total s i cs = .ok result

theorem adds_cons {total next result : Span} {s : State} {c : Char} {cs : List Char}
    (h : ∀ i, ∃ s', step total s i c = .ok (next, s') ∧ Adds next s' cs result) :
    Adds total s (c :: cs) result := by
  intro i
  obtain ⟨s', hs, hcs⟩ := h i
  rw [run, hs]
  exact hcs _

theorem adds_digits {total result : Span} {n : Nat} {ds rest : List Char}
    (hds : ∀ c ∈ ds, Text.isDigit c = true) (hfit : Text.digitsValue n ds < Word.count64)
    (h : Adds total (.whole (Text.digitsValue n ds)) rest result) :
    Adds total (.whole n) (ds ++ rest) result := by
  induction ds generalizing n with
  | nil => exact h
  | cons c ds ih =>
    obtain ⟨hc, hds⟩ := List.forall_mem_cons.mp hds
    have hn : 10 * n + (c.toNat - 48) < Word.count64 :=
      Nat.lt_of_le_of_lt (Text.le_digitsValue _ ds) hfit
    refine adds_cons fun i => ⟨.whole (10 * n + (c.toNat - 48)), ?_, ih hds hfit h⟩
    rw [step, Text.digit?_eq, if_pos hc]
    dsimp only
    rw [fit_ok hn]
    rfl

theorem adds_number {total result : Span} {n since : Nat} {rest : List Char}
    (hfit : n < Word.count64) (h : Adds total (.whole n) rest result) :
    Adds total (.number since) (Text.natDigits n ++ rest) result := by
  have hall : ∀ c ∈ Text.natDigits n, Text.isDigit c = true := fun _ => Text.isDigit_natDigits
  have hvalue := Text.digitsValue_natDigits n
  cases hds : Text.natDigits n with
  | nil => exact absurd hds Nat.toDigits_ne_nil
  | cons c ds =>
    rw [hds] at hall hvalue
    obtain ⟨hc, hds⟩ := List.forall_mem_cons.mp hall
    replace hvalue : Text.digitsValue (c.toNat - 48) ds = n := by
      simpa [Text.digitsValue] using hvalue
    have hrest : Adds total (.whole (c.toNat - 48)) (ds ++ rest) result :=
      adds_digits hds (hvalue.symm ▸ hfit) (hvalue.symm ▸ h)
    refine adds_cons fun i => ⟨.whole (c.toNat - 48), ?_, hrest⟩
    rw [step, Text.digit?_eq, if_pos hc]

theorem adds_letters {total result : Span} {n : Nat} {name letters rest : List Char}
    (hletters : ∀ c ∈ letters, isUnitLetter c = true)
    (h : Adds total (.unit n none (name ++ letters)) rest result) :
    Adds total (.unit n none name) (letters ++ rest) result := by
  induction letters generalizing name with
  | nil => rwa [List.append_nil] at h
  | cons c letters ih =>
    obtain ⟨hc, hletters⟩ := List.forall_mem_cons.mp hletters
    obtain ⟨hdigit, hblank⟩ := letter_plain hc
    refine adds_cons fun i => ⟨.unit n none (name ++ [c]), ?_, ih hletters ?_⟩
    · simp [step, Text.digit?_eq, hdigit, hblank, hc]
    · rwa [List.append_assoc]

theorem adds_text {p : Part} (hp : p.Proper) (hlength : p.length < bound) {total result : Span}
    {rest : List Char} (h : Adds total (.unit p.count none p.name.toList) rest result)
    (since : Nat) : Adds total (.number since) (p.text ++ rest) result := by
  obtain ⟨hne, hletters⟩ := names_letters hp.named
  rw [Part.text, List.append_assoc]
  refine adds_number (count_fit hp hlength) ?_
  cases hname : p.name.toList with
  | nil => exact absurd hname hne
  | cons c letters =>
    rw [hname] at hletters h
    obtain ⟨hc, hletters⟩ := List.forall_mem_cons.mp hletters
    obtain ⟨hdigit, hblank⟩ := letter_plain hc
    refine adds_cons fun i => ⟨.unit p.count none [c], ?_, adds_letters hletters h⟩
    simp [step, Text.digit?_eq, hdigit, hblank, hc]

def totalLength (parts : List Part) : Nat := (parts.map Part.length).sum

def textOf (parts : List Part) : List Char := [' '].intercalate (parts.map Part.text)

theorem adds_parts {parts : List Part} (hne : parts ≠ []) (hparts : ∀ p ∈ parts, p.Proper)
    {total : Span} (h : total + totalLength parts < bound) (since : Nat) :
    Adds total (.number since) (textOf parts) (total + totalLength parts) := by
  induction parts generalizing total since with
  | nil => exact absurd rfl hne
  | cons p parts ih =>
    obtain ⟨hp, hparts⟩ := List.forall_mem_cons.mp hparts
    have hsum : total + totalLength (p :: parts) = total + p.length + totalLength parts := by
      rw [totalLength, List.map_cons, List.sum_cons, ← Nat.add_assoc]
      rfl
    rw [hsum] at h ⊢
    have htotal : total + p.length < bound := Nat.lt_of_le_of_lt (Nat.le_add_right _ _) h
    have hlength : p.length < bound := Nat.lt_of_le_of_lt (Nat.le_add_left _ _) htotal
    have hterm := addTerm_part hp htotal
    cases parts with
    | nil =>
      have hend : Adds total (.unit p.count none p.name.toList) [] (total + p.length) := by
        intro i
        rw [run, finish, hterm]
      rw [textOf, List.map_singleton, List.intercalate_singleton, ← List.append_nil p.text]
      exact adds_text hp hlength hend since
    | cons next parts =>
      have hblank : Adds total (.unit p.count none p.name.toList) (' ' :: textOf (next :: parts))
          (total + p.length + totalLength (next :: parts)) := by
        refine adds_cons fun i => ⟨.number (i + ' '.utf8Size), ?_, ih (List.cons_ne_nil _ _) hparts h _⟩
        rw [step, Text.digit?_eq, if_neg (by decide), if_pos (by decide), hterm]
        rfl
      rw [textOf, List.map_cons, List.map_cons, List.intercalate_cons_cons, List.append_assoc,
        List.singleton_append]
      exact adds_text hp hlength hblank since

structure Framed (cs : List Char) : Prop where
  first : ∃ c, cs.head? = some c ∧ Text.isDigit c = true
  last : ∃ c, cs.getLast? = some c ∧ isUnitLetter c = true

theorem framed_text {p : Part} (hp : p.Proper) : Framed p.text := by
  obtain ⟨hne, hletters⟩ := names_letters hp.named
  constructor
  · cases hds : Text.natDigits p.count with
    | nil => exact absurd hds Nat.toDigits_ne_nil
    | cons c ds =>
      refine ⟨c, by rw [Part.text, hds]; rfl, Text.isDigit_natDigits (n := p.count) ?_⟩
      rw [hds]
      exact List.mem_cons_self
  · refine ⟨p.name.toList.getLast hne, ?_, hletters _ (List.getLast_mem hne)⟩
    rw [Part.text, List.getLast?_append, List.getLast?_eq_getLast_of_ne_nil hne, Option.some_or]

theorem framed_textOf {parts : List Part} (hne : parts ≠ []) (hparts : ∀ p ∈ parts, p.Proper) :
    Framed (textOf parts) := by
  induction parts with
  | nil => exact absurd rfl hne
  | cons p parts ih =>
    obtain ⟨hp, hparts⟩ := List.forall_mem_cons.mp hparts
    have hframed := framed_text hp
    cases parts with
    | nil =>
      rw [textOf, List.map_singleton, List.intercalate_singleton]
      exact hframed
    | cons next parts =>
      have hrest := ih (List.cons_ne_nil _ _) hparts
      obtain ⟨c, hc, hdigit⟩ := hframed.first
      obtain ⟨d, hd, hletter⟩ := hrest.last
      rw [textOf, List.map_cons, List.map_cons, List.intercalate_cons_cons]
      constructor
      · refine ⟨c, ?_, hdigit⟩
        rw [List.head?_append, List.head?_append, hc]
        rfl
      · refine ⟨d, ?_, hletter⟩
        rw [List.getLast?_append]
        exact congrArg (Option.or · _) hd

theorem trimBlank_framed {cs : List Char} (h : Framed cs) : Text.trimBlank cs = cs := by
  have hkeep : ∀ {cs : List Char} {c : Char}, cs.head? = some c → Text.isBlank c = false →
      Text.trimBlankLeft cs = cs := by
    intro cs c hhead hc
    cases cs with
    | nil => cases hhead
    | cons d cs =>
      obtain rfl := Option.some.inj hhead
      exact List.dropWhile_cons_of_neg (by simp [hc])
  obtain ⟨c, hc, hdigit⟩ := h.first
  obtain ⟨d, hd, hletter⟩ := h.last
  rw [Text.trimBlank, hkeep hc (digit_plain hdigit),
    hkeep ((List.head?_reverse).trans hd) (letter_plain hletter).2, List.reverse_reverse]

theorem ofChars_parts {parts : List Part} (hne : parts ≠ []) (hparts : ∀ p ∈ parts, p.Proper)
    (h : totalLength parts < bound) : ofChars (textOf parts) = .ok (totalLength parts) := by
  obtain ⟨⟨c, hc, _⟩, ⟨d, hd, hletter⟩⟩ := framed_textOf hne hparts
  have hzero : textOf parts ≠ ['0'] := by
    intro heq
    rw [heq] at hd
    obtain rfl : '0' = d := Option.some.inj hd
    exact absurd hletter (by decide)
  have hnil : textOf parts ≠ [] := by
    intro heq
    rw [heq] at hc
    cases hc
  rw [← Nat.zero_add (totalLength parts)] at h
  rw [ofChars, if_neg hzero, if_neg hnil, adds_parts hne hparts h 0 0, Nat.zero_add]

structure Spelling where
  unit : TimeUnit
  name : Nat → String

def plural (name : String) (n : Nat) : String := if n = 1 then name else name ++ "s"

def wholeUnits (size : TimeUnit → Nat) : List Spelling → Nat → List Part
  | [], _ => []
  | s :: more, n =>
    ⟨n / size s.unit, s.unit, s.name (n / size s.unit)⟩ :: wholeUnits size more (n % size s.unit)

def rest (size : TimeUnit → Nat) : List Spelling → Nat → Nat
  | [], n => n
  | s :: more, n => rest size more (n % size s.unit)

def coarse : List Spelling :=
  [⟨.year, plural "year"⟩, ⟨.month, plural "month"⟩, ⟨.day, plural "day"⟩, ⟨.hour, fun _ => "h"⟩,
    ⟨.minute, fun _ => "m"⟩, ⟨.second, fun _ => "s"⟩]

def fine : List Spelling :=
  [⟨.milli, fun _ => "ms"⟩, ⟨.micro, fun _ => "us"⟩, ⟨.nano, fun _ => "ns"⟩]

def unitsOf (s : Span) : List Part :=
  wholeUnits TimeUnit.seconds coarse (s / nanosPerSecond) ++
    wholeUnits TimeUnit.nanos fine (s % nanosPerSecond)

def spelledUnits (s : Span) : List Part :=
  if s = 0 then [⟨0, .second, "s"⟩] else (unitsOf s).filter fun p => p.count ≠ 0

theorem totalLength_cons (p : Part) (parts : List Part) :
    totalLength (p :: parts) = p.length + totalLength parts := by
  rw [totalLength, List.map_cons, List.sum_cons]
  rfl

/-- Units of a common measure, and the rest of it, make up the whole. -/
theorem wholeUnits_length {size : TimeUnit → Nat} {measure : Nat} {units : List Spelling}
    (h : ∀ s ∈ units, s.unit.nanos = size s.unit * measure) (n : Nat) :
    totalLength (wholeUnits size units n) + rest size units n * measure = n * measure := by
  induction units generalizing n with
  | nil => exact Nat.zero_add _
  | cons s units ih =>
    obtain ⟨hs, hunits⟩ := List.forall_mem_cons.mp h
    rw [wholeUnits, rest, totalLength_cons, Nat.add_assoc, ih hunits, Part.length, hs,
      ← Nat.mul_assoc, ← Nat.add_mul, Nat.div_add_mod']

theorem wholeUnits_mem {size : TimeUnit → Nat} {units : List Spelling} {n : Nat} {p : Part}
    (hp : p ∈ wholeUnits size units n) : ∃ s ∈ units, p.unit = s.unit ∧ p.name = s.name p.count := by
  induction units generalizing n with
  | nil => cases hp
  | cons s units ih =>
    rcases List.mem_cons.mp hp with rfl | hp
    · exact ⟨s, List.mem_cons_self, rfl, rfl⟩
    · obtain ⟨t, ht, hp⟩ := ih hp
      exact ⟨t, List.mem_cons_of_mem s ht, hp⟩

theorem coarse_names : ∀ s ∈ coarse, s.unit.seconds ≠ 0 ∧ ∀ n, s.name n ∈ s.unit.names := by
  have hplural : ∀ {u : TimeUnit} {name : String}, name ∈ u.names → name ++ "s" ∈ u.names →
      ∀ n, plural name n ∈ u.names := by
    intro u name hone hmany n
    unfold plural
    split
    · exact hone
    · exact hmany
  simp only [coarse, List.forall_mem_cons]
  exact ⟨⟨by decide, hplural (by decide) (by decide)⟩, ⟨by decide, hplural (by decide) (by decide)⟩,
    ⟨by decide, hplural (by decide) (by decide)⟩, ⟨by decide, fun _ => by decide⟩,
    ⟨by decide, fun _ => by decide⟩, ⟨by decide, fun _ => by decide⟩, nofun⟩

theorem fine_names : ∀ s ∈ fine, ∀ n, s.name n ∈ s.unit.names := by
  simp [fine, TimeUnit.names]

theorem fine_length (n : Nat) : totalLength (wholeUnits TimeUnit.nanos fine n) = n := by
  have hfine : ∀ t ∈ fine, t.unit.nanos = t.unit.nanos * 1 := fun _ _ => (Nat.mul_one _).symm
  have hrest : rest TimeUnit.nanos fine n = 0 := Nat.mod_one _
  have hall := wholeUnits_length hfine n
  rwa [hrest, Nat.zero_mul, Nat.add_zero, Nat.mul_one] at hall

theorem coarse_length (n : Nat) :
    totalLength (wholeUnits TimeUnit.seconds coarse n) = n * nanosPerSecond := by
  have hrest : rest TimeUnit.seconds coarse n = 0 := Nat.mod_one _
  have hall := wholeUnits_length (fun t ht => nanos_eq (coarse_names t ht).1) n
  rwa [hrest, Nat.zero_mul, Nat.add_zero] at hall

theorem unitsOf_length (s : Span) : totalLength (unitsOf s) = s := by
  have hboth : totalLength (unitsOf s) =
      totalLength (wholeUnits TimeUnit.seconds coarse (s / nanosPerSecond)) +
        totalLength (wholeUnits TimeUnit.nanos fine (s % nanosPerSecond)) := by
    rw [totalLength, unitsOf, List.map_append, List.sum_append]
    rfl
  rw [hboth, coarse_length, fine_length]
  exact Nat.div_add_mod' s nanosPerSecond

theorem length_le {p : Part} {parts : List Part} (hp : p ∈ parts) :
    p.length ≤ totalLength parts := by
  induction parts with
  | nil => cases hp
  | cons q parts ih =>
    rw [totalLength_cons]
    rcases List.mem_cons.mp hp with rfl | hp
    · exact Nat.le_add_right _ _
    · exact Nat.le_trans (ih hp) (Nat.le_add_left _ _)

theorem unitsOf_proper (s : Span) : ∀ p ∈ unitsOf s, p.Proper := by
  intro p hp
  rcases List.mem_append.mp hp with hp | hp
  · obtain ⟨t, ht, hunit, hname⟩ := wholeUnits_mem hp
    obtain ⟨hseconds, hnames⟩ := coarse_names t ht
    exact ⟨hname ▸ hunit ▸ hnames p.count, fun hzero => absurd (hunit ▸ hzero) hseconds⟩
  · have hle := length_le hp
    have hlt : s % nanosPerSecond < nanosPerSecond := Nat.mod_lt _ (by decide)
    rw [fine_length] at hle
    obtain ⟨t, ht, hunit, hname⟩ := wholeUnits_mem hp
    exact ⟨hname ▸ hunit ▸ fine_names t ht p.count, fun _ => Nat.lt_of_le_of_lt hle hlt⟩

theorem spelledUnits_proper (s : Span) : ∀ p ∈ spelledUnits s, p.Proper := by
  intro p hp
  unfold spelledUnits at hp
  split at hp
  · obtain rfl := List.mem_singleton.mp hp
    exact ⟨by decide, nofun⟩
  · exact unitsOf_proper s p (List.mem_of_mem_filter hp)

theorem filter_length (parts : List Part) :
    totalLength (parts.filter fun p => p.count ≠ 0) = totalLength parts := by
  induction parts with
  | nil => rfl
  | cons p parts ih =>
    by_cases hp : p.count = 0
    · rw [List.filter_cons_of_neg (by simp [hp]), ih, totalLength, totalLength, List.map_cons,
        List.sum_cons, Part.length, hp, Nat.zero_mul, Nat.zero_add]
    · rw [List.filter_cons_of_pos (by simp [hp]), totalLength, List.map_cons, List.sum_cons,
        totalLength, List.map_cons, List.sum_cons]
      exact congrArg _ ih

theorem spelledUnits_length (s : Span) : totalLength (spelledUnits s) = s := by
  unfold spelledUnits
  split
  · rename_i hs
    rw [hs]
    rfl
  · rw [filter_length, unitsOf_length]

theorem spelledUnits_ne_nil (s : Span) : spelledUnits s ≠ [] := by
  intro hnil
  have hlength := spelledUnits_length s
  rw [hnil] at hlength
  obtain rfl : 0 = s := hlength
  cases hnil

/-- Terms that are left out when zero are those of the units that occur. -/
theorem flatMap_term (parts : List Part) :
    (parts.flatMap fun p => term p.count p.name).map String.toList =
      (parts.filter fun p => p.count ≠ 0).map Part.text := by
  induction parts with
  | nil => rfl
  | cons p parts ih =>
    rw [List.flatMap_cons, List.map_append, ih, term]
    by_cases hp : p.count = 0
    · rw [if_pos hp, List.filter_cons_of_neg (by simp [hp])]
      rfl
    · rw [if_neg hp, List.filter_cons_of_pos (by simp [hp])]
      simp [Part.text, Text.natText]

theorem terms_eq (s : Span) : s.terms = (unitsOf s).flatMap fun p => term p.count p.name := by
  have hseconds : ∀ n : Nat, n % 3600 % 60 / 1 = n % 60 := by omega
  have hmicros : ∀ n : Nat, n % 1000000 / 1000 = n / 1000 % 1000 := by omega
  have hnanos : ∀ n : Nat, n % 1000000 % 1000 / 1 = n % 1000 := by omega
  simp only [unitsOf, coarse, fine, wholeUnits, List.flatMap_append, List.flatMap_cons,
    List.flatMap_nil, List.append_nil, ← List.append_assoc, TimeUnit.seconds, TimeUnit.nanos,
    hseconds, hmicros, hnanos]
  rfl

theorem spelled_eq (s : Span) : s.spelled.toList = textOf (spelledUnits s) := by
  unfold spelled spelledUnits
  split
  · decide
  · rw [Text.joinWith, String.toList_intercalate, terms_eq, flatMap_term, textOf]
    rfl

/-- A length that can be represented is read back from its spelled form. -/
theorem parse_spelled {s : Span} (h : s < bound) : Span.parse s.spelled = .ok s := by
  have hframed := framed_textOf (spelledUnits_ne_nil s) (spelledUnits_proper s)
  have hlength := spelledUnits_length s
  rw [Span.parse, spelled_eq, trimBlank_framed hframed, ofChars_parts (spelledUnits_ne_nil s)
    (spelledUnits_proper s) (hlength.symm ▸ h), hlength]

theorem readBounded_spelled (limit : Nat) (s : Span) :
    Text.readBounded limit (Text.trimBlank s.spelled.toList) = none := by
  have hframed := framed_textOf (spelledUnits_ne_nil s) (spelledUnits_proper s)
  rw [spelled_eq, trimBlank_framed hframed]
  obtain ⟨⟨c, hc, hdigit⟩, ⟨d, hd, hletter⟩⟩ := hframed
  have hplus : c ≠ '+' := by
    rintro rfl
    exact absurd hdigit (by decide)
  have hnot : ¬(textOf (spelledUnits s)).all Text.isDigit = true := by
    intro hall
    have := List.all_eq_true.mp hall d (List.mem_of_getLast? hd)
    rw [(letter_plain hletter).1] at this
    cases this
  generalize textOf (spelledUnits s) = cs at hc hnot
  cases cs with
  | nil => cases hc
  | cons e cs =>
    obtain rfl := Option.some.inj hc
    have hread : Text.readNat (e :: cs) = none := if_neg fun h => hnot h.2
    unfold Text.readBounded
    split
    · rename_i heq
      exact absurd (List.cons.inj heq).1 hplus
    · dsimp only
      rw [hread]

end Telemetry.SpelledSpans
