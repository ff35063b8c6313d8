import Mathlib.Data.List.Forall2
import Telemetry.Procfs

/-!
# Lines, words and counters of a text

What it is for a text to have given lines, for a line to have given words and
for a word to be a counter, without the readers, and that the readers find
just these. A carriage return at the end of a line is dropped by the reader of
lines, and no reader of words sees it.
-/

set_option autoImplicit false

namespace Telemetry.FileLines

open Procfs (lines readWord64 readWords64)

inductive Spaced : List Char → List (List Char) → Prop where
  | nil : Spaced [] []
  | blank {c : Char} {line : List Char} {ws : List (List Char)} (hc : Text.isBlank c = true)
      (h : Spaced line ws) : Spaced (c :: line) ws
  | word {w line : List Char} {ws : List (List Char)} (hne : w ≠ [])
      (solid : ∀ c ∈ w, Text.isBlank c = false) (apart : ∀ c ∈ line.head?, Text.isBlank c = true)
      (h : Spaced line ws) : Spaced (w ++ line) (w :: ws)

theorem words_blank {c : Char} (hc : Text.isBlank c = true) (line : List Char) :
    Text.words (c :: line) = Text.words line :=
  (Text.words.eq_def _).trans (if_pos hc)

theorem words_word {w : List Char} (hne : w ≠ []) (solid : ∀ c ∈ w, Text.isBlank c = false)
    {line : List Char} (apart : ∀ c ∈ line.head?, Text.isBlank c = true) :
    Text.words (w ++ line) = w :: Text.words line := by
  induction w with
  | nil => exact absurd rfl hne
  | cons c w ih =>
    have hc : ¬Text.isBlank c = true := by simp [solid c List.mem_cons_self]
    rw [List.cons_append]
    refine (Text.words.eq_def _).trans ((if_neg hc).trans ?_)
    cases w with
    | nil =>
      cases line with
      | nil => rfl
      | cons next line => exact if_pos (apart next rfl)
    | cons d w =>
      have hrest := ih (List.cons_ne_nil d w) fun x hx => solid x (List.mem_cons_of_mem c hx)
      have hd : ¬Text.isBlank d = true := by simp [solid d (by simp)]
      refine (if_neg hd).trans ?_
      rw [hrest]

theorem words_spaced {line : List Char} {ws : List (List Char)} (h : Spaced line ws) :
    Text.words line = ws := by
  induction h with
  | nil => rfl
  | blank hc _ ih => rw [words_blank hc, ih]
  | word hne solid apart _ ih => rw [words_word hne solid apart, ih]

/-- A line that begins with no blank begins with its first word. -/
theorem spaced_solid {c : Char} (hc : Text.isBlank c = false) {line : List Char}
    {ws : List (List Char)} (h : Spaced (c :: line) ws) :
    ∃ w rest later, line = w ++ rest ∧ (∀ x ∈ w, Text.isBlank x = false) ∧
      (∀ x ∈ rest.head?, Text.isBlank x = true) ∧ Spaced rest later := by
  generalize htext : c :: line = text at h
  cases h with
  | nil => cases htext
  | blank hblank _ =>
    cases htext
    rw [hc] at hblank
    cases hblank
  | @word w rest later hne solid apart h =>
    obtain ⟨d, w, rfl⟩ := List.exists_cons_of_ne_nil hne
    cases htext
    exact ⟨w, rest, later, rfl, fun x hx => solid x (List.mem_cons_of_mem _ hx), apart, h⟩

theorem spaced_words (line : List Char) : Spaced line (Text.words line) := by
  induction line with
  | nil => exact .nil
  | cons c line ih =>
    by_cases hc : Text.isBlank c = true
    · rw [words_blank hc]
      exact .blank hc ih
    · rw [Bool.not_eq_true] at hc
      suffices hcut : ∃ w rest, line = w ++ rest ∧ (∀ x ∈ w, Text.isBlank x = false) ∧
          (∀ x ∈ rest.head?, Text.isBlank x = true) ∧ Spaced rest (Text.words rest) by
        obtain ⟨w, rest, rfl, hw, hapart, hrest⟩ := hcut
        have hall : ∀ x ∈ c :: w, Text.isBlank x = false := by simpa using ⟨hc, hw⟩
        rw [← List.cons_append, words_word (List.cons_ne_nil c w) hall hapart]
        exact .word (List.cons_ne_nil c w) hall hapart hrest
      cases line with
      | nil => exact ⟨[], [], rfl, by simp, by simp, .nil⟩
      | cons d line =>
        by_cases hd : Text.isBlank d = true
        · exact ⟨[], d :: line, rfl, by simp, by simpa using hd, ih⟩
        · rw [Bool.not_eq_true] at hd
          obtain ⟨w, rest, later, rfl, hw, hapart, hlater⟩ := spaced_solid hd ih
          refine ⟨d :: w, rest, rfl, by simpa using ⟨hd, hw⟩, hapart, ?_⟩
          rwa [words_spaced hlater]

theorem spaced_iff (line : List Char) (ws : List (List Char)) :
    Spaced line ws ↔ Text.words line = ws :=
  ⟨words_spaced, fun h => h ▸ spaced_words line⟩

theorem words_trailing {c : Char} (hc : Text.isBlank c = true) (line : List Char) :
    Text.words (line ++ [c]) = Text.words line := by
  have h := spaced_words line
  rw [← spaced_iff]
  generalize Text.words line = ws at h ⊢
  induction h with
  | nil => exact .blank hc .nil
  | blank hblank _ ih => exact .blank hblank ih
  | @word w rest ws hne solid apart _ ih =>
    rw [List.append_assoc]
    refine .word hne solid (fun x hx => ?_) ih
    cases rest with
    | nil => exact Option.some.inj hx ▸ hc
    | cons d rest => exact apart x hx

inductive Lined : List Char → List (List Char) → Prop where
  | nil : Lined [] []
  | last {line : List Char} (plain : '\n' ∉ line) (hne : line ≠ []) : Lined line [line]
  | line {line text : List Char} {lines : List (List Char)} (plain : '\n' ∉ line)
      (h : Lined text lines) : Lined (line ++ '\n' :: text) (line :: lines)

def lineParts (text : List Char) : List (List Char) :=
  let parts := Text.split '\n' text
  if parts.getLast? = some [] then parts.dropLast else parts

theorem lineParts_lined {text : List Char} {ls : List (List Char)} (h : Lined text ls) :
    lineParts text = ls := by
  induction h with
  | nil => rfl
  | last plain hne =>
    rw [lineParts, Text.split_single plain]
    exact if_neg (by simpa using hne)
  | @line line text lines plain _ ih =>
    obtain ⟨part, parts, hsplit⟩ := List.exists_cons_of_ne_nil (Text.split_ne_nil '\n' text)
    rw [lineParts, hsplit] at ih
    rw [lineParts, Text.split_append plain, hsplit]
    rw [List.getLast?_cons_cons, List.dropLast_cons_cons, ← ih]
    split <;> rfl

theorem lined_join {parts : List (List Char)} (hne : parts ≠ [])
    (plain : ∀ part ∈ parts, '\n' ∉ part) :
    Lined (Text.join '\n' parts) (if parts.getLast? = some [] then parts.dropLast else parts) := by
  induction parts with
  | nil => exact absurd rfl hne
  | cons part parts ih =>
    obtain ⟨hpart, hparts⟩ := List.forall_mem_cons.mp plain
    cases parts with
    | nil =>
      rw [Text.join]
      cases part with
      | nil => exact .nil
      | cons c part => exact .last hpart (List.cons_ne_nil c part)
    | cons next parts =>
      rw [List.getLast?_cons_cons, List.dropLast_cons_cons, ← apply_ite (List.cons part)]
      exact .line hpart (ih (List.cons_ne_nil next parts) hparts)

theorem lined_lineParts (text : List Char) : Lined text (lineParts text) := by
  have h := lined_join (Text.split_ne_nil '\n' text) (Text.split_plain text)
  rwa [Text.join_split] at h

theorem lined_iff (text : List Char) (ls : List (List Char)) :
    Lined text ls ↔ lineParts text = ls :=
  ⟨lineParts_lined, fun h => h ▸ lined_lineParts text⟩

def withoutReturn (line : List Char) : List Char :=
  if line.getLast? = some '\r' then line.dropLast else line

theorem lines_lined {text : List Char} {ls : List (List Char)} (h : Lined text ls) :
    lines text = ls.map withoutReturn :=
  congrArg (List.map withoutReturn) (lineParts_lined h)

theorem words_withoutReturn (line : List Char) :
    Text.words (withoutReturn line) = Text.words line := by
  unfold withoutReturn
  split
  · rename_i hlast
    conv_rhs => rw [← List.dropLast_append_getLast? '\r' hlast]
    exact (words_trailing (by decide) _).symm
  · rfl

theorem withoutReturn_append {front : List Char} (hfront : front.getLast? ≠ some '\r')
    (rest : List Char) : withoutReturn (front ++ rest) = front ++ withoutReturn rest := by
  cases rest with
  | nil =>
    rw [List.append_nil]
    exact (if_neg hfront).trans (List.append_nil front).symm
  | cons c rest =>
    have hne : c :: rest ≠ [] := List.cons_ne_nil c rest
    rw [withoutReturn, withoutReturn, List.getLast?_append_of_ne_nil front hne,
      List.dropLast_append_of_ne_nil hne]
    split <;> rfl

theorem withoutReturn_begins (line : List Char) : withoutReturn line <+: line := by
  unfold withoutReturn
  split
  · exact List.dropLast_prefix line
  · exact List.prefix_rfl

structure Counter (w : List Char) (n : ℕ) : Prop where
  written : w ≠ []
  digits : ∀ c ∈ w, Text.isDigit c = true
  value : Nat.ofDigitChars 10 w 0 = n
  bounded : n < Word.count64

instance (w : List Char) (n : ℕ) : Decidable (Counter w n) :=
  decidable_of_iff
    (w ≠ [] ∧ w.all Text.isDigit = true ∧ Nat.ofDigitChars 10 w 0 = n ∧ n < Word.count64)
    ⟨fun h => ⟨h.1, List.all_eq_true.mp h.2.1, h.2.2.1, h.2.2.2⟩,
      fun h => ⟨h.written, List.all_eq_true.mpr h.digits, h.value, h.bounded⟩⟩

theorem readWord64_counter {w : List Char} {n : ℕ} (h : Counter w n) : readWord64 w = some n := by
  have hread : Text.readNat w = some n := by
    rw [Text.readNat, if_pos ⟨h.written, List.all_eq_true.mpr h.digits⟩]
    exact congrArg some h.value
  obtain ⟨c, cs, rfl⟩ := List.exists_cons_of_ne_nil h.written
  have hc : c ≠ '+' := by
    rintro rfl
    exact absurd (h.digits '+' List.mem_cons_self) (by decide)
  unfold readWord64 Text.readBounded
  split
  · rename_i heq
    exact absurd (List.cons.inj heq).1 hc
  · dsimp only
    rw [hread]
    exact if_pos h.bounded

theorem readWords64_counters {ws : List (List Char)} {ns : List ℕ}
    (h : List.Forall₂ Counter ws ns) : readWords64 ws = some ns := by
  induction h with
  | nil => rfl
  | cons hw _ ih => rw [readWords64, readWord64_counter hw, ih]

end Telemetry.FileLines
