import Telemetry.Pipeline.Basic
import Telemetry.Proofs.KeySelection
import Telemetry.Proofs.TextBytes

/-!
# Which override decides a tag

Overrides are applied in the order of their keys, and each one that starts the
name of a metric sets all of its tags. So for every tag the last override that
defines it decides, and a tag that none defines is left alone. Tags are no part
of a name, so the same overrides decide when they are applied again.
-/

set_option autoImplicit false

namespace Telemetry.TagOverrides

open Pipeline KeySelection

def Agree (x y : List Char) : Prop := x = y ∨ x = dynamicValue ∨ y = dynamicValue

def Starts (start name : String) : Prop :=
  ∃ front rest, segments name.toList = front ++ rest ∧
    List.Forall₂ Agree front (innerSegments start.toList)

theorem segmentsAgree_iff (x y : List Char) : segmentsAgree x y = true ↔ Agree x y := by
  simp [segmentsAgree, Agree, or_assoc]

theorem agreeAlong_front (actual expected : List (List Char)) :
    agreeAlong actual expected = true ↔
      ∃ front rest, actual = front ++ rest ∧ List.Forall₂ Agree front expected := by
  induction expected generalizing actual with
  | nil =>
    constructor
    · intro _
      exact ⟨[], actual, rfl, .nil⟩
    · intro _
      cases actual <;> rfl
  | cons e expected ih =>
    cases actual with
    | nil =>
      constructor
      · intro h
        cases h
      · rintro ⟨front, rest, happend, hall⟩
        cases hall
        cases happend
    | cons a actual =>
      rw [agreeAlong, Bool.and_eq_true, segmentsAgree_iff, ih]
      constructor
      · rintro ⟨hhead, front, rest, rfl, hall⟩
        exact ⟨a :: front, rest, rfl, .cons hhead hall⟩
      · rintro ⟨front, rest, happend, hall⟩
        cases hall with
        | cons hhead hall =>
          cases happend
          exact ⟨hhead, _, rest, rfl, hall⟩

theorem hasSegmentStart_iff (name start : String) :
    hasSegmentStart name start = true ↔ Starts start name := by
  unfold hasSegmentStart beginsWith Starts innerSegments
  rw [← trimmed]
  by_cases h : trimmed start.toList = []
  · simp only [h, if_true, true_iff]
    exact ⟨[], _, rfl, .nil⟩
  · simp only [h, if_false]
    exact agreeAlong_front _ _

def given (name key : String) (o : String × Tags) : Option String :=
  if hasSegmentStart name o.1 then o.2.get? key else none

theorem applyOverride_eq (m : Metric) (o : String × Tags) :
    applyOverride m o = { m with tags := (applyOverride m o).tags } := by
  unfold applyOverride
  by_cases h : hasSegmentStart m.name o.1 = true
  · rw [if_pos h]
  · rw [if_neg h]

theorem foldl_eq (l : List (String × Tags)) (m : Metric) :
    l.foldl applyOverride m = { m with tags := (l.foldl applyOverride m).tags } := by
  induction l generalizing m with
  | nil => rfl
  | cons o l ih =>
    rw [List.foldl_cons, ih, applyOverride_eq]

theorem applyOverride_tags (m : Metric) (o : String × Tags) (key : String) :
    (applyOverride m o).tags.get? key = (given m.name key o).or (m.tags.get? key) := by
  unfold applyOverride given
  by_cases h : hasSegmentStart m.name o.1 = true
  · rw [if_pos h, if_pos h]
    exact Dict.get?_update m.tags o.2 key
  · rw [if_neg h, if_neg h, Option.none_or]

/-- The last override that gives the tag a value gives it the value it has. -/
theorem foldl_tags (l : List (String × Tags)) (m : Metric) (key : String) :
    (l.foldl applyOverride m).tags.get? key =
      (l.reverse.findSome? (given m.name key)).or (m.tags.get? key) := by
  induction l generalizing m with
  | nil => rfl
  | cons o l ih =>
    have hname : (applyOverride m o).name = m.name := by
      rw [applyOverride_eq]
      rfl
    rw [List.foldl_cons, ih, hname, applyOverride_tags, List.reverse_cons, List.findSome?_append,
      Option.or_assoc, List.findSome?_singleton]

section Decides

variable (overrides : Dict Tags) (name key : String)

def Defines (start value : String) : Prop :=
  ∃ tags, overrides.get? start = some tags ∧ Starts start name ∧ tags.get? key = some value

/-- Of the overrides that define the tag, the one whose key has the greatest
bytes. -/
def Decides (start value : String) : Prop :=
  Defines overrides name key start value ∧ ∀ other v, Defines overrides name key other v →
    other = start ∨ other.toUTF8.data.toList < start.toUTF8.data.toList

variable {overrides name key}

theorem given_iff (o : String × Tags) (value : String) :
    given name key o = some value ↔ Starts o.1 name ∧ o.2.get? key = some value := by
  rw [← hasSegmentStart_iff]
  simp [given]

theorem defines_iff (start value : String) :
    Defines overrides name key start value ↔
      ∃ tags, (start, tags) ∈ overrides.entries ∧ given name key (start, tags) = some value := by
  simp only [given_iff]
  constructor
  · rintro ⟨tags, hget, hgiven⟩
    exact ⟨tags, Dict.mem_of_get? hget, hgiven⟩
  · rintro ⟨tags, hmem, hgiven⟩
    exact ⟨tags, Dict.get?_of_mem hmem, hgiven⟩

/-- The override found first from the end is the one that decides. -/
theorem decides_of_last {value : String}
    (h : overrides.entries.reverse.findSome? (given name key) = some value) :
    ∃ start, Decides overrides name key start value := by
  obtain ⟨later, ⟨start, tags⟩, sooner, hsplit, hgiven, hlater⟩ := List.findSome?_eq_some_iff.mp h
  have hentries : overrides.entries = sooner.reverse ++ (start, tags) :: later.reverse := by
    rw [← List.reverse_reverse overrides.entries, hsplit]
    simp
  refine ⟨start, (defines_iff start value).mpr ⟨tags, by simp [hentries], hgiven⟩, ?_⟩
  intro other v hother
  obtain ⟨tags', hmem, hgiven'⟩ := (defines_iff other v).mp hother
  have hincreasing := overrides.increasing
  rw [hentries] at hmem hincreasing
  rcases List.mem_append.mp hmem with hmem | hmem
  · right
    rw [← TextBytes.lt_iff_bytes]
    exact (List.pairwise_append.mp hincreasing).2.2 _ hmem _ List.mem_cons_self
  · rcases List.mem_cons.mp hmem with hsame | hmem
    · exact Or.inl (congrArg Prod.fst hsame)
    · rw [hlater _ (List.mem_reverse.mp hmem)] at hgiven'
      cases hgiven'

theorem last_of_undefined (h : ∀ start value, ¬Defines overrides name key start value) :
    overrides.entries.reverse.findSome? (given name key) = none := by
  rw [List.findSome?_eq_none_iff]
  rintro ⟨start, tags⟩ hmem
  cases hgiven : given name key (start, tags) with
  | none => rfl
  | some value =>
    exact absurd ((defines_iff start value).mpr ⟨tags, List.mem_reverse.mp hmem, hgiven⟩)
      (h start value)

end Decides

structure Retagged (overrides : Dict Tags) (m m' : Metric) : Prop where
  rest : m' = { m with tags := m'.tags }
  decided : ∀ key start value, Defines overrides m.name key start value →
    ∃ top v, Decides overrides m.name key top v ∧ m'.tags.get? key = some v
  kept : ∀ key, (∀ start value, ¬Defines overrides m.name key start value) →
    m'.tags.get? key = m.tags.get? key

theorem applyTags_retagged (overrides : Dict Tags) (m : Metric) :
    Retagged overrides m (applyTags overrides m) where
  rest := foldl_eq overrides.entries m
  decided := by
    intro key start value hdefines
    rw [applyTags, foldl_tags]
    cases hlast : overrides.entries.reverse.findSome? (given m.name key) with
    | none =>
      obtain ⟨tags, hmem, hgiven⟩ := (defines_iff start value).mp hdefines
      have hno := List.findSome?_eq_none_iff.mp hlast _ (List.mem_reverse.mpr hmem)
      rw [hgiven] at hno
      cases hno
    | some v =>
      obtain ⟨top, hdecides⟩ := decides_of_last hlast
      exact ⟨top, v, hdecides, rfl⟩
  kept := by
    intro key h
    rw [applyTags, foldl_tags, last_of_undefined h, Option.none_or]

/-- The overrides that start a name are the same after they were applied. -/
theorem applyTags_again (overrides : Dict Tags) (m : Metric) :
    applyTags overrides (applyTags overrides m) = applyTags overrides m := by
  have hname : (applyTags overrides m).name = m.name := by
    rw [applyTags, foldl_eq]
    rfl
  have htags :
      (applyTags overrides (applyTags overrides m)).tags = (applyTags overrides m).tags := by
    ext key : 1
    rw [applyTags, foldl_tags, hname, applyTags, foldl_tags, ← Option.or_assoc, Option.or_self]
  rw [applyTags, foldl_eq, ← applyTags, htags, applyTags, foldl_eq]

/-- Overrides set, for every metric of a batch, each tag that is defined by an
override whose key starts the metric's name, to the value that the one with the
greatest key among them gives it. Nothing else changes, and nothing at all when
they are applied again. -/
theorem tags_overridden (overrides : Dict Tags) (batch : List Metric) :
    List.Forall₂ (Retagged overrides) batch (batch.map (applyTags overrides)) ∧
    (batch.map (applyTags overrides)).map (applyTags overrides) =
      batch.map (applyTags overrides) := by
  constructor
  · rw [List.forall₂_map_right_iff, List.forall₂_same]
    exact fun m _ => applyTags_retagged overrides m
  · rw [List.map_map]
    exact List.map_congr_left fun m _ => applyTags_again overrides m

example :
    (applyTags
      (Dict.ofList [("cpu/*", Dict.ofList [("rack", "b2")]), ("/cpu", Dict.ofList [("rack", "a1"),
        ("site", "x")]), ("cpu/cpu1", Dict.ofList [("rack", "c3")])])
      ⟨Namespace.parse "cpu/cpu0/user", ⟨100, 0⟩, .int 5, Dict.ofList [("host", "n1"),
        ("rack", "none")], "", 1⟩).tags =
      Dict.ofList [("host", "n1"), ("rack", "b2"), ("site", "x")] := by
  decide

end Telemetry.TagOverrides
