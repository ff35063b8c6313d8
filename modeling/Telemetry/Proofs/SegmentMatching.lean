import Telemetry.Pattern.Segments
import Telemetry.Proofs.PatternPieces

/-!
# Patterns taken apart at the separators

A pattern is read as one text, from the left and without regard to segments.
Yet texts that are cut into pieces are cut so next to each other as well, so
a pattern whose segments compile alone is made of their items with one
separator between neighbours, and it matches the names that are joined from
what the segments match. Such a name has the segments of the pattern when no
segment matches a separator. A class does that when one of its ranges runs
over the separator.
-/

set_option autoImplicit false

namespace Telemetry.SegmentMatching

open Pattern PatternTables PatternPieces

def separator : Item := .atom (.char '/')

theorem cut_separator : Cut SpellsItem ['/'] [separator] :=
  cut_single (.atom (.other (by decide)))

/-- A text is cut into the items of its segments, with one separator between
neighbours. -/
theorem cut_join {texts : List (List Char)} {parts : List (List Item)}
    (h : List.Forall₂ (Cut SpellsItem) texts parts) :
    Cut SpellsItem (Text.join '/' texts) ([separator].intercalate parts) := by
  induction h with
  | nil => exact .nil
  | @cons text items texts parts hcut hrest ih =>
    cases hrest with
    | nil => rwa [Text.join, List.intercalate_singleton]
    | cons =>
      rw [Text.join, List.intercalate_cons_cons, List.append_assoc]
      exact cut_append hcut (cut_append cut_separator ih)

theorem itemsLanguage_append (items rest : List Item) :
    itemsLanguage (items ++ rest) = itemsLanguage items * itemsLanguage rest := by
  rw [itemsLanguage, List.map_append, List.prod_append]
  rfl

theorem mem_separator_mul (l : Language Char) (u : List Char) :
    u ∈ itemLanguage separator * l ↔ ∃ v ∈ l, u = '/' :: v := by
  have hsep : itemLanguage separator = single (· == '/') := rfl
  rw [hsep]
  cases u with
  | nil => simp [nil_mem_single_mul]
  | cons c u =>
    rw [cons_mem_single_mul, beq_iff_eq]
    constructor
    · rintro ⟨rfl, hu⟩
      exact ⟨u, hu, rfl⟩
    · rintro ⟨v, hv, he⟩
      cases he
      exact ⟨rfl, hv⟩

theorem mem_intercalate_cons (items next : List Item) (parts : List (List Item))
    (u : List Char) :
    u ∈ itemsLanguage ([separator].intercalate (items :: next :: parts)) ↔
      ∃ word ∈ itemsLanguage items, ∃ v ∈ itemsLanguage ([separator].intercalate (next :: parts)),
        u = word ++ '/' :: v := by
  have hhead : itemsLanguage [separator] = itemLanguage separator := by
    simp [itemsLanguage]
  rw [List.intercalate_cons_cons, List.append_assoc, itemsLanguage_append, itemsLanguage_append,
    hhead, Language.mem_mul]
  constructor
  · rintro ⟨word, hword, w, hw, rfl⟩
    obtain ⟨v, hv, rfl⟩ := (mem_separator_mul _ w).mp hw
    exact ⟨word, hword, v, hv, rfl⟩
  · rintro ⟨word, hword, v, hv, rfl⟩
    exact ⟨word, hword, '/' :: v, (mem_separator_mul _ _).mpr ⟨v, hv, rfl⟩, rfl⟩

/-- What matches all segments is joined from what matches each of them. -/
theorem mem_intercalate (parts : List (List Item)) (u : List Char) :
    u ∈ itemsLanguage ([separator].intercalate parts) ↔
      ∃ words, List.Forall₂ (fun items word => word ∈ itemsLanguage items) parts words ∧
        u = Text.join '/' words := by
  induction parts generalizing u with
  | nil => simp [itemsLanguage, Text.join]
  | cons items parts ih =>
    cases parts with
    | nil =>
      simp only [List.intercalate_singleton, List.forall₂_cons_left_iff,
        List.forall₂_nil_left_iff]
      constructor
      · intro hu
        exact ⟨[u], ⟨u, [], hu, rfl, rfl⟩, rfl⟩
      · rintro ⟨_, ⟨word, _, hword, rfl, rfl⟩, rfl⟩
        exact hword
    | cons next parts =>
      rw [mem_intercalate_cons]
      constructor
      · rintro ⟨word, hword, v, hv, rfl⟩
        obtain ⟨words, hwords, rfl⟩ := (ih v).mp hv
        refine ⟨word :: words, .cons hword hwords, ?_⟩
        cases hwords
        rfl
      · rintro ⟨words, hall, rfl⟩
        cases hall with
        | cons hword hwords =>
          refine ⟨_, hword, _, (ih _).mpr ⟨_, hwords, rfl⟩, ?_⟩
          cases hwords
          rfl

theorem any_intercalate (f : Item → Bool) (hf : f separator = false)
    (parts : List (List Item)) :
    ([separator].intercalate parts).any f = parts.any (·.any f) := by
  induction parts with
  | nil => rfl
  | cons items parts ih =>
    cases parts with
    | nil => simp
    | cons next parts =>
      rw [List.intercalate_cons_cons, List.any_append, List.any_append, ih, List.any_cons]
      simp [hf]

def atomSpans : Atom → Bool
  | .oneOf k => k.holds '/'
  | _ => false

def itemSpans : Item → Bool
  | .atom a => atomSpans a
  | .choice alternatives => alternatives.any (·.any atomSpans)

def Confined (l : Language Char) : Prop := ∀ u ∈ l, '/' ∉ u

theorem confined_one : Confined 1 := by
  intro u hu
  rw [(Language.mem_one u).mp hu]
  exact List.not_mem_nil

theorem confined_mul {l m : Language Char} (hl : Confined l) (hm : Confined m) :
    Confined (l * m) := by
  intro u hu
  obtain ⟨v, hv, w, hw, rfl⟩ := Language.mem_mul.mp hu
  rw [List.mem_append, not_or]
  exact ⟨hl v hv, hm w hw⟩

theorem confined_add {l m : Language Char} (hl : Confined l) (hm : Confined m) :
    Confined (l + m) := by
  intro u hu
  rcases (Language.mem_add l m u).mp hu with hu | hu
  · exact hl u hu
  · exact hm u hu

theorem confined_single {p : Char → Bool} (h : p '/' = false) : Confined (single p) := by
  rintro u ⟨c, rfl, hc⟩
  rw [List.mem_singleton]
  rintro rfl
  rw [h] at hc
  cases hc

/-- A plain item spelled without separators matches none, unless it is a class
that spans one. -/
theorem spells_confined {piece : List Char} {a : Atom} (h : Spells piece a) (hs : '/' ∉ piece)
    (hno : atomSpans a = false) : Confined (atomLanguage a) := by
  cases h with
  | run => exact fun _ hu => hu
  | any => exact confined_single rfl
  | escape c =>
    have hc : c ≠ '/' := by
      rintro rfl
      simp at hs
    exact confined_single (beq_false_of_ne hc.symm)
  | listed => exact confined_single hno
  | unlisted => exact confined_single hno
  | other =>
    rw [List.mem_singleton] at hs
    exact confined_single (beq_false_of_ne hs)

theorem cut_confined {α : Type} {spells : List Char → α → Prop} {language : α → Language Char}
    {spans : α → Bool} {text : List Char} {xs : List α}
    (hone : ∀ piece x, spells piece x → '/' ∉ piece → spans x = false → Confined (language x))
    (h : Cut spells text xs) (hs : '/' ∉ text) (hno : xs.any spans = false) :
    Confined (xs.map language).prod := by
  induction h with
  | nil => exact confined_one
  | cons hpiece _ ih =>
    rw [List.mem_append, not_or] at hs
    rw [List.any_cons, Bool.or_eq_false_iff] at hno
    rw [List.map_cons, List.prod_cons]
    exact confined_mul (hone _ _ hpiece hs.1 hno.1) (ih hs.2 hno.2)

theorem choices_confined {spans : Atom → Bool} {parts : List (List Char)}
    {choices : List (List Atom)}
    (hone : ∀ piece a, Spells piece a → '/' ∉ piece → spans a = false →
      Confined (atomLanguage a))
    (h : List.Forall₂ (Cut Spells) parts choices) (hs : '/' ∉ Text.join ',' parts)
    (hno : choices.any (·.any spans) = false) :
    Confined (choices.map atomsLanguage).sum := by
  induction h with
  | nil =>
    intro u hu
    exact absurd hu (Language.notMem_zero u)
  | cons hpart _ ih =>
    obtain ⟨hplain, hjoin⟩ := Text.notMem_join_cons hs
    rw [List.any_cons, Bool.or_eq_false_iff] at hno
    rw [List.map_cons, List.sum_cons]
    exact confined_add (cut_confined hone hpart hplain hno.1) (ih hjoin hno.2)

theorem spellsItem_confined {piece : List Char} {i : Item} (h : SpellsItem piece i)
    (hs : '/' ∉ piece) (hno : itemSpans i = false) : Confined (itemLanguage i) := by
  cases h with
  | atom h => exact spells_confined h hs hno
  | choice _ _ h =>
    refine choices_confined (fun _ _ => spells_confined) h (fun hmem => hs ?_) hno
    simp [hmem]

/-- A text without separators that has no class over them stands for names
without separators. -/
theorem items_confined {text : List Char} {items : List Item} (h : Cut SpellsItem text items)
    (hs : '/' ∉ text) (hno : items.any itemSpans = false) : Confined (itemsLanguage items) :=
  cut_confined (fun _ _ => spellsItem_confined) h hs hno

def MatchesAlone [SizeLimit] (segment part : List Char) : Prop :=
  ∃ q, Pattern.compile (String.ofList segment) = .ok q ∧
    q.matchesName (String.ofList part) = true

def Alone [SizeLimit] : List (List Char) → List Pattern → Prop :=
  List.Forall₂ fun segment q => Pattern.compile (String.ofList segment) = .ok q

theorem exists_alone [SizeLimit] {texts : List (List Char)}
    (h : ∀ text ∈ texts, ∃ q, Pattern.compile (String.ofList text) = .ok q) :
    ∃ alone, Alone texts alone := by
  induction texts with
  | nil => exact ⟨[], .nil⟩
  | cons text texts ih =>
    obtain ⟨q, hq⟩ := h text List.mem_cons_self
    obtain ⟨alone, ha⟩ := ih fun t ht => h t (List.mem_cons_of_mem text ht)
    exact ⟨q :: alone, .cons hq ha⟩

theorem alone_of_matches [SizeLimit] {texts parts : List (List Char)}
    (h : List.Forall₂ MatchesAlone texts parts) : ∃ alone, Alone texts alone := by
  induction h with
  | nil => exact ⟨[], .nil⟩
  | cons hm _ ih =>
    obtain ⟨q, hq, -⟩ := hm
    obtain ⟨alone, ha⟩ := ih
    exact ⟨q :: alone, .cons hq ha⟩

theorem matchesName_plain (q : Pattern) {part : List Char} (h : '/' ∉ part) :
    q.matchesName (String.ofList part) = true ↔ part ∈ itemsLanguage q.items := by
  rw [Pattern.matchesName, String.toList_ofList, Text.trimLeft_plain h, accepts_iff]

theorem matchesAlone_iff [SizeLimit] {texts parts : List (List Char)} {alone : List Pattern}
    (ha : Alone texts alone) (hp : ∀ part ∈ parts, '/' ∉ part) :
    List.Forall₂ MatchesAlone texts parts ↔
      List.Forall₂ (fun items word => word ∈ itemsLanguage items)
        (alone.map (·.items)) parts := by
  rw [List.forall₂_map_left_iff]
  unfold Alone at ha
  induction ha generalizing parts with
  | nil => simp
  | @cons text q texts alone hq _ ih =>
    cases parts with
    | nil => simp
    | cons part parts =>
      have hone : MatchesAlone text part ↔ part ∈ itemsLanguage q.items := by
        rw [← matchesName_plain q (hp part List.mem_cons_self)]
        constructor
        · rintro ⟨q', hq', hm⟩
          rw [hq] at hq'
          cases hq'
          exact hm
        · exact fun hm => ⟨q, hq, hm⟩
      rw [List.forall₂_cons, List.forall₂_cons, hone,
        ih fun r hr => hp r (List.mem_cons_of_mem part hr)]

theorem items_eq [SizeLimit] {pattern : String} {p : Pattern} {alone : List Pattern}
    (hp : Pattern.compile pattern = .ok p) (ha : Alone (segments pattern.toList) alone) :
    List.Forall₂ (Cut SpellsItem) (segments pattern.toList) (alone.map (·.items)) ∧
    p.items = [separator].intercalate (alone.map (·.items)) := by
  obtain ⟨hraw, -, hcut, -⟩ := (compile_iff pattern p).mp hp
  have hparts : List.Forall₂ (Cut SpellsItem) (segments pattern.toList) (alone.map (·.items)) := by
    rw [List.forall₂_map_right_iff]
    refine ((List.forall₂_and_left _ _).mpr ⟨Text.split_plain _, ha⟩).imp ?_
    rintro text q ⟨hplain, hq⟩
    obtain ⟨htext, -, hitems, -⟩ := (compile_iff _ q).mp hq
    rwa [htext, String.toList_ofList, Text.trimLeft_plain hplain] at hitems
  have hjoin := cut_join hparts
  rw [segments, Text.join_split, ← hraw] at hjoin
  exact ⟨hparts, cut_unique hcut hjoin⟩

/-- A pattern whose segments compile alone matches the names that are joined
from what the segments match. -/
theorem matchesName_joined [SizeLimit] {pattern : String} {p : Pattern} {alone : List Pattern}
    (hp : Pattern.compile pattern = .ok p) (ha : Alone (segments pattern.toList) alone)
    (name : String) :
    p.matchesName name = true ↔
      ∃ words, List.Forall₂ (fun items word => word ∈ itemsLanguage items)
        (alone.map (·.items)) words ∧
          Text.trimLeft '/' name.toList = Text.join '/' words := by
  rw [Pattern.matchesName, accepts_iff, (items_eq hp ha).2, mem_intercalate]

theorem words_plain {texts words : List (List Char)} {parts : List (List Item)}
    (hr : List.Forall₂ (Cut SpellsItem) texts parts)
    (hw : List.Forall₂ (fun items word => word ∈ itemsLanguage items) parts words)
    (hs : ∀ text ∈ texts, '/' ∉ text) (hno : ∀ items ∈ parts, items.any itemSpans = false) :
    ∀ word ∈ words, '/' ∉ word := by
  induction hw generalizing texts with
  | nil => simp
  | @cons items word parts words hword _ ih =>
    cases hr with
    | cons hread hrest =>
      intro w hw
      rcases List.mem_cons.mp hw with rfl | hw
      · exact items_confined hread (hs _ List.mem_cons_self) (hno _ List.mem_cons_self) _ hword
      · exact ih hrest (fun t ht => hs t (List.mem_cons_of_mem _ ht))
          (fun i hi => hno i (List.mem_cons_of_mem _ hi)) w hw

/-- A compiled pattern matches every name whose segments its own segments,
compiled alone, match one by one. It matches no other name when each of its
segments compiles alone and no class spans the separator. -/
theorem matches_segmentwise [SizeLimit] {pattern : String} {p : Pattern}
    (hp : Pattern.compile pattern = .ok p) (name : String) :
    (List.Forall₂ MatchesAlone (segments pattern.toList) (segments name.toList) →
      p.matchesName name = true) ∧
    ((∀ text ∈ segments pattern.toList, ∃ q, Pattern.compile (String.ofList text) = .ok q) →
      p.items.any itemSpans = false →
      (p.matchesName name = true ↔
        List.Forall₂ MatchesAlone (segments pattern.toList) (segments name.toList))) := by
  have hname : ∀ part ∈ segments name.toList, '/' ∉ part := Text.split_plain _
  have hjoin : Text.join '/' (segments name.toList) = Text.trimLeft '/' name.toList :=
    Text.join_split '/' _
  have hone : List.Forall₂ MatchesAlone (segments pattern.toList) (segments name.toList) →
      p.matchesName name = true := by
    intro h
    obtain ⟨alone, ha⟩ := alone_of_matches h
    exact (matchesName_joined hp ha name).mpr
      ⟨_, (matchesAlone_iff ha hname).mp h, hjoin.symm⟩
  refine ⟨hone, fun halone hno => ⟨fun hm => ?_, hone⟩⟩
  obtain ⟨alone, ha⟩ := exists_alone halone
  obtain ⟨hreads, hitems⟩ := items_eq hp ha
  obtain ⟨words, hwords, heq⟩ := (matchesName_joined hp ha name).mp hm
  rw [hitems, any_intercalate _ rfl, List.any_eq_false] at hno
  have hplain : ∀ word ∈ words, '/' ∉ word :=
    words_plain hreads hwords (Text.split_plain _) fun items hi =>
      Bool.eq_false_of_not_eq_true (hno items hi)
  have hlength : (segments pattern.toList).length = words.length :=
    hreads.length_eq.trans hwords.length_eq
  have hne : words ≠ [] := by
    rintro rfl
    exact Text.split_ne_nil '/' _ (List.eq_nil_of_length_eq_zero hlength)
  have hsegments : segments name.toList = words := by
    rw [segments, heq, Text.split_join hne hplain]
  rw [hsegments]
  exact (matchesAlone_iff ha hplain).mpr hwords

attribute [local instance] SizeLimit.ofAnys

def plainText : String := "/cpu/[!0]*/{user,sys?}"

def plainPattern : Pattern where
  raw := "cpu/[!0]*/{user,sys?}".toList
  items := [.atom (.char 'c'), .atom (.char 'p'), .atom (.char 'u'), .atom (.char '/'),
    .atom (.oneOf ⟨true, [.one '0'], []⟩), .atom .run, .atom (.char '/'),
    .choice [[.char 'u', .char 's', .char 'e', .char 'r'],
      [.char 's', .char 'y', .char 's', .any]]]

theorem compile_plain : Pattern.compile plainText = .ok plainPattern := by
  cbv

theorem plain_alone : ∀ text ∈ segments plainText.toList,
    ∃ q, Pattern.compile (String.ofList text) = .ok q := by
  have hsegments : segments plainText.toList =
      ["cpu".toList, "[!0]*".toList, "{user,sys?}".toList] := by
    decide
  rw [hsegments]
  simp only [List.forall_mem_cons, String.ofList_toList]
  exact ⟨⟨_, by cbv⟩, ⟨_, by cbv⟩, ⟨_, by cbv⟩, by simp⟩

theorem matches_segmentwise_plain :
    Pattern.compile plainText = .ok plainPattern ∧
    (∀ text ∈ segments plainText.toList, ∃ q, Pattern.compile (String.ofList text) = .ok q) ∧
    plainPattern.items.any itemSpans = false ∧
    (plainPattern.matchesName "cpu/a1/sysX" = true ↔
      List.Forall₂ MatchesAlone (segments plainText.toList) (segments "cpu/a1/sysX".toList)) :=
  ⟨compile_plain, plain_alone, by decide,
    (matches_segmentwise compile_plain "cpu/a1/sysX").2 plain_alone (by decide)⟩

/-- A range over the separator matches it, so one segment matches a name of
two. -/
theorem range_crosses_boundary :
    ∃ p, Pattern.compile "a[+-9]b" = .ok p ∧
      (∀ text ∈ segments "a[+-9]b".toList, text ≠ []) ∧
      p.matchesName "a/b" = true ∧
      ¬List.Forall₂ MatchesAlone (segments "a[+-9]b".toList) (segments "a/b".toList) := by
  refine ⟨_, by cbv, by decide, by cbv, fun h => ?_⟩
  exact absurd h.length_eq (by decide)

end Telemetry.SegmentMatching
