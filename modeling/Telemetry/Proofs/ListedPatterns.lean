import Telemetry.Proofs.KeySelection
import Telemetry.Proofs.PatternPieces
import Telemetry.Proofs.RateHistory

/-!
# Patterns in a list

The patterns of metrics to be averaged are given as one text with commas between
them, and the text is cut at every comma, also at one inside of a pattern. So a
list of patterns without commas is read as it was written. A comma inside of
braces, of brackets or after an escape leaves a part that ends in the middle of
an item, and such a part is refused.
-/

set_option autoImplicit false

namespace Telemetry.ListedPatterns

open Pattern PatternPieces RateHistory
open KeySelection (CompiledKeys compileAll_ok compiledKeys_key compiledKeys_pattern)
open PatternReading (readBody_join)

theorem spells_unique {piece other rest more : List Char} {a b : Atom} (h : Spells piece a)
    (h' : Spells other b) (heq : piece ++ rest = other ++ more) : piece = other := by
  obtain ⟨c, cs, rfl, -, hread⟩ := spells_readAtom h
  obtain ⟨d, ds, rfl, -, hread'⟩ := spells_readAtom h'
  rw [List.cons_append, List.cons_append] at heq
  obtain ⟨rfl, htail⟩ := List.cons.inj heq
  have hsame := hread rest
  rw [htail, hread' more] at hsame
  obtain ⟨-, rfl⟩ := Prod.mk.inj (Except.ok.inj hsame)
  rw [List.append_cancel_right htail]

theorem spellsItem_unique {piece other rest more : List Char} {i j : Item}
    (h : SpellsItem piece i) (h' : SpellsItem other j) (heq : piece ++ rest = other ++ more) :
    piece = other := by
  cases h with
  | atom h =>
    cases h' with
    | atom h' => exact spells_unique h h' heq
    | choice _ _ _ =>
      obtain ⟨c, cs, rfl, hc, -⟩ := spells_readAtom h
      exact absurd (List.cons.inj heq).1 hc
  | choice bare _ _ =>
    cases h' with
    | atom h' =>
      obtain ⟨c, cs, rfl, hc, -⟩ := spells_readAtom h'
      exact absurd (List.cons.inj heq).1.symm hc
    | choice bare' _ _ =>
      simp only [List.cons_append, List.append_assoc, List.nil_append] at heq
      have hsame := readBody_join bare rest
      rw [(List.cons.inj heq).2, readBody_join bare' more] at hsame
      rw [(Prod.mk.inj (Except.ok.inj hsame)).1]

theorem spellsItem_ne_nil {piece : List Char} {i : Item} (h : SpellsItem piece i) :
    piece ≠ [] := by
  cases h with
  | atom h =>
    obtain ⟨c, cs, rfl, -⟩ := spells_readAtom h
    exact List.cons_ne_nil c cs
  | choice _ _ _ => exact List.cons_ne_nil _ _

theorem spellsItem_char {c : Char} {more : List Char} {i : Item} (hc : isOperator c = false)
    (h : SpellsItem (c :: more) i) : more = [] := by
  simp only [isOperator, Bool.or_eq_false_iff, beq_eq_false_iff_ne] at hc
  have hother : SpellsItem [c] (.atom (.char c)) := .atom (.other (by simp [hc]))
  have heq := spellsItem_unique hother h (show [c] ++ more = (c :: more) ++ [] by simp)
  exact (List.cons.inj heq).2.symm

theorem cut_rest {piece rest : List Char} {i : Item} {items : List Item}
    (h : Cut SpellsItem (piece ++ rest) items) (hi : SpellsItem piece i) :
    ∃ later, Cut SpellsItem rest later := by
  generalize htext : piece ++ rest = text at h
  cases h with
  | nil => exact absurd (List.append_eq_nil_iff.mp htext).1 (spellsItem_ne_nil hi)
  | @cons other text j later hj hrest =>
    obtain rfl := spellsItem_unique hi hj htext
    rw [List.append_cancel_left htext]
    exact ⟨later, hrest⟩

def Unfinished (text : List Char) : Prop :=
  ∃ front items start more i, text = front ++ start ∧ Cut SpellsItem front items ∧
    start ≠ [] ∧ more ≠ [] ∧ SpellsItem (start ++ more) i

theorem Unfinished.ne_nil {text : List Char} (h : Unfinished text) : text ≠ [] := by
  obtain ⟨front, items, start, more, i, rfl, -, hstart, -⟩ := h
  exact List.append_ne_nil_of_right_ne_nil front hstart

theorem unfinished_uncut {text : List Char} (h : Unfinished text) (items : List Item) :
    ¬Cut SpellsItem text items := by
  obtain ⟨front, fronts, start, more, i, rfl, hfront, hstart, hmore, hi⟩ := h
  induction hfront generalizing items with
  | nil =>
    intro hcut
    rw [List.nil_append] at hcut
    cases hcut with
    | nil => exact hstart rfl
    | @cons piece text j js hpiece _ =>
      have heq := spellsItem_unique hpiece hi
        (show piece ++ (text ++ more) = (piece ++ text ++ more) ++ [] by simp)
      have hlength := congrArg List.length heq
      simp only [List.length_append] at hlength
      exact hmore (List.length_eq_zero_iff.mp (by omega))
  | cons hpiece _ ih =>
    intro hcut
    rw [List.append_assoc] at hcut
    obtain ⟨later, hlater⟩ := cut_rest hcut hpiece
    exact ih later hlater

/-- A character that is no operator does not begin what is not finished. -/
theorem unfinished_tail {c : Char} {text : List Char} (hc : isOperator c = false)
    (h : Unfinished (c :: text)) : Unfinished text := by
  obtain ⟨front, items, start, more, i, htext, hfront, hstart, hmore, hi⟩ := h
  cases hfront with
  | nil =>
    rw [List.nil_append] at htext
    rw [← htext, List.cons_append] at hi
    exact absurd (List.append_eq_nil_iff.mp (spellsItem_char hc hi)).2 hmore
  | @cons piece front j js hpiece hrest =>
    obtain ⟨d, ds, rfl⟩ := List.exists_cons_of_ne_nil (spellsItem_ne_nil hpiece)
    obtain ⟨rfl, htail⟩ := List.cons.inj htext
    obtain rfl := spellsItem_char hc hpiece
    exact ⟨front, js, start, more, i, htail, hrest, hstart, hmore, hi⟩

theorem unfinished_init {c : Char} {text : List Char} (hc : isOperator c = false)
    (h : Unfinished (text ++ [c])) : Unfinished text := by
  obtain ⟨front, items, start, more, i, htext, hfront, hstart, hmore, hi⟩ := h
  obtain ⟨start, d, rfl⟩ := (List.eq_nil_or_concat' start).resolve_left hstart
  rw [← List.append_assoc] at htext
  obtain ⟨rfl, hlast⟩ := List.append_inj' htext rfl
  obtain rfl := (List.cons.inj hlast).1
  rw [List.append_assoc] at hi
  refine ⟨front, items, start, [c] ++ more, i, rfl, hfront, ?_, by simp, hi⟩
  rintro rfl
  exact hmore (spellsItem_char hc hi)

theorem isOperator_blank {c : Char} (h : Text.isBlank c = true) : isOperator c = false := by
  by_contra hop
  simp only [isOperator, Bool.not_eq_false, Bool.or_eq_true, beq_iff_eq] at hop
  rcases hop with (((rfl | rfl) | rfl) | rfl) | rfl <;> exact absurd h (by decide)

theorem unfinished_dropWhile {f : Char → Bool} (hf : ∀ c, f c = true → isOperator c = false)
    {text : List Char} (h : Unfinished text) : Unfinished (text.dropWhile f) := by
  induction text with
  | nil => exact h
  | cons c text ih =>
    by_cases hc : f c = true
    · rw [List.dropWhile_cons_of_pos hc]
      exact ih (unfinished_tail (hf c hc) h)
    · rwa [List.dropWhile_cons_of_neg hc]

theorem unfinished_trimRight {text : List Char} (h : Unfinished text.reverse) :
    Unfinished (Text.trimBlankLeft text).reverse := by
  induction text with
  | nil => exact h
  | cons c text ih =>
    rw [Text.trimBlankLeft]
    by_cases hc : Text.isBlank c = true
    · rw [List.dropWhile_cons_of_pos hc]
      rw [List.reverse_cons] at h
      exact ih (unfinished_init (isOperator_blank hc) h)
    · rwa [List.dropWhile_cons_of_neg hc]

theorem unfinished_trimBlank {text : List Char} (h : Unfinished text) :
    Unfinished (Text.trimBlank text) := by
  refine unfinished_trimRight ?_
  rw [List.reverse_reverse]
  exact unfinished_dropWhile (fun _ => isOperator_blank) h

def Accepted [SizeLimit] (text : String) : Prop := ∃ p, Pattern.compile text = .ok p

theorem unfinished_refused [SizeLimit] {text : List Char} (h : Unfinished text) :
    ¬Accepted (String.ofList text) := by
  rintro ⟨p, hp⟩
  obtain ⟨hraw, -, hcut, -⟩ := (compile_iff _ p).mp hp
  rw [String.toList_ofList] at hraw
  rw [hraw] at hcut
  refine unfinished_uncut (unfinished_dropWhile (fun c hc => ?_) h) _ hcut
  rw [beq_iff_eq.mp hc]
  rfl

theorem accepted_ne_nil [SizeLimit] {text : String} (h : Accepted text) : text.toList ≠ [] := by
  obtain ⟨p, hp⟩ := h
  obtain ⟨hraw, hne, -⟩ := (compile_iff text p).mp hp
  intro hnil
  rw [hraw, hnil] at hne
  exact hne rfl

theorem compileAll_accepted [SizeLimit] (texts : List String) :
    (∃ ps, Pattern.compileAll texts = .ok ps) ↔ ∀ t ∈ texts, Accepted t := by
  induction texts with
  | nil => simp [Pattern.compileAll]
  | cons text texts ih =>
    rw [List.forall_mem_cons, ← ih, Accepted, Pattern.compileAll]
    cases Pattern.compile text with
    | error e => simp
    | ok p => cases Pattern.compileAll texts <;> simp

def CommaInside (text : List Char) : Prop :=
  ∃ front items piece i rest, text = front ++ (piece ++ rest) ∧ Cut SpellsItem front items ∧
    SpellsItem piece i ∧ ',' ∈ piece ∧ piece ≠ [',']

/-- The part that goes up to a first comma inside of an item is not finished. -/
theorem unfinished_before {done piece : List Char} {items : List Item} {i : Item}
    (hdone : Cut SpellsItem done items) (hplain : ',' ∉ done) (hi : SpellsItem piece i)
    (hc : ',' ∈ piece) (hne : piece ≠ [',']) (rest : List Char) :
    ∃ part ∈ Text.split ',' (done ++ (piece ++ rest)), Unfinished part := by
  obtain ⟨start, more, rfl, hstart⟩ := List.eq_append_cons_of_mem hc
  refine ⟨done ++ start, ?_, done, items, start, ',' :: more, i, rfl, hdone, ?_, by simp, hi⟩
  · have hfront : ',' ∉ done ++ start := by simp [hplain, hstart]
    rw [List.append_assoc, List.cons_append, ← List.append_assoc, Text.split_append hfront]
    exact List.mem_cons_self
  · rintro rfl
    exact hne (by rw [List.nil_append, spellsItem_char (by decide) hi])

theorem unfinished_part {text : List Char} (h : CommaInside text) :
    ∃ part ∈ Text.split ',' text, Unfinished part := by
  obtain ⟨front, items, piece, i, rest, rfl, hfront, hi, hc, hne⟩ := h
  -- The induction is on the items in front, and `done` are those since the last comma.
  suffices hgo : ∀ done fronts, Cut SpellsItem done fronts → ',' ∉ done →
      ∃ part ∈ Text.split ',' (done ++ (front ++ (piece ++ rest))), Unfinished part from
    hgo [] [] .nil (by simp)
  induction hfront with
  | nil =>
    intro done fronts hdone hplain
    exact unfinished_before hdone hplain hi hc hne rest
  | @cons q front j js hq _ ih =>
    intro done fronts hdone hplain
    rw [List.append_assoc]
    by_cases hcomma : ',' ∈ q
    · by_cases halone : q = [',']
      · obtain ⟨part, hpart, hun⟩ := ih [] [] .nil (by simp)
        refine ⟨part, ?_, hun⟩
        rw [halone, List.singleton_append, Text.split_sep_append]
        exact List.mem_append_right _ hpart
      · exact unfinished_before hdone hplain hq hcomma halone _
    · rw [← List.append_assoc]
      exact ih (done ++ q) _ (cut_append hdone (cut_single hq)) (by simp [hplain, hcomma])

def listing (texts : List String) : String := Text.joinWith "," texts

theorem split_listing {texts : List String} (hne : texts ≠ []) :
    Text.split ',' (listing texts).toList = texts.flatMap fun t => Text.split ',' t.toList := by
  rw [listing, Text.joinWith, String.toList_intercalate]
  induction texts with
  | nil => exact absurd rfl hne
  | cons text texts ih =>
    cases texts with
    | nil => simp
    | cons next texts =>
      rw [List.map_cons, List.map_cons, List.intercalate_cons_cons, List.flatMap_cons,
        ← ih (List.cons_ne_nil next texts), List.map_cons, List.append_assoc]
      exact Text.split_sep_append ',' _ _

theorem listed_listing (texts : List String) :
    Rates.listed (listing texts) = texts.flatMap Rates.listed := by
  cases texts with
  | nil => rfl
  | cons text texts =>
    rw [Rates.listed, split_listing (List.cons_ne_nil text texts), List.map_flatMap,
      List.filter_flatMap, List.map_flatMap]
    rfl

theorem listed_plain {text : String} (hplain : ',' ∉ text.toList)
    (hpad : Text.Unpadded text.toList) (hne : text.toList ≠ []) : Rates.listed text = [text] := by
  rw [Rates.listed, Text.split_single hplain, List.map_singleton, Text.trimBlank_unpadded hpad,
    List.filter_cons_of_pos (by simpa using hne), List.filter_nil, List.map_singleton,
    String.ofList_toList]

/-- A pattern with a comma inside of an item is read as a part that is refused. -/
theorem listed_refused [SizeLimit] {text : String} (h : CommaInside text.toList) :
    ∃ q ∈ Rates.listed text, ¬Accepted q := by
  obtain ⟨part, hpart, hun⟩ := unfinished_part h
  have htrim := unfinished_trimBlank hun
  refine ⟨_, List.mem_map_of_mem (List.mem_filter.mpr ⟨List.mem_map_of_mem hpart, ?_⟩),
    unfinished_refused htrim⟩
  simpa using htrim.ne_nil

def Matches [SizeLimit] (text name : String) : Prop :=
  ∃ p, Pattern.compile text = .ok p ∧ p.matchesName name = true

theorem matchesName_any [SizeLimit] {texts : List String} {ps : List Pattern}
    (h : CompiledKeys texts ps) (name : String) :
    ps.any (·.matchesName name) = true ↔ ∃ t ∈ texts, Matches t name := by
  rw [List.any_eq_true]
  constructor
  · rintro ⟨p, hp, hname⟩
    obtain ⟨t, ht, hcompile⟩ := compiledKeys_pattern h hp
    exact ⟨t, ht, p, hcompile, hname⟩
  · rintro ⟨t, ht, p, hcompile, hname⟩
    obtain ⟨q, hq, hsame⟩ := compiledKeys_key h ht
    rw [hcompile] at hsame
    cases hsame
    exact ⟨p, hq, hname⟩

/-- A metric with a number is averaged just when one of the texts matches its
name, and every other metric is left as it is. -/
inductive Treated [SizeLimit] (texts : List String) (m : Metric) : Metric → Prop where
  | averaged {t : String} (x : Float) (number : m.value.toFloat? ≠ none) (listed : t ∈ texts)
      (h : Matches t m.name) : Treated texts m (Rates.averaged m x)
  | passed (h : m.value.toFloat? = none ∨ ∀ t ∈ texts, ¬Matches t m.name) : Treated texts m m

def Averages [SizeLimit] (c : PluginConfig) (texts : List String) : Prop :=
  ∀ batches : List (List Metric), ∃ outputs : List (List Metric),
    answers c .fresh batches = outputs.map .ok ∧
    List.Forall₂ (List.Forall₂ (Treated texts)) batches outputs

def Refuses [SizeLimit] (c : PluginConfig) : Prop :=
  ∃ e : PatternError, ∀ batches : List (List Metric),
    answers c .fresh batches = batches.map fun _ => .error (.pattern e)

section Processing

variable [SizeLimit] {c : PluginConfig} {texts : List String} {ps : List Pattern}

theorem rated_treated (h : CompiledKeys texts ps) (before : List Metric) (m : Metric) :
    Treated texts m (rated ps before m) := by
  unfold rated
  split
  · rename_i hm
    refine .passed ?_
    unfold observed at hm
    split at hm
    · exact Or.inl (Option.map_eq_none_iff.mp hm)
    · rename_i hname
      rw [matchesName_any h] at hname
      exact Or.inr fun t ht hmatch => hname ⟨t, ht, hmatch⟩
  · rename_i now hm
    unfold observed at hm
    split at hm
    · rename_i hname
      obtain ⟨t, ht, hmatch⟩ := (matchesName_any h _).mp hname
      obtain ⟨x, hx, -⟩ := Option.map_eq_some_iff.mp hm
      exact .averaged _ (by rw [hx]; exact Option.some_ne_none x) ht hmatch
    · cases hm

theorem ratedAfter_treated (h : CompiledKeys texts ps) (before ms : List Metric) :
    List.Forall₂ (Treated texts) ms (ratedAfter ps before ms) := by
  induction ms generalizing before with
  | nil => exact .nil
  | cons m ms ih => exact .cons (rated_treated h before m) (ih _)

theorem ratedBatches_treated (h : CompiledKeys texts ps) (before : List Metric)
    (batches : List (List Metric)) :
    List.Forall₂ (List.Forall₂ (Treated texts)) batches (ratedBatches ps before batches) := by
  induction batches generalizing before with
  | nil => exact .nil
  | cons batch batches ih => exact .cons (ratedAfter_treated h before batch) (ih _)

theorem averages_read (h : Rates.readPatterns c = .ok ps) (hk : CompiledKeys texts ps) :
    Averages c texts := fun batches =>
  ⟨_, answers_rated (Or.inr ⟨rfl, h⟩) (fresh_keeps ps) batches, ratedBatches_treated hk [] batches⟩

theorem refuses_read {e : PatternError} (h : Rates.readPatterns c = .error (.pattern e)) :
    Refuses c := by
  refine ⟨e, fun batches => ?_⟩
  have hprocess : ∀ batch, Rates.fresh.process batch c = (.error (.pattern e), .fresh) := by
    intro batch
    simp only [Rates.process, Rates.fresh, h]
  induction batches with
  | nil => rfl
  | cons batch batches ih => rw [answers, hprocess, ih, List.map_cons]

/-- A configuration that gives a list of texts averages under them if all are
patterns, and else refuses every call. -/
theorem listed_outcome (hc : c.getText Rates.patternsKey = some (listing texts)) :
    ((∀ q ∈ texts.flatMap Rates.listed, Accepted q) → Averages c (texts.flatMap Rates.listed)) ∧
    ((∃ q ∈ texts.flatMap Rates.listed, ¬Accepted q) → Refuses c) := by
  have hread : Rates.readPatterns c =
      (Pattern.compileAll (texts.flatMap Rates.listed)).mapError .pattern := by
    rw [Rates.readPatterns, hc, Option.getD_some, listed_listing]
  constructor
  · intro h
    obtain ⟨ps, hps⟩ := (compileAll_accepted _).mpr h
    exact averages_read (by rw [hread, hps]; rfl) (compileAll_ok hps)
  · rintro ⟨q, hq, hno⟩
    cases hps : Pattern.compileAll (texts.flatMap Rates.listed) with
    | error e => exact refuses_read (by rw [hread, hps]; rfl)
    | ok ps => exact absurd ((compileAll_accepted _).mp ⟨ps, hps⟩ q hq) hno

theorem not_averages_refuses (h : Averages c texts) : ¬Refuses c := by
  rintro ⟨e, he⟩
  obtain ⟨outputs, hanswers, -⟩ := h [[]]
  rw [he] at hanswers
  cases outputs with
  | nil => cases hanswers
  | cons output outputs => cases hanswers

end Processing

def untagged (name : String) : Metric := ⟨⟨[.literal name]⟩, ⟨0, 0⟩, .int 0, ∅, "", 1⟩

theorem treated_untagged [SizeLimit] {texts : List String} {name : String} {o : Metric}
    (h : Treated texts (untagged name) o) :
    (∃ t ∈ texts, Matches t name) ↔ o ≠ untagged name := by
  cases h with
  | @averaged t x _ ht hmatch =>
    refine iff_of_true ⟨t, ht, hmatch⟩ fun hsame => ?_
    have htags := congrArg (fun m => m.tags.contains Rates.processedTag) hsame
    cases htags
  | passed h =>
    refine iff_of_false (fun ⟨t, ht, hmatch⟩ => ?_) fun hne => hne rfl
    rcases h with h | h
    · cases h
    · exact h t ht hmatch

/-- One configuration averages under two lists of texts only if they match the
same names. -/
theorem averages_same [SizeLimit] {c : PluginConfig} {texts others : List String}
    (h : Averages c texts) (h' : Averages c others) (name : String) :
    (∃ t ∈ texts, Matches t name) ↔ ∃ t ∈ others, Matches t name := by
  obtain ⟨outputs, hanswers, houtputs⟩ := h [[untagged name]]
  obtain ⟨others', hanswers', houtputs'⟩ := h' [[untagged name]]
  rw [hanswers] at hanswers'
  obtain rfl := (List.map_injective_iff.mpr fun _ _ => Except.ok.inj) hanswers'
  cases houtputs with
  | cons hbatch _ =>
    cases houtputs' with
    | cons hbatch' _ =>
      cases hbatch with
      | cons hm _ =>
        cases hbatch' with
        | cons hm' _ => rw [treated_untagged hm, treated_untagged hm']

theorem averages_congr [SizeLimit] {c : PluginConfig} {texts others : List String}
    (h : ∀ name, (∃ t ∈ texts, Matches t name) ↔ ∃ t ∈ others, Matches t name)
    (hc : Averages c texts) : Averages c others := by
  intro batches
  obtain ⟨outputs, hanswers, houtputs⟩ := hc batches
  refine ⟨outputs, hanswers, houtputs.imp fun batch output hboth => hboth.imp fun m o hm => ?_⟩
  cases hm with
  | averaged x number ht hmatch =>
    obtain ⟨t, ht, hmatch⟩ := (h m.name).mp ⟨_, ht, hmatch⟩
    exact .averaged x number ht hmatch
  | passed hno =>
    refine .passed (hno.imp_right fun hno t ht hmatch => ?_)
    obtain ⟨t, ht, hmatch⟩ := (h m.name).mpr ⟨t, ht, hmatch⟩
    exact hno t ht hmatch

/-- Patterns that are listed are averaged under if none has a comma. If one has
a comma inside of an item, every call fails. In every case the patterns in use
are the parts between commas, so those listed are averaged under just when all
parts are patterns and they match the same names. -/
theorem listed_patterns [SizeLimit] {c : PluginConfig} {texts : List String}
    (hc : c.getText Rates.patternsKey = some (listing texts))
    (haccepted : ∀ t ∈ texts, Accepted t) (hpad : ∀ t ∈ texts, Text.Unpadded t.toList) :
    ((∀ t ∈ texts, ',' ∉ t.toList) → Averages c texts) ∧
    ((∃ t ∈ texts, CommaInside t.toList) → Refuses c) ∧
    ((∀ q ∈ texts.flatMap Rates.listed, Accepted q) → Averages c (texts.flatMap Rates.listed)) ∧
    ((∃ q ∈ texts.flatMap Rates.listed, ¬Accepted q) → Refuses c) ∧
    (Averages c texts ↔ (∀ q ∈ texts.flatMap Rates.listed, Accepted q) ∧
      ∀ name, (∃ q ∈ texts.flatMap Rates.listed, Matches q name) ↔
        ∃ t ∈ texts, Matches t name) := by
  obtain ⟨haverages, hrefuses⟩ := listed_outcome hc
  refine ⟨fun hplain => ?_, ?_, haverages, hrefuses, fun h => ?_, fun ⟨hparts, hsame⟩ =>
    averages_congr hsame (haverages hparts)⟩
  · have hparts : texts.flatMap Rates.listed = texts := by
      conv_rhs => rw [← List.flatMap_singleton' texts]
      exact List.flatMap_congr fun t ht =>
        listed_plain (hplain t ht) (hpad t ht) (accepted_ne_nil (haccepted t ht))
    rw [hparts] at haverages
    exact haverages haccepted
  · rintro ⟨t, ht, hinside⟩
    obtain ⟨q, hq, hno⟩ := listed_refused hinside
    exact hrefuses ⟨q, List.mem_flatMap.mpr ⟨t, ht, hq⟩, hno⟩
  · have hparts : ∀ q ∈ texts.flatMap Rates.listed, Accepted q := by
      by_contra hno
      push Not at hno
      exact not_averages_refuses h (hrefuses hno)
    exact ⟨hparts, averages_same (haverages hparts) h⟩

def configOf (text : String) : PluginConfig := ⟨Dict.ofList [(Rates.patternsKey, .string text)]⟩

def plainTexts : List String := ["disk/*", "net/[a-c]?"]

def bracedText : String := "disk/{reads,writes}"

theorem spellsItem_read {piece : List Char} {i : Item} (h : readItems piece = .ok [i]) :
    SpellsItem piece i := by
  cases (readItems_iff piece [i]).mp h with
  | cons hi rest =>
    cases rest
    rwa [List.append_nil]

attribute [local instance] SizeLimit.ofAnys

theorem plainTexts_accepted : ∀ t ∈ plainTexts, Accepted t := by
  have hdisk : Accepted "disk/*" := ⟨⟨_, _⟩, by cbv⟩
  have hnet : Accepted "net/[a-c]?" := ⟨⟨_, _⟩, by cbv⟩
  intro t ht
  simp only [plainTexts, List.mem_cons, List.not_mem_nil, or_false] at ht
  rcases ht with rfl | rfl
  · exact hdisk
  · exact hnet

theorem bracedText_accepted : Accepted bracedText := ⟨⟨_, _⟩, by cbv⟩

theorem bracedText_inside : CommaInside bracedText.toList := by
  refine ⟨"disk/".toList, _, "{reads,writes}".toList, _, [], rfl,
    (readItems_iff _ _).mp (by cbv), spellsItem_read (by cbv), by decide, by decide⟩

theorem listed_patterns_plain :
    ((configOf (listing plainTexts)).getText Rates.patternsKey = some (listing plainTexts) ∧
      (∀ t ∈ plainTexts, Accepted t) ∧ (∀ t ∈ plainTexts, Text.Unpadded t.toList) ∧
      Averages (configOf (listing plainTexts)) plainTexts) ∧
    ((configOf bracedText).getText Rates.patternsKey = some (listing [bracedText]) ∧
      (∀ t ∈ [bracedText], Accepted t) ∧ (∀ t ∈ [bracedText], Text.Unpadded t.toList) ∧
      Refuses (configOf bracedText)) := by
  have hplain : (configOf (listing plainTexts)).getText Rates.patternsKey =
      some (listing plainTexts) := rfl
  have hpad : ∀ t ∈ plainTexts, Text.Unpadded t.toList := by decide
  have hbraced : (configOf bracedText).getText Rates.patternsKey = some (listing [bracedText]) :=
    rfl
  have haccepted : ∀ t ∈ [bracedText], Accepted t := by
    simpa using bracedText_accepted
  have hpad' : ∀ t ∈ [bracedText], Text.Unpadded t.toList := by decide
  refine ⟨⟨hplain, plainTexts_accepted, hpad, ?_⟩, hbraced, haccepted, hpad', ?_⟩
  · exact (listed_patterns hplain plainTexts_accepted hpad).1 (by decide)
  · exact (listed_patterns hbraced haccepted hpad').2.1
      ⟨bracedText, List.mem_singleton_self _, bracedText_inside⟩

/-- One pattern with a comma in braces is refused, and one that is a comma
between two letters is read as two patterns. -/
theorem comma_breaks_pattern :
    (Accepted bracedText ∧ Text.Unpadded bracedText.toList ∧
      (configOf bracedText).getText Rates.patternsKey = some (listing [bracedText]) ∧
      Refuses (configOf bracedText) ∧ ¬Averages (configOf bracedText) [bracedText]) ∧
    (Accepted "a,b" ∧ Text.Unpadded "a,b".toList ∧
      (configOf "a,b").getText Rates.patternsKey = some (listing ["a,b"]) ∧
      Averages (configOf "a,b") ["a", "b"] ∧ ¬Averages (configOf "a,b") ["a,b"]) := by
  have hbraced : (configOf bracedText).getText Rates.patternsKey = some (listing [bracedText]) :=
    rfl
  have hpair : (configOf "a,b").getText Rates.patternsKey = some (listing ["a,b"]) := rfl
  have hrefuses : Refuses (configOf bracedText) := by
    obtain ⟨q, hq, hno⟩ := listed_refused bracedText_inside
    exact (listed_outcome hbraced).2
      ⟨q, List.mem_flatMap.mpr ⟨bracedText, List.mem_singleton_self _, hq⟩, hno⟩
  have haverages : Averages (configOf "a,b") ["a", "b"] := by
    have hparts : ["a,b"].flatMap Rates.listed = ["a", "b"] := by decide
    have houtcome := (listed_outcome hpair).1
    rw [hparts] at houtcome
    refine houtcome fun q hq => ?_
    rw [List.mem_cons, List.mem_singleton] at hq
    rcases hq with rfl | rfl
    · exact ⟨⟨_, _⟩, by cbv⟩
    · exact ⟨⟨_, _⟩, by cbv⟩
  refine ⟨⟨bracedText_accepted, by decide, hbraced, hrefuses,
    fun h => not_averages_refuses h hrefuses⟩, ⟨⟨_, _⟩, by cbv⟩, by decide, hpair, haverages, ?_⟩
  intro h
  have hletter : Matches "a" "a" := ⟨⟨_, _⟩, by cbv, by cbv⟩
  obtain ⟨t, ht, p, hp, hname⟩ := (averages_same haverages h "a").mp ⟨"a", by simp, hletter⟩
  obtain rfl := List.mem_singleton.mp ht
  have hcomma : Pattern.compile "a,b" =
      .ok ⟨"a,b".toList, "a,b".toList.map fun c => .atom (.char c)⟩ := by cbv
  have hno : ∀ p, Pattern.compile "a,b" = .ok p → p.matchesName "a" = false := by
    intro p hp
    rw [hcomma] at hp
    cases hp
    cbv
  rw [hno p hp] at hname
  cases hname

end Telemetry.ListedPatterns
