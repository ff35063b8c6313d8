import Telemetry.Proofs.SegmentMatching
import Telemetry.Proofs.WindowInvariant

/-!
# Names that resolve to themselves

Matching goes through a name character by character, and resolving goes segment
by segment. The two agree piece by piece when separators stay out of brackets,
braces and ranges: a piece is then a separator, or stands for text within one
segment. So a matched name has a segment for every segment of the pattern, and
the pattern has a glob wherever the two differ. Filling the globs in gives the
name back, and a derived metric carries the name that it was fed under.
-/

set_option autoImplicit false

namespace Telemetry.NameResolution

open Pattern PatternTables PatternLanguage PatternReading PatternPieces SegmentMatching
open WindowReference WindowInvariant

inductive Spot where
  | outside
  | brackets
  | braces

def enclosed : Spot → List Char → List Char
  | _, [] => []
  | .outside, '\\' :: _ :: cs => enclosed .outside cs
  | .outside, '[' :: cs => enclosed .brackets cs
  | .outside, '{' :: cs => enclosed .braces cs
  | .outside, _ :: cs => enclosed .outside cs
  | .brackets, ']' :: cs => enclosed .outside cs
  | .brackets, '\\' :: c :: cs => '\\' :: c :: enclosed .brackets cs
  | .brackets, c :: cs => c :: enclosed .brackets cs
  | .braces, '}' :: cs => enclosed .outside cs
  | .braces, '\\' :: c :: cs => '\\' :: c :: enclosed .braces cs
  | .braces, c :: cs => c :: enclosed .braces cs

def memberCrosses : Member → Bool
  | .one _ => false
  | .range low high => decide (low ≤ '/') && decide ('/' ≤ high)

def atomCrosses : Atom → Bool
  | .oneOf k => k.members.any memberCrosses || k.removed.any (·.any memberCrosses)
  | _ => false

def itemCrosses : Item → Bool
  | .atom a => atomCrosses a
  | .choice alternatives => alternatives.any (·.any atomCrosses)

/-- No separator stands in brackets or braces, and no range runs over it. -/
structure Walled (p : Pattern) : Prop where
  text : '/' ∉ enclosed .outside p.raw
  ranges : p.items.any itemCrosses = false

theorem enclosed_spell {ls : List Letter} (plain : ∀ l ∈ ls, l.Plain) (tail : List Char) :
    enclosed .brackets (spell ls ++ ']' :: tail) = spell ls ++ enclosed .outside tail := by
  induction ls with
  | nil => rfl
  | cons l ls ih =>
    have hrest := ih fun m hm => plain m (List.mem_cons_of_mem l hm)
    rw [spell, List.flatMap_cons, List.append_assoc, List.append_assoc, ← spell]
    have hl := plain l List.mem_cons_self
    rcases text_append hl (spell ls ++ enclosed .outside tail) with ⟨he, ht⟩ | ⟨he, hb, hs, ht⟩
    · rw [ht, ← hrest]
      simp [Letter.text, he, enclosed]
    · rw [ht, ← hrest, Letter.text, if_neg (by simp [he]), List.singleton_append, enclosed]
      all_goals simp_all

theorem enclosed_bare {part : List Char} (hp : Bare part) (cs : List Char) :
    enclosed .braces (part ++ cs) = part ++ enclosed .braces cs := by
  induction hp with
  | nil => rfl
  | escape c _ ih => rw [List.cons_append, List.cons_append, enclosed, ih]; rfl
  | char h _ ih =>
    simp only [List.mem_cons, not_or] at h
    rw [List.cons_append, enclosed, ih]
    · rfl
    all_goals simp_all

theorem enclosed_join {parts : List (List Char)} (bare : ∀ q ∈ parts, Bare q)
    (tail : List Char) :
    enclosed .braces (Text.join ',' parts ++ '}' :: tail) =
      Text.join ',' parts ++ enclosed .outside tail := by
  induction parts with
  | nil => rfl
  | cons part parts ih =>
    have hpart := bare part List.mem_cons_self
    have hrest := ih fun q hq => bare q (List.mem_cons_of_mem part hq)
    cases parts with
    | nil => exact enclosed_bare hpart _
    | cons next parts =>
      rw [Text.join, List.append_assoc, List.append_assoc, enclosed_bare hpart, List.cons_append,
        List.cons_append, enclosed, hrest]
      all_goals simp

theorem enclosed_plain {c : Char} (h : c ∉ ['\\', '[', '{']) (tail : List Char) :
    enclosed .outside (c :: tail) = enclosed .outside tail := by
  simp only [List.mem_cons, not_or] at h
  rw [enclosed]
  all_goals simp_all

/-- A piece of a walled text is a separator, escaped or not, or has none. -/
theorem piece_walled {piece tail : List Char} {i : Item} (h : SpellsItem piece i)
    (hs : '/' ∉ enclosed .outside (piece ++ tail)) :
    '/' ∉ enclosed .outside tail ∧ (piece = ['/'] ∨ piece = ['\\', '/'] ∨ '/' ∉ piece) := by
  cases h with
  | atom h =>
    cases h with
    | run => exact ⟨hs, by simp⟩
    | any => exact ⟨hs, by simp⟩
    | escape c =>
      refine ⟨hs, ?_⟩
      by_cases hc : c = '/'
      · simp [hc]
      · simp [Ne.symm hc]
    | listed plain =>
      rw [List.cons_append, List.append_assoc, enclosed, List.singleton_append,
        enclosed_spell plain, List.mem_append, not_or] at hs
      exact ⟨hs.2, by simp [hs.1]⟩
    | @unlisted sign ls plain _ signed =>
      have hspell : sign :: spell ls = spell (⟨sign, false⟩ :: ls) := rfl
      have hplain := plain_cons (sign_letter signed).1 plain
      rw [← List.cons_append, hspell] at hs ⊢
      rw [List.cons_append, List.append_assoc, enclosed, List.singleton_append,
        enclosed_spell hplain, List.mem_append, not_or] at hs
      exact ⟨hs.2, by simp [hs.1]⟩
    | @other c h =>
      simp only [List.mem_cons, not_or] at h
      rw [List.singleton_append, enclosed_plain (by simp [h])] at hs
      refine ⟨hs, ?_⟩
      by_cases hc : c = '/'
      · simp [hc]
      · simp [Ne.symm hc]
  | choice bare =>
    rw [List.cons_append, List.append_assoc, enclosed, List.singleton_append,
      enclosed_join bare, List.mem_append, not_or] at hs
    exact ⟨hs.2, by simp [hs.1]⟩

theorem mem_consMember {m x : Member} {mss : List (List Member)} {ms : List Member}
    (h : ms ∈ consMember m mss) (hx : x ∈ ms) : x = m ∨ ∃ ns ∈ mss, x ∈ ns := by
  cases mss with
  | nil =>
    rw [consMember, List.mem_singleton] at h
    subst h
    exact Or.inl (List.mem_singleton.mp hx)
  | cons first rest =>
    rw [consMember, List.mem_cons] at h
    rcases h with rfl | h
    · rcases List.mem_cons.mp hx with rfl | hx
      · exact Or.inl rfl
      · exact Or.inr ⟨first, List.mem_cons_self, hx⟩
    · exact Or.inr ⟨ms, List.mem_cons_of_mem first h, hx⟩

theorem operands_tokens_mem {ts : List Token} {ms : List Member} {c : Char}
    (h : ms ∈ operands ts) (hc : .one c ∈ ms) : ∃ t ∈ ts, t.toChar = c := by
  fun_induction operands ts generalizing ms with
  | case1 =>
    rw [List.mem_singleton.mp h] at hc
    exact absurd hc List.not_mem_nil
  | case2 ts ih =>
    rcases List.mem_cons.mp h with rfl | h
    · exact absurd hc List.not_mem_nil
    · obtain ⟨t, ht, hct⟩ := ih h hc
      exact ⟨t, by simp [ht], hct⟩
  | case3 a b ts ih =>
    rcases mem_consMember h hc with hm | ⟨ns, hns, hc⟩
    · cases hm
    · obtain ⟨t, ht, hct⟩ := ih hns hc
      exact ⟨t, by simp [ht], hct⟩
  | case4 t ts _ _ ih =>
    rcases mem_consMember h hc with hm | ⟨ns, hns, hc⟩
    · cases hm
      exact ⟨t, List.mem_cons_self, rfl⟩
    · obtain ⟨t', ht, hct⟩ := ih hns hc
      exact ⟨t', List.mem_cons_of_mem t ht, hct⟩

theorem tokens_spell_mem {ls : List Letter} {started : Bool} {t : Token}
    (h : t ∈ tokens started ls) : t.toChar ∈ spell ls := by
  induction ls generalizing started with
  | nil => exact absurd h List.not_mem_nil
  | cons l ls ih =>
    rw [spell, List.flatMap_cons, List.mem_append]
    rcases List.mem_cons.mp h with rfl | h
    · left
      rw [Bool.and_assoc, token_toChar, Letter.text]
      split <;> simp
    · exact Or.inr (ih h)

theorem listed_separator {ls : List Letter} (hs : '/' ∉ spell ls) {started : Bool}
    {ms : List Member} (h : ms ∈ operands (tokens started ls))
    (hno : ms.any memberCrosses = false) : listed ms '/' = false := by
  rw [listed, List.any_eq_false]
  intro m hm hholds
  cases m with
  | one c =>
    obtain rfl : '/' = c := beq_iff_eq.mp hholds
    obtain ⟨t, ht, hc⟩ := operands_tokens_mem h hm
    exact hs (hc ▸ tokens_spell_mem ht)
  | range low high => exact List.any_eq_false.mp hno _ hm hholds

/-- A class spelled without separators does not span them unless one of its
ranges does. -/
theorem class_spans {ls : List Letter} (hs : '/' ∉ spell ls) {negated : Bool}
    (hno : atomCrosses (.oneOf (.ofTokens negated (tokens false ls))) = false) :
    atomSpans (.oneOf (.ofTokens negated (tokens false ls))) = false := by
  unfold CharClass.ofTokens at hno ⊢
  cases hops : operands (tokens false ls) with
  | nil => cases negated <;> rfl
  | cons members removed =>
    rw [hops] at hno
    have hlisted : ∀ ms ∈ members :: removed, ms.any memberCrosses = false →
        listed ms '/' = false := fun ms hms => listed_separator hs (hops ▸ hms)
    rw [atomCrosses, Bool.or_eq_false_iff] at hno
    have hmembers := hlisted members List.mem_cons_self hno.1
    have hremoved : removed.any (listed · '/') = false := by
      rw [List.any_eq_false]
      intro ms hms hholds
      have hms' := Bool.eq_false_of_not_eq_true (List.any_eq_false.mp hno.2 ms hms)
      rw [hlisted ms (List.mem_cons_of_mem members hms) hms'] at hholds
      cases hholds
    cases negated
    · simp [atomSpans, CharClass.holds, hmembers]
    · simpa [atomSpans, CharClass.holds] using hremoved

theorem atom_confined {piece : List Char} {a : Atom} (h : Spells piece a) (hs : '/' ∉ piece)
    (hno : atomCrosses a = false) : Confined (atomLanguage a) := by
  have hspans : atomSpans a = false := by
    cases h with
    | listed =>
      refine class_spans (fun hmem => hs ?_) hno
      simp [hmem]
    | unlisted =>
      refine class_spans (fun hmem => hs ?_) hno
      simp [hmem]
    | _ => rfl
  exact spells_confined h hs hspans

/-- A piece without separators stands for text without separators. -/
theorem piece_confined {piece : List Char} {i : Item} (h : SpellsItem piece i)
    (hs : '/' ∉ piece) (hno : itemCrosses i = false) : Confined (itemLanguage i) := by
  cases h with
  | atom h => exact atom_confined h hs hno
  | choice _ _ h =>
    refine choices_confined (fun _ _ => atom_confined) h (fun hmem => hs ?_) hno
    simp [hmem]

theorem piece_literal {piece : List Char} {i : Item} (h : SpellsItem piece i) :
    isGlob piece = true ∨ ∀ u ∈ itemLanguage i, u = piece := by
  cases h with
  | atom h =>
    cases h with
    | other h =>
      right
      rintro u ⟨d, rfl, hd⟩
      rw [beq_iff_eq.mp hd]
    | _ => exact Or.inl rfl
  | choice _ _ _ => exact Or.inl rfl

def Aligned : List (List Char) → List (List Char) → Prop :=
  List.Forall₂ fun t c => isGlob t = true ∨ t = c

theorem aligned_front {piece v text w : List Char} (hpiece : '/' ∉ piece) (hv : '/' ∉ v)
    (h : isGlob piece = true ∨ v = piece)
    (hrest : Aligned (Text.split '/' text) (Text.split '/' w)) :
    Aligned (Text.split '/' (piece ++ text)) (Text.split '/' (v ++ w)) := by
  cases ht : Text.split '/' text with
  | nil => exact absurd ht (Text.split_ne_nil '/' text)
  | cons t ts =>
    cases hw : Text.split '/' w with
    | nil => exact absurd hw (Text.split_ne_nil '/' w)
    | cons c cs =>
      rw [ht, hw] at hrest
      rw [Text.split_front hpiece ht, Text.split_front hv hw]
      obtain ⟨hhead, htail⟩ := List.forall₂_cons.mp hrest
      refine .cons ?_ htail
      rcases h with hglob | rfl
      · left
        rw [isGlob, List.any_append, ← isGlob, hglob, Bool.true_or]
      · rcases hhead with hglob | rfl
        · left
          rw [isGlob, List.any_append, ← isGlob, ← isGlob, hglob, Bool.or_true]
        · exact Or.inr rfl

/-- The induction is on the pieces: one that is a separator ends a segment on
both sides, any other goes to the front of one. -/
theorem aligned_of_mem {text u : List Char} {items : List Item} (h : Cut SpellsItem text items)
    (hs : '/' ∉ enclosed .outside text) (hno : items.any itemCrosses = false)
    (hu : u ∈ itemsLanguage items) : Aligned (Text.split '/' text) (Text.split '/' u) := by
  induction h generalizing u with
  | nil =>
    rw [(Language.mem_one u).mp hu]
    exact .cons (Or.inr rfl) .nil
  | @cons piece text i items hpiece _ ih =>
    rw [itemsLanguage, List.map_cons, List.prod_cons] at hu
    obtain ⟨v, hv, w, hw, rfl⟩ := Language.mem_mul.mp hu
    rw [List.any_cons, Bool.or_eq_false_iff] at hno
    obtain ⟨htail, hwall⟩ := piece_walled hpiece hs
    have hrest := ih htail hno.2 hw
    rcases hwall with rfl | rfl | hplain
    · have hslash : v = ['/'] := by
        rcases piece_literal hpiece with hglob | hone
        · cases hglob
        · exact hone v hv
      rw [hslash, List.singleton_append, List.singleton_append, Text.split_sep, Text.split_sep]
      exact .cons (Or.inr rfl) hrest
    · have hslash : v = ['/'] := by
        cases hpiece with
        | atom h =>
          cases h with
          | escape =>
            obtain ⟨d, rfl, hd⟩ := hv
            rw [beq_iff_eq.mp hd]
      have hbar : '/' ∉ ['\\'] := by decide
      have hescape : Text.split '/' (['\\', '/'] ++ text) = ['\\'] :: Text.split '/' text :=
        Text.split_append hbar text
      rw [hslash, List.singleton_append, Text.split_sep, hescape]
      exact .cons (Or.inl rfl) hrest
    · exact aligned_front hplain (piece_confined hpiece hplain hno.1 v hv)
        ((piece_literal hpiece).imp_right fun hone => hone v hv) hrest

theorem fillSegments_aligned {ts cs : List (List Char)} (h : Aligned ts cs) :
    fillSegments ts cs = cs := by
  induction h with
  | nil => rfl
  | cons hhead _ ih =>
    rw [fillSegments, ih]
    rcases hhead with hglob | rfl
    · rw [if_pos hglob]
    · rw [ite_self]

theorem resolveChars_matched [SizeLimit] {pattern name : String} {p : Pattern}
    (hp : Pattern.compile pattern = .ok p) (hw : Walled p) (hm : p.matchesName name = true) :
    resolveChars pattern.toList name.toList = Text.trimLeft '/' name.toList := by
  obtain ⟨hraw, -, hcut, -⟩ := (compile_iff pattern p).mp hp
  rw [matchesName, accepts_iff] at hm
  have haligned := aligned_of_mem hcut hw.text hw.ranges hm
  rw [hraw] at haligned
  rw [resolveChars, segments, segments, fillSegments_aligned haligned, Text.join_split]

/-- A name that a walled pattern matches resolves to itself without its leading
separators, and so does every name whose window gives a derived metric of that
pattern. -/
theorem matched_resolves [SizeLimit] {pattern : String} {p : Pattern}
    (hp : Pattern.compile pattern = .ok p) (hw : Walled p) :
    (∀ name, p.matchesName name = true →
      p.resolve name = String.ofList (Text.trimLeft '/' name.toList)) ∧
    (∀ interval configs e, Engine.create interval configs = .ok e →
      ∀ (calls : List Call) (call : Call) (d : Derived),
        (call, some d) ∈ calls.zip (answers e calls) →
        ∃ c, source? configs call.name = some c ∧
          (c.metricName = pattern →
            d.name = String.ofList (Text.trimLeft '/' call.name.toList) ++
              (if c.normalizer.isSome then "_normalized" else "") ++ "/" ++
              (match c.threshold.direction with | .upper => "UB" | .lower => "LB"))) := by
  constructor
  · intro name hm
    obtain ⟨hraw, -⟩ := (compile_iff pattern p).mp hp
    rw [resolve, resolveChars, hraw, segments_trimLeft, ← resolveChars,
      resolveChars_matched hp hw hm]
  · intro interval configs e he calls call d hd
    obtain ⟨hc, hkeeps⟩ := create_compiled he
    obtain ⟨i, k, hits, hfind, hk, -, -, rfl⟩ :=
      ((after_keeps hc hkeeps calls).2.2 call d hd).shares
    rcases source_compiled hc call.name with ⟨-, hnone⟩ | ⟨c, i', k', hsource, hfind', hk', hck⟩
    · rw [hnone] at hfind
      cases hfind
    · rw [hfind] at hfind'
      cases hfind'
      rw [hk] at hk'
      cases hk'
      refine ⟨c, hsource, fun hname => ?_⟩
      have hcompile := hck.pattern
      rw [hname, hp] at hcompile
      have hmatch : p.matchesName call.name = true := by
        rw [Except.ok.inj hcompile, ← covers_compiled hck]
        exact List.find?_some hsource
      have hfront : resolveWildcard c.metricName call.name =
          String.ofList (Text.trimLeft '/' call.name.toList) := by
        rw [resolveWildcard, hname, resolveChars_matched hp hw hmatch]
      rw [derived_compiled hck, ← hfront]
      rfl

example : resolveWildcard "a[/b]c" "abc" = "abc/b]c" := by decide

theorem core_walled : Walled corePattern := ⟨by decide, by decide⟩

theorem load_walled : Walled loadPattern := ⟨by decide, by decide⟩

attribute [local instance] SizeLimit.ofAnys

theorem source_load : source? [loadConfig] "load/one" = some loadConfig := by
  rw [source?, List.find?_cons_of_pos]
  rw [covers, loadConfig, compile_load]
  decide

/-- A pattern with braces and a class, and one whose third sample closes a
window. -/
theorem matched_resolves_load :
    Walled corePattern ∧ Walled loadPattern ∧
    corePattern.resolve "/c/x1abc" = "c/x1abc" ∧
    (⟨⟨130, 0⟩, "load/one", 0.1, Dict.ofList [("host", "a")], none⟩,
      some ⟨"load/one/UB", share 3 1⟩) ∈ mixedCalls.zip (answers loadEngine mixedCalls) ∧
    "load/one/UB" = String.ofList (Text.trimLeft '/' "load/one".toList) ++ "" ++ "/" ++ "UB" := by
  have hanswer : (⟨⟨130, 0⟩, "load/one", 0.1, Dict.ofList [("host", "a")], none⟩,
      some ⟨"load/one/UB", share 3 1⟩) ∈ mixedCalls.zip (answers loadEngine mixedCalls) := by
    rw [load_answers]
    simp [mixedCalls]
  obtain ⟨c, hsource, hname⟩ :=
    (matched_resolves compile_load load_walled).2 _ _ _ create_load mixedCalls _ _ hanswer
  obtain rfl : loadConfig = c := Option.some.inj (source_load.symm.trans hsource)
  refine ⟨core_walled, load_walled, ?_, hanswer, hname rfl⟩
  exact (matched_resolves compile_core core_walled).1 "/c/x1abc" (by decide)

end Telemetry.NameResolution
