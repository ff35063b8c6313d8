import Telemetry.Proofs.KeySelection
import Telemetry.Proofs.SegmentMatching
import Telemetry.Proofs.WindowReference

/-!
# Templates and their instances

A template whose globs are whole segments is resolved segment by segment, and
its pattern takes the text of all segments at once. Both see the same places:
the pattern has a run for every glob and accepts any segment there. So what a
template is resolved to is matched by its pattern, whatever name the segments
are taken from, also when the name is too short to fill every place.
-/

set_option autoImplicit false

namespace Telemetry.TemplateInstances

open Pattern PatternTables PatternPieces SegmentMatching KeySelection

def WholeGlobs (template : String) : Prop :=
  ∀ t ∈ segments template.toList, isGlob t = true → t = dynamicValue

structure Fills (t word : List Char) : Prop where
  plain : '/' ∉ word
  fixed : isGlob t = true ∨ word = t

theorem fillSegments_fills {ts cs : List (List Char)} (ht : ∀ t ∈ ts, '/' ∉ t)
    (hc : ∀ c ∈ cs, '/' ∉ c) : List.Forall₂ Fills ts (fillSegments ts cs) := by
  induction ts generalizing cs with
  | nil => exact .nil
  | cons t ts ih =>
    have hts : ∀ t' ∈ ts, '/' ∉ t' := fun t' h => ht t' (List.mem_cons_of_mem t h)
    cases cs with
    | nil => exact .cons ⟨ht t List.mem_cons_self, Or.inr rfl⟩ (ih hts hc)
    | cons c cs =>
      apply List.Forall₂.cons
      · by_cases hglob : isGlob t = true
        · rw [if_pos hglob]
          exact ⟨hc c List.mem_cons_self, Or.inl hglob⟩
        · rw [if_neg hglob]
          exact ⟨ht t List.mem_cons_self, Or.inr rfl⟩
      · exact ih hts fun c' h => hc c' (List.mem_cons_of_mem c h)

/-- Segments taken from a name stay when they are filled from it again, also
those that are globs themselves. -/
theorem fillSegments_again (ts cs : List (List Char)) :
    fillSegments (fillSegments ts cs) cs = fillSegments ts cs := by
  induction ts generalizing cs with
  | nil => rfl
  | cons t ts ih =>
    cases cs with
    | nil => rw [fillSegments, fillSegments, ih]
    | cons c cs =>
      rw [fillSegments, fillSegments, ih]
      by_cases hglob : isGlob t = true
      · rw [if_pos hglob, ite_self]
      · rw [if_neg hglob, if_neg hglob]

def segmentItems (t : List Char) : List Item :=
  if isGlob t then [.atom .run] else t.map fun c => .atom (.char c)

theorem segment_cut {t : List Char} (h : isGlob t = true → t = dynamicValue) :
    Cut SpellsItem t (segmentItems t) := by
  unfold segmentItems
  by_cases hglob : isGlob t = true
  · rw [if_pos hglob, h hglob]
    exact cut_single (.atom .run)
  · rw [if_neg hglob]
    exact cut_literal (Bool.eq_false_iff.mpr hglob)

theorem fills_language {t word : List Char} (h : Fills t word) :
    word ∈ itemsLanguage (segmentItems t) := by
  unfold segmentItems
  by_cases hglob : isGlob t = true
  · have hrun : itemsLanguage [.atom .run] = inSegment := by
      rw [itemsLanguage, List.map_singleton, List.prod_singleton]
      rfl
    rw [if_pos hglob, hrun]
    exact h.plain
  · rw [if_neg hglob, h.fixed.resolve_left hglob]
    exact (accepts_iff _ _).mp ((accepts_chars t t).mpr rfl)

theorem template_items [SizeLimit] {template : String} {p : Pattern}
    (hp : Pattern.compile template = .ok p) (hw : WholeGlobs template) :
    p.items = [separator].intercalate ((segments template.toList).map segmentItems) := by
  obtain ⟨hraw, -, hcut, -⟩ := (compile_iff template p).mp hp
  have hsegments : List.Forall₂ (Cut SpellsItem) (segments template.toList)
      ((segments template.toList).map segmentItems) := by
    rw [List.forall₂_map_right_iff, List.forall₂_same]
    exact fun t ht => segment_cut (hw t ht)
  have hjoin := cut_join hsegments
  rw [segments, Text.join_split, ← hraw] at hjoin
  rw [segments, ← hraw]
  exact cut_unique hcut hjoin

/-- A text that is not all separators begins with a segment that is not empty. -/
theorem segments_headed {cs : List Char} (h : Text.trimLeft '/' cs ≠ []) :
    ∃ part parts, segments cs = part :: parts ∧ part ≠ [] := by
  induction cs with
  | nil => exact absurd rfl h
  | cons c cs ih =>
    by_cases hc : c = '/'
    · subst hc
      rw [Text.trimLeft_self] at h
      rw [segments, Text.trimLeft_self]
      exact ih h
    · have hkept : Text.trimLeft '/' (c :: cs) = c :: cs :=
        List.dropWhile_cons_of_neg (by simpa using hc)
      rw [segments, hkept, Text.split, if_neg hc]
      split
      · exact ⟨[c], [], rfl, List.cons_ne_nil c []⟩
      · exact ⟨_, _, rfl, List.cons_ne_nil c _⟩

theorem segments_plain (cs : List Char) : ∀ part ∈ segments cs, '/' ∉ part :=
  Text.split_plain (Text.trimLeft '/' cs)

theorem segments_filled (template name : List Char) :
    List.Forall₂ Fills (segments template) (fillSegments (segments template) (segments name)) :=
  fillSegments_fills (segments_plain template) (segments_plain name)

section Resolved

variable {template name : String} (ht : Text.trimLeft '/' template.toList ≠ [])
  (hn : Text.trimLeft '/' name.toList ≠ [])

include ht hn

/-- The segments of a resolved template are those it was filled with. -/
theorem split_resolved :
    Text.trimLeft '/' (resolveWildcard template name).toList =
      (resolveWildcard template name).toList ∧
    Text.split '/' (resolveWildcard template name).toList =
      fillSegments (segments template.toList) (segments name.toList) := by
  have hfills := segments_filled template.toList name.toList
  obtain ⟨t, ts, htemplate, htne⟩ := segments_headed ht
  obtain ⟨c, cs, hname, hcne⟩ := segments_headed hn
  rw [resolveWildcard, String.toList_ofList, resolveChars]
  rw [htemplate, hname, fillSegments] at hfills ⊢
  have hhead : (if isGlob t = true then c else t) ≠ [] := by
    split
    · exact hcne
    · exact htne
  have hplain : ∀ word ∈ (if isGlob t = true then c else t) :: fillSegments ts cs, '/' ∉ word := by
    intro word hword
    obtain ⟨_, _, hfill⟩ := exists_mem_right hfills.flip hword
    exact hfill.plain
  constructor
  · exact Text.trimLeft_join hhead (hplain _ List.mem_cons_self)
  · exact Text.split_join (List.cons_ne_nil _ _) hplain

theorem resolved_again :
    resolveWildcard (resolveWildcard template name) name = resolveWildcard template name := by
  obtain ⟨htrim, hsplit⟩ := split_resolved ht hn
  rw [resolveWildcard, resolveChars, segments, htrim, hsplit, fillSegments_again, resolveWildcard,
    resolveChars]

theorem resolved_matched [SizeLimit] {p : Pattern} (hp : Pattern.compile template = .ok p)
    (hw : WholeGlobs template) : p.matchesName (resolveWildcard template name) = true := by
  obtain ⟨htrim, hsplit⟩ := split_resolved ht hn
  have hwords : List.Forall₂ (fun items word => word ∈ itemsLanguage items)
      ((segments template.toList).map segmentItems)
      (fillSegments (segments template.toList) (segments name.toList)) := by
    rw [List.forall₂_map_left_iff]
    exact (segments_filled template.toList name.toList).imp fun _ _ => fills_language
  rw [matchesName, accepts_iff, template_items hp hw, mem_intercalate, htrim]
  refine ⟨_, hwords, ?_⟩
  rw [← hsplit, Text.join_split]

end Resolved

/-- What a template is resolved to under a name: a text with the segments of the
template that its pattern matches and that is not changed by resolving it under
the same name. -/
structure Instance (template : String) (p : Pattern) (name resolved : String) : Prop where
  size : (Text.split '/' resolved.toList).length = (segments template.toList).length
  matched : p.matchesName resolved = true
  settled : resolveWildcard resolved name = resolved

/-- A template whose globs are whole segments is resolved to an instance of it
under every name that is not all separators. An engine that normalizes by such
a template looks for a metric whose name the template matches. -/
theorem resolved_instance [SizeLimit] {template : String} {p : Pattern}
    (hp : Pattern.compile template = .ok p) (hw : WholeGlobs template) {name : String}
    (hn : Text.trimLeft '/' name.toList ≠ []) :
    Instance template p name (resolveWildcard template name) ∧
    ∀ (e : Engine) (i : Nat) (k : CompiledConfig), e.configFor name = some (i, k) →
      k.config.normalizer = some template →
      ∃ key, e.normalizerKey name = some key ∧ p.matchesName key = true := by
  obtain ⟨hraw, hne, -⟩ := (compile_iff template p).mp hp
  have ht : Text.trimLeft '/' template.toList ≠ [] := hraw ▸ hne
  have hmatched := resolved_matched ht hn hp hw
  constructor
  · refine ⟨?_, hmatched, resolved_again ht hn⟩
    rw [(split_resolved ht hn).2]
    exact (segments_filled template.toList name.toList).length_eq.symm
  · intro e i k hfor hnormalizer
    refine ⟨resolveWildcard template name, ?_, hmatched⟩
    rw [Engine.normalizerKey, hfor, Option.bind_some]
    dsimp only
    rw [hnormalizer, Option.map_some]

def coresTemplate : String := "/node.0/*/cores//*"

def coresPattern : Pattern where
  raw := "node.0/*/cores//*".toList
  items := ("node.0/".toList.map fun c => .atom (.char c)) ++ .atom .run ::
    (("/cores//".toList.map fun c => .atom (.char c)) ++ [.atom .run])

attribute [local instance] SizeLimit.ofAnys

theorem compile_cores : Pattern.compile coresTemplate = .ok coresPattern := by
  cbv

def perCores : CompiledConfig :=
  ⟨{ WindowReference.loadConfig with normalizer := some coresTemplate },
    WindowReference.loadPattern, 3⟩

def coresEngine : Engine := ⟨Span.ofSeconds 10, [perCores], ∅⟩

/-- A segment that looks like a glob is taken over as it is. -/
theorem resolved_instance_cores :
    Pattern.compile coresTemplate = .ok coresPattern ∧ WholeGlobs coresTemplate ∧
    resolveWildcard coresTemplate "//load/c[1" = "node.0/c[1/cores//*" ∧
    Instance coresTemplate coresPattern "//load/c[1" "node.0/c[1/cores//*" ∧
    ∃ key, coresEngine.normalizerKey "//load/c[1" = some key ∧
      coresPattern.matchesName key = true := by
  have hw : WholeGlobs coresTemplate := by
    unfold WholeGlobs
    decide
  have hresolved : resolveWildcard coresTemplate "//load/c[1" = "node.0/c[1/cores//*" := by decide
  have hfor : coresEngine.configFor "//load/c[1" = some (0, perCores) := by decide
  obtain ⟨hinstance, hengine⟩ :=
    resolved_instance compile_cores hw (show Text.trimLeft '/' "//load/c[1".toList ≠ [] by decide)
  rw [hresolved] at hinstance
  exact ⟨compile_cores, hw, hresolved, hinstance, hengine coresEngine 0 perCores hfor rfl⟩

end Telemetry.TemplateInstances
