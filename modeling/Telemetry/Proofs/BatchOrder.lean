import Mathlib.Data.List.Basic
import Telemetry.Derived.Analyzer
import Telemetry.Proofs.WindowReference

/-!
# Order within a batch

Metrics of different names may come in any order. The numbers of a batch are
known before its first metric is fed, and what a metric gives depends on the
window of its own name alone, so only the order among metrics of one name counts.
-/

set_option autoImplicit false

namespace Telemetry.BatchOrder

open Analyzer

def own (n : String) (batch : List Metric) : List Metric :=
  batch.filter fun m => m.name == n

/-- One batch is a permutation of the other that keeps the order of metrics
with equal names. -/
structure Rearranged (b b' : List Metric) : Prop where
  perm : b.Perm b'
  order : ∀ n, own n b = own n b'

def gives (values : Dict Float) : Engine → List Metric → List (List Metric)
  | _, [] => []
  | e, m :: ms => (feedMetric values e m).1 :: gives values (feedMetric values e m).2 ms

def given (e : Engine) (batch : List Metric) : List (Metric × List Metric) :=
  batch.zip (gives (batchValues batch) e batch)

def givenBy (n : String) (e : Engine) (batch : List Metric) : List (Metric × List Metric) :=
  (given e batch).filter fun p => p.1.name == n

theorem batchValues_get? (batch : List Metric) (n : String) :
    (batchValues batch).get? n = ((own n batch).filterMap fun m => m.value.toFloat?).getLast? := by
  have hown : ((batch.filterMap fun m => m.value.toFloat?.map fun x => (m.name, x)).filter
      fun p => p.1 == n).map Prod.snd = (own n batch).filterMap fun m => m.value.toFloat? := by
    rw [List.filter_filterMap, List.map_filterMap, own, List.filterMap_filter]
    refine List.filterMap_congr fun m _ => ?_
    by_cases hn : m.name = n <;> cases m.value.toFloat? <;> simp [hn]
  rw [batchValues, Dict.get?_ofList, ← hown, List.getLast?_map]

theorem batchValues_rearranged {b b' : List Metric} (h : Rearranged b b') :
    batchValues b = batchValues b' := by
  ext n : 1
  rw [batchValues_get?, batchValues_get?, h.order n]

structure Alike (n : String) (e d : Engine) : Prop where
  interval : e.interval = d.interval
  configs : e.configs = d.configs
  window : e.window? n = d.window? n

theorem Alike.refl (n : String) (e : Engine) : Alike n e e := ⟨rfl, rfl, rfl⟩

theorem Alike.symm {n : String} {e d : Engine} (h : Alike n e d) : Alike n d e :=
  ⟨h.interval.symm, h.configs.symm, h.window.symm⟩

theorem Alike.trans {n : String} {e d f : Engine} (h : Alike n e d) (h' : Alike n d f) :
    Alike n e f :=
  ⟨h.interval.trans h'.interval, h.configs.trans h'.configs, h.window.trans h'.window⟩

theorem eq_of_alike {e d : Engine} (h : ∀ n, Alike n e d) : e = d := by
  obtain ⟨hinterval, hconfigs, -⟩ := h ""
  have hwindows : e.windows = d.windows := Dict.ext fun n => (h n).window
  cases e
  cases d
  cases hinterval
  cases hconfigs
  cases hwindows
  rfl

theorem window?_insert (e : Engine) (n : String) (w : Window) :
    ({ e with windows := e.windows.insert n w } : Engine).window? n = some w :=
  (Dict.get?_insert e.windows n w n).trans (if_pos rfl)

theorem configFor_alike {n : String} {e d : Engine} (h : Alike n e d) :
    e.configFor n = d.configFor n := by
  rw [Engine.configFor, Engine.configFor, Engine.configIndex, Engine.configIndex, h.configs,
    h.window]

theorem feed_alike {n : String} {e d : Engine} (h : Alike n e d) (now : Timestamp) (x : Float)
    (tags : Tags) (normalizer : Option Float) :
    (e.feed now n x tags normalizer).1 = (d.feed now n x tags normalizer).1 ∧
    Alike n (e.feed now n x tags normalizer).2 (d.feed now n x tags normalizer).2 := by
  unfold Engine.feed
  rw [configFor_alike h, h.window]
  split
  · exact ⟨rfl, h⟩
  · split
    · exact ⟨rfl, h.interval, h.configs, (window?_insert e n _).trans (window?_insert d n _).symm⟩
    · exact ⟨rfl, h⟩

theorem feed_other {n name : String} (hn : name ≠ n) (e : Engine) (now : Timestamp) (x : Float)
    (tags : Tags) (normalizer : Option Float) :
    Alike n (e.feed now name x tags normalizer).2 e := by
  unfold Engine.feed
  split
  · exact .refl n e
  · split
    · exact ⟨rfl, rfl, (Dict.get?_insert _ _ _ n).trans (if_neg (Ne.symm hn))⟩
    · exact .refl n e

theorem feedMetric_alike (values : Dict Float) {e d : Engine} {m : Metric}
    (h : Alike m.name e d) :
    (feedMetric values e m).1 = (feedMetric values d m).1 ∧
    Alike m.name (feedMetric values e m).2 (feedMetric values d m).2 := by
  have hkey : e.normalizerKey m.name = d.normalizerKey m.name := by
    rw [Engine.normalizerKey, Engine.normalizerKey, configFor_alike h]
  unfold feedMetric
  cases m.value.toFloat? with
  | none => exact ⟨rfl, h⟩
  | some x =>
    rw [hkey]
    obtain ⟨hd, halike⟩ := feed_alike h m.timestamp x m.tags
      ((d.normalizerKey m.name).bind values.get?)
    exact ⟨congrArg (fun d => d.toList.map (derivedMetric m)) hd, halike⟩

theorem feedMetric_other (values : Dict Float) (e : Engine) {n : String} {m : Metric}
    (hn : m.name ≠ n) : Alike n (feedMetric values e m).2 e := by
  unfold feedMetric
  cases m.value.toFloat? with
  | none => exact .refl n e
  | some x => exact feed_other hn e m.timestamp x m.tags _

theorem feedAll_gives (values : Dict Float) (e : Engine) (ms : List Metric) :
    (feedAll values e ms).1 = (gives values e ms).flatten := by
  induction ms generalizing e with
  | nil => rfl
  | cons m ms ih =>
    rw [gives, List.flatten_cons, ← ih]
    rfl

theorem gives_length (values : Dict Float) (e : Engine) (ms : List Metric) :
    (gives values e ms).length = ms.length := by
  induction ms generalizing e with
  | nil => rfl
  | cons m ms ih => rw [gives, List.length_cons, List.length_cons, ih]

theorem gives_own (values : Dict Float) (n : String) {e d : Engine} (h : Alike n e d)
    (ms : List Metric) :
    ((ms.zip (gives values e ms)).filter fun p => p.1.name == n) =
      (own n ms).zip (gives values d (own n ms)) ∧
    Alike n (feedAll values e ms).2 (feedAll values d (own n ms)).2 := by
  induction ms generalizing e d with
  | nil => exact ⟨rfl, h⟩
  | cons m ms ih =>
    rw [gives, List.zip_cons_cons, own]
    by_cases hn : m.name = n
    · obtain ⟨hm, halike⟩ := feedMetric_alike values (hn.symm ▸ h : Alike m.name e d)
      obtain ⟨hms, hlater⟩ := ih (hn ▸ halike)
      rw [List.filter_cons_of_pos (by simp [hn]), List.filter_cons_of_pos (by simp [hn]), hms, hm]
      exact ⟨rfl, hlater⟩
    · obtain ⟨hms, hlater⟩ := ih ((feedMetric_other values e hn).trans h)
      rw [List.filter_cons_of_neg (by simp [hn]), List.filter_cons_of_neg (by simp [hn]), hms]
      exact ⟨rfl, hlater⟩

/-- Lists that agree for every key are permutations of each other. -/
theorem perm_of_keys {α : Type} [DecidableEq α] (key : α → String) {l l' : List α}
    (h : ∀ n, (l.filter fun a => key a == n) = l'.filter fun a => key a == n) : l.Perm l' := by
  refine List.perm_iff_count.mpr fun a => ?_
  have hcount : ∀ l : List α, (l.filter fun b => key b == key a).count a = l.count a :=
    fun l => List.count_filter (by simp)
  rw [← hcount l, h (key a), hcount l']

theorem analyze_ready [Pattern.SizeLimit] (fetch : String → Option String) (e : Engine)
    (batch : List Metric) (c : PluginConfig) :
    (Analyzer.mk (some e)).analyze fetch batch c =
      (.ok (gives (batchValues batch) e batch).flatten,
        ⟨some (feedAll (batchValues batch) e batch).2⟩) := by
  rw [← feedAll_gives]
  rfl

theorem given_metrics (e : Engine) (batch : List Metric) :
    (given e batch).map Prod.fst = batch :=
  List.map_fst_zip (Nat.le_of_eq (gives_length _ e batch).symm)

theorem given_derived (e : Engine) (batch : List Metric) :
    (given e batch).map Prod.snd = gives (batchValues batch) e batch :=
  List.map_snd_zip (Nat.le_of_eq (gives_length _ e batch))

/-- After batches that are rearranged the analyzer is the same. Every metric
gives the same derived metric in both, so that one answer is a permutation of
the other. -/
theorem order_free [Pattern.SizeLimit] {b b' : List Metric} (h : Rearranged b b') (e : Engine)
    (fetch : String → Option String) (c : PluginConfig) :
    ∃ later : Engine,
      (Analyzer.mk (some e)).analyze fetch b c =
        (.ok ((given e b).map Prod.snd).flatten, ⟨some later⟩) ∧
      (Analyzer.mk (some e)).analyze fetch b' c =
        (.ok ((given e b').map Prod.snd).flatten, ⟨some later⟩) ∧
      (given e b).map Prod.fst = b ∧ (given e b').map Prod.fst = b' ∧
      (∀ n, givenBy n e b = givenBy n e b') ∧
      (given e b).Perm (given e b') ∧
      ((given e b).map Prod.snd).flatten.Perm ((given e b').map Prod.snd).flatten := by
  have hvalues := batchValues_rearranged h
  have hb := fun n => gives_own (batchValues b) n (Alike.refl n e) b
  have hb' := fun n => gives_own (batchValues b') n (Alike.refl n e) b'
  have hlater : (feedAll (batchValues b) e b).2 = (feedAll (batchValues b') e b').2 := by
    refine eq_of_alike fun n => (hb n).2.trans (Alike.symm ?_)
    rw [h.order n, hvalues]
    exact (hb' n).2
  have hown : ∀ n, givenBy n e b = givenBy n e b' := by
    intro n
    rw [givenBy, givenBy, given, given, (hb n).1, (hb' n).1, h.order n, hvalues]
  have hperm : (given e b).Perm (given e b') :=
    perm_of_keys (fun p : Metric × List Metric => p.1.name) hown
  refine ⟨(feedAll (batchValues b) e b).2, ?_, ?_, given_metrics e b, given_metrics e b', hown, hperm, ?_⟩
  · rw [analyze_ready, given_derived]
  · rw [analyze_ready, given_derived, hlater]
  · exact (hperm.map Prod.snd).flatten

def perCore : Engine :=
  ⟨Span.ofSeconds 10, [⟨{ WindowReference.loadConfig with normalizer := some "cores/*" },
    WindowReference.loadPattern, 3⟩], ∅⟩

def hosted (name : String) (n : Int64) : Metric :=
  ⟨Namespace.parse name, ⟨100, 0⟩, .int n, Dict.ofList [("host", "a")], "", 1⟩

def coresFirst : List Metric :=
  [hosted "cores/one" 4, hosted "load/one" 9, hosted "load/one" 2]

def coresLast : List Metric :=
  [hosted "load/one" 9, hosted "load/one" 2, hosted "cores/one" 4]

theorem cores_rearranged : Rearranged coresFirst coresLast := by
  have hcores : (hosted "cores/one" 4).name = "cores/one" := by decide
  have hload : ∀ x, (hosted "load/one" x).name = "load/one" := fun _ =>
    (by decide : (Namespace.parse "load/one").key = "load/one")
  refine ⟨(List.Perm.swap _ _ _).trans (.cons _ (.swap _ _ _)), fun n => ?_⟩
  by_cases hn : "cores/one" = n
  · subst hn
    simp [own, coresFirst, coresLast, hcores, hload]
  · simp [own, coresFirst, coresLast, List.filter_cons, hcores, hn]

attribute [local instance] Pattern.SizeLimit.ofAnys

/-- Cores before and after the loads that they divide. -/
theorem order_free_cores :
    Rearranged coresFirst coresLast ∧
    ∃ later : Engine,
      (Analyzer.mk (some perCore)).analyze (fun _ => none) coresFirst .empty =
        (.ok ((given perCore coresFirst).map Prod.snd).flatten, ⟨some later⟩) ∧
      (Analyzer.mk (some perCore)).analyze (fun _ => none) coresLast .empty =
        (.ok ((given perCore coresLast).map Prod.snd).flatten, ⟨some later⟩) ∧
      givenBy "load/one" perCore coresFirst = givenBy "load/one" perCore coresLast ∧
      (given perCore coresFirst).Perm (given perCore coresLast) := by
  obtain ⟨later, hfirst, hlast, _, _, hown, hperm, _⟩ :=
    order_free cores_rearranged perCore (fun _ => none) .empty
  exact ⟨cores_rearranged, later, hfirst, hlast, hown "load/one", hperm⟩

end Telemetry.BatchOrder
