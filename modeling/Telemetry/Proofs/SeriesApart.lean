import Telemetry.Proofs.RateHistory

/-!
# Which series share a rate

A series is a name and an owner, but its sample is kept under one text, with a
separator between the two. A separator that is part of an owner is not told
from that one, so a series whose name goes on with the front of another one's
owner has the same text. The rates of a series do not depend on any series
but those.
-/

set_option autoImplicit false

namespace Telemetry.SeriesApart

open RateHistory
open Rates (seriesKey averaged)

structure Series where
  name : String
  owner : String
  deriving DecidableEq, Repr

def Series.text (s : Series) : String :=
  s.name ++ "/" ++ s.owner

def owner (m : Metric) : String :=
  ((m.tags.get? "nodename").or (m.tags.get? "docker_id")).getD ""

def series (m : Metric) : Series :=
  ⟨m.name, owner m⟩

theorem seriesKey_eq (m : Metric) : seriesKey m = (series m).text := by
  unfold seriesKey Series.text series owner
  cases m.tags.get? "nodename" <;> rfl

def Confused (s t : Series) : Prop :=
  s ≠ t ∧ s.text = t.text

theorem same_text {s : Series} {m : Metric} (h : seriesKey m = s.text) :
    series m = s ∨ Confused s (series m) := by
  by_cases hs : series m = s
  · exact Or.inl hs
  · exact Or.inr ⟨Ne.symm hs, by rw [← h, seriesKey_eq]⟩

instance (s t : Series) : Decidable (Confused s t) :=
  inferInstanceAs (Decidable (_ ∧ _))

/-- The name of `s` goes on with the front of the owner of `t`. -/
def Overlap (s t : Series) : Prop :=
  ∃ part, s.name = t.name ++ "/" ++ part ∧ t.owner = part ++ "/" ++ s.owner

theorem Confused.symm {s t : Series} (h : Confused s t) : Confused t s :=
  ⟨h.1.symm, h.2.symm⟩

theorem Overlap.confused {s t : Series} (h : Overlap s t) : Confused s t := by
  obtain ⟨part, hname, howner⟩ := h
  refine ⟨fun hst => ?_, ?_⟩
  · have hlength := congrArg String.length hname
    rw [hst, String.length_append, String.length_append] at hlength
    have hsep : "/".length = 1 := rfl
    omega
  · rw [Series.text, Series.text, hname, howner]
    simp only [String.append_assoc]

/-- If what follows a name is not empty, it is a separator and the front of
the owner. -/
theorem overlap_of_text {s t : Series} (hst : s ≠ t) {more : List Char}
    (hname : s.name.toList = t.name.toList ++ more)
    (howner : '/' :: t.owner.toList = more ++ '/' :: s.owner.toList) : Overlap s t := by
  cases more with
  | nil =>
    rw [List.append_nil] at hname
    injection howner with _ howner
    cases s
    cases t
    simp only [String.toList_inj] at hname howner
    exact absurd (congrArg₂ Series.mk hname howner.symm) hst
  | cons a part =>
    injection howner with ha howner
    refine ⟨String.ofList part, ?_, ?_⟩
    · rw [← String.toList_inj, hname, ← ha]
      simp
    · rw [← String.toList_inj, howner]
      simp

theorem confused_iff {s t : Series} : Confused s t ↔ Overlap s t ∨ Overlap t s := by
  constructor
  · rintro ⟨hst, htext⟩
    have hlist : s.name.toList ++ '/' :: s.owner.toList = t.name.toList ++ '/' :: t.owner.toList := by
      have hchars := congrArg String.toList htext
      simpa [Series.text] using hchars
    rcases List.append_eq_append_iff.mp hlist with ⟨more, hname, howner⟩ | ⟨more, hname, howner⟩
    · exact Or.inr (overlap_of_text hst.symm hname howner)
    · exact Or.inl (overlap_of_text hst hname howner)
  · rintro (h | h)
    · exact h.confused
    · exact h.confused.symm

/-- Series whose owners have no separator in them are kept apart. -/
theorem not_confused {s t : Series} (hs : '/' ∉ s.owner.toList) (ht : '/' ∉ t.owner.toList) :
    ¬Confused s t := by
  have hno : ∀ {s t : Series}, '/' ∉ t.owner.toList → ¬Overlap s t := by
    rintro s t ht ⟨part, -, howner⟩
    exact ht (by simp [howner])
  rw [confused_iff]
  rintro (h | h)
  · exact hno ht h
  · exact hno hs h

section Filter

variable {patterns : List Pattern} {keep : Metric → Bool}

theorem latest_filter {key : String} {before : List Metric}
    (h : ∀ m ∈ before, seriesKey m = key → keep m = true) :
    latest? patterns (before.filter keep) key = latest? patterns before key := by
  have hfilter : (before.filter keep).filter (fun p => seriesKey p == key) =
      before.filter fun p => seriesKey p == key := by
    rw [List.filter_filter]
    refine List.filter_congr fun m hm => ?_
    by_cases hkey : seriesKey m = key
    · rw [h m hm hkey, Bool.and_true]
    · simp [hkey]
  rw [latest?, hfilter, latest?]

theorem rated_filter {before : List Metric} {m : Metric}
    (h : ∀ p ∈ before, seriesKey p = seriesKey m → keep p = true) :
    rated patterns (before.filter keep) m = rated patterns before m := by
  rw [rated, rated, latest_filter h]

end Filter

def ofSeries (s : Series) (stream outputs : List Metric) : List Metric :=
  ((stream.zip outputs).filter fun p => series p.1 = s).map Prod.snd

theorem ofSeries_cons_self (m out : Metric) (stream outputs : List Metric) :
    ofSeries (series m) (m :: stream) (out :: outputs) =
      out :: ofSeries (series m) stream outputs := by
  rw [ofSeries, List.zip_cons_cons, List.filter_cons_of_pos (by simp), List.map_cons, ofSeries]

theorem ofSeries_cons_other {s : Series} {m : Metric} (h : series m ≠ s) (out : Metric)
    (stream outputs : List Metric) :
    ofSeries s (m :: stream) (out :: outputs) = ofSeries s stream outputs := by
  rw [ofSeries, List.zip_cons_cons, List.filter_cons_of_neg (by simp [h]), ofSeries]

theorem ofSeries_all {s : Series} {stream outputs : List Metric}
    (h : ∀ m ∈ stream, series m = s) (hlength : stream.length = outputs.length) :
    ofSeries s stream outputs = outputs := by
  rw [ofSeries, List.filter_eq_self.mpr, List.map_snd_zip (by omega)]
  intro p hp
  exact decide_eq_true (h p.1 (List.of_mem_zip hp).1)

/-- A filter that keeps all metrics with the text of a series keeps what comes
out for it. -/
theorem ratedAfter_filter {patterns : List Pattern} {keep : Metric → Bool} {s : Series}
    (before ms : List Metric)
    (h : ∀ m ∈ before ++ ms, seriesKey m = s.text → keep m = true) :
    ofSeries s (ms.filter keep) (ratedAfter patterns (before.filter keep) (ms.filter keep)) =
      ofSeries s ms (ratedAfter patterns before ms) := by
  induction ms generalizing before with
  | nil => rfl
  | cons m ms ih =>
    have hrest := ih (before ++ [m]) (by rwa [List.append_assoc])
    rw [List.filter_append] at hrest
    have hbefore : ∀ p ∈ before, seriesKey p = s.text → keep p = true :=
      fun p hp => h p (List.mem_append_left _ hp)
    by_cases hkeep : keep m = true
    · rw [List.filter_singleton, hkeep] at hrest
      rw [List.filter_cons_of_pos hkeep, ratedAfter, ratedAfter]
      by_cases hs : series m = s
      · subst hs
        rw [ofSeries_cons_self, ofSeries_cons_self, rated_filter (by rwa [seriesKey_eq])]
        exact congrArg _ hrest
      · rw [ofSeries_cons_other hs, ofSeries_cons_other hs]
        exact hrest
    · rw [List.filter_singleton, Bool.eq_false_iff.mpr hkeep] at hrest
      have hs : series m ≠ s := fun hs => hkeep (h m (by simp) (hs ▸ seriesKey_eq m))
      rw [List.filter_cons_of_neg hkeep, ratedAfter, ofSeries_cons_other hs]
      rwa [cond_false, List.append_nil] at hrest

section Streams

variable {patterns : List Pattern} {s : Series} {stream : List Metric}

/-- What comes out for a series is the same in every stream that has left its
own metrics and those of series with its text. -/
theorem kept_rates {keep : Metric → Bool}
    (h : ∀ m ∈ stream, series m = s ∨ Confused s (series m) → keep m = true) :
    ofSeries s (stream.filter keep) (ratedAfter patterns [] (stream.filter keep)) =
      ofSeries s stream (ratedAfter patterns [] stream) :=
  ratedAfter_filter [] stream fun m hm htext => h m hm (same_text htext)

theorem alone_rates (h : ∀ m ∈ stream, ¬Confused s (series m)) :
    ratedAfter patterns [] (stream.filter fun m => series m = s) =
      ofSeries s stream (ratedAfter patterns [] stream) := by
  have hall : ∀ m ∈ stream.filter fun m => series m = s, series m = s :=
    fun m hm => of_decide_eq_true (List.mem_filter.mp hm).2
  rw [← kept_rates fun m hm hs => decide_eq_true (hs.resolve_right (h m hm)),
    ofSeries_all hall (ratedAfter_length patterns [] _).symm]

theorem rated_first {before : List Metric} {m : Metric} (hm : observed patterns m ≠ none)
    (h : ∀ p ∈ before, seriesKey p = seriesKey m → observed patterns p = none) :
    rated patterns before m = averaged m 0.0 := by
  have hnone : latest? patterns before (seriesKey m) = none := by
    rw [latest?, List.getLast?_eq_none_iff, List.filterMap_eq_nil_iff]
    intro p hp
    rw [List.mem_filter, beq_iff_eq] at hp
    exact h p hp.1 hp.2
  obtain ⟨now, hnow⟩ := Option.ne_none_iff_exists'.mp hm
  rw [rated, hnow, hnone]
  rfl

theorem ratedAfter_at (before later : List Metric) (m : Metric) :
    (ratedAfter patterns [] (before ++ m :: later))[before.length]? =
      some (rated patterns before m) := by
  rw [ratedAfter_append, List.getElem?_append_right (by rw [ratedAfter_length]), ratedAfter_length,
    Nat.sub_self, List.nil_append, ratedAfter, List.getElem?_cons_zero]

theorem first_rate {before later : List Metric} {m : Metric}
    (h : ∀ p ∈ before, ¬Confused (series m) (series p)) (hm : observed patterns m ≠ none)
    (hbefore : ∀ p ∈ before, series p = series m → observed patterns p = none) :
    (ratedAfter patterns [] (before ++ m :: later))[before.length]? = some (averaged m 0.0) := by
  rw [ratedAfter_at, rated_first hm]
  intro p hp hpm
  exact hbefore p hp ((same_text (hpm.trans (seriesKey_eq m))).resolve_right (h p hp))

end Streams

def sampled (s : Series) (seconds : ℤ) (x : Float) : Metric :=
  ⟨⟨[.literal s.name]⟩, ⟨seconds, 0⟩, .float x, Dict.ofList [("nodename", s.owner)], "", 1⟩

theorem sampled_name (s : Series) (seconds : ℤ) (x : Float) : (sampled s seconds x).name = s.name := by
  rfl

theorem series_sampled (s : Series) (seconds : ℤ) (x : Float) : series (sampled s seconds x) = s := by
  rfl

theorem observed_sampled {patterns : List Pattern} {s : Series}
    (h : patterns.any (·.matchesName s.name) = true) (seconds : ℤ) (x : Float) :
    observed patterns (sampled s seconds x) = some ⟨x, ⟨seconds, 0⟩⟩ := by
  rw [observed, sampled_name, if_pos h]
  rfl

theorem answers_single [Pattern.SizeLimit] {c : PluginConfig} {patterns : List Pattern}
    (h : Rates.readPatterns c = .ok patterns) (batch : List Metric) :
    answers c .fresh [batch] = [.ok (ratedAfter patterns [] batch)] :=
  answers_rated (Or.inr ⟨rfl, h⟩) (fresh_keeps patterns) [batch]

/-- After a sample of another series with its text, a series has a rate, and
without that sample it has none. -/
theorem sampled_answers [Pattern.SizeLimit] {c : PluginConfig} {patterns : List Pattern}
    (h : Rates.readPatterns c = .ok patterns) {s t : Series} (hst : Confused s t)
    (hs : patterns.any (·.matchesName s.name) = true)
    (ht : patterns.any (·.matchesName t.name) = true) :
    answers c .fresh [[sampled t 0 0.0, sampled s 1 1.0]] =
        [.ok [averaged (sampled t 0 0.0) 0.0, averaged (sampled s 1 1.0) 1.0]] ∧
      answers c .fresh [[sampled s 1 1.0]] = [.ok [averaged (sampled s 1 1.0) 0.0]] := by
  have hkey : seriesKey (sampled t 0 0.0) = seriesKey (sampled s 1 1.0) := by
    rw [seriesKey_eq, seriesKey_eq, series_sampled, series_sampled, hst.2]
  have hfirst : rated patterns [] (sampled t 0 0.0) = averaged (sampled t 0 0.0) 0.0 :=
    rated_first (by simp [observed_sampled ht]) (by simp)
  have halone : rated patterns [] (sampled s 1 1.0) = averaged (sampled s 1 1.0) 0.0 :=
    rated_first (by simp [observed_sampled hs]) (by simp)
  have hlatest : latest? patterns [sampled t 0 0.0] (seriesKey (sampled s 1 1.0)) =
      some ⟨0.0, ⟨0, 0⟩⟩ := by
    rw [← List.nil_append [sampled t 0 0.0], latest_append, if_pos hkey, observed_sampled ht]
    rfl
  have hgrowth : growth ⟨0.0, ⟨0, 0⟩⟩ ⟨1.0, ⟨1, 0⟩⟩ = 1.0 := by
    decide +kernel
  have hsecond : rated patterns [sampled t 0 0.0] (sampled s 1 1.0) =
      averaged (sampled s 1 1.0) 1.0 := by
    rw [rated, observed_sampled hs, hlatest]
    dsimp only [Option.elim_some]
    rw [hgrowth]
    rfl
  constructor
  · rw [answers_single h, ratedAfter, ratedAfter, ratedAfter, hfirst, List.nil_append, hsecond]
  · rw [answers_single h, ratedAfter, ratedAfter, halone]

/-- The rates of a series are those of a stream without the series that have
another text. If no other series in the stream has its text, they are those of
its own metrics, and the first one observed has the rate zero. Another series
has its text only if one's name goes on with the front of the other one's owner,
and such a series does change its rates. -/
theorem rates_apart [Pattern.SizeLimit] {c : PluginConfig} {patterns : List Pattern}
    (h : Rates.readPatterns c = .ok patterns) (batches : List (List Metric)) (s : Series) :
    ∃ outputs : List (List Metric),
      answers c .fresh batches = outputs.map .ok ∧
      outputs.map List.length = batches.map List.length ∧
      (∀ keep : Metric → Bool,
        (∀ m ∈ batches.flatten, series m = s ∨ Confused s (series m) → keep m = true) →
        ∃ kept : List (List Metric),
          answers c .fresh (batches.map fun b => b.filter keep) = kept.map .ok ∧
          ofSeries s (batches.flatten.filter keep) kept.flatten =
            ofSeries s batches.flatten outputs.flatten) ∧
      ((∀ m ∈ batches.flatten, ¬Confused s (series m)) →
        (∃ alone : List (List Metric),
          answers c .fresh (batches.map fun b => b.filter fun m => series m = s) =
            alone.map .ok ∧
          alone.flatten = ofSeries s batches.flatten outputs.flatten) ∧
        ∀ before m later, batches.flatten = before ++ m :: later → series m = s →
          observed patterns m ≠ none →
          (∀ p ∈ before, series p = s → observed patterns p = none) →
          outputs.flatten[before.length]? = some (averaged m 0.0)) ∧
      ∀ t, (Confused s t ↔ Overlap s t ∨ Overlap t s) ∧
        (Confused s t → patterns.any (·.matchesName s.name) = true →
          patterns.any (·.matchesName t.name) = true →
          ∃ first m, series first = t ∧ series m = s ∧
            answers c .fresh [[first, m]] = [.ok [averaged first 0.0, averaged m 1.0]] ∧
            answers c .fresh [[m]] = [.ok [averaged m 0.0]]) := by
  have hanswers := answers_rated (Or.inr ⟨rfl, h⟩) (fresh_keeps patterns)
  refine ⟨ratedBatches patterns [] batches, hanswers batches, ratedBatches_length patterns [] batches,
    ?_, ?_, fun t => ⟨confused_iff, fun hst hs ht => ?_⟩⟩
  · intro keep hkeep
    refine ⟨_, hanswers _, ?_⟩
    rw [ratedBatches_flatten, ratedBatches_flatten, ← List.filter_flatten]
    exact kept_rates hkeep
  · intro hapart
    refine ⟨⟨_, hanswers _, ?_⟩, ?_⟩
    · rw [ratedBatches_flatten, ratedBatches_flatten, ← List.filter_flatten]
      exact alone_rates hapart
    · rintro before m later hstream rfl hm hbefore
      rw [hstream] at hapart
      rw [ratedBatches_flatten, hstream]
      exact first_rate (fun p hp => hapart p (List.mem_append_left _ hp)) hm hbefore
  · exact ⟨_, _, series_sampled t 0 0.0, series_sampled s 1 1.0, sampled_answers h hst hs ht⟩

def diskConfig : PluginConfig := ⟨Dict.ofList [("average", .string "disk/*, disk/*/*")]⟩

def diskPatterns : List Pattern :=
  [⟨['d', 'i', 's', 'k', '/', '*'],
      [.atom (.char 'd'), .atom (.char 'i'), .atom (.char 's'), .atom (.char 'k'),
        .atom (.char '/'), .atom .run]⟩,
    ⟨['d', 'i', 's', 'k', '/', '*', '/', '*'],
      [.atom (.char 'd'), .atom (.char 'i'), .atom (.char 's'), .atom (.char 'k'),
        .atom (.char '/'), .atom .run, .atom (.char '/'), .atom .run]⟩]

attribute [local instance] Pattern.SizeLimit.ofAnys

theorem diskConfig_reads : Rates.readPatterns diskConfig = .ok diskPatterns := by
  cbv

def diskCalls : List (List Metric) :=
  [[counted "cpu/user" "1" 10 7, counted "disk/reads/sda" "2" 10 900,
      counted "disk/reads/sda" "1" 10 100],
    [counted "disk/reads/sda" "2" 12 901, counted "disk/reads/sda" "1" 12 500]]

theorem rates_apart_disk :
    Rates.readPatterns diskConfig = .ok diskPatterns ∧
    (∀ m ∈ diskCalls.flatten, ¬Confused ⟨"disk/reads/sda", "1"⟩ (series m)) ∧
    Confused ⟨"disk/reads/sda", "1"⟩ ⟨"disk/reads", "sda/1"⟩ ∧
    ∃ outputs kept alone : List (List Metric), ∃ first m : Metric,
      answers diskConfig .fresh diskCalls = outputs.map .ok ∧
      answers diskConfig .fresh (diskCalls.map fun b => b.filter fun m => m.name ≠ "cpu/user") =
        kept.map .ok ∧
      ofSeries ⟨"disk/reads/sda", "1"⟩
          (diskCalls.flatten.filter fun m => m.name ≠ "cpu/user") kept.flatten =
        ofSeries ⟨"disk/reads/sda", "1"⟩ diskCalls.flatten outputs.flatten ∧
      answers diskConfig .fresh
          (diskCalls.map fun b => b.filter fun m => series m = ⟨"disk/reads/sda", "1"⟩) =
        alone.map .ok ∧
      alone.flatten = ofSeries ⟨"disk/reads/sda", "1"⟩ diskCalls.flatten outputs.flatten ∧
      outputs.flatten[2]? = some (averaged (counted "disk/reads/sda" "1" 10 100) 0.0) ∧
      series first = ⟨"disk/reads", "sda/1"⟩ ∧
      answers diskConfig .fresh [[first, m]] = [.ok [averaged first 0.0, averaged m 1.0]] := by
  have hplain : ∀ m ∈ diskCalls.flatten, '/' ∉ (owner m).toList := by
    decide +kernel
  have hapart : ∀ m ∈ diskCalls.flatten, ¬Confused ⟨"disk/reads/sda", "1"⟩ (series m) :=
    fun m hm => not_confused (by decide +kernel) (hplain m hm)
  have hst : Confused ⟨"disk/reads/sda", "1"⟩ ⟨"disk/reads", "sda/1"⟩ := by
    decide +kernel
  obtain ⟨outputs, hanswers, -, hkeep, halone, hshare⟩ :=
    rates_apart diskConfig_reads diskCalls ⟨"disk/reads/sda", "1"⟩
  obtain ⟨kept, hkept, hsame⟩ := hkeep (fun m => m.name ≠ "cpu/user") (by decide +kernel)
  obtain ⟨⟨alone, hown, hflatten⟩, hfirst⟩ := halone hapart
  obtain ⟨first, m, hseries, -, hboth, -⟩ :=
    (hshare ⟨"disk/reads", "sda/1"⟩).2 hst (by decide +kernel) (by decide +kernel)
  refine ⟨diskConfig_reads, hapart, hst, outputs, kept, alone, first, m, hanswers, hkept, hsame, hown,
    hflatten, ?_, hseries, hboth⟩
  exact hfirst [counted "cpu/user" "1" 10 7, counted "disk/reads/sda" "2" 10 900] _ _ rfl
    (by decide +kernel) (by decide +kernel) (by decide +kernel)

/-- A metric that is the first one of its series gets a rate from another
series, and none without it. -/
theorem first_rate_shared :
    series (counted "disk/reads" "sda/1" 0 100) ≠ series (counted "disk/reads/sda" "1" 1 150) ∧
    answers diskConfig .fresh
        [[counted "disk/reads" "sda/1" 0 100, counted "disk/reads/sda" "1" 1 150]] =
      [.ok [averaged (counted "disk/reads" "sda/1" 0 100) 0.0,
        averaged (counted "disk/reads/sda" "1" 1 150) 50.0]] ∧
    answers diskConfig .fresh [[counted "disk/reads/sda" "1" 1 150]] =
      [.ok [averaged (counted "disk/reads/sda" "1" 1 150) 0.0]] := by
  have hboth : ratedAfter diskPatterns []
      [counted "disk/reads" "sda/1" 0 100, counted "disk/reads/sda" "1" 1 150] =
      [averaged (counted "disk/reads" "sda/1" 0 100) 0.0,
        averaged (counted "disk/reads/sda" "1" 1 150) 50.0] := by
    decide +kernel
  have halone : ratedAfter diskPatterns [] [counted "disk/reads/sda" "1" 1 150] =
      [averaged (counted "disk/reads/sda" "1" 1 150) 0.0] := by
    decide +kernel
  refine ⟨by decide +kernel, ?_, ?_⟩
  · rw [answers_single diskConfig_reads, hboth]
  · rw [answers_single diskConfig_reads, halone]

end Telemetry.SeriesApart
