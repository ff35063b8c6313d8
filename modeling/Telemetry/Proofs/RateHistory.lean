import Mathlib.Data.List.Infix
import Telemetry.Proofs.DoubleSigns
import Telemetry.Rates

/-!
# Rates read off whole streams

Rates are computed from one sample kept for every series. The same rates come
from looking at the whole stream before a metric: the sample before it is the
last one of its series, in whichever call that was given.
-/

set_option autoImplicit false

namespace Telemetry.RateHistory

open Rates (seriesKey)

def observed (patterns : List Pattern) (m : Metric) : Option Sample :=
  if patterns.any (·.matchesName m.name) then m.value.toFloat?.map fun x => ⟨x, m.timestamp⟩
  else none

def latest? (patterns : List Pattern) (before : List Metric) (key : String) : Option Sample :=
  ((before.filter fun p => seriesKey p == key).filterMap (observed patterns)).getLast?

/-- Growth per second over whole milliseconds. A clock that stands or goes
back, and a value that drops, have none. -/
def growth (earlier later : Sample) : Float :=
  let millis := Int.tdiv (later.time.since earlier.time) 1000000
  if millis ≤ 0 ∨ later.value < earlier.value then 0.0
  else (later.value - earlier.value) / (Decimal.ofInt millis / 1000.0)

def rated (patterns : List Pattern) (before : List Metric) (m : Metric) : Metric :=
  match observed patterns m with
  | none => m
  | some now =>
    { m with
      value := .float ((latest? patterns before (seriesKey m)).elim 0.0 fun p => growth p now)
      tags := m.tags.insert "average_process" "true" }

def ratedStream (patterns : List Pattern) (stream : List Metric) : List Metric :=
  List.zipWith (rated patterns) stream.inits stream

def answers [Pattern.SizeLimit] (c : PluginConfig) : Rates → List (List Metric) →
    List (Except PluginError (List Metric))
  | _, [] => []
  | r, batch :: batches => (r.process batch c).1 :: answers c (r.process batch c).2 batches

def after [Pattern.SizeLimit] (c : PluginConfig) (r : Rates) (batches : List (List Metric)) :
    Rates :=
  batches.foldl (fun r batch => (r.process batch c).2) r

def Keeps (patterns : List Pattern) (before : List Metric) (previous : Dict Sample) : Prop :=
  ∀ key, previous.get? key = latest? patterns before key

theorem rate_growth (earlier later : Sample) : Rates.rate earlier later = growth earlier later := by
  simp only [Rates.rate, growth, Rates.millisBetween, DoubleSigns.seconds_nonpos]

/-- A metric that is not observed passes, and no sample is kept of it. -/
theorem step_unobserved {patterns : List Pattern} {m : Metric} (hm : observed patterns m = none)
    (previous : Dict Sample) : Rates.step patterns previous m = (m, previous) := by
  unfold Rates.step
  cases hx : m.value.toFloat? with
  | none => rfl
  | some x =>
    dsimp only
    rw [if_neg]
    intro hname
    rw [observed, if_pos hname, hx] at hm
    cases hm

theorem step_observed {patterns : List Pattern} {m : Metric} {now : Sample}
    (hm : observed patterns m = some now) (previous : Dict Sample) :
    Rates.step patterns previous m =
      (Rates.averaged m ((previous.get? (seriesKey m)).elim 0.0 fun p => growth p now),
        previous.insert (seriesKey m) now) := by
  unfold observed at hm
  split at hm
  · rename_i hname
    obtain ⟨x, hx, rfl⟩ := Option.map_eq_some_iff.mp hm
    unfold Rates.step
    rw [hx]
    dsimp only
    rw [if_pos hname]
    cases previous.get? (seriesKey m) with
    | none => rfl
    | some p => simp only [rate_growth, Option.elim_some]
  · cases hm

theorem latest_append (patterns : List Pattern) (before : List Metric) (m : Metric)
    (key : String) :
    latest? patterns (before ++ [m]) key =
      if seriesKey m = key then (observed patterns m).or (latest? patterns before key)
      else latest? patterns before key := by
  unfold latest?
  rw [List.filter_append, List.filterMap_append, List.getLast?_append]
  by_cases hkey : seriesKey m = key
  · rw [if_pos hkey, List.filter_cons_of_pos (by simp [hkey])]
    cases hm : observed patterns m <;> simp [hm]
  · rw [if_neg hkey, List.filter_cons_of_neg (by simp [hkey])]
    rfl

theorem step_rated {patterns : List Pattern} {before : List Metric} {previous : Dict Sample}
    (h : Keeps patterns before previous) (m : Metric) :
    (Rates.step patterns previous m).1 = rated patterns before m ∧
    Keeps patterns (before ++ [m]) (Rates.step patterns previous m).2 := by
  rw [rated]
  cases hm : observed patterns m with
  | none =>
    rw [step_unobserved hm]
    refine ⟨rfl, fun key => ?_⟩
    rw [latest_append, hm, h key]
    split <;> rfl
  | some now =>
    rw [step_observed hm, h]
    refine ⟨rfl, fun key => ?_⟩
    rw [Dict.get?_insert, latest_append, hm, h key]
    by_cases hkey : seriesKey m = key
    · rw [if_pos hkey.symm, if_pos hkey]
      rfl
    · rw [if_neg (Ne.symm hkey), if_neg hkey]

def ratedAfter (patterns : List Pattern) : List Metric → List Metric → List Metric
  | _, [] => []
  | before, m :: ms => rated patterns before m :: ratedAfter patterns (before ++ [m]) ms

theorem ratedStream_eq (patterns : List Pattern) (stream : List Metric) :
    ratedStream patterns stream = ratedAfter patterns [] stream := by
  have hgo : ∀ before ms, List.zipWith (fun more m => rated patterns (before ++ more) m) ms.inits ms =
      ratedAfter patterns before ms := by
    intro before ms
    induction ms generalizing before with
    | nil => rfl
    | cons m ms ih =>
      rw [List.inits_cons, List.zipWith_cons_cons, List.zipWith_map_left, ratedAfter,
        List.append_nil, ← ih]
      simp only [List.append_assoc, List.singleton_append]
  exact hgo [] stream

theorem ratedAfter_length (patterns : List Pattern) (before ms : List Metric) :
    (ratedAfter patterns before ms).length = ms.length := by
  induction ms generalizing before with
  | nil => rfl
  | cons m ms ih => rw [ratedAfter, List.length_cons, List.length_cons, ih]

theorem ratedAfter_append (patterns : List Pattern) (before ms later : List Metric) :
    ratedAfter patterns before (ms ++ later) =
      ratedAfter patterns before ms ++ ratedAfter patterns (before ++ ms) later := by
  induction ms generalizing before with
  | nil => rw [List.append_nil]; rfl
  | cons m ms ih =>
    rw [List.cons_append, ratedAfter, ratedAfter, ih, List.cons_append, List.append_assoc]
    rfl

theorem run_rated {patterns : List Pattern} {before : List Metric} {previous : Dict Sample}
    (h : Keeps patterns before previous) (ms : List Metric) :
    (Rates.run patterns previous ms).1 = ratedAfter patterns before ms ∧
    Keeps patterns (before ++ ms) (Rates.run patterns previous ms).2 := by
  induction ms generalizing before previous with
  | nil => exact ⟨rfl, by rwa [List.append_nil]⟩
  | cons m ms ih =>
    obtain ⟨hm, hstep⟩ := step_rated h m
    obtain ⟨hms, hrun⟩ := ih hstep
    rw [List.append_assoc] at hrun
    refine ⟨?_, hrun⟩
    rw [ratedAfter, ← hm, ← hms]
    rfl

theorem rated_own (patterns : List Pattern) (before : List Metric) (m : Metric) :
    rated patterns (before.filter fun p => seriesKey p == seriesKey m) m =
      rated patterns before m := by
  simp only [rated, latest?, List.filter_filter, Bool.and_self]

theorem ratedAfter_own (patterns : List Pattern) (key : String) (before ms : List Metric) :
    ((ms.zip (ratedAfter patterns before ms)).filter fun p => seriesKey p.1 == key).map Prod.snd =
      ratedAfter patterns (before.filter fun p => seriesKey p == key)
        (ms.filter fun p => seriesKey p == key) := by
  induction ms generalizing before with
  | nil => rfl
  | cons m ms ih =>
    rw [ratedAfter, List.zip_cons_cons]
    by_cases hkey : seriesKey m = key
    · rw [List.filter_cons_of_pos (by simp [hkey]), List.filter_cons_of_pos (by simp [hkey]),
        List.map_cons, ih, ratedAfter, List.filter_append, List.filter_cons_of_pos (by simp [hkey]),
        ← hkey, rated_own]
      rfl
    · rw [List.filter_cons_of_neg (by simp [hkey]), List.filter_cons_of_neg (by simp [hkey]), ih,
        List.filter_append, List.filter_cons_of_neg (by simp [hkey]), List.filter_nil,
        List.append_nil]

def Reads [Pattern.SizeLimit] (c : PluginConfig) (patterns : List Pattern) (r : Rates) : Prop :=
  r.patterns = some patterns ∨ r.patterns = none ∧ Rates.readPatterns c = .ok patterns

theorem process_eq [Pattern.SizeLimit] {c : PluginConfig} {patterns : List Pattern} {r : Rates}
    (h : Reads c patterns r) (batch : List Metric) :
    r.process batch c = (.ok (Rates.run patterns r.previous batch).1,
      ⟨some patterns, (Rates.run patterns r.previous batch).2⟩) := by
  unfold Rates.process
  rcases h with h | ⟨h, hread⟩
  · rw [h]
  · rw [h]
    dsimp only
    rw [hread]

theorem after_reads [Pattern.SizeLimit] {c : PluginConfig} {patterns : List Pattern} {r : Rates}
    (h : Reads c patterns r) (batches : List (List Metric)) :
    Reads c patterns (after c r batches) := by
  induction batches generalizing r with
  | nil => exact h
  | cons batch batches ih =>
    refine ih (Or.inl ?_)
    show (r.process batch c).2.patterns = some patterns
    rw [process_eq h]

def ratedBatches (patterns : List Pattern) : List Metric → List (List Metric) → List (List Metric)
  | _, [] => []
  | before, batch :: batches =>
    ratedAfter patterns before batch :: ratedBatches patterns (before ++ batch) batches

theorem ratedBatches_length (patterns : List Pattern) (before : List Metric)
    (batches : List (List Metric)) :
    (ratedBatches patterns before batches).map List.length = batches.map List.length := by
  induction batches generalizing before with
  | nil => rfl
  | cons batch batches ih =>
    rw [ratedBatches, List.map_cons, List.map_cons, ratedAfter_length, ih]

theorem ratedBatches_flatten (patterns : List Pattern) (before : List Metric)
    (batches : List (List Metric)) :
    (ratedBatches patterns before batches).flatten = ratedAfter patterns before batches.flatten := by
  induction batches generalizing before with
  | nil => rfl
  | cons batch batches ih =>
    rw [ratedBatches, List.flatten_cons, List.flatten_cons, ih, ratedAfter_append]

theorem answers_rated [Pattern.SizeLimit] {c : PluginConfig} {patterns : List Pattern} {r : Rates}
    {before : List Metric} (h : Reads c patterns r) (hk : Keeps patterns before r.previous)
    (batches : List (List Metric)) :
    answers c r batches = (ratedBatches patterns before batches).map .ok := by
  induction batches generalizing r before with
  | nil => rfl
  | cons batch batches ih =>
    obtain ⟨hbatch, hrun⟩ := run_rated hk batch
    rw [answers, ratedBatches, List.map_cons, process_eq h, hbatch, ih (Or.inl rfl) hrun]

theorem fresh_keeps (patterns : List Pattern) : Keeps patterns [] Rates.fresh.previous :=
  fun _ => rfl

/-- A metric that is not observed may as well not be in its batch. -/
theorem run_unobserved {patterns : List Pattern} {m : Metric} (hm : observed patterns m = none)
    (previous : Dict Sample) (ms later : List Metric) :
    (Rates.run patterns previous (ms ++ m :: later)).2 =
      (Rates.run patterns previous (ms ++ later)).2 := by
  induction ms generalizing previous with
  | nil =>
    show (Rates.run patterns (Rates.step patterns previous m).2 later).2 = _
    rw [step_unobserved hm]
    rfl
  | cons p ms ih => exact ih (Rates.step patterns previous p).2

/-- Whatever batches a stream is given in, every metric comes out as it is
rated after the stream before it, and the metrics of one series come out as
they do alone. -/
theorem stream_rates [Pattern.SizeLimit] {c : PluginConfig} {patterns : List Pattern}
    (h : Rates.readPatterns c = .ok patterns) (batches : List (List Metric)) :
    ∃ outputs : List (List Metric),
      answers c .fresh batches = outputs.map .ok ∧
      outputs.map List.length = batches.map List.length ∧
      outputs.flatten = ratedStream patterns batches.flatten ∧
      (∀ before m later, observed patterns m = none →
        ((after c .fresh batches).process (before ++ m :: later) c).2 =
          ((after c .fresh batches).process (before ++ later) c).2) ∧
      (∀ cut : List (List Metric), cut.flatten = batches.flatten →
        ∃ others : List (List Metric),
          answers c .fresh cut = others.map .ok ∧ others.flatten = outputs.flatten) ∧
      ∀ key, ∃ alone : List (List Metric),
        answers c .fresh (batches.map fun b => b.filter fun m => seriesKey m == key) =
          alone.map .ok ∧
        alone.flatten = ((batches.flatten.zip outputs.flatten).filter
          fun p => seriesKey p.1 == key).map Prod.snd := by
  have hreads : Reads c patterns .fresh := Or.inr ⟨rfl, h⟩
  have hanswers := answers_rated hreads (fresh_keeps patterns)
  refine ⟨ratedBatches patterns [] batches, hanswers batches, ratedBatches_length patterns [] batches,
    ?_, ?_, ?_, ?_⟩
  · rw [ratedBatches_flatten, ratedStream_eq]
  · intro before m later hm
    rw [process_eq (after_reads hreads batches), process_eq (after_reads hreads batches),
      run_unobserved hm]
  · intro cut hcut
    refine ⟨_, hanswers cut, ?_⟩
    rw [ratedBatches_flatten, ratedBatches_flatten, hcut]
  · intro key
    refine ⟨_, hanswers _, ?_⟩
    rw [ratedBatches_flatten, ratedBatches_flatten, ratedAfter_own, List.filter_nil,
      List.filter_flatten]

def netConfig : PluginConfig := ⟨Dict.ofList [("average", .string "net/*")]⟩

def netPattern : Pattern where
  raw := ['n', 'e', 't', '/', '*']
  items := [.atom (.char 'n'), .atom (.char 'e'), .atom (.char 't'), .atom (.char '/'),
    .atom .run]

attribute [local instance] Pattern.SizeLimit.ofAnys

theorem netConfig_reads : Rates.readPatterns netConfig = .ok [netPattern] := by
  cbv

def counted (name node : String) (seconds : ℤ) (n : Int64) : Metric :=
  ⟨Namespace.parse name, ⟨seconds, 0⟩, .int n, Dict.ofList [("nodename", node)], "", 1⟩

def netCalls : List (List Metric) :=
  [[counted "net/bytes" "a" 10 100, counted "cpu/user" "a" 10 7, counted "net/bytes" "b" 10 900,
      counted "net/bytes" "a" 12 500],
    [counted "net/bytes" "a" 11 600, counted "net/bytes" "b" 12 3,
      counted "net/bytes" "a" 13 700]]

theorem stream_rates_net :
    Rates.readPatterns netConfig = .ok [netPattern] ∧
    ∃ outputs alone : List (List Metric),
      answers netConfig .fresh netCalls = outputs.map .ok ∧
      outputs.map List.length = [4, 3] ∧
      outputs.flatten = ratedStream [netPattern] netCalls.flatten ∧
      answers netConfig .fresh
        (netCalls.map fun b => b.filter fun m => seriesKey m == "net/bytes/a") = alone.map .ok ∧
      alone.flatten = ((netCalls.flatten.zip outputs.flatten).filter
        fun p => seriesKey p.1 == "net/bytes/a").map Prod.snd := by
  obtain ⟨outputs, hanswers, hlength, hflatten, _, _, halone⟩ :=
    stream_rates netConfig_reads netCalls
  obtain ⟨alone, hown, hsame⟩ := halone "net/bytes/a"
  exact ⟨netConfig_reads, outputs, alone, hanswers, hlength, hflatten, hown, hsame⟩

end Telemetry.RateHistory
