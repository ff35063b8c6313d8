import Mathlib.Data.List.Forall2
import Mathlib.Data.Nat.Notation
import Telemetry.Derived.Engine

/-!
# Windows read off whole histories

The engine counts one sample at a time and keeps a few numbers for every name.
The same answers come from looking at the whole history of one name: cut it
into windows, each from a crossing sample to the first one that makes it full
or old enough, and give the share of crossings at the end of each.
-/

set_option autoImplicit false

namespace Telemetry.WindowReference

structure Sample where
  time : Timestamp
  crosses : Bool

def closes (total : ℕ) (length : Span) (opened : Timestamp) (s : Sample) (count : ℕ) : Bool :=
  count == total || decide ((length : Int) ≤ s.time.since opened)

def closing? (total : ℕ) (length : Span) (opened : Timestamp) (first : ℕ)
    (samples : List Sample) : Option ℕ :=
  (samples.zipIdx first).findIdx? fun (s, count) => closes total length opened s count

def share (total hits : ℕ) : Float := Decimal.ofNat hits / Decimal.ofNat total

/-- The answers to a history: the share of every window at the sample that
closes it, and nothing at all others. -/
def windowed (total : ℕ) (length : Span) : List Sample → List (Option Float)
  | [] => []
  | s :: rest =>
    if s.crosses then
      match closing? total length s.time 1 (s :: rest) with
      | none => (s :: rest).map fun _ => none
      | some i =>
        List.replicate i none ++
          some (share total (((s :: rest).take (i + 1)).countP Sample.crosses)) ::
            windowed total length (rest.drop i)
    else none :: windowed total length rest
termination_by samples => samples.length

def feed (length : Span) (w : Window) (s : Sample) : Option Float × Window :=
  (w.record s.time s.crosses).complete s.time length

def track (length : Span) : Window → List Sample → List (Option Float)
  | _, [] => []
  | w, s :: rest => (feed length w s).1 :: track length (feed length w s).2 rest

theorem record_fresh (i total : ℕ) (s : Sample) :
    (Window.fresh i total).record s.time s.crosses =
      if s.crosses then ⟨i, 1, some s.time, 1, total⟩ else .fresh i total := by
  cases hc : s.crosses <;> simp [Window.record, Window.fresh]

theorem record_open (i hits total seen : ℕ) (opened : Timestamp) (s : Sample) (hh : 0 < hits) :
    (Window.mk i hits (some opened) seen total).record s.time s.crosses =
      ⟨i, hits + [s].countP Sample.crosses, some opened, seen + 1, total⟩ := by
  have h0 : hits ≠ 0 := by omega
  cases hc : s.crosses <;> simp [Window.record, h0, hc]

theorem complete_open (i hits total seen : ℕ) (opened : Timestamp) (length : Span) (s : Sample)
    (hh : 0 < hits) (hs : seen ≤ total) :
    (Window.mk i hits (some opened) seen total).complete s.time length =
      if closes total length opened s seen then (some (share total hits), .fresh i total)
      else (none, ⟨i, hits, some opened, seen, total⟩) := by
  have h0 : hits ≠ 0 := by omega
  have hfull : total ≤ seen ↔ seen = total := by omega
  simp [Window.complete, Window.elapsed, Window.frequency, closes, share, h0, hfull]

theorem closing_cons (total first : ℕ) (length : Span) (opened : Timestamp) (s : Sample)
    (rest : List Sample) :
    closing? total length opened first (s :: rest) =
      if closes total length opened s first then some 0
      else (closing? total length opened (first + 1) rest).map (· + 1) := by
  rw [closing?, List.zipIdx_cons, List.findIdx?_cons]
  rfl

theorem track_open (i total : ℕ) (length : Span) (opened : Timestamp) (samples : List Sample)
    (hits seen : ℕ) (hh : 0 < hits) (hs : seen < total) :
    track length ⟨i, hits, some opened, seen, total⟩ samples =
      match closing? total length opened (seen + 1) samples with
      | none => samples.map fun _ => none
      | some j =>
        List.replicate j none ++
          some (share total (hits + (samples.take (j + 1)).countP Sample.crosses)) ::
            track length (.fresh i total) (samples.drop (j + 1)) := by
  -- the reference counts samples from the opening one, so `seen` moves along with its first count
  induction samples generalizing hits seen with
  | nil => rfl
  | cons s rest ih =>
    rw [track, feed, record_open i hits total seen opened s hh,
      complete_open i _ total _ opened length s (by omega) hs, closing_cons]
    by_cases hc : closes total length opened s (seen + 1)
    · simp [hc]
    · have hne : seen + 1 ≠ total := by
        intro he
        simp [closes, he] at hc
      have hrest := ih (hits + [s].countP Sample.crosses) (seen + 1) (by omega) (by omega)
      rw [if_neg hc, if_neg hc, hrest]
      cases closing? total length opened (seen + 1 + 1) rest with
      | none => rfl
      | some j =>
        have hcount : (s :: rest).take (j + 1 + 1) = [s] ++ rest.take (j + 1) := rfl
        simp only [Option.map_some, hcount, List.countP_append, List.replicate_succ,
          List.drop_succ_cons, Nat.add_assoc]
        rfl

/-- What a window answers from the sample that opens it until it closes. -/
theorem track_opening (i total : ℕ) (length : Span) (s : Sample) (rest : List Sample)
    (hc : s.crosses = true) (ht : 0 < total) :
    track length (.fresh i total) (s :: rest) =
      match closing? total length s.time 1 (s :: rest) with
      | none => (s :: rest).map fun _ => none
      | some j =>
        List.replicate j none ++
          some (share total (((s :: rest).take (j + 1)).countP Sample.crosses)) ::
            track length (.fresh i total) (rest.drop j) := by
  rw [track, feed, record_fresh, if_pos hc,
    complete_open i 1 total 1 s.time length s Nat.one_pos ht, closing_cons]
  by_cases hcl : closes total length s.time s 1
  · simp [hcl, hc]
  · have hne : 1 ≠ total := by
      intro he
      simp [closes, he] at hcl
    rw [if_neg hcl, if_neg hcl, track_open i total length s.time rest 1 1 Nat.one_pos (by omega)]
    cases closing? total length s.time (1 + 1) rest with
    | none => rfl
    | some j =>
      have hcount : ((s :: rest).take (j + 1 + 1)).countP Sample.crosses =
          1 + (rest.take (j + 1)).countP Sample.crosses := by
        rw [List.take_succ_cons, List.countP_cons_of_pos hc, Nat.add_comm]
      simp only [Option.map_some, hcount, List.replicate_succ]
      rfl

/-- Counting one sample at a time cuts a history into the same windows. -/
theorem track_fresh (i total : ℕ) (length : Span) (samples : List Sample) (ht : 0 < total) :
    track length (.fresh i total) samples = windowed total length samples := by
  fun_induction windowed total length samples with
  | case1 => rfl
  | case2 s rest hc hnone => rw [track_opening i total length s rest hc ht, hnone]
  | case3 s rest hc j hsome ih => rw [track_opening i total length s rest hc ht, hsome, ← ih]
  | case4 s rest hc ih =>
    rw [track, feed, record_fresh, if_neg hc, ← ih]
    rfl

structure Call where
  now : Timestamp
  name : String
  value : Float
  tags : Tags
  normalizer : Option Float

def covers [Pattern.SizeLimit] (n : String) (c : DerivedConfig) : Bool :=
  match Pattern.compile c.metricName with
  | .ok p => p.matchesName n
  | .error _ => false

def source? [Pattern.SizeLimit] (configs : List DerivedConfig) (n : String) :
    Option DerivedConfig :=
  configs.find? (covers n)

def carries (c : DerivedConfig) (call : Call) : Bool :=
  decide (∀ tag ∈ c.tags.entries, call.tags.get? tag.1 = some tag.2)

def level (c : DerivedConfig) (call : Call) : Float :=
  let divisor := if c.normalizer.isSome then call.normalizer.filter (· != 0.0) else none
  let normalized := (divisor.map (call.value / ·)).getD call.value
  if c.threshold.unit = "ms" then normalized / 1000.0 else normalized

def sample (c : DerivedConfig) (call : Call) : Sample :=
  ⟨call.now,
    match c.threshold.direction with
    | .upper => level c call ≥ c.threshold.value
    | .lower => level c call ≤ c.threshold.value⟩

def derived (c : DerivedConfig) (n : String) (frequency : Float) : Derived :=
  ⟨Pattern.resolveWildcard c.metricName n ++ (if c.normalizer.isSome then "_normalized" else "")
    ++ "/" ++ (match c.threshold.direction with | .upper => "UB" | .lower => "LB"), frequency⟩

def fill {α : Type} : List Bool → List (Option α) → List (Option α)
  | [], _ => []
  | true :: marks, [] => none :: fill marks []
  | true :: marks, a :: answers => a :: fill marks answers
  | false :: marks, answers => none :: fill marks answers

def expected [Pattern.SizeLimit] (interval : Span) (configs : List DerivedConfig) (n : String)
    (calls : List Call) :
    List (Option Derived) :=
  match source? configs n with
  | none => calls.map fun _ => none
  | some c =>
    fill (calls.map (carries c))
      ((windowed (CompiledConfig.samples c.window interval) c.window
        ((calls.filter (carries c)).map (sample c))).map (Option.map (derived c n)))

def next (e : Engine) (call : Call) : Option Derived × Engine :=
  e.feed call.now call.name call.value call.tags call.normalizer

def answers : Engine → List Call → List (Option Derived)
  | _, [] => []
  | e, call :: calls => (next e call).1 :: answers (next e call).2 calls

def about (n : String) (calls : List Call) (given : List (Option Derived)) :
    List (Option Derived) :=
  ((calls.zip given).filter fun (call, _) => call.name == n).map Prod.snd

theorem about_cons (n : String) (call : Call) (calls : List Call) (a : Option Derived)
    (given : List (Option Derived)) :
    about n (call :: calls) (a :: given) =
      if call.name = n then a :: about n calls given else about n calls given := by
  by_cases h : call.name = n <;> simp [about, h]

structure Compiled [Pattern.SizeLimit] (interval : Span) (c : DerivedConfig)
    (k : CompiledConfig) : Prop where
  config : k.config = c
  pattern : Pattern.compile c.metricName = .ok k.pattern
  total : k.total = CompiledConfig.samples c.window interval

theorem compile_ok [Pattern.SizeLimit] {interval : Span} {c : DerivedConfig} {k : CompiledConfig}
    (h : CompiledConfig.compile interval c = .ok k) : Compiled interval c k := by
  unfold CompiledConfig.compile at h
  split at h
  · cases h
  · split at h
    · cases h
    · rename_i p hp
      split at h
      · cases h
      · cases h
        exact ⟨rfl, hp, rfl⟩

theorem compileAll_ok [Pattern.SizeLimit] {interval : Span} {configs : List DerivedConfig}
    {ks : List CompiledConfig} (h : CompiledConfig.compileAll interval configs = .ok ks) :
    List.Forall₂ (Compiled interval) configs ks := by
  induction configs generalizing ks with
  | nil =>
    cases h
    exact .nil
  | cons c configs ih =>
    unfold CompiledConfig.compileAll at h
    split at h
    · cases h
    · rename_i k hk
      split at h
      · cases h
      · rename_i rest hrest
        cases h
        exact .cons (compile_ok hk) (ih hrest)

theorem create_ok [Pattern.SizeLimit] {interval : Span} {configs : List DerivedConfig}
    {e : Engine} :
    Engine.create interval configs = .ok e ↔
      interval ≠ 0 ∧ ∃ ks, CompiledConfig.compileAll interval configs = .ok ks ∧
        e = ⟨interval, ks, ∅⟩ := by
  unfold Engine.create
  by_cases hzero : interval = 0
  · simp [hzero]
  · rw [if_neg hzero]
    cases CompiledConfig.compileAll interval configs <;> simp [hzero, Except.map, eq_comm]

theorem covers_compiled [Pattern.SizeLimit] {interval : Span} {c : DerivedConfig}
    {k : CompiledConfig} (h : Compiled interval c k) (n : String) :
    covers n c = k.pattern.matchesName n := by
  rw [covers, h.pattern]

theorem source_compiled [Pattern.SizeLimit] {interval : Span} {configs : List DerivedConfig}
    {ks : List CompiledConfig} (h : List.Forall₂ (Compiled interval) configs ks) (n : String) :
    (source? configs n = none ∧ ks.findIdx? (fun k => k.pattern.matchesName n) = none) ∨
    ∃ c i k, source? configs n = some c ∧
      ks.findIdx? (fun k => k.pattern.matchesName n) = some i ∧ ks[i]? = some k ∧
      Compiled interval c k := by
  induction h with
  | nil => exact Or.inl ⟨rfl, rfl⟩
  | cons hck _ ih =>
    rename_i c k configs ks _
    have hcov := covers_compiled hck n
    cases hm : k.pattern.matchesName n with
    | true =>
      refine Or.inr ⟨c, 0, k, ?_, ?_, rfl, hck⟩
      · rw [source?, List.find?_cons_of_pos (hcov.trans hm)]
      · simp [List.findIdx?_cons, hm]
    | false =>
      have hskip : source? (c :: configs) n = source? configs n := by
        rw [source?, List.find?_cons_of_neg (by simp [hcov, hm])]
        rfl
      have hidx : (k :: ks).findIdx? (fun k => k.pattern.matchesName n) =
          (ks.findIdx? fun k => k.pattern.matchesName n).map (· + 1) := by
        simp [List.findIdx?_cons, hm]
      rw [hskip, hidx]
      rcases ih with ⟨hs, hi⟩ | ⟨c', i, k', hs, hi, hk, hc⟩
      · exact Or.inl ⟨hs, by rw [hi]; rfl⟩
      · exact Or.inr ⟨c', i + 1, k', hs, by rw [hi]; rfl, hk, hc⟩

theorem carries_compiled [Pattern.SizeLimit] {interval : Span} {c : DerivedConfig}
    {k : CompiledConfig} (h : Compiled interval c k) (call : Call) :
    k.tagsMatch call.tags = carries c call := by
  rw [CompiledConfig.tagsMatch, h.config, carries, Bool.eq_iff_iff]
  simp

theorem crossed_compiled [Pattern.SizeLimit] {interval : Span} {c : DerivedConfig}
    {k : CompiledConfig} (h : Compiled interval c k) (call : Call) :
    k.crossed call.value call.normalizer = (sample c call).crosses := by
  obtain rfl := h.config
  have hlevel : k.adjusted call.value call.normalizer = level k.config call := by
    unfold CompiledConfig.adjusted level
    cases k.config.normalizer with
    | none => rfl
    | some m =>
      cases call.normalizer with
      | none => rfl
      | some f => by_cases hf : f != 0.0 <;> simp [hf, Option.filter]
  rw [CompiledConfig.crossed, hlevel, sample]
  cases k.config.threshold.direction <;> rfl

theorem derived_compiled [Pattern.SizeLimit] {interval : Span} {c : DerivedConfig}
    {k : CompiledConfig} (h : Compiled interval c k) (n : String) (f : Float) :
    (⟨k.derivedName n, f⟩ : Derived) = derived c n f := by
  rw [CompiledConfig.derivedName, h.config, derived]
  cases c.threshold.direction <;> rfl

def held (e : Engine) (n : String) (i : ℕ) (k : CompiledConfig) : Window :=
  (e.window? n).getD (.fresh i k.total)

structure Settled (e : Engine) (n : String) (i : ℕ) (k : CompiledConfig) : Prop where
  found : e.configs.findIdx? (fun k => k.pattern.matchesName n) = some i
  here : e.configs[i]? = some k
  same : ∀ w, e.window? n = some w → w.config = i

theorem configFor_settled {e : Engine} {n : String} {i : ℕ} {k : CompiledConfig}
    (h : Settled e n i k) : e.configFor n = some (i, k) := by
  have hi : e.configIndex n = some i := by
    unfold Engine.configIndex
    cases hw : e.window? n with
    | none => exact h.found
    | some w => exact congrArg some (h.same w hw)
  rw [Engine.configFor, hi, Option.bind_some, h.here]
  rfl

theorem feed_config (length : Span) (w : Window) (s : Sample) :
    (feed length w s).2.config = w.config := by
  have hr : (w.record s.time s.crosses).config = w.config := by
    unfold Window.record
    split
    · rfl
    · split <;> rfl
  unfold feed Window.complete
  split
  · exact hr
  · exact hr

theorem next_frame (e : Engine) (call : Call) :
    (next e call).2.configs = e.configs ∧
    ∀ n, call.name ≠ n → (next e call).2.window? n = e.window? n := by
  unfold next Engine.feed
  split
  · exact ⟨rfl, fun _ _ => rfl⟩
  · split
    · refine ⟨rfl, fun n hn => ?_⟩
      exact (Dict.get?_insert _ _ _ n).trans (if_neg (Ne.symm hn))
    · exact ⟨rfl, fun _ _ => rfl⟩

theorem next_fed [Pattern.SizeLimit] {interval : Span} {c : DerivedConfig} {e : Engine} {i : ℕ}
    {k : CompiledConfig} {call : Call} (hk : Compiled interval c k) (h : Settled e call.name i k)
    (hc : carries c call = true) :
    (next e call).1 = (feed c.window (held e call.name i k) (sample c call)).1.map
      (derived c call.name) ∧
    (next e call).2.window? call.name =
      some (feed c.window (held e call.name i k) (sample c call)).2 := by
  have htags : k.tagsMatch call.tags = true := (carries_compiled hk call).trans hc
  have hd : (fun f => (⟨k.derivedName call.name, f⟩ : Derived)) = derived c call.name :=
    funext (derived_compiled hk call.name)
  unfold next Engine.feed
  rw [configFor_settled h]
  dsimp only
  rw [if_pos htags, crossed_compiled hk, hk.config, hd]
  exact ⟨rfl, (Dict.get?_insert _ _ _ _).trans (if_pos rfl)⟩

theorem next_ignored [Pattern.SizeLimit] {interval : Span} {c : DerivedConfig} {e : Engine} {i : ℕ}
    {k : CompiledConfig} {call : Call} (hk : Compiled interval c k) (h : Settled e call.name i k)
    (hc : carries c call = false) : next e call = (none, e) := by
  have htags : k.tagsMatch call.tags = false := (carries_compiled hk call).trans hc
  unfold next Engine.feed
  rw [configFor_settled h]
  dsimp only
  rw [if_neg (by simp [htags])]

theorem next_settled [Pattern.SizeLimit] {interval : Span} {c : DerivedConfig} {e : Engine}
    {n : String} {i : ℕ} {k : CompiledConfig} (hk : Compiled interval c k) (h : Settled e n i k)
    (call : Call) :
    Settled (next e call).2 n i k := by
  obtain ⟨hconfigs, hframe⟩ := next_frame e call
  refine ⟨hconfigs ▸ h.found, hconfigs ▸ h.here, fun w hw => ?_⟩
  by_cases hn : call.name = n
  · subst hn
    cases hc : carries c call with
    | false =>
      rw [next_ignored hk h hc] at hw
      exact h.same w hw
    | true =>
      rw [(next_fed hk h hc).2] at hw
      cases hw
      rw [feed_config]
      unfold held
      cases hu : e.window? call.name with
      | none => rfl
      | some u => exact h.same u hu
  · rw [hframe n hn] at hw
    exact h.same w hw

theorem about_unmatched (n : String) (calls : List Call) (e : Engine)
    (hfind : e.configs.findIdx? (fun k => k.pattern.matchesName n) = none)
    (hwin : e.window? n = none) :
    about n calls (answers e calls) =
      (calls.filter fun call => call.name == n).map fun _ => none := by
  induction calls generalizing e with
  | nil => rfl
  | cons call calls ih =>
    obtain ⟨hconfigs, hframe⟩ := next_frame e call
    rw [answers, about_cons]
    by_cases hn : call.name = n
    · have hnone : next e call = (none, e) := by
        have hfor : e.configFor call.name = none := by
          rw [Engine.configFor, Engine.configIndex, hn, hwin]
          dsimp only
          rw [hfind]
          rfl
        unfold next Engine.feed
        rw [hfor]
      rw [if_pos hn, hnone, ih e hfind hwin, List.filter_cons_of_pos (by simp [hn])]
      rfl
    · rw [if_neg hn, List.filter_cons_of_neg (by simp [hn])]
      exact ih _ (hconfigs ▸ hfind) ((hframe n hn).trans hwin)

/-- The answers to the calls for a name are those of its window, fed with the
calls that carry the tags. -/
theorem about_settled [Pattern.SizeLimit] {interval : Span} {c : DerivedConfig}
    {k : CompiledConfig} {n : String} {i : ℕ} (hk : Compiled interval c k) (calls : List Call)
    (e : Engine) (h : Settled e n i k) :
    about n calls (answers e calls) =
      fill ((calls.filter fun call => call.name == n).map (carries c))
        ((track c.window (held e n i k)
          (((calls.filter fun call => call.name == n).filter (carries c)).map (sample c))).map
            (Option.map (derived c n))) := by
  induction calls generalizing e with
  | nil => rfl
  | cons call calls ih =>
    have hlater := ih (next e call).2 (next_settled hk h call)
    rw [answers, about_cons, hlater]
    by_cases hn : call.name = n
    · subst hn
      rw [if_pos rfl, List.filter_cons_of_pos (by simp), List.map_cons]
      cases hc : carries c call with
      | true =>
        obtain ⟨ha, hw⟩ := next_fed hk h hc
        have hheld : held (next e call).2 call.name i k =
            (feed c.window (held e call.name i k) (sample c call)).2 := by
          rw [held, hw]
          rfl
        rw [List.filter_cons_of_pos hc, List.map_cons, track, List.map_cons, fill, ha, hheld]
      | false =>
        rw [List.filter_cons_of_neg (by simp [hc]), fill, next_ignored hk h hc]
    · have hheld : held (next e call).2 n i k = held e n i k := by
        rw [held, (next_frame e call).2 n hn, held]
      rw [if_neg hn, List.filter_cons_of_neg (by simp [hn]), hheld]

/-- However calls for different names are mixed and whichever way the clock
goes, the answers for a name are those of its own history cut into windows. -/
theorem engine_windows [Pattern.SizeLimit] (interval : Span) (configs : List DerivedConfig)
    (e : Engine) (he : Engine.create interval configs = .ok e) (n : String) (calls : List Call) :
    about n calls (answers e calls) =
      expected interval configs n (calls.filter fun call => call.name == n) := by
  obtain ⟨-, ks, hks, rfl⟩ := create_ok.mp he
  rcases source_compiled (compileAll_ok hks) n with ⟨hs, hi⟩ | ⟨c, i, k, hs, hi, hk, hc⟩
  · rw [expected, hs, about_unmatched n calls _ hi rfl]
  · have hsettled : Settled ⟨interval, ks, ∅⟩ n i k := ⟨hi, hk, fun w hw => by cases hw⟩
    have ht : 0 < k.total := by
      rw [hc.total]
      exact Nat.lt_of_lt_of_le Nat.one_pos (Nat.le_max_left _ _)
    rw [expected, hs, about_settled hc calls _ hsettled]
    dsimp only
    rw [← hc.total, ← track_fresh i k.total c.window _ ht]
    rfl

def mixedCalls : List Call :=
  [⟨⟨100, 0⟩, "load/one", 0.9, Dict.ofList [("host", "a")], none⟩,
    ⟨⟨100, 0⟩, "load/five", 0.1, Dict.ofList [("host", "a")], none⟩,
    ⟨⟨90, 0⟩, "load/one", 0.1, Dict.ofList [("host", "a")], none⟩,
    ⟨⟨95, 0⟩, "load/one", 0.9, Dict.ofList [("host", "b")], none⟩,
    ⟨⟨130, 0⟩, "load/one", 0.1, Dict.ofList [("host", "a")], none⟩,
    ⟨⟨140, 0⟩, "load/one", 0.9, Dict.ofList [("host", "a")], none⟩]

def loadConfig : DerivedConfig where
  metricName := "load/*"
  metricType := ""
  resource := ""
  normalizer := none
  windowSeconds := 30
  tags := Dict.ofList [("host", "a")]
  threshold := ⟨.upper, 0.8, ""⟩

def loadPattern : Pattern where
  raw := ['l', 'o', 'a', 'd', '/', '*']
  items := [.atom (.char 'l'), .atom (.char 'o'), .atom (.char 'a'), .atom (.char 'd'),
    .atom (.char '/'), .atom .run]

theorem compile_load [Pattern.SizeLimit] : Pattern.compile "load/*" = .ok loadPattern :=
  Pattern.compile_ok_iff.mpr ⟨by decide, by cbv, Pattern.SizeLimit.small _ (by decide)⟩

attribute [local instance] Pattern.SizeLimit.ofAnys

theorem create_load : Engine.create (Span.ofSeconds 10) [loadConfig] =
    .ok ⟨Span.ofSeconds 10, [⟨loadConfig, loadPattern, 3⟩], ∅⟩ := by
  have hc : CompiledConfig.compile (Span.ofSeconds 10) loadConfig =
      .ok ⟨loadConfig, loadPattern, 3⟩ := by
    rw [CompiledConfig.compile, loadConfig, compile_load]
    rfl
  rw [Engine.create, CompiledConfig.compileAll, hc]
  rfl

theorem engine_windows_mixed :
    Engine.create (Span.ofSeconds 10) [loadConfig] =
      .ok ⟨Span.ofSeconds 10, [⟨loadConfig, loadPattern, 3⟩], ∅⟩ ∧
    about "load/one" mixedCalls
      (answers ⟨Span.ofSeconds 10, [⟨loadConfig, loadPattern, 3⟩], ∅⟩ mixedCalls) =
        expected (Span.ofSeconds 10) [loadConfig] "load/one"
          (mixedCalls.filter fun call => call.name == "load/one") :=
  ⟨create_load, engine_windows _ _ _ create_load _ _⟩

end Telemetry.WindowReference
