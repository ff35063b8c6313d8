import Telemetry.Proofs.DoubleShares
import Telemetry.Proofs.WindowReference

/-!
# What the windows of an engine keep

A window is three counts and a start that are changed in different places, and
it holds the place of its configuration, which is looked up only once. Every
sample leaves the counts in the same order and the start with them, so every
window of an engine that was run from its beginning is one of the first
configuration for its name, and has room for at least one more sample. The
share that a closing window gives is then above zero and at most one.
-/

set_option autoImplicit false

namespace Telemetry.WindowInvariant

open WindowReference

structure Counted (w : Window) : Prop where
  hits_le : w.hits ≤ w.seen
  hits_zero : w.hits = 0 ↔ w.seen = 0
  seen_zero : w.seen = 0 ↔ w.start = none

theorem counted_fresh (i total : ℕ) : Counted (.fresh i total) :=
  ⟨Nat.le_refl 0, Iff.rfl, iff_of_true rfl rfl⟩

theorem record_counted {w : Window} (h : Counted w) (s : WindowReference.Sample) :
    Counted (w.record s.time s.crosses) := by
  obtain ⟨hle, hhits, hseen⟩ := h
  unfold Window.record
  split
  · refine ⟨Nat.succ_le_succ hle, iff_of_false (Nat.succ_ne_zero _) (Nat.succ_ne_zero _),
      iff_of_false (Nat.succ_ne_zero _) ?_⟩
    dsimp only
    split
    · exact Option.some_ne_none _
    · rename_i hopen
      exact fun hstart => hopen (hhits.mpr (hseen.mpr hstart))
  · split
    · exact ⟨hle, hhits, hseen⟩
    · rename_i hopen
      exact ⟨Nat.le_succ_of_le hle, iff_of_false hopen (Nat.succ_ne_zero _),
        iff_of_false (Nat.succ_ne_zero _) fun hstart => hopen (hhits.mpr (hseen.mpr hstart))⟩

theorem record_total (w : Window) (s : WindowReference.Sample) :
    (w.record s.time s.crosses).total = w.total := by
  unfold Window.record
  split
  · rfl
  · split <;> rfl

theorem record_seen_le (w : Window) (s : WindowReference.Sample) :
    (w.record s.time s.crosses).seen ≤ w.seen + 1 := by
  unfold Window.record
  split
  · exact Nat.le_refl _
  · split
    · exact Nat.le_succ _
    · exact Nat.le_refl _

theorem feed_total (length : Span) (w : Window) (s : WindowReference.Sample) :
    (feed length w s).2.total = w.total := by
  unfold feed Window.complete
  split
  · exact record_total w s
  · exact record_total w s

/-- A window that has room for a sample is either left open with room for
another one, or closes and is fresh again. -/
theorem feed_counted {length : Span} {w : Window} (h : Counted w) (hroom : w.seen < w.total)
    (s : WindowReference.Sample) :
    Counted (feed length w s).2 ∧ (feed length w s).2.seen < w.total := by
  have hr := record_counted h s
  have hpos : 0 < w.total := Nat.zero_lt_of_lt hroom
  unfold feed Window.complete
  split
  · exact ⟨counted_fresh _ _, hpos⟩
  · rename_i hstays
    refine ⟨hr, ?_⟩
    rw [← record_total w s]
    by_cases hzero : (w.record s.time s.crosses).hits = 0
    · rw [hr.hits_zero.mp hzero, record_total]
      exact hpos
    · exact Nat.lt_of_not_le fun hfull => hstays ⟨hzero, Or.inl hfull⟩

/-- A window that closes gives a share of one crossing sample or more. -/
theorem feed_share {length : Span} {w : Window} (h : Counted w) (hroom : w.seen < w.total)
    {s : WindowReference.Sample} {f : Float} (hf : (feed length w s).1 = some f) :
    ∃ hits, 1 ≤ hits ∧ hits ≤ w.total ∧ f = share w.total hits := by
  have hle := (record_counted h s).hits_le
  have hseen := record_seen_le w s
  unfold feed Window.complete at hf
  split at hf
  · rename_i hcloses
    cases hf
    refine ⟨_, Nat.one_le_iff_ne_zero.mpr hcloses.1, by omega, ?_⟩
    rw [Window.frequency, record_total, share]
  · cases hf

/-- The window of a name, under the configurations of its engine: it is one of
the first configuration for the name, and its counts are those of a window
that still has room. -/
structure Kept (ks : List CompiledConfig) (n : String) (w : Window) : Prop extends Counted w where
  config : ks.findIdx? (fun k => k.pattern.matchesName n) = some w.config
  total : (ks[w.config]?).map CompiledConfig.total = some w.total
  positive : 1 ≤ w.total
  word : w.total < Word.count64
  room : w.seen < w.total

def Keeps (e : Engine) : Prop := ∀ n w, e.window? n = some w → Kept e.configs n w

structure Given (ks : List CompiledConfig) (n : String) (d : Derived) : Prop where
  shares : ∃ i k hits, ks.findIdx? (fun k => k.pattern.matchesName n) = some i ∧
    ks[i]? = some k ∧ 1 ≤ hits ∧ hits ≤ k.total ∧ d = ⟨k.derivedName n, share k.total hits⟩
  above_zero : 0.0 < d.value
  at_most_one : d.value ≤ 1.0

theorem samples_bounds (window interval : Span) :
    1 ≤ CompiledConfig.samples window interval ∧
      CompiledConfig.samples window interval < Word.count64 := by
  have hmod : window / interval % Word.count64 < Word.count64 := Nat.mod_lt _ (by decide)
  exact ⟨Nat.le_max_left _ _, Nat.max_lt.mpr ⟨by decide, hmod⟩⟩

section Engines

variable {interval : Span} {configs : List DerivedConfig} {e : Engine}

/-- The windows that an engine keeps are those of the configuration that a scan
finds. -/
theorem keeps_cases [Pattern.SizeLimit] (hc : List.Forall₂ (Compiled interval) configs e.configs)
    (h : Keeps e) (n : String) :
    (e.configs.findIdx? (fun k => k.pattern.matchesName n) = none ∧ e.configFor n = none) ∨
    ∃ c i k, Compiled interval c k ∧ Settled e n i k ∧ Kept e.configs n (held e n i k) := by
  rcases source_compiled hc n with ⟨-, hfind⟩ | ⟨c, i, k, -, hfind, hk, hck⟩
  · refine Or.inl ⟨hfind, ?_⟩
    unfold Engine.configFor Engine.configIndex
    cases hw : e.window? n with
    | none => simp only [hfind, Option.bind_none]
    | some w => simp [(h n w hw).config] at hfind
  · have hsame : ∀ w, e.window? n = some w → w.config = i := by
      intro w hw
      exact Option.some.inj ((h n w hw).config.symm.trans hfind)
    refine Or.inr ⟨c, i, k, hck, ⟨hfind, hk, hsame⟩, ?_⟩
    unfold held
    cases hw : e.window? n with
    | some w => exact h n w hw
    | none =>
      obtain ⟨hpos, hword⟩ := samples_bounds c.window interval
      rw [← hck.total] at hpos hword
      exact ⟨counted_fresh i k.total, hfind, by rw [Option.getD_none, Window.fresh, hk]; rfl, hpos,
        hword, hpos⟩

theorem feed_kept {n : String} {w : Window} (h : Kept e.configs n w) (length : Span)
    (s : WindowReference.Sample) : Kept e.configs n (feed length w s).2 := by
  obtain ⟨hcounted, hroom⟩ : Counted (feed length w s).2 ∧ (feed length w s).2.seen < w.total :=
    feed_counted h.toCounted h.room s
  refine ⟨hcounted, ?_, ?_, ?_, ?_, ?_⟩
  · rw [feed_config]
    exact h.config
  · rw [feed_config, feed_total]
    exact h.total
  · rw [feed_total]
    exact h.positive
  · rw [feed_total]
    exact h.word
  · rw [feed_total]
    exact hroom

theorem feed_given {n : String} {i : ℕ} {k : CompiledConfig} (hs : Settled e n i k)
    (h : Kept e.configs n (held e n i k)) {length : Span} {s : WindowReference.Sample} {f : Float}
    (hf : (feed length (held e n i k) s).1 = some f) :
    Given e.configs n ⟨k.derivedName n, f⟩ := by
  obtain ⟨hits, hpos, hle, rfl⟩ := feed_share h.toCounted h.room hf
  have htotal : k.total = (held e n i k).total := by
    have ht := h.total
    rw [Option.some.inj (h.config.symm.trans hs.found), hs.here] at ht
    exact Option.some.inj ht
  obtain ⟨habove, hbelow⟩ := DoubleShares.share_bounds hpos hle h.word
  refine ⟨⟨i, k, hits, hs.found, hs.here, hpos, htotal ▸ hle, ?_⟩, habove, hbelow⟩
  rw [htotal]

theorem next_keeps [Pattern.SizeLimit] (hc : List.Forall₂ (Compiled interval) configs e.configs)
    (h : Keeps e) (call : Call) :
    Keeps (next e call).2 ∧ ∀ d, (next e call).1 = some d → Given e.configs call.name d := by
  obtain ⟨hconfigs, hframe⟩ := next_frame e call
  rcases keeps_cases hc h call.name with ⟨-, hfor⟩ | ⟨c, i, k, hk, hs, hheld⟩
  · have hnone : next e call = (none, e) := by
      unfold next Engine.feed
      rw [hfor]
    rw [hnone]
    exact ⟨h, fun d hd => by cases hd⟩
  · cases hcarries : carries c call with
    | false =>
      rw [next_ignored hk hs hcarries]
      exact ⟨h, fun d hd => by cases hd⟩
    | true =>
      obtain ⟨hanswer, hwindow⟩ := next_fed hk hs hcarries
      constructor
      · intro n w hw
        rw [hconfigs]
        by_cases hn : call.name = n
        · subst hn
          rw [hwindow] at hw
          cases hw
          exact feed_kept hheld c.window (sample c call)
        · rw [hframe n hn] at hw
          exact h n w hw
      · intro d hd
        rw [hanswer] at hd
        obtain ⟨f, hf, rfl⟩ := Option.map_eq_some_iff.mp hd
        rw [← derived_compiled hk]
        exact feed_given hs hheld hf

end Engines

def after (e : Engine) (calls : List Call) : Engine :=
  calls.foldl (fun e call => (next e call).2) e

theorem after_keeps [Pattern.SizeLimit] {interval : Span} {configs : List DerivedConfig}
    {e : Engine} (hc : List.Forall₂ (Compiled interval) configs e.configs) (h : Keeps e)
    (calls : List Call) :
    (after e calls).configs = e.configs ∧ Keeps (after e calls) ∧
    ∀ call d, (call, some d) ∈ calls.zip (answers e calls) → Given e.configs call.name d := by
  induction calls generalizing e with
  | nil => exact ⟨rfl, h, by simp [answers]⟩
  | cons call calls ih =>
    obtain ⟨hkeeps, hgiven⟩ := next_keeps hc h call
    have hconfigs := (next_frame e call).1
    obtain ⟨hsame, hlater, hall⟩ := ih (hconfigs ▸ hc) hkeeps
    rw [hconfigs] at hsame hall
    refine ⟨hsame, hlater, fun c d hd => ?_⟩
    rw [answers, List.zip_cons_cons, List.mem_cons] at hd
    rcases hd with heq | hd
    · obtain ⟨rfl, hd⟩ := Prod.mk.inj heq
      exact hgiven d hd.symm
    · exact hall c d hd

theorem create_compiled [Pattern.SizeLimit] {interval : Span} {configs : List DerivedConfig}
    {e : Engine} (he : Engine.create interval configs = .ok e) :
    List.Forall₂ (Compiled interval) configs e.configs ∧ Keeps e := by
  obtain ⟨-, ks, hks, rfl⟩ := create_ok.mp he
  exact ⟨compileAll_ok hks, fun n w hw => by cases hw⟩

/-- After any calls, every window is one of the first configuration for its
name, with its counts in order and room for more; the configuration that is
remembered for a name is the one a scan finds; and every answer is a share of
at least one crossing sample, above zero and at most one. -/
theorem windows_kept [Pattern.SizeLimit] {interval : Span} {configs : List DerivedConfig}
    {e : Engine} (he : Engine.create interval configs = .ok e) (calls : List Call) :
    (∀ n w, (after e calls).window? n = some w → Kept e.configs n w) ∧
    (∀ n, (after e calls).configIndex n =
      e.configs.findIdx? fun k => k.pattern.matchesName n) ∧
    (∀ call d, (call, some d) ∈ calls.zip (answers e calls) → Given e.configs call.name d) := by
  obtain ⟨hc, hkeeps⟩ := create_compiled he
  obtain ⟨hsame, hlater, hall⟩ := after_keeps hc hkeeps calls
  rw [Keeps, hsame] at hlater
  refine ⟨hlater, fun n => ?_, hall⟩
  unfold Engine.configIndex
  cases hw : (after e calls).window? n with
  | some w => exact (hlater n w hw).config.symm
  | none => rw [hsame]

def loadEngine : Engine := ⟨Span.ofSeconds 10, [⟨loadConfig, loadPattern, 3⟩], ∅⟩

theorem load_answers : answers loadEngine mixedCalls =
    [none, none, none, none, some ⟨"load/one/UB", share 3 1⟩, none] := by
  decide +kernel

attribute [local instance] Pattern.SizeLimit.ofAnys

/-- A window that was closed by its third sample and has been opened again. -/
theorem windows_kept_reopened :
    Engine.create (Span.ofSeconds 10) [loadConfig] = .ok loadEngine ∧
    Kept loadEngine.configs "load/one" ⟨0, 1, some ⟨140, 0⟩, 1, 3⟩ ∧
    Given loadEngine.configs "load/one" ⟨"load/one/UB", share 3 1⟩ := by
  have hcreate : Engine.create (Span.ofSeconds 10) [loadConfig] = .ok loadEngine := create_load
  obtain ⟨hkept, -, hgiven⟩ := windows_kept hcreate mixedCalls
  refine ⟨hcreate, hkept "load/one" _ (by decide +kernel), ?_⟩
  refine hgiven ⟨⟨130, 0⟩, "load/one", 0.1, Dict.ofList [("host", "a")], none⟩ _ ?_
  rw [load_answers]
  simp [mixedCalls]

end Telemetry.WindowInvariant
