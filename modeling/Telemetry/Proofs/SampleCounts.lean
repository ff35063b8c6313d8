import Telemetry.Proofs.AnalyzerLife
import Telemetry.Proofs.WindowInvariant

/-!
# How many samples a window has room for

The number of samples in a window is the number of whole intervals in it, and
it is kept in a word. A window can be longer than a word has nanoseconds, so
with short intervals the number loses what does not fit. With an interval of
half a millisecond or more nothing is lost, whatever the window, and no
shorter interval has that property.
-/

set_option autoImplicit false

namespace Telemetry.SampleCounts

open WindowReference
open AnalyzerLife (Usable)

def exactSamples (window interval : Span) : ℕ :=
  max 1 (window / interval)

theorem samples_of_lt {window interval : Span} (h : window / interval < Word.count64) :
    CompiledConfig.samples window interval = exactSamples window interval := by
  rw [CompiledConfig.samples, Nat.mod_eq_of_lt h, exactSamples]

theorem samples_lt {window interval : Span} (h : Word.count64 ≤ window / interval) :
    CompiledConfig.samples window interval < exactSamples window interval := by
  calc
    CompiledConfig.samples window interval < Word.count64 :=
      (WindowInvariant.samples_bounds window interval).2
    _ ≤ window / interval := h
    _ ≤ exactSamples window interval := Nat.le_max_right _ _

theorem samples_exact_iff {window interval : Span} (hpos : interval ≠ 0) :
    CompiledConfig.samples window interval = exactSamples window interval ↔
      window < Word.count64 * interval := by
  rw [← Nat.div_lt_iff_lt_mul (Nat.pos_of_ne_zero hpos)]
  constructor
  · intro h
    by_contra hlong
    exact absurd h (samples_lt (Nat.le_of_not_lt hlong)).ne
  · exact samples_of_lt

theorem compiled_unique [Pattern.SizeLimit] {interval : Span} {c : DerivedConfig}
    {k k' : CompiledConfig} (h : Compiled interval c k) (h' : Compiled interval c k') : k = k' := by
  obtain ⟨hconfig, hpattern, htotal⟩ := h
  obtain ⟨hconfig', hpattern', htotal'⟩ := h'
  cases k
  cases k'
  simp only at hconfig hpattern htotal hconfig' hpattern' htotal'
  rw [hconfig, hconfig', htotal, htotal', Except.ok.inj (hpattern.symm.trans hpattern')]

theorem compile_iff [Pattern.SizeLimit] {interval : Span} {c : DerivedConfig} {k : CompiledConfig} :
    CompiledConfig.compile interval c = .ok k ↔ Usable c ∧ Compiled interval c k := by
  constructor
  · intro h
    exact ⟨(AnalyzerLife.compile_usable interval c).mp ⟨k, h⟩, compile_ok h⟩
  · rintro ⟨husable, hk⟩
    obtain ⟨k', hk'⟩ := (AnalyzerLife.compile_usable interval c).mpr husable
    rw [hk', compiled_unique (compile_ok hk') hk]

theorem create_single [Pattern.SizeLimit] {interval : Span} (hpos : interval ≠ 0)
    {c : DerivedConfig} {k : CompiledConfig} (h : CompiledConfig.compile interval c = .ok k) :
    Engine.create interval [c] = .ok ⟨interval, [k], ∅⟩ := by
  refine create_ok.mpr ⟨hpos, [k], ?_, rfl⟩
  rw [CompiledConfig.compileAll, h]
  rfl

def loadFor (seconds : ℕ) : DerivedConfig :=
  { loadConfig with windowSeconds := seconds }

def longest : DerivedConfig := loadFor CompiledConfig.maxWindowSeconds

theorem longest_positive : longest.windowSeconds ≠ 0 := by decide +kernel

theorem longest_compiled [Pattern.SizeLimit] (interval : Span) :
    CompiledConfig.compile interval longest =
      .ok ⟨longest, loadPattern, CompiledConfig.samples longest.window interval⟩ :=
  compile_iff.mpr ⟨⟨longest_positive, Nat.le_refl _, _, compile_load⟩, rfl, compile_load, rfl⟩

structure Counts [Pattern.SizeLimit] (interval : Span) (c : DerivedConfig)
    (k : CompiledConfig) : Prop where
  config : k.config = c
  usable : Usable c
  residue : k.total = max 1 (c.window / interval % Word.count64)
  exact_iff : k.total = exactSamples c.window interval ↔ c.window < Word.count64 * interval
  at_most : k.total ≤ exactSamples c.window interval

theorem compiled_counts [Pattern.SizeLimit] {interval : Span} (hpos : interval ≠ 0)
    {c : DerivedConfig} {k : CompiledConfig} (husable : Usable c) (h : Compiled interval c k) :
    Counts interval c k := by
  refine ⟨h.config, husable, h.total, by rw [h.total, samples_exact_iff hpos], ?_⟩
  rw [h.total]
  exact max_le_max (Nat.le_refl 1) (Nat.mod_le _ _)

theorem create_counts [Pattern.SizeLimit] {interval : Span} {configs : List DerivedConfig}
    {e : Engine} (h : Engine.create interval configs = .ok e) :
    interval ≠ 0 ∧ List.Forall₂ (Counts interval) configs e.configs := by
  obtain ⟨hpos, husable⟩ := (AnalyzerLife.create_usable interval configs).mp ⟨e, h⟩
  have hall := (List.forall₂_and_left _ _).mpr ⟨husable, (WindowInvariant.create_compiled h).1⟩
  exact ⟨hpos, hall.imp fun c k hck => compiled_counts hpos hck.1 hck.2⟩

/-- With half a millisecond between samples every window that is accepted has
a count that fits. -/
theorem window_lt [Pattern.SizeLimit] {interval : Span} (h : 500000 ≤ interval)
    {c : DerivedConfig} (hc : Usable c) :
    c.window < Word.count64 * interval := by
  calc
    c.window ≤ Span.ofSeconds CompiledConfig.maxWindowSeconds :=
      Nat.mul_le_mul_right _ hc.representable
    _ < Word.count64 * 500000 := by decide
    _ ≤ Word.count64 * interval := Nat.mul_le_mul_left _ h

theorem longest_overflows {interval : Span} (h : interval < 500000) :
    Word.count64 * interval ≤ longest.window := by
  calc
    Word.count64 * interval ≤ Word.count64 * 499999 :=
      Nat.mul_le_mul_left _ (Nat.le_of_lt_succ h)
    _ ≤ longest.window := by decide +kernel

def CountsExactly (interval : Span) (configs : List DerivedConfig) (ks : List CompiledConfig) :
    Prop :=
  List.Forall₂ (fun c k => k.total = exactSamples c.window interval) configs ks

/-- The counts of an engine are those of whole intervals as far as they fit in
a word: one is exact if and only if the window is shorter than that many
intervals, and else too small. All windows that may be configured are counted
exactly if and only if the interval is half a millisecond or more. -/
theorem sample_counts [Pattern.SizeLimit] {interval : Span} {configs : List DerivedConfig}
    {e : Engine} (h : Engine.create interval configs = .ok e) :
    List.Forall₂ (Counts interval) configs e.configs ∧
    (500000 ≤ interval ↔ ∀ allowed e', Engine.create interval allowed = .ok e' →
      CountsExactly interval allowed e'.configs) := by
  obtain ⟨hpos, hcounts⟩ := create_counts h
  refine ⟨hcounts, fun hlong allowed e' he => ?_, fun hexact => ?_⟩
  · refine (create_counts he).2.imp fun c k hck => ?_
    exact hck.exact_iff.mpr (window_lt hlong hck.usable)
  · by_contra hshort
    have hall := hexact _ _ (create_single hpos (longest_compiled interval))
    have htotal := (List.forall₂_cons.mp hall).1
    exact absurd ((samples_exact_iff hpos).mp htotal)
      (Nat.not_lt_of_le (longest_overflows (Nat.lt_of_not_le hshort)))

attribute [local instance] Pattern.SizeLimit.ofAnys

theorem sample_counts_load :
    Engine.create (Span.ofSeconds 10) [loadConfig] =
      .ok ⟨Span.ofSeconds 10, [⟨loadConfig, loadPattern, 3⟩], ∅⟩ ∧
    Counts (Span.ofSeconds 10) loadConfig ⟨loadConfig, loadPattern, 3⟩ ∧
    exactSamples loadConfig.window (Span.ofSeconds 10) = 3 ∧
    ∃ k, Engine.create (Span.ofSeconds 10) [longest] = .ok ⟨Span.ofSeconds 10, [k], ∅⟩ ∧
      k.total = exactSamples longest.window (Span.ofSeconds 10) := by
  obtain ⟨hcounts, hexact⟩ := sample_counts create_load
  have hlongest := create_single (by decide) (longest_compiled (Span.ofSeconds 10))
  have hall := hexact.mp (by decide) _ _ hlongest
  exact ⟨create_load, (List.forall₂_cons.mp hcounts).1, by decide, _, hlongest,
    (List.forall₂_cons.mp hall).1⟩

/-- Samples taken every nanosecond in a window of 18446744074 seconds are
counted as 290448384: a whole word of them is lost. -/
theorem nanosecond_count_wraps :
    ∃ k, Engine.create 1 [loadFor 18446744074] = .ok ⟨1, [k], ∅⟩ ∧
      exactSamples k.config.window 1 = 18446744074000000000 ∧ k.total = 290448384 := by
  have hk : CompiledConfig.compile 1 (loadFor 18446744074) =
      .ok ⟨loadFor 18446744074, loadPattern,
        CompiledConfig.samples (Span.ofSeconds 18446744074) 1⟩ :=
    compile_iff.mpr ⟨⟨by decide, by decide +kernel, _, compile_load⟩, rfl, compile_load, rfl⟩
  exact ⟨_, create_single (by decide) hk, by decide +kernel, by decide +kernel⟩

end Telemetry.SampleCounts
