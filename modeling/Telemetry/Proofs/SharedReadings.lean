import Telemetry.Proofs.CatalogNarrowing

/-!
# Readings shared by a call

A file is read for the first type of a call that needs it, and what it says is
kept for the types after it. The files do not change during a call, so what is
kept is what they would say again: every type gives the metrics, or the error,
that it gives in a call of its own, and a call can be cut anywhere.
-/

set_option autoImplicit false

namespace Telemetry.SharedReadings

open Procfs
open CatalogNarrowing (gather gather_undated undated)

def loadSaid (p : Procfs) (files : FileTree) : Except PluginError (List Float) :=
  (p.readFile files "loadavg").bind parseLoad

def memorySaid (p : Procfs) (files : FileTree) : Except PluginError (Dict Nat) :=
  (p.readFile files "meminfo").map parseMemory

def statSaid (p : Procfs) (files : FileTree) : Except PluginError (List (String × List Nat)) :=
  (p.readFile files "stat").map parseStat

def anew (p : Procfs) (files : FileTree) (now : Timestamp) (type : Metric) :
    Except PluginError (List Metric) :=
  match type.ns.values with
  | ["procfs", "load", _] => (loadSaid p files).map fun xs => gather p now ⟨xs, ∅, []⟩ type
  | ["procfs", "meminfo", _] => (memorySaid p files).map fun d => gather p now ⟨[], d, []⟩ type
  | ["procfs", "cpu", _, _] => (statSaid p files).map fun rows => gather p now ⟨[], ∅, rows⟩ type
  | _ => .ok []

def joined (x y : Except PluginError (List Metric)) : Except PluginError (List Metric) :=
  x.bind fun a => y.map fun b => a ++ b

def collectAnew (p : Procfs) (files : FileTree) (now : Timestamp) :
    List Metric → Except PluginError (List Metric)
  | [] => .ok []
  | type :: types => joined (anew p files now type) (collectAnew p files now types)

variable {p : Procfs} {files : FileTree}

structure Kept (p : Procfs) (files : FileTree) (r : Readings) : Prop where
  load : ∀ xs, r.load = some xs → loadSaid p files = .ok xs
  memory : ∀ d, r.memory = some d → memorySaid p files = .ok d
  stat : ∀ rows, r.stat = some rows → statSaid p files = .ok rows

theorem kept_none : Kept p files .none := by
  constructor <;> intro x hx <;> cases hx

/-- A step with readings comes to what it would come to without them, and
leaves readings that may be used again. -/
inductive Repeats {α : Type} (p : Procfs) (files : FileTree) :
    Except PluginError α → Except PluginError (α × Readings) → Prop where
  | error (e : PluginError) : Repeats p files (.error e) (.error e)
  | ok (a : α) {r : Readings} (kept : Kept p files r) : Repeats p files (.ok a) (.ok (a, r))

theorem loadOf_repeats {r : Readings} (hr : Kept p files r) :
    Repeats p files (loadSaid p files) (p.loadOf files r) := by
  unfold loadOf
  split
  · rename_i xs hx
    rw [hr.load xs hx]
    exact .ok xs hr
  · have hsaid : loadSaid p files = (p.readFile files "loadavg").bind parseLoad := rfl
    cases ht : p.readFile files "loadavg" with
    | error e =>
      rw [hsaid, ht]
      exact .error e
    | ok text =>
      rw [ht, Except.bind] at hsaid
      rw [hsaid]
      dsimp only
      cases hx : parseLoad text with
      | error e => exact .error e
      | ok xs =>
        refine .ok xs ⟨fun ys hys => ?_, hr.memory, hr.stat⟩
        rw [hsaid, hx, Option.some.inj hys]

theorem memoryOf_repeats {r : Readings} (hr : Kept p files r) :
    Repeats p files (memorySaid p files) (p.memoryOf files r) := by
  unfold memoryOf
  split
  · rename_i d hd
    rw [hr.memory d hd]
    exact .ok d hr
  · have hsaid : memorySaid p files = (p.readFile files "meminfo").map parseMemory := rfl
    cases ht : p.readFile files "meminfo" with
    | error e =>
      rw [hsaid, ht]
      exact .error e
    | ok text =>
      rw [ht, Except.map] at hsaid
      rw [hsaid]
      refine .ok _ ⟨hr.load, fun d hd => ?_, hr.stat⟩
      rw [hsaid, Option.some.inj hd]

theorem statOf_repeats {r : Readings} (hr : Kept p files r) :
    Repeats p files (statSaid p files) (p.statOf files r) := by
  unfold statOf
  split
  · rename_i rows hrows
    rw [hr.stat rows hrows]
    exact .ok rows hr
  · have hsaid : statSaid p files = (p.readFile files "stat").map parseStat := rfl
    cases ht : p.readFile files "stat" with
    | error e =>
      rw [hsaid, ht]
      exact .error e
    | ok text =>
      rw [ht, Except.map] at hsaid
      rw [hsaid]
      refine .ok _ ⟨hr.load, hr.memory, fun rows hrows => ?_⟩
      rw [hsaid, Option.some.inj hrows]

theorem collectType_repeats (now : Timestamp) {r : Readings} (hr : Kept p files r)
    (type : Metric) :
    Repeats p files (anew p files now type) (p.collectType files now r type) := by
  unfold collectType
  split
  · rename_i field hvalues
    have h := loadOf_repeats hr
    simp only [anew, gather, hvalues]
    generalize loadSaid p files = said at h ⊢
    generalize p.loadOf files r = got at h ⊢
    cases h with
    | error e => exact .error e
    | ok xs kept => exact .ok _ kept
  · rename_i field hvalues
    have h := memoryOf_repeats hr
    simp only [anew, gather, hvalues]
    generalize memorySaid p files = said at h ⊢
    generalize p.memoryOf files r = got at h ⊢
    cases h with
    | error e => exact .error e
    | ok d kept => exact .ok _ kept
  · rename_i cpu field hvalues
    have h := statOf_repeats hr
    simp only [anew, gather, hvalues]
    generalize statSaid p files = said at h ⊢
    generalize p.statOf files r = got at h ⊢
    cases h with
    | error e => exact .error e
    | ok rows kept =>
      cases hi : cpuFields.idxOf? field with
      | none =>
        simp only [Option.bind_none, Option.map_none, List.filterMap_none]
        exact .ok _ kept
      | some i => exact .ok _ kept
  · rename_i hl hm hc
    have hnone : anew p files now type = .ok [] := by
      unfold anew
      split
      · exact absurd ‹_› (hl _)
      · exact absurd ‹_› (hm _)
      · exact absurd ‹_› (hc _ _)
      · rfl
    rw [hnone]
    exact .ok [] hr

theorem collectFrom_anew (now : Timestamp) {r : Readings} (hr : Kept p files r)
    (types : List Metric) : p.collectFrom files now r types = collectAnew p files now types := by
  induction types generalizing r with
  | nil => rfl
  | cons type types ih =>
    have h := collectType_repeats now hr type
    rw [collectFrom, collectAnew]
    generalize anew p files now type = said at h ⊢
    generalize p.collectType files now r type = got at h ⊢
    cases h with
    | error e => rfl
    | ok here kept =>
      dsimp only
      rw [ih kept]
      cases collectAnew p files now types <;> rfl

theorem collect_anew (p : Procfs) (files : FileTree) (now : Timestamp) (types : List Metric) :
    p.collect files now types = collectAnew p files now types :=
  collectFrom_anew now kept_none types

theorem joined_assoc (x y z : Except PluginError (List Metric)) :
    joined (joined x y) z = joined x (joined y z) := by
  cases x <;> cases y <;> cases z <;> simp [joined, Except.bind, Except.map]

theorem joined_ok {x y : Except PluginError (List Metric)} :
    (∃ ms, joined x y = .ok ms) ↔ (∃ a, x = .ok a) ∧ ∃ b, y = .ok b := by
  cases x <;> cases y <;> simp [joined, Except.bind, Except.map]

theorem joined_error {x y : Except PluginError (List Metric)} {e : PluginError} :
    joined x y = .error e ↔ x = .error e ∨ (∃ a, x = .ok a) ∧ y = .error e := by
  cases x <;> cases y <;> simp [joined, Except.bind, Except.map]

theorem collectAnew_single (now : Timestamp) (type : Metric) :
    collectAnew p files now [type] = anew p files now type := by
  rw [collectAnew, collectAnew]
  cases anew p files now type <;> simp [joined, Except.bind, Except.map]

theorem collectAnew_append (now : Timestamp) (first second : List Metric) :
    collectAnew p files now (first ++ second) =
      joined (collectAnew p files now first) (collectAnew p files now second) := by
  induction first with
  | nil =>
    rw [List.nil_append]
    cases collectAnew p files now second <;> rfl
  | cons type types ih => rw [List.cons_append, collectAnew, collectAnew, ih, joined_assoc]

def dateless (x : Except PluginError (List Metric)) : Except PluginError (List Metric) :=
  x.map (List.map undated)

theorem dateless_joined (x y : Except PluginError (List Metric)) :
    dateless (joined x y) = joined (dateless x) (dateless y) := by
  cases x <;> cases y <;> simp [dateless, joined, Except.bind, Except.map]

theorem dateless_error {x : Except PluginError (List Metric)} {e : PluginError} :
    dateless x = .error e ↔ x = .error e := by
  cases x <;> simp [dateless, Except.map]

theorem dateless_ok {x : Except PluginError (List Metric)} :
    (∃ ms, dateless x = .ok ms) ↔ ∃ ms, x = .ok ms := by
  cases x <;> simp [dateless, Except.map]

theorem anew_dateless (now later : Timestamp) (type : Metric) :
    dateless (anew p files now type) = dateless (anew p files later type) := by
  unfold anew
  split
  · cases loadSaid p files with
    | error e => rfl
    | ok xs => exact congrArg Except.ok (gather_undated now later type)
  · cases memorySaid p files with
    | error e => rfl
    | ok d => exact congrArg Except.ok (gather_undated now later type)
  · cases statSaid p files with
    | error e => rfl
    | ok rows => exact congrArg Except.ok (gather_undated now later type)
  · rfl

theorem collectAnew_dateless (now later : Timestamp) (types : List Metric) :
    dateless (collectAnew p files now types) = dateless (collectAnew p files later types) := by
  induction types with
  | nil => rfl
  | cons type types ih =>
    rw [collectAnew, collectAnew, dateless_joined, dateless_joined, anew_dateless now later, ih]

theorem collect_dateless (now later : Timestamp) (types : List Metric) :
    dateless (p.collect files now types) = dateless (p.collect files later types) := by
  rw [collect_anew, collect_anew, collectAnew_dateless now later]

theorem collect_error (now later : Timestamp) (types : List Metric) (e : PluginError) :
    p.collect files now types = .error e ↔ p.collect files later types = .error e := by
  rw [← dateless_error, collect_dateless now later, dateless_error]

theorem collect_ok (now later : Timestamp) (types : List Metric) :
    (∃ ms, p.collect files now types = .ok ms) ↔ ∃ ms, p.collect files later types = .ok ms := by
  rw [← dateless_ok, collect_dateless now later, dateless_ok]

/-- A call fails with the error of the first type that fails alone. -/
theorem collectAnew_error (now : Timestamp) (types : List Metric) (e : PluginError) :
    collectAnew p files now types = .error e ↔
      ∃ fine type rest, types = fine ++ type :: rest ∧
        (∀ t ∈ fine, ∃ ms, anew p files now t = .ok ms) ∧ anew p files now type = .error e := by
  induction types with
  | nil => simp [collectAnew]
  | cons type types ih =>
    rw [collectAnew, joined_error, ih]
    constructor
    · rintro (hbad | ⟨hhere, fine, bad, rest, rfl, hfine, hbad⟩)
      · exact ⟨[], type, types, rfl, by simp, hbad⟩
      · exact ⟨type :: fine, bad, rest, rfl, List.forall_mem_cons.mpr ⟨hhere, hfine⟩, hbad⟩
    · rintro ⟨fine, bad, rest, hcut, hfine, hbad⟩
      cases fine with
      | nil =>
        cases hcut
        exact Or.inl hbad
      | cons t fine =>
        cases hcut
        obtain ⟨hhere, hfine⟩ := List.forall_mem_cons.mp hfine
        exact Or.inr ⟨hhere, fine, bad, rest, rfl, hfine, hbad⟩

/-- A call can be cut in two anywhere: it succeeds when both parts do, and then
it gives what they give; else its error is that of the first type that fails
alone. Every type gives what it gives with its file read anew. -/
theorem collect_cut (p : Procfs) (files : FileTree) (first second : List Metric)
    (now early late : Timestamp) :
    ((∃ ms, p.collect files now (first ++ second) = .ok ms) ↔
      (∃ a, p.collect files early first = .ok a) ∧ ∃ b, p.collect files late second = .ok b) ∧
    dateless (p.collect files now (first ++ second)) =
      dateless (joined (p.collect files early first) (p.collect files late second)) ∧
    (∀ e, p.collect files now (first ++ second) = .error e ↔
      ∃ fine type rest, first ++ second = fine ++ type :: rest ∧
        (∀ t ∈ fine, ∃ ms, p.collect files early [t] = .ok ms) ∧
        p.collect files late [type] = .error e) ∧
    p.collect files now (first ++ second) = collectAnew p files now (first ++ second) := by
  have hjoined : p.collect files now (first ++ second) =
      joined (p.collect files now first) (p.collect files now second) := by
    simp only [collect_anew, collectAnew_append]
  refine ⟨?_, ?_, fun e => ?_, collect_anew p files now _⟩
  · rw [hjoined, joined_ok, collect_ok now early, collect_ok now late]
  · rw [hjoined, dateless_joined, dateless_joined, collect_dateless now early,
      collect_dateless now late]
  · rw [collect_anew, collectAnew_error]
    simp only [← collectAnew_single, ← collect_anew, collect_ok now early, collect_error now late]

end Telemetry.SharedReadings
