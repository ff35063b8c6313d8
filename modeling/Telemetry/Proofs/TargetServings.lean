import Telemetry.Proofs.RegistryContents

/-!
# What a tick hands to each target

A task hands its collected metrics to every entry of its list of targets, and
derived metrics to every entry of the list of its analyzer. Neither list is
checked: a publisher that is named twice is served twice, and one that both
lists name is given the collected metrics and the derived ones. So nobody is
served twice exactly when the lists repeat no publisher and share none.
-/

set_option autoImplicit false

namespace Telemetry.TargetServings

open Registry RegistryContents
open PipelineHistory (State Act calls prepared derived toAll)
open AgentMoves (addressed addressed_append)

variable {P : Platform}

def collectedFor (id : String) (p : Pipeline P String) (w : P.World) : List Batch :=
  addressed id ((prepared p w).toList.flatMap (toAll p.primary))

def derivedFor (id : String) (p : Pipeline P String) (w : P.World) : List Batch :=
  addressed id (if derived p w = [] then [] else toAll p.derived (derived p w))

theorem runOnce_addressed (id : String) (p : Pipeline P String) (around : Surroundings P) :
    addressed id (p.runOnce around).puts =
      collectedFor id p around.world ++ derivedFor id p around.world := by
  rw [(PipelineHistory.runOnce_trace p around).2.1]
  exact addressed_append id _ _

theorem addressed_toAll (id : String) (ids : List String) (batch : Batch) :
    addressed id (toAll ids batch) = List.replicate (ids.count id) batch := by
  induction ids with
  | nil => rfl
  | cons k ids ih =>
    have hcons : addressed id (toAll (k :: ids) batch) =
        addressed id [(k, batch)] ++ addressed id (toAll ids batch) :=
      addressed_append id [(k, batch)] (toAll ids batch)
    rw [hcons, ih]
    by_cases hk : k = id
    · subst hk
      rw [List.count_cons_self, List.replicate_succ]
      simp [addressed]
    · rw [List.count_cons_of_ne hk]
      simp [addressed, hk]

theorem collectedFor_eq (id : String) (p : Pipeline P String) (w : P.World) :
    collectedFor id p w =
      (prepared p w).toList.flatMap (List.replicate (p.primary.count id)) := by
  unfold collectedFor
  cases prepared p w with
  | none => rfl
  | some batch => simp [addressed_toAll]

theorem derivedFor_eq (id : String) (p : Pipeline P String) (w : P.World) :
    derivedFor id p w =
      if derived p w = [] then [] else List.replicate (p.derived.count id) (derived p w) := by
  unfold derivedFor
  split
  · rfl
  · exact addressed_toAll id p.derived (derived p w)

theorem prepared_of_derived {p : Pipeline P String} {w : P.World} (h : derived p w ≠ []) :
    ∃ batch, prepared p w = some batch := by
  cases hp : prepared p w with
  | none =>
    exfalso
    apply h
    rw [derived, PipelineHistory.analyzed, hp]
    rfl
  | some batch => exact ⟨batch, rfl⟩

theorem collected_once_iff {p : Pipeline P String} {w : P.World} {batch : Batch}
    (h : prepared p w = some batch) :
    (∀ id, (collectedFor id p w).length ≤ 1) ↔ p.primary.Nodup := by
  rw [List.nodup_iff_count_le_one]
  apply forall_congr'
  intro id
  rw [collectedFor_eq, h]
  simp

theorem served_apart_iff {p : Pipeline P String} {w : P.World} (h : derived p w ≠ []) :
    (∀ id, collectedFor id p w = [] ∨ derivedFor id p w = []) ↔
      p.primary.Disjoint p.derived := by
  obtain ⟨batch, hbatch⟩ := prepared_of_derived h
  have hboth : ∀ id, (collectedFor id p w = [] ∨ derivedFor id p w = []) ↔
      (id ∉ p.primary ∨ id ∉ p.derived) := by
    intro id
    rw [collectedFor_eq, derivedFor_eq, hbatch, if_neg h]
    simp [List.count_eq_zero]
  constructor
  · intro hall id hprimary hderived
    rcases (hboth id).mp (hall id) with hnot | hnot
    · exact hnot hprimary
    · exact hnot hderived
  · intro hdisjoint id
    apply (hboth id).mpr
    by_cases hprimary : id ∈ p.primary
    · exact Or.inr fun hderived => hdisjoint hprimary hderived
    · exact Or.inl hprimary

def timesNamed (r : Registry P) (ids : List String) (id : String) : ℕ :=
  if id ∈ r.serviceIds then ids.count id else 0

theorem count_known (r : Registry P) (ids : List String) (id : String) :
    (known r ids).count id = timesNamed r ids id := by
  unfold known timesNamed
  split
  · rename_i hid
    exact List.count_filter (by simpa using hid)
  · rename_i hid
    apply List.count_eq_zero.mpr
    intro hmem
    exact hid (by simpa using (List.mem_filter.mp hmem).2)

/-- What one call of a task hands over, told by the lists of its definition. -/
structure Served (r : Registry P) (t : TaskDefinition) (c : State P String) : Prop where
  handed : ∀ id, addressed id (c.pipeline.runOnce c.around).puts =
    collectedFor id c.pipeline c.around.world ++ derivedFor id c.pipeline c.around.world
  collected_named : ∀ id, collectedFor id c.pipeline c.around.world =
    (prepared c.pipeline c.around.world).toList.flatMap
      (List.replicate (timesNamed r t.publish id))
  derived_named : ∀ id, derivedFor id c.pipeline c.around.world =
    if derived c.pipeline c.around.world = [] then []
    else List.replicate (timesNamed r (derivedIds t) id) (derived c.pipeline c.around.world)
  /-- In a call that publishes, each target is served once at most unless the
  list repeats one. -/
  once : (prepared c.pipeline c.around.world).isSome →
    ((∀ id, (collectedFor id c.pipeline c.around.world).length ≤ 1) ↔
      (known r t.publish).Nodup)
  /-- In a call that derives metrics, no target is given both unless both lists
  name one. -/
  apart : derived c.pipeline c.around.world ≠ [] →
    ((∀ id, collectedFor id c.pipeline c.around.world = [] ∨
        derivedFor id c.pipeline c.around.world = []) ↔
      (known r t.publish).Disjoint (known r (derivedIds t)))

/-- In every call of a task of a registry, whatever happened before, a target
is given the collected metrics as often as the task names it and the derived
ones as often as its analyzer does. -/
theorem servings_named [Pattern.SizeLimit] (w : P.World) (s : Settings) (d : Definition)
    (p : Pipeline P String) (hp : p ∈ (build w d s).1.pipelines) (around : Surroundings P)
    (acts : List (Act P)) :
    ∃ t, d.tasks.find? (·.id == p.id) = some t ∧
      ∀ c ∈ calls acts ⟨p, around, []⟩, Served (build w d s).1 t c := by
  obtain ⟨t, ht, -, hprimary, hderived⟩ := registry_built hp
  refine ⟨t, ht, fun c hc => ?_⟩
  have hplan := PipelineHistory.calls_plan acts ⟨p, around, []⟩ c hc
  have hfirst : c.pipeline.primary = known (build w d s).1 t.publish :=
    hplan.primary.trans hprimary
  have hfurther : c.pipeline.derived = known (build w d s).1 (derivedIds t) :=
    hplan.derived.trans hderived
  constructor
  · intro id
    exact runOnce_addressed id c.pipeline c.around
  · intro id
    rw [collectedFor_eq, hfirst, count_known]
  · intro id
    rw [derivedFor_eq, hfurther, count_known]
  · intro hsome
    obtain ⟨batch, hbatch⟩ := Option.isSome_iff_exists.mp hsome
    rw [← hfirst]
    exact collected_once_iff hbatch
  · intro hne
    rw [← hfirst, ← hfurther]
    exact served_apart_iff hne

def crowdedTask : TaskDefinition :=
  { PipelineHistory.mixedTask with analyze := some ⟨"mock", .empty, ["store", "trends"]⟩ }

def crowdedDefinition : Definition where
  tasks := [crowdedTask]
  publish := [⟨"store", "rec", .empty, none⟩]

def crowdedPipeline : Pipeline rehearsal String where
  id := "node"
  interval := crowdedTask.schedule.span
  collector := ⟨"mock", .scripted, .empty⟩
  types := [.ofType (.parse "load/one") ""]
  tagOverrides := crowdedTask.collect.tags
  processor := some ⟨"mock", .scripted, PluginConfig.empty.insert "mark" (.string "seen")⟩
  analyzer := some ⟨"mock", .scripted, Pipeline.withInterval .empty crowdedTask.schedule.span⟩
  primary := ["store", "store"]
  derived := ["store"]
  failures := 0

attribute [local instance] Pattern.SizeLimit.ofAnys

theorem crowded_source :
    Pipeline.buildSource (P := rehearsal) BuildIsolation.quietWorld crowdedTask =
      .ok ⟨.scripted, [.ofType (.parse "load/one") ""], 1⟩ := by
  have hkeys : crowdedTask.collect.metrics = PipelineHistory.mixedTask.collect.metrics := rfl
  unfold Pipeline.buildSource
  rw [hkeys, PipelineHistory.selection_load]
  rfl

theorem crowded_built :
    crowdedPipeline ∈
      (build BuildIsolation.quietWorld crowdedDefinition .standard).1.pipelines := by
  rw [pipelines_eq, List.mem_filterMap]
  refine ⟨crowdedTask, List.mem_cons_self, ?_⟩
  unfold BuildIsolation.pipeline? buildPipeline Pipeline.build
  rw [crowded_source]
  rfl

/-- The publisher is given the collected metrics twice and the derived ones too. -/
theorem target_served_again :
    crowdedPipeline ∈
      (build BuildIsolation.quietWorld crowdedDefinition .standard).1.pipelines ∧
    ¬(∀ id, (collectedFor id crowdedPipeline BuildIsolation.quietWorld).length ≤ 1) ∧
    ¬(∀ id, collectedFor id crowdedPipeline BuildIsolation.quietWorld = [] ∨
        derivedFor id crowdedPipeline BuildIsolation.quietWorld = []) ∧
    ∃ m, addressed "store" (crowdedPipeline.runOnce (.create BuildIsolation.quietWorld)).puts =
      [[m], [m], derived crowdedPipeline BuildIsolation.quietWorld] := by
  obtain ⟨m, hm⟩ : ∃ m, prepared crowdedPipeline BuildIsolation.quietWorld = some [m] := ⟨_, rfl⟩
  have hne : derived crowdedPipeline BuildIsolation.quietWorld ≠ [] := nofun
  refine ⟨crowded_built, ?_, ?_, m, ?_⟩
  · rw [collected_once_iff hm]
    decide
  · rw [served_apart_iff hne]
    exact fun hdisjoint => hdisjoint (a := "store") (by decide) (by decide)
  · have hsplit := runOnce_addressed "store" crowdedPipeline (.create BuildIsolation.quietWorld)
    have hworld : (Surroundings.create BuildIsolation.quietWorld).world =
      BuildIsolation.quietWorld := rfl
    rw [hsplit, hworld, collectedFor_eq, derivedFor_eq, hm, if_neg hne]
    rfl

theorem servings_named_crowded :
    crowdedPipeline ∈
      (build BuildIsolation.quietWorld crowdedDefinition .standard).1.pipelines ∧
    ∃ t, crowdedDefinition.tasks.find? (·.id == crowdedPipeline.id) = some t ∧
      ∀ c ∈ calls PipelineHistory.mixedCalls
          ⟨crowdedPipeline, .create BuildIsolation.quietWorld, []⟩,
        Served (build BuildIsolation.quietWorld crowdedDefinition .standard).1 t c :=
  ⟨crowded_built, servings_named BuildIsolation.quietWorld .standard crowdedDefinition
    crowdedPipeline crowded_built (.create BuildIsolation.quietWorld) PipelineHistory.mixedCalls⟩

end Telemetry.TargetServings
