import Mathlib.Data.List.Basic
import Telemetry.Proofs.FreshRegistry
import Telemetry.Proofs.PipelineHistory

/-!
# Entries that cannot be built

A registry keeps what can be built of a definition, the first entry of every
identifier. A publish target that cannot be built leaves no trace in it. A
task that cannot be built has taken its identifier all the same: it leaves no
trace unless the next task of that identifier could be built in its place.
-/

set_option autoImplicit false

namespace Telemetry.BuildIsolation

open Registry

variable {P : Platform}

def Unservable (P : Platform) (s : Settings) (d : PublishDefinition) : Prop :=
  ∃ e, buildService (P := P) s d = .error e

theorem addService_unservable {s : Settings} {d : PublishDefinition} (h : Unservable P s d)
    (services : Dict (Service P)) : (addService s services d).1 = services := by
  obtain ⟨e, he⟩ := h
  unfold addService
  split
  · rfl
  · rw [he]

theorem addServices_append (s : Settings) (services : Dict (Service P))
    (ds later : List PublishDefinition) :
    (addServices s services (ds ++ later)).1 =
      (addServices s (addServices s services ds).1 later).1 := by
  induction ds generalizing services with
  | nil => rfl
  | cons d ds ih => exact ih (addService s services d).1

theorem addServices_unservable {s : Settings} {d : PublishDefinition} (h : Unservable P s d)
    (before after : List PublishDefinition) (services : Dict (Service P)) :
    (addServices s services (before ++ d :: after)).1 =
      (addServices s services (before ++ after)).1 := by
  rw [addServices_append, addServices_append]
  exact congrArg (fun services => (addServices s services after).1) (addService_unservable h _)

/-- Tasks whose identifier is not taken, neither at first nor by a task before. -/
def newcomers (taken : List String) : List TaskDefinition → List TaskDefinition
  | [] => []
  | d :: ds =>
    if d.id ∈ taken then newcomers taken ds else d :: newcomers (d.id :: taken) ds

theorem newcomers_congr {taken other : List String} (h : ∀ id, id ∈ taken ↔ id ∈ other)
    (ds : List TaskDefinition) : newcomers taken ds = newcomers other ds := by
  induction ds generalizing taken other with
  | nil => rfl
  | cons d ds ih =>
    have hlater : newcomers (d.id :: taken) ds = newcomers (d.id :: other) ds :=
      ih fun id => by simp [h id]
    simp only [newcomers, h d.id, ih h, hlater]

theorem newcomers_append (taken : List String) (ds later : List TaskDefinition) :
    newcomers taken (ds ++ later) =
      newcomers taken ds ++ newcomers (ds.map (·.id) ++ taken) later := by
  induction ds generalizing taken with
  | nil => rfl
  | cons d ds ih =>
    rw [List.cons_append, newcomers, newcomers, List.map_cons, List.cons_append]
    split
    · rename_i htaken
      rw [ih]
      congr 1
      exact newcomers_congr (fun id => by
        have hid : id = d.id → id ∈ taken := fun h => h ▸ htaken
        simp only [List.mem_cons, List.mem_append]
        tauto) later
    · rw [ih, List.cons_append]
      congr 2
      exact newcomers_congr (fun id => by
        simp only [List.mem_cons, List.mem_append]
        tauto) later

/-- An identifier that is taken keeps its own tasks out, and no others. -/
theorem newcomers_taken (id : String) (taken : List String) (ds : List TaskDefinition) :
    newcomers (id :: taken) ds = (newcomers taken ds).filter fun d => d.id ≠ id := by
  induction ds generalizing taken with
  | nil => rfl
  | cons d ds ih =>
    rw [newcomers, newcomers]
    by_cases htaken : d.id ∈ taken
    · rw [if_pos (List.mem_cons_of_mem _ htaken), if_pos htaken, ih]
    rw [if_neg htaken]
    by_cases hid : d.id = id
    · -- the task is kept out itself, and takes the identifier on the other side
      rw [if_pos (hid ▸ List.mem_cons_self), List.filter_cons_of_neg (by simp [hid]), ← ih, hid]
      exact newcomers_congr (fun i => by simp) ds
    · have hboth : d.id ∉ id :: taken := by simp [hid, htaken]
      rw [if_neg hboth, List.filter_cons_of_pos (by simp [hid]), ← ih]
      congr 1
      exact newcomers_congr (fun i => by
        simp only [List.mem_cons]
        tauto) ds

/-- Of the tasks with one identifier that is not taken only the first is new. -/
theorem newcomers_first {id : String} {taken : List String} (h : id ∉ taken)
    (ds : List TaskDefinition) :
    (newcomers taken ds).filter (fun d => d.id = id) = (ds.find? fun d => d.id == id).toList := by
  induction ds generalizing taken with
  | nil => rfl
  | cons d ds ih =>
    rw [newcomers]
    by_cases hid : d.id = id
    · have hnone : (newcomers (d.id :: taken) ds).filter (fun d => d.id = id) = [] := by
        rw [hid, newcomers_taken, List.filter_filter]
        simp
      rw [if_neg (hid ▸ h), List.filter_cons_of_pos (by simp [hid]), hnone,
        List.find?_cons_of_pos (by simp [hid])]
      rfl
    · rw [List.find?_cons_of_neg (by simp [hid])]
      split
      · exact ih h
      · have hlater : id ∉ d.id :: taken := by simp [h, Ne.symm hid]
        rw [List.filter_cons_of_neg (by simp [hid]), ih hlater]

def Unbuildable [Pattern.SizeLimit] (w : P.World) (d : TaskDefinition) : Prop :=
  ∃ e, ∀ primary derived : List String, Pipeline.build w d primary derived = .error e

def pipeline? [Pattern.SizeLimit] (w : P.World) (services : Dict (Service P)) (d : TaskDefinition) :
    Option (Pipeline P String) :=
  (buildPipeline w services d).toOption

theorem build_targets [Pattern.SizeLimit] (w : P.World) (d : TaskDefinition) :
    Unbuildable w d ∨
      ∀ primary derived : List String, ∃ p, Pipeline.build w d primary derived = .ok p := by
  unfold Unbuildable Pipeline.build
  cases Pipeline.buildSource (P := P) w d with
  | error e => exact Or.inl ⟨e, fun _ _ => rfl⟩
  | ok source =>
    cases Pipeline.buildProcessor (P := P) d.process with
    | error e => exact Or.inl ⟨e, fun _ _ => rfl⟩
    | ok processor =>
      cases Pipeline.buildAnalyzer (P := P) d.schedule.span d.analyze with
      | error e => exact Or.inl ⟨e, fun _ _ => rfl⟩
      | ok analyzer => exact Or.inr fun _ _ => ⟨_, rfl⟩

theorem pipeline_none [Pattern.SizeLimit] (w : P.World) (services : Dict (Service P))
    (d : TaskDefinition) :
    pipeline? w services d = none ↔ Unbuildable w d := by
  unfold pipeline? buildPipeline
  constructor
  · intro hnone
    rcases build_targets w d with h | h
    · exact h
    · obtain ⟨p, hp⟩ := h (targets services d.publish) (targets services (derivedIds d))
      rw [hp] at hnone
      cases hnone
  · rintro ⟨e, he⟩
    rw [he]
    rfl

/-- Pipelines are those that can be built of the tasks with new identifiers. -/
theorem addTasks_pipelines [Pattern.SizeLimit] (w : P.World) (services : Dict (Service P))
    (t : Tasks P) (ds : List TaskDefinition) :
    (addTasks w services t ds).1.pipelines =
      t.pipelines ++ (newcomers t.seen ds).filterMap (pipeline? w services) := by
  induction ds generalizing t with
  | nil => exact (List.append_nil _).symm
  | cons d ds ih =>
    show (addTasks w services (addTask w services t d).1 ds).1.pipelines = _
    rw [ih, newcomers, addTask]
    by_cases hseen : d.id ∈ t.seen
    · rw [if_pos hseen, if_pos (List.contains_iff_mem.mpr hseen)]
    · rw [if_neg hseen, if_neg (fun h => hseen (List.contains_iff_mem.mp h)), List.filterMap_cons]
      dsimp only
      cases hp : buildPipeline w services d with
      | error e =>
        have hnone : pipeline? w services d = none := by rw [pipeline?, hp]; rfl
        rw [hnone]
      | ok p =>
        have hsome : pipeline? w services d = some p := by rw [pipeline?, hp]; rfl
        rw [hsome, List.append_assoc]
        rfl

/-- Keeping the tasks of one identifier out makes no difference exactly when
no pipeline comes of them. -/
theorem filterMap_without [Pattern.SizeLimit] {w : P.World} {services : Dict (Service P)}
    (id : String) (ds : List TaskDefinition) :
    (ds.filter fun d => d.id ≠ id).filterMap (pipeline? w services) =
        ds.filterMap (pipeline? w services) ↔
      ∀ d ∈ ds.filter (fun d => d.id = id), Unbuildable w d := by
  induction ds with
  | nil => simp
  | cons d ds ih =>
    by_cases hid : d.id = id
    · rw [List.filter_cons_of_neg (by simp [hid]), List.filter_cons_of_pos (by simp [hid]),
        List.forall_mem_cons, ← ih, ← pipeline_none w services, List.filterMap_cons]
      cases hp : pipeline? w services d with
      | none => simp
      | some p =>
        -- one pipeline more than can be left after the filter
        simp only [reduceCtorEq, false_and, iff_false]
        intro heq
        have hle := ((List.filter_sublist (p := fun d => decide (d.id ≠ id)) (l := ds)).filterMap
          (pipeline? w services)).length_le
        rw [heq, List.length_cons] at hle
        omega
    · rw [List.filter_cons_of_pos (by simp [hid]), List.filter_cons_of_neg (by simp [hid]),
        ← ih, List.filterMap_cons, List.filterMap_cons]
      cases pipeline? w services d with
      | none => rfl
      | some p => simp

/-- What a task that cannot be built leaves behind is its identifier. -/
theorem addTasks_unbuildable [Pattern.SizeLimit] {w : P.World} {services : Dict (Service P)}
    {t : TaskDefinition} (h : Unbuildable w t) (before after : List TaskDefinition) :
    (addTasks w services ⟨[], []⟩ (before ++ after)).1.pipelines =
        (addTasks w services ⟨[], []⟩ (before ++ t :: after)).1.pipelines ↔
      t.id ∈ before.map (·.id) ∨
        ∀ u, after.find? (fun d => d.id == t.id) = some u → Unbuildable w u := by
  have hnone : pipeline? w services t = none := (pipeline_none w services t).mpr h
  simp only [addTasks_pipelines, newcomers_append, List.append_nil, List.filterMap_append,
    List.append_cancel_left_eq]
  rw [newcomers]
  by_cases hbefore : t.id ∈ before.map (·.id)
  · simp only [hbefore, if_true, true_or]
  · rw [if_neg hbefore, List.filterMap_cons_none hnone, newcomers_taken, eq_comm,
      filterMap_without, newcomers_first hbefore]
    simp [hbefore]

theorem build_eq [Pattern.SizeLimit] (w : P.World) (s : Settings) (d : Definition) :
    (build w d s).1 =
      ⟨(addServices s ∅ d.publish).1,
        (addTasks w (addServices s ∅ d.publish).1 ⟨[], []⟩ d.tasks).1.pipelines, .empty⟩ :=
  rfl

/-- A publish target that cannot be built can be deleted and the registry
stays the same. So can a task, unless its identifier is new with it and the
next task of that identifier can be built. -/
theorem unbuilt_entries [Pattern.SizeLimit] (w : P.World) (s : Settings) (d : Definition) :
    (∀ before p after, d.publish = before ++ p :: after → Unservable P s p →
      (build w { d with publish := before ++ after } s).1 = (build w d s).1) ∧
    ∀ before t after, d.tasks = before ++ t :: after → Unbuildable w t →
      ((build w { d with tasks := before ++ after } s).1 = (build w d s).1 ↔
        t.id ∈ before.map (·.id) ∨
          ∀ u, after.find? (fun d => d.id == t.id) = some u → Unbuildable w u) := by
  constructor
  · intro before p after hp h
    rw [build_eq, build_eq, hp, addServices_unservable h]
  · intro before t after ht h
    have htasks := @addTasks_unbuildable P _ w (addServices s ∅ d.publish).1 t h before after
    rw [← htasks, build_eq, build_eq, ht]
    simp only [Registry.mk.injEq, true_and, and_true]

def brokenTarget : PublishDefinition := ⟨"out", "influxdb", .empty, none⟩

def brokenTask : TaskDefinition :=
  { PipelineHistory.mixedTask with collect := ⟨"snmp", ∅, .empty, ∅⟩ }

def quietWorld : rehearsal.World := PipelineHistory.scripted .fixed none none

theorem brokenTarget_unservable : Unservable rehearsal .standard brokenTarget :=
  ⟨_, rfl⟩

attribute [local instance] Pattern.SizeLimit.ofAnys

theorem brokenTask_unbuildable : Unbuildable quietWorld brokenTask :=
  ⟨_, fun _ _ => rfl⟩

theorem soundTask_buildable : ¬Unbuildable quietWorld PipelineHistory.mixedTask := by
  rintro ⟨e, he⟩
  obtain ⟨p, hp⟩ := PipelineHistory.build_mixed
  cases hp.symm.trans (he _ _)

/-- After the broken task the sound one is left out, and alone it is built. -/
theorem broken_task_in_the_way :
    Unbuildable quietWorld brokenTask ∧
    (build quietWorld ⟨[brokenTask, PipelineHistory.mixedTask], []⟩ .standard).1.taskIds = [] ∧
    (build quietWorld ⟨[PipelineHistory.mixedTask], []⟩ .standard).1.taskIds = ["node"] := by
  refine ⟨brokenTask_unbuildable, rfl, ?_⟩
  have hsome : pipeline? quietWorld ∅ PipelineHistory.mixedTask ≠ none :=
    fun h => soundTask_buildable ((pipeline_none quietWorld ∅ _).mp h)
  obtain ⟨p, hp⟩ := Option.ne_none_iff_exists'.mp hsome
  have hid : p.id = "node" := by
    unfold pipeline? at hp
    cases hbuild : buildPipeline quietWorld ∅ PipelineHistory.mixedTask with
    | error e =>
      rw [hbuild] at hp
      cases hp
    | ok q =>
      rw [hbuild] at hp
      cases hp
      exact (FreshRegistry.build_made hbuild).2
  have htasks : newcomers [] [PipelineHistory.mixedTask] = [PipelineHistory.mixedTask] := rfl
  rw [taskIds, build_eq, addTasks_pipelines, htasks]
  show ([PipelineHistory.mixedTask].filterMap (pipeline? quietWorld ∅)).map (·.id) = ["node"]
  rw [List.filterMap_cons_some hp, List.filterMap_nil, List.map_singleton, hid]

def scarredDefinition : Definition where
  tasks := [PipelineHistory.mixedTask, brokenTask]
  publish := [brokenTarget]

theorem unbuilt_entries_scarred :
    Unservable rehearsal .standard brokenTarget ∧ Unbuildable quietWorld brokenTask ∧
    (build quietWorld ⟨scarredDefinition.tasks, []⟩ .standard).1 =
      (build quietWorld scarredDefinition .standard).1 ∧
    (build quietWorld ⟨[PipelineHistory.mixedTask], [brokenTarget]⟩ .standard).1 =
      (build quietWorld scarredDefinition .standard).1 := by
  obtain ⟨htargets, htasks⟩ := unbuilt_entries quietWorld .standard scarredDefinition
  exact ⟨brokenTarget_unservable, brokenTask_unbuildable,
    htargets [] brokenTarget [] rfl brokenTarget_unservable,
    (htasks [PipelineHistory.mixedTask] brokenTask [] rfl brokenTask_unbuildable).mpr
      (Or.inl List.mem_cons_self)⟩

end Telemetry.BuildIsolation
