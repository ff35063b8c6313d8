import Telemetry.Proofs.AgentMoves
import Telemetry.Proofs.BuildIsolation
import Telemetry.Proofs.TextBytes

/-!
# What a registry holds

A publisher is built from the first entry of its identifier that can be built,
a task from the first entry of its identifier or not at all. The targets of a
task are the built publishers among those it names, as often as it names them.
A target is no more than the name of a publisher, so all targets of one name
put into one queue.
-/

set_option autoImplicit false

namespace Telemetry.RegistryContents

open Registry BuildIsolation

variable {P : Platform}

def service? (s : Settings) (d : PublishDefinition) : Option (Service P) :=
  (buildService s d).toOption

theorem service?_ok {s : Settings} {d : PublishDefinition} {service : Service P}
    (h : buildService s d = .ok service) : service? s d = some service := by
  rw [service?, h]
  rfl

theorem service?_error {s : Settings} {d : PublishDefinition} {e : ConfigError}
    (h : buildService (P := P) s d = .error e) : service? (P := P) s d = none := by
  rw [service?, h]
  rfl

def firstServable (P : Platform) (s : Settings) (id : String) (ds : List PublishDefinition) :
    Option PublishDefinition :=
  ds.find? fun d => d.id == id && (service? (P := P) s d).isSome

theorem addService_get? (s : Settings) (services : Dict (Service P)) (d : PublishDefinition)
    (id : String) : (addService s services d).1.get? id =
      (services.get? id).or (if d.id = id then service? s d else none) := by
  unfold addService
  by_cases hid : d.id = id
  · subst hid
    rw [if_pos rfl]
    split
    · rename_i hknown
      obtain ⟨service, hservice⟩ := Option.isSome_iff_exists.mp hknown
      rw [hservice]
      rfl
    · rename_i hnew
      have hnone : services.get? d.id = none := by simpa [Dict.contains] using hnew
      split
      · rename_i service hs
        rw [service?_ok hs, Dict.get?_insert, if_pos rfl, hnone]
        rfl
      · rename_i e he
        rw [service?_error he, hnone]
        rfl
  · rw [if_neg hid, Option.or_none]
    split
    · rfl
    split
    · rw [Dict.get?_insert, if_neg (Ne.symm hid)]
    · rfl

/-- What is served before stays, and else the first entry that can be built is. -/
theorem addServices_get? (s : Settings) (services : Dict (Service P))
    (ds : List PublishDefinition) (id : String) : (addServices s services ds).1.get? id =
      (services.get? id).or ((firstServable P s id ds).bind (service? s)) := by
  induction ds generalizing services with
  | nil => exact Option.or_none.symm
  | cons d ds ih =>
    show (addServices s (addService s services d).1 ds).1.get? id = _
    rw [ih, addService_get?, Option.or_assoc]
    congr 1
    rw [firstServable, firstServable, List.find?_cons]
    by_cases hid : d.id = id
    · cases hs : service? (P := P) s d with
      | none => simp [hid]
      | some service => simp [hid, hs]
    · have hother : (d.id == id) = false := by simpa using hid
      rw [if_neg hid, Option.none_or, hother, Bool.false_and]

theorem service?_none (s : Settings) (d : PublishDefinition) :
    service? (P := P) s d = none ↔ Unservable P s d := by
  unfold service? Unservable
  cases buildService (P := P) s d with
  | error e => simp [Except.toOption]
  | ok service => simp [Except.toOption]

theorem firstServable_builds (s : Settings) (id : String) (ds : List PublishDefinition) :
    (∃ service, (firstServable P s id ds).bind (service? (P := P) s) = some service) ↔
      ∃ t ∈ ds, t.id = id ∧ ¬Unservable P s t := by
  constructor
  · rintro ⟨service, hs⟩
    obtain ⟨t, ht, hbuilt⟩ := Option.bind_eq_some_iff.mp hs
    have hid := List.find?_some ht
    rw [Bool.and_eq_true, beq_iff_eq] at hid
    refine ⟨t, List.mem_of_find?_eq_some ht, hid.1, fun hnone => ?_⟩
    rw [(service?_none s t).mpr hnone] at hbuilt
    cases hbuilt
  · rintro ⟨t, ht, hid, hservable⟩
    have hsome : (firstServable P s id ds).isSome := by
      rw [firstServable, List.find?_isSome]
      refine ⟨t, ht, ?_⟩
      rw [Bool.and_eq_true, beq_iff_eq, Option.isSome_iff_ne_none]
      exact ⟨hid, mt (service?_none s t).mp hservable⟩
    obtain ⟨u, hu⟩ := Option.isSome_iff_exists.mp hsome
    have hbuilt := List.find?_some hu
    rw [Bool.and_eq_true] at hbuilt
    obtain ⟨service, hs⟩ := Option.isSome_iff_exists.mp hbuilt.2
    exact ⟨service, by rw [hu]; exact hs⟩

theorem mem_serviceIds (r : Registry P) (id : String) :
    id ∈ r.serviceIds ↔ ∃ service, r.services.get? id = some service := by
  constructor
  · intro h
    obtain ⟨e, he, rfl⟩ := List.mem_map.mp h
    exact ⟨e.2, Dict.get?_of_mem he⟩
  · rintro ⟨service, hs⟩
    exact List.mem_map.mpr ⟨_, Dict.mem_of_get? hs, rfl⟩

theorem contains_serviceIds (r : Registry P) (id : String) :
    r.services.contains id = decide (id ∈ r.serviceIds) := by
  rw [Bool.eq_iff_iff, decide_eq_true_iff, mem_serviceIds, Dict.contains,
    Option.isSome_iff_exists]

theorem newcomers_notMem {taken : List String} {ds : List TaskDefinition} {t : TaskDefinition}
    (h : t ∈ newcomers taken ds) : t.id ∉ taken := by
  induction ds generalizing taken with
  | nil => cases h
  | cons d ds ih =>
    rw [newcomers] at h
    split at h
    · exact ih h
    · rename_i hnew
      rcases List.mem_cons.mp h with rfl | h
      · exact hnew
      · exact fun ht => ih h (List.mem_cons_of_mem _ ht)

/-- Tasks of new identifiers come in the order in which these are first met. -/
theorem newcomers_ordered (taken : List String) (ds : List TaskDefinition) :
    (newcomers taken ds).Pairwise fun t u =>
      (ds.map (·.id)).idxOf t.id < (ds.map (·.id)).idxOf u.id := by
  induction ds generalizing taken with
  | nil => exact .nil
  | cons d ds ih =>
    have hlater : ∀ taken, d.id ∈ taken → (newcomers taken ds).Pairwise fun t u =>
        ((d :: ds).map (·.id)).idxOf t.id < ((d :: ds).map (·.id)).idxOf u.id := by
      intro taken htaken
      refine (ih taken).imp_of_mem fun {t u} ht hu hlt => ?_
      have hnet : d.id ≠ t.id := fun h => newcomers_notMem ht (h ▸ htaken)
      have hneu : d.id ≠ u.id := fun h => newcomers_notMem hu (h ▸ htaken)
      rw [List.map_cons, List.idxOf_cons_ne _ hnet, List.idxOf_cons_ne _ hneu]
      exact Nat.succ_lt_succ hlt
    rw [newcomers]
    split
    · rename_i htaken
      exact hlater taken htaken
    · apply List.Pairwise.cons
      · intro u hu
        have hne : d.id ≠ u.id := fun h => newcomers_notMem hu (h ▸ List.mem_cons_self)
        rw [List.map_cons, List.idxOf_cons_self, List.idxOf_cons_ne _ hne]
        exact Nat.succ_pos _
      · exact hlater _ List.mem_cons_self

theorem pipeline?_id [Pattern.SizeLimit] {w : P.World} {services : Dict (Service P)}
    {d : TaskDefinition} {p : Pipeline P String} (h : pipeline? w services d = some p) :
    buildPipeline w services d = .ok p ∧ p.id = d.id := by
  unfold pipeline? at h
  cases hp : buildPipeline w services d with
  | error e =>
    rw [hp] at h
    cases h
  | ok q =>
    rw [hp] at h
    cases h
    exact ⟨rfl, (FreshRegistry.build_made hp).2⟩

theorem pipelines_eq [Pattern.SizeLimit] (w : P.World) (s : Settings) (d : Definition) :
    (build w d s).1.pipelines =
      (newcomers [] d.tasks).filterMap (pipeline? w (build w d s).1.services) :=
  addTasks_pipelines w (build w d s).1.services ⟨[], []⟩ d.tasks

theorem pipelines_ordered [Pattern.SizeLimit] (w : P.World) (services : Dict (Service P))
    (ds : List TaskDefinition) :
    (((newcomers [] ds).filterMap (pipeline? w services)).map (·.id)).Pairwise fun a b =>
      (ds.map (·.id)).idxOf a < (ds.map (·.id)).idxOf b := by
  rw [List.pairwise_map]
  refine (newcomers_ordered [] ds).filterMap _ fun t u hlt p hp q hq => ?_
  rw [(pipeline?_id hp).2, (pipeline?_id hq).2]
  exact hlt

/-- Of an identifier there is the pipeline of its first task, if it can be built. -/
theorem find_pipelines [Pattern.SizeLimit] (w : P.World) (services : Dict (Service P))
    (ds : List TaskDefinition) (id : String) :
    ((newcomers [] ds).filterMap (pipeline? w services)).find? (·.id == id) =
      (ds.find? (·.id == id)).bind (pipeline? w services) := by
  have hfilter : ∀ ds : List TaskDefinition,
      (ds.filterMap (pipeline? w services)).filter (·.id == id) =
        (ds.filter fun t => t.id = id).filterMap (pipeline? w services) := by
    intro ds
    induction ds with
    | nil => rfl
    | cons t ds ih =>
      cases hp : pipeline? w services t with
      | none => by_cases hid : t.id = id <;> simp [hp, hid, ih]
      | some p =>
        have hpid := (pipeline?_id hp).2
        by_cases hid : t.id = id <;> simp [hp, hid, hpid, ih]
  rw [← List.head?_filter, hfilter, newcomers_first List.not_mem_nil]
  cases ds.find? (·.id == id) with
  | none => rfl
  | some t => cases hp : pipeline? w services t <;> simp [hp]

theorem mem_taskIds (r : Registry P) (id : String) :
    id ∈ r.taskIds ↔ ∃ p, r.pipelines.find? (·.id == id) = some p := by
  rw [← Option.isSome_iff_exists, List.find?_isSome, taskIds, List.mem_map]
  simp

theorem find_self {ps : List (Pipeline P String)} (h : (ps.map (·.id)).Nodup)
    {p : Pipeline P String} (hp : p ∈ ps) : ps.find? (·.id == p.id) = some p := by
  induction ps with
  | nil => cases hp
  | cons q ps ih =>
    obtain ⟨hfirst, hrest⟩ := List.nodup_cons.mp h
    rcases List.mem_cons.mp hp with rfl | hp
    · simp
    · have hne : (q.id == p.id) = false := by
        rw [beq_eq_false_iff_ne]
        intro heq
        exact hfirst (List.mem_map.mpr ⟨p, hp, heq.symm⟩)
      rw [List.find?_cons, hne]
      exact ih hrest hp

open AgentMoves in
/-- A put reaches the publisher of the name it goes to, and no other one. -/
theorem put_reaches {a : Agent P} {id : String} {l : ServiceLoop P}
    (hl : a.services.get? id = some l) (x : String × Batch) :
    (a.put x).services.get? id = some ((addressed id [x]).foldl filled l) := by
  by_cases hx : x.1 = id
  · subst hx
    have haddressed : addressed x.1 [x] = [x.2] := by simp [addressed]
    rw [haddressed, put_known hl]
    split
    · rw [Dict.get?_insert, if_pos rfl]
      rfl
    · rw [wake_eq, Dict.get?_insert, if_pos rfl]
      rfl
  · have haddressed : addressed id [x] = [] := by simp [addressed, hx]
    rw [haddressed]
    cases hk : a.services.get? x.1 with
    | none => rw [put_unknown hk, hl, List.foldl_nil]
    | some k =>
      rw [put_known hk]
      split
      · rw [Dict.get?_insert, if_neg (Ne.symm hx), hl, List.foldl_nil]
      · rw [wake_eq, Dict.get?_insert, if_neg (Ne.symm hx), hl, List.foldl_nil]

open AgentMoves in
theorem putAll_reaches (puts : List (String × Batch)) {a : Agent P} {id : String}
    {l : ServiceLoop P} (hl : a.services.get? id = some l) :
    (a.putAll puts).services.get? id = some ((addressed id puts).foldl filled l) := by
  induction puts generalizing a l with
  | nil => exact hl
  | cons x puts ih =>
    have hcons : addressed id (x :: puts) = addressed id [x] ++ addressed id puts :=
      addressed_append id [x] puts
    rw [hcons, List.foldl_append]
    exact ih (put_reaches hl x)

open AgentMoves in
theorem foldl_filled (bs : List Batch) (l : ServiceLoop P) :
    (bs.foldl filled l).service =
      { l.service with channel := bs.foldl Channel.put l.service.channel } := by
  induction bs generalizing l with
  | nil => rfl
  | cons b bs ih => exact ih (filled l b)

def known (r : Registry P) (ids : List String) : List String :=
  ids.filter fun id => decide (id ∈ r.serviceIds)

theorem targets_known (r : Registry P) (ids : List String) :
    targets r.services ids = known r ids := by
  rw [targets, known]
  congr 1
  funext id
  exact contains_serviceIds r id

theorem registry_ids_nodup [Pattern.SizeLimit] (w : P.World) (s : Settings) (d : Definition) :
    (build w d s).1.taskIds.Nodup :=
  (FreshRegistry.build_fresh w d s).distinct

theorem registry_find [Pattern.SizeLimit] (w : P.World) (s : Settings) (d : Definition)
    (id : String) :
    (build w d s).1.pipelines.find? (·.id == id) =
      (d.tasks.find? (·.id == id)).bind (pipeline? w (build w d s).1.services) := by
  rw [pipelines_eq]
  exact find_pipelines w _ d.tasks id

/-- Every task of a registry is built from the first entry of its identifier,
with the publishers of the registry that the entry names. -/
theorem registry_built [Pattern.SizeLimit] {w : P.World} {s : Settings} {d : Definition}
    {p : Pipeline P String} (hp : p ∈ (build w d s).1.pipelines) :
    ∃ t, d.tasks.find? (·.id == p.id) = some t ∧
      Pipeline.build w t (known (build w d s).1 t.publish)
        (known (build w d s).1 (derivedIds t)) = .ok p ∧
      p.primary = known (build w d s).1 t.publish ∧
      p.derived = known (build w d s).1 (derivedIds t) := by
  have hself := find_self (registry_ids_nodup w s d) hp
  rw [registry_find] at hself
  obtain ⟨t, ht, hbuilt⟩ := Option.bind_eq_some_iff.mp hself
  have hok := (pipeline?_id hbuilt).1
  rw [buildPipeline, targets_known, targets_known] at hok
  have hplanned := (PipelineHistory.build_planned w t _ _ p hok).1
  exact ⟨t, ht, hok, hplanned.primary, hplanned.further⟩

theorem services_first [Pattern.SizeLimit] (w : P.World) (s : Settings) (d : Definition)
    (id : String) :
    (build w d s).1.services.get? id = (firstServable P s id d.publish).bind (service? s) :=
  (addServices_get? (P := P) s ∅ d.publish id).trans Option.none_or

theorem mem_built_taskIds [Pattern.SizeLimit] (w : P.World) (s : Settings) (d : Definition)
    (id : String) :
    id ∈ (build w d s).1.taskIds ↔
      ∃ t, d.tasks.find? (·.id == id) = some t ∧ ¬Unbuildable w t := by
  rw [mem_taskIds, registry_find]
  constructor
  · rintro ⟨p, hp⟩
    obtain ⟨t, ht, hbuilt⟩ := Option.bind_eq_some_iff.mp hp
    refine ⟨t, ht, fun hnone => ?_⟩
    rw [(pipeline_none w _ t).mpr hnone] at hbuilt
    cases hbuilt
  · rintro ⟨t, ht, hbuildable⟩
    obtain ⟨p, hp⟩ := Option.ne_none_iff_exists'.mp
      (mt (pipeline_none w (build w d s).1.services t).mp hbuildable)
    exact ⟨p, by rw [ht]; exact hp⟩

/-- An agent starts with the services of its registry, and puts reach those of
their name. -/
theorem started_reaches {w : P.World} {r : Registry P} {id : String} {service : Service P}
    (hs : r.services.get? id = some service) (puts : List (String × Batch)) :
    ∃ l, ((Agent.start w r).putAll puts).services.get? id = some l ∧ l.service =
      { service with
        channel := (AgentMoves.addressed id puts).foldl Channel.put service.channel } := by
  have hstart : (Agent.start w r).services.get? id = some ⟨service, none⟩ := by
    show (r.services.map _).get? id = _
    rw [Dict.get?_map, hs]
    rfl
  exact ⟨_, putAll_reaches puts hstart, foldl_filled _ _⟩

structure Contents [Pattern.SizeLimit] (w : P.World) (s : Settings) (d : Definition)
    (r : Registry P) : Prop where
  publishers_distinct : r.serviceIds.Nodup
  publishers_listed :
    r.serviceIds.Pairwise fun a b => a.toUTF8.data.toList < b.toUTF8.data.toList
  publishers_built : ∀ id, id ∈ r.serviceIds ↔ ∃ t ∈ d.publish, t.id = id ∧ ¬Unservable P s t
  publishers_first : ∀ id,
    r.services.get? id = (firstServable P s id d.publish).bind (service? s)
  tasks_distinct : r.taskIds.Nodup
  tasks_ordered : r.taskIds.Pairwise fun a b =>
    (d.tasks.map (·.id)).idxOf a < (d.tasks.map (·.id)).idxOf b
  tasks_built : ∀ id, id ∈ r.taskIds ↔
    ∃ t, d.tasks.find? (·.id == id) = some t ∧ ¬Unbuildable w t
  /-- A task is built from the first entry of its identifier, with targets among
  the publishers there are. -/
  tasks_first : ∀ p ∈ r.pipelines, ∃ t, d.tasks.find? (·.id == p.id) = some t ∧
    Pipeline.build w t (known r t.publish) (known r (derivedIds t)) = .ok p ∧
    p.primary = known r t.publish ∧ p.derived = known r (derivedIds t)
  /-- Whoever puts into a target of a name, there is one queue that takes it and
  one count of what was lost. -/
  targets_shared : ∀ puts id service, r.services.get? id = some service →
    ∃ l, ((Agent.start w r).putAll puts).services.get? id = some l ∧ l.service =
      { service with
        channel := (AgentMoves.addressed id puts).foldl Channel.put service.channel }

/-- Of whatever a definition lists, what can be built is built from the first
entries, and tasks are given the publishers they name. -/
theorem registry_contents [Pattern.SizeLimit] (w : P.World) (s : Settings) (d : Definition) :
    Contents w s d (build w d s).1 := by
  constructor
  · exact Dict.keys_nodup _
  · apply List.pairwise_map.mpr
    exact (build w d s).1.services.increasing.imp fun h => (TextBytes.lt_iff_bytes _ _).mp h
  · intro id
    rw [mem_serviceIds, services_first]
    exact firstServable_builds s id d.publish
  · exact services_first w s d
  · exact registry_ids_nodup w s d
  · rw [taskIds, pipelines_eq]
    exact pipelines_ordered w _ d.tasks
  · exact mem_built_taskIds w s d
  · intro p hp
    exact registry_built hp
  · intro puts id service hs
    exact started_reaches hs puts

end Telemetry.RegistryContents
