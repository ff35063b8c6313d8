import Mathlib.Data.List.Nodup
import Telemetry.Registry

/-!
# Registries when they are built

Whatever a definition lists, a registry built from it has services with unused
channels, and tasks with identifiers of their own that have not failed.
-/

set_option autoImplicit false

namespace Telemetry.FreshRegistry

open Registry

variable {P : Platform}

def Unused (services : Dict (Service P)) : Prop :=
  ∀ id s, services.get? id = some s → s.channel = .create s.channel.capacity

theorem buildService_channel {settings : Settings} {d : PublishDefinition} {s : Service P}
    (h : buildService settings d = .ok s) : s.channel = .create s.channel.capacity := by
  unfold buildService at h
  split at h
  · cases h
  split at h
  · cases h
  unfold Service.create at h
  split at h
  · cases h
  · cases h
    rfl

theorem addService_unused (settings : Settings) {services : Dict (Service P)}
    (h : Unused services) (d : PublishDefinition) :
    Unused (addService settings services d).1 := by
  unfold addService
  split
  · exact h
  split
  · rename_i service hs
    intro id s hget
    rw [Dict.get?_insert] at hget
    by_cases hid : id = d.id
    · rw [if_pos hid] at hget
      cases hget
      exact buildService_channel hs
    · rw [if_neg hid] at hget
      exact h id s hget
  · exact h

theorem addServices_unused (settings : Settings) {services : Dict (Service P)}
    (h : Unused services) (ds : List PublishDefinition) :
    Unused (addServices settings services ds).1 := by
  induction ds generalizing services with
  | nil => exact h
  | cons d ds ih => exact ih (addService_unused settings h d)

structure Made (w : P.World) (p : Pipeline P String) : Prop where
  failures : p.failures = 0
  collector : ∃ tool, P.collector p.collector.plugin = .ok tool ∧
    p.collector.tool = (P.catalog w tool p.collector.config).2

theorem buildSource_collector [Pattern.SizeLimit] {w : P.World} {d : TaskDefinition}
    {s : Pipeline.Source P} (h : Pipeline.buildSource w d = .ok s) :
    ∃ tool, P.collector d.collect.plugin = .ok tool ∧
      s.collector = (P.catalog w tool d.collect.config).2 := by
  unfold Pipeline.buildSource at h
  split at h
  · cases h
  split at h
  · cases h
  rename_i tool htool
  split at h
  · cases h
  rename_i hcatalog
  split at h
  · cases h
  · cases h
    exact ⟨tool, htool, by rw [hcatalog]⟩

theorem build_made [Pattern.SizeLimit] {w : P.World} {d : TaskDefinition}
    {primary derived : List String} {p : Pipeline P String}
    (h : Pipeline.build w d primary derived = .ok p) :
    Made w p ∧ p.id = d.id := by
  unfold Pipeline.build at h
  split at h
  · cases h
  rename_i source hsource
  split at h
  · cases h
  split at h
  · cases h
  · cases h
    exact ⟨⟨rfl, buildSource_collector hsource⟩, rfl⟩

structure Distinct (w : P.World) (t : Tasks P) : Prop where
  nodup : (t.pipelines.map (·.id)).Nodup
  seen : ∀ p ∈ t.pipelines, p.id ∈ t.seen
  made : ∀ p ∈ t.pipelines, Made w p

theorem addTask_distinct [Pattern.SizeLimit] {w : P.World} (services : Dict (Service P))
    {t : Tasks P} (h : Distinct w t) (d : TaskDefinition) :
    Distinct w (addTask w services t d).1 := by
  unfold addTask
  split
  · exact h
  · rename_i hnew
    dsimp only
    split
    · rename_i p hp
      obtain ⟨hmade, hid⟩ := build_made hp
      constructor
      · rw [List.map_append, List.nodup_append]
        refine ⟨h.nodup, List.nodup_singleton _, ?_⟩
        intro i hi j hj
        obtain ⟨q, hq, rfl⟩ := List.mem_map.mp hi
        have hj : j = d.id := (List.mem_singleton.mp hj).trans hid
        intro heq
        have hseen := h.seen q hq
        rw [heq, hj] at hseen
        exact hnew (List.contains_iff_mem.mpr hseen)
      · intro q hq
        rcases List.mem_append.mp hq with hq | hq
        · exact List.mem_cons_of_mem _ (h.seen q hq)
        · rw [List.mem_singleton.mp hq, hid]
          exact List.mem_cons_self
      · intro q hq
        rcases List.mem_append.mp hq with hq | hq
        · exact h.made q hq
        · rw [List.mem_singleton.mp hq]
          exact hmade
    · exact ⟨h.nodup, fun q hq => List.mem_cons_of_mem _ (h.seen q hq), h.made⟩

theorem addTasks_distinct [Pattern.SizeLimit] {w : P.World} (services : Dict (Service P))
    {t : Tasks P} (h : Distinct w t) (ds : List TaskDefinition) :
    Distinct w (addTasks w services t ds).1 := by
  induction ds generalizing t with
  | nil => exact h
  | cons d ds ih => exact ih (addTask_distinct services h d)

structure Fresh (w : P.World) (r : Registry P) : Prop where
  distinct : (r.pipelines.map (·.id)).Nodup
  made : ∀ p ∈ r.pipelines, Made w p
  unused : Unused r.services
  unreported : r.reports = .empty

theorem build_fresh [Pattern.SizeLimit] (w : P.World) (d : Definition) (s : Settings) :
    Fresh w (Registry.build w d s).1 := by
  have hempty : Unused (∅ : Dict (Service P)) := by
    intro id s hs
    cases hs
  have htasks := addTasks_distinct (addServices s (∅ : Dict (Service P)) d.publish).1
    (w := w) (t := ⟨[], []⟩) ⟨.nil, by simp, by simp⟩ d.tasks
  exact ⟨htasks.nodup, htasks.made, addServices_unused s hempty d.publish, rfl⟩

end Telemetry.FreshRegistry
