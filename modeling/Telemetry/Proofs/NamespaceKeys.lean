import Telemetry.Proofs.BatchOrder

/-!
# Names and namespaces

A name is read as the segments between its separators, and a namespace is
written as its values with separators between them. Reading and writing undo
each other as long as no value holds a separator and the first one is not
empty, so such namespaces have one key only if they have the same values. The
windows of an engine and the numbers of a batch are kept under keys; among such
namespaces they are kept apart.
-/

set_option autoImplicit false

namespace Telemetry.NamespaceKeys

open Analyzer BatchOrder

theorem intercalate_eq_join (sep : Char) (parts : List (List Char)) :
    [sep].intercalate parts = Text.join sep parts := by
  induction parts with
  | nil => rfl
  | cons part parts ih =>
    cases parts with
    | nil => exact List.intercalate_singleton
    | cons next parts =>
      rw [List.intercalate_cons_cons, ih, Text.join, List.append_assoc, List.singleton_append]

theorem key_toList (ns : Namespace) :
    ns.key.toList = Text.join '/' (ns.values.map String.toList) := by
  rw [Namespace.key, Text.joinWith, String.toList_intercalate, ← intercalate_eq_join]
  rfl

theorem values_parse (s : String) :
    (Namespace.parse s).values = (segments s.toList).map String.ofList := by
  simp [Namespace.values, Namespace.parse, Namespace.ofValues, Namespace.Element.literal]

theorem key_parse (s : String) :
    (Namespace.parse s).key = String.ofList (Text.trimLeft '/' s.toList) := by
  apply String.toList_inj.mp
  rw [key_toList, values_parse, List.map_map, String.toList_ofList]
  simp only [Function.comp_def, String.toList_ofList, List.map_id']
  exact Text.join_split '/' _

theorem parse_path (s : String) : Namespace.parse (Namespace.parse s).path = Namespace.parse s := by
  have hpath : (Namespace.parse s).path.toList = '/' :: Text.trimLeft '/' s.toList := by
    rw [Namespace.path, key_parse, String.toList_append]
    exact congrArg ('/' :: ·) String.toList_ofList
  have hsame : segments (Namespace.parse s).path.toList = segments s.toList := by
    rw [hpath, ← segments_trimLeft, Text.trimLeft_self, segments_trimLeft, segments_trimLeft]
  rw [Namespace.parse, hsame, ← Namespace.parse]

structure Plain (ns : Namespace) : Prop where
  some : ns.elements ≠ []
  segment : ∀ v ∈ ns.values, '/' ∉ v.toList
  headed : ∀ v ∈ ns.values.head?, v ≠ ""

theorem segments_key {ns : Namespace} (h : Plain ns) :
    segments ns.key.toList = ns.values.map String.toList := by
  obtain ⟨hsome, hsegment, hheaded⟩ := h
  have hplain : ∀ part ∈ ns.values.map String.toList, '/' ∉ part := by
    intro part hpart
    obtain ⟨v, hv, rfl⟩ := List.mem_map.mp hpart
    exact hsegment v hv
  cases hvalues : ns.values with
  | nil =>
    rw [Namespace.values, List.map_eq_nil_iff] at hvalues
    exact absurd hvalues hsome
  | cons v vs =>
    rw [hvalues, List.map_cons] at hplain
    have hne : v.toList ≠ [] := by
      intro hnil
      apply hheaded v (by simp [hvalues])
      exact String.toList_inj.mp hnil
    rw [segments, key_toList, hvalues, List.map_cons,
      Text.trimLeft_join hne (hplain _ List.mem_cons_self)]
    exact Text.split_join (List.cons_ne_nil _ _) hplain

theorem values_parse_key {ns : Namespace} (h : Plain ns) :
    (Namespace.parse ns.key).values = ns.values := by
  rw [values_parse, segments_key h, List.map_map]
  simp [Function.comp_def]

theorem key_eq_iff {ns other : Namespace} (h : Plain ns) (h' : Plain other) :
    ns.key = other.key ↔ ns.values = other.values := by
  constructor
  · intro hkey
    rw [← values_parse_key h, hkey, values_parse_key h']
  · intro hvalues
    rw [Namespace.key, hvalues, Namespace.key]

def valued (values : List String) (batch : List Metric) : List Metric :=
  batch.filter fun m => m.ns.values == values

/-- The metrics under the key of a plain namespace are those with its values. -/
theorem own_eq_valued {ns : Namespace} (h : Plain ns) {batch : List Metric}
    (hb : ∀ m ∈ batch, Plain m.ns) : own ns.key batch = valued ns.values batch := by
  apply List.filter_congr
  intro m hm
  rw [Bool.eq_iff_iff, beq_iff_eq, beq_iff_eq]
  exact key_eq_iff (hb m hm) h

def fedAll (e : Engine) : List (List Metric) → Engine
  | [] => e
  | b :: bs => fedAll (feedAll (batchValues b) e b).2 bs

def fedValued (values : List String) (e : Engine) : List (List Metric) → Engine
  | [] => e
  | b :: bs => fedValued values (feedAll (batchValues b) e (valued values b)).2 bs

/-- Over any batches the window under the key is one of its own metrics. -/
theorem fedAll_alike {ns : Namespace} (h : Plain ns) {batches : List (List Metric)}
    (hb : ∀ b ∈ batches, ∀ m ∈ b, Plain m.ns) {e d : Engine} (ha : Alike ns.key e d) :
    Alike ns.key (fedAll e batches) (fedValued ns.values d batches) := by
  induction batches generalizing e d with
  | nil => exact ha
  | cons b bs ih =>
    apply ih
    · exact fun b' hb' => hb b' (List.mem_cons_of_mem b hb')
    · rw [← own_eq_valued h (hb b List.mem_cons_self)]
      exact (gives_own (batchValues b) ns.key ha b).2

/-- Reading a name and writing a namespace undo each other, up to separators in
front of the name. Plain namespaces with equal keys have equal values, so what
is kept under the key of one, a window over any batches or the number that a
batch has for normalizing, comes from the metrics with its values only. -/
theorem names_both_ways (s : String) :
    (Namespace.parse s).key = String.ofList (Text.trimLeft '/' s.toList) ∧
    Namespace.parse (Namespace.parse s).path = Namespace.parse s ∧
    ∀ ns, Plain ns →
      (Namespace.parse ns.key).values = ns.values ∧
      (∀ other, Plain other → ns.key = other.key → ns.values = other.values) ∧
      ∀ batches : List (List Metric), (∀ b ∈ batches, ∀ m ∈ b, Plain m.ns) →
        (∀ e, (fedAll e batches).window? ns.key =
          (fedValued ns.values e batches).window? ns.key) ∧
        ∀ b ∈ batches, (batchValues b).get? ns.key =
          ((valued ns.values b).filterMap fun m => m.value.toFloat?).getLast? := by
  refine ⟨key_parse s, parse_path s, fun ns h => ⟨values_parse_key h, ?_, ?_⟩⟩
  · intro other h' hkey
    exact (key_eq_iff h h').mp hkey
  · intro batches hb
    constructor
    · intro e
      exact (fedAll_alike h hb (.refl ns.key e)).window
    · intro b hmem
      rw [batchValues_get?, own_eq_valued h (hb b hmem)]

def diskReads (disk : String) : Namespace :=
  (((Namespace.empty.addLiteral "disk").addDynamic "disk_id" "").addLiteral "reads").setValue 1 disk

def diskMetric (disk : String) (n : Int64) : Metric :=
  ⟨diskReads disk, ⟨100, 0⟩, .int n, ∅, "", 1⟩

def diskBatch : List Metric := [diskMetric "sda" 7, diskMetric "" 3, diskMetric "sda" 9]

theorem diskReads_plain {disk : String} (h : '/' ∉ disk.toList) : Plain (diskReads disk) := by
  have hvalues : (diskReads disk).values = ["disk", disk, "reads"] := rfl
  refine ⟨by simp [diskReads, Namespace.setValue, Namespace.addLiteral, Namespace.addDynamic,
    Namespace.empty], ?_, ?_⟩
  · rw [hvalues]
    simp [h]
  · rw [hvalues]
    simp

theorem diskBatch_plain : ∀ b ∈ [diskBatch], ∀ m ∈ b, Plain m.ns := by
  intro b hb m hm
  simp only [List.mem_singleton] at hb
  subst hb
  simp only [diskBatch, List.mem_cons, List.not_mem_nil, or_false] at hm
  rcases hm with rfl | rfl | rfl <;> exact diskReads_plain (by decide)

/-- An empty segment in the middle is kept, and so are separators at the end. -/
theorem names_both_ways_disks :
    (Namespace.parse "//disk//reads/").key = "disk//reads/" ∧
    Namespace.parse (Namespace.parse "//disk//reads/").path = Namespace.parse "//disk//reads/" ∧
    Plain (diskReads "sda") ∧ Plain (diskReads "") ∧
    (Namespace.parse (diskReads "").key).values = ["disk", "", "reads"] ∧
    ((diskReads "sda").key = (diskReads "").key →
      (diskReads "sda").values = (diskReads "").values) ∧
    (∀ m ∈ diskBatch, Plain m.ns) ∧
    (batchValues diskBatch).get? (diskReads "sda").key = some (Decimal.ofInt 9) := by
  have hsda : Plain (diskReads "sda") := diskReads_plain (by decide)
  have hbare : Plain (diskReads "") := diskReads_plain (by decide)
  obtain ⟨hkey, hpath, hplain⟩ := names_both_ways "//disk//reads/"
  obtain ⟨-, hsame, hkept⟩ := hplain (diskReads "sda") hsda
  have hnumber := (hkept [diskBatch] diskBatch_plain).2 diskBatch (by simp)
  refine ⟨hkey.trans (by decide), hpath, hsda, hbare, (hplain _ hbare).1, hsame _ hbare,
    diskBatch_plain _ (by simp), hnumber.trans ?_⟩
  rfl

end Telemetry.NamespaceKeys
