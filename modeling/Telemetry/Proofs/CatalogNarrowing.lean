import Telemetry.Procfs
import Telemetry.Proofs.KeySelection

/-!
# Narrowing a catalog before collecting

A selection narrows the catalog of the process files, and only what it leaves
is collected. Its names stand for many collected names: the processor segment
of the catalog is `*`, and every collected metric has its own processor there.
So narrowing first is narrowing by the catalog name of each metric, which is
narrowing by its own name just where the two are selected alike.
-/

set_option autoImplicit false

namespace Telemetry.CatalogNarrowing

open Procfs Pattern KeySelection

/-- Every dynamic element back at the value it has in a catalog. -/
def placeheld (ns : Namespace) : Namespace :=
  ⟨ns.elements.map fun e =>
    if e.isDynamic then { e with value := String.ofList dynamicValue } else e⟩

def catalogName (m : Metric) : String := (placeheld m.ns).key

def undated (m : Metric) : Metric := { m with timestamp := ⟨0, 0⟩ }

structure Content where
  load : List Float
  memory : Dict Nat
  stat : List (String × List Nat)

structure Readable (p : Procfs) (files : FileTree) (c : Content) : Prop where
  load : (p.readFile files "loadavg").bind parseLoad = .ok c.load
  memory : (p.readFile files "meminfo").map parseMemory = .ok c.memory
  stat : (p.readFile files "stat").map parseStat = .ok c.stat

structure Agrees (c : Content) (r : Readings) : Prop where
  load : ∀ xs, r.load = some xs → xs = c.load
  memory : ∀ d, r.memory = some d → d = c.memory
  stat : ∀ l, r.stat = some l → l = c.stat

theorem agrees_none (c : Content) : Agrees c .none := by
  constructor <;> intro x hx <;> cases hx

section Collecting

variable {p : Procfs} {files : FileTree} {c : Content}

theorem loadOf_readable (hf : Readable p files c) {r : Readings} (hr : Agrees c r) :
    ∃ r', p.loadOf files r = .ok (c.load, r') ∧ Agrees c r' := by
  unfold loadOf
  split
  · rename_i xs hx
    exact ⟨r, by rw [hr.load xs hx], hr⟩
  · have hload := hf.load
    cases ht : p.readFile files "loadavg" with
    | error e => rw [ht] at hload; cases hload
    | ok text =>
      rw [ht, Except.bind] at hload
      refine ⟨{ r with load := some c.load }, by simp only [hload], ?_, hr.memory, hr.stat⟩
      intro xs hx
      exact (Option.some.inj hx).symm

theorem memoryOf_readable (hf : Readable p files c) {r : Readings} (hr : Agrees c r) :
    ∃ r', p.memoryOf files r = .ok (c.memory, r') ∧ Agrees c r' := by
  unfold memoryOf
  split
  · rename_i d hd
    exact ⟨r, by rw [hr.memory d hd], hr⟩
  · have hmemory := hf.memory
    cases ht : p.readFile files "meminfo" with
    | error e => rw [ht] at hmemory; cases hmemory
    | ok text =>
      rw [ht] at hmemory
      have hparsed : parseMemory text = c.memory := Except.ok.inj hmemory
      refine ⟨{ r with memory := some c.memory }, by simp only [hparsed], hr.load, ?_, hr.stat⟩
      intro d hd
      exact (Option.some.inj hd).symm

theorem statOf_readable (hf : Readable p files c) {r : Readings} (hr : Agrees c r) :
    ∃ r', p.statOf files r = .ok (c.stat, r') ∧ Agrees c r' := by
  unfold statOf
  split
  · rename_i l hl
    exact ⟨r, by rw [hr.stat l hl], hr⟩
  · have hstat := hf.stat
    cases ht : p.readFile files "stat" with
    | error e => rw [ht] at hstat; cases hstat
    | ok text =>
      rw [ht] at hstat
      have hparsed : parseStat text = c.stat := Except.ok.inj hstat
      refine ⟨{ r with stat := some c.stat }, by simp only [hparsed], hr.load, hr.memory, ?_⟩
      intro l hl
      exact (Option.some.inj hl).symm

def gather (p : Procfs) (now : Timestamp) (c : Content) (type : Metric) : List Metric :=
  match type.ns.values with
  | ["procfs", "load", field] =>
    ((loadFields.idxOf? field).bind fun i => c.load[i]?).toList.map fun x =>
      p.metric now type (.float x)
  | ["procfs", "meminfo", field] =>
    ((memoryFields.lookup field).bind c.memory.get?).toList.map fun n =>
      p.metric now type (counter n)
  | ["procfs", "cpu", cpu, field] =>
    (c.stat.filter fun row => cpu == "*" || cpu == row.1).filterMap fun row =>
      ((cpuFields.idxOf? field).bind fun i => row.2[i]?).map fun n =>
        p.cpuMetric now type field row.1 n
  | _ => []

theorem collectType_readable (hf : Readable p files c) (now : Timestamp) {r : Readings}
    (hr : Agrees c r) (type : Metric) :
    ∃ r', p.collectType files now r type = .ok (gather p now c type, r') ∧ Agrees c r' := by
  unfold collectType
  split
  · rename_i field hvalues
    obtain ⟨r', hload, ha⟩ := loadOf_readable hf hr
    refine ⟨r', ?_, ha⟩
    rw [hload, gather, hvalues]
    rfl
  · rename_i field hvalues
    obtain ⟨r', hmemory, ha⟩ := memoryOf_readable hf hr
    refine ⟨r', ?_, ha⟩
    rw [hmemory, gather, hvalues]
    rfl
  · rename_i cpu field hvalues
    obtain ⟨r', hstat, ha⟩ := statOf_readable hf hr
    refine ⟨r', ?_, ha⟩
    rw [hstat, gather, hvalues]
    cases hi : cpuFields.idxOf? field with
    | none => simp only [hi, Option.bind_none, Option.map_none, List.filterMap_none]
    | some i => simp only [hi, Option.bind_some]
  · rename_i hl hm hc
    refine ⟨r, ?_, hr⟩
    have hnone : gather p now c type = [] := by
      unfold gather
      split
      · exact absurd ‹_› (hl _)
      · exact absurd ‹_› (hm _)
      · exact absurd ‹_› (hc _ _)
      · rfl
    rw [hnone]

theorem collectFrom_readable (hf : Readable p files c) (now : Timestamp) {r : Readings}
    (hr : Agrees c r) (types : List Metric) :
    p.collectFrom files now r types = .ok (types.flatMap (gather p now c)) := by
  induction types generalizing r with
  | nil => rfl
  | cons type types ih =>
    obtain ⟨r', htype, ha⟩ := collectType_readable hf now hr type
    simp only [collectFrom, htype, ih ha, List.flatMap_cons]

/-- A metric of a type has its namespace, with a listed processor in the
place of the dynamic element. -/
theorem gather_shape {now : Timestamp} {type m : Metric} (hm : m ∈ gather p now c type) :
    m.ns = type.ns ∨ ∃ cpu field, ∃ row ∈ c.stat, field ∈ cpuFields ∧
      type.ns.values = ["procfs", "cpu", cpu, field] ∧
      m.ns = (cpuNamespace field).setValue 2 row.1 := by
  unfold gather at hm
  split at hm
  · obtain ⟨x, -, rfl⟩ := List.mem_map.mp hm
    exact .inl rfl
  · obtain ⟨n, -, rfl⟩ := List.mem_map.mp hm
    exact .inl rfl
  · rename_i cpu field hvalues
    obtain ⟨row, hrow, hn⟩ := List.mem_filterMap.mp hm
    obtain ⟨n, hi, rfl⟩ := Option.map_eq_some_iff.mp hn
    have hfield : field ∈ cpuFields := by
      by_contra hno
      rw [List.idxOf?_eq_none_iff.mpr hno] at hi
      cases hi
    exact .inr ⟨cpu, field, row, (List.mem_filter.mp hrow).1, hfield, hvalues, rfl⟩
  · cases hm

theorem gather_undated (now now' : Timestamp) (type : Metric) :
    (gather p now c type).map undated = (gather p now' c type).map undated := by
  unfold gather
  split
  · simp only [List.map_map]
    rfl
  · simp only [List.map_map]
    rfl
  · simp only [List.map_filterMap, Option.map_map]
    rfl
  · rfl

end Collecting

theorem placeheld_processor (field id : String) :
    placeheld ((cpuNamespace field).setValue 2 id) = cpuNamespace field := rfl

/-- A type of the catalog names its placeholder, and a processor type is the
one of its field. -/
theorem catalog_shape {type : Metric} (ht : type ∈ catalog) :
    placeheld type.ns = type.ns ∧
    ∀ cpu field, type.ns.values = ["procfs", "cpu", cpu, field] →
      type.ns = cpuNamespace field := by
  unfold catalog at ht
  rw [List.mem_append, List.mem_append, List.mem_map, List.mem_map, List.mem_map] at ht
  rcases ht with (⟨f, -, rfl⟩ | ⟨f, -, rfl⟩) | ⟨f, -, rfl⟩
  · refine ⟨rfl, fun cpu field hvalues => ?_⟩
    injection hvalues with _ h
    injection h with h
    exact absurd h (by decide)
  · refine ⟨rfl, fun cpu field hvalues => ?_⟩
    injection hvalues with _ h
    injection h with h
    exact absurd h (by decide)
  · refine ⟨rfl, fun cpu field hvalues => ?_⟩
    have hfield : f = field := by
      injection hvalues with _ h
      injection h with _ h
      injection h with _ h
      injection h
    rw [← hfield]
    rfl

theorem gather_catalogName {p : Procfs} {now : Timestamp} {c : Content} {type m : Metric}
    (ht : type ∈ catalog) (hm : m ∈ gather p now c type) : catalogName m = type.name := by
  obtain ⟨hplace, hcpu⟩ := catalog_shape ht
  unfold catalogName
  rcases gather_shape hm with hns | ⟨cpu, field, row, -, -, hvalues, hns⟩
  · rw [hns, hplace, Metric.name]
  · rw [hns, placeheld_processor, Metric.name, hcpu cpu field hvalues]

theorem filter_flatMap_of_agree {α β : Type} (q : α → Bool) (r : β → Bool) (g : α → List β)
    {l : List α} (h : ∀ a ∈ l, ∀ b ∈ g a, r b = q a) :
    (l.filter q).flatMap g = (l.flatMap g).filter r := by
  rw [List.filter_flatMap]
  induction l with
  | nil => rfl
  | cons a l ih =>
    have hrest := ih fun x hx => h x (List.mem_cons_of_mem a hx)
    have hhead := h a List.mem_cons_self
    by_cases ha : q a = true
    · have hall : (g a).filter r = g a :=
        List.filter_eq_self.mpr fun b hb => (hhead b hb).trans ha
      rw [List.filter_cons_of_pos ha, List.flatMap_cons, List.flatMap_cons, hall, hrest]
    · have hnone : (g a).filter r = [] :=
        List.filter_eq_nil_iff.mpr fun b hb => hhead b hb ▸ ha
      rw [List.filter_cons_of_neg ha, List.flatMap_cons, hnone, hrest, List.nil_append]

def rootPart : List Char := ['p', 'r', 'o', 'c', 'f', 's']

def groupPart : List Char := ['c', 'p', 'u']

def processorName (id field : List Char) : List Char :=
  rootPart ++ '/' :: (groupPart ++ '/' :: (id ++ '/' :: field))

theorem processor_key (id field : String) :
    ((cpuNamespace field).setValue 2 id).key.toList = processorName id.toList field.toList := by
  show (String.intercalate "/" ["procfs", "cpu", id, field]).toList = _
  rw [String.toList_intercalate, processorName, ← List.append_nil field.toList]
  rfl

theorem split_processorName {id field : List Char} (hi : '/' ∉ id) (hf : '/' ∉ field) :
    Text.split '/' (processorName id field) = [rootPart, groupPart, id, field] := by
  rw [processorName, Text.split_append (by decide), Text.split_append (by decide),
    Text.split_append hi, Text.split_single hf]

theorem trimLeft_processorName (id field : List Char) :
    Text.trimLeft '/' (processorName id field) = processorName id field := rfl

theorem trimRight_processorName (id : List Char) {field : List Char} (hf : '/' ∉ field)
    (hne : field ≠ []) :
    Text.trimRight '/' (processorName id field) = processorName id field := by
  obtain ⟨front, last, rfl⟩ := (List.eq_nil_or_concat' field).resolve_left hne
  have hlast : last ≠ '/' := by
    rintro rfl
    exact hf (by simp)
  have hname : processorName id (front ++ [last]) = processorName id front ++ [last] := by
    simp [processorName]
  rw [Text.trimRight, hname, List.reverse_append, List.reverse_singleton, List.singleton_append,
    Text.trimLeft, List.dropWhile_cons_of_neg (by simpa using hlast), List.reverse_cons,
    List.reverse_reverse]

theorem innerSegments_processorName {id field : List Char} (hi : '/' ∉ id) (hf : '/' ∉ field)
    (hne : field ≠ []) :
    innerSegments (processorName id field) = [rootPart, groupPart, id, field] := by
  have htrim : trimmed (processorName id field) = processorName id field := by
    rw [trimmed, trimLeft_processorName, trimRight_processorName id hf hne]
  rw [innerSegments, htrim, split_processorName hi hf]
  exact if_neg (by simp [processorName, rootPart])

theorem cpuFields_plain : ∀ field ∈ cpuFields, '/' ∉ field.toList ∧ field.toList ≠ [] := by
  decide

/-- What a literal key selects stays selected when a processor is made dynamic. -/
theorem selectedBy_processor [SizeLimit] {key : String} {p : Pattern}
    (hp : Pattern.compile key = .ok p) (hl : p.isLiteral = true) {id field : String}
    (hi : '/' ∉ id.toList) (hf : field ∈ cpuFields)
    (h : Selection.selectedBy ((cpuNamespace field).setValue 2 id).key p = true) :
    Selection.selectedBy (cpuNamespace field).key p = true := by
  obtain ⟨hplain, hne⟩ := cpuFields_plain field hf
  have hstar : (cpuNamespace field).key.toList = processorName dynamicValue field.toList :=
    processor_key (String.ofList dynamicValue) field
  have hglob : isGlob key.toList = false := by
    rw [(compile_trimmed hp).2.2.1] at hl
    simpa using hl
  rw [selectedBy_iff hp, chooses_literal hglob, processor_key,
    innerSegments_processorName hi hplain hne] at h
  rw [selectedBy_iff hp, chooses_literal hglob, hstar,
    innerSegments_processorName (by decide) hplain hne]
  exact agreeInCommon_set h 2

theorem filter_undated {r : Metric → Bool} (hr : ∀ m, r (undated m) = r m) (l : List Metric) :
    (l.filter r).map undated = (l.map undated).filter r := by
  rw [List.filter_map]
  exact congrArg (List.map undated) (List.filter_congr fun m _ => (hr m).symm)

/-- Two filters that do not look at the time leave the same just when they
agree on every metric. -/
theorem filter_undated_iff {r r' : Metric → Bool} (hr : ∀ m, r (undated m) = r m)
    (hr' : ∀ m, r' (undated m) = r' m) (l : List Metric) :
    (l.filter r).map undated = (l.filter r').map undated ↔ ∀ m ∈ l, r m = r' m := by
  constructor
  · intro h m hm
    rw [filter_undated hr, filter_undated hr'] at h
    have hmem : undated m ∈ l.map undated := List.mem_map_of_mem hm
    have hiff : undated m ∈ (l.map undated).filter r ↔ undated m ∈ (l.map undated).filter r' := by
      rw [h]
    rw [List.mem_filter, List.mem_filter, hr, hr'] at hiff
    exact Bool.eq_iff_iff.mpr ⟨fun hm => (hiff.mp ⟨hmem, hm⟩).2, fun hm => (hiff.mpr ⟨hmem, hm⟩).2⟩
  · intro h
    rw [List.filter_congr h]

theorem gathered_undated (p : Procfs) (c : Content) (now later : Timestamp)
    (types : List Metric) :
    (types.flatMap (gather p now c)).map undated =
      (types.flatMap (gather p later c)).map undated := by
  rw [List.map_flatMap, List.map_flatMap]
  exact List.flatMap_congr fun type _ => gather_undated now later type

/-- Which of the metrics of a whole collection a narrowed one has. -/
theorem narrowed_eq (s : Selection) (p : Procfs) (c : Content) (now later : Timestamp) :
    ((s.select catalog).flatMap (gather p now c)).map undated =
      ((catalog.flatMap (gather p later c)).filter fun m =>
        s.isSelected (catalogName m)).map undated := by
  have hagree : ∀ type ∈ catalog, ∀ m ∈ gather p now c type,
      s.isSelected (catalogName m) = s.isSelected type.name := by
    intro type ht m hm
    rw [gather_catalogName ht hm]
  rw [Selection.select, filter_flatMap_of_agree _ _ _ hagree, filter_undated fun _ => rfl,
    filter_undated fun _ => rfl, gathered_undated p c now later]

theorem static_catalogName {m : Metric} (h : ∀ e ∈ m.ns.elements, e.isDynamic = false) :
    catalogName m = m.name := by
  have hmap : placeheld m.ns = m.ns := by
    unfold placeheld
    congr 1
    conv_rhs => rw [← List.map_id m.ns.elements]
    refine List.map_congr_left fun e he => ?_
    rw [h e he]
    rfl
  rw [catalogName, hmap, Metric.name]

theorem literal_catalogName [SizeLimit] {keys : List String} {s : Selection}
    (hs : Selection.ofKeys keys = .ok s) (hl : ∀ q ∈ s.patterns, q.isLiteral = true)
    {p : Procfs} {now : Timestamp} {c : Content} (hc : ∀ row ∈ c.stat, '/' ∉ row.1.toList)
    {type m : Metric} (ht : type ∈ catalog) (hm : m ∈ gather p now c type)
    (h : s.isSelected m.name = true) : s.isSelected (catalogName m) = true := by
  rw [gather_catalogName ht hm]
  rcases gather_shape hm with hns | ⟨cpu, field, row, hrow, hfield, hvalues, hns⟩
  · rw [Metric.name, ← hns]
    exact h
  · rw [Metric.name, (catalog_shape ht).2 cpu field hvalues]
    rw [Metric.name, hns] at h
    obtain ⟨q, hq, hsel⟩ := List.any_eq_true.mp h
    obtain ⟨key, -, hcompile⟩ := compiledKeys_pattern (ofKeys_ok hs) hq
    exact List.any_eq_true.mpr
      ⟨q, hq, selectedBy_processor hcompile (hl q hq) (hc row hrow) hfield hsel⟩

/-- Over readable files, narrowing the catalog and narrowing what the whole
catalog gives by catalog name leave the same metrics in the same order,
whatever the two times of collecting. -/
theorem narrowing_by_catalog_name [SizeLimit] {keys : List String} {s : Selection}
    {p : Procfs} {files : FileTree} {c : Content} (hs : Selection.ofKeys keys = .ok s)
    (hf : Readable p files c) (now later : Timestamp) :
    ∃ narrowed whole,
      p.collect files now (s.select catalog) = .ok narrowed ∧
      p.collect files later catalog = .ok whole ∧
      narrowed.map undated =
        (whole.filter fun m => s.isSelected (catalogName m)).map undated ∧
      (narrowed.map undated = (whole.filter fun m => s.isSelected m.name).map undated ↔
        ∀ m ∈ whole, s.isSelected (catalogName m) = s.isSelected m.name) ∧
      (∀ m ∈ whole, (∀ e ∈ m.ns.elements, e.isDynamic = false) → catalogName m = m.name) ∧
      ((∀ row ∈ c.stat, '/' ∉ row.1.toList) → (∀ q ∈ s.patterns, q.isLiteral = true) →
        ∀ m ∈ whole, s.isSelected m.name = true → s.isSelected (catalogName m) = true) := by
  have hnarrow := narrowed_eq s p c now later
  refine ⟨_, _, collectFrom_readable hf now (agrees_none c) _,
    collectFrom_readable hf later (agrees_none c) _, hnarrow, ?_, ?_, ?_⟩
  · rw [hnarrow]
    exact filter_undated_iff (fun _ => rfl) (fun _ => rfl) _
  · intro m _ hm
    exact static_catalogName hm
  · intro hc hl m hm hsel
    obtain ⟨type, ht, hm⟩ := List.mem_flatMap.mp hm
    exact literal_catalogName hs hl hc ht hm hsel

def loadText : String := "0.5 0.25 1 1/90 7\n"

def memoryText : String := "MemTotal: 9 kB\nMemFree: 4 kB\nMemAvailable: 5 kB\n"

def statText : String := "cpu 9 0 2 7 1\ncpu0 9 0 2 7 1\n"

def nodeFiles : FileTree :=
  ⟨[(["loadavg"], .file loadText.toUTF8), (["meminfo"], .file memoryText.toUTF8),
    (["stat"], .file statText.toUTF8)], []⟩

def node : Procfs := ⟨"", "n1"⟩

def nodeContent : Content where
  load := (parseLoad loadText).toOption.getD []
  memory := parseMemory memoryText
  stat := [("all", [9, 0, 2, 7, 1]), ("cpu0", [9, 0, 2, 7, 1])]

theorem loadText_words :
    Text.words loadText.toList =
      ["0.5".toList, "0.25".toList, "1".toList, "1/90".toList, "7".toList] := rfl

theorem loadText_parsed : parseLoad loadText = .ok nodeContent.load := by
  have hok : ∃ xs, parseLoad loadText = .ok xs := by
    unfold parseLoad
    rw [loadText_words]
    exact ⟨_, rfl⟩
  obtain ⟨xs, hxs⟩ := hok
  rw [nodeContent, hxs]
  rfl

theorem statText_parsed :
    parseStat statText = [("all", [9, 0, 2, 7, 1]), ("cpu0", [9, 0, 2, 7, 1])] := rfl

theorem readFile_node (name text : String)
    (h : nodeFiles.read (FileTree.joinPath node.root name) = .ok text.toUTF8) :
    node.readFile nodeFiles name = .ok text := by
  unfold readFile FileTree.readText
  rw [h]
  have htext : String.fromUTF8? text.toUTF8 = some text := dif_pos text.isValidUTF8
  simp only [htext]
  rfl

theorem node_readable : Readable node nodeFiles nodeContent where
  load := by
    rw [readFile_node "loadavg" loadText rfl]
    exact loadText_parsed
  memory := by
    rw [readFile_node "meminfo" memoryText rfl]
    rfl
  stat := by
    rw [readFile_node "stat" statText rfl]
    exact congrArg Except.ok statText_parsed

def userTime (id : String) : Metric :=
  node.cpuMetric ⟨0, 0⟩ (.ofType (cpuNamespace "user") "jiffies") "user" id 9

theorem userTime_gathered {id : String} (hid : (id, [9, 0, 2, 7, 1]) ∈ nodeContent.stat) :
    userTime id ∈ gather node ⟨0, 0⟩ nodeContent (.ofType (cpuNamespace "user") "jiffies") :=
  List.mem_filterMap.mpr ⟨_, List.mem_filter.mpr ⟨hid, rfl⟩, rfl⟩

theorem userType_mem : Metric.ofType (cpuNamespace "user") "jiffies" ∈ catalog :=
  List.mem_append_right _ (List.mem_map_of_mem (by decide))

def literalKey : String := "procfs/cpu/cpu0/user"

def globKeys : List String := ["procfs/load", "procfs/cpu/cpu?/user"]

def literalSelection : Selection :=
  ⟨[⟨literalKey.toList, literalKey.toList.map fun c => .atom (.char c)⟩]⟩

attribute [local instance] SizeLimit.ofAnys

theorem selection_literal : Selection.ofKeys [literalKey] = .ok literalSelection := by
  cbv

def globSelection : Selection :=
  ⟨[⟨"procfs/load".toList, "procfs/load".toList.map fun c => .atom (.char c)⟩,
    ⟨"procfs/cpu/cpu?/user".toList, ("procfs/cpu/cpu".toList.map fun c => .atom (.char c)) ++
      .atom .any :: "/user".toList.map fun c => .atom (.char c)⟩]⟩

theorem selection_glob : Selection.ofKeys globKeys = .ok globSelection := by
  cbv

theorem narrowing_by_catalog_name_processor :
    Selection.ofKeys [literalKey] = .ok literalSelection ∧
    Readable node nodeFiles nodeContent ∧
    ∃ narrowed whole,
      node.collect nodeFiles ⟨5, 0⟩ (literalSelection.select catalog) = .ok narrowed ∧
      node.collect nodeFiles ⟨6, 0⟩ catalog = .ok whole ∧
      narrowed.map undated =
        (whole.filter fun m => literalSelection.isSelected (catalogName m)).map undated ∧
      ∀ m ∈ whole, literalSelection.isSelected m.name = true →
        literalSelection.isSelected (catalogName m) = true := by
  obtain ⟨narrowed, whole, hnarrowed, hwhole, hsame, -, -, hliteral⟩ :=
    narrowing_by_catalog_name selection_literal node_readable ⟨5, 0⟩ ⟨6, 0⟩
  exact ⟨selection_literal, node_readable, narrowed, whole, hnarrowed, hwhole, hsame,
    hliteral (by decide) (by decide)⟩

/-- A literal key collects processors it does not name, and a glob misses the
one it names. -/
theorem own_names_disagree :
    Readable node nodeFiles nodeContent ∧
    (∃ s narrowed whole, Selection.ofKeys [literalKey] = .ok s ∧
      node.collect nodeFiles ⟨0, 0⟩ (s.select catalog) = .ok narrowed ∧
      node.collect nodeFiles ⟨0, 0⟩ catalog = .ok whole ∧
      ∃ m ∈ narrowed, s.isSelected m.name = false) ∧
    (∃ s narrowed whole, Selection.ofKeys globKeys = .ok s ∧
      node.collect nodeFiles ⟨0, 0⟩ (s.select catalog) = .ok narrowed ∧
      node.collect nodeFiles ⟨0, 0⟩ catalog = .ok whole ∧
      ∃ m ∈ whole, s.isSelected m.name = true ∧ m ∉ narrowed) := by
  refine ⟨node_readable, ?_, ?_⟩
  · refine ⟨literalSelection, _, _, selection_literal,
      collectFrom_readable node_readable _ (agrees_none _) _,
      collectFrom_readable node_readable _ (agrees_none _) _, userTime "all", ?_, by cbv⟩
    exact List.mem_flatMap.mpr ⟨_, List.mem_filter.mpr ⟨userType_mem, by cbv⟩,
      userTime_gathered List.mem_cons_self⟩
  · refine ⟨globSelection, _, _, selection_glob,
      collectFrom_readable node_readable _ (agrees_none _) _,
      collectFrom_readable node_readable _ (agrees_none _) _, userTime "cpu0", ?_, by cbv, ?_⟩
    · exact List.mem_flatMap.mpr
        ⟨_, userType_mem, userTime_gathered (List.mem_cons_of_mem _ List.mem_cons_self)⟩
    · intro hm
      obtain ⟨type, ht, hm⟩ := List.mem_flatMap.mp hm
      obtain ⟨ht, hs⟩ := List.mem_filter.mp ht
      have hname := gather_catalogName ht hm
      have hno : globSelection.isSelected (catalogName (userTime "cpu0")) = false := by cbv
      rw [← hname, hno] at hs
      cases hs

end Telemetry.CatalogNarrowing
