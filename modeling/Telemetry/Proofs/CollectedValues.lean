import Telemetry.Proofs.CatalogNarrowing
import Telemetry.Proofs.FileLines

/-!
# Values collected from well-formed files

What the three files say is given here without their readers: a load file
begins with three numbers, a memory file has lines of a key and a size, and a
processor file has rows of counters between other lines. Collecting the whole
catalog gives every number of such files once, under its name and in the order
of the catalog. A load is the number in the file. A counter becomes a signed
word, which is the number in the file for counters below half of the words
only.
-/

set_option autoImplicit false

namespace Telemetry.CollectedValues

open Procfs FileLines
open CatalogNarrowing (Content Readable gather agrees_none collectFrom_readable loadText node)

inductive SizeLine : List Char → String × ℕ → Prop where
  | intro {pad key gap rest w : List Char} {more : List (List Char)} {n : ℕ}
      (hpad : ∀ c ∈ pad, Text.isBlank c = true) (hgap : ∀ c ∈ gap, Text.isBlank c = true)
      (unpadded : Text.Unpadded key) (plain : ':' ∉ key) (spaced : Spaced rest (w :: more))
      (counter : Counter w n) :
      SizeLine (pad ++ key ++ gap ++ ':' :: rest) (String.ofList key, n)

theorem memoryLine_key {key rest w : List Char} {more : List (List Char)} {n : ℕ}
    (plain : ':' ∉ key) (spaced : Spaced rest (w :: more)) (counter : Counter w n) :
    memoryLine (key ++ ':' :: rest) = some (String.ofList (Text.trimBlank key), n) := by
  have hkey : ∀ c ∈ key, (c != ':') = true := by
    intro c hc
    rw [bne_iff_ne]
    rintro rfl
    exact plain hc
  have htake : (key ++ ':' :: rest).takeWhile (· != ':') = key := by
    rw [List.takeWhile_append_of_pos hkey, List.takeWhile_cons_of_neg (by simp), List.append_nil]
  have hdrop : (key ++ ':' :: rest).dropWhile (· != ':') = ':' :: rest := by
    rw [List.dropWhile_append_of_pos hkey, List.dropWhile_cons_of_neg (by simp)]
  rw [memoryLine, if_pos (by simp), htake, hdrop, List.tail_cons, words_spaced spaced]
  dsimp only
  rw [readWord64_counter counter, Option.map_some]

theorem memoryLine_size {line : List Char} {e : String × ℕ} (h : SizeLine line e) :
    memoryLine (withoutReturn line) = some e := by
  cases h with
  | @intro pad key gap rest w more n hpad hgap unpadded plain spaced counter =>
    have hblank : ∀ cs : List Char, (∀ c ∈ cs, Text.isBlank c = true) → ':' ∉ cs :=
      fun cs hcs hmem => absurd (hcs ':' hmem) (by decide)
    have hfront : ':' ∉ pad ++ key ++ gap := by
      simp [hblank pad hpad, plain, hblank gap hgap]
    have hline : withoutReturn (pad ++ key ++ gap ++ ':' :: rest) =
        pad ++ key ++ gap ++ ':' :: withoutReturn rest := by
      rw [List.append_cons, withoutReturn_append (by simp), ← List.append_cons]
    have hspaced : Spaced (withoutReturn rest) (w :: more) := by
      rw [spaced_iff, words_withoutReturn, words_spaced spaced]
    rw [hline, memoryLine_key hfront hspaced counter, Text.trimBlank_padded hpad hgap unpadded]

theorem memoryLines_sizes {ls : List (List Char)} {sizes : List (String × ℕ)}
    (h : List.Forall₂ SizeLine ls sizes) : (ls.map withoutReturn).filterMap memoryLine = sizes := by
  induction h with
  | nil => rfl
  | cons hline _ ih =>
    rw [List.map_cons, List.filterMap_cons_some (memoryLine_size hline), ih]

/-- Where keys are distinct, a dictionary finds what the list of entries has. -/
theorem get?_ofList_distinct {α : Type} {l : List (String × α)} (h : (l.map Prod.fst).Nodup)
    (k : String) : (Dict.ofList l).get? k = l.lookup k := by
  rw [Dict.get?_ofList]
  induction l with
  | nil => rfl
  | cons e l ih =>
    obtain ⟨a, x⟩ := e
    obtain ⟨hnot, hrest⟩ := List.nodup_cons.mp h
    rw [List.lookup_cons]
    by_cases hk : a = k
    · have hnone : l.filter (fun e => e.1 == k) = [] := by
        refine List.filter_eq_nil_iff.mpr fun y hy hyk => hnot ?_
        have hmem : y.1 ∈ l.map Prod.fst := List.mem_map_of_mem hy
        rwa [beq_iff_eq.mp hyk, ← hk] at hmem
      rw [List.filter_cons_of_pos (by simpa using hk), hnone, beq_iff_eq.mpr hk.symm]
      rfl
    · rw [List.filter_cons_of_neg (by simpa using hk), ih hrest,
        beq_eq_false_iff_ne.mpr (Ne.symm hk)]

structure Row where
  id : String
  user : ℕ
  nice : ℕ
  system : ℕ
  idle : ℕ
  iowait : ℕ

def Row.counters (r : Row) : List ℕ := [r.user, r.nice, r.system, r.idle, r.iowait]

def rowLabel : List Char := "cpu".toList

/-- Lines of rows, with other lines between them. A row has its label and five
counters in front, and the row of all processors has the label alone. -/
inductive Table : List (List Char) → List Row → Prop where
  | nil : Table [] []
  | row {line label : List Char} {ws more lines : List (List Char)} {r : Row} {rows : List Row}
      (labelled : rowLabel <+: line) (spaced : Spaced line (label :: (ws ++ more)))
      (counters : List.Forall₂ Counter ws r.counters)
      (id : r.id = if label = rowLabel then "all" else String.ofList label)
      (rest : Table lines rows) : Table (line :: lines) (r :: rows)
  | other {line : List Char} {lines : List (List Char)} {rows : List Row}
      (h : ¬rowLabel <+: line) (rest : Table lines rows) : Table (line :: lines) rows

theorem cpuLine_row {line label : List Char} {ws more : List (List Char)} {r : Row}
    (labelled : rowLabel <+: line) (spaced : Spaced line (label :: (ws ++ more)))
    (counters : List.Forall₂ Counter ws r.counters)
    (id : r.id = if label = rowLabel then "all" else String.ofList label) :
    cpuLine (withoutReturn line) = some (r.id, r.counters) := by
  have hlabel : rowLabel.isPrefixOf (withoutReturn line) = true := by
    obtain ⟨rest, rfl⟩ := labelled
    rw [withoutReturn_append (by decide), List.isPrefixOf_iff_prefix]
    exact List.prefix_append rowLabel _
  have hwords : Text.words (withoutReturn line) = label :: (ws ++ more) := by
    rw [words_withoutReturn, words_spaced spaced]
  have htake : (ws ++ more).take cpuFields.length = ws :=
    List.take_left' counters.length_eq
  refine (if_pos hlabel).trans ?_
  rw [hwords]
  dsimp only
  rw [htake, readWords64_counters counters, id]
  rfl

theorem cpuLine_other {line : List Char} (h : ¬rowLabel <+: line) :
    cpuLine (withoutReturn line) = none := by
  refine if_neg fun hlabel => h ?_
  exact (List.isPrefixOf_iff_prefix.mp hlabel).trans (withoutReturn_begins line)

theorem cpuLines_table {ls : List (List Char)} {rows : List Row} (h : Table ls rows) :
    (ls.map withoutReturn).filterMap cpuLine = rows.map fun r => (r.id, r.counters) := by
  induction h with
  | nil => rfl
  | row labelled spaced counters id _ ih =>
    rw [List.map_cons, List.filterMap_cons_some (cpuLine_row labelled spaced counters id), ih,
      List.map_cons]
  | other h _ ih => rw [List.map_cons, List.filterMap_cons_none (cpuLine_other h), ih]

structure Report where
  load1 : Float
  load5 : Float
  load15 : Float
  sizes : List (String × ℕ)
  rows : List Row

structure Written (p : Procfs) (files : FileTree) (r : Report) : Prop where
  load : ∃ text w1 w5 w15 more, p.readFile files "loadavg" = .ok text ∧
    Spaced text.toList (w1 :: w5 :: w15 :: more) ∧ Decimal.readSigned w1 = some r.load1 ∧
    Decimal.readSigned w5 = some r.load5 ∧ Decimal.readSigned w15 = some r.load15
  memory : ∃ text ls, p.readFile files "meminfo" = .ok text ∧ Lined text.toList ls ∧
    List.Forall₂ SizeLine ls r.sizes
  keys : (r.sizes.map Prod.fst).Nodup
  stat : ∃ text ls, p.readFile files "stat" = .ok text ∧ Lined text.toList ls ∧ Table ls r.rows

def Report.content (r : Report) : Content where
  load := [r.load1, r.load5, r.load15]
  memory := Dict.ofList r.sizes
  stat := r.rows.map fun row => (row.id, row.counters)

theorem written_readable {p : Procfs} {files : FileTree} {r : Report} (h : Written p files r) :
    Readable p files r.content where
  load := by
    obtain ⟨text, w1, w5, w15, more, hread, hspaced, h1, h5, h15⟩ := h.load
    rw [hread, Except.bind, parseLoad, words_spaced hspaced]
    simp only [firstFloats, h1, h5, h15]
    rfl
  memory := by
    obtain ⟨text, ls, hread, hlined, hsizes⟩ := h.memory
    rw [hread, Except.map, parseMemory, lines_lined hlined, memoryLines_sizes hsizes]
    rfl
  stat := by
    obtain ⟨text, ls, hread, hlined, htable⟩ := h.stat
    rw [hread, Except.map, parseStat, lines_lined hlined, cpuLines_table htable]
    rfl

inductive Quantity where
  | load (x : Float)
  | count (n : ℕ)

structure Entry where
  ns : Namespace
  unit : String
  quantity : Quantity

def loadEntry (field : String) (x : Float) : Entry :=
  ⟨.ofValues ["procfs", "load", field], "", .load x⟩

def sizeEntry (field : String) (n : ℕ) : Entry :=
  ⟨.ofValues ["procfs", "meminfo", field], "kB", .count n⟩

def timeEntry (field id : String) (n : ℕ) : Entry :=
  ⟨⟨[.literal "procfs", .literal "cpu",
    ⟨id, "cpu identifier, all for the aggregate", some "cpu_id"⟩, .literal field]⟩,
    "jiffies", .count n⟩

def sizeFields : List (String × String) :=
  [("mem_total", "MemTotal"), ("mem_free", "MemFree"), ("mem_available", "MemAvailable")]

def timeFields : List (String × (Row → ℕ)) :=
  [("user", Row.user), ("nice", Row.nice), ("system", Row.system), ("idle", Row.idle),
    ("iowait", Row.iowait)]

def Report.entries (r : Report) : List Entry :=
  [loadEntry "load1" r.load1, loadEntry "load5" r.load5, loadEntry "load15" r.load15] ++
  (sizeFields.filterMap fun f => (r.sizes.lookup f.2).map (sizeEntry f.1)) ++
  timeFields.flatMap fun f => r.rows.map fun row => timeEntry f.1 row.id (f.2 row)

/-- A value that holds a quantity: a load itself, or for a count the integer
that `f` makes of it. -/
inductive Holds (f : ℕ → ℤ) : Quantity → Metric.Value → Prop where
  | load (x : Float) : Holds f (.load x) (.float x)
  | count {n : ℕ} {i : Int64} (h : i.toInt = f n) : Holds f (.count n) (.int i)

structure Shows (p : Procfs) (now : Timestamp) (f : ℕ → ℤ) (e : Entry) (m : Metric) : Prop where
  ns : m.ns = e.ns
  timestamp : m.timestamp = now
  value : Holds f e.quantity m.value
  tags : m.tags = Dict.ofList [("nodename", p.node)]
  unit : m.unit = e.unit
  version : m.version = 1

def Quantity.value : Quantity → Metric.Value
  | .load x => .float x
  | .count n => counter n

def Entry.metric (p : Procfs) (now : Timestamp) (e : Entry) : Metric :=
  ⟨e.ns, now, e.quantity.value, Dict.ofList [("nodename", p.node)], e.unit, 1⟩

theorem timeFields_index {f : String × (Row → ℕ)} (hf : f ∈ timeFields) :
    ∃ i, cpuFields.idxOf? f.1 = some i ∧ ∀ row : Row, row.counters[i]? = some (f.2 row) := by
  simp only [timeFields, List.mem_cons, List.not_mem_nil, or_false] at hf
  rcases hf with rfl | rfl | rfl | rfl | rfl
  · exact ⟨0, rfl, fun _ => rfl⟩
  · exact ⟨1, rfl, fun _ => rfl⟩
  · exact ⟨2, rfl, fun _ => rfl⟩
  · exact ⟨3, rfl, fun _ => rfl⟩
  · exact ⟨4, rfl, fun _ => rfl⟩

section Collecting

variable (p : Procfs) (now : Timestamp) (r : Report)

theorem gather_loads :
    (loadFields.flatMap fun f => gather p now r.content
      (.ofType (Namespace.ofValues ["procfs", "load", f]) "")) =
    [loadEntry "load1" r.load1, loadEntry "load5" r.load5, loadEntry "load15" r.load15].map
      (Entry.metric p now) :=
  rfl

theorem gather_sizes (hkeys : (r.sizes.map Prod.fst).Nodup) :
    (memoryFields.flatMap fun f => gather p now r.content
      (.ofType (Namespace.ofValues ["procfs", "meminfo", f.1]) "kB")) =
    (sizeFields.filterMap fun f => (r.sizes.lookup f.2).map (sizeEntry f.1)).map
      (Entry.metric p now) := by
  have hnames : ∀ f ∈ memoryFields, memoryFields.lookup f.1 = some f.2 := by decide
  rw [List.filterMap_eq_flatMap_toList, List.map_flatMap]
  refine List.flatMap_congr fun f hf => ?_
  have hgather : gather p now r.content
      (.ofType (Namespace.ofValues ["procfs", "meminfo", f.1]) "kB") =
      ((memoryFields.lookup f.1).bind (Dict.ofList r.sizes).get?).toList.map fun n =>
        (sizeEntry f.1 n).metric p now := rfl
  rw [hgather, hnames f hf, Option.bind_some, get?_ofList_distinct hkeys]
  cases r.sizes.lookup f.2 <;> rfl

theorem gather_times {f : String × (Row → ℕ)} (hf : f ∈ timeFields) :
    gather p now r.content (.ofType (cpuNamespace f.1) "jiffies") =
      r.rows.map fun row => (timeEntry f.1 row.id (f.2 row)).metric p now := by
  obtain ⟨i, hi, htime⟩ := timeFields_index hf
  have hgather : gather p now r.content (.ofType (cpuNamespace f.1) "jiffies") =
      ((r.rows.map fun row => (row.id, row.counters)).filter fun _ => true).filterMap fun row =>
        ((cpuFields.idxOf? f.1).bind fun i => row.2[i]?).map fun n =>
          (timeEntry f.1 row.1 n).metric p now := rfl
  rw [hgather, List.filter_true, List.filterMap_map, hi]
  simp [htime]

theorem gather_catalog (hkeys : (r.sizes.map Prod.fst).Nodup) :
    catalog.flatMap (gather p now r.content) = r.entries.map (Entry.metric p now) := by
  have hfields : cpuFields = timeFields.map Prod.fst := rfl
  rw [catalog, List.flatMap_append, List.flatMap_append, List.flatMap_map, List.flatMap_map,
    List.flatMap_map, gather_loads, gather_sizes p now r hkeys, hfields, List.flatMap_map,
    List.flatMap_congr fun _ => gather_times p now r, Report.entries, List.map_append, List.map_append,
    List.map_flatMap]
  simp only [List.map_map]
  rfl

theorem collect_written {files : FileTree} (h : Written p files r) :
    p.collect files now catalog = .ok (r.entries.map (Entry.metric p now)) := by
  rw [collect, collectFrom_readable (written_readable h) now (agrees_none _) catalog,
    gather_catalog p now r h.keys]

end Collecting

def wrapped (n : ℕ) : ℤ := if n < Word.half64 then n else n - Word.count64

theorem toInt_wrapped {n : ℕ} (h : n < Word.count64) : (Int64.ofNat n).toInt = wrapped n := by
  have hsize : Int64.size = Word.count64 := rfl
  rw [← Int64.ofInt_eq_ofNat, Int64.toInt_ofInt, hsize, Int.bmod_def, wrapped]
  unfold Word.count64 Word.half64 at *
  split <;> split <;> omega

theorem toInt_exact_iff (n : ℕ) : (Int64.ofNat n).toInt = n ↔ n < Word.half64 := by
  have hhalf : Word.half64 = 0x8000000000000000 := rfl
  rw [hhalf]
  constructor
  · intro h
    have hlt := Int64.toInt_lt (Int64.ofNat n)
    omega
  · exact Int64.toInt_ofNat_of_lt

theorem sizes_bounded {ls : List (List Char)} {sizes : List (String × ℕ)}
    (h : List.Forall₂ SizeLine ls sizes) : ∀ e ∈ sizes, e.2 < Word.count64 := by
  induction h with
  | nil => simp
  | cons hline _ ih =>
    refine List.forall_mem_cons.mpr ⟨?_, ih⟩
    cases hline with
    | intro _ _ _ _ _ counter => exact counter.bounded

theorem counters_bounded {ws : List (List Char)} {ns : List ℕ}
    (h : List.Forall₂ Counter ws ns) : ∀ n ∈ ns, n < Word.count64 := by
  induction h with
  | nil => simp
  | cons hw _ ih => exact List.forall_mem_cons.mpr ⟨hw.bounded, ih⟩

theorem rows_bounded {ls : List (List Char)} {rows : List Row} (h : Table ls rows) :
    ∀ row ∈ rows, ∀ n ∈ row.counters, n < Word.count64 := by
  induction h with
  | nil => simp
  | row _ _ counters _ _ ih => exact List.forall_mem_cons.mpr ⟨counters_bounded counters, ih⟩
  | other _ _ ih => exact ih

theorem entries_bounded {p : Procfs} {files : FileTree} {r : Report} (h : Written p files r) :
    ∀ e ∈ r.entries, ∀ n, e.quantity = .count n → n < Word.count64 := by
  intro e he n hn
  rw [Report.entries, List.mem_append, List.mem_append] at he
  rcases he with (he | he) | he
  · simp only [List.mem_cons, List.not_mem_nil, or_false] at he
    rcases he with rfl | rfl | rfl <;> cases hn
  · obtain ⟨f, -, hsize⟩ := List.mem_filterMap.mp he
    obtain ⟨m, hm, rfl⟩ := Option.map_eq_some_iff.mp hsize
    cases hn
    obtain ⟨before, after, hsizes, -⟩ := List.lookup_eq_some_iff.mp hm
    obtain ⟨text, ls, -, -, hlines⟩ := h.memory
    exact sizes_bounded hlines (f.2, n) (by simp [hsizes])
  · obtain ⟨f, hf, hrow⟩ := List.mem_flatMap.mp he
    obtain ⟨row, hmem, rfl⟩ := List.mem_map.mp hrow
    cases hn
    obtain ⟨text, ls, -, -, htable⟩ := h.stat
    obtain ⟨i, -, htime⟩ := timeFields_index hf
    exact rows_bounded htable row hmem _ (List.mem_of_getElem? (htime row))

theorem entry_shows (p : Procfs) (now : Timestamp) {e : Entry}
    (h : ∀ n, e.quantity = .count n → n < Word.count64) : Shows p now wrapped e (e.metric p now) := by
  refine ⟨rfl, rfl, ?_, rfl, rfl, rfl⟩
  rw [Entry.metric]
  cases hq : e.quantity with
  | load x => exact .load x
  | count n => exact .count (toInt_wrapped (h n hq))

theorem entry_exact_iff (p : Procfs) (now : Timestamp) (e : Entry) :
    Shows p now Nat.cast e (e.metric p now) ↔ ∀ n, e.quantity = .count n → n < Word.half64 := by
  constructor
  · intro h n hn
    have hvalue := h.value
    rw [Entry.metric, hn] at hvalue
    cases hvalue with
    | count h => exact (toInt_exact_iff n).mp h
  · intro h
    refine ⟨rfl, rfl, ?_, rfl, rfl, rfl⟩
    rw [Entry.metric]
    cases hq : e.quantity with
    | load x => exact .load x
    | count n => exact .count ((toInt_exact_iff n).mpr (h n hq))

/-- Collecting the whole catalog over well-formed files gives one metric of
every entry in order, with counts as signed words. They are the numbers in the
files just when no count that is collected reaches half of the words. -/
theorem collected_values {p : Procfs} {files : FileTree} {r : Report} (h : Written p files r)
    (now : Timestamp) :
    ∃ ms, p.collect files now catalog = .ok ms ∧
      List.Forall₂ (Shows p now wrapped) r.entries ms ∧
      (List.Forall₂ (Shows p now Nat.cast) r.entries ms ↔
        ∀ e ∈ r.entries, ∀ n, e.quantity = .count n → n < Word.half64) := by
  refine ⟨_, collect_written p now r h, ?_, ?_⟩
  · rw [List.forall₂_map_right_iff, List.forall₂_same]
    exact fun e he => entry_shows p now (entries_bounded h e he)
  · rw [List.forall₂_map_right_iff, List.forall₂_same]
    exact forall₂_congr fun e _ => entry_exact_iff p now e

def memoryText : String := "MemTotal:  9223372036854775808 kB\n"

def statText : String := "cpu  9 0 2 7 18446744073709551615\nintr 5"

def fullFiles : FileTree :=
  ⟨[(["loadavg"], .file loadText.toUTF8), (["meminfo"], .file memoryText.toUTF8),
    (["stat"], .file statText.toUTF8)], []⟩

def spelledLoad (w : String) : Float := (Decimal.readSigned w.toList).getD 0

def fullReport : Report where
  load1 := spelledLoad "0.5"
  load5 := spelledLoad "0.25"
  load15 := spelledLoad "1"
  sizes := [("MemTotal", 9223372036854775808)]
  rows := [⟨"all", 9, 0, 2, 7, 18446744073709551615⟩]

theorem readFile_text {p : Procfs} {files : FileTree} {name text : String}
    (h : files.read (FileTree.joinPath p.root name) = .ok text.toUTF8) :
    p.readFile files name = .ok text := by
  unfold readFile FileTree.readText
  rw [h]
  have htext : String.fromUTF8? text.toUTF8 = some text := dif_pos text.isValidUTF8
  simp only [htext]
  rfl

theorem fullReport_written : Written node fullFiles fullReport where
  load := ⟨loadText, "0.5".toList, "0.25".toList, "1".toList, ["1/90".toList, "7".toList],
    readFile_text rfl, (spaced_iff _ _).mpr rfl, rfl, rfl, rfl⟩
  memory := by
    have hspaced : Spaced "  9223372036854775808 kB".toList
        ["9223372036854775808".toList, "kB".toList] := (spaced_iff _ _).mpr rfl
    have hline : SizeLine
        ([] ++ "MemTotal".toList ++ [] ++ ':' :: "  9223372036854775808 kB".toList)
        ("MemTotal", 9223372036854775808) :=
      .intro (by simp) (by simp) (by decide) (by decide) hspaced (by decide)
    exact ⟨memoryText, ["MemTotal:  9223372036854775808 kB".toList], readFile_text rfl,
      (lined_iff _ _).mpr rfl, .cons hline .nil⟩
  keys := by decide
  stat := by
    refine ⟨statText, ["cpu  9 0 2 7 18446744073709551615".toList, "intr 5".toList],
      readFile_text rfl, (lined_iff _ _).mpr rfl, ?_⟩
    have hcounters : List.Forall₂ Counter
        ["9".toList, "0".toList, "2".toList, "7".toList, "18446744073709551615".toList]
        [9, 0, 2, 7, 18446744073709551615] := by decide
    exact .row (by decide) ((spaced_iff _ _).mpr rfl) hcounters (by decide)
      (.other (by decide) .nil)

theorem collected_values_full :
    Written node fullFiles fullReport ∧
    ∃ ms, node.collect fullFiles ⟨5, 0⟩ catalog = .ok ms ∧
      List.Forall₂ (Shows node ⟨5, 0⟩ wrapped) fullReport.entries ms ∧
      (List.Forall₂ (Shows node ⟨5, 0⟩ Nat.cast) fullReport.entries ms ↔
        ∀ e ∈ fullReport.entries, ∀ n, e.quantity = .count n → n < Word.half64) :=
  ⟨fullReport_written, collected_values fullReport_written ⟨5, 0⟩⟩

/-- Two numbers of well-formed files come out below zero. -/
theorem large_counters_negative :
    Written node fullFiles fullReport ∧
    ∃ ms, node.collect fullFiles ⟨5, 0⟩ catalog = .ok ms ∧
      (∃ m ∈ ms, m.name = "procfs/meminfo/mem_total" ∧ m.value = .int (-9223372036854775808)) ∧
      (∃ m ∈ ms, m.name = "procfs/cpu/all/iowait" ∧ m.value = .int (-1)) ∧
      ¬List.Forall₂ (Shows node ⟨5, 0⟩ Nat.cast) fullReport.entries ms := by
  have htotal : sizeEntry "mem_total" 9223372036854775808 ∈ fullReport.entries :=
    List.mem_append_left _ (List.mem_append_right _ List.mem_cons_self)
  have hiowait : timeEntry "iowait" "all" 18446744073709551615 ∈ fullReport.entries :=
    List.mem_append_right _ (List.mem_of_getLast? rfl)
  refine ⟨fullReport_written, _, collect_written node ⟨5, 0⟩ fullReport fullReport_written,
    ⟨_, List.mem_map_of_mem htotal, by decide, by decide⟩,
    ⟨_, List.mem_map_of_mem hiowait, by decide, by decide⟩, ?_⟩
  rw [List.forall₂_map_right_iff, List.forall₂_same]
  intro hexact
  have hlt := (entry_exact_iff node ⟨5, 0⟩ _).mp (hexact _ htotal) _ rfl
  exact absurd hlt (by decide)

end Telemetry.CollectedValues
