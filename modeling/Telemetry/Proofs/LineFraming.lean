import Telemetry.FileSink
import Telemetry.Proofs.DocumentReading
import Telemetry.Proofs.ExactNumbers
import Telemetry.Proofs.FileAppends
import Telemetry.Proofs.TextBytes

/-!
# Lines of batches

A batch is appended to its file as one line. No text of a metric brings a
line end into the line, since a document holds no control character, and the
line is read back as the records of the batch. So a file that batches were
appended to falls apart into them again when it is cut at its line ends.
-/

set_option autoImplicit false

namespace Telemetry.Json

open WrittenNumbers

def Visible (cs : List Char) : Prop := ∀ c ∈ cs, 32 ≤ c.toNat

instance (cs : List Char) : Decidable (Visible cs) :=
  List.decidableBAll (fun c : Char => 32 ≤ c.toNat) cs

theorem Visible.append {cs ds : List Char} (hc : Visible cs) (hd : Visible ds) :
    Visible (cs ++ ds) := by
  intro c h
  rcases List.mem_append.mp h with h | h
  · exact hc c h
  · exact hd c h

theorem Visible.cons {c : Char} {cs : List Char} (hc : 32 ≤ c.toNat) (hcs : Visible cs) :
    Visible (c :: cs) := by
  intro d h
  rcases List.mem_cons.mp h with rfl | h
  · exact hc
  · exact hcs d h

theorem hexDigit_visible {n : ℕ} (h : n < 16) : 32 ≤ (hexDigit n).toNat := by
  interval_cases n <;> decide

theorem unit_visible {n : ℕ} (h : n < 32) :
    Visible ['\\', 'u', '0', '0', hexDigit (n / 16), hexDigit (n % 16)] := by
  have hunit : Visible [hexDigit (n / 16), hexDigit (n % 16)] :=
    .cons (hexDigit_visible (by omega)) (.cons (hexDigit_visible (by omega)) (by decide))
  have hmark : Visible ['\\', 'u', '0', '0'] := by decide
  exact hmark.append hunit

theorem escape_visible (c : Char) : Visible (escape c) := by
  by_cases hsmall : c.toNat < 32
  · unfold escape
    repeat' split
    all_goals first | decide | exact unit_visible hsmall
  · have hplain : Visible [c] := .cons (Nat.not_lt.mp hsmall) (by decide)
    unfold escape
    repeat' split
    all_goals first | decide | exact hplain

theorem stringChars_visible (s : List Char) : Visible (stringChars s) := by
  have hbody : Visible (s.flatMap escape) := by
    intro c h
    obtain ⟨d, -, hd⟩ := List.mem_flatMap.mp h
    exact escape_visible d c hd
  exact (Visible.cons (by decide) hbody).append (by decide)

theorem run_visible {ds : List Char} (h : Run ds) : Visible ds := by
  intro c hc
  have hdigit := h.digits c hc
  simp only [Text.isDigit, Bool.and_eq_true, decide_eq_true_eq] at hdigit
  have hzero : '0'.toNat ≤ c.toNat := hdigit.1
  exact Nat.le_trans (by decide) hzero

theorem placesChars_visible {places : Option (List Char)} (h : ∀ ds ∈ places, Run ds) :
    Visible (placesChars places) := by
  cases places with
  | none => decide
  | some ds => exact Visible.cons (by decide) (run_visible (h ds rfl))

theorem powerChars_visible {p : Option (Bool × List Char)} (h : ∀ q ∈ p, Run q.2) :
    Visible (powerChars p) := by
  cases p with
  | none => decide
  | some q =>
    obtain ⟨negative, ds⟩ := q
    have hds := run_visible (h _ rfl)
    cases negative
    · exact Visible.cons (by decide) (Visible.cons (by decide) hds)
    · exact Visible.cons (by decide) (Visible.cons (by decide) hds)

theorem signed_visible {n : Number} (h : Proper n) : Visible (signed n) := by
  have hmagnitude : Visible (magnitude n) :=
    (run_visible h.whole).append ((placesChars_visible h.places).append (powerChars_visible h.power))
  unfold signed
  split
  · exact Visible.cons (by decide) hmagnitude
  · exact hmagnitude

mutual

theorem chars_visible : ∀ j : Json, Visible j.chars
  | .null => by decide
  | .bool true => by decide
  | .bool false => by decide
  | .int n => by
    rw [chars, intText_chars]
    exact signed_visible (ofInt_proper n)
  | .float x => by
    rw [chars, floatChars_eq]
    split
    · exact signed_visible (ofFloat_proper x)
    · decide
  | .string s => stringChars_visible s.toList
  | .array es => Visible.cons (by decide) (elementsChars_visible es)
  | .object ms => Visible.cons (by decide) (membersChars_visible ms)
  | .unreadable => by decide

theorem elementsChars_visible : ∀ es : List Json, Visible (elementsChars es)
  | [] => by decide
  | [e] => (chars_visible e).append (by decide)
  | e :: next :: es =>
    (chars_visible e).append (Visible.cons (by decide) (elementsChars_visible (next :: es)))

theorem membersChars_visible : ∀ ms : List (String × Json), Visible (membersChars ms)
  | [] => by decide
  | [(k, v)] =>
    ((stringChars_visible k.toList).append (Visible.cons (by decide) (chars_visible v))).append
      (by decide)
  | (k, v) :: next :: ms =>
    ((stringChars_visible k.toList).append (Visible.cons (by decide) (chars_visible v))).append
      (Visible.cons (by decide) (membersChars_visible (next :: ms)))

end

end Telemetry.Json

namespace Telemetry.FileSink

open ExactNumbers (exactValue)
open TextBytes (encoded)

def newline : UInt8 := 10

def lineBytes (batch : List Metric) : List UInt8 :=
  (line batch).toUTF8.data.toList

def body (batch : List Metric) : List UInt8 :=
  encoded (batchJson batch).chars

theorem lineBytes_eq (batch : List Metric) : lineBytes batch = body batch ++ [newline] := by
  have hchars : (line batch).toList = (batchJson batch).chars ++ ['\n'] := by
    rw [line, Json.text, String.toList_append, String.toList_ofList]
    rfl
  rw [lineBytes, TextBytes.toUTF8_encoded, hchars, encoded, List.flatMap_append]
  rfl

theorem newline_notMem_body (batch : List Metric) : newline ∉ body batch := by
  have hbyte : newline = UInt8.ofNat '\n'.toNat := rfl
  rw [body, hbyte, TextBytes.mem_encoded_iff (by decide)]
  intro h
  exact absurd (Json.chars_visible (batchJson batch) '\n' h) (by decide)

def readLine (read : Json.Number → Json) (bytes : List UInt8) : Option Json :=
  (String.fromUTF8? ⟨bytes.toArray⟩).bind (Json.parseWith read)

theorem fromUTF8_encoded (s : String) :
    String.fromUTF8? ⟨(encoded s.toList).toArray⟩ = some s := by
  rw [← TextBytes.toUTF8_encoded, Array.toArray_toList]
  exact dif_pos s.isValidUTF8

def shown : Metric.Value → Json
  | .float x => if x.isFinite then .float x else .null
  | v => v.toJson

def record (m : Metric) : Json :=
  .object [
    ("timestamp", .string m.timestamp.text),
    ("namespace", .string ("/" ++ m.ns.key)),
    ("data", shown m.value),
    ("unit", .string m.unit),
    ("tags", .object (m.tags.toList.map fun (k, v) => (k, .string v))),
    ("version", .int m.version)]

theorem shown_reread (v : Metric.Value) : v.toJson.reread exactValue = shown v := by
  cases v with
  | null => rfl
  | int n => exact ExactNumbers.exactValue_ofInt n.toInt
  | float x =>
    rw [Metric.Value.toJson, Json.reread, shown]
    by_cases hx : x.isFinite = true
    · rw [if_pos hx, if_pos hx, ExactNumbers.exactValue_ofFloat hx]
    · rw [if_neg hx, if_neg hx]
  | text s => rfl

theorem record_reread (m : Metric) : (recordJson m).reread exactValue = record m := by
  unfold recordJson record Metric.tagsToJson
  simp only [Json.reread, Json.rereadMembers, Json.rereadMembers_texts, shown_reread,
    ExactNumbers.exactValue_ofInt]
  rfl

theorem readLine_body (read : Json.Number → Json) (batch : List Metric) :
    readLine read (body batch) = some (.array (batch.map fun m => (recordJson m).reread read)) := by
  have hchars : (batchJson batch).chars = (batchJson batch).text.toList :=
    String.toList_ofList.symm
  rw [readLine, body, hchars, fromUTF8_encoded, Option.bind_some, Json.parseWith_text, batchJson,
    Json.reread, Json.rereadElements_map, List.map_map]
  rfl

def cut (bytes : List UInt8) : List (List UInt8) :=
  (bytes.splitOn newline).dropLast

theorem splitOn_lines (batches : List (List Metric)) :
    (batches.flatMap lineBytes).splitOn newline = batches.map body ++ [[]] := by
  induction batches with
  | nil => rfl
  | cons batch batches ih =>
    rw [List.flatMap_cons, lineBytes_eq, List.append_assoc, List.singleton_append,
      List.splitOn_append_cons_self_of_not_mem (newline_notMem_body batch), ih]
    rfl

theorem cut_lines (batches : List (List Metric)) :
    cut (batches.flatMap lineBytes) = batches.map body := by
  rw [cut, splitOn_lines, List.dropLast_concat]

structure Call where
  batch : List Metric
  config : PluginConfig

def destination (files : FileTree) (c : PluginConfig) : Option FilePath :=
  (c.getText fileKey).bind files.destination

def publishAll (files : FileTree) : List Call → List (Except PluginError Unit) × FileTree
  | [] => ([], files)
  | call :: calls =>
    let first := publish files call.batch call.config
    let rest := publishAll first.2 calls
    (first.1 :: rest.1, rest.2)

def written (files : FileTree) (calls : List Call) (p : FilePath) : List (List Metric) :=
  (calls.filter fun call => destination files call.config == some p).map (·.batch)

variable {files : FileTree} {p : FilePath}

theorem publish_missing (files : FileTree) (batch : List Metric) {c : PluginConfig}
    (h : c.getText fileKey = none) :
    publish files batch c = (.error (.missingConfig fileKey), files) := by
  rw [publish, PluginConfig.requireText, h]

theorem publish_destination (batch : List Metric) {c : PluginConfig}
    (h : destination files c = some p) :
    ∃ after, publish files batch c = (.ok (), after) ∧ FileTree.Alike files after ∧
      ∀ q, after.content q = files.content q ++ if q = p then lineBytes batch else [] := by
  obtain ⟨path, hpath, hdestination⟩ := Option.bind_eq_some_iff.mp h
  obtain ⟨after, happend, halike, hcontent⟩ :=
    FileTree.append_destination (line batch).toUTF8 hdestination
  refine ⟨after, ?_, halike, hcontent⟩
  rw [publish, PluginConfig.requireText, hpath]
  dsimp only
  rw [happend]

/-- A call that writes nowhere fails and leaves the files as they are. -/
theorem publish_none (batch : List Metric) {c : PluginConfig} (h : destination files c = none) :
    ∃ e, publish files batch c = (.error e, files) := by
  cases hpath : c.getText fileKey with
  | none => exact ⟨_, publish_missing files batch hpath⟩
  | some path =>
    rw [destination, hpath, Option.bind_some] at h
    obtain ⟨e, happend⟩ := FileTree.append_none (line batch).toUTF8 h
    refine ⟨.io e, ?_⟩
    rw [publish, PluginConfig.requireText, hpath]
    dsimp only
    rw [happend]

theorem destination_alike {after : FileTree} (h : FileTree.Alike files after) :
    destination files = destination after := by
  funext c
  rw [destination, destination]
  congr 1
  funext path
  exact FileTree.destination_alike h path

theorem written_alike {after : FileTree} (h : FileTree.Alike files after) (calls : List Call)
    (p : FilePath) : written files calls p = written after calls p := by
  rw [written, written, destination_alike h]

theorem publish_step (files : FileTree) (call : Call) :
    FileTree.Alike files (publish files call.batch call.config).2 ∧
      (publish files call.batch call.config).1.isOk = (destination files call.config).isSome ∧
      ∀ p, (publish files call.batch call.config).2.content p =
        files.content p ++ (written files [call] p).flatMap lineBytes := by
  cases hdestination : destination files call.config with
  | none =>
    obtain ⟨e, hpublish⟩ := publish_none call.batch hdestination
    rw [hpublish]
    refine ⟨.refl files, rfl, fun p => ?_⟩
    simp [written, hdestination]
  | some q =>
    obtain ⟨after, hpublish, halike, hcontent⟩ := publish_destination call.batch hdestination
    rw [hpublish]
    refine ⟨halike, rfl, fun p => ?_⟩
    rw [hcontent]
    by_cases hp : p = q
    · simp [written, hdestination, hp]
    · simp [written, hdestination, hp, Ne.symm hp]

theorem written_cons (files : FileTree) (call : Call) (calls : List Call) (p : FilePath) :
    written files (call :: calls) p = written files [call] p ++ written files calls p := by
  rw [written, written, written, ← List.map_append, ← List.filter_append]
  rfl

/-- What a run of calls does: the calls that can write have succeeded, and
every file has grown by the lines of those that write to it. -/
theorem publishAll_spec (files : FileTree) (calls : List Call) :
    (publishAll files calls).1.map Except.isOk =
        calls.map (fun call => (destination files call.config).isSome) ∧
      ∀ p, (publishAll files calls).2.content p =
        files.content p ++ (written files calls p).flatMap lineBytes := by
  induction calls generalizing files with
  | nil => exact ⟨rfl, fun p => (List.append_nil _).symm⟩
  | cons call calls ih =>
    obtain ⟨halike, hok, hcontent⟩ := publish_step files call
    obtain ⟨hrest, hafter⟩ := ih (publish files call.batch call.config).2
    rw [← destination_alike halike] at hrest
    constructor
    · rw [publishAll, List.map_cons, List.map_cons, hok, hrest]
    · intro p
      rw [publishAll, hafter, hcontent, ← written_alike halike, written_cons files call calls,
        List.flatMap_append, List.append_assoc]

/-- What the files of a sink hold after any calls. -/
structure Framed (files : FileTree) (calls : List Call) : Prop where
  /-- A call succeeds when its configuration names a file that can be written. -/
  answers : (publishAll files calls).1.map Except.isOk =
    calls.map fun call => (destination files call.config).isSome
  /-- A file grows by one line for each call that writes to it, in their order. -/
  contents : ∀ p, (publishAll files calls).2.content p =
    files.content p ++ (written files calls p).flatMap lineBytes
  /-- A line ends where its batch does, and is the array of its records in any
  reading of numbers. -/
  lines : ∀ batch, ∃ text, lineBytes batch = text ++ [newline] ∧ newline ∉ text ∧
    readLine exactValue text = some (.array (batch.map record)) ∧
    ∀ read, readLine read text = some (.array (batch.map fun m => (recordJson m).reread read))
  /-- What was appended falls apart into the batches. -/
  recovered : ∀ p, (cut ((written files calls p).flatMap lineBytes)).map (readLine exactValue) =
    (written files calls p).map fun batch => some (.array (batch.map record))
  /-- Without a text under the key of the file nothing is written. -/
  missing : ∀ batch c, PluginConfig.getText c fileKey = none →
    publish files batch c = (.error (.missingConfig fileKey), files)

theorem record_read (batch : List Metric) :
    readLine exactValue (body batch) = some (.array (batch.map record)) := by
  rw [readLine_body]
  simp only [record_reread]

/-- Batches are framed by lines, whatever their metrics hold. -/
theorem publishAll_framed (files : FileTree) (calls : List Call) : Framed files calls where
  answers := (publishAll_spec files calls).1
  contents := (publishAll_spec files calls).2
  lines batch := ⟨body batch, lineBytes_eq batch, newline_notMem_body batch, record_read batch,
    fun read => readLine_body read batch⟩
  recovered p := by
    rw [cut_lines, List.map_map]
    exact List.map_congr_left fun batch _ => record_read batch
  missing batch _ h := publish_missing files batch h

end Telemetry.FileSink
