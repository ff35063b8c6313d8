import Telemetry.Proofs.DocumentReading
import Telemetry.Metric.Document

/-!
# Metrics read back from their documents

A metric is read back from its text as it was written: the elements of its
namespace with the fields they leave out, the kind of its value, its tags, unit
and version. Only a value that documents cannot hold, an infinite double or
one that is no number, comes back as null. How exactly doubles and points
in time are spelled is not looked at here: for those of the metric it is taken
that their own texts read back.
-/

set_option autoImplicit false

namespace Telemetry.MetricDocuments

open Json (Number reread rereadElements rereadMembers)
open WrittenNumbers

theorem value_ofInt {n : ℤ} (hlow : -(Word.half64 : ℤ) ≤ n) (hhigh : n < Word.count64) :
    Number.value (ofInt n) = .int n := by
  unfold Number.value
  rw [ofInt_whole, ofInt_isInteger, ofInt_negative]
  by_cases h : n < 0
  · have hpos : 0 < n.natAbs := by omega
    have hfits : n.natAbs ≤ Word.half64 := by omega
    have hback : -(n.natAbs : ℤ) = n := by omega
    dsimp only
    rw [if_neg (by simp [h]), if_pos (by simp [h, hpos, hfits]), hback]
  · have hfits : n.natAbs < Word.count64 := by omega
    have hback : (n.natAbs : ℤ) = n := by omega
    dsimp only
    rw [if_pos (by simp [h, hfits]), hback]

/-- A written double is read as a double or not at all, also a whole one. -/
theorem value_ofFloat (x : Float) :
    Number.value (ofFloat x) = .unreadable ∨ ∃ y, Number.value (ofFloat x) = .float y := by
  unfold Number.value
  rw [ofFloat_fractional]
  simp only [Bool.false_and, Bool.false_eq_true, if_false]
  split
  · exact .inr ⟨_, rfl⟩
  · exact .inl rfl

theorem value_ofFloat_eq {x : Float} (hx : x.isFinite = true)
    (h : (Json.parse (Json.float x).text).bind Json.asFloat = some x) :
    Number.value (ofFloat x) = .float x := by
  unfold Json.parse at h
  rw [Json.parseWith_text, reread, if_pos hx, Option.bind_some] at h
  rcases value_ofFloat x with hnone | ⟨y, hy⟩
  · rw [hnone] at h
    cases h
  · rw [hy] at h ⊢
    cases h
    rfl

/-- An element is read as it was, its description left out or not, and
dynamic exactly when it was. -/
theorem element_reread (e : Namespace.Element) :
    Namespace.Element.ofJson (e.toJson.reread Number.value) = some e := by
  obtain ⟨v, description, placeholder⟩ := e
  unfold Namespace.Element.toJson
  by_cases h : description = ""
  · subst h
    cases placeholder <;> rfl
  · rw [if_neg h]
    cases placeholder <;> rfl

theorem elements_reread (es : List Namespace.Element) :
    Json.readAll Namespace.Element.ofJson
      (rereadElements Number.value (es.map Namespace.Element.toJson)) = some es := by
  induction es with
  | nil => rfl
  | cons e es ih => rw [List.map_cons, rereadElements, Json.readAll, element_reread, ih]

theorem namespace_reread (ns : Namespace) :
    Namespace.ofJson (ns.toJson.reread Number.value) = some ns := by
  unfold Namespace.toJson Namespace.ofJson
  rw [reread, Json.asList, elements_reread, Option.map_some]

theorem readMembers_texts (l : List (String × String)) :
    Json.readMembers Json.asString (l.map fun (k, v) => (k, .string v)) = some l := by
  induction l with
  | nil => rfl
  | cons e l ih => rw [List.map_cons, Json.readMembers, ih, Json.asString]

theorem tags_reread (tags : Tags) :
    Json.asDict Json.asString ((Metric.tagsToJson tags).reread Number.value) = some tags := by
  unfold Metric.tagsToJson
  rw [reread, Json.rereadMembers_texts, Json.asDict, readMembers_texts, Option.map_some,
    Dict.ofList_toList]

def lost : Metric.Value → Bool
  | .float x => !x.isFinite
  | _ => false

def Spelled (v : Metric.Value) : Prop :=
  ∀ x, v = .float x → x.isFinite = true →
    (Json.parse (Json.float x).text).bind Json.asFloat = some x

theorem value_reread {v : Metric.Value} (h : Spelled v) :
    Metric.Value.ofJson (v.toJson.reread Number.value) =
      some (if lost v then .null else v) := by
  cases v with
  | null => rfl
  | int n =>
    have hlow : -(Word.half64 : ℤ) ≤ n.toInt := Int64.le_toInt n
    have hhigh : n.toInt < (Word.half64 : ℤ) := Int64.toInt_lt n
    rw [Metric.Value.toJson, reread, value_ofInt hlow (Int.lt_trans hhigh (by decide)),
      Metric.Value.ofJson, if_pos ⟨hlow, hhigh⟩, Int64.ofInt_toInt]
    rfl
  | float x =>
    rw [Metric.Value.toJson, reread, lost]
    by_cases hx : x.isFinite = true
    · rw [if_pos hx, value_ofFloat_eq hx (h x rfl hx), hx]
      rfl
    · rw [if_neg hx, Bool.eq_false_iff.mpr hx]
      rfl
  | text s => rfl

variable {m : Metric}

theorem version_reread (h : m.version < Word.count32) :
    Json.asWord32 ((Json.int m.version).reread Number.value) = some m.version := by
  have hcount : (Word.count32 : ℤ) ≤ Word.count64 := by decide
  rw [reread, value_ofInt (by omega) (by omega), Json.asWord32, Json.asNatBelow,
    if_pos ⟨by omega, by omega⟩, Int.toNat_natCast]

def record (m : Metric) : Json.Record :=
  ⟨false, [
    ("namespace", m.ns.toJson.reread Number.value),
    ("timestamp", .string m.timestamp.text),
    ("data", m.value.toJson.reread Number.value),
    ("tags", (Metric.tagsToJson m.tags).reread Number.value),
    ("unit", .string m.unit),
    ("version", (Json.int m.version).reread Number.value)]⟩

theorem asRecord_metric (m : Metric) :
    (m.toJson.reread Number.value).asRecord
      ["namespace", "timestamp", "data", "tags", "unit", "version"] = some (record m) := rfl

/-- Every metric is read back from its own text, one that cannot be written
with null for its value. -/
theorem metric_restored (m : Metric)
    (htime : Timestamp.parse m.timestamp.text = some m.timestamp)
    (hvalue : Spelled m.value) (hversion : m.version < Word.count32) :
    (Json.parse m.toJson.text).bind Metric.ofJson =
      some (if lost m.value then { m with value := .null } else m) := by
  have hread : Json.parse m.toJson.text = some (m.toJson.reread Number.value) :=
    Json.parseWith_text Number.value m.toJson
  have hns : (record m).required "namespace" Namespace.ofJson = some m.ns :=
    namespace_reread m.ns
  have hstamp : (record m).get? "timestamp" = some (.string m.timestamp.text) := rfl
  have htimestamp : (record m).required "timestamp" Metric.readTimestamp = some m.timestamp := by
    rw [Json.Record.required, hstamp, Option.bind_some, Metric.readTimestamp, Json.asString,
      Option.bind_some, htime]
  have hdata : (record m).required "data" Metric.Value.ofJson =
      some (if lost m.value then .null else m.value) := value_reread hvalue
  have htags : (record m).withDefault "tags" ∅ (Json.asDict Json.asString) = some m.tags :=
    tags_reread m.tags
  have hunit : (record m).withDefault "unit" "" Json.asString = some m.unit := rfl
  have hversion : (record m).withDefault "version" 0 Json.asWord32 = some m.version :=
    version_reread hversion
  rw [hread, Option.bind_some, Metric.ofJson, asRecord_metric]
  simp only [Option.bind_eq_bind, Option.bind_some, hns, htimestamp, hdata, htags, hunit, hversion]
  split <;> rfl

def usage : Metric where
  ns := ⟨[.literal "cpu", .dynamic "" "one processor", .literal "90"]⟩
  timestamp := ⟨1704067200, 500000000⟩
  value := .float (Decimal.ofNat 90)
  tags := (∅ : Tags).insert "node" "a \"b\"\n"
  unit := "%"
  version := 1

theorem metric_restored_usage :
    Timestamp.parse usage.timestamp.text = some usage.timestamp ∧ Spelled usage.value ∧
      usage.version < Word.count32 ∧ lost usage.value = false ∧
      (Json.parse usage.toJson.text).bind Metric.ofJson = some usage := by
  have htime : Timestamp.parse usage.timestamp.text = some usage.timestamp := by decide +kernel
  have hvalue : Spelled usage.value := by
    intro x hx _
    cases hx
    decide +kernel
  have hversion : usage.version < Word.count32 := by decide
  have hkept : lost usage.value = false := by decide +kernel
  refine ⟨htime, hvalue, hversion, hkept, ?_⟩
  rw [metric_restored usage htime hvalue hversion, hkept]
  rfl

end Telemetry.MetricDocuments
