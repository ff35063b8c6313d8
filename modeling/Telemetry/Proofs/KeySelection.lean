import Mathlib.Data.List.DropRight
import Telemetry.Proofs.PatternPieces
import Telemetry.Selection

/-!
# Which names a key selects

A key without operators is held against a name in three ways: as the whole
name, as a start of it and as a continuation of it, and the last two trim the
separators of the two texts differently. Together they ask only that the two
agree at every place where both have a segment: whichever has fewer segments
between its outer separators is a start of the other one.
-/

set_option autoImplicit false

namespace Telemetry.KeySelection

open Pattern PatternTables PatternPieces

def trimmed (text : List Char) : List Char :=
  Text.trimRight '/' (Text.trimLeft '/' text)

def innerSegments (text : List Char) : List (List Char) :=
  if trimmed text = [] then [] else Text.split '/' (trimmed text)

def AgreeInCommon (a b : List (List Char)) : Prop :=
  ∀ (i : Nat) (x y : List Char), a[i]? = some x → b[i]? = some y →
    x = y ∨ x = dynamicValue ∨ y = dynamicValue

theorem agreeInCommon_nil_left (b : List (List Char)) : AgreeInCommon [] b := by
  intro i x y hx
  cases hx

theorem agreeInCommon_self (a : List (List Char)) : AgreeInCommon a a := by
  intro i x y hx hy
  rw [hx] at hy
  exact Or.inl (Option.some.inj hy)

theorem agreeInCommon_symm {a b : List (List Char)} (h : AgreeInCommon a b) :
    AgreeInCommon b a := by
  intro i x y hx hy
  rcases h i y x hy hx with he | hd | hd
  · exact Or.inl he.symm
  · exact Or.inr (Or.inr hd)
  · exact Or.inr (Or.inl hd)

theorem agreeInCommon_cons (x y : List Char) (a b : List (List Char)) :
    AgreeInCommon (x :: a) (y :: b) ↔
      (x = y ∨ x = dynamicValue ∨ y = dynamicValue) ∧ AgreeInCommon a b := by
  constructor
  · intro h
    exact ⟨h 0 x y rfl rfl, fun i => h (i + 1)⟩
  · rintro ⟨hhead, hrest⟩ i v w hv hw
    cases i with
    | zero =>
      cases hv
      cases hw
      exact hhead
    | succ i => exact hrest i v w hv hw

theorem agreeInCommon_of_append {a b : List (List Char)} {extra : List (List Char)}
    (h : AgreeInCommon (a ++ extra) b) : AgreeInCommon a b := by
  intro i x y hx
  have hi : i < a.length := (List.getElem?_eq_some_iff.mp hx).1
  exact h i x y ((List.getElem?_append_left hi).trans hx)

theorem agreeInCommon_append {a b : List (List Char)} (hlen : b.length ≤ a.length)
    (h : AgreeInCommon a b) (extra : List (List Char)) : AgreeInCommon (a ++ extra) b := by
  intro i x y hx hy
  have hi : i < b.length := (List.getElem?_eq_some_iff.mp hy).1
  rw [List.getElem?_append_left (Nat.lt_of_lt_of_le hi hlen)] at hx
  exact h i x y hx hy

theorem agreeInCommon_set {a b : List (List Char)} (h : AgreeInCommon a b) (i : Nat) :
    AgreeInCommon a (b.set i dynamicValue) := by
  intro j x y hx hy
  rw [List.getElem?_set] at hy
  by_cases hij : i = j
  · rw [if_pos hij] at hy
    split at hy
    · exact Or.inr (Or.inr (Option.some.inj hy).symm)
    · cases hy
  · rw [if_neg hij] at hy
    exact h j x y hx hy

/-- To agree along a list is to be as long and to agree in common. -/
theorem agreeAlong_iff (actual expected : List (List Char)) :
    agreeAlong actual expected = true ↔
      expected.length ≤ actual.length ∧ AgreeInCommon actual expected := by
  fun_induction agreeAlong actual expected with
  | case1 actual =>
    simp [agreeInCommon_symm (agreeInCommon_nil_left actual)]
  | case2 => simp
  | case3 a actual e expected ih =>
    rw [Bool.and_eq_true, ih, agreeInCommon_cons, List.length_cons, List.length_cons,
      Nat.succ_le_succ_iff]
    simp only [segmentsAgree, Bool.or_eq_true, beq_iff_eq, or_assoc]
    tauto

theorem trimmed_trimLeft (text : List Char) : trimmed (Text.trimLeft '/' text) = trimmed text := by
  rw [trimmed, Text.trimLeft_trimLeft, trimmed]

theorem trimmed_eq_nil (text : List Char) : trimmed text = [] ↔ Text.trimLeft '/' text = [] := by
  constructor
  · intro h
    obtain ⟨n, hn⟩ := Text.exists_trimRight '/' (Text.trimLeft '/' text)
    rw [← trimmed, h, List.nil_append] at hn
    have hall := Text.trimLeft_replicate '/' n []
    rw [List.append_nil, ← hn, Text.trimLeft_trimLeft] at hall
    exact hall
  · intro h
    rw [trimmed, h]
    rfl

theorem innerSegments_trimLeft (text : List Char) :
    innerSegments (Text.trimLeft '/' text) = innerSegments text := by
  rw [innerSegments, trimmed_trimLeft, innerSegments]

/-- Trimming on the left alone leaves empty segments at the end. -/
theorem segments_inner {text : List Char} (h : trimmed text ≠ []) :
    ∃ n, segments text = innerSegments text ++ List.replicate n [] := by
  obtain ⟨n, hn⟩ := Text.exists_trimRight '/' (Text.trimLeft '/' text)
  rw [← trimmed] at hn
  refine ⟨n, ?_⟩
  rw [segments, hn, Text.split_trailing, innerSegments, if_neg h]

def Padded (text longer : String) : Prop :=
  ∃ m n, longer.toList = List.replicate m '/' ++ text.toList ++ List.replicate n '/'

theorem trimmed_padded {text longer : String} (h : Padded text longer) :
    trimmed longer.toList = trimmed text.toList := by
  obtain ⟨m, n, hlonger⟩ := h
  have hleft : Text.trimLeft '/' longer.toList =
      Text.trimLeft '/' (text.toList ++ List.replicate n '/') := by
    rw [hlonger, List.append_assoc, Text.trimLeft_replicate]
  by_cases hempty : Text.trimLeft '/' text.toList = []
  · have hall := Text.trimLeft_replicate '/' n []
    rw [List.append_nil] at hall
    have hnone : Text.trimLeft '/' longer.toList = [] := by
      rw [hleft, Text.trimLeft, List.dropWhile_append, ← Text.trimLeft, hempty]
      exact hall
    rw [(trimmed_eq_nil _).mpr hnone, (trimmed_eq_nil _).mpr hempty]
  · have hfront : Text.trimLeft '/' longer.toList =
        Text.trimLeft '/' text.toList ++ List.replicate n '/' := by
      rw [hleft, Text.trimLeft, List.dropWhile_append, ← Text.trimLeft,
        if_neg (by simpa using hempty)]
    rw [trimmed, hfront, Text.trimRight_replicate, trimmed]

theorem innerSegments_padded {text longer : String} (h : Padded text longer) :
    innerSegments longer.toList = innerSegments text.toList := by
  rw [innerSegments, trimmed_padded h, innerSegments]

theorem beginsWith_iff (name start : List Char) :
    beginsWith name start = true ↔
      trimmed start = [] ∨
        (innerSegments start).length ≤ (segments name).length ∧
          AgreeInCommon (segments name) (innerSegments start) := by
  unfold beginsWith innerSegments
  rw [← trimmed]
  by_cases h : trimmed start = []
  · simp [h]
  · simp only [h, false_or]
    exact agreeAlong_iff _ _

theorem beginsWith_agree {name start : List Char} (h : beginsWith name start = true) :
    AgreeInCommon (innerSegments name) (innerSegments start) := by
  by_cases hname : trimmed name = []
  · have hnone : innerSegments name = [] := if_pos hname
    rw [hnone]
    exact agreeInCommon_nil_left _
  · rcases (beginsWith_iff name start).mp h with hstart | ⟨-, hagree⟩
    · have hnone : innerSegments start = [] := if_pos hstart
      rw [hnone]
      exact agreeInCommon_symm (agreeInCommon_nil_left _)
    · obtain ⟨n, hn⟩ := segments_inner hname
      rw [hn] at hagree
      exact agreeInCommon_of_append hagree

theorem beginsWith_of_agree {name start : List Char} (hname : trimmed name ≠ [])
    (hlen : (innerSegments start).length ≤ (innerSegments name).length)
    (h : AgreeInCommon (innerSegments name) (innerSegments start)) :
    beginsWith name start = true := by
  obtain ⟨n, hn⟩ := segments_inner hname
  rw [beginsWith_iff, hn, List.length_append]
  exact Or.inr ⟨Nat.le_add_right_of_le hlen, agreeInCommon_append hlen h _⟩

/-- One of two texts starts the other just when they agree in common. -/
theorem begins_or_iff {key : List Char} (hkey : trimmed key ≠ []) (name : List Char) :
    (beginsWith name key || beginsWith key name) = true ↔
      AgreeInCommon (innerSegments key) (innerSegments name) := by
  rw [Bool.or_eq_true]
  constructor
  · rintro (h | h)
    · exact agreeInCommon_symm (beginsWith_agree h)
    · exact beginsWith_agree h
  · intro h
    by_cases hname : trimmed name = []
    · exact Or.inr ((beginsWith_iff key name).mpr (Or.inl hname))
    · -- the text with fewer segments starts the other one
      rcases Nat.le_total (innerSegments key).length (innerSegments name).length with hlen | hlen
      · exact Or.inl (beginsWith_of_agree hname hlen (agreeInCommon_symm h))
      · exact Or.inr (beginsWith_of_agree hkey hlen h)

theorem cut_literal {raw : List Char} (h : isGlob raw = false) :
    Cut SpellsItem raw (raw.map fun c => .atom (.char c)) := by
  induction raw with
  | nil => exact .nil
  | cons c raw ih =>
    rw [isGlob, List.any_cons, Bool.or_eq_false_iff, isOperator] at h
    have hc : c ∉ ['*', '?', '\\', '[', '{'] := by
      simp only [Bool.or_eq_false_iff, beq_eq_false_iff_ne] at h
      simp [h.1]
    exact .cons (.atom (.other hc)) (ih h.2)

theorem accepts_chars (raw cs : List Char) :
    accepts (raw.map fun c => .atom (.char c)) cs = true ↔ cs = raw := by
  rw [accepts_iff]
  induction raw generalizing cs with
  | nil => exact Iff.rfl
  | cons c raw ih =>
    rw [List.map_cons, itemsLanguage, List.map_cons, List.prod_cons]
    cases cs with
    | nil =>
      constructor
      · intro hm
        exact absurd hm (nil_mem_single_mul _ _)
      · intro hm
        cases hm
    | cons d cs =>
      rw [itemLanguage, atomLanguage, cons_mem_single_mul, beq_iff_eq, List.cons.injEq]
      exact and_congr_right fun _ => ih cs

theorem isGlob_trimLeft (text : List Char) : isGlob (Text.trimLeft '/' text) = isGlob text :=
  Text.trimLeft_invariant (fun _ => rfl) text

theorem literal_segment {text part : List Char} {i : Nat} (h : isGlob text = false)
    (hpart : (innerSegments text)[i]? = some part) : part ≠ dynamicValue := by
  rintro rfl
  have hmem := List.mem_of_getElem? hpart
  unfold innerSegments at hmem
  split at hmem
  · cases hmem
  · have hstar : '*' ∈ trimmed text := by
      rw [← Text.join_split '/' (trimmed text)]
      exact Text.mem_join hmem List.mem_cons_self
    obtain ⟨n, hn⟩ := Text.exists_trimRight '/' (Text.trimLeft '/' text)
    rw [← isGlob_trimLeft, hn, ← trimmed, isGlob, List.any_append, Bool.or_eq_false_iff] at h
    exact absurd rfl (List.any_eq_false.mp h.1 '*' hstar)

/-- A key without operators that is within the limit compiles unless it is all
separators. -/
theorem compile_literal [SizeLimit] {key : String} (hglob : isGlob key.toList = false)
    (hkey : trimmed key.toList ≠ [])
    (hlimit : SizeLimit.exceeds (Text.trimLeft '/' key.toList) = false) :
    Pattern.compile key = .ok ⟨Text.trimLeft '/' key.toList,
      (Text.trimLeft '/' key.toList).map fun c => .atom (.char c)⟩ := by
  rw [← isGlob_trimLeft] at hglob
  rw [Ne, trimmed_eq_nil] at hkey
  rw [compile_iff]
  refine ⟨rfl, hkey, cut_literal hglob, ?_, hlimit⟩
  simp [Item.ordered, Atom.ordered]

section Keys

variable [SizeLimit] {key : String} {p : Pattern}

theorem compile_trimmed (hp : Pattern.compile key = .ok p) :
    p.raw = Text.trimLeft '/' key.toList ∧ trimmed key.toList ≠ [] ∧
      p.isLiteral = !isGlob key.toList ∧
      SizeLimit.exceeds (Text.trimLeft '/' key.toList) = false := by
  obtain ⟨hraw, hne, -, -, hlimit⟩ := (compile_iff key p).mp hp
  refine ⟨hraw, ?_, ?_, hraw ▸ hlimit⟩
  · rwa [Ne, trimmed_eq_nil, ← hraw]
  · rw [isLiteral, hraw, isGlob_trimLeft]

theorem matchesName_literal (hp : Pattern.compile key = .ok p)
    (hglob : isGlob key.toList = false) (name : String) :
    p.matchesName name = true ↔
      Text.trimLeft '/' name.toList = Text.trimLeft '/' key.toList := by
  obtain ⟨-, hkey, -, hlimit⟩ := compile_trimmed hp
  rw [compile_literal hglob hkey hlimit] at hp
  cases hp
  exact accepts_chars _ _

def Chooses (key name : String) : Prop :=
  (isGlob key.toList = true ∧ ∃ p, Pattern.compile key = .ok p ∧ p.matchesName name = true) ∨
  (isGlob key.toList = false ∧
    AgreeInCommon (innerSegments key.toList) (innerSegments name.toList))

theorem chooses_literal (hglob : isGlob key.toList = false) (name : String) :
    Chooses key name ↔ AgreeInCommon (innerSegments key.toList) (innerSegments name.toList) := by
  simp [Chooses, hglob]

theorem selectedBy_iff (hp : Pattern.compile key = .ok p) (name : String) :
    Selection.selectedBy name p = true ↔ Chooses key name := by
  obtain ⟨hraw, hkey, hliteral, -⟩ := compile_trimmed hp
  unfold Selection.selectedBy Chooses
  rw [hliteral]
  cases hglob : isGlob key.toList with
  | true => simp [hp]
  | false =>
    have hinner : innerSegments p.raw = innerSegments key.toList := by
      rw [hraw, innerSegments_trimLeft]
    have hbegins := begins_or_iff (hraw ▸ (trimmed_trimLeft _).symm ▸ hkey) name.toList
    simp only [Bool.not_false, Bool.true_and, Bool.false_eq_true, false_and, true_and, false_or]
    rw [Bool.or_eq_true, hbegins, hinner, matchesName_literal hp hglob]
    constructor
    · rintro (hsame | hagree)
      · rw [← innerSegments_trimLeft key.toList, ← hsame, innerSegments_trimLeft]
        exact agreeInCommon_self _
      · exact hagree
    · exact Or.inr

end Keys

def CompiledKeys [SizeLimit] (keys : List String) (ps : List Pattern) : Prop :=
  List.Forall₂ (fun key p => Pattern.compile key = .ok p) keys ps

theorem compileAll_ok [SizeLimit] {keys : List String} {ps : List Pattern}
    (h : Pattern.compileAll keys = .ok ps) : CompiledKeys keys ps := by
  induction keys generalizing ps with
  | nil =>
    cases h
    exact .nil
  | cons key keys ih =>
    unfold Pattern.compileAll at h
    split at h
    · cases h
    split at h
    · cases h
    · rename_i q hq _ qs hqs
      cases h
      exact .cons hq (ih hqs)

theorem ofKeys_ok [SizeLimit] {keys : List String} {s : Selection}
    (h : Selection.ofKeys keys = .ok s) : CompiledKeys keys s.patterns := by
  unfold Selection.ofKeys at h
  cases hps : Pattern.compileAll keys with
  | error e =>
    rw [hps] at h
    cases h
  | ok ps =>
    rw [hps] at h
    cases h
    exact compileAll_ok hps

theorem exists_mem_right {α β : Type} {r : α → β → Prop} {xs : List α} {ys : List β}
    (h : List.Forall₂ r xs ys) {x : α} (hx : x ∈ xs) : ∃ y ∈ ys, r x y := by
  induction h with
  | nil => cases hx
  | @cons first y xs ys hfirst _ ih =>
    rcases List.mem_cons.mp hx with rfl | hx
    · exact ⟨y, List.mem_cons_self, hfirst⟩
    · obtain ⟨z, hz, hr⟩ := ih hx
      exact ⟨z, List.mem_cons_of_mem y hz, hr⟩

theorem compiledKeys_key [SizeLimit] {keys : List String} {ps : List Pattern}
    (h : CompiledKeys keys ps) {key : String} (hkey : key ∈ keys) :
    ∃ p ∈ ps, Pattern.compile key = .ok p :=
  exists_mem_right h hkey

theorem compiledKeys_pattern [SizeLimit] {keys : List String} {ps : List Pattern}
    (h : CompiledKeys keys ps) {p : Pattern} (hp : p ∈ ps) :
    ∃ key ∈ keys, Pattern.compile key = .ok p :=
  exists_mem_right h.flip hp

theorem isSelected_iff [SizeLimit] {keys : List String} {s : Selection}
    (h : Selection.ofKeys keys = .ok s) (name : String) :
    s.isSelected name = true ↔ ∃ key ∈ keys, Chooses key name := by
  have hkeys := ofKeys_ok h
  rw [Selection.isSelected, List.any_eq_true]
  constructor
  · rintro ⟨p, hp, hsel⟩
    obtain ⟨key, hkey, hcompile⟩ := compiledKeys_pattern hkeys hp
    exact ⟨key, hkey, (selectedBy_iff hcompile name).mp hsel⟩
  · rintro ⟨key, hkey, hchooses⟩
    obtain ⟨p, hp, hcompile⟩ := compiledKeys_key hkeys hkey
    exact ⟨p, hp, (selectedBy_iff hcompile name).mpr hchooses⟩

theorem ofKeys_literal [SizeLimit] {key : String} (hglob : isGlob key.toList = false)
    (hkey : trimmed key.toList ≠ [])
    (hlimit : SizeLimit.exceeds (Text.trimLeft '/' key.toList) = false) :
    ∃ s, Selection.ofKeys [key] = .ok s := by
  unfold Selection.ofKeys Pattern.compileAll
  rw [compile_literal hglob hkey hlimit]
  exact ⟨_, rfl⟩

theorem isGlob_padded {key longer : String} (h : Padded key longer) :
    isGlob longer.toList = isGlob key.toList := by
  obtain ⟨m, n, hlonger⟩ := h
  have hnone : ∀ n, isGlob (List.replicate n '/') = false := by
    intro n
    rw [isGlob, List.any_replicate]
    split <;> rfl
  rw [hlonger, isGlob, List.any_append, List.any_append, ← isGlob, ← isGlob, ← isGlob, hnone,
    hnone, Bool.false_or, Bool.or_false]

section Alone

variable [SizeLimit] {key : String} {s : Selection}

theorem isSelected_literal (hglob : isGlob key.toList = false)
    (hs : Selection.ofKeys [key] = .ok s) (name : String) :
    s.isSelected name = true ↔
      AgreeInCommon (innerSegments key.toList) (innerSegments name.toList) := by
  rw [isSelected_iff hs, ← chooses_literal hglob]
  simp

theorem isSelected_part (hglob : isGlob key.toList = false)
    (hs : Selection.ofKeys [key] = .ok s) {name : String} {i : Nat} {part whole : List Char}
    (hpart : (innerSegments key.toList)[i]? = some part)
    (hwhole : (innerSegments name.toList)[i]? = some whole) (hdiff : part ≠ whole)
    (hwild : whole ≠ dynamicValue) : s.isSelected name = false := by
  rw [Bool.eq_false_iff, Ne, isSelected_literal hglob hs]
  intro hagree
  rcases hagree i part whole hpart hwhole with he | hd | hd
  · exact hdiff he
  · exact literal_segment hglob hpart hd
  · exact hwild hd

theorem ofKeys_padded (hglob : isGlob key.toList = false) (hkey : trimmed key.toList ≠ [])
    {key' : String} (hk : Padded key key')
    (hlimit : SizeLimit.exceeds (Text.trimLeft '/' key'.toList) = false) :
    ∃ s', Selection.ofKeys [key'] = .ok s' :=
  ofKeys_literal ((isGlob_padded hk).trans hglob) (by rwa [trimmed_padded hk]) hlimit

/-- Outer separators do not matter to a literal key. -/
theorem isSelected_padded (hglob : isGlob key.toList = false)
    (hs : Selection.ofKeys [key] = .ok s) {name key' name' : String} (hk : Padded key key')
    {s' : Selection} (hs' : Selection.ofKeys [key'] = .ok s') (hn : Padded name name') :
    s'.isSelected name' = s.isSelected name := by
  have hglob' : isGlob key'.toList = false := (isGlob_padded hk).trans hglob
  rw [Bool.eq_iff_iff, isSelected_literal hglob hs, isSelected_literal hglob' hs',
    innerSegments_padded hk, innerSegments_padded hn]

end Alone

/-- A name is selected when a glob key matches it or a literal key agrees with
it wherever both have a segment. So a literal key alone does not select by a
part of a segment, and does not look at outer separators; and more keys select
more. -/
theorem selection_law [SizeLimit] {keys : List String} {s : Selection}
    (hs : Selection.ofKeys keys = .ok s) (name : String) :
    (s.isSelected name = true ↔ ∃ key ∈ keys, Chooses key name) ∧
    (∀ key ∈ keys, isGlob key.toList = false →
      ∃ alone, Selection.ofKeys [key] = .ok alone ∧
        (∀ (i : Nat) (part whole : List Char), (innerSegments key.toList)[i]? = some part →
          (innerSegments name.toList)[i]? = some whole → part ≠ whole → whole ≠ dynamicValue →
            alone.isSelected name = false) ∧
        (∀ key' name', Padded key key' → Padded name name' →
          (SizeLimit.exceeds (Text.trimLeft '/' key'.toList) = false →
            ∃ alone', Selection.ofKeys [key'] = .ok alone') ∧
          ∀ alone', Selection.ofKeys [key'] = .ok alone' →
            alone'.isSelected name' = alone.isSelected name)) ∧
    (∀ more t, Selection.ofKeys more = .ok t → keys ⊆ more → s.isSelected name = true →
      t.isSelected name = true) := by
  have hlaw := isSelected_iff hs name
  refine ⟨hlaw, fun key hkey hglob => ?_, fun more t ht hsub hsel => ?_⟩
  · obtain ⟨p, -, hp⟩ := compiledKeys_key (ofKeys_ok hs) hkey
    obtain ⟨-, hne, -, hlimit⟩ := compile_trimmed hp
    obtain ⟨alone, halone⟩ := ofKeys_literal hglob hne hlimit
    refine ⟨alone, halone, ?_, ?_⟩
    · intro i part whole hpart hwhole hdiff hwild
      exact isSelected_part hglob halone hpart hwhole hdiff hwild
    · intro key' name' hkey' hname'
      refine ⟨ofKeys_padded hglob hne hkey', fun alone' halone' => ?_⟩
      exact isSelected_padded hglob halone hkey' halone' hname'
  · obtain ⟨key, hkey, hchooses⟩ := hlaw.mp hsel
    exact (isSelected_iff ht name).mpr ⟨key, hsub hkey, hchooses⟩

example : AgreeInCommon (innerSegments "/cpu/cpu0/".toList)
    (innerSegments "cpu/*/user".toList) := by
  have hkey : innerSegments "/cpu/cpu0/".toList = ["cpu".toList, "cpu0".toList] := by decide
  have hname : innerSegments "cpu/*/user".toList =
      ["cpu".toList, dynamicValue, "user".toList] := by decide
  rw [hkey, hname, agreeInCommon_cons, agreeInCommon_cons]
  exact ⟨Or.inl rfl, Or.inr (Or.inr rfl), agreeInCommon_nil_left _⟩

def mixedKeys : List String := ["cpu/", "load*"]

def mixedSelection : Selection :=
  ⟨[⟨"cpu/".toList, "cpu/".toList.map fun c => .atom (.char c)⟩,
    ⟨"load*".toList, ("load".toList.map fun c => .atom (.char c)) ++ [.atom .run]⟩]⟩

attribute [local instance] SizeLimit.ofAnys

theorem ofKeys_mixed : Selection.ofKeys mixedKeys = .ok mixedSelection := by
  cbv

theorem selection_law_mixed :
    Selection.ofKeys mixedKeys = .ok mixedSelection ∧
    (mixedSelection.isSelected "cpufreq" = true ↔ ∃ key ∈ mixedKeys, Chooses key "cpufreq") ∧
    ∃ alone, Selection.ofKeys ["cpu/"] = .ok alone ∧ alone.isSelected "cpufreq" = false ∧
      ∃ alone', Selection.ofKeys ["/cpu//"] = .ok alone' ∧
        alone'.isSelected "//cpufreq" = false := by
  obtain ⟨hlaw, hliteral, -⟩ := selection_law ofKeys_mixed "cpufreq"
  obtain ⟨alone, halone, hpart, hpadded⟩ := hliteral "cpu/" (by decide) (by decide)
  have hno := hpart 0 "cpu".toList "cpufreq".toList (by decide) (by decide) (by decide) (by decide)
  obtain ⟨hlimit, hsame⟩ := hpadded "/cpu//" "//cpufreq" ⟨1, 1, by decide⟩ ⟨2, 0, by decide⟩
  obtain ⟨alone', halone'⟩ := hlimit (by decide)
  exact ⟨ofKeys_mixed, hlaw, alone, halone, hno, alone', halone', (hsame _ halone').trans hno⟩

end Telemetry.KeySelection
