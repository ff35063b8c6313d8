import Mathlib.Data.List.Basic
import Telemetry.FileTree

/-!
# Appending to files

Writing after the end of a file leaves every other file and every directory
as it is, so the paths that texts name and the paths that can be written to
stay the same for whatever is written next.
-/

set_option autoImplicit false

namespace Telemetry.FileTree

def content (t : FileTree) (p : FilePath) : List UInt8 :=
  match t.entry? p with
  | some (.file bytes) => bytes.data.toList
  | _ => []

def isDirectory (t : FileTree) (p : FilePath) : Bool :=
  match t.entry? p with
  | some .directory => true
  | _ => false

def writable (t : FileTree) (p : FilePath) : Bool :=
  match t.entry? p with
  | some .directory => false
  | some (.file _) => true
  | none => t.isDirectory p.dropLast

structure Alike (t u : FileTree) : Prop where
  current : t.current = u.current
  directories : ∀ p, t.isDirectory p = u.isDirectory p
  writable : ∀ p, t.writable p = u.writable p

theorem Alike.refl (t : FileTree) : Alike t t :=
  ⟨rfl, fun _ => rfl, fun _ => rfl⟩

theorem lookup_others {p q : FilePath} (h : q ≠ p) (l : List (FilePath × FileEntry)) :
    (l.filter (·.1 != p)).lookup q = l.lookup q := by
  induction l with
  | nil => rfl
  | cons e l ih =>
    by_cases he : e.1 = p
    · have hq : (q == e.1) = false := by simpa [he] using h
      rw [List.filter_cons_of_neg (by simp [he]), ih, List.lookup_cons, hq]
    · rw [List.filter_cons_of_pos (by simp [he]), List.lookup_cons, List.lookup_cons, ih]

theorem lookup_set {t : FileTree} {p : FilePath} {e : FileEntry} (hp : p ≠ []) (q : FilePath) :
    FileTree.entry? (t.set p e) q = if q = p then some e else t.entry? q := by
  cases q with
  | nil =>
    rw [if_neg (Ne.symm hp)]
    rfl
  | cons name rest =>
    show ((p, e) :: t.entries.filter (·.1 != p)).lookup (name :: rest) = _
    rw [List.lookup_cons]
    by_cases h : name :: rest = p
    · rw [if_pos h, h, beq_self_eq_true]
    · have hne : (name :: rest == p) = false := by simpa using h
      rw [if_neg h, hne, lookup_others h]
      rfl

variable {t u : FileTree} {p : FilePath} {bytes : ByteArray}

theorem writable_ne_nil (h : t.writable p = true) : p ≠ [] := by
  intro hp
  subst hp
  cases h

theorem writable_isDirectory (h : t.writable p = true) : t.isDirectory p = false := by
  unfold writable at h
  unfold isDirectory
  split at h
  · cases h
  · rename_i hfile
    rw [hfile]
  · rename_i hnone
    rw [hnone]

/-- A file that is made changes nothing about what can be written. -/
theorem alike_set (h : t.writable p = true) : Alike t (t.set p (.file bytes)) := by
  have hp := writable_ne_nil h
  have hdirectories : ∀ q, t.isDirectory q = (t.set p (.file bytes)).isDirectory q := by
    intro q
    by_cases hq : q = p
    · subst hq
      rw [writable_isDirectory h, isDirectory, lookup_set hp, if_pos rfl]
    · rw [isDirectory, isDirectory, lookup_set hp, if_neg hq]
  refine ⟨rfl, hdirectories, fun q => ?_⟩
  by_cases hq : q = p
  · subst hq
    rw [h, writable, lookup_set hp, if_pos rfl]
  · rw [writable, writable, lookup_set hp, if_neg hq, hdirectories]

theorem content_set (hp : p ≠ []) (q : FilePath) :
    (t.set p (.file bytes)).content q = if q = p then bytes.data.toList else t.content q := by
  rw [content, lookup_set hp]
  by_cases hq : q = p
  · rw [if_pos hq, if_pos hq]
  · rw [if_neg hq, if_neg hq, content]

def next (base : FilePath) (name : String) : FilePath :=
  if name = "" ∨ name = "." then base
  else if name = ".." then base.dropLast
  else base ++ [name]

theorem follow_cons (base : FilePath) (name : String) (rest : List String) :
    t.follow base (name :: rest) = .ok p ↔
      t.isDirectory base = true ∧ t.follow (next base name) rest = .ok p := by
  rw [follow, isDirectory, next]
  cases t.entry? base with
  | none => simp
  | some e =>
    cases e with
    | file content => simp
    | directory =>
      dsimp only
      split
      · simp
      split <;> simp

theorem follow_alike (h : Alike t u) (names : List String) (base : FilePath) :
    t.follow base names = .ok p ↔ u.follow base names = .ok p := by
  induction names generalizing base with
  | nil => rfl
  | cons name rest ih => rw [follow_cons, follow_cons, h.directories, ih]

theorem locate_alike (h : Alike t u) (path : String) :
    t.locate path = .ok p ↔ u.locate path = .ok p := by
  unfold locate
  rw [h.current]
  split
  · rfl
  split
  · rfl
  · exact follow_alike h _ _
  · exact follow_alike h _ _

def destination (t : FileTree) (path : String) : Option FilePath :=
  match t.locate path with
  | .ok p => if t.writable p then some p else none
  | .error _ => none

theorem destination_eq_some {path : String} :
    t.destination path = some p ↔ t.locate path = .ok p ∧ t.writable p = true := by
  unfold destination
  split
  · rename_i q hq
    rw [hq]
    by_cases hw : t.writable q = true
    · rw [if_pos hw]
      constructor
      · intro h
        cases h
        exact ⟨rfl, hw⟩
      · rintro ⟨h, -⟩
        cases h
        rfl
    · rw [if_neg hw]
      constructor
      · intro h
        cases h
      · rintro ⟨h, hp⟩
        cases h
        exact absurd hp hw
  · rename_i e he
    rw [he]
    simp

theorem destination_alike (h : Alike t u) (path : String) :
    t.destination path = u.destination path := by
  apply Option.ext
  intro p
  show t.destination path = some p ↔ u.destination path = some p
  rw [destination_eq_some, destination_eq_some, locate_alike h, h.writable]

theorem append_writable {path : String} (bytes : ByteArray) (hlocate : t.locate path = .ok p)
    (hwritable : t.writable p = true) :
    ∃ whole : ByteArray, t.append path bytes = .ok (t.set p (.file whole)) ∧
      whole.data.toList = t.content p ++ bytes.data.toList := by
  unfold append
  rw [hlocate, content]
  dsimp only
  cases hentry : t.entry? p with
  | some e =>
    cases e with
    | directory =>
      rw [writable, hentry] at hwritable
      cases hwritable
    | file old => exact ⟨old ++ bytes, rfl, ByteArray.toList_data_append⟩
  | none =>
    rw [writable, hentry, isDirectory] at hwritable
    dsimp only at hwritable ⊢
    split at hwritable
    · rename_i hparent
      rw [hparent]
      exact ⟨bytes, rfl, rfl⟩
    · cases hwritable

/-- The bytes come after the end of one file, and everything else stays. -/
theorem append_destination {path : String} (bytes : ByteArray) (h : t.destination path = some p) :
    ∃ u, t.append path bytes = .ok u ∧ Alike t u ∧
      ∀ q, u.content q = t.content q ++ if q = p then bytes.data.toList else [] := by
  obtain ⟨hlocate, hwritable⟩ := destination_eq_some.mp h
  obtain ⟨whole, happend, hwhole⟩ := append_writable bytes hlocate hwritable
  refine ⟨_, happend, alike_set hwritable, fun q => ?_⟩
  rw [content_set (writable_ne_nil hwritable)]
  by_cases hq : q = p
  · rw [if_pos hq, if_pos hq, hwhole, hq]
  · rw [if_neg hq, if_neg hq, List.append_nil]

theorem append_none {path : String} (bytes : ByteArray) (h : t.destination path = none) :
    ∃ e, t.append path bytes = .error e := by
  unfold append
  unfold destination at h
  cases hlocate : t.locate path with
  | error e => exact ⟨e, rfl⟩
  | ok p =>
    rw [hlocate] at h
    dsimp only at h ⊢
    have hno : ¬t.writable p = true := by
      intro hw
      rw [if_pos hw] at h
      cases h
    cases hentry : t.entry? p with
    | some e =>
      cases e with
      | directory => exact ⟨_, rfl⟩
      | file old => exact absurd (by rw [writable, hentry]) hno
    | none =>
      dsimp only
      cases hparent : t.entry? p.dropLast with
      | none => exact ⟨_, rfl⟩
      | some e =>
        cases e with
        | file old => exact ⟨_, rfl⟩
        | directory => exact absurd (by rw [writable, hentry]; simp [isDirectory, hparent]) hno

end Telemetry.FileTree
