/-!
# Blank characters

The characters with the Unicode property White_Space, and trimming by them.
-/

set_option autoImplicit false

namespace Telemetry.Text

def isBlank (c : Char) : Bool :=
  let n := c.toNat
  (9 ≤ n && n ≤ 13) || n == 0x20 || n == 0x85 || n == 0xa0 || n == 0x1680
    || (0x2000 ≤ n && n ≤ 0x200a) || n == 0x2028 || n == 0x2029 || n == 0x202f
    || n == 0x205f || n == 0x3000

def trimBlankLeft (cs : List Char) : List Char :=
  cs.dropWhile isBlank

def trimBlank (cs : List Char) : List Char :=
  (trimBlankLeft (trimBlankLeft cs).reverse).reverse

def Unpadded (cs : List Char) : Prop :=
  (∀ c ∈ cs.head?, isBlank c = false) ∧ ∀ c ∈ cs.getLast?, isBlank c = false

instance (cs : List Char) : Decidable (Unpadded cs) :=
  decidable_of_iff (cs.head?.any isBlank = false ∧ cs.getLast?.any isBlank = false) (by
    simp [Unpadded, Option.any_eq_false])

theorem trimBlankLeft_kept {cs : List Char} (h : ∀ c ∈ cs.head?, isBlank c = false) :
    trimBlankLeft cs = cs := by
  cases cs with
  | nil => rfl
  | cons c cs => exact List.dropWhile_cons_of_neg (by simp [h c rfl])

theorem trimBlankLeft_append {pad : List Char} (hpad : ∀ c ∈ pad, isBlank c = true)
    (cs : List Char) : trimBlankLeft (pad ++ cs) = trimBlankLeft cs :=
  List.dropWhile_append_of_pos hpad

theorem trimBlank_padded {pad cs gap : List Char} (hpad : ∀ c ∈ pad, isBlank c = true)
    (hgap : ∀ c ∈ gap, isBlank c = true) (h : Unpadded cs) :
    trimBlank (pad ++ cs ++ gap) = cs := by
  have hright : ∀ c ∈ gap.reverse, isBlank c = true := fun c hc => hgap c (List.mem_reverse.mp hc)
  rw [trimBlank, List.append_assoc, trimBlankLeft_append hpad]
  cases cs with
  | nil =>
    rw [List.nil_append, ← List.append_nil gap, trimBlankLeft_append hgap]
    rfl
  | cons c cs =>
    have hlast : trimBlankLeft (c :: cs).reverse = (c :: cs).reverse :=
      trimBlankLeft_kept fun d hd => h.2 d (List.head?_reverse ▸ hd)
    have hfirst : trimBlankLeft (c :: cs ++ gap) = c :: cs ++ gap := trimBlankLeft_kept h.1
    rw [hfirst, List.reverse_append, trimBlankLeft_append hright, hlast, List.reverse_reverse]

theorem trimBlank_unpadded {cs : List Char} (h : Unpadded cs) : trimBlank cs = cs := by
  have htrim : trimBlank ([] ++ cs ++ []) = cs := trimBlank_padded (by simp) (by simp) h
  rwa [List.nil_append, List.append_nil] at htrim

def words : List Char → List (List Char)
  | [] => []
  | c :: cs =>
    if isBlank c then words cs
    else match cs with
      | [] => [[c]]
      | next :: _ =>
        if isBlank next then [c] :: words cs
        else match words cs with
          | [] => [[c]]
          | w :: ws => (c :: w) :: ws

end Telemetry.Text
