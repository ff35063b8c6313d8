/-!
# Cutting and joining text

A text is cut at every occurrence of a separator, so the empty text has one
empty part. Joining the parts with the same separator gives the text back.
Trimming removes a character from one end for as long as it occurs there.
-/

set_option autoImplicit false

namespace Telemetry.Text

def split (sep : Char) : List Char → List (List Char)
  | [] => [[]]
  | c :: cs =>
    if c = sep then [] :: split sep cs
    else match split sep cs with
      | [] => [[c]]
      | part :: parts => (c :: part) :: parts

def join (sep : Char) : List (List Char) → List Char
  | [] => []
  | [part] => part
  | part :: next :: parts => part ++ sep :: join sep (next :: parts)

theorem split_ne_nil (sep : Char) (cs : List Char) : split sep cs ≠ [] := by
  cases cs with
  | nil => simp [split]
  | cons c cs =>
    rw [split]
    split
    · simp
    · split <;> simp

theorem split_sep (sep : Char) (cs : List Char) :
    split sep (sep :: cs) = [] :: split sep cs := by
  simp [split]

/-- What stands before the first separator goes to the first part. -/
theorem split_front {sep : Char} {front part : List Char} {rest : List Char}
    {parts : List (List Char)} (hp : sep ∉ front) (h : split sep rest = part :: parts) :
    split sep (front ++ rest) = (front ++ part) :: parts := by
  induction front with
  | nil => exact h
  | cons c front ih =>
    have hc : c ≠ sep := fun h => hp (h ▸ List.mem_cons_self)
    rw [List.cons_append, split, if_neg hc, ih fun h => hp (List.mem_cons_of_mem c h)]
    rfl

theorem split_single {sep : Char} {part : List Char} (hp : sep ∉ part) :
    split sep part = [part] := by
  have hnil : split sep [] = [[]] := rfl
  rw [← List.append_nil part, split_front hp hnil]

theorem split_sep_append (sep : Char) (text rest : List Char) :
    split sep (text ++ sep :: rest) = split sep text ++ split sep rest := by
  induction text with
  | nil => exact split_sep sep rest
  | cons c text ih =>
    rw [List.cons_append, split, split, ih]
    split
    · rfl
    · cases h : split sep text with
      | nil => exact absurd h (split_ne_nil sep text)
      | cons part parts => rfl

theorem split_append {sep : Char} {part : List Char} (hp : sep ∉ part) (rest : List Char) :
    split sep (part ++ sep :: rest) = part :: split sep rest := by
  rw [split_sep_append, split_single hp]
  rfl

theorem split_replicate (sep : Char) (n : Nat) :
    split sep (List.replicate n sep) = List.replicate (n + 1) [] := by
  induction n with
  | zero => rfl
  | succ n ih =>
    rw [List.replicate_succ, split_sep, ih]
    rfl

/-- Separators at the end leave as many empty parts behind. -/
theorem split_trailing (sep : Char) (text : List Char) (n : Nat) :
    split sep (text ++ List.replicate n sep) = split sep text ++ List.replicate n [] := by
  cases n with
  | zero => rw [List.replicate_zero, List.replicate_zero, List.append_nil, List.append_nil]
  | succ n => rw [List.replicate_succ, split_sep_append, split_replicate]

theorem join_cons_cons (sep c : Char) (part : List Char) (parts : List (List Char)) :
    join sep ((c :: part) :: parts) = c :: join sep (part :: parts) := by
  cases parts <;> rfl

theorem join_split (sep : Char) (cs : List Char) : join sep (split sep cs) = cs := by
  induction cs with
  | nil => rfl
  | cons c cs ih =>
    cases h : split sep cs with
    | nil => exact absurd h (split_ne_nil sep cs)
    | cons part parts =>
      by_cases hc : c = sep
      · subst hc
        rw [split_sep, h]
        show c :: join c (part :: parts) = c :: cs
        rw [← h, ih]
      · rw [split, if_neg hc, h]
        show join sep ((c :: part) :: parts) = c :: cs
        rw [join_cons_cons, ← h, ih]

theorem notMem_join_cons {sep c : Char} {part : List Char} {parts : List (List Char)}
    (h : c ∉ join sep (part :: parts)) : c ∉ part ∧ c ∉ join sep parts := by
  cases parts with
  | nil => exact ⟨h, List.not_mem_nil⟩
  | cons next parts =>
    rw [join, List.mem_append, List.mem_cons, not_or, not_or] at h
    exact ⟨h.1, h.2.2⟩

theorem mem_join {sep c : Char} {part : List Char} {parts : List (List Char)}
    (hp : part ∈ parts) (hc : c ∈ part) : c ∈ join sep parts := by
  induction parts with
  | nil => cases hp
  | cons first parts ih =>
    refine Decidable.byContradiction fun hno => ?_
    obtain ⟨hfirst, hrest⟩ := notMem_join_cons hno
    rcases List.mem_cons.mp hp with rfl | hp
    · exact hfirst hc
    · exact hrest (ih hp)

theorem split_plain {sep : Char} (text : List Char) : ∀ part ∈ split sep text, sep ∉ part := by
  induction text with
  | nil => simp [split]
  | cons c text ih =>
    intro part hpart
    rw [split] at hpart
    split at hpart
    · rcases List.mem_cons.mp hpart with rfl | hpart
      · exact List.not_mem_nil
      · exact ih part hpart
    · rename_i hc
      split at hpart
      · rw [List.mem_singleton.mp hpart, List.mem_singleton]
        exact Ne.symm hc
      · rename_i front parts hs
        rw [hs] at ih
        rcases List.mem_cons.mp hpart with rfl | hpart
        · rw [List.mem_cons, not_or]
          exact ⟨Ne.symm hc, ih front List.mem_cons_self⟩
        · exact ih part (List.mem_cons_of_mem front hpart)

theorem split_join {sep : Char} {parts : List (List Char)} (hne : parts ≠ [])
    (h : ∀ part ∈ parts, sep ∉ part) : split sep (join sep parts) = parts := by
  induction parts with
  | nil => exact absurd rfl hne
  | cons part parts ih =>
    have hpart := h part List.mem_cons_self
    cases parts with
    | nil => exact split_single hpart
    | cons next parts =>
      rw [join, split_append hpart,
        ih (List.cons_ne_nil next parts) fun q hq => h q (List.mem_cons_of_mem part hq)]

def trimLeft (c : Char) (cs : List Char) : List Char :=
  cs.dropWhile (· == c)

@[simp] theorem trimLeft_self (c : Char) (text : List Char) :
    trimLeft c (c :: text) = trimLeft c text :=
  List.dropWhile_cons_of_pos (by simp)

@[simp] theorem trimLeft_trimLeft (c : Char) (text : List Char) :
    trimLeft c (trimLeft c text) = trimLeft c text := by
  induction text with
  | nil => rfl
  | cons d text ih =>
    by_cases h : d = c
    · rw [h, trimLeft_self, ih]
    · have hkept : trimLeft c (d :: text) = d :: text :=
        List.dropWhile_cons_of_neg (by simpa using h)
      rw [hkept, hkept]

theorem trimLeft_plain {sep : Char} {text : List Char} (h : sep ∉ text) :
    trimLeft sep text = text := by
  cases text with
  | nil => rfl
  | cons c text =>
    have hc : c ≠ sep := fun hc => h (hc ▸ List.mem_cons_self)
    rw [trimLeft, List.dropWhile_cons_of_neg (by simpa using hc)]

/-- Joined parts begin with the first one, if it has something. -/
theorem trimLeft_join {sep : Char} {part : List Char} {parts : List (List Char)}
    (hne : part ≠ []) (hp : sep ∉ part) :
    trimLeft sep (join sep (part :: parts)) = join sep (part :: parts) := by
  cases part with
  | nil => exact absurd rfl hne
  | cons c part =>
    have hc : c ≠ sep := fun h => hp (h ▸ List.mem_cons_self)
    rw [join_cons_cons, trimLeft, List.dropWhile_cons_of_neg (by simpa using hc)]

def trimRight (c : Char) (cs : List Char) : List Char :=
  (trimLeft c cs.reverse).reverse

/-- What a leading character does not change, trimming does not change. -/
theorem trimLeft_invariant {α : Type} {c : Char} {f : List Char → α}
    (h : ∀ text, f (c :: text) = f text) (text : List Char) : f (trimLeft c text) = f text := by
  induction text with
  | nil => rfl
  | cons d text ih =>
    by_cases hd : d = c
    · subst hd
      rw [trimLeft, List.dropWhile_cons_of_pos (by simp), h]
      exact ih
    · rw [trimLeft, List.dropWhile_cons_of_neg (by simpa using hd)]

theorem trimLeft_replicate (c : Char) (n : Nat) (text : List Char) :
    trimLeft c (List.replicate n c ++ text) = trimLeft c text := by
  induction n with
  | zero => rfl
  | succ n ih =>
    rw [List.replicate_succ, List.cons_append, trimLeft, List.dropWhile_cons_of_pos (by simp)]
    exact ih

theorem trimRight_replicate (c : Char) (n : Nat) (text : List Char) :
    trimRight c (text ++ List.replicate n c) = trimRight c text := by
  rw [trimRight, List.reverse_append, List.reverse_replicate, trimLeft_replicate, trimRight]

/-- What is trimmed off one end is that character only. -/
theorem exists_trimRight (c : Char) (text : List Char) :
    ∃ n, text = trimRight c text ++ List.replicate n c := by
  refine ⟨(text.reverse.takeWhile (· == c)).length, ?_⟩
  have hall : ∀ d ∈ text.reverse.takeWhile (· == c), d = c := by
    intro d hd
    simpa using List.all_eq_true.mp List.all_takeWhile d hd
  have hrun := List.eq_replicate_of_mem hall
  have hboth := congrArg List.reverse
    (List.takeWhile_append_dropWhile (p := (· == c)) (l := text.reverse))
  rw [List.reverse_reverse, List.reverse_append, hrun, List.reverse_replicate] at hboth
  exact hboth.symm

def joinWith (sep : String) (parts : List String) : String :=
  sep.intercalate parts

end Telemetry.Text
