/-!
# Dictionaries in key order

A dictionary is a list of entries with strictly increasing keys, so two
dictionaries with the same entries are equal and every listing of one comes
out in the same order. Setting a key replaces the entry it has.
-/

set_option autoImplicit false

namespace Telemetry

structure Dict (α : Type) where
  entries : List (String × α)
  increasing : entries.Pairwise (fun a b => a.1 < b.1)

namespace Dict

variable {α β : Type}

instance [DecidableEq α] : DecidableEq (Dict α) := fun a b =>
  decidable_of_iff (a.entries = b.entries) (by cases a; cases b; simp)

instance [Repr α] : Repr (Dict α) := ⟨fun d n => reprPrec d.entries n⟩

def empty : Dict α := ⟨[], .nil⟩

instance : EmptyCollection (Dict α) := ⟨empty⟩

instance : Inhabited (Dict α) := ⟨empty⟩

def insertEntry (k : String) (v : α) : List (String × α) → List (String × α)
  | [] => [(k, v)]
  | (a, x) :: rest =>
    if k < a then (k, v) :: (a, x) :: rest
    else if k = a then (k, v) :: rest
    else (a, x) :: insertEntry k v rest

theorem mem_insertEntry {k : String} {v : α} {l : List (String × α)} {e : String × α}
    (h : e ∈ insertEntry k v l) : e = (k, v) ∨ e ∈ l := by
  induction l with
  | nil => simpa [insertEntry] using h
  | cons head rest ih =>
    obtain ⟨a, x⟩ := head
    rw [insertEntry] at h
    split at h
    · simpa using h
    split at h
    · rcases List.mem_cons.mp h with h | h
      · exact .inl h
      · exact .inr (List.mem_cons_of_mem _ h)
    · rcases List.mem_cons.mp h with h | h
      · exact .inr (h ▸ List.mem_cons_self)
      · rcases ih h with h | h
        · exact .inl h
        · exact .inr (List.mem_cons_of_mem _ h)

theorem lt_of_not_lt_of_ne {a b : String} (h : ¬a < b) (hne : a ≠ b) : b < a :=
  Classical.byContradiction fun hba => hne (String.le_antisymm hba h)

theorem insertEntry_increasing (k : String) (v : α) (l : List (String × α))
    (h : l.Pairwise (fun a b => a.1 < b.1)) :
    (insertEntry k v l).Pairwise (fun a b => a.1 < b.1) := by
  induction l with
  | nil => simp [insertEntry]
  | cons head rest ih =>
    obtain ⟨a, x⟩ := head
    have hrest := List.pairwise_cons.mp h
    rw [insertEntry]
    split
    · rename_i hk
      refine List.pairwise_cons.mpr ⟨fun e he => ?_, h⟩
      rcases List.mem_cons.mp he with rfl | he
      · exact hk
      · exact String.lt_trans hk (hrest.1 e he)
    split
    · rename_i _ hk
      subst hk
      exact List.pairwise_cons.mpr ⟨hrest.1, hrest.2⟩
    · rename_i hlt hne
      refine List.pairwise_cons.mpr ⟨fun e he => ?_, ih hrest.2⟩
      rcases mem_insertEntry he with rfl | he
      · exact lt_of_not_lt_of_ne hlt hne
      · exact hrest.1 e he

def insert (d : Dict α) (k : String) (v : α) : Dict α :=
  ⟨insertEntry k v d.entries, insertEntry_increasing k v d.entries d.increasing⟩

def get? (d : Dict α) (k : String) : Option α :=
  d.entries.lookup k

theorem lookup_insertEntry (k : String) (v : α) (l : List (String × α)) (j : String) :
    (insertEntry k v l).lookup j = if j = k then some v else l.lookup j := by
  induction l with
  | nil =>
    by_cases h : j = k
    · simp [insertEntry, h]
    · simp [insertEntry, h]
  | cons head rest ih =>
    obtain ⟨a, x⟩ := head
    rw [insertEntry]
    split
    · by_cases h : j = k
      · simp [h]
      · have hb : (j == k) = false := by simpa using h
        rw [List.lookup_cons, hb, if_neg h]
    split
    · rename_i hk
      subst hk
      by_cases h : j = k
      · simp [h]
      · have hb : (j == k) = false := by simpa using h
        rw [List.lookup_cons, hb, if_neg h, List.lookup_cons, hb]
    · rename_i hne
      by_cases ha : j = a
      · have hk : ¬j = k := fun h => hne (h.symm.trans ha)
        simp [ha ▸ hk, ha]
      · have hb : (j == a) = false := by simpa using ha
        rw [List.lookup_cons, hb, ih, List.lookup_cons, hb]

theorem get?_insert (d : Dict α) (k : String) (v : α) (j : String) :
    (d.insert k v).get? j = if j = k then some v else d.get? j :=
  lookup_insertEntry k v d.entries j

def contains (d : Dict α) (k : String) : Bool :=
  (d.get? k).isSome

def ofList (l : List (String × α)) : Dict α :=
  l.foldl (fun d e => d.insert e.1 e.2) empty

def toList (d : Dict α) : List (String × α) :=
  d.entries

def keys (d : Dict α) : List String :=
  d.entries.map Prod.fst

def values (d : Dict α) : List α :=
  d.entries.map Prod.snd

def size (d : Dict α) : Nat :=
  d.entries.length

def map (f : α → β) (d : Dict α) : Dict β :=
  ⟨d.entries.map fun e => (e.1, f e.2), List.pairwise_map.mpr d.increasing⟩

theorem get?_map (f : α → β) (d : Dict α) (k : String) : (d.map f).get? k = (d.get? k).map f := by
  show (d.entries.map fun e => (e.1, f e.2)).lookup k = (d.entries.lookup k).map f
  induction d.entries with
  | nil => rfl
  | cons e l ih =>
    rw [List.map_cons, List.lookup_cons, List.lookup_cons, ih]
    cases k == e.1 <;> rfl

theorem insertEntry_map (f : α → β) (k : String) (v : α) (l : List (String × α)) :
    (insertEntry k v l).map (fun e => (e.1, f e.2)) =
      insertEntry k (f v) (l.map fun e => (e.1, f e.2)) := by
  induction l with
  | nil => rfl
  | cons head rest ih =>
    obtain ⟨a, x⟩ := head
    rw [List.map_cons, insertEntry, insertEntry]
    split
    · rfl
    split
    · rfl
    · rw [List.map_cons, ih]

theorem map_insert (f : α → β) (d : Dict α) (k : String) (v : α) :
    (d.insert k v).map f = (d.map f).insert k (f v) := by
  simp only [map, insert, insertEntry_map]

theorem keys_map (f : α → β) (d : Dict α) : (d.map f).keys = d.keys := by
  show (d.entries.map fun e => (e.1, f e.2)).map Prod.fst = d.entries.map Prod.fst
  rw [List.map_map]
  rfl

theorem map_map {γ : Type} (g : β → γ) (f : α → β) (d : Dict α) :
    (d.map f).map g = d.map (g ∘ f) := by
  simp only [map, List.map_map]
  rfl

theorem contains_map (f : α → β) (d : Dict α) (k : String) :
    (d.map f).contains k = d.contains k := by
  rw [contains, contains, get?_map, Option.isSome_map]

theorem mem_of_get? {d : Dict α} {k : String} {v : α} (h : d.get? k = some v) :
    (k, v) ∈ d.entries := by
  obtain ⟨before, after, hentries, -⟩ := List.lookup_eq_some_iff.mp h
  rw [hentries]
  exact List.mem_append_right _ List.mem_cons_self

theorem keys_nodup (d : Dict α) : d.keys.Nodup := by
  refine List.pairwise_map.mpr (d.increasing.imp ?_)
  intro a b hlt heq
  rw [heq] at hlt
  exact String.lt_irrefl _ hlt

theorem entries_nodup (d : Dict α) : d.entries.Nodup :=
  List.Pairwise.of_map Prod.fst (fun _ _ hne heq => hne (congrArg Prod.fst heq)) d.keys_nodup

theorem get?_of_mem {d : Dict α} {k : String} {v : α} (h : (k, v) ∈ d.entries) :
    d.get? k = some v := by
  obtain ⟨before, after, hentries⟩ := List.append_of_mem h
  refine List.lookup_eq_some_iff.mpr ⟨before, after, hentries, fun e he => ?_⟩
  have hlt : e.1 < k :=
    (List.pairwise_append.mp (hentries ▸ d.increasing)).2.2 e he (k, v) List.mem_cons_self
  exact bne_iff_ne.mpr fun hk => String.lt_irrefl k (hk ▸ hlt)

/-- Dictionaries in which all keys have the same values are equal. -/
@[ext] theorem ext {d e : Dict α} (h : ∀ k, d.get? k = e.get? k) : d = e := by
  have hsub : ∀ d e : Dict α, (∀ k, d.get? k = e.get? k) → ∀ entry ∈ d.entries, entry ∈ e.entries :=
    fun d e h entry hd => mem_of_get? ((h entry.1).symm.trans (get?_of_mem hd))
  have hperm : d.entries.Perm e.entries := by
    refine (List.perm_ext_iff_of_nodup d.entries_nodup e.entries_nodup).mpr fun entry => ?_
    exact ⟨hsub d e h entry, hsub e d (fun k => (h k).symm) entry⟩
  have hentries : d.entries = e.entries :=
    hperm.eq_of_pairwise (fun _ _ _ _ hab hba => absurd (String.lt_trans hab hba)
      (String.lt_irrefl _)) d.increasing e.increasing
  cases d
  cases e
  cases hentries
  rfl

theorem get?_foldl_insert (l : List (String × α)) (d : Dict α) (k : String) :
    (l.foldl (fun d e => d.insert e.1 e.2) d).get? k =
      ((l.filter fun e => e.1 == k).getLast?.map Prod.snd).or (d.get? k) := by
  induction l generalizing d with
  | nil => rfl
  | cons e l ih =>
    rw [List.foldl_cons, ih, get?_insert]
    by_cases h : e.1 = k
    · rw [if_pos h.symm, List.filter_cons_of_pos (by simp [h]), List.getLast?_cons]
      cases (l.filter fun e => e.1 == k).getLast? <;> rfl
    · rw [if_neg (Ne.symm h), List.filter_cons_of_neg (by simp [h])]

/-- Of entries with one key the last is found. -/
theorem get?_ofList (l : List (String × α)) (k : String) :
    (ofList l).get? k = (l.filter fun e => e.1 == k).getLast?.map Prod.snd :=
  (get?_foldl_insert l empty k).trans (Option.or_none)

/-- A dictionary is the one its own entries make. -/
theorem ofList_toList (d : Dict α) : ofList d.toList = d := by
  apply ext
  intro k
  rw [get?_ofList]
  cases hlast : (d.toList.filter fun e => e.1 == k).getLast? with
  | none =>
    have hnone : d.toList.filter (fun e => e.1 == k) = [] := List.getLast?_eq_none_iff.mp hlast
    cases hget : d.get? k with
    | none => rfl
    | some v =>
      have hmem : (k, v) ∈ d.toList.filter (fun e => e.1 == k) :=
        List.mem_filter.mpr ⟨mem_of_get? hget, beq_self_eq_true k⟩
      rw [hnone] at hmem
      cases hmem
  | some e =>
    obtain ⟨hmem, hkey⟩ := List.mem_filter.mp (List.mem_of_getLast? hlast)
    rw [← eq_of_beq hkey]
    exact (get?_of_mem hmem).symm

def update (d other : Dict α) : Dict α :=
  other.entries.foldl (fun d e => d.insert e.1 e.2) d

theorem get?_update (d other : Dict α) (k : String) :
    (d.update other).get? k = (other.get? k).or (d.get? k) := by
  have hlast : other.get? k = (other.entries.filter fun e => e.1 == k).getLast?.map Prod.snd := by
    rw [← get?_ofList]
    exact congrArg (get? · k) (ofList_toList other).symm
  rw [update, get?_foldl_insert, hlast]

def filter (p : String → α → Bool) (d : Dict α) : Dict α :=
  ⟨d.entries.filter fun e => p e.1 e.2, d.increasing.filter _⟩

end Dict

end Telemetry
