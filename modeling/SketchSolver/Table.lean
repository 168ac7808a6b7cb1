import SketchSolver.Handle

/-!
# Tables

A table keeps one value per key and lists its entries in ascending order of key number. The list
is the view that every operation is described by: `find?_insert`, `find?_erase` and `find?_filter`
say what a lookup finds afterwards, and `ext` says that lookups determine the table.
-/

namespace SketchSolver

open Numbered

/-- A finite map whose entries stand in strictly ascending order of key number. -/
structure Table (K V : Type) [Numbered K] where
  /-- The entries in order. -/
  toList : List (K × V)
  /-- No key is numbered below or like an earlier one. -/
  sorted : toList.Pairwise (fun a b ↦ index a.1 < index b.1)

namespace Table

variable {K V W : Type} [Numbered K]

/-- The table without entries. -/
def empty : Table K V := ⟨[], List.Pairwise.nil⟩

instance : Inhabited (Table K V) := ⟨empty⟩

/-- Put an entry at its place in an ordered list, instead of an entry of the same key. -/
def insertEntry (k : K) (v : V) : List (K × V) → List (K × V)
  | [] => [(k, v)]
  | e :: es =>
    if index k < index e.1 then (k, v) :: e :: es
    else if index e.1 < index k then e :: insertEntry k v es
    else (k, v) :: es

/-- An entry of the list after an insertion is the new one or an old one. -/
theorem mem_insertEntry_imp {k : K} {v : V} {es : List (K × V)} {x : K × V}
    (h : x ∈ insertEntry k v es) : x = (k, v) ∨ x ∈ es := by
  induction es with
  | nil => simpa [insertEntry] using h
  | cons e es ih =>
    simp only [insertEntry] at h
    split at h
    · simpa using h
    · split at h
      · rcases List.mem_cons.mp h with h | h
        · exact .inr (h ▸ List.mem_cons_self)
        · exact (ih h).imp id (List.mem_cons_of_mem _)
      · rcases List.mem_cons.mp h with h | h
        · exact .inl h
        · exact .inr (List.mem_cons_of_mem _ h)

/-- Insertion keeps the order. -/
theorem sorted_insertEntry {k : K} {v : V} {es : List (K × V)}
    (h : es.Pairwise (fun a b ↦ index a.1 < index b.1)) :
    (insertEntry k v es).Pairwise (fun a b ↦ index a.1 < index b.1) := by
  induction es with
  | nil => simp [insertEntry]
  | cons e es ih =>
    obtain ⟨he, hes⟩ := List.pairwise_cons.mp h
    simp only [insertEntry]
    split
    · next hk =>
      refine List.pairwise_cons.mpr ⟨fun x hx ↦ ?_, h⟩
      rcases List.mem_cons.mp hx with rfl | hx
      · exact hk
      · exact Nat.lt_trans hk (he x hx)
    · split
      · next hk =>
        refine List.pairwise_cons.mpr ⟨fun x hx ↦ ?_, ih hes⟩
        rcases mem_insertEntry_imp hx with rfl | hx
        · exact hk
        · exact he x hx
      · next h₁ h₂ =>
        refine List.pairwise_cons.mpr ⟨fun x hx ↦ ?_, hes⟩
        have := he x hx
        simp only
        omega

/-- The table with the value of one key set. -/
def insert (t : Table K V) (k : K) (v : V) : Table K V :=
  ⟨insertEntry k v t.toList, sorted_insertEntry t.sorted⟩

/-- The entries that satisfy a condition. -/
def filter (p : K → V → Bool) (t : Table K V) : Table K V :=
  ⟨t.toList.filter (fun e ↦ p e.1 e.2), t.sorted.filter _⟩

/-- The table without one key. -/
def erase (t : Table K V) (k : K) : Table K V := t.filter (fun j _ ↦ index j != index k)

/-- The table with each value changed. -/
def map (f : K → V → W) (t : Table K V) : Table K W :=
  ⟨t.toList.map (fun e ↦ (e.1, f e.1 e.2)), by
    rw [List.pairwise_map]
    exact t.sorted⟩

/-- The value of a key in an ordered list. -/
def findIn? (k : K) : List (K × V) → Option V
  | [] => none
  | e :: es => if index e.1 = index k then some e.2 else findIn? k es

/-- The value of a key. -/
def find? (t : Table K V) (k : K) : Option V := findIn? k t.toList

/-- Whether a key has a value. -/
def contains (t : Table K V) (k : K) : Bool := (t.find? k).isSome

/-- The keys in ascending order. -/
def keys (t : Table K V) : List K := t.toList.map Prod.fst

/-- The values in ascending order of their keys. -/
def values (t : Table K V) : List V := t.toList.map Prod.snd

/-- The number of entries. -/
def size (t : Table K V) : Nat := t.toList.length

/-- The table of a list of entries, where a later entry replaces an earlier one of its key. -/
def ofList (es : List (K × V)) : Table K V := es.foldl (fun t e ↦ t.insert e.1 e.2) empty

/-- The entries left by a filter. -/
theorem toList_filter (p : K → V → Bool) (t : Table K V) :
    (t.filter p).toList = t.toList.filter (fun e ↦ p e.1 e.2) := rfl

/-- The values left by a filter on values. -/
theorem values_filter (p : V → Bool) (t : Table K V) :
    (t.filter fun _ v ↦ p v).values = t.values.filter p := by
  rw [values, toList_filter, values, List.filter_map]
  rfl

/-- The entries left by removing a key. -/
theorem toList_erase (t : Table K V) (k : K) :
    (t.erase k).toList = t.toList.filter (fun e ↦ index e.1 != index k) := rfl

/-- The entries of a changed table. -/
theorem toList_map (f : K → V → W) (t : Table K V) :
    (t.map f).toList = t.toList.map (fun e ↦ (e.1, f e.1 e.2)) := rfl

private theorem findIn?_insertEntry (k j : K) (v : V) (es : List (K × V))
    (h : es.Pairwise (fun a b ↦ index a.1 < index b.1)) :
    findIn? j (insertEntry k v es) = if index k = index j then some v else findIn? j es := by
  induction es with
  | nil => simp [insertEntry, findIn?]
  | cons e es ih =>
    obtain ⟨_, hes⟩ := List.pairwise_cons.mp h
    simp only [insertEntry]
    split
    · simp [findIn?]
    · split
      · next hk =>
        simp only [findIn?, ih hes]
        split <;> split <;> first | rfl | omega
      · next h₁ h₂ =>
        have : index e.1 = index k := by omega
        simp only [findIn?, this]
        split <;> rfl

private theorem insertEntry_of_forall_lt {k : K} {v : V} {es : List (K × V)}
    (h : ∀ e ∈ es, index e.1 < index k) : insertEntry k v es = es ++ [(k, v)] := by
  induction es with
  | nil => rfl
  | cons e es ih =>
    obtain ⟨he, hes⟩ := List.forall_mem_cons.mp h
    rw [insertEntry, if_neg (Nat.lt_asymm he), if_pos he, ih hes, List.cons_append]

/-- An entry with a number above all others is listed last. -/
theorem toList_insert_of_forall_lt {t : Table K V} {k : K} (h : ∀ e ∈ t.toList, index e.1 < index k)
    (v : V) : (t.insert k v).toList = t.toList ++ [(k, v)] :=
  insertEntry_of_forall_lt h

/-- After an insertion the new value is found at its key and all other keys are as before. -/
theorem find?_insert (t : Table K V) (k j : K) (v : V) :
    (t.insert k v).find? j = if index k = index j then some v else t.find? j :=
  findIn?_insertEntry k j v t.toList t.sorted

/-- The inserted value is found at its key. -/
theorem find?_insert_self (t : Table K V) (k : K) (v : V) : (t.insert k v).find? k = some v := by
  rw [find?_insert, if_pos rfl]

private theorem findIn?_eq_some_iff {k : K} {v : V} {es : List (K × V)}
    (h : es.Pairwise (fun a b ↦ index a.1 < index b.1)) :
    findIn? k es = some v ↔ (k, v) ∈ es := by
  induction es with
  | nil => simp [findIn?]
  | cons e es ih =>
    obtain ⟨he, hes⟩ := List.pairwise_cons.mp h
    simp only [findIn?, List.mem_cons]
    split
    · next hk =>
      have hke : k = e.1 := index_inj hk.symm
      constructor
      · intro hv
        exact .inl (by rw [hke, ← Option.some.inj hv])
      · rintro (hv | hv)
        · rw [← hv]
        · have hlt := he _ hv
          simp only at hlt
          omega
    · next hk =>
      rw [ih hes]
      constructor
      · exact .inr
      · rintro (hv | hv)
        · exact absurd (by rw [← hv]) hk
        · exact hv

/-- A lookup finds exactly the entries of the list. -/
theorem find?_eq_some_iff {t : Table K V} {k : K} {v : V} :
    t.find? k = some v ↔ (k, v) ∈ t.toList :=
  findIn?_eq_some_iff t.sorted

/-- A lookup fails exactly at the keys that are not listed. -/
theorem find?_eq_none_iff {t : Table K V} {k : K} : t.find? k = none ↔ k ∉ t.keys := by
  rw [Option.eq_none_iff_forall_ne_some]
  constructor
  · intro h hk
    obtain ⟨e, he, rfl⟩ := List.mem_map.mp hk
    exact h e.2 (find?_eq_some_iff.mpr he)
  · intro h v hv
    exact h (List.mem_map.mpr ⟨_, find?_eq_some_iff.mp hv, rfl⟩)

/-- A key has a value exactly if it is listed. -/
theorem contains_eq_true_iff {t : Table K V} {k : K} : t.contains k = true ↔ k ∈ t.keys := by
  rw [contains, Option.isSome_iff_ne_none, ne_eq, find?_eq_none_iff, Classical.not_not]

/-- Nothing is found in the empty table. -/
theorem find?_empty (k : K) : (empty : Table K V).find? k = none := rfl

/-- A filter keeps the value of a key if it satisfies the condition. -/
theorem find?_filter (p : K → V → Bool) (t : Table K V) (k : K) :
    (t.filter p).find? k = (t.find? k).filter (p k) := by
  apply Option.ext
  intro v
  rw [find?_eq_some_iff, toList_filter, List.mem_filter, ← find?_eq_some_iff]
  simp [Option.filter_eq_some_iff]

/-- After removing a key nothing is found there and all other keys are as before. -/
theorem find?_erase (t : Table K V) (k j : K) :
    (t.erase k).find? j = if index j = index k then none else t.find? j := by
  rw [erase, find?_filter]
  cases h : t.find? j <;> by_cases hj : index j = index k <;> simp [Option.filter, hj]

/-- Changing the values changes what is found. -/
theorem find?_map (f : K → V → W) (t : Table K V) (k : K) :
    (t.map f).find? k = (t.find? k).map (f k) := by
  apply Option.ext
  intro w
  rw [find?_eq_some_iff, toList_map, List.mem_map, Option.map_eq_some_iff]
  constructor
  · rintro ⟨⟨j, v⟩, hv, he⟩
    obtain ⟨rfl, rfl⟩ := Prod.mk.injEq .. ▸ he
    exact ⟨v, find?_eq_some_iff.mpr hv, rfl⟩
  · rintro ⟨v, hv, rfl⟩
    exact ⟨(k, v), find?_eq_some_iff.mp hv, rfl⟩

/-- The keys after an insertion. -/
theorem contains_insert (t : Table K V) (k j : K) (v : V) :
    (t.insert k v).contains j = (index k == index j || t.contains j) := by
  rw [contains, find?_insert]
  by_cases h : index k = index j <;> simp [h, contains]

/-- Inserting at a key that has a value keeps the keys. -/
theorem contains_insert_of_contains {t : Table K V} {k : K} (h : t.contains k = true) (j : K)
    (v : V) : (t.insert k v).contains j = t.contains j := by
  rw [contains_insert]
  by_cases hj : index k = index j
  · rw [← index_inj hj, h, Bool.or_true]
  · simp [hj]

/-- A key with a value is one at which a value is found. -/
theorem contains_iff_exists {t : Table K V} {k : K} :
    t.contains k = true ↔ ∃ v, t.find? k = some v := by
  rw [contains, Option.isSome_iff_exists]

/-- A key without a value is one at which nothing is found. -/
theorem contains_eq_false_iff {t : Table K V} {k : K} :
    t.contains k = false ↔ t.find? k = none := by
  rw [contains, Option.isSome_eq_false_iff, Option.isNone_iff_eq_none]

/-- A value is listed exactly if it is found at some key. -/
theorem mem_values_iff {t : Table K V} {v : V} : v ∈ t.values ↔ ∃ k, t.find? k = some v := by
  rw [values, List.mem_map]
  constructor
  · rintro ⟨⟨k, v⟩, h, rfl⟩
    exact ⟨k, find?_eq_some_iff.mpr h⟩
  · rintro ⟨k, h⟩
    exact ⟨(k, v), find?_eq_some_iff.mp h, rfl⟩

/-- Insertions at other keys do not change what is found. -/
theorem find?_insertAll_of_notMem {es : List (K × V)} {k : K} (h : k ∉ es.map Prod.fst)
    (t : Table K V) : (es.foldl (fun t e ↦ t.insert e.1 e.2) t).find? k = t.find? k := by
  induction es generalizing t with
  | nil => rfl
  | cons e es ih =>
    rw [List.map_cons, List.mem_cons, not_or] at h
    have he : index e.1 ≠ index k := fun hi ↦ h.1 (index_inj hi).symm
    rw [List.foldl_cons, ih h.2, find?_insert, if_neg he]

/-- After insertions at different keys each inserted value is found. -/
theorem find?_insertAll_of_mem {es : List (K × V)} (hes : (es.map Prod.fst).Nodup) {k : K} {v : V}
    (h : (k, v) ∈ es) (t : Table K V) :
    (es.foldl (fun t e ↦ t.insert e.1 e.2) t).find? k = some v := by
  induction es generalizing t with
  | nil => exact absurd h List.not_mem_nil
  | cons e es ih =>
    obtain ⟨he, hes⟩ := List.nodup_cons.mp hes
    rw [List.foldl_cons]
    rcases List.mem_cons.mp h with rfl | h
    · rw [find?_insertAll_of_notMem he, find?_insert_self]
    · exact ih hes h _

/-- The keys stand in strictly ascending order of number. -/
theorem sorted_keys (t : Table K V) : t.keys.Pairwise (fun a b ↦ index a < index b) := by
  rw [keys, List.pairwise_map]
  exact t.sorted

/-- No key is listed twice. -/
theorem nodup_keys (t : Table K V) : t.keys.Nodup :=
  t.sorted_keys.imp (S := (· ≠ ·)) fun h he ↦ Nat.ne_of_lt h (congrArg index he)

/-- Tables with the same entries are equal. -/
theorem toList_inj {s t : Table K V} : s.toList = t.toList ↔ s = t := by
  constructor
  · intro h
    cases s
    cases t
    cases h
    rfl
  · exact congrArg toList

private theorem mem_tail_of_forall_mem_iff {e : K × V} {l₁ l₂ : List (K × V)}
    (h₁ : (e :: l₁).Pairwise (fun a b ↦ index a.1 < index b.1))
    (h : ∀ x, x ∈ e :: l₁ ↔ x ∈ e :: l₂) (x : K × V) (hx : x ∈ l₁) : x ∈ l₂ := by
  rcases List.mem_cons.mp ((h x).mp (List.mem_cons_of_mem _ hx)) with rfl | hx'
  · exact absurd ((List.pairwise_cons.mp h₁).1 x hx) (Nat.lt_irrefl _)
  · exact hx'

private theorem eq_of_forall_mem_iff {l₁ l₂ : List (K × V)}
    (h₁ : l₁.Pairwise (fun a b ↦ index a.1 < index b.1))
    (h₂ : l₂.Pairwise (fun a b ↦ index a.1 < index b.1)) (h : ∀ x, x ∈ l₁ ↔ x ∈ l₂) :
    l₁ = l₂ := by
  induction l₁ generalizing l₂ with
  | nil =>
    cases l₂ with
    | nil => rfl
    | cons e es => exact absurd ((h e).mpr List.mem_cons_self) List.not_mem_nil
  | cons a as ih =>
    cases l₂ with
    | nil => exact absurd ((h a).mp List.mem_cons_self) List.not_mem_nil
    | cons b bs =>
      have hab : a = b := by
        rcases List.mem_cons.mp ((h a).mp List.mem_cons_self) with rfl | hb
        · rfl
        · rcases List.mem_cons.mp ((h b).mpr List.mem_cons_self) with rfl | ha
          · rfl
          · have := (List.pairwise_cons.mp h₁).1 b ha
            have := (List.pairwise_cons.mp h₂).1 a hb
            omega
      subst hab
      rw [ih (List.pairwise_cons.mp h₁).2 (List.pairwise_cons.mp h₂).2 fun x ↦
        ⟨mem_tail_of_forall_mem_iff h₁ h x,
          mem_tail_of_forall_mem_iff h₂ (fun y ↦ (h y).symm) x⟩]

/-- Lookups determine the table. -/
@[ext] theorem ext {s t : Table K V} (h : ∀ k, s.find? k = t.find? k) : s = t := by
  refine toList_inj.mp (eq_of_forall_mem_iff s.sorted t.sorted fun x ↦ ?_)
  rw [← find?_eq_some_iff, ← find?_eq_some_iff, h]

/-- Tables with values at the same keys are the same once all values are. -/
theorem map_const_congr {t : Table K V} {u : Table K W} (h : ∀ k, t.contains k = u.contains k)
    {X : Type} (x : X) : (t.map fun _ _ ↦ x) = u.map fun _ _ ↦ x := by
  have hmap {Y : Type} (y : Option Y) : (y.map fun _ ↦ x) = if y.isSome then some x else none := by
    cases y <;> rfl
  apply ext
  intro k
  have hk := h k
  unfold contains at hk
  rw [find?_map, find?_map, hmap, hmap, hk]

end Table

/-- A set of handles, listed in ascending order. -/
abbrev HandleSet (K : Type) [Numbered K] := Table K Unit

namespace HandleSet

variable {K : Type} [Numbered K]

/-- The set with one more handle. -/
def add (s : HandleSet K) (k : K) : HandleSet K := s.insert k ()

/-- The set of the handles of a list. -/
def ofHandles (ks : List K) : HandleSet K := ks.foldl add Table.empty

/-- The members after adding a handle. -/
theorem contains_add (s : HandleSet K) (k j : K) :
    (s.add k).contains j = (index k == index j || s.contains j) := Table.contains_insert s k j ()

/-- The set of a list has exactly the members of the list. -/
theorem contains_ofHandles (ks : List K) (k : K) :
    (ofHandles ks).contains k = true ↔ k ∈ ks := by
  suffices h : ∀ s : HandleSet K,
      (ks.foldl add s).contains k = true ↔ s.contains k = true ∨ k ∈ ks by
    rw [ofHandles, h]
    simp [Table.contains, Table.find?_empty]
  induction ks with
  | nil => simp
  | cons j ks ih =>
    intro s
    rw [List.foldl_cons, ih, contains_add]
    simp only [Bool.or_eq_true, beq_iff_eq, List.mem_cons]
    constructor
    · rintro ((h | h) | h)
      · exact .inr (.inl (index_inj h.symm))
      · exact .inl h
      · exact .inr (.inr h)
    · rintro (h | rfl | h)
      · exact .inl (.inr h)
      · exact .inl (.inl rfl)
      · exact .inr h

/-- A filter keeps the members that satisfy the condition. -/
theorem contains_filter (p : K → Bool) (s : HandleSet K) (k : K) :
    (s.filter fun j _ ↦ p j).contains k = true ↔ s.contains k = true ∧ p k = true := by
  rw [Table.contains, Table.find?_filter, Table.contains]
  cases s.find? k <;> simp [Option.filter]

/-- Sets with the same members are equal. -/
theorem ext {s t : HandleSet K} (h : ∀ k, s.contains k = true ↔ t.contains k = true) : s = t := by
  apply Table.ext
  intro k
  have hk := h k
  rw [Table.contains, Table.contains] at hk
  cases hs : s.find? k <;> cases ht : t.find? k <;> simp [hs, ht] at hk ⊢

end HandleSet

end SketchSolver
