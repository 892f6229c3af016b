/-!
# Finite tables

A table is a list of rows, each a key and its entry. Every table of this library is grown from
`Table.empty` by `Table.insert` and `Table.erase`, which keep the keys distinct and leave the rows
in the order in which their keys first came in.

## Main definitions

* `Table`: rows of keys and entries.
* `Table.get?`, `Table.contains`, `Table.keys`: reading a table.
* `Table.insert`, `Table.erase`: writing an entry and dropping one.

## Main results

* `Table.get?_insert`, `Table.get?_erase`: what a table holds after a write and after a drop.
* `Table.keys_insert`, `Table.keys_erase`: writing keeps the order of the keys and appends a new
  key; dropping keeps the order of the others.
* `Table.nodup_keys_insert`, `Table.nodup_keys_erase`: the keys stay distinct.
-/

namespace ScriptHost

/-- A finite table from keys to entries. -/
structure Table (κ α : Type) where
  /-- The rows, oldest key first. -/
  rows : List (κ × α)

namespace Table

variable {κ α : Type}

/-- The table without rows. -/
def empty : Table κ α := ⟨[]⟩

instance : Inhabited (Table κ α) := ⟨empty⟩

/-- The keys, oldest first. -/
def keys (t : Table κ α) : List κ := t.rows.map Prod.fst

/-- The number of rows. -/
def size (t : Table κ α) : Nat := t.rows.length

/-- Whether the table has no row. -/
def isEmpty (t : Table κ α) : Bool := t.rows.isEmpty

theorem length_keys (t : Table κ α) : t.keys.length = t.size := List.length_map ..

variable [DecidableEq κ]

/-- The entry under a key. -/
def get? (t : Table κ α) (k : κ) : Option α := t.rows.lookup k

/-- Whether a key has an entry. -/
def contains (t : Table κ α) (k : κ) : Bool := t.rows.any fun r => r.1 = k

/-- Writes `v` under `k`: over the entry that `k` has, or in a new last row. -/
def insert (t : Table κ α) (k : κ) (v : α) : Table κ α :=
  if t.contains k then ⟨t.rows.map fun r => if r.1 = k then (k, v) else r⟩
  else ⟨t.rows ++ [(k, v)]⟩

/-- Drops the row of `k`; a key without an entry changes nothing. -/
def erase (t : Table κ α) (k : κ) : Table κ α := ⟨t.rows.filter fun r => r.1 ≠ k⟩

/-! ### What a table holds -/

@[simp]
theorem get?_empty (k : κ) : (empty : Table κ α).get? k = none := rfl

omit [DecidableEq κ] in
@[simp]
theorem keys_empty : (empty : Table κ α).keys = [] := rfl

/-- A key has an entry exactly when it is among the keys. -/
theorem contains_iff_mem_keys {t : Table κ α} {k : κ} : t.contains k = true ↔ k ∈ t.keys := by
  simp [contains, keys]

theorem lookup_append_single (rows : List (κ × α)) (k k' : κ) (v : α) :
    (rows ++ [(k, v)]).lookup k' = (rows.lookup k').or (if k' = k then some v else none) := by
  induction rows with
  | nil =>
    by_cases h : k' = k
    · simp [h]
    · have hne : (k' == k) = false := by simpa using h
      simp [List.lookup_cons, h, hne]
  | cons r rows ih =>
    obtain ⟨a, b⟩ := r
    by_cases h : k' = a
    · simp [h]
    · have hne : (k' == a) = false := by simpa using h
      simp [List.lookup_cons, hne, ih]

theorem lookup_eq_none_of_notMem {rows : List (κ × α)} {k : κ} (h : k ∉ rows.map Prod.fst) :
    rows.lookup k = none := by
  induction rows with
  | nil => rfl
  | cons r rows ih =>
    obtain ⟨a, b⟩ := r
    simp only [List.map_cons, List.mem_cons, not_or] at h
    have hne : (k == a) = false := by simpa using h.1
    simp [List.lookup_cons, hne, ih h.2]

/-- A key has an entry exactly when reading it finds one. -/
theorem isSome_get? (t : Table κ α) (k : κ) : (t.get? k).isSome = t.contains k := by
  obtain ⟨rows⟩ := t
  induction rows with
  | nil => rfl
  | cons r rows ih =>
    obtain ⟨a, b⟩ := r
    by_cases h : k = a
    · simp [get?, contains, h]
    · have hne : (k == a) = false := by simpa using h
      simpa [get?, contains, List.lookup_cons, hne, Ne.symm h] using ih

theorem get?_eq_none_iff {t : Table κ α} {k : κ} : t.get? k = none ↔ k ∉ t.keys := by
  rw [← contains_iff_mem_keys, ← isSome_get?]
  cases t.get? k <;> simp

theorem mem_keys_of_get? {t : Table κ α} {k : κ} {v : α} (h : t.get? k = some v) :
    k ∈ t.keys := by
  rw [← contains_iff_mem_keys, ← isSome_get?, h]
  rfl

/-! ### Writing -/

theorem lookup_overwrite_self {rows : List (κ × α)} {k : κ} (h : k ∈ rows.map Prod.fst) (v : α) :
    (rows.map fun r => if r.1 = k then (k, v) else r).lookup k = some v := by
  induction rows with
  | nil => simp at h
  | cons r rows ih =>
    obtain ⟨a, b⟩ := r
    by_cases ha : a = k
    · simp [ha]
    · have hne : (k == a) = false := by simpa using Ne.symm ha
      have htail : k ∈ rows.map Prod.fst := by simpa [Ne.symm ha] using h
      simpa [List.lookup_cons, ha, hne] using ih htail

theorem lookup_overwrite_of_ne {k k' : κ} (h : k' ≠ k) (rows : List (κ × α)) (v : α) :
    (rows.map fun r => if r.1 = k then (k, v) else r).lookup k' = rows.lookup k' := by
  induction rows with
  | nil => rfl
  | cons r rows ih =>
    obtain ⟨a, b⟩ := r
    by_cases ha : a = k
    · have hne : (k' == k) = false := by simpa using h
      simpa [List.lookup_cons, ha, hne] using ih
    · cases hb : k' == a with
      | true => simp [List.lookup_cons, ha, hb]
      | false => simpa [List.lookup_cons, ha, hb] using ih

/-- Writing changes the entry of the written key alone. -/
theorem get?_insert (t : Table κ α) (k k' : κ) (v : α) :
    (t.insert k v).get? k' = if k' = k then some v else t.get? k' := by
  by_cases h : k ∈ t.keys
  · rw [insert, if_pos (contains_iff_mem_keys.2 h)]
    by_cases hk : k' = k
    · subst hk
      rw [if_pos rfl]
      exact lookup_overwrite_self h v
    · rw [if_neg hk]
      exact lookup_overwrite_of_ne hk t.rows v
  · rw [insert, if_neg (mt contains_iff_mem_keys.1 h), get?, lookup_append_single]
    by_cases hk : k' = k
    · subst hk
      simp [lookup_eq_none_of_notMem h]
    · simp [get?, hk]

@[simp]
theorem get?_insert_self (t : Table κ α) (k : κ) (v : α) : (t.insert k v).get? k = some v := by
  simp [get?_insert]

/-- Writing leaves the keys in their order; a new key comes last. -/
theorem keys_insert (t : Table κ α) (k : κ) (v : α) :
    (t.insert k v).keys = if k ∈ t.keys then t.keys else t.keys ++ [k] := by
  by_cases h : k ∈ t.keys
  · have hrow (r : κ × α) : (if r.1 = k then (k, v) else r).1 = r.1 := by
      by_cases hr : r.1 = k <;> simp [hr]
    rw [if_pos h, insert, if_pos (contains_iff_mem_keys.2 h)]
    simp [keys, Function.comp_def, hrow]
  · rw [if_neg h, insert, if_neg (mt contains_iff_mem_keys.1 h)]
    simp [keys]

/-- A new key comes in a last row. -/
theorem rows_insert_of_notMem {t : Table κ α} {k : κ} (hk : k ∉ t.keys) (v : α) :
    (t.insert k v).rows = t.rows ++ [(k, v)] := by
  rw [insert, if_neg (mt contains_iff_mem_keys.1 hk)]

theorem size_insert_of_notMem {t : Table κ α} {k : κ} (hk : k ∉ t.keys) (v : α) :
    (t.insert k v).size = t.size + 1 := by
  rw [size, rows_insert_of_notMem hk, List.length_append]
  rfl

theorem nodup_keys_insert {t : Table κ α} (h : t.keys.Nodup) (k : κ) (v : α) :
    (t.insert k v).keys.Nodup := by
  rw [keys_insert]
  split
  · exact h
  · rename_i hk
    refine List.nodup_append.2 ⟨h, by simp, fun a ha b hb => ?_⟩
    rintro rfl
    exact hk (List.mem_singleton.1 hb ▸ ha)

/-! ### Dropping -/

/-- Dropping a key takes its entry away and leaves the others. -/
theorem get?_erase (t : Table κ α) (k k' : κ) :
    (t.erase k).get? k' = if k' = k then none else t.get? k' := by
  obtain ⟨rows⟩ := t
  induction rows with
  | nil => simp [erase, get?]
  | cons r rows ih =>
    obtain ⟨a, b⟩ := r
    by_cases ha : a = k
    · by_cases hk : k' = k
      · simpa [erase, get?, ha, hk] using ih
      · have hne : (k' == k) = false := by simpa using hk
        simpa [erase, get?, ha, hk, hne, List.lookup_cons] using ih
    · by_cases hk : k' = k
      · have hne : (k == a) = false := by simpa using Ne.symm ha
        simpa [erase, get?, ha, hk, hne, List.lookup_cons] using ih
      · cases hb : k' == a with
        | true => simp [erase, get?, ha, hk, hb, List.lookup_cons]
        | false => simpa [erase, get?, ha, hk, hb, List.lookup_cons] using ih

@[simp]
theorem get?_erase_self (t : Table κ α) (k : κ) : (t.erase k).get? k = none := by
  simp [get?_erase]

/-- Dropping a key leaves the other keys in their order. -/
theorem keys_erase (t : Table κ α) (k : κ) :
    (t.erase k).keys = t.keys.filter fun k' => k' ≠ k := by
  simp [erase, keys, List.filter_map, Function.comp_def]

/-- A key without an entry is not there to be dropped. -/
theorem erase_of_notMem {t : Table κ α} {k : κ} (hk : k ∉ t.keys) : t.erase k = t := by
  obtain ⟨rows⟩ := t
  have hne : ∀ r ∈ rows, decide (r.1 ≠ k) = true :=
    fun r hr => decide_eq_true fun he => hk (List.mem_map.2 ⟨r, hr, he⟩)
  exact congrArg Table.mk (List.filter_eq_self.2 hne)

/-- Dropping a key that was new undoes writing under it. -/
theorem erase_insert_of_notMem {t : Table κ α} {k : κ} (hk : k ∉ t.keys) (v : α) :
    (t.insert k v).erase k = t := by
  have hrows := congrArg Table.rows (erase_of_notMem hk)
  rw [erase] at hrows ⊢
  rw [rows_insert_of_notMem hk, List.filter_append]
  refine congrArg Table.mk ?_
  simpa using hrows

/-- The row of a key is the only one that dropping the key takes out. -/
theorem perm_erase {t : Table κ α} {k : κ} {v : α} (hnodup : t.keys.Nodup)
    (hk : t.get? k = some v) :
    t.rows.Perm ((k, v) :: (t.erase k).rows) := by
  obtain ⟨rows⟩ := t
  induction rows with
  | nil => cases hk
  | cons r rows ih =>
    obtain ⟨a, b⟩ := r
    obtain ⟨hnew, hnodup⟩ := List.nodup_cons.1 hnodup
    by_cases ha : a = k
    · subst ha
      have hrest : rows.filter (fun r => decide (r.1 ≠ a)) = rows := by
        rw [List.filter_eq_self]
        intro r hr
        exact decide_eq_true fun he => hnew (List.mem_map.2 ⟨r, hr, he⟩)
      obtain rfl : b = v := by simpa [get?] using hk
      simp only [erase, ne_eq, decide_not] at hrest ⊢
      simp [hrest]
    · have hne : (k == a) = false := by simpa using Ne.symm ha
      have hperm := ih hnodup (by simpa [get?, List.lookup_cons, hne] using hk)
      simp only [erase, List.filter_cons, ne_eq, ha, not_false_eq_true, decide_true, if_true]
      exact (hperm.cons (a, b)).trans (List.Perm.swap ..)

/-- In a table whose keys are distinct, the rows are the keys with their entries. -/
theorem mem_rows_iff {t : Table κ α} {k : κ} {v : α} (hnodup : t.keys.Nodup) :
    (k, v) ∈ t.rows ↔ t.get? k = some v := by
  constructor
  · intro hrow
    have hkey : k ∈ t.keys := List.mem_map.2 ⟨(k, v), hrow, rfl⟩
    rw [← contains_iff_mem_keys, ← isSome_get?] at hkey
    obtain ⟨v', hv'⟩ := Option.isSome_iff_exists.1 hkey
    rcases List.mem_cons.1 ((perm_erase hnodup hv').mem_iff.1 hrow) with he | hrest
    · rw [hv', (Prod.mk.inj he).2]
    · exact absurd rfl (of_decide_eq_true (List.mem_filter.1 hrest).2)
  · exact fun hget => (perm_erase hnodup hget).mem_iff.2 (List.mem_cons_self ..)

theorem size_erase {t : Table κ α} {k : κ} (hnodup : t.keys.Nodup) (hk : k ∈ t.keys) :
    (t.erase k).size + 1 = t.size := by
  obtain ⟨v, hv⟩ := Option.isSome_iff_exists.1 ((isSome_get? t k).trans (contains_iff_mem_keys.2 hk))
  exact (perm_erase hnodup hv).length_eq.symm

theorem nodup_keys_erase {t : Table κ α} (h : t.keys.Nodup) (k : κ) :
    (t.erase k).keys.Nodup := by
  rw [keys_erase]
  exact h.filter _

end Table

end ScriptHost
