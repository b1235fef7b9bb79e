import Mathlib.Data.List.Nodup
import Mathlib.Data.List.Count

set_option autoImplicit false

/-! # Maps in insertion order

A map that lists its entries in the order in which their keys first came: setting a key that is
there keeps its place. No key is listed twice, and the map carries the proof. -/

/-- Entries in insertion order, one for each key. -/
structure OrderedMap (κ α : Type*) where
  entries : List (κ × α)
  nodup : (entries.map Prod.fst).Nodup

namespace OrderedMap

variable {κ α : Type*} [DecidableEq κ]

/-! ## Entries -/

/-- The value of the first entry of a key. -/
def lookup (k : κ) : List (κ × α) → Option α
  | [] => none
  | e :: rest => if e.1 = k then some e.2 else lookup k rest

/-- Replace the value of a key where it stands, or append it. -/
def insert (k : κ) (v : α) : List (κ × α) → List (κ × α)
  | [] => [(k, v)]
  | e :: rest => if e.1 = k then (k, v) :: rest else e :: insert k v rest

/-- Remove the entry of a key. -/
def remove (k : κ) (l : List (κ × α)) : List (κ × α) :=
  l.filter fun e => e.1 ≠ k

theorem mem_keys_insert {k k' : κ} {v : α} {l : List (κ × α)} :
    k' ∈ (insert k v l).map Prod.fst ↔ k' = k ∨ k' ∈ l.map Prod.fst := by
  induction l with
  | nil => simp [insert]
  | cons e rest ih =>
      by_cases he : e.1 = k
      · simp [insert, he]
      · rw [insert, if_neg he, List.map_cons, List.mem_cons, ih, List.map_cons, List.mem_cons]
        tauto

theorem nodup_insert (k : κ) (v : α) {l : List (κ × α)} (h : (l.map Prod.fst).Nodup) :
    ((insert k v l).map Prod.fst).Nodup := by
  induction l with
  | nil => simp [insert]
  | cons e rest ih =>
      rw [List.map_cons, List.nodup_cons] at h
      by_cases he : e.1 = k
      · rw [insert, if_pos he, List.map_cons, List.nodup_cons]
        exact ⟨he ▸ h.1, h.2⟩
      · rw [insert, if_neg he, List.map_cons, List.nodup_cons]
        refine ⟨fun hmem => ?_, ih h.2⟩
        rcases mem_keys_insert.mp hmem with hk | hk
        · exact he hk
        · exact h.1 hk

theorem lookup_eq_none {k : κ} {l : List (κ × α)} : lookup k l = none ↔ k ∉ l.map Prod.fst := by
  induction l with
  | nil => simp [lookup]
  | cons e rest ih =>
      by_cases he : e.1 = k
      · simp [lookup, he]
      · rw [lookup, if_neg he, ih, List.map_cons, List.mem_cons, not_or]
        exact ⟨fun h => ⟨fun hk => he hk.symm, h⟩, fun h => h.2⟩

/-- Where keys are distinct, a key has the value of its entry. -/
theorem lookup_eq_some {k : κ} {v : α} {l : List (κ × α)} (h : (l.map Prod.fst).Nodup) :
    lookup k l = some v ↔ (k, v) ∈ l := by
  induction l with
  | nil => simp [lookup]
  | cons e rest ih =>
      rw [List.map_cons, List.nodup_cons] at h
      by_cases he : e.1 = k
      · subst he
        have hrest : (e.1, v) ∉ rest := fun hmem => h.1 (List.mem_map.mpr ⟨_, hmem, rfl⟩)
        rw [lookup, if_pos rfl, List.mem_cons, Option.some.injEq]
        constructor
        · intro hv
          exact Or.inl (Prod.ext rfl hv.symm)
        · intro hmem
          rcases hmem with hmem | hmem
          · exact (congrArg Prod.snd hmem).symm
          · exact absurd hmem hrest
      · rw [lookup, if_neg he, ih h.2, List.mem_cons]
        refine ⟨Or.inr, fun hmem => hmem.resolve_left fun heq => he ?_⟩
        rw [← heq]

theorem lookup_insert_self (k : κ) (v : α) (l : List (κ × α)) :
    lookup k (insert k v l) = some v := by
  induction l with
  | nil => simp [insert, lookup]
  | cons e rest ih =>
      by_cases he : e.1 = k
      · simp [insert, he, lookup]
      · rw [insert, if_neg he, lookup, if_neg he, ih]

theorem lookup_insert_of_ne {k k' : κ} (h : k' ≠ k) (v : α) (l : List (κ × α)) :
    lookup k' (insert k v l) = lookup k' l := by
  induction l with
  | nil => simp [insert, lookup, h.symm]
  | cons e rest ih =>
      by_cases he : e.1 = k
      · have hk : ¬e.1 = k' := fun hk => h (hk.symm.trans he)
        rw [insert, if_pos he, lookup, if_neg h.symm, lookup, if_neg hk]
      · rw [insert, if_neg he, lookup, lookup, ih]

theorem lookup_remove (k k' : κ) (l : List (κ × α)) :
    lookup k' (remove k l) = if k' = k then none else lookup k' l := by
  induction l with
  | nil => simp [remove, lookup]
  | cons e rest ih =>
      by_cases he : e.1 = k
      · rw [remove, List.filter_cons_of_neg (by simpa using he), ← remove, ih, lookup]
        by_cases hk : k' = k
        · rw [if_pos hk, if_pos hk]
        · rw [if_neg hk, if_neg hk, if_neg fun h => hk (h.symm.trans he)]
      · rw [remove, List.filter_cons_of_pos (by simpa using he), lookup, ← remove, ih, lookup]
        by_cases hk : e.1 = k'
        · rw [if_pos hk, if_pos hk, if_neg fun h => he (hk.trans h)]
        · rw [if_neg hk, if_neg hk]

/-- Where keys are distinct, what a filter drops of a key is all there is of it. -/
theorem lookup_filter (p : κ → α → Bool) (k : κ) {l : List (κ × α)} (h : (l.map Prod.fst).Nodup) :
    lookup k (l.filter fun e => p e.1 e.2) = (lookup k l).filter (p k) := by
  induction l with
  | nil => rfl
  | cons e rest ih =>
      rw [List.map_cons, List.nodup_cons] at h
      by_cases he : e.1 = k
      · subst he
        have hrest : lookup e.1 (rest.filter fun e => p e.1 e.2) = none := by
          rw [ih h.2, lookup_eq_none.mpr h.1, Option.filter_none]
        rw [lookup, if_pos rfl, Option.filter_some]
        by_cases hp : p e.1 e.2 = true
        · rw [List.filter_cons_of_pos (by simpa using hp), lookup, if_pos rfl, if_pos hp]
        · rw [List.filter_cons_of_neg (by simpa using hp), hrest, if_neg hp]
      · rw [lookup, if_neg he, ← ih h.2]
        by_cases hp : p e.1 e.2 = true
        · rw [List.filter_cons_of_pos (by simpa using hp), lookup, if_neg he]
        · rw [List.filter_cons_of_neg (by simpa using hp)]

theorem insert_insert (k : κ) (v : α) (l : List (κ × α)) :
    insert k v (insert k v l) = insert k v l := by
  induction l with
  | nil => simp [insert]
  | cons e rest ih =>
      by_cases he : e.1 = k
      · simp [insert, he]
      · rw [insert, if_neg he, insert, if_neg he, ih]

/-- How often `p` holds after an insertion: the new value counts instead of the old one. -/
theorem countP_insert (p : α → Bool) (k : κ) (v : α) (l : List (κ × α)) :
    (insert k v l).countP (fun e => p e.2) + (lookup k l).toList.countP p =
      l.countP (fun e => p e.2) + [v].countP p := by
  induction l with
  | nil => simp [insert, lookup, List.countP_cons]
  | cons e rest ih =>
      by_cases he : e.1 = k
      · rw [insert, if_pos he, lookup, if_pos he]
        simp only [List.countP_cons, List.countP_nil, Option.toList_some]
        omega
      · rw [insert, if_neg he, lookup, if_neg he, List.countP_cons, List.countP_cons]
        omega

/-! ## The map -/

def empty : OrderedMap κ α :=
  ⟨[], List.nodup_nil⟩

variable (m : OrderedMap κ α)

/-- `m.get(k)`. -/
def get (k : κ) : Option α :=
  lookup k m.entries

/-- `m.has(k)`. -/
def has (k : κ) : Bool :=
  (m.get k).isSome

/-- `m.set(k, v)`. -/
def set (k : κ) (v : α) : OrderedMap κ α :=
  ⟨insert k v m.entries, nodup_insert k v m.nodup⟩

/-- `m.delete(k)`. -/
def delete (k : κ) : OrderedMap κ α :=
  ⟨remove k m.entries, m.nodup.sublist ((List.filter_sublist (l := m.entries)).map _)⟩

/-- Keep the entries that satisfy `p`. -/
def filter (p : κ → α → Bool) : OrderedMap κ α :=
  ⟨m.entries.filter fun e => p e.1 e.2, m.nodup.sublist ((List.filter_sublist (l := m.entries)).map _)⟩

/-- `m.values()`. -/
def values : List α :=
  m.entries.map Prod.snd

/-- The number of values that satisfy `p`. -/
def count (p : α → Bool) : ℕ :=
  m.values.countP p

/-- `m.keys()`. -/
def keys : List κ :=
  m.entries.map Prod.fst

/-- `m.size`. -/
def size : ℕ :=
  m.entries.length

/-- Delete the first `n` keys. -/
def drop (n : ℕ) : OrderedMap κ α :=
  ⟨m.entries.drop n, m.nodup.sublist ((List.drop_sublist n m.entries).map _)⟩

@[simp]
theorem get_empty (k : κ) : (empty : OrderedMap κ α).get k = none :=
  rfl

@[simp]
theorem get_set_self (k : κ) (v : α) : (m.set k v).get k = some v :=
  lookup_insert_self k v m.entries

theorem get_set_of_ne {k k' : κ} (h : k' ≠ k) (v : α) : (m.set k v).get k' = m.get k' :=
  lookup_insert_of_ne h v m.entries

theorem get_set (k k' : κ) (v : α) :
    (m.set k v).get k' = if k' = k then some v else m.get k' := by
  by_cases h : k' = k
  · rw [if_pos h, h, get_set_self]
  · rw [if_neg h, get_set_of_ne m h]

theorem get_delete (k k' : κ) : (m.delete k).get k' = if k' = k then none else m.get k' :=
  lookup_remove k k' m.entries

theorem get_filter (p : κ → α → Bool) (k : κ) : (m.filter p).get k = (m.get k).filter (p k) :=
  lookup_filter p k m.nodup

/-- What is not among the first keys is kept. -/
theorem get_drop_of_not_mem {n : ℕ} {k : κ} (h : k ∉ m.keys.take n) : (m.drop n).get k = m.get k := by
  have hkeys : k ∉ (m.entries.take n).map Prod.fst := by rwa [List.map_take]
  show lookup k (m.entries.drop n) = lookup k m.entries
  conv_rhs => rw [← List.take_append_drop n m.entries]
  generalize m.entries.take n = first at hkeys
  induction first with
  | nil => rfl
  | cons e rest ih =>
      rw [List.map_cons, List.mem_cons, not_or] at hkeys
      rw [List.cons_append, lookup, if_neg (Ne.symm hkeys.1), ih hkeys.2]

/-- The first keys are gone. -/
theorem get_drop_of_mem {n : ℕ} {k : κ} (h : k ∈ m.keys.take n) : (m.drop n).get k = none := by
  refine lookup_eq_none.mpr fun hmem => ?_
  have hnodup : (m.keys.take n ++ m.keys.drop n).Nodup := by
    rw [List.take_append_drop]
    exact m.nodup
  rw [drop, List.map_drop] at hmem
  exact (List.nodup_append.mp hnodup).2.2 k h k hmem rfl

/-- A key that is not there is set behind all others. -/
theorem entries_set_of_none {k : κ} (h : m.get k = none) (v : α) :
    (m.set k v).entries = m.entries ++ [(k, v)] := by
  have hkeys : k ∉ m.entries.map Prod.fst := lookup_eq_none.mp h
  show insert k v m.entries = m.entries ++ [(k, v)]
  generalize m.entries = entries at hkeys
  induction entries with
  | nil => rfl
  | cons e rest ih =>
      rw [List.map_cons, List.mem_cons, not_or] at hkeys
      rw [insert, if_neg (Ne.symm hkeys.1), ih hkeys.2, List.cons_append]

/-- Setting a key to the value it has keeps the map, also the order of its entries. -/
theorem set_set (k : κ) (v : α) : (m.set k v).set k v = m.set k v := by
  simp only [set, insert_insert]

theorem delete_delete (k : κ) : (m.delete k).delete k = m.delete k := by
  simp [delete, remove]

theorem has_eq_false {k : κ} : m.has k = false ↔ m.get k = none := by
  simp [has]

variable {m}

theorem mem_values {v : α} : v ∈ m.values ↔ ∃ k, m.get k = some v := by
  rw [values, List.mem_map]
  constructor
  · rintro ⟨e, he, rfl⟩
    exact ⟨e.1, (lookup_eq_some m.nodup).mpr he⟩
  · rintro ⟨k, hk⟩
    exact ⟨(k, v), (lookup_eq_some m.nodup).mp hk, rfl⟩

omit [DecidableEq κ] in
@[simp]
theorem count_empty (p : α → Bool) : (empty : OrderedMap κ α).count p = 0 :=
  rfl

omit [DecidableEq κ] in
theorem count_eq_entries (p : α → Bool) : m.count p = m.entries.countP fun e => p e.2 := by
  rw [count, values, List.countP_map]
  rfl

/-- Setting a new key adds its value to the count. -/
theorem count_set_of_none {k : κ} (h : m.get k = none) (p : α → Bool) (v : α) :
    (m.set k v).count p = m.count p + if p v then 1 else 0 := by
  have hcount := countP_insert p k v m.entries
  rw [show lookup k m.entries = none from h] at hcount
  rw [count_eq_entries, count_eq_entries]
  simpa [set, List.countP_cons] using hcount

/-- Setting a key again counts the new value instead of the old one. -/
theorem count_set_of_some {k : κ} {old : α} (h : m.get k = some old) (p : α → Bool) (v : α) :
    (m.set k v).count p + (if p old then 1 else 0) = m.count p + if p v then 1 else 0 := by
  have hcount := countP_insert p k v m.entries
  rw [show lookup k m.entries = some old from h] at hcount
  rw [count_eq_entries, count_eq_entries]
  simpa [set, List.countP_cons] using hcount

end OrderedMap
