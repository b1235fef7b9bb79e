import BpcProtocol.Lib.Fallible
import Mathlib.Data.Int.Notation
import Mathlib.Data.List.Pairwise
import Mathlib.Data.List.Sort
import Mathlib.Tactic.Common

set_option autoImplicit false

/-! # Relational tables

A table is a list of rows that carries its own constraints: every row passes the row checks, and no
two rows are kept apart by a primary key or a unique constraint. Every statement that writes ends
in `Table.write`, which fails unless the rows it leaves satisfy the constraints, so a table that
breaks them cannot be built. -/

namespace Relational

open Fallible

variable {ρ : Type}

/-- The constraints of a table: `check` is the conjunction of its row checks, and `clash` holds of
    two rows that agree on a primary key or on a unique constraint. -/
structure Schema (ρ : Type) where
  check : ρ → Bool
  clash : ρ → ρ → Bool

/-- The rows satisfy the table's constraints. -/
def Schema.Ok (s : Schema ρ) (rows : List ρ) : Prop :=
  (∀ r ∈ rows, s.check r = true) ∧ rows.Pairwise fun a b => s.clash a b = false

instance (s : Schema ρ) (rows : List ρ) : Decidable (s.Ok rows) :=
  inferInstanceAs (Decidable (_ ∧ _))

/-- A constraint violation, the only error a statement of this library raises. -/
inductive SqlError where
  | constraintViolation
  deriving DecidableEq, Repr

/-- Rows together with the proof that they satisfy the constraints. -/
structure Table (s : Schema ρ) where
  rows : List ρ
  ok : s.Ok rows

namespace Table

variable {s : Schema ρ}

@[ext]
theorem ext {t t' : Table s} (h : t.rows = t'.rows) : t = t' := by
  cases t
  cases t'
  cases h
  rfl

instance [DecidableEq ρ] : DecidableEq (Table s) :=
  fun t t' => decidable_of_iff (t.rows = t'.rows) ⟨Table.ext, congrArg Table.rows⟩

/-- The table without rows. -/
def empty (s : Schema ρ) : Table s :=
  ⟨[], by simp [Schema.Ok]⟩

@[simp]
theorem rows_empty : (empty s).rows = [] :=
  rfl

/-- Replace the rows, failing if the new rows break a constraint. -/
def write (s : Schema ρ) (rows : List ρ) : Except SqlError (Table s) :=
  if h : s.Ok rows then .ok ⟨rows, h⟩ else .error .constraintViolation

theorem write_eq_ok {rows : List ρ} {t : Table s} : write s rows = .ok t ↔ t.rows = rows := by
  unfold write
  split
  · next h => simp [Table.ext_iff, eq_comm]
  · next h =>
      simp only [reduceCtorEq, false_iff]
      exact fun he => h (he ▸ t.ok)

theorem write_of_ok {rows : List ρ} (h : s.Ok rows) : write s rows = .ok ⟨rows, h⟩ :=
  dif_pos h

/-- `INSERT`: append a row. -/
def insert (t : Table s) (r : ρ) : Except SqlError (Table s) :=
  write s (t.rows ++ [r])

theorem insert_eq_ok {t t' : Table s} {r : ρ} : t.insert r = .ok t' ↔ t'.rows = t.rows ++ [r] :=
  write_eq_ok

/-- `UPDATE … WHERE`: rewrite the selected rows and count them. -/
def update (t : Table s) (where_ : ρ → Bool) (set : ρ → ρ) : Except SqlError (Table s × ℕ) := do
  let t' ← write s (t.rows.map fun r => if where_ r then set r else r)
  pure (t', t.rows.countP where_)

theorem update_eq_ok {t t' : Table s} {where_ : ρ → Bool} {set : ρ → ρ} {n : ℕ} :
    t.update where_ set = .ok (t', n) ↔
      t'.rows = t.rows.map (fun r => if where_ r then set r else r) ∧ n = t.rows.countP where_ := by
  simp only [update, bind_eq_ok, pure_eq_ok, Prod.mk.injEq]
  constructor
  · rintro ⟨u, hu, rfl, rfl⟩
    exact ⟨write_eq_ok.mp hu, rfl⟩
  · rintro ⟨hrows, rfl⟩
    exact ⟨t', write_eq_ok.mpr hrows, rfl, rfl⟩

/-- `INSERT … ON CONFLICT DO NOTHING`: append the row unless it clashes, and count the insertion. -/
def insertOrIgnore (t : Table s) (r : ρ) : Except SqlError (Table s × ℕ) :=
  if t.rows.any (s.clash · r) then .ok (t, 0) else do
    let t' ← t.insert r
    pure (t', 1)

theorem insertOrIgnore_eq_ok {t t' : Table s} {r : ρ} {n : ℕ}
    (h : t.insertOrIgnore r = .ok (t', n)) :
    (n = 0 ∧ t' = t ∧ ∃ x ∈ t.rows, s.clash x r = true) ∨
      (n = 1 ∧ t.insert r = .ok t' ∧ ∀ x ∈ t.rows, s.clash x r = false) := by
  unfold insertOrIgnore at h
  split at h
  · next hclash =>
      simp only [Except.ok.injEq, Prod.mk.injEq] at h
      exact Or.inl ⟨h.2.symm, h.1.symm, List.any_eq_true.mp hclash⟩
  · next hclash =>
      simp only [bind_eq_ok, pure_eq_ok, Prod.mk.injEq] at h
      obtain ⟨u, hu, rfl, rfl⟩ := h
      exact Or.inr ⟨rfl, hu, by simpa using hclash⟩

/-- `DELETE … WHERE`: drop the selected rows and count them. -/
def delete (t : Table s) (where_ : ρ → Bool) : Table s × ℕ :=
  (⟨t.rows.filter fun r => !where_ r, fun r hr => t.ok.1 r (List.mem_filter.mp hr).1,
    t.ok.2.sublist List.filter_sublist⟩, t.rows.countP where_)

/-- `INSERT … ON CONFLICT DO UPDATE SET …` of all the columns: the row takes the place of the one
    it clashes with. -/
def upsert (t : Table s) (r : ρ) : Except SqlError (Table s × ℕ) :=
  if t.rows.any (s.clash · r) then t.update (s.clash · r) fun _ => r
  else do
    let t' ← t.insert r
    pure (t', 1)

/-- The first row a `SELECT … WHERE` returns, where the condition pins a key. -/
def select (t : Table s) (where_ : ρ → Bool) : Option ρ :=
  t.rows.find? where_

theorem mem_of_select {t : Table s} {where_ : ρ → Bool} {r : ρ} (h : t.select where_ = some r) :
    r ∈ t.rows ∧ where_ r = true :=
  ⟨List.mem_of_find?_eq_some h, List.find?_some h⟩

theorem select_eq_none {t : Table s} {where_ : ρ → Bool} :
    t.select where_ = none ↔ ∀ r ∈ t.rows, where_ r = false := by
  simp [select, List.find?_eq_none]

theorem select_insert {t t' : Table s} {r : ρ} (h : t.insert r = .ok t') (where_ : ρ → Bool) :
    t'.select where_ = (t.select where_).or (if where_ r then some r else none) := by
  simp only [select, insert_eq_ok.mp h, List.find?_append, List.find?_singleton]

/-- An update leaves a selection that does not depend on the columns it sets. -/
theorem select_update {t t' : Table s} {where_ q : ρ → Bool} {set : ρ → ρ} {n : ℕ}
    (h : t.update where_ set = .ok (t', n)) (hq : ∀ r, q (set r) = q r) :
    t'.select q = (t.select q).map fun r => if where_ r then set r else r := by
  simp only [select, (update_eq_ok.mp h).1, List.find?_map]
  congr 2
  funext r
  simp only [Function.comp_apply]
  split
  · exact hq r
  · rfl

theorem check_of_mem (t : Table s) {r : ρ} (h : r ∈ t.rows) : s.check r = true :=
  t.ok.1 r h

theorem pairwise (t : Table s) : t.rows.Pairwise fun a b => s.clash a b = false :=
  t.ok.2

/-- Two rows of a table that clash are the same row, for a symmetric clash relation. -/
theorem eq_of_clash (t : Table s) (hsymm : ∀ a b, s.clash a b = s.clash b a) {a b : ρ}
    (ha : a ∈ t.rows) (hb : b ∈ t.rows) (h : s.clash a b = true) : a = b := by
  by_contra hne
  have : Std.Symm fun a b => s.clash a b = false := ⟨fun x y hxy => by rw [hsymm]; exact hxy⟩
  have hfalse : s.clash a b = false := t.pairwise.forall ha hb hne
  rw [h] at hfalse
  exact absurd hfalse (by decide)

/-- An insertion succeeds if the row passes its check and clashes with none. -/
theorem insert_of_fresh {t : Table s} {r : ρ} (hcheck : s.check r = true)
    (hfresh : ∀ x ∈ t.rows, s.clash x r = false) : ∃ t', t.insert r = .ok t' := by
  refine ⟨_, write_of_ok ⟨fun x hx => ?_, ?_⟩⟩
  · rcases List.mem_append.mp hx with hx | hx
    · exact t.check_of_mem hx
    · rwa [List.mem_singleton.mp hx]
  · rw [List.pairwise_append]
    refine ⟨t.pairwise, List.pairwise_singleton _ _, fun x hx y hy => ?_⟩
    rw [List.mem_singleton.mp hy]
    exact hfresh x hx

theorem insertOrIgnore_of_fresh {t : Table s} {r : ρ} (hcheck : s.check r = true)
    (hfresh : ∀ x ∈ t.rows, s.clash x r = false) : ∃ t', t.insertOrIgnore r = .ok (t', 1) := by
  obtain ⟨t', ht'⟩ := insert_of_fresh hcheck hfresh
  have hany : t.rows.any (s.clash · r) = false := by simpa using hfresh
  exact ⟨t', by simp only [insertOrIgnore, hany, ht']; rfl⟩

theorem insertOrIgnore_of_clash {t : Table s} {r x : ρ} (hx : x ∈ t.rows)
    (hclash : s.clash x r = true) : t.insertOrIgnore r = .ok (t, 0) := by
  have hany : t.rows.any (s.clash · r) = true := List.any_eq_true.mpr ⟨x, hx, hclash⟩
  simp only [insertOrIgnore, hany, if_true]

/-- An update of the one row that is selected succeeds if its new columns pass the check and clash as
    the old ones do. -/
theorem update_one {t : Table s} {where_ : ρ → Bool} {set : ρ → ρ} {a : ρ}
    (hrefl : ∀ x, s.clash x x = true) (ha : a ∈ t.rows) (hwhere : where_ a = true)
    (hone : ∀ x ∈ t.rows, where_ x = true → x = a) (hcheck : s.check (set a) = true)
    (hclash : ∀ x, s.clash (set a) x = s.clash a x ∧ s.clash x (set a) = s.clash x a) :
    ∃ t', t.update where_ set = .ok (t', 1) := by
  have hrows : s.Ok (t.rows.map fun r => if where_ r then set r else r) := by
    constructor
    · intro r hr
      obtain ⟨x, hx, rfl⟩ := List.mem_map.mp hr
      split
      · next hw => exact hone x hx hw ▸ hcheck
      · exact t.check_of_mem hx
    · rw [List.pairwise_map]
      refine t.pairwise.imp_of_mem fun {x y} hx hy hxy => ?_
      by_cases hwx : where_ x = true
      · obtain rfl := hone x hx hwx
        by_cases hwy : where_ y = true
        · rw [hone y hy hwy, hrefl] at hxy
          cases hxy
        · rw [if_pos hwx, if_neg hwy, (hclash y).1, hxy]
      · by_cases hwy : where_ y = true
        · obtain rfl := hone y hy hwy
          rw [if_neg hwx, if_pos hwy, (hclash x).2, hxy]
        · rw [if_neg hwx, if_neg hwy, hxy]
  have hcount : t.rows.countP where_ = 1 := by
    have hnodup : t.rows.Nodup := t.pairwise.imp fun {x y} hxy he => by
      rw [he, hrefl] at hxy
      cases hxy
    have hall : ∀ x ∈ t.rows.filter where_, x = a := fun x hx =>
      hone x (List.mem_filter.mp hx).1 (List.mem_filter.mp hx).2
    have hselected : a ∈ t.rows.filter where_ := List.mem_filter.mpr ⟨ha, hwhere⟩
    have hdistinct := hnodup.filter where_
    rw [List.countP_eq_length_filter]
    rcases hrows : t.rows.filter where_ with _ | ⟨x, _ | ⟨y, rest⟩⟩
    · simp [hrows] at hselected
    · rfl
    · rw [hrows] at hall hdistinct
      have hxy : x = y := (hall x (by simp)).trans (hall y (by simp)).symm
      simp [hxy] at hdistinct
  exact ⟨⟨_, hrows⟩, update_eq_ok.mpr ⟨rfl, hcount.symm⟩⟩

/-! ## Rows found by a key

A column `key` that the table keeps unique: selections by it after the two writes that put a new
row in the place of the one with its key. -/

section Key

variable {κ : Type} [BEq κ] [LawfulBEq κ] (key : ρ → κ)

theorem select_key_insert {t t' : Table s} {r : ρ} (h : t.insert r = .ok t')
    (hnone : t.select (fun x => key x == key r) = none) (k : κ) :
    t'.select (fun x => key x == k) =
      if key r == k then some r else t.select fun x => key x == k := by
  rw [select_insert h]
  by_cases hk : key r = k
  · subst hk
    simp [hnone]
  · simp [hk]

/-- A forward compare-and-set of the row with `r`'s key, which finds that row, leaves `r`. -/
theorem select_key_update {t t' : Table s} {r cur : ρ} {p : ρ → Bool} {set : ρ → ρ} {n : ℕ}
    (h : t.update (fun x => key x == key r && p x) set = .ok (t', n))
    (hset : ∀ x, key x = key r → set x = r) (hkey : ∀ x, key (set x) = key x)
    (hcur : t.select (fun x => key x == key r) = some cur) (hp : p cur = true) (k : κ) :
    t'.select (fun x => key x == k) =
      if key r == k then some r else t.select fun x => key x == k := by
  rw [select_update (q := fun x => key x == k) h fun x => by rw [hkey]]
  by_cases hk : key r = k
  · subst hk
    have hck : key cur = key r := by simpa using (mem_of_select hcur).2
    simp [hcur, hck, hp, hset cur hck]
  · rcases hrow : t.select fun x => key x == k with _ | row
    · simp [hk]
    · have hrk : key row = k := by simpa using (mem_of_select hrow).2
      have hne : ¬ k = key r := fun he => hk he.symm
      simp [hk, hrk, hne]

/-! Where two rows clash exactly if they agree on the key, a key has one row at most. -/

variable {key}

theorem eq_of_key (hclash : ∀ a b, s.clash a b = (key a == key b)) {t : Table s} {a b : ρ}
    (ha : a ∈ t.rows) (hb : b ∈ t.rows) (h : key a = key b) : a = b := by
  refine t.eq_of_clash (fun x y => ?_) ha hb (by rw [hclash, h, beq_self_eq_true])
  rw [hclash, hclash, Bool.beq_comm]

/-- The row that is selected under a key is the only one. -/
theorem eq_of_select_key (hclash : ∀ a b, s.clash a b = (key a == key b)) {t : Table s} {k : κ}
    {row x : ρ} (h : t.select (fun x => key x == k) = some row) (hx : x ∈ t.rows)
    (hk : key x = k) : x = row := by
  obtain ⟨hrow, hrowKey⟩ := mem_of_select h
  exact eq_of_key hclash hx hrow (hk.trans (by simpa using hrowKey : key row = k).symm)

/-- No more than one row has a key, and one has it where it is selected. -/
theorem countP_key (hclash : ∀ a b, s.clash a b = (key a == key b)) (t : Table s) (k : κ) :
    t.rows.countP (fun x => key x == k) =
      if (t.select fun x => key x == k).isSome then 1 else 0 := by
  have hpairwise : t.rows.Pairwise fun a b => key a ≠ key b :=
    t.pairwise.imp fun h heq => by
      rw [hclash, heq, beq_self_eq_true] at h
      exact absurd h (by decide)
  rw [select]
  generalize t.rows = rows at hpairwise
  induction rows with
  | nil => rfl
  | cons x rest ih =>
      rw [List.pairwise_cons] at hpairwise
      by_cases hx : key x = k
      · have hrest : rest.countP (fun y => key y == k) = 0 := by
          rw [List.countP_eq_zero]
          intro y hy hyk
          exact hpairwise.1 y hy (hx.trans (by simpa using hyk : key y = k).symm)
        simp [hx, hrest]
      · rw [List.countP_cons_of_neg (by simpa using hx), List.find?_cons_of_neg (by simpa using hx)]
        exact ih hpairwise.2

omit [LawfulBEq κ] in
/-- An insertion under a new key succeeds if the row passes its check. -/
theorem insert_isOk (hclash : ∀ a b, s.clash a b = (key a == key b)) {t : Table s} {r : ρ}
    (hcheck : s.check r = true) (hnone : t.select (fun x => key x == key r) = none) :
    ∃ t', t.insert r = .ok t' :=
  insert_of_fresh hcheck fun x hx => by
    rw [hclash]
    exact select_eq_none.mp hnone x hx

/-- An inserted row passes its check. -/
theorem check_of_insert {t t' : Table s} {r : ρ} (h : t.insert r = .ok t') : s.check r = true :=
  t'.check_of_mem (by rw [insert_eq_ok.mp h]; exact List.mem_append_right _ List.mem_cons_self)

/-- Rows in which the row of a key is replaced by a row of that key. -/
theorem find?_replace {rows : List ρ} {r : ρ} (k : κ) :
    (rows.map fun x => if key x == key r then r else x).find? (fun x => key x == k) =
      (rows.find? fun x => key x == k).map fun x => if key x == key r then r else x := by
  rw [List.find?_map]
  congr 2
  funext x
  by_cases hx : key x = key r
  · simp [hx]
  · simp [hx]

/-- The row under a key after an upsert, which touches one row. -/
theorem select_key_upsert (hclash : ∀ a b, s.clash a b = (key a == key b)) {t t' : Table s} {r : ρ}
    {n : ℕ} (h : t.upsert r = .ok (t', n)) (k : κ) :
    t'.select (fun x => key x == k) =
      if key r == k then some r else t.select fun x => key x == k := by
  unfold upsert at h
  split at h
  · next hany =>
      obtain ⟨x, hx, hxr⟩ := List.any_eq_true.mp hany
      have hrows := (update_eq_ok.mp h).1
      simp only [hclash] at hrows hxr
      rw [select, hrows, find?_replace]
      by_cases hk : key r = k
      · subst hk
        cases hcur : t.rows.find? fun x => key x == key r with
        | none => exact absurd hxr (List.find?_eq_none.mp hcur x hx)
        | some cur =>
            have hcurKey : key cur = key r := by simpa using List.find?_some hcur
            simp [hcurKey]
      · cases hrow : t.rows.find? fun x => key x == k with
        | none => simp [select, hrow, hk]
        | some row =>
            have hrowKey : key row = k := by simpa using List.find?_some hrow
            have hne : ¬k = key r := fun he => hk he.symm
            simp [select, hrow, hrowKey, hk, hne]
  · next hany =>
      simp only [bind_eq_ok, pure_eq_ok, Prod.mk.injEq] at h
      obtain ⟨u, hu, rfl, -⟩ := h
      refine select_key_insert key hu ?_ k
      rw [select_eq_none]
      intro x hx
      rw [← hclash]
      simpa using fun hxr => hany (List.any_eq_true.mpr ⟨x, hx, hxr⟩)

/-- An upsert succeeds if the row passes its check, and touches one row. -/
theorem upsert_isOk (hclash : ∀ a b, s.clash a b = (key a == key b)) {t : Table s} {r : ρ}
    (hcheck : s.check r = true) : ∃ t', t.upsert r = .ok (t', 1) := by
  unfold upsert
  by_cases hany : t.rows.any (s.clash · r) = true
  · rw [if_pos hany]
    have hok : s.Ok (t.rows.map fun x => if s.clash x r then r else x) := by
      refine ⟨fun x hx => ?_, List.pairwise_map.mpr (t.pairwise.imp fun {x y} hxy => ?_)⟩
      · obtain ⟨y, hy, rfl⟩ := List.mem_map.mp hx
        split
        · exact hcheck
        · exact t.check_of_mem hy
      · -- replacing a row keeps its key
        have hkey : ∀ z, key (if s.clash z r then r else z) = key z := by
          intro z
          rw [hclash]
          by_cases hz : key z = key r
          · simp [hz]
          · simp [hz]
        rw [hclash, hkey, hkey, ← hclash]
        exact hxy
    refine ⟨⟨_, hok⟩, update_eq_ok.mpr ⟨rfl, ?_⟩⟩
    obtain ⟨x, hx, hxr⟩ := List.any_eq_true.mp hany
    have hcount := countP_key hclash t (key r)
    have hsome : (t.select fun x => key x == key r).isSome = true := by
      rw [select, List.find?_isSome]
      exact ⟨x, hx, by rwa [hclash] at hxr⟩
    rw [hsome, if_pos rfl] at hcount
    rw [← hcount]
    congr 1
    funext y
    rw [hclash]
  · rw [if_neg hany]
    have hnone : t.select (fun x => key x == key r) = none := by
      rw [select_eq_none]
      intro x hx
      rw [← hclash]
      simpa using fun hxr => hany (List.any_eq_true.mpr ⟨x, hx, hxr⟩)
    obtain ⟨t', ht'⟩ := insert_isOk hclash hcheck hnone
    exact ⟨t', by rw [ht']; rfl⟩

/-- An upserted row passes its check. -/
theorem check_of_upsert (hclash : ∀ a b, s.clash a b = (key a == key b)) {t t' : Table s} {r : ρ}
    {n : ℕ} (h : t.upsert r = .ok (t', n)) : s.check r = true := by
  have hselect := select_key_upsert hclash h (key r)
  rw [beq_self_eq_true, if_pos rfl] at hselect
  exact t'.check_of_mem (mem_of_select hselect).1

/-- How many rows a deletion by key and condition affects. -/
theorem count_delete (hclash : ∀ a b, s.clash a b = (key a == key b)) (t : Table s) (k : κ)
    (p : ρ → Bool) :
    (t.delete fun x => key x == k && p x).2 =
      if (t.select fun x => key x == k).any p then 1 else 0 := by
  show t.rows.countP (fun x => key x == k && p x) = _
  cases hrow : t.select fun x => key x == k with
  | none =>
      rw [Option.any_none, if_neg (by decide), List.countP_eq_zero]
      intro x hx hxk
      rw [Bool.and_eq_true] at hxk
      exact absurd (select_eq_none.mp hrow x hx) (by rw [hxk.1]; decide)
  | some row =>
      have hsame : ∀ x ∈ t.rows, (key x == k && p x) = (key x == k && p row) := by
        intro x hx
        by_cases hxk : key x = k
        · rw [eq_of_select_key hclash hrow hx hxk]
        · have hne : (key x == k) = false := by simpa using hxk
          rw [hne, Bool.false_and, Bool.false_and]
      rw [List.countP_congr fun x hx => by rw [hsame x hx], Option.any_some]
      cases hp : p row with
      | false => simp
      | true =>
          have hcount := countP_key hclash t k
          rw [hrow] at hcount
          simpa using hcount

/-- How many rows an update by key and condition affects. -/
theorem count_update (hclash : ∀ a b, s.clash a b = (key a == key b)) {t t' : Table s} {k : κ}
    {p : ρ → Bool} {set : ρ → ρ} {n : ℕ}
    (h : t.update (fun x => key x == k && p x) set = .ok (t', n)) :
    n = if (t.select fun x => key x == k).any p then 1 else 0 :=
  (update_eq_ok.mp h).2.trans (count_delete hclash t k p)

/-- The row under a key after the row of a key is deleted. -/
theorem select_key_delete (t : Table s) (r k : κ) {p : ρ → Bool}
    (hp : ∀ x ∈ t.rows, key x = r → p x = true) :
    (t.delete fun x => key x == r && p x).1.select (fun x => key x == k) =
      if r == k then none else t.select fun x => key x == k := by
  show (t.rows.filter fun x => !(key x == r && p x)).find? (fun x => key x == k) = _
  by_cases hk : r = k
  · subst hk
    rw [beq_self_eq_true, if_pos rfl, List.find?_eq_none]
    intro x hx hxr
    obtain ⟨hmem, hkeep⟩ := List.mem_filter.mp hx
    rw [hxr, hp x hmem (by simpa using hxr)] at hkeep
    exact absurd hkeep (by decide)
  · rw [if_neg (by simpa using hk), List.find?_filter, select]
    congr 1
    funext x
    by_cases hxk : key x = k
    · have hne : (k == r) = false := by simpa using fun he : k = r => hk he.symm
      simp [hxk, hne]
    · simp [hxk]

end Key

end Table

/-! ## Row order -/

section OrderBy

variable {κ : Type} [LinearOrder κ]

/-- `ORDER BY key`. -/
def orderBy (key : ρ → κ) (rows : List ρ) : List ρ :=
  rows.insertionSort fun a b => key a ≤ key b

theorem orderBy_of_pairwise {key : ρ → κ} {rows : List ρ}
    (h : rows.Pairwise fun a b => key a ≤ key b) : orderBy key rows = rows :=
  h.insertionSort_eq

@[simp]
theorem mem_orderBy {key : ρ → κ} {rows : List ρ} {r : ρ} : r ∈ orderBy key rows ↔ r ∈ rows :=
  List.mem_insertionSort _

/-- The first row in the order has the least key. -/
theorem orderBy_head {key : ρ → κ} {rows : List ρ} {r : ρ} (h : (orderBy key rows).head? = some r) :
    r ∈ rows ∧ ∀ x ∈ rows, key r ≤ key x := by
  have hsorted : (orderBy key rows).Pairwise fun a b => key a ≤ key b :=
    List.pairwise_insertionSort (fun a b => key a ≤ key b) rows
  cases hrows : orderBy key rows with
  | nil =>
      rw [hrows] at h
      cases h
  | cons a rest =>
      rw [hrows] at h hsorted
      cases h
      have hmem : ∀ x, x ∈ rows ↔ x ∈ r :: rest := fun x => by
        rw [← hrows, mem_orderBy]
      refine ⟨(hmem r).mpr List.mem_cons_self, fun x hx => ?_⟩
      rcases List.mem_cons.mp ((hmem x).mp hx) with rfl | hrest
      · exact le_refl _
      · exact (List.pairwise_cons.mp hsorted).1 x hrest

end OrderBy

/-- `max(key)` over the rows, `NULL` where there are none. -/
def maxOf (key : ρ → ℤ) (rows : List ρ) : Option ℤ :=
  (rows.map key).max?

theorem le_of_maxOf {key : ρ → ℤ} {rows : List ρ} {m : ℤ} (h : maxOf key rows = some m) {r : ρ}
    (hr : r ∈ rows) : key r ≤ m :=
  (List.max?_le_iff h).mp (Int.le_refl m) _ (List.mem_map_of_mem hr)

theorem maxOf_eq_none {key : ρ → ℤ} {rows : List ρ} : maxOf key rows = none ↔ rows = [] := by
  simp [maxOf, List.max?_eq_none_iff]

end Relational
