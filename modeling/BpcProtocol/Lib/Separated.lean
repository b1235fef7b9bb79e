import Mathlib.Data.List.DropRight
import Mathlib.Data.List.Infix

set_option autoImplicit false

/-! # Separated segments

Segments that are joined by a separator none of them contains. What stands between two separators
of the whole is one of the inner segments. -/

namespace Separated

variable {α : Type*} (sep : α)

/-- Segments with a separator between any two. -/
def join : List (List α) → List α
  | [] => []
  | [a] => a
  | a :: rest => a ++ sep :: join rest

theorem join_cons {a : List α} {rest : List (List α)} (h : rest ≠ []) :
    join sep (a :: rest) = a ++ sep :: join sep rest := by
  cases rest with
  | nil => exact absurd rfl h
  | cons b rest => rfl

theorem join_append {xs ys : List (List α)} (hx : xs ≠ []) (hy : ys ≠ []) :
    join sep (xs ++ ys) = join sep xs ++ sep :: join sep ys := by
  induction xs with
  | nil => exact absurd rfl hx
  | cons a rest ih =>
      by_cases hrest : rest = []
      · subst hrest
        exact join_cons sep hy
      · rw [List.cons_append, join_cons sep (by simp [hrest]), ih hrest, join_cons sep hrest,
          List.append_assoc, List.cons_append]

variable {sep}

/-- The inner segments are those that have a segment on either side. -/
theorem mem_inner {segs : List (List α)} {k : List α} (h : k ∈ segs.tail.dropLast) :
    ∃ xs ys, xs ≠ [] ∧ ys ≠ [] ∧ segs = xs ++ k :: ys := by
  cases segs with
  | nil => cases h
  | cons a rest =>
      rw [List.tail_cons] at h
      have hrest : rest ≠ [] := by
        rintro rfl
        cases h
      obtain ⟨us, vs, huv⟩ := List.append_of_mem h
      refine ⟨a :: us, vs ++ [rest.getLast hrest], by simp, by simp, ?_⟩
      conv_lhs => rw [← List.dropLast_append_getLast hrest, huv]
      simp

/-- The first separator splits a list in one way. -/
theorem eq_of_append_cons {a b v w : List α} (ha : sep ∉ a) (hb : sep ∉ b)
    (h : a ++ sep :: v = b ++ sep :: w) : a = b := by
  rcases List.append_eq_append_iff.mp h with ⟨x, rfl, hx⟩ | ⟨x, rfl, hx⟩
  · cases x with
    | nil => simp
    | cons y x =>
        rw [List.cons_append, List.cons.injEq] at hx
        exact absurd (show sep ∈ a ++ y :: x by rw [← hx.1]; simp) hb
  · cases x with
    | nil => simp
    | cons y x =>
        rw [List.cons_append, List.cons.injEq] at hx
        exact absurd (show sep ∈ b ++ y :: x by rw [← hx.1]; simp) ha

/-- Two ways to put a separator into one list: at the same place, or one before the other. -/
theorem append_cons_eq_iff {a b v w : List α} :
    a ++ sep :: v = b ++ sep :: w ↔
      (a = b ∧ v = w) ∨ (∃ x, b = a ++ sep :: x ∧ v = x ++ sep :: w) ∨
        ∃ x, a = b ++ sep :: x ∧ w = x ++ sep :: v := by
  constructor
  · intro h
    rcases List.append_eq_append_iff.mp h with ⟨x, rfl, hx⟩ | ⟨x, rfl, hx⟩
    · cases x with
      | nil => exact .inl ⟨by simp, by simpa using hx⟩
      | cons y x =>
          rw [List.cons_append, List.cons.injEq] at hx
          exact .inr (.inl ⟨x, by rw [hx.1], hx.2⟩)
    · cases x with
      | nil => exact .inl ⟨by simp, by simpa using hx.symm⟩
      | cons y x =>
          rw [List.cons_append, List.cons.injEq] at hx
          exact .inr (.inr ⟨x, by rw [hx.1], hx.2⟩)
  · rintro (⟨rfl, rfl⟩ | ⟨x, rfl, rfl⟩ | ⟨x, rfl, rfl⟩)
    · rfl
    · simp
    · simp

/-- What stands before the first separator is the first segment. -/
theorem mem_dropLast_of_prefix {segs : List (List α)} (hsegs : ∀ s ∈ segs, sep ∉ s) {k v : List α}
    (hk : sep ∉ k) (h : k ++ sep :: v = join sep segs) : k ∈ segs.dropLast := by
  cases segs with
  | nil => simp [join] at h
  | cons b tail =>
      rw [List.forall_mem_cons] at hsegs
      by_cases htail : tail = []
      · -- the only segment holds no separator
        subst htail
        have hmem : sep ∈ join sep [b] := by
          rw [← h]
          simp
        exact absurd hmem hsegs.1
      · rw [join_cons sep htail] at h
        rw [eq_of_append_cons hk hsegs.1 h, List.dropLast_cons_of_ne_nil htail]
        exact List.mem_cons_self

/-- What stands between two separators is an inner segment, and the other way round. -/
theorem infix_join_iff {segs : List (List α)} (hsegs : ∀ s ∈ segs, sep ∉ s) {k : List α}
    (hk : sep ∉ k) : (sep :: k ++ [sep]) <:+: join sep segs ↔ k ∈ segs.tail.dropLast := by
  constructor
  · rintro ⟨u, v, huv⟩
    replace huv : u ++ sep :: (k ++ sep :: v) = join sep segs := by simpa using huv
    induction segs generalizing u with
    | nil => simp [join] at huv
    | cons a rest ih =>
        rw [List.forall_mem_cons] at hsegs
        rw [List.tail_cons]
        by_cases hrest : rest = []
        · subst hrest
          have hmem : sep ∈ join sep [a] := by
            rw [← huv]
            simp
          exact absurd hmem hsegs.1
        · rw [join_cons sep hrest] at huv
          rcases List.append_eq_append_iff.mp huv with ⟨w, ha, hw⟩ | ⟨w, hu, hw⟩
          · cases w with
            | nil =>
                rw [List.nil_append, List.cons.injEq] at hw
                exact mem_dropLast_of_prefix hsegs.2 hk hw.2
            | cons x w =>
                rw [List.cons_append, List.cons.injEq] at hw
                exact absurd (show sep ∈ a by rw [ha, ← hw.1]; simp) hsegs.1
          · cases w with
            | nil =>
                rw [List.nil_append, List.cons.injEq] at hw
                exact mem_dropLast_of_prefix hsegs.2 hk hw.2.symm
            | cons x w =>
                -- the two separators stand among the other segments
                rw [List.cons_append, List.cons.injEq] at hw
                have hinner := ih hsegs.2 w hw.2.symm
                rw [← List.tail_dropLast] at hinner
                exact List.mem_of_mem_tail hinner
  · intro h
    obtain ⟨xs, ys, hx, hy, rfl⟩ := mem_inner h
    refine ⟨join sep xs, join sep ys, ?_⟩
    rw [join_append sep hx (by simp), join_cons sep hy]
    simp

/-- The segment behind the last separator. -/
theorem rtakeWhile_append_cons {p : α → Bool} (hsep : p sep = false) (a b : List α) :
    (a ++ sep :: b).rtakeWhile p = b.rtakeWhile p := by
  have htake : ∀ x y : List α, (x ++ sep :: y).takeWhile p = x.takeWhile p := by
    intro x y
    induction x with
    | nil => simp [hsep]
    | cons c x ih =>
        by_cases hc : p c = true
        · simp [hc, ih]
        · simp [hc]
  have hrev : (a ++ sep :: b).reverse = b.reverse ++ sep :: a.reverse := by simp
  rw [List.rtakeWhile, hrev, htake, List.rtakeWhile]

end Separated
