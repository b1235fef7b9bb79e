import Mathlib.Data.Fintype.Card
import Mathlib.Data.Finset.Card
import Mathlib.Data.Int.Notation

set_option autoImplicit false

/-! # Majorities of ranked registers

Registers that each hold at most one value, and take a proposed value only when it outranks the one
they hold or is that value. Two majorities share a register, so of each rank at most one value is
ever accepted by a majority, and whatever a majority holds later ranks no lower. -/

namespace Quorum

/-! ## Majorities -/

variable {ι : Type} [Fintype ι] [DecidableEq ι]

/-- More than half of the members. -/
def Majority (s : Finset ι) : Prop := Fintype.card ι / 2 + 1 ≤ s.card

theorem Majority.inter {s t : Finset ι} (hs : Majority s) (ht : Majority t) :
    ∃ i, i ∈ s ∧ i ∈ t := by
  unfold Majority at hs ht
  have hcard : (Finset.univ : Finset ι).card < s.card + t.card := by
    rw [Finset.card_univ]
    omega
  obtain ⟨i, hi⟩ := Finset.inter_nonempty_of_card_lt_card_add_card (Finset.subset_univ s)
    (Finset.subset_univ t) hcard
  exact ⟨i, (Finset.mem_inter.mp hi).1, (Finset.mem_inter.mp hi).2⟩

/-! ## One register -/

variable {α : Type} (rank : α → ℤ)

/-- A register takes `v`: it is empty, holds a value of lower rank, or holds `v`. -/
def Takes (held : Option α) (v : α) : Prop :=
  ∀ w ∈ held, rank w < rank v ∨ w = v

/-- A register that has accepted some values: it holds one that outranks each of them or is it, and
    of each rank it has accepted one at most. -/
structure Covers (accepted : α → Prop) (held : Option α) : Prop where
  outranked : ∀ v, accepted v → ∃ w ∈ held, rank v < rank w ∨ v = w
  agree : ∀ v w, accepted v → accepted w → rank v = rank w → v = w

theorem Covers.empty (held : Option α) : Covers rank (fun _ => False) held :=
  ⟨fun _ h => h.elim, fun _ _ h => h.elim⟩

variable {rank}

theorem Covers.rank_le {accepted : α → Prop} {held : Option α} (h : Covers rank accepted held)
    {v : α} (hv : accepted v) : ∃ w ∈ held, rank v ≤ rank w := by
  obtain ⟨w, hw, hlt | rfl⟩ := h.outranked v hv
  · exact ⟨w, hw, Int.le_of_lt hlt⟩
  · exact ⟨v, hw, Int.le_refl _⟩

/-- What a register takes outranks all it has accepted, but for the value itself. -/
theorem Covers.of_takes {accepted : α → Prop} {held : Option α} (h : Covers rank accepted held)
    {u v : α} (hu : accepted u) (hv : Takes rank held v) : rank u < rank v ∨ u = v := by
  obtain ⟨w, hw, hle⟩ := h.outranked u hu
  rcases hle with hlt | rfl
  · rcases hv w hw with hwv | rfl
    · exact Or.inl (Int.lt_trans hlt hwv)
    · exact Or.inl hlt
  · exact hv u hw

/-- A register that takes a value covers it and all it covered before. -/
theorem Covers.take {accepted : α → Prop} {held : Option α} (h : Covers rank accepted held) {v : α}
    (hv : Takes rank held v) : Covers rank (fun w => accepted w ∨ w = v) (some v) where
  outranked u hu := by
    rcases hu with hu | rfl
    · exact ⟨v, rfl, h.of_takes hu hv⟩
    · exact ⟨u, rfl, Or.inr rfl⟩
  agree := by
    have hold : ∀ u, accepted u → rank u = rank v → u = v := by
      intro u hu hrank
      rcases h.of_takes hu hv with hlt | rfl
      · omega
      · rfl
    rintro u w (hu | rfl) (hw | rfl) hrank
    · exact h.agree u w hu hw hrank
    · exact hold u hu hrank
    · exact (hold w hw hrank.symm).symm
    · rfl

/-! ## Registers of many members -/

/-- Two values of one rank that majorities have accepted are equal. -/
theorem agree_of_majorities {accepted : ι → α → Prop} {held : ι → Option α}
    (h : ∀ i, Covers rank (accepted i) (held i)) {s t : Finset ι} (hs : Majority s)
    (ht : Majority t) {v w : α} (hv : ∀ i ∈ s, accepted i v) (hw : ∀ i ∈ t, accepted i w)
    (hrank : rank v = rank w) : v = w := by
  obtain ⟨i, his, hit⟩ := hs.inter ht
  exact (h i).agree v w (hv i his) (hw i hit) hrank

end Quorum
