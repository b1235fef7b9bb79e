import Mathlib.Data.List.Induction
import Mathlib.Data.List.Basic
import Mathlib.Data.Int.Notation

set_option autoImplicit false

/-! # Numbered and linked logs

An append-only log whose entries carry their own position (`Numbered`) and the identity of the entry
before them (`Linked`). Both are stated over the whole list, and both grow by one rule: what the
appended entry must say about the end of the log. -/

namespace Chain

variable {α δ : Type}

/-! ## Numbering -/

/-- The entries are numbered `1, 2, …` in order. -/
def Numbered (num : α → ℤ) (l : List α) : Prop :=
  ∀ i (h : i < l.length), num l[i] = i + 1

@[simp]
theorem numbered_nil (num : α → ℤ) : Numbered num [] :=
  fun _ h => absurd h (Nat.not_lt_zero _)

theorem numbered_append_singleton {num : α → ℤ} {l : List α} {a : α} :
    Numbered num (l ++ [a]) ↔ Numbered num l ∧ num a = l.length + 1 := by
  constructor
  · intro h
    refine ⟨fun i hi => ?_, ?_⟩
    · have hi' : i < (l ++ [a]).length := by simp; omega
      simpa [List.getElem_append_left hi] using h i hi'
    · simpa using h l.length (by simp)
  · rintro ⟨h, ha⟩ i hi
    rcases Nat.lt_or_ge i l.length with hlt | hge
    · simpa [List.getElem_append_left hlt] using h i hlt
    · have hi' : i = l.length := by simp at hi; omega
      subst hi'
      simpa using ha

/-- The number of the last entry is the length of the log. -/
theorem Numbered.getLast {num : α → ℤ} {l : List α} (h : Numbered num l) {a : α}
    (ha : l.getLast? = some a) : num a = l.length := by
  rcases List.eq_nil_or_concat l with rfl | ⟨l', b, rfl⟩
  · simp at ha
  · obtain rfl : b = a := by simpa using ha
    have := (numbered_append_singleton.mp (by simpa using h)).2
    simp [this]

theorem Numbered.pairwise_lt {num : α → ℤ} {l : List α} (h : Numbered num l) :
    l.Pairwise fun a b => num a < num b := by
  rw [List.pairwise_iff_getElem]
  intro i j hi hj hij
  rw [h i hi, h j hj]
  omega

theorem Numbered.pairwise_le {num : α → ℤ} {l : List α} (h : Numbered num l) :
    l.Pairwise fun a b => num a ≤ num b :=
  h.pairwise_lt.imp fun hab => Int.le_of_lt hab

/-- An entry of a numbered log is determined by its number. -/
theorem Numbered.eq_of_num {num : α → ℤ} {l : List α} (h : Numbered num l) {a b : α}
    (ha : a ∈ l) (hb : b ∈ l) (hab : num a = num b) : a = b := by
  obtain ⟨i, hi, rfl⟩ := List.getElem_of_mem ha
  obtain ⟨j, hj, rfl⟩ := List.getElem_of_mem hb
  rw [h i hi, h j hj] at hab
  have hij : i = j := by omega
  subst hij
  rfl

/-- Of two numbered logs that agree on what each number names, one is a prefix of the other. -/
theorem Numbered.prefix_or {num : α → ℤ} {l m : List α} (hl : Numbered num l)
    (hm : Numbered num m) (hagree : ∀ a ∈ l, ∀ b ∈ m, num a = num b → a = b) :
    l <+: m ∨ m <+: l := by
  -- the shorter log is the longer one, cut at its length
  have hcut : ∀ {l m : List α}, Numbered num l → Numbered num m →
      (∀ a ∈ l, ∀ b ∈ m, num a = num b → a = b) → l.length ≤ m.length → l <+: m := by
    intro l m hl hm hagree hlen
    have : l = m.take l.length := by
      refine List.ext_getElem (by simp; omega) fun i hi hi' => ?_
      have him : i < m.length := Nat.lt_of_lt_of_le hi hlen
      rw [List.getElem_take]
      exact hagree _ (List.getElem_mem hi) _ (List.getElem_mem him) (by rw [hl i hi, hm i him])
    rw [this]
    exact List.take_prefix _ _
  rcases Nat.le_total l.length m.length with hlen | hlen
  · exact Or.inl (hcut hl hm hagree hlen)
  · exact Or.inr (hcut hm hl (fun a ha b hb hab => (hagree b hb a ha hab.symm).symm) hlen)

/-! ## Links -/

/-- Each entry's `prev` is the identity of the entry before it, and the first entry's is `start`. -/
def Linked (prev : α → Option δ) (ident : α → δ) (start : Option δ) : List α → Prop
  | [] => True
  | a :: rest => prev a = start ∧ Linked prev ident (some (ident a)) rest

@[simp]
theorem linked_nil (prev : α → Option δ) (ident : α → δ) (start : Option δ) :
    Linked prev ident start [] :=
  trivial

/-- The identity a further entry must link to. -/
def tip (ident : α → δ) (start : Option δ) (l : List α) : Option δ :=
  (l.getLast?.map ident).or start

@[simp]
theorem tip_nil (ident : α → δ) (start : Option δ) : tip ident start [] = start := by
  simp [tip]

@[simp]
theorem tip_cons (ident : α → δ) (start : Option δ) (a : α) (l : List α) :
    tip ident start (a :: l) = tip ident (some (ident a)) l := by
  cases l with
  | nil => simp [tip]
  | cons b rest =>
      obtain ⟨z, hz⟩ := Option.isSome_iff_exists.mp (by simp : (b :: rest).getLast?.isSome)
      simp only [tip, List.getLast?_cons_cons, hz, Option.map_some, Option.some_or]

theorem tip_of_getLast? {ident : α → δ} {start : Option δ} {l : List α} {a : α}
    (h : l.getLast? = some a) : tip ident start l = some (ident a) := by
  simp [tip, h]

/-- A linked log grows by an entry that links to its tip. -/
theorem linked_append_singleton {prev : α → Option δ} {ident : α → δ} {start : Option δ}
    {l : List α} {a : α} :
    Linked prev ident start (l ++ [a]) ↔
      Linked prev ident start l ∧ prev a = tip ident start l := by
  induction l generalizing start with
  | nil => simp [Linked]
  | cons b rest ih => simp only [List.cons_append, Linked, ih, and_assoc, tip_cons]

/-- In a linked log each entry after the first links to the one before it. -/
theorem Linked.getElem_succ {prev : α → Option δ} {ident : α → δ} {start : Option δ} {l : List α}
    (h : Linked prev ident start l) (i : ℕ) (hi : i + 1 < l.length) :
    prev l[i + 1] = some (ident l[i]) := by
  induction l generalizing start i with
  | nil => simp at hi
  | cons a rest ih =>
      cases i with
      | zero =>
          cases rest with
          | nil => simp at hi
          | cons b rest' => exact h.2.1
      | succ i => simpa using ih h.2 i (by simpa using hi)

/-- The beginning of a linked log is linked. -/
theorem Linked.take {prev : α → Option δ} {ident : α → δ} {start : Option δ} {l : List α}
    (h : Linked prev ident start l) (n : ℕ) : Linked prev ident start (l.take n) := by
  induction n generalizing start l with
  | zero => exact trivial
  | succ n ih =>
      cases l with
      | nil => exact trivial
      | cons a rest => exact ⟨h.1, ih h.2⟩

/-! ## Two logs with one tip

Where an identity determines what is seen of its entry, and that determines the entry's link, a
linked list that ends like a log is the end of that log: the argument runs backwards from the tip,
and stops at the log's start, which is no entry's identity. -/

theorem Linked.suffix_of_tip {β : Type} {prev : α → Option δ} {ident : α → δ} {view : α → β}
    {start start' : Option δ} {l m : List α} (hl : Linked prev ident start' l)
    (hm : Linked prev ident start m)
    (hview : ∀ a ∈ l, ∀ b ∈ m, ident a = ident b → view a = view b)
    (hprev : ∀ a ∈ l, ∀ b ∈ m, view a = view b → prev a = prev b)
    (hstart : ∀ a ∈ l, start ≠ some (ident a)) (hne : l ≠ [])
    (htip : tip ident start' l = tip ident start m) : l.map view <:+ m.map view := by
  induction l using List.reverseRecOn generalizing m with
  | nil => exact absurd rfl hne
  | append_singleton l a ih =>
      have ha : a ∈ l ++ [a] := List.mem_append_right l List.mem_cons_self
      rw [tip_of_getLast? (a := a) (by simp)] at htip
      rcases List.eq_nil_or_concat m with rfl | ⟨m, b, rfl⟩
      · exact absurd htip.symm (hstart a ha)
      · rw [List.concat_eq_append] at *
        have hb : b ∈ m ++ [b] := List.mem_append_right m List.mem_cons_self
        rw [tip_of_getLast? (a := b) (by simp)] at htip
        have hab : view a = view b := hview a ha b hb (Option.some.inj htip)
        obtain ⟨hl', hla⟩ := linked_append_singleton.mp hl
        obtain ⟨hm', hmb⟩ := linked_append_singleton.mp hm
        rw [List.map_append, List.map_append, List.map_singleton, List.map_singleton, hab]
        by_cases hnil : l = []
        · subst hnil
          exact ⟨m.map view, by simp⟩
        · -- the entries before the two ends have one identity as well
          have htip' : tip ident start' l = tip ident start m := by
            rw [← hla, ← hmb]
            exact hprev a ha b hb hab
          obtain ⟨p, hp⟩ := ih hl' hm'
            (fun x hx y hy => hview x (List.mem_append_left _ hx) y (List.mem_append_left _ hy))
            (fun x hx y hy => hprev x (List.mem_append_left _ hx) y (List.mem_append_left _ hy))
            (fun x hx => hstart x (List.mem_append_left _ hx)) hnil htip'
          exact ⟨p, by rw [← hp, List.append_assoc]⟩

end Chain
