import Mathlib.Data.List.Basic

set_option autoImplicit false

/-! # Self-delimiting codes

Codes whose words can be read back from the front of any text: no matter what follows, the word
tells where it ends. Sequences of such words are uniquely decodable, which is what makes a framed
message stand for one list of fields only. -/

namespace Encoding

variable {α β γ : Type}

/-- On the values of `P`, a code word is determined by any text that begins with it, and so is what
    follows it. -/
def SelfDelimiting (P : α → Prop) (code : α → List β) : Prop :=
  ∀ a b x y, P a → P b → code a ++ x = code b ++ y → a = b ∧ x = y

variable {P : α → Prop} {code : α → List β}

/-- An injective code whose words have one length. -/
theorem SelfDelimiting.of_length {n : ℕ} (hlen : ∀ a, P a → (code a).length = n)
    (hinj : ∀ a b, P a → P b → code a = code b → a = b) : SelfDelimiting P code := by
  intro a b x y ha hb h
  obtain ⟨hcode, hrest⟩ := List.append_inj h ((hlen a ha).trans (hlen b hb).symm)
  exact ⟨hinj a b ha hb hcode, hrest⟩

/-- A word under its length, where the code of the lengths is self-delimiting. -/
theorem SelfDelimiting.lengthPrefixed {Q : ℕ → Prop} {size : ℕ → List β}
    (hsize : SelfDelimiting Q size) (hlen : ∀ a, P a → Q (code a).length)
    (hinj : ∀ a b, P a → P b → code a = code b → a = b) :
    SelfDelimiting P fun a => size (code a).length ++ code a := by
  intro a b x y ha hb h
  simp only [List.append_assoc] at h
  obtain ⟨heq, h⟩ := hsize _ _ _ _ (hlen a ha) (hlen b hb) h
  obtain ⟨hcode, hrest⟩ := List.append_inj h heq
  exact ⟨hinj a b ha hb hcode, hrest⟩

/-- Words tagged by the symbol they begin with, each tag with a code of its own. -/
theorem SelfDelimiting.cons {Q : γ → Prop} {code' : γ → List β} (s : β)
    (h : SelfDelimiting Q code') : SelfDelimiting Q fun a => s :: code' a := by
  intro a b x y ha hb heq
  exact h a b x y ha hb (List.cons.inj heq).2

/-- Sequences of words are uniquely decodable, also in front of other text, when they have as many
    words. -/
theorem SelfDelimiting.sequence (h : SelfDelimiting P code) {l l' : List α} {x y : List β}
    (hlen : l.length = l'.length) (hl : ∀ a ∈ l, P a) (hl' : ∀ a ∈ l', P a)
    (heq : l.flatMap code ++ x = l'.flatMap code ++ y) : l = l' ∧ x = y := by
  induction l generalizing l' with
  | nil =>
      obtain rfl : l' = [] := List.eq_nil_of_length_eq_zero hlen.symm
      exact ⟨rfl, heq⟩
  | cons a rest ih =>
      cases l' with
      | nil => simp at hlen
      | cons b rest' =>
          simp only [List.flatMap_cons, List.append_assoc] at heq
          obtain ⟨rfl, htail⟩ := h a b _ _ (hl a List.mem_cons_self) (hl' b List.mem_cons_self) heq
          obtain ⟨rfl, hxy⟩ := ih (Nat.succ.inj hlen) (fun c hc => hl c (List.mem_cons_of_mem _ hc))
            (fun c hc => hl' c (List.mem_cons_of_mem _ hc)) htail
          exact ⟨rfl, hxy⟩

/-- Sequences of words are uniquely decodable when no word is empty. -/
theorem SelfDelimiting.flatMap_injective (h : SelfDelimiting P code)
    (hne : ∀ a, P a → code a ≠ []) {l l' : List α} (hl : ∀ a ∈ l, P a) (hl' : ∀ a ∈ l', P a)
    (heq : l.flatMap code = l'.flatMap code) : l = l' := by
  induction l generalizing l' with
  | nil =>
      cases l' with
      | nil => rfl
      | cons b rest' =>
          rw [List.flatMap_nil, List.flatMap_cons] at heq
          exact absurd (List.append_eq_nil_iff.mp heq.symm).1 (hne b (hl' b List.mem_cons_self))
  | cons a rest ih =>
      cases l' with
      | nil =>
          rw [List.flatMap_nil, List.flatMap_cons] at heq
          exact absurd (List.append_eq_nil_iff.mp heq).1 (hne a (hl a List.mem_cons_self))
      | cons b rest' =>
          rw [List.flatMap_cons, List.flatMap_cons] at heq
          obtain ⟨rfl, htail⟩ := h a b _ _ (hl a List.mem_cons_self) (hl' b List.mem_cons_self) heq
          rw [ih (fun c hc => hl c (List.mem_cons_of_mem _ hc))
            (fun c hc => hl' c (List.mem_cons_of_mem _ hc)) htail]

end Encoding
