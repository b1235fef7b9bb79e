import BpcProtocol.Js.JsonRoundTrip
import Mathlib.Data.List.Sort

set_option autoImplicit false

/-! # The order of own properties

The keys of an object that are array indices come first, by their numbers, and the others behind them
in the order in which they were set. -/

namespace Js

/-- The number a key is the index of. -/
def arrayIndex (key : JsString) : Option ℕ :=
  if natDigits (ofDigits key) = key ∧ ofDigits key < 4294967295 then some (ofDigits key) else none

/-- The order of the keys of an object that got them in the order of their texts. -/
def ownKeyLe (j k : JsString) : Bool :=
  match arrayIndex j, arrayIndex k with
  | some m, some n => decide (m ≤ n)
  | some _, none => true
  | none, some _ => false
  | none, none => decide (j ≤ k)

abbrev ownLe (f g : JsString × JsValue) : Prop := ownKeyLe f.1 g.1 = true

theorem eq_of_arrayIndex {k : JsString} {n : ℕ} (h : arrayIndex k = some n) : k = natDigits n := by
  unfold arrayIndex at h
  split_ifs at h with hk
  rw [← Option.some.inj h]
  exact hk.1.symm

theorem ownKeyLe_total (j k : JsString) : ownKeyLe j k = true ∨ ownKeyLe k j = true := by
  unfold ownKeyLe
  cases arrayIndex j with
  | some m =>
      cases arrayIndex k with
      | some n => simpa using Nat.le_total m n
      | none => exact .inl rfl
  | none =>
      cases arrayIndex k with
      | some n => exact .inr rfl
      | none => simpa using List.le_total j k

theorem ownKeyLe_trans {i j k : JsString} (hij : ownKeyLe i j = true) (hjk : ownKeyLe j k = true) :
    ownKeyLe i k = true := by
  unfold ownKeyLe at hij hjk ⊢
  generalize arrayIndex i = l, arrayIndex j = m, arrayIndex k = n at hij hjk ⊢
  cases m with
  | some m =>
      cases l with
      | none => cases hij
      | some l =>
          cases n with
          | none => rfl
          | some n =>
              simp only [decide_eq_true_eq] at *
              exact Nat.le_trans hij hjk
  | none =>
      cases n with
      | some n => cases hjk
      | none =>
          cases l with
          | some l => rfl
          | none =>
              simp only [decide_eq_true_eq] at *
              exact List.le_trans hij hjk

theorem ownKeyLe_antisymm {j k : JsString} (hjk : ownKeyLe j k = true) (hkj : ownKeyLe k j = true) :
    j = k := by
  unfold ownKeyLe at *
  cases hj : arrayIndex j with
  | some m =>
      cases hk : arrayIndex k with
      | some n =>
          simp only [hj, hk, decide_eq_true_eq] at hjk hkj
          rw [eq_of_arrayIndex hj, eq_of_arrayIndex hk, Nat.le_antisymm hjk hkj]
      | none =>
          rw [hj, hk] at hkj
          cases hkj
  | none =>
      cases hk : arrayIndex k with
      | some n =>
          rw [hj, hk] at hjk
          cases hjk
      | none =>
          simp only [hj, hk, decide_eq_true_eq] at hjk hkj
          exact List.le_antisymm hjk hkj

instance : Std.Total ownLe := ⟨fun f g => ownKeyLe_total f.1 g.1⟩

instance : IsTrans (JsString × JsValue) ownLe := ⟨fun _ _ _ => ownKeyLe_trans⟩

/-- Members with distinct keys have one order. -/
theorem insertionSort_eq_of_perm {fields fields' : List (JsString × JsValue)}
    (hnodup : (fields.map Prod.fst).Nodup) (hperm : fields.Perm fields') :
    fields.insertionSort ownLe = fields'.insertionSort ownLe := by
  refine List.Perm.eq_of_pairwise (fun f g hf hg hfg hgf => ?_)
    (List.pairwise_insertionSort ownLe fields) (List.pairwise_insertionSort ownLe fields')
    ((List.perm_insertionSort ownLe fields).trans
      (hperm.trans (List.perm_insertionSort ownLe fields').symm))
  have hf := (List.mem_insertionSort ownLe).mp hf
  have hg := hperm.mem_iff.mpr ((List.mem_insertionSort ownLe).mp hg)
  exact List.inj_on_of_nodup_map hnodup hf hg (ownKeyLe_antisymm hfg hgf)

end Js
