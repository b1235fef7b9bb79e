import BpcProtocol.Js.Arithmetic
import BpcProtocol.Js.DoubleText

set_option autoImplicit false

/-! # Numbers the language can hold

`JsNumber` has every rational among its values. A `JsDouble` carries the proof that its number is
not rounded, which the operations keep. -/

/-- A number of the language. -/
abbrev JsDouble := { n : JsNumber // ∀ q, n = .fin q → Js.IsDouble q }

namespace Js

theorem isDouble_natCast {n : ℕ} (h : n ≤ 2 ^ 53) : IsDouble (n : ℚ) := by
  rcases Nat.lt_or_ge n (2 ^ 53) with hlt | hge
  · have hround := ofRat_intCast (n := (n : ℤ)) (by omega)
    exact_mod_cast hround
  · obtain rfl : n = 9007199254740992 := by omega
    show ofRat _ = _
    decide +kernel

theorem isDouble_intCast {n : ℤ} (h : n.natAbs < 2 ^ 53) : IsDouble (n : ℚ) :=
  ofRat_intCast h

end Js

namespace JsNumber

theorem incr_isDouble (n : JsNumber) (q : ℚ) (h : n.incr = .fin q) : Js.IsDouble q := by
  cases n with
  | fin r => exact Js.isDouble_of_ofRat h
  | nan => exact absurd h (by simp [incr, add])
  | posInf => exact absurd h (by simp [incr, add])
  | negInf => exact absurd h (by simp [incr, add])

theorem counted_isDouble (n : ℕ) (q : ℚ) (h : counted n = .fin q) : Js.IsDouble q := by
  rw [← fin.inj h]
  exact Js.isDouble_natCast (Nat.min_le_right n (2 ^ 53))

end JsNumber

namespace JsDouble

/-- `n + 1`. -/
def incr (n : JsDouble) : JsDouble :=
  ⟨n.1.incr, JsNumber.incr_isDouble n.1⟩

/-- `Number(n)` of an integer. -/
def ofInt (n : ℤ) : JsDouble :=
  ⟨Js.ofRat n, fun _ h => Js.isDouble_of_ofRat h⟩

/-- What a counter that starts at zero reads after `n` increments. -/
def counted (n : ℕ) : JsDouble :=
  ⟨JsNumber.counted n, JsNumber.counted_isDouble n⟩

/-- `a < b`. -/
def lt (a b : JsDouble) : Bool :=
  a.1.lt b.1

/-- `a === b`. -/
def eq (a b : JsDouble) : Bool :=
  a.1.eq b.1

@[simp]
theorem incr_counted (n : ℕ) : (counted n).incr = counted (n + 1) :=
  Subtype.ext (JsNumber.incr_counted n)

theorem ofInt_natCast {n : ℕ} (h : n ≤ 2 ^ 53) : ofInt n = counted n := by
  refine Subtype.ext ?_
  show Js.ofRat _ = JsNumber.fin _
  rw [Nat.min_eq_left h, Int.cast_natCast]
  exact Js.isDouble_natCast h

theorem toInt?_counted (n : ℕ) : (counted n).1.toInt? = some ((min n (2 ^ 53) : ℕ) : ℤ) := by
  have hint := JsNumber.toInt?_int ((min n (2 ^ 53) : ℕ) : ℤ)
  rwa [Int.cast_natCast] at hint

/-- An integer of fifty-three bits is not rounded. -/
theorem ofInt_val {n : ℤ} (h : n.natAbs < 2 ^ 53) : (ofInt n).1 = .fin n :=
  Js.ofRat_intCast h

theorem toInt?_ofInt {n : ℤ} (h : n.natAbs < 2 ^ 53) : (ofInt n).1.toInt? = some n := by
  rw [ofInt_val h]
  exact JsNumber.toInt?_int n

theorem counted_inj {m n : ℕ} (hm : m ≤ 2 ^ 53) (hn : n ≤ 2 ^ 53) :
    counted m = counted n ↔ m = n := by
  constructor
  · intro h
    have hq := JsNumber.fin.inj (Subtype.ext_iff.mp h)
    rw [Nat.min_eq_left hm, Nat.min_eq_left hn] at hq
    exact_mod_cast hq
  · rintro rfl
    rfl

/-- Beyond fifty-three bits a counter stands still. -/
theorem counted_of_ge {m n : ℕ} (hm : 2 ^ 53 ≤ m) (hn : 2 ^ 53 ≤ n) : counted m = counted n := by
  refine Subtype.ext ?_
  show JsNumber.fin _ = JsNumber.fin _
  rw [Nat.min_eq_right hm, Nat.min_eq_right hn]

@[simp]
theorem lt_counted (m n : ℕ) :
    lt (counted m) (counted n) = decide (min m (2 ^ 53) < min n (2 ^ 53)) := by
  rw [Bool.eq_iff_iff, decide_eq_true_iff]
  exact decide_eq_true_iff.trans Nat.cast_lt

/-- A finite number is `===` to what it is equal to. -/
@[simp]
theorem eq_counted (a : JsDouble) (n : ℕ) : eq a (counted n) = decide (a = counted n) := by
  obtain ⟨a, ha⟩ := a
  rw [Bool.eq_iff_iff, decide_eq_true_iff, Subtype.ext_iff]
  cases a with
  | nan => exact ⟨nofun, nofun⟩
  | posInf => exact ⟨nofun, nofun⟩
  | negInf => exact ⟨nofun, nofun⟩
  | fin q => exact ⟨fun h => of_decide_eq_true h, fun h => decide_eq_true h⟩

end JsDouble
