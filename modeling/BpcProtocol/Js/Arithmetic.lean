import BpcProtocol.Js.Number
import Mathlib.Algebra.Order.Group.Unbundled.Abs

set_option autoImplicit false

/-! # Arithmetic on doubles

The operators of the language on numbers, each result rounded to a double. A counter that is
increased by one counts exactly up to `2^53` and stays there. -/

namespace JsNumber

open Js

/-- `a >= b`. -/
def ge (a b : JsNumber) : Bool :=
  lt b a || eq a b

/-- `n` in a condition: neither zero nor `NaN`. -/
def truthy (n : JsNumber) : Bool :=
  decide (n ≠ .nan) && decide (n ≠ .fin 0)

/-- `a + b`. -/
def add : JsNumber → JsNumber → JsNumber
  | nan, _ => nan
  | _, nan => nan
  | fin a, fin b => ofRat (a + b)
  | fin _, b => b
  | a, fin _ => a
  | a, b => if a = b then a else nan

/-- `a - b`. -/
def sub (a b : JsNumber) : JsNumber :=
  a.add b.neg

/-- `a * k` for a positive integer `k`. -/
def mulNat (a : JsNumber) (k : ℕ) : JsNumber :=
  match a with
  | fin q => ofRat (q * k)
  | _ => a

/-- `a / b` for a divisor other than zero. -/
def div : JsNumber → JsNumber → JsNumber
  | nan, _ => nan
  | _, nan => nan
  | fin a, fin b => ofRat (a / b)
  | fin _, _ => fin 0
  | a, fin b => if 0 < b then a else a.neg
  | _, _ => nan

/-- `Math.floor(n)`. -/
def floor : JsNumber → JsNumber
  | fin q => fin (q.floor : ℤ)
  | n => n

/-- `Math.abs(n)`. -/
def abs : JsNumber → JsNumber
  | fin q => fin |q|
  | negInf => posInf
  | n => n

/-- `Math.pow(2, n)` for an integer `n`. -/
def twoPow : JsNumber → JsNumber
  | fin q => if q < 1024 then ofRat (pow2 q.floor) else posInf
  | negInf => fin 0
  | n => n

/-- `n + 1`. -/
def incr (n : JsNumber) : JsNumber :=
  n.add (.fin 1)

@[simp]
theorem ge_fin (a b : ℚ) : ge (fin a) (fin b) = decide (b ≤ a) := by
  have hlt : lt (fin b) (fin a) = decide (b < a) := rfl
  have heq : eq (fin a) (fin b) = decide (fin a = fin b) := rfl
  rw [Bool.eq_iff_iff, ge, Bool.or_eq_true, hlt, heq, decide_eq_true_iff, decide_eq_true_iff,
    decide_eq_true_iff, fin.injEq, le_iff_lt_or_eq, @eq_comm _ a]

theorem incr_natCast {n : ℕ} (hn : n < 2 ^ 53) :
    incr (fin (n : ℚ)) = fin ((n + 1 : ℕ) : ℚ) := by
  show ofRat ((n : ℚ) + 1) = _
  by_cases hlast : n + 1 = 2 ^ 53
  · -- the first integer of 54 bits is a double itself
    have hn' : n = 9007199254740991 := by omega
    subst hn'
    decide +kernel
  · have hround : ofRat (((n + 1 : ℕ) : ℤ) : ℚ) = fin (((n + 1 : ℕ) : ℤ) : ℚ) :=
      ofRat_intCast (by rw [Int.natAbs_natCast]; omega)
    push_cast at hround ⊢
    exact hround

/-- `2^53 + 1` is no double: the sum rounds to even. -/
theorem incr_two_pow_53 : incr (fin ((2 ^ 53 : ℕ) : ℚ)) = fin ((2 ^ 53 : ℕ) : ℚ) := by
  decide +kernel

/-- What a counter that starts at zero reads after `n` increments. -/
def counted (n : ℕ) : JsNumber :=
  fin ((min n (2 ^ 53) : ℕ) : ℚ)

@[simp]
theorem counted_zero : counted 0 = fin 0 := by
  simp [counted]

theorem incr_counted (n : ℕ) : incr (counted n) = counted (n + 1) := by
  by_cases hn : n < 2 ^ 53
  · rw [counted, Nat.min_eq_left hn.le, incr_natCast hn, counted, Nat.min_eq_left hn]
  · rw [counted, Nat.min_eq_right (not_lt.mp hn), incr_two_pow_53, counted,
      Nat.min_eq_right ((not_lt.mp hn).trans n.le_succ)]

/-- `Number.isSafeInteger(n)`, of the integers that are safe. -/
theorem isSafeInteger_iff (n : JsNumber) :
    n.isSafeInteger = true ↔
      ∃ i : ℤ, n = .fin (i : ℚ) ∧ -9007199254740991 ≤ i ∧ i ≤ 9007199254740991 := by
  have hrange (i : ℤ) : Js.isSafeInteger i = true ↔
      -9007199254740991 ≤ i ∧ i ≤ 9007199254740991 := by
    rw [Js.isSafeInteger, maxSafeInteger, Bool.and_eq_true, decide_eq_true_iff,
      decide_eq_true_iff]
  constructor
  · intro hsafe
    obtain ⟨i, hi, hsafe⟩ := (Option.any_eq_true _ _).mp hsafe
    refine ⟨i, ?_, (hrange i).mp hsafe⟩
    cases n with
    | nan => cases hi
    | posInf => cases hi
    | negInf => cases hi
    | fin q =>
        obtain ⟨hden, hnum⟩ := Option.ite_some_none_eq_some.mp hi
        rw [← hnum, (Rat.den_eq_one_iff q).mp hden]
  · rintro ⟨i, rfl, hi⟩
    rw [JsNumber.isSafeInteger, toInt?_int, Option.any_some, hrange]
    exact hi

/-- `Number.isSafeInteger(n) && n >= 0`, of the numbers that are counts. -/
theorem isSafeNat_iff (n : JsNumber) :
    (n.isSafeInteger = true ∧ n.lt (.fin 0) = false) ↔
      ∃ k : ℕ, n = .fin (k : ℚ) ∧ k ≤ 9007199254740991 := by
  rw [isSafeInteger_iff]
  constructor
  · rintro ⟨⟨i, rfl, -, hle⟩, hlt⟩
    have hi0 : ¬(i : ℚ) < 0 := of_decide_eq_false hlt
    have hpos : 0 ≤ i := by exact_mod_cast not_lt.mp hi0
    refine ⟨i.toNat, ?_, by omega⟩
    have hcast : ((i.toNat : ℤ) : ℚ) = (i : ℚ) := by rw [Int.toNat_of_nonneg hpos]
    rw [← hcast, Int.cast_natCast]
  · rintro ⟨k, rfl, hk⟩
    have hlow : -9007199254740991 ≤ (k : ℤ) := by omega
    have hhigh : (k : ℤ) ≤ 9007199254740991 := by omega
    exact ⟨⟨k, by rw [Int.cast_natCast], hlow, hhigh⟩,
      decide_eq_false (not_lt.mpr (Nat.cast_nonneg k))⟩

end JsNumber
