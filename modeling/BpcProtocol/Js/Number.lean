import BpcProtocol.Js.Value
import Mathlib.Algebra.Order.Floor.Ring
import Mathlib.Data.Rat.Floor

set_option autoImplicit false

/-! # JavaScript numbers

Rounding to doubles, the text of a number, and the reading of a decimal. -/

namespace Js

/-! ## Doubles -/

/-- The integer nearest to a rational, the even one of two. -/
def roundHalfEven (q : ℚ) : ℤ :=
  let r := q - q.floor
  if r < 1 / 2 then q.floor
  else if 1 / 2 < r then q.floor + 1
  else if q.floor % 2 = 0 then q.floor else q.floor + 1

/-- `2 ^ e`. -/
def pow2 (e : ℤ) : ℚ :=
  if 0 ≤ e then ((2 ^ e.toNat : ℕ) : ℚ) else 1 / ((2 ^ (-e).toNat : ℕ) : ℚ)

/-- The exponent of the leading bit of a nonzero rational. -/
def leadingBit (q : ℚ) : ℤ :=
  let e : ℤ := (Nat.log2 q.num.natAbs : ℤ) - Nat.log2 q.den
  if pow2 e ≤ |q| then e else e - 1

/-- The double nearest to a rational: 53 significant bits, of which the last is at least `2^-1074`. -/
def ofRat (q : ℚ) : JsNumber :=
  if q = 0 then .fin 0
  else
    let e := max (leadingBit q - 52) (-1074)
    let v := roundHalfEven (q / pow2 e) * pow2 e
    if pow2 1024 ≤ v then .posInf else if v ≤ -pow2 1024 then .negInf else .fin v

theorem roundHalfEven_intCast (n : ℤ) : roundHalfEven n = n := by
  simp [roundHalfEven]

theorem pow2_pos (e : ℤ) : 0 < pow2 e := by
  unfold pow2
  split <;> positivity

theorem pow2_natCast (k : ℕ) : pow2 k = ((2 ^ k : ℕ) : ℚ) := by
  simp [pow2]

theorem natCast_lt_pow2 {m j k : ℕ} (h : m < 2 ^ j) (hjk : j ≤ k) : (m : ℚ) < pow2 k := by
  rw [pow2_natCast]
  exact_mod_cast Nat.lt_of_lt_of_le h (Nat.pow_le_pow_right (by decide) hjk)

/-- An integer of at most 53 bits is a double. -/
theorem ofRat_intCast {n : ℤ} (hn : n.natAbs < 2 ^ 53) : ofRat n = .fin n := by
  unfold ofRat
  split
  · next h => rw [h]
  · next h =>
      have hnat : n.natAbs ≠ 0 := by
        intro h0
        exact h (by rw [Int.natAbs_eq_zero.mp h0]; rfl)
      have hbit : leadingBit (n : ℚ) ≤ 52 := by
        have hlog : Nat.log2 n.natAbs < 53 := (Nat.log2_lt hnat).mpr hn
        have hone : Nat.log2 1 = 0 := by decide
        simp only [leadingBit, Rat.num_intCast, Rat.den_intCast, hone]
        split <;> omega
      -- the unit of the last place divides one, so the quotient is an integer
      obtain ⟨k, hk⟩ : ∃ k : ℕ, max (leadingBit (n : ℚ) - 52) (-1074) = -(k : ℤ) :=
        ⟨(-max (leadingBit (n : ℚ) - 52) (-1074)).toNat, by omega⟩
      have hunit : pow2 (-(k : ℤ)) = 1 / ((2 ^ k : ℕ) : ℚ) := by
        unfold pow2
        split
        · next h0 =>
            have : k = 0 := by omega
            subst this
            simp
        · simp
      have hquot : (n : ℚ) / pow2 (-(k : ℤ)) = ((n * 2 ^ k : ℤ) : ℚ) := by
        rw [hunit]
        push_cast
        simp
      have hv : (roundHalfEven ((n : ℚ) / pow2 (-(k : ℤ))) : ℚ) * pow2 (-(k : ℤ)) = n := by
        rw [hquot, roundHalfEven_intCast, ← hquot]
        exact div_mul_cancel₀ _ (pow2_pos _).ne'
      have habs : |(n : ℚ)| < pow2 1024 := by
        rw [← Int.cast_abs, Int.abs_eq_natAbs]
        exact natCast_lt_pow2 hn (by decide)
      simp only [hk, hv]
      rw [if_neg (not_le.mpr (lt_of_abs_lt habs)), if_neg (not_le.mpr (neg_lt_of_abs_lt habs))]

/-! ## Decimals -/

/-- The number a list of decimal digits writes. -/
def ofDigits (ds : JsString) : ℕ :=
  ds.foldl (fun n d => 10 * n + (d.toNat - 48)) 0

/-- The digits of a number. -/
def natDigits (n : ℕ) : JsString :=
  (Nat.toDigits 10 n).map fun c => c.toNat.toUInt16

/-- The value of `i.f × 10^e`, of the digits before and behind the point and an exponent. -/
def decimalValue (i f : JsString) (e : ℤ) : ℚ :=
  let shift := e - f.length
  if 0 ≤ shift then (ofDigits (i ++ f) * 10 ^ shift.toNat : ℕ)
  else (ofDigits (i ++ f) : ℚ) / (10 ^ (-shift).toNat : ℕ)

/-- The places of the point in a decimal of `k` digits that a positive number may round to. -/
def shortestCandidates (x : ℚ) (n : ℤ) (k : ℕ) : List ℕ :=
  let scaled := if 0 ≤ n - k then x / (10 ^ (n - k).toNat : ℕ) else x * (10 ^ (k - n).toNat : ℕ)
  let lo := scaled.floor.toNat
  if scaled - lo ≤ 1 / 2 then [lo, lo + 1] else [lo + 1, lo]

/-- The number of digits before the point of a positive number, negative by the zeros behind it. -/
def pointPlace (x : ℚ) : ℤ :=
  let e : ℤ := (natDigits x.num.natAbs).length - (natDigits x.den).length
  if (if 0 ≤ e then ((10 ^ e.toNat : ℕ) : ℚ) else 1 / (10 ^ (-e).toNat : ℕ)) ≤ x then e + 1 else e

/-- The fewest digits, at most seventeen, that round back to a positive double, with the place of
    the point: the digits `s` and the `n` of `Number::toString`. -/
def shortestDigits (x : ℚ) : JsString × ℤ :=
  let n := pointPlace x
  let tries := (List.range 17).flatMap fun k =>
    (shortestCandidates x n (k + 1)).map fun s => (natDigits s, n - (k + 1))
  let fits := tries.filter fun t => ofRat (decimalValue t.1 [] t.2) = .fin x
  match fits.head? with
  | some (s, e) => (s, e + s.length)
  | none => ([], n)

/-- The layout of `Number::toString` for digits `s` and the place `n` of the point. -/
def layoutDigits (s : JsString) (n : ℤ) : JsString :=
  let k : ℤ := s.length
  if k ≤ n ∧ n ≤ 21 then s ++ List.replicate (n - k).toNat 48
  else if 0 < n ∧ n ≤ 21 then s.take n.toNat ++ lit "." ++ s.drop n.toNat
  else if -6 < n ∧ n ≤ 0 then lit "0." ++ List.replicate (-n).toNat 48 ++ s
  else
    let exponent := (if 0 < n then lit "e+" else lit "e-") ++ natDigits (n - 1).natAbs
    if k = 1 then s ++ exponent else s.take 1 ++ lit "." ++ s.drop 1 ++ exponent

/-- `String(n)`. -/
def numberText (n : JsNumber) : JsString :=
  match n with
  | .nan => lit "NaN"
  | .posInf => lit "Infinity"
  | .negInf => lit "-Infinity"
  | .fin q =>
      match (JsNumber.fin q).toInt? with
      | some i => if isSafeInteger i then decimal i else text q
      | none => text q
where
  text (q : ℚ) : JsString :=
    let (s, place) := shortestDigits |q|
    if q < 0 then lit "-" ++ layoutDigits s place else layoutDigits s place

end Js
