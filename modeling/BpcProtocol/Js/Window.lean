import BpcProtocol.Js.Double
import BpcProtocol.Js.Rounding

set_option autoImplicit false

/-! # A window around a time

The distance of two times is rounded. Where the window is below `2 ^ 52`, there is a double between it
and every half of a distance that is larger, so that two times within the window around one moment are
at most twice the window apart. -/

namespace Js

/-- Half of an integer of up to fifty-three bits is a double. -/
theorem isDouble_half {n : ℕ} (h : n ≤ 2 ^ 53) : IsDouble (n / 2 : ℚ) := by
  rcases Nat.eq_zero_or_pos n with rfl | hpos
  · rw [Nat.cast_zero, zero_div]
    rfl
  rcases h.lt_or_eq with hlt | rfl
  · have hn : (0 : ℚ) < n := by exact_mod_cast hpos
    have hhalf : (n / 2 : ℚ) < pow2 52 := by
      have hbits : (n : ℚ) < 2 ^ 53 := by exact_mod_cast hlt
      rw [show (52 : ℤ) = ((52 : ℕ) : ℤ) from rfl, pow2_natCast]
      push_cast
      linarith
    have hx : (n / 2 : ℚ) ≠ 0 := by positivity
    have hbit : leadingBit (n / 2 : ℚ) < 52 := leadingBit_lt hx (by rwa [abs_of_pos (by positivity)])
    have hplace : lastPlace (n / 2 : ℚ) ≤ -1 := max_le (by omega) (by norm_num)
    have hunits : (n / 2 : ℚ) = ((n : ℤ) : ℚ) * pow2 (-1) := by
      rw [pow2_eq_zpow, zpow_neg_one]
      push_cast
      ring
    obtain ⟨m, hm⟩ := units_of_le hunits hplace
    have hbig : pow2 52 ≤ pow2 1024 := pow2_le_pow2 (by norm_num)
    have hneg : -pow2 1024 < (0 : ℚ) := neg_lt_zero.mpr (pow2_pos _)
    exact isDouble_of_units hx hm (hneg.trans (by positivity)) (hhalf.trans_le hbig)
  · have hdouble := isDouble_natCast (n := 2 ^ 52) (by norm_num)
    have hvalue : (((2 ^ 53 : ℕ) : ℚ) / 2) = ((2 ^ 52 : ℕ) : ℚ) := by norm_num
    rwa [hvalue]

end Js

namespace JsNumber

open Js

theorem le_abs_of_le {x : ℚ} {n : JsNumber} (h : Le (.fin x) n) : Le (.fin x) n.abs := by
  cases n with
  | fin q => exact (le_fin _ _).mpr (((le_fin _ _).mp h).trans (le_abs_self q))
  | posInf => rfl
  | negInf => cases h
  | nan => cases h

/-- A difference that is rounded is not brought below a double. -/
theorem le_abs_ofRat {x y : ℚ} (hdouble : IsDouble x) (h : x ≤ |y|) :
    Le (.fin x) (ofRat y).abs := by
  rcases le_total 0 y with hy | hy
  · rw [abs_of_nonneg hy] at h
    have hle := le_ofRat h
    rw [hdouble] at hle
    exact le_abs_of_le hle
  · rw [abs_of_nonpos hy] at h
    have hle := le_ofRat h
    rw [hdouble, ofRat_neg] at hle
    rw [← abs_neg_self]
    exact le_abs_of_le hle

/-- Times that a window does not tell from one moment are within twice the window of each other. -/
theorem le_of_within {w w' : JsNumber} {W ts : ℚ} {t u : ℤ} (hw : Le w (.fin W)) (hw' : Le w' (.fin W))
    (hW : W < 2 ^ 52) (ht : w.lt ((fin t).sub (fin ts)).abs = false)
    (hu : w'.lt ((fin u).sub (fin ts)).abs = false) : (u : ℚ) - t ≤ 2 * W := by
  by_contra hfar
  push Not at hfar
  -- a double between the window and the larger of the two distances
  set n := min (u - t).toNat (2 ^ 53) with hn
  have hdouble : IsDouble (n / 2 : ℚ) := isDouble_half (min_le_right _ _)
  have hlt : W < n / 2 := by
    rcases le_total (u - t).toNat (2 ^ 53) with hsmall | hbig
    · have hle : ((u - t : ℤ) : ℚ) ≤ ((u - t).toNat : ℚ) := by exact_mod_cast Int.self_le_toNat _
      rw [hn, min_eq_left hsmall]
      push_cast at hle
      linarith
    · rw [hn, min_eq_right hbig]
      push_cast
      linarith
  have hfin (a : ℤ) : (fin (a : ℚ)).sub (fin ts) = ofRat (a - ts) := by
    show ofRat ((a : ℚ) + -ts) = _
    rw [sub_eq_add_neg]
  have hfails {v : JsNumber} {a : ℤ} (hv : Le v (.fin W))
      (hfresh : v.lt ((fin a).sub (fin ts)).abs = false) : |(a : ℚ) - ts| < n / 2 := by
    by_contra hle
    push Not at hle
    have hbound := le_abs_ofRat hdouble hle
    have hbelow : v.lt (.fin (n / 2)) = true := by
      cases v with
      | fin q => exact decide_eq_true (((le_fin _ _).mp hv).trans_lt hlt)
      | posInf => cases hv
      | negInf => rfl
      | nan => cases hv
    rw [hfin, lt_trans_le hbelow hbound] at hfresh
    cases hfresh
  have hsum : (u : ℚ) - t ≤ |(u : ℚ) - ts| + |(t : ℚ) - ts| := by
    calc (u : ℚ) - t = ((u : ℚ) - ts) - ((t : ℚ) - ts) := by ring
      _ ≤ |((u : ℚ) - ts) - ((t : ℚ) - ts)| := le_abs_self _
      _ ≤ |(u : ℚ) - ts| + |(t : ℚ) - ts| := abs_sub _ _
  have hnat : (n : ℚ) ≤ |(u : ℚ) - ts| + |(t : ℚ) - ts| := by
    have hle : (n : ℚ) ≤ ((u - t).toNat : ℚ) := by exact_mod_cast min_le_left _ _
    rcases le_total 0 (u - t) with hpos | hneg
    · have hcast : ((u - t).toNat : ℚ) = (u : ℚ) - t := by
        rw [← Int.cast_natCast, Int.toNat_of_nonneg hpos, Int.cast_sub]
      exact (hle.trans hcast.le).trans hsum
    · rw [Int.toNat_of_nonpos hneg, Nat.cast_zero] at hle
      exact hle.trans (by positivity)
  linarith [hfails hw ht, hfails hw' hu]

end JsNumber
