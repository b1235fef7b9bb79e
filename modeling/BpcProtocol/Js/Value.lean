import BpcProtocol.Js.Text
import Mathlib.Data.Rat.Cast.Order

set_option autoImplicit false

/-! # JavaScript values

The values that pass between the modelled functions and the outside: plain data, as `JSON.parse`
returns it and as object literals build it. -/

/-- A number: a double is a rational or one of the three special values. The two zeros are one
    value, since nothing modelled tells them apart. -/
inductive JsNumber where
  | nan
  | posInf
  | negInf
  | fin (q : ℚ)
  deriving DecidableEq

namespace JsNumber

instance : Coe ℤ JsNumber := ⟨fun n => .fin n⟩

/-- The integer a number is, if it is one. -/
def toInt? : JsNumber → Option ℤ
  | fin q => if q.den = 1 then some q.num else none
  | _ => none

/-- `Number.isFinite(n)`. -/
def isFinite : JsNumber → Bool
  | fin _ => true
  | _ => false

/-- `Number.isSafeInteger(n)`. -/
def isSafeInteger (n : JsNumber) : Bool :=
  n.toInt?.any Js.isSafeInteger

@[simp]
theorem toInt?_int (n : ℤ) : (fin n : JsNumber).toInt? = some n := by
  simp [toInt?]

/-- `a < b`. -/
def lt : JsNumber → JsNumber → Bool
  | fin a, fin b => decide (a < b)
  | negInf, fin _ => true
  | negInf, posInf => true
  | fin _, posInf => true
  | _, _ => false

/-- `a === b`. -/
def eq : JsNumber → JsNumber → Bool
  | nan, _ => false
  | a, b => decide (a = b)

/-- `-a`. -/
def neg : JsNumber → JsNumber
  | nan => nan
  | posInf => negInf
  | negInf => posInf
  | fin q => fin (-q)

@[simp]
theorem lt_int (a b : ℤ) : lt (fin a) (fin b) = decide (a < b) := by
  simp [lt]

@[simp]
theorem eq_int (a b : ℤ) : eq (fin a) (fin b) = decide (a = b) := by
  simp [eq]

end JsNumber

/-- A value: a primitive, a dense array, or a plain object with its own enumerable data properties
    in insertion order. `other` stands for every other value (a bigint, a function, a symbol, a
    class instance). -/
inductive JsValue where
  | undefined
  | null
  | bool (b : Bool)
  | number (n : JsNumber)
  | string (s : JsString)
  | array (items : List JsValue)
  | object (fields : List (JsString × JsValue))
  | other

namespace JsValue

/-- The property `key`, `undefined` where there is none. -/
def get (v : JsValue) (key : JsString) : JsValue :=
  match v with
  | object fields => ((fields.find? fun f => f.1 == key).map Prod.snd).getD undefined
  | _ => undefined

end JsValue
