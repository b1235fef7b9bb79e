import BpcProtocol.Lib.Relational
import BpcProtocol.Js.Text

set_option autoImplicit false

/-! # Errors and checked values of the HA code

Numbers are integers: wherever the HA code reads a number it passes it through `safeInt` or
`Number.isSafeInteger`, which refuse every other number. -/

namespace Ha

open Fallible Relational

/-- The policies of `PublisherBackpressure`. -/
inductive PublisherBackpressure where
  | failAuthoritativeMutation
  | quarantine
  deriving DecidableEq, Repr

/-- What the HA code throws: the error classes of the contract, a failed statement of the
    database. -/
inductive HaError where
  | contractValidation (message : String)
  | staleFence (presented current : ℕ)
  | outboxBackpressure (policy : PublisherBackpressure)
  | sql (error : SqlError)
  deriving DecidableEq, Repr

/-- A statement of the database, whose failure is thrown. -/
def query {α : Type} (x : Except SqlError α) : Except HaError α :=
  x.mapError HaError.sql

@[simp]
theorem query_eq_ok {α : Type} (x : Except SqlError α) (a : α) : query x = .ok a ↔ x = .ok a := by
  cases x <;> simp [query, Except.mapError]

/-- `throw new ContractValidationError(message)` unless `p`. -/
def ensure (p : Prop) [Decidable p] (message : String) : Except HaError Unit :=
  require p (.contractValidation message)

@[simp]
theorem ensure_eq_ok (p : Prop) [Decidable p] (message : String) (u : Unit) :
    ensure p message = .ok u ↔ p :=
  require_eq_ok p _ u

theorem ensure_of {p : Prop} [Decidable p] (h : p) (message : String) : ensure p message = .ok () :=
  require_of h _

/-- `safeInt(value, label, min, max)`. -/
def safeInt (value : ℤ) (label : String) (min : ℤ := 0) (max : ℤ := Js.maxSafeInteger) :
    Except HaError ℤ := do
  ensure (Js.isSafeInteger value ∧ min ≤ value ∧ value ≤ max)
    (label ++ " must be a safe integer in [" ++ toString min ++ ", " ++ toString max ++ "]")
  pure value

@[simp]
theorem safeInt_eq_ok (value : ℤ) (label : String) (min max n : ℤ) :
    safeInt value label min max = .ok n ↔
      (Js.isSafeInteger value ∧ min ≤ value ∧ value ≤ max) ∧ value = n := by
  simp only [safeInt, bind_eq_ok, ensure_eq_ok, pure_eq_ok, exists_const]

theorem safeInt_of {value min max : ℤ} {label : String}
    (h : Js.isSafeInteger value ∧ min ≤ value ∧ value ≤ max) :
    safeInt value label min max = .ok value :=
  (safeInt_eq_ok _ _ _ _ _).mpr ⟨h, rfl⟩

/-- `id(value, re, label)`. -/
def id (value : JsString) (re : JsString → Bool) (label : String) : Except HaError Unit :=
  ensure (re value = true) ("invalid " ++ label)

@[simp]
theorem id_eq_ok (value : JsString) (re : JsString → Bool) (label : String) (u : Unit) :
    id value re label = .ok u ↔ re value = true :=
  ensure_eq_ok _ _ u

/-! ## Patterns -/

/-- `STREAM_RE`. -/
def streamRe : JsString → Bool :=
  Js.classPattern (fun c => Js.isAlnum c || Js.oneOf ":._/-" c) 1 512

/-- `ID_RE`. -/
def idRe : JsString → Bool :=
  Js.classPattern (fun c => Js.isAlnum c || Js.oneOf ":._-" c) 1 128

/-- `KEY_RE`. -/
def keyRe : JsString → Bool :=
  Js.classPattern (fun c => Js.isAlnum c || Js.oneOf "._-" c) 1 64

/-- `HEX64`. -/
def hex64 : JsString → Bool :=
  Js.classPattern Js.isLowerHex 64 64

/-- `B64U`. -/
def b64u (s : JsString) : Bool :=
  !s.isEmpty && s.all fun c => Js.isAlnum c || Js.oneOf "_-" c

/-- `/^\d+$/`. -/
def digits (s : JsString) : Bool :=
  !s.isEmpty && s.all Js.isDigit

/-- `MAX_EPOCH`. -/
def maxEpoch : ℤ := 1099511627776

/-- `MAX_MS`. -/
def maxMs : ℤ := 8640000000000000

end Ha
