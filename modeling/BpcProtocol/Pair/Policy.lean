import BpcProtocol.Lib.Fallible
import BpcProtocol.Pair.Types

set_option autoImplicit false

/-! # Authorization policy

What of a pair an authorization depends on, and when two pairs, a pair and its registration, or a
pair and a captured policy agree on it. -/

namespace Pair

open Fallible

/-- What the server code throws: an error of its own, or what a component throws that the caller
    passed in. -/
inductive ServerError where
  | error (message : String)
  | typeError (message : String)
  | external
  deriving DecidableEq, Repr

/-- `throw new Error(message)` unless `p`. -/
def ensure (p : Prop) [Decidable p] (message : String) : Except ServerError Unit :=
  require p (.error message)

@[simp]
theorem ensure_eq_ok (p : Prop) [Decidable p] (message : String) (u : Unit) :
    ensure p message = .ok u ↔ p :=
  require_eq_ok p _ u

/-- `a && b` where `b` may throw. -/
def andThen (a : Bool) (b : Except ServerError Bool) : Except ServerError Bool :=
  if a then b else .ok false

@[simp]
theorem andThen_eq_true (a : Bool) (b : Except ServerError Bool) :
    andThen a b = .ok true ↔ a = true ∧ b = .ok true := by
  unfold andThen
  split
  · next h => simp [h]
  · next h => simp [h]

/-! ## Public keys -/

/-- `CanonicalAuthorizationJwk`, a public key of the curve `P-256`. -/
structure CanonicalAuthorizationJwk where
  x : JsString
  y : JsString
  deriving DecidableEq, Repr

/-- The key as an object `{ kty, crv, x, y }`. -/
def CanonicalAuthorizationJwk.toJwk (jwk : CanonicalAuthorizationJwk) : JsonWebKey :=
  ⟨.object
    [(Js.lit "kty", .string (Js.lit "EC")), (Js.lit "crv", .string (Js.lit "P-256")),
      (Js.lit "x", .string jwk.x), (Js.lit "y", .string jwk.y)], rfl⟩

/-- `JWK_FIELDS`. -/
def jwkFields : List JsString :=
  [Js.lit "kty", Js.lit "crv", Js.lit "x", Js.lit "y", Js.lit "key_ops", Js.lit "ext"]

/-- `B64URL_256`. -/
def b64url256 (s : JsString) : Bool :=
  Js.classPattern (fun c => Js.isAlnum c || Js.oneOf "_-" c) 42 42 (s.take 42) &&
    Js.classPattern (Js.oneOf "AEIMQUYcgkosw048") 1 1 (s.drop 42)

/-- `typeof v === 'string' && v`. -/
def stringOf : JsValue → Option JsString
  | .string s => some s
  | _ => none

/-- The own properties of a plain object. -/
def plainFields : JsValue → Except ServerError (List (JsString × JsValue))
  | .object fields => .ok fields
  | .array _ => .error (.error "pubJwk must be a plain object")
  | _ => .error (.error "pubJwk must be a non-proxy object")

/-- A coordinate: 256 bits in base64url. -/
def coordinate (v : JsValue) : Option JsString :=
  (stringOf v).filter b64url256

/-- The key of these coordinates, of type `EC` on the curve `P-256`. -/
def exactKey (kty crv : JsValue) (x y : Option JsString) :
    Except ServerError CanonicalAuthorizationJwk :=
  match x, y with
  | some x, some y => do
      ensure (stringOf kty = some (Js.lit "EC") ∧ stringOf crv = some (Js.lit "P-256"))
        "pubJwk must be an exact public P-256 key"
      pure ⟨x, y⟩
  | _, _ => .error (.error "pubJwk must be an exact public P-256 key")

/-- The coordinates of an exact public P-256 key. -/
def coordinates (jwk : JsonWebKey) : Except ServerError CanonicalAuthorizationJwk :=
  exactKey (jwk.get "kty") (jwk.get "crv") (coordinate (jwk.get "x")) (coordinate (jwk.get "y"))

/-- `key_ops`, where it is present. -/
def checkKeyOps : JsValue → Except ServerError Unit
  | .undefined => .ok ()
  | .array [.string s] =>
      ensure (s = Js.lit "verify") "pubJwk.key_ops must contain one verify data property"
  | .array [_] => .error (.error "pubJwk.key_ops must contain one verify data property")
  | _ => .error (.error "pubJwk.key_ops must be exactly [\"verify\"] when present")

/-- `ext`, where it is present. -/
def checkExt : JsValue → Except ServerError Unit
  | .undefined => .ok ()
  | .bool b => ensure (b = true) "pubJwk.ext must be true when present"
  | _ => .error (.error "pubJwk.ext must be true when present")

/-- `canonicalAuthorizationJwk(value)`. -/
def canonicalAuthorizationJwk (value : JsonWebKey) : Except ServerError CanonicalAuthorizationJwk := do
  let fields ← plainFields value.1
  fields.forM fun f =>
    ensure (f.1 ∈ jwkFields) ("pubJwk contains unexpected field '" ++ Js.message f.1 ++ "'")
  let jwk ← coordinates value
  checkKeyOps (value.get "key_ops")
  checkExt (value.get "ext")
  pure jwk

/-- `sameData(canonicalAuthorizationJwk(a), canonicalAuthorizationJwk(b))`. -/
def sameAuthorizationJwk (a b : JsonWebKey) : Except ServerError Bool := do
  let left ← canonicalAuthorizationJwk a
  let right ← canonicalAuthorizationJwk b
  pure (decide (left = right))

/-- The coordinates of an exact key are those it was read from. -/
theorem exactKey_eq_ok {kty crv : JsValue} {x y : Option JsString}
    {key : CanonicalAuthorizationJwk} :
    exactKey kty crv x y = .ok key ↔
      (stringOf kty = some (Js.lit "EC") ∧ stringOf crv = some (Js.lit "P-256")) ∧
        x = some key.x ∧ y = some key.y := by
  unfold exactKey
  split
  · next x y =>
      simp only [bind_eq_ok, ensure_eq_ok, exists_unit, pure_eq_ok, Option.some.injEq]
      refine and_congr_right fun _ => ?_
      constructor
      · rintro rfl
        exact ⟨rfl, rfl⟩
      · rintro ⟨rfl, rfl⟩
        rfl
  · next x y hnone =>
      constructor
      · intro h
        cases h
      · rintro ⟨-, hx, hy⟩
        exact (hnone _ _ hx hy).elim

/-- A canonical key is read back as itself. -/
theorem canonicalAuthorizationJwk_toJwk {jwk : JsonWebKey} {key : CanonicalAuthorizationJwk}
    (h : canonicalAuthorizationJwk jwk = .ok key) :
    canonicalAuthorizationJwk key.toJwk = .ok key := by
  simp only [canonicalAuthorizationJwk, bind_eq_ok, exists_unit, pure_eq_ok] at h
  obtain ⟨fields, -, -, key', hcoordinates, -, -, rfl⟩ := h
  obtain ⟨-, hx, hy⟩ := exactKey_eq_ok.mp hcoordinates
  have hcoordinate : ∀ {v : JsValue} {s : JsString}, coordinate v = some s →
      coordinate (.string s) = some s := by
    intro v s hv
    have hs : b64url256 s = true := (Option.filter_eq_some_iff.mp hv).2
    simp [coordinate, stringOf, Option.filter, hs]
  have hcanonical : coordinates key'.toJwk = .ok key' :=
    exactKey_eq_ok.mpr ⟨⟨rfl, rfl⟩, hcoordinate hx, hcoordinate hy⟩
  show (do
    let jwk ← coordinates key'.toJwk
    checkKeyOps .undefined
    checkExt .undefined
    pure jwk) = _
  rw [hcanonical]
  rfl

/-! ## Agreement -/

/-- `hasInitialPairState(pair)`. -/
def hasInitialPairState (pair : StoredPair) : Bool :=
  decide (pair.status = .active) && pair.lastActive.isNone && pair.requests.eq (.fin 0) &&
    pair.failedSigs.eq (.fin 0) && pair.cumulativeFailures.isNone && pair.firstFailureAt.isNone

/-- `pairMatchesRegistration(pair, registration)`. -/
def pairMatchesRegistration (pair : StoredPair) (registration : PairRegistration) :
    Except ServerError Bool :=
  andThen
    (decide (pair.name = registration.name) && decide (pair.scope = registration.scope) &&
      decide (pair.mode = registration.mode) &&
      decide (pair.secretHash = registration.secretHash))
    do
      let sameKey ← sameAuthorizationJwk pair.pubJwk registration.pubJwk
      pure (sameKey && sameNumber pair.expiresAt registration.expiresAt &&
        sameNumber pair.maxRequests registration.maxRequests &&
        decide (kindOf pair.kind = kindOf registration.kind) &&
        decide (pair.canaryClass = registration.canaryClass))

/-- `rotationPolicyMatches(oldPair, replacement)`. -/
def rotationPolicyMatches (oldPair replacement : StoredPair) : Bool :=
  decide (oldPair.name = replacement.name) && decide (oldPair.scope = replacement.scope) &&
    decide (oldPair.mode = replacement.mode) &&
    decide (oldPair.secretHash = replacement.secretHash) &&
    sameNumber oldPair.expiresAt replacement.expiresAt &&
    sameNumber oldPair.maxRequests replacement.maxRequests &&
    decide (kindOf oldPair.kind = kindOf replacement.kind) &&
    decide (oldPair.canaryClass = replacement.canaryClass)

/-- `SuccessfulUsePolicy`. -/
structure SuccessfulUsePolicy where
  status : PairStatus
  scope : JsString
  mode : JsString
  secretHash : JsString
  pubJwk : JsonWebKey
  expiresAt : Option JsNumber
  maxRequests : Option JsNumber
  kind : PairKind
  canaryClass : Option CanaryClass

/-- `successfulUsePolicy(pair)`. -/
def successfulUsePolicy (pair : StoredPair) : Except ServerError SuccessfulUsePolicy := do
  let jwk ← canonicalAuthorizationJwk pair.pubJwk
  pure
    { status := pair.status
      scope := pair.scope
      mode := pair.mode
      secretHash := pair.secretHash
      pubJwk := jwk.toJwk
      expiresAt := pair.expiresAt
      maxRequests := pair.maxRequests
      kind := kindOf pair.kind
      canaryClass := pair.canaryClass }

/-- `successfulUsePolicyMatches(pair, expected)`. -/
def successfulUsePolicyMatches (pair : StoredPair) (expected : SuccessfulUsePolicy) :
    Except ServerError Bool :=
  andThen
    (decide (pair.status = expected.status) && decide (pair.scope = expected.scope) &&
      decide (pair.mode = expected.mode) && decide (pair.secretHash = expected.secretHash))
    do
      let sameKey ← sameAuthorizationJwk pair.pubJwk expected.pubJwk
      pure (sameKey && sameNumber pair.expiresAt expected.expiresAt &&
        sameNumber pair.maxRequests expected.maxRequests &&
        decide (kindOf pair.kind = expected.kind) &&
        decide (pair.canaryClass = expected.canaryClass))

/-- The pair and the captured policy agree on everything that an authorization depends on. -/
structure PolicyHolds (pair : StoredPair) (expected : SuccessfulUsePolicy) : Prop where
  status : pair.status = expected.status
  scope : pair.scope = expected.scope
  mode : pair.mode = expected.mode
  secretHash : pair.secretHash = expected.secretHash
  pubJwk : ∃ key, canonicalAuthorizationJwk pair.pubJwk = .ok key ∧
    canonicalAuthorizationJwk expected.pubJwk = .ok key
  expiresAt : pair.expiresAt = expected.expiresAt
  maxRequests : pair.maxRequests = expected.maxRequests
  kind : kindOf pair.kind = expected.kind
  canaryClass : pair.canaryClass = expected.canaryClass

theorem successfulUsePolicyMatches_eq_true {pair : StoredPair} {expected : SuccessfulUsePolicy}
    (h : successfulUsePolicyMatches pair expected = .ok true) : PolicyHolds pair expected := by
  simp only [successfulUsePolicyMatches, andThen_eq_true, sameAuthorizationJwk, bind_eq_ok,
    pure_eq_ok, Bool.and_eq_true, decide_eq_true_iff] at h
  obtain ⟨⟨⟨⟨hstatus, hscope⟩, hmode⟩, hsecret⟩, same, ⟨left, hleft, right, hright, rfl⟩,
    ⟨⟨⟨hkey, hexpires⟩, hmax⟩, hkind⟩, hcanary⟩ := h
  have hkey : left = right := of_decide_eq_true hkey
  exact
    { status := hstatus
      scope := hscope
      mode := hmode
      secretHash := hsecret
      pubJwk := ⟨left, hleft, hkey ▸ hright⟩
      expiresAt := sameNumber_eq hexpires
      maxRequests := sameNumber_eq hmax
      kind := hkind
      canaryClass := hcanary }

/-- The pair and its replacement agree on everything but key, identity and history. -/
structure RotationPolicyHolds (oldPair replacement : StoredPair) : Prop where
  name : replacement.name = oldPair.name
  scope : replacement.scope = oldPair.scope
  mode : replacement.mode = oldPair.mode
  secretHash : replacement.secretHash = oldPair.secretHash
  expiresAt : replacement.expiresAt = oldPair.expiresAt
  maxRequests : replacement.maxRequests = oldPair.maxRequests
  kind : kindOf replacement.kind = kindOf oldPair.kind
  canaryClass : replacement.canaryClass = oldPair.canaryClass

theorem rotationPolicyMatches_eq_true {oldPair replacement : StoredPair}
    (h : rotationPolicyMatches oldPair replacement = true) :
    RotationPolicyHolds oldPair replacement := by
  simp only [rotationPolicyMatches, Bool.and_eq_true, decide_eq_true_iff] at h
  obtain ⟨⟨⟨⟨⟨⟨⟨hname, hscope⟩, hmode⟩, hsecret⟩, hexpires⟩, hmax⟩, hkind⟩, hcanary⟩ := h
  exact
    { name := hname.symm
      scope := hscope.symm
      mode := hmode.symm
      secretHash := hsecret.symm
      expiresAt := (sameNumber_eq hexpires).symm
      maxRequests := (sameNumber_eq hmax).symm
      kind := hkind.symm
      canaryClass := hcanary.symm }

/-- What every new pair starts with. -/
structure InitialPairState (pair : StoredPair) : Prop where
  status : pair.status = .active
  lastActive : pair.lastActive = none
  requests : pair.requests = .fin 0
  failedSigs : pair.failedSigs = .fin 0
  cumulativeFailures : pair.cumulativeFailures = none
  firstFailureAt : pair.firstFailureAt = none

theorem eq_zero_of_eq {n : JsNumber} (h : n.eq (.fin 0) = true) : n = .fin 0 := by
  cases n with
  | nan => cases h
  | posInf => exact of_decide_eq_true h
  | negInf => exact of_decide_eq_true h
  | fin q => exact of_decide_eq_true h

theorem hasInitialPairState_eq_true {pair : StoredPair} (h : hasInitialPairState pair = true) :
    InitialPairState pair := by
  simp only [hasInitialPairState, Bool.and_eq_true, decide_eq_true_iff, Option.isNone_iff_eq_none] at h
  obtain ⟨⟨⟨⟨⟨hstatus, hlast⟩, hrequests⟩, hfailed⟩, hcumulative⟩, hfirst⟩ := h
  exact
    { status := hstatus
      lastActive := hlast
      requests := eq_zero_of_eq hrequests
      failedSigs := eq_zero_of_eq hfailed
      cumulativeFailures := hcumulative
      firstFailureAt := hfirst }

end Pair
