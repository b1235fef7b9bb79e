import BpcProtocol.Ha.Errors

set_option autoImplicit false

/-! # Framed messages and their signatures

SHA-256 and Ed25519 are parameters (`Crypto`); what is modelled is what the code hashes and signs
(`frame`), and what it checks before it trusts a signature. -/

namespace Ha

open Fallible

/-- What the code takes from `node:crypto`: SHA-256 as lowercase hex, and Ed25519 signatures in
    base64url, signed by private keys and verified by public ones. `fingerprint` is the digest of a
    public key's SPKI encoding. -/
structure Crypto where
  PrivateKey : Type
  PublicKey : Type
  sha256 : Bytes → JsString
  edSign : PrivateKey → Bytes → JsString
  edVerify : PublicKey → Bytes → JsString → Bool
  fingerprint : PublicKey → JsString

/-- `PublicKeyResolver`: the Ed25519 public key an id names. A key object of another kind is refused
    like a missing one. -/
abbrev PublicKeyResolver (c : Crypto) := JsString → Option c.PublicKey

/-! ## Framing -/

/-- One part of a framed message: `null`, a string, or a number. -/
inductive FramePart where
  | null
  | text (s : JsString)
  | number (n : ℤ)

def FramePart.ofOption : Option JsString → FramePart
  | none => .null
  | some s => .text s

instance : Coe JsString FramePart := ⟨.text⟩

instance : Coe ℤ FramePart := ⟨.number⟩

/-- One part: a zero byte for `null`, else a one byte, the byte length and the bytes. -/
def FramePart.bytes : FramePart → Bytes
  | .null => [0]
  | .text s => 1 :: Js.u32be (Js.utf8 s).length ++ Js.utf8 s
  | .number n => 1 :: Js.u32be (Js.utf8 (Js.decimal n)).length ++ Js.utf8 (Js.decimal n)

/-- `frame(...parts)`. -/
def frame (parts : List FramePart) : Bytes :=
  parts.flatMap FramePart.bytes

/-! ## Keys and signatures -/

variable (c : Crypto)

/-- `publicKey(resolver, keyId)`. -/
def publicKey (resolver : PublicKeyResolver c) (keyId : JsString) : Except HaError c.PublicKey := do
  id keyId keyRe "keyId"
  match resolver keyId with
  | some key => pure key
  | none =>
      .error (.contractValidation "unknown/revoked keyId or non-public ed25519 verify key")

/-- The bytes that are signed: the message under the key's own id. -/
def keyedMessage (keyId : JsString) (message : Bytes) : Bytes :=
  frame [.text (Js.lit "bpc-ha-key/v1"), .text keyId] ++ message

/-- `sign(keyId, key, message)`. -/
def sign (keyId : JsString) (key : c.PrivateKey) (message : Bytes) : Except HaError JsString := do
  id keyId keyRe "keyId"
  pure (c.edSign key (keyedMessage keyId message))

/-- `verify(resolver, keyId, message, signature)`. -/
def verify (resolver : PublicKeyResolver c) (keyId : JsString) (message : Bytes)
    (signature : JsString) : Except HaError Unit := do
  ensure (b64u signature = true) "invalid signature encoding"
  let key ← publicKey c resolver keyId
  ensure (c.edVerify key (keyedMessage keyId message) signature = true) "invalid signature"

/-- `publicKeyFingerprint(resolver, keyId)`. -/
def publicKeyFingerprint (resolver : PublicKeyResolver c) (keyId : JsString) :
    Except HaError JsString := do
  let key ← publicKey c resolver keyId
  pure (c.fingerprint key)

/-- `nodeIdentityMessage(challenge)`. -/
def nodeIdentityMessage (challenge : Bytes) : Bytes :=
  frame [.text (Js.lit "bpc-node-identity/v1")] ++ challenge

/-- `signNodeIdentityChallenge(keyId, key, challenge)`. -/
def signNodeIdentityChallenge (keyId : JsString) (key : c.PrivateKey) (challenge : Bytes) :
    Except HaError JsString :=
  sign c keyId key (nodeIdentityMessage challenge)

theorem publicKey_eq_ok (resolver : PublicKeyResolver c) (keyId : JsString) (key : c.PublicKey) :
    publicKey c resolver keyId = .ok key ↔ keyRe keyId = true ∧ resolver keyId = some key := by
  simp only [publicKey, bind_eq_ok, id_eq_ok, exists_const]
  cases resolver keyId <;> simp

/-! ## A concrete instance

For concrete runs: the digest of a message is its length, and a key's signature is its number. -/

/-- A text in the form of a SHA-256 digest. -/
def digestOf (s : JsString) : JsString :=
  List.replicate (64 - s.length) 48 ++ s

def lengthCrypto : Crypto where
  PrivateKey := ℕ
  PublicKey := ℕ
  sha256 message := digestOf (Js.decimal message.length)
  edSign key _ := Js.decimal key
  edVerify key _ signature := signature == Js.decimal key
  fingerprint key := digestOf (Js.decimal key)

end Ha
