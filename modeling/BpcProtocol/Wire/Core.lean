import BpcProtocol.Ha.Canonical
import BpcProtocol.Js.Base64
import BpcProtocol.Js.PropertyOrder
import BpcProtocol.Pair.Service

set_option autoImplicit false

/-! # The core package

What both ends of the wire take from it: the text that is signed, the encoding of bytes, the HMAC
under the user's secret, and the signature. -/

namespace Wire

open Fallible Pair

/-! ## Encoding -/

/-- `b64url(buf)`. -/
def b64url (buf : Bytes) : JsString :=
  ((Js.btoa buf).map fun c => if c = 43 then 45 else if c = 47 then 95 else c).filter (· != 61)

/-- `b64urlDecode(str)`, `none` where `atob` throws. -/
def b64urlDecode (str : JsString) : Option Bytes :=
  (Js.atob (Js.base64UrlPadded str)).map fun bin => bin.map fun c => c.toNat.toUInt8

/-! ## The signed text -/

/-- `typeof value === 'object'`, but for `null`. -/
def isNested : JsValue → Bool
  | .array _ => true
  | .object _ => true
  | _ => false

/-- What `canonicalize` asks of one member. -/
def checkMember (member : JsString × JsValue) : Except ServerError Unit := do
  require (member.1 ∉ forbiddenKeys)
    (.typeError ("BPC canonicalize: forbidden key \"" ++ Js.message member.1 ++ "\" in payload"))
  require (isNested member.2 = false)
    (.typeError ("BPC canonicalize: nested object at key \"" ++ Js.message member.1 ++
      "\" is not allowed"))

/-- The members of an object in the order of their keys. -/
def sortMembers (fields : List (JsString × JsValue)) : List (JsString × JsValue) :=
  fields.insertionSort Ha.keyLe

/-- The own properties of `sorted`: array indices come first. -/
def sortedMembers (fields : List (JsString × JsValue)) : List (JsString × JsValue) :=
  fields.insertionSort Js.ownLe

/-- `canonicalize(obj)`. -/
def canonicalize : JsValue → Except ServerError JsString
  | .object fields => do
      (sortMembers fields).forM checkMember
      pure ((Js.stringify (.object (sortedMembers fields))).getD [])
  | _ => .error (.typeError "BPC canonicalize: input must be a plain object")

/-! ## Keys -/

/-- What the runtime computes: a digest, the derivation of 256 bits, a MAC, the import of a public
    key, and signatures. -/
structure WebCrypto (PrivateKey PublicKey : Type) where
  sha256 : Bytes → Bytes
  deriveBits : Bytes → Bytes → Bytes → Bytes
  hmac : Bytes → Bytes → Bytes
  importPublicKey : JsonWebKey → Except ServerError PublicKey
  sign : PrivateKey → Bytes → Bytes
  verify : PublicKey → Bytes → Bytes → Bool

/-- `HKDF_SALT`. -/
def hkdfSalt : Bytes := Js.utf8 (Js.lit "bpc-protocol-hmac-salt-v1")

/-- `HKDF_INFO`. -/
def hkdfInfo : Bytes := Js.utf8 (Js.lit "bpc-v1-hmac-key")

variable {PrivateKey PublicKey : Type} (c : WebCrypto PrivateKey PublicKey)

/-- `hashSecret(secret)`. -/
def hashSecret (secret : JsString) : Except ServerError JsString := do
  require (secret ≠ []) (.typeError "BPC hashSecret: secret must not be empty")
  pure (b64url (c.deriveBits (Js.utf8 secret) hkdfSalt hkdfInfo))

/-- `hmacDerive(keyMaterial, data)`. -/
def hmacDerive (keyMaterial data : JsString) : Except ServerError JsString := do
  require (keyMaterial ≠ []) (.typeError "BPC hmacDerive: keyMaterial must not be empty")
  let keyBytes ← (b64urlDecode keyMaterial).elim (.error .external) .ok
  pure (b64url (c.hmac keyBytes (Js.utf8 data)))

/-- `/^[A-Za-z0-9_-]+=*$/`. -/
def hmacPattern (s : JsString) : Bool :=
  let digits := (s.reverse.dropWhile (· == 61)).reverse
  !digits.isEmpty && digits.all fun c => Js.isAlnum c || Js.oneOf "_-" c

/-- `verifySecretHmac(storedHmacKey, nonce, timestamp, providedHmac)`. -/
def verifySecretHmac (storedHmacKey nonce : JsString) (timestamp : JsNumber)
    (providedHmac : JsValue) : Bool :=
  !storedHmacKey.isEmpty && truthy providedHmac &&
    !(Js.toNumber (lengthOf providedHmac)).lt (.fin 43) && hmacPattern (Js.toText providedHmac) &&
    (hmacDerive c storedHmacKey (nonce ++ Js.numberText timestamp)).toOption.any fun expected =>
      Js.utf8 expected == Js.utf8 (Js.toText providedHmac)

/-- `signPayload(privateKey, payload)`. -/
def signPayload (privateKey : PrivateKey) (payload : JsValue) : Except ServerError JsString := do
  let canonical ← canonicalize payload
  pure (b64url (c.sign privateKey (Js.utf8 canonical)))

/-- `verifyPayload(publicKey, payload, signature)`: what throws does not verify. -/
def verifyPayload (publicKey : PublicKey) (payload : JsValue) (signature : JsString) : Bool :=
  (canonicalize payload).toOption.any fun canonical =>
    (b64urlDecode signature).any fun sigBuf => c.verify publicKey sigBuf (Js.utf8 canonical)

/-- What the server takes from the package. -/
def crypto : Pair.Crypto where
  verifySecretHmac := verifySecretHmac c
  verifyPayload pubJwk payload signature := do
    let publicKey ← c.importPublicKey pubJwk
    pure (verifyPayload c publicKey payload signature)

end Wire
