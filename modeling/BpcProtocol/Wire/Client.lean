import BpcProtocol.Js.JsonImage
import BpcProtocol.Wire.Encoding

set_option autoImplicit false

/-! # The client

`BPCClient.signRequest`, and the text of a request payload: its keys are written in the order in
which they are sorted. -/

namespace Wire

open Fallible Pair

/-! ## Payloads -/

/-- The payload of a request, but for its version, which is a constant. -/
structure RequestPayload where
  bodyHash : JsString
  method : JsString
  nonce : JsString
  pairId : JsString
  path : JsString
  secretHmac : JsString
  timestamp : JsNumber

namespace RequestPayload

variable (p : RequestPayload)

def members : List (JsString × JsValue) :=
  [(Js.lit "body_hash", .string p.bodyHash), (Js.lit "method", .string p.method),
    (Js.lit "nonce", .string p.nonce), (Js.lit "pair_id", .string p.pairId),
    (Js.lit "path", .string p.path), (Js.lit "secret_hmac", .string p.secretHmac),
    (Js.lit "timestamp", .number p.timestamp), (Js.lit "version", .string bpcProtocolVersion)]

def toJs : JsValue := .object p.members

end RequestPayload

/-- The keys of a payload. -/
def payloadKeys : List String :=
  ["body_hash", "method", "nonce", "pair_id", "path", "secret_hmac", "timestamp", "version"]

theorem keys_members (p : RequestPayload) : p.members.map Prod.fst = payloadKeys.map Js.lit :=
  rfl

theorem nodup_payloadKeys : (payloadKeys.map Js.lit).Nodup := by decide

theorem sorted_payloadKeys : (payloadKeys.map Js.lit).Pairwise (· ≤ ·) := by decide

theorem nodup_members (p : RequestPayload) : (p.members.map Prod.fst).Nodup :=
  nodup_payloadKeys

theorem sortMembers_members (p : RequestPayload) : sortMembers p.members = p.members := by
  have hsorted : (p.members.map Prod.fst).Pairwise (· ≤ ·) := sorted_payloadKeys
  have hmembers : p.members.Pairwise fun a b => a.1 ≤ b.1 := List.pairwise_map.mp hsorted
  exact List.Pairwise.insertionSort_eq hmembers

theorem sortedMembers_members (p : RequestPayload) : sortedMembers p.members = p.members := by
  have hown : (payloadKeys.map Js.lit).Pairwise fun j k => Js.ownKeyLe j k = true := by
    decide +kernel
  have hsorted : (p.members.map Prod.fst).Pairwise fun j k => Js.ownKeyLe j k = true := hown
  have hmembers : p.members.Pairwise fun a b => Js.ownKeyLe a.1 b.1 = true :=
    List.pairwise_map.mp hsorted
  exact List.Pairwise.insertionSort_eq hmembers

/-- The text of a number. -/
def numberJson (n : JsNumber) : JsString :=
  if n.isFinite then Js.numberText n else Js.lit "null"

/-- The texts of the members before the timestamp. -/
def RequestPayload.strings (p : RequestPayload) : List (String × JsString) :=
  [("body_hash", p.bodyHash), ("method", p.method), ("nonce", p.nonce), ("pair_id", p.pairId),
    ("path", p.path), ("secret_hmac", p.secretHmac)]

/-- The members of a payload as they are written. -/
def RequestPayload.memberTexts (p : RequestPayload) : List JsString :=
  (p.strings.map fun f => Js.memberText (Js.lit f.1) (Js.quote f.2)) ++
    [Js.memberText (Js.lit "timestamp") (numberJson p.timestamp),
      Js.memberText (Js.lit "version") (Js.quote bpcProtocolVersion)]

/-- The text of a payload. -/
def RequestPayload.text (p : RequestPayload) : JsString :=
  123 :: Js.commas p.memberTexts ++ [125]

/-- Members that are followed by others. -/
def followed (members : List JsString) (rest : JsString) : JsString :=
  members.foldr (fun t rest => t ++ 44 :: rest) rest

theorem commas_append (members : List JsString) (x y : JsString) :
    Js.commas (members ++ [x, y]) = followed members (x ++ 44 :: y) := by
  induction members with
  | nil => rfl
  | cons t rest ih =>
      rw [followed, List.foldr_cons, ← followed, ← ih]
      cases rest <;> rfl

theorem stringify_members (p : RequestPayload) :
    Js.stringify (.object p.members) = some p.text := by
  simp only [RequestPayload.members, Js.stringify, Js.stringifyFields]
  rfl

theorem checkMember_members (p : RequestPayload) :
    ∀ member ∈ p.members, checkMember member = .ok () := by
  have hkeys : ∀ key ∈ payloadKeys.map Js.lit, key ∉ forbiddenKeys := by decide
  intro member hmember
  have hkey := hkeys member.1 (keys_members p ▸ List.mem_map_of_mem hmember)
  have hvalue : isNested member.2 = false := by
    simp only [RequestPayload.members, List.mem_cons, List.not_mem_nil, or_false] at hmember
    rcases hmember with rfl | rfl | rfl | rfl | rfl | rfl | rfl | rfl <;> rfl
  rw [checkMember, require_of hkey, require_of hvalue]
  rfl

/-- What is signed of a payload. -/
theorem canonicalize_payload (p : RequestPayload) : canonicalize p.toJs = .ok p.text := by
  have hchecks : p.members.forM checkMember = .ok () :=
    forM_eq_ok.mpr (checkMember_members p)
  rw [RequestPayload.toJs, canonicalize, sortMembers_members, hchecks, sortedMembers_members,
    stringify_members]
  rfl

/-! ## Requests -/

/-- The kinds of bodies that `exactBodyBytes` tells apart: texts, bytes, plain objects by their
    JSON, and what cannot be hashed beforehand. -/
inductive RequestBody where
  | text (s : JsString)
  | bytes (b : Bytes)
  | json (v : JsValue)
  | formData
  | stream
  | unsupported (type : String)

/-- `exactBodyBytes(body)`. -/
def exactBodyBytes : RequestBody → Except ServerError Bytes
  | .text s => .ok (Js.utf8 s)
  | .bytes b => .ok b
  | .json v => .ok (Js.utf8 ((Js.stringify v).getD []))
  | .formData => .error
      (.typeError "BPCClient: FormData wire boundaries cannot be pre-hashed deterministically")
  | .stream => .error
      (.typeError "BPCClient: streaming request bodies require an application-supplied digest adapter")
  | .unsupported type => .error (.typeError ("BPCClient: unsupported request body type " ++ type))

/-- `EMPTY_BODY_HASH`. -/
def emptyBodyHash : JsString :=
  Js.lit "sha256:47DEQpj8HBSa-_TImW-5JCeuQeRkm5" ++ Js.lit "NMpJWZG3hSuFU"

/-- `SignedHeaders`. -/
structure SignedHeaders where
  pairId : JsString
  signature : JsString
  signedData : JsString
  version : JsString

/-- The configuration of a `BPCClient` that its requests need. -/
structure BPCClient (PrivateKey : Type) where
  pairId : JsString
  privateKey : PrivateKey
  secret : JsString

variable {PrivateKey PublicKey : Type} (c : WebCrypto PrivateKey PublicKey)

/-- The hash of what a body sends. -/
def hashOf (bytes : Bytes) : JsString :=
  Js.lit "sha256:" ++ b64url (c.sha256 bytes)

/-- The hash that the client signs. -/
def clientBodyHash (body : Option RequestBody) : Except ServerError JsString :=
  body.elim (.ok emptyBodyHash) fun body => hashOf c <$> exactBodyBytes body

/-- `signRequest(method, path, body)`, with the nonce and the time it takes. -/
def BPCClient.signRequest (client : BPCClient PrivateKey) (method path : JsString)
    (body : Option RequestBody) (nonce : JsString) (timestamp : JsNumber) :
    Except ServerError SignedHeaders := do
  let bodyHash ← clientBodyHash c body
  let secretHash ← hashSecret c client.secret
  let secretHmac ← hmacDerive c secretHash (nonce ++ Js.numberText timestamp)
  let payload : RequestPayload :=
    { bodyHash, method, nonce, pairId := client.pairId, path, secretHmac, timestamp }
  let signature ← signPayload c client.privateKey payload.toJs
  let canonical ← canonicalize payload.toJs
  pure
    { pairId := client.pairId
      signature
      signedData := b64url (Js.utf8 canonical)
      version := bpcProtocolVersion }

end Wire
