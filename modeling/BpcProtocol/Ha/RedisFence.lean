import BpcProtocol.Ha.CanonicalJson
import BpcProtocol.Ha.RedisFenceRecord
import BpcProtocol.Js.Coerce

set_option autoImplicit false

/-! # The Redis fence

One member of the fence is a Redis key that holds the JSON text of a record: the `CLAIM_FENCE`
script that replaces it, the checks of what is read back, and the majority of what the members
hold. -/

namespace Ha

open Fallible

/-! ## The script -/

/-- The replies of `CLAIM_FENCE`. -/
inductive ClaimReply where
  | claimed
  | refused
  | error (message : String)
  deriving DecidableEq, Repr

/-- `pcall(cjson.decode, raw)`, a table, and its `epoch`, a number. -/
def decodedEpoch (raw : JsString) : Option JsNumber :=
  match Js.parseJson raw with
  | some (.object fields) =>
      match JsValue.get (.object fields) (Js.lit "epoch") with
      | .number n => some n
      | _ => none
  | _ => none

/-- `tonumber(s)`, for a numeral that is one of JSON too. -/
def luaToNumber (s : JsString) : Option JsNumber :=
  match Js.parseJson s with
  | some (.number n) => some n
  | _ => none

/-- The comparison of `CLAIM_FENCE` between the stored epoch and the claimed one. -/
def claimOver (raw : JsString) (cur epoch : JsNumber) (text : JsString) : ClaimReply × JsString :=
  if epoch.lt cur then (.refused, raw)
  else if cur.eq epoch then (if raw = text then .claimed else .refused, raw)
  else (.claimed, text)

/-- `CLAIM_FENCE`, on the value of its key and its two arguments. -/
def claimFence (raw : Option JsString) (epochArg text : JsString) : ClaimReply × Option JsString :=
  match raw with
  | none => (.claimed, some text)
  | some raw =>
      match decodedEpoch raw with
      | none => (.error "BPC_FENCE_CORRUPT", some raw)
      | some cur =>
          match luaToNumber epochArg with
          | none => (.error "attempt to compare nil with number", some raw)
          | some epoch =>
              let (reply, raw) := claimOver raw cur epoch text
              (reply, some raw)

/-! ## What is read back -/

/-- `id(v, re, label)`, of a value of any type. -/
def idValue (v : JsValue) (re : JsString → Bool) (label : String) : Except HaError Unit :=
  match v with
  | .string s => id s re label
  | _ => .error (.contractValidation ("invalid " ++ label))

/-- `safeInt(v, label, min, max)`, of a value of any type. -/
def safeIntValue (v : JsValue) (label : String) (min max : ℤ) : Except HaError ℤ :=
  let n : Option ℤ :=
    match v with
    | .number n => n.toInt?
    | .string s => (Js.stringToNumber s).toInt?
    | _ => none
  match n with
  | some n => safeInt n label min max
  | none => .error (.contractValidation
      (label ++ " must be a safe integer in [" ++ toString min ++ ", " ++ toString max ++ "]"))

/-- A value as a part of a frame. -/
def framePart : JsValue → FramePart
  | .null => .null
  | v => .text (Js.toText v)

/-- `redisFenceMessage(v)`, of what was parsed. -/
def redisFenceMessageOf (v : JsValue) : Bytes :=
  frame (.text (Js.lit "bpc-redis-fence/v1") ::
    ["streamId", "epoch", "nodeId", "authoritySystemId", "nodeCredentialKeyId", "commandId",
      "claimedAtMs"].map fun key => framePart (v.get (Js.lit key)))

variable (c : Crypto) (resolver : PublicKeyResolver c)

/-- The checks of `BpcRedisFenceStore.parse` on the value it has read. -/
def checkFenceValue (v : JsValue) : Except HaError Unit := do
  idValue (v.get (Js.lit "streamId")) streamRe "streamId"
  idValue (v.get (Js.lit "nodeId")) idRe "nodeId"
  idValue (v.get (Js.lit "commandId")) idRe "commandId"
  idValue (v.get (Js.lit "nodeCredentialKeyId")) keyRe "nodeCredentialKeyId"
  ensure (digits (Js.toText (v.get (Js.lit "authoritySystemId"))) = true) "invalid authoritySystemId"
  let _ ← safeIntValue (v.get (Js.lit "epoch")) "epoch" 1 maxEpoch
  let _ ← safeIntValue (v.get (Js.lit "claimedAtMs")) "claimedAtMs" 0 maxMs
  verify c resolver (Js.toText (v.get (Js.lit "keyId"))) (redisFenceMessageOf v)
    (Js.toText (v.get (Js.lit "signature")))

/-- `BpcRedisFenceStore.parse(raw)`. -/
def parseFence (raw : JsString) : Except HaError JsValue :=
  match Js.parseJson raw with
  | some (.object fields) => do
      checkFenceValue c resolver (.object fields)
      pure (.object fields)
  | some (.array items) => do
      checkFenceValue c resolver (.array items)
      pure (.array items)
  | _ => .error (.contractValidation "BPC_FENCE_CORRUPT")

/-- `BpcRedisFenceStore.current()`, from the reply to its `GET`. -/
def fenceCurrent (raw : Option JsString) : Except HaError (Option JsValue) :=
  match raw with
  | none => pure none
  | some raw => do
      let v ← parseFence c resolver raw
      pure (some v)

/-- `JSON.stringify(record)`. -/
def recordText (r : RedisFenceRecord) : JsString := (Js.stringify r.toValue).getD []

/-- The arguments with which `BpcRedisFenceStore.claim(record)` calls the script. -/
def fenceClaimArgs (r : RedisFenceRecord) : Except HaError (JsString × JsString) := do
  let _ ← parseFence c resolver (recordText r)
  pure (Js.numberText (.fin r.epoch), recordText r)

/-! ## The majority -/

/-- `Math.floor(this.members.length / 2) + 1`. -/
def fenceQuorum (n : ℕ) : ℕ := n / 2 + 1

/-- An entry of `groups`: a canonical form, the record last seen under it, and how many members
    answered one. -/
structure FenceGroup where
  key : JsString
  record : JsValue
  count : ℕ

/-- `groups.set(key, { record, count: (group?.count ?? 0) + 1 })`. -/
def addToGroup (key : JsString) (record : JsValue) : List FenceGroup → List FenceGroup
  | [] => [⟨key, record, 1⟩]
  | g :: rest =>
      if g.key = key then ⟨key, record, g.count + 1⟩ :: rest else g :: addToGroup key record rest

/-- The loop of `rawCurrent` over the settled answers: only records count. -/
def groupAnswers : List (Except HaError (Option JsValue)) → List FenceGroup →
    Except HaError (List FenceGroup)
  | [], groups => pure groups
  | .ok (some record) :: rest, groups => do
      let key ← canonicalize record
      groupAnswers rest (addToGroup key record groups)
  | _ :: rest, groups => groupAnswers rest groups

/-- `rawCurrent()`, from the settled answers of the members. -/
def rawCurrent (answers : List (Except HaError (Option JsValue))) : Except HaError JsValue := do
  let groups ← groupAnswers answers []
  match groups.find? fun g => fenceQuorum answers.length ≤ g.count with
  | some winner => pure winner.record
  | none => .error (.contractValidation
      "Redis fence quorum has no authoritative majority (fail closed)")

/-! ## Records and their texts -/

/-- A record whose numbers are safe integers, as `parse` demands of every record. -/
def SafeRecord (r : RedisFenceRecord) : Prop :=
  Js.isSafeInteger r.epoch = true ∧ Js.isSafeInteger r.claimedAtMs = true

theorem SafeRecord.plain {r : RedisFenceRecord} (h : SafeRecord r) : Js.Plain r.toValue := by
  have hkeys : (["streamId", "epoch", "nodeId", "authoritySystemId", "nodeCredentialKeyId",
      "commandId", "claimedAtMs", "keyId", "signature"].map Js.lit).Nodup := by
    decide +kernel
  refine .object hkeys ?_
  intro f hf
  simp only [List.mem_cons, List.not_mem_nil, or_false] at hf
  rcases hf with rfl | rfl | rfl | rfl | rfl | rfl | rfl | rfl | rfl
  · exact .string _
  · exact .number (Js.readsBack_int h.1)
  · exact .string _
  · exact .string _
  · exact .string _
  · exact .string _
  · exact .number (Js.readsBack_int h.2)
  · exact .string _
  · exact .string _

theorem stringify_record (r : RedisFenceRecord) : Js.stringify r.toValue = some (recordText r) :=
  rfl

theorem parse_recordText {r : RedisFenceRecord} (h : SafeRecord r) :
    Js.parseJson (recordText r) = some r.toValue :=
  h.plain.parse_stringify (stringify_record r)

theorem RedisFenceRecord.toValue_inj {r s : RedisFenceRecord} (h : r.toValue = s.toValue) :
    r = s := by
  obtain ⟨⟨_, _, _, _, _, _, _⟩, _, _⟩ := r
  obtain ⟨⟨_, _, _, _, _, _, _⟩, _, _⟩ := s
  simpa [RedisFenceRecord.toValue, and_assoc] using h

theorem recordText_inj {r s : RedisFenceRecord} (hr : SafeRecord r) (hs : SafeRecord s)
    (h : recordText r = recordText s) : r = s :=
  RedisFenceRecord.toValue_inj (hr.plain.eq_of_stringify hs.plain (congrArg some h))

theorem decodedEpoch_recordText {r : RedisFenceRecord} (h : SafeRecord r) :
    decodedEpoch (recordText r) = some (.fin r.epoch) := by
  unfold decodedEpoch
  rw [parse_recordText h]
  rfl

theorem luaToNumber_epoch {r : RedisFenceRecord} (h : SafeRecord r) :
    luaToNumber (Js.numberText (.fin r.epoch)) = some (.fin r.epoch) := by
  have hplain : Js.Plain (.number (.fin r.epoch)) := .number (Js.readsBack_int h.1)
  have hparse := hplain.parse_stringify (t := Js.numberText (.fin r.epoch)) rfl
  rw [luaToNumber, hparse]

end Ha
