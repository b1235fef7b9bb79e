import BpcProtocol.Lib.Async
import BpcProtocol.Principal.Records

set_option autoImplicit false

/-! # The principal session ledger

`MemoryPrincipalSessionLedger`: what each stretch of its methods between two awaits does to the maps,
the verifier of a principal's continuity, and the methods as programs over those stretches. A record
that a method holds across an await is the one in the map, since no map entry is ever replaced. -/

namespace Principal

open Fallible Pair Async
open Js (lit)
open Replication (canonicalJson)

/-! ## State -/

/-- The maps of the ledger; of a key that is not there, `events` and `checkpoints` give the empty
    list that the code reads for it. -/
structure Ledger where
  principals : JsString → Option PrincipalRecord
  streams : JsString → Option PrincipalStreamRecord
  events : JsString → List PrincipalStreamEvent
  checkpoints : JsString → List PrincipalCheckpoint
  consumedProofNonces : JsString → Bool

def Ledger.empty : Ledger :=
  ⟨fun _ => none, fun _ => none, fun _ => [], fun _ => [], fun _ => false⟩

def Ledger.setPrincipal (l : Ledger) (principalId : JsString) (r : PrincipalRecord) : Ledger :=
  { l with principals := Function.update l.principals principalId (some r) }

def Ledger.setStream (l : Ledger) (streamId : JsString) (stream : PrincipalStreamRecord) : Ledger :=
  { l with streams := Function.update l.streams streamId (some stream) }

@[simp]
theorem Ledger.setPrincipal_self (l : Ledger) (principalId : JsString) (r : PrincipalRecord) :
    (l.setPrincipal principalId r).principals principalId = some r :=
  Function.update_self _ _ _

theorem Ledger.setPrincipal_of_ne (l : Ledger) {principalId q : JsString} (r : PrincipalRecord)
    (h : q ≠ principalId) : (l.setPrincipal principalId r).principals q = l.principals q :=
  Function.update_of_ne h _ _

@[simp]
theorem Ledger.setStream_self (l : Ledger) (streamId : JsString) (stream : PrincipalStreamRecord) :
    (l.setStream streamId stream).streams streamId = some stream :=
  Function.update_self _ _ _

theorem Ledger.setStream_of_ne (l : Ledger) {streamId t : JsString} (stream : PrincipalStreamRecord)
    (h : t ≠ streamId) : (l.setStream streamId stream).streams t = l.streams t :=
  Function.update_of_ne h _ _

/-- The record of a principal is changed in place. -/
def Ledger.updatePrincipal (l : Ledger) (principalId : JsString)
    (f : PrincipalRecord → PrincipalRecord) : Ledger :=
  (l.principals principalId).elim l fun r => l.setPrincipal principalId (f r)

/-- What follows what may throw: a throw leaves the ledger as it is then. -/
def orThrow {α β : Type} (l : Ledger) (f : α → Except ServerError β × Ledger) :
    Except ServerError α → Except ServerError β × Ledger
  | .ok a => f a
  | .error e => (.error e, l)

theorem orThrow_ok {α β : Type} (l : Ledger) (f : α → Except ServerError β × Ledger) (a : α) :
    orThrow l f (.ok a) = f a :=
  rfl

/-- `if (!list.includes(x)) list.push(x)`. -/
def pushNew (list : List JsString) (x : JsString) : List JsString :=
  if x ∈ list then list else list ++ [x]

section Blocks

variable {PrivateKey PublicKey : Type} (c : Wire.WebCrypto PrivateKey PublicKey)

/-! ## Principals and streams -/

/-- `mustPrincipal(principalId)`. -/
def mustPrincipal (l : Ledger) (principalId : JsString) : Except ServerError PrincipalRecord :=
  (l.principals principalId).elim
    (.error (.error ("Unknown principal: " ++ Js.message principalId))) .ok

/-- `upsertPrincipal(publicKeyJwk, keyFingerprint, authorizationContext)`. -/
def upsertPrincipal (now : JsNumber) (publicKeyJwk : JsonWebKey) (keyFingerprint : JsString)
    (authorizationContext : Fields) (l : Ledger) : Ledger :=
  let principalId := principalIdFromFingerprint c keyFingerprint
  (l.principals principalId).elim
    { l with
      principals := Function.update l.principals principalId (some
        { principalId, keyFingerprint, publicKeyJwk, createdAt := now, updatedAt := now,
          authorizationContext, keyVersion := .fin 1, sessionIds := [], activeSessionIds := [],
          streamIds := [], checkpointHead := principalGenesisHash, checkpointSeq := 0 })
      checkpoints := Function.update l.checkpoints principalId [] }
    fun _ => l

/-- `upsertStream(principal, streamId, provider, agentInstanceId, providerSessionId)`. -/
def upsertStream (principalId streamId provider agentInstanceId providerSessionId : JsString)
    (l : Ledger) : Ledger :=
  (l.streams streamId).elim
    ({ l with
        streams := Function.update l.streams streamId (some
          { principalId, streamId, provider, agentInstanceId,
            providerSessionIds := [providerSessionId], seq := 0, headHash := principalGenesisHash })
        events := Function.update l.events streamId [] }.updatePrincipal principalId fun r =>
          { r with streamIds := r.streamIds ++ [streamId] })
    fun existing => l.setStream streamId
      { existing with
        providerSessionIds := pushNew existing.providerSessionIds providerSessionId }

/-! ## Events and checkpoints -/

/-- The options of `appendEventToStream`. -/
structure EventOptions where
  providerSessionId : Option JsString := none
  policyDigest : Option JsString := none
  proofDigest : Option JsString := none
  binding : Bool := false

/-- The event that follows the head of a stream. -/
def nextEvent (timestamp : JsNumber) (stream : PrincipalStreamRecord)
    (eventType : PrincipalEventType) (payload : Fields) (options : EventOptions) :
    Except ServerError PrincipalStreamEvent := do
  let sanitizedPayload := sanitizeFields payload
  let payloadHash ← hashOf c (.object sanitizedPayload)
  let base : BareStreamEvent :=
    { principalId := stream.principalId, streamId := stream.streamId, provider := stream.provider
      providerSessionId := options.providerSessionId, agentInstanceId := stream.agentInstanceId
      seq := stream.seq + 1, timestamp, eventType, policyDigest := options.policyDigest
      proofDigest := options.proofDigest, payloadHash, payload := sanitizedPayload
      prevHash := stream.headHash }
  let chainHash := computeStreamEventHash c base
  pure { base with chainHash, bindingHash := if options.binding then some chainHash else none }

/-- An event is put at the end of its stream. -/
def pushEvent (stream : PrincipalStreamRecord) (event : PrincipalStreamEvent) (l : Ledger) :
    Ledger :=
  { l with
      events := Function.update l.events stream.streamId (l.events stream.streamId ++ [event])
    }.setStream stream.streamId { stream with seq := event.seq, headHash := event.chainHash }

/-- `{ seq: stream.seq, chainHash: stream.headHash }`. -/
def headOf (stream : PrincipalStreamRecord) : JsValue :=
  .object [(lit "seq", ofNat stream.seq), (lit "chainHash", .string stream.headHash)]

/-- The heads of the streams that there are. -/
def streamHeads (l : Ledger) (streamIds : List JsString) : StreamHeads :=
  streamIds.foldl
    (fun heads streamId => (l.streams streamId).elim heads fun stream =>
      Js.setField heads streamId (headOf stream)) []

/-- The checkpoint that follows the head of a principal. -/
def nextCheckpoint (timestamp : JsNumber) (r : PrincipalRecord) (l : Ledger) :
    PrincipalCheckpoint :=
  let checkpoint : BareCheckpoint :=
    { principalId := r.principalId, seq := r.checkpointSeq + 1, timestamp
      streamHeads := streamHeads l r.streamIds, prevHash := r.checkpointHead }
  { checkpoint with checkpointHash := computeCheckpointHash c checkpoint }

/-- `appendCheckpoint(principal)`. -/
def appendCheckpoint (timestamp : JsNumber) (r : PrincipalRecord) (l : Ledger) : Ledger :=
  let full := nextCheckpoint c timestamp r l
  { l with
      checkpoints := Function.update l.checkpoints r.principalId
        (l.checkpoints r.principalId ++ [full]) }.setPrincipal r.principalId
    { r with checkpointSeq := full.seq, checkpointHead := full.checkpointHash, updatedAt := timestamp }

/-! ## The stretches of the methods -/

/-- The times that a stretch reads: for the event, for the checkpoint, for a rotated record. -/
structure Times where
  event : JsNumber
  checkpoint : JsNumber
  record : JsNumber

/-- The record as `bindSession` updates it. -/
def joinSession (providerSessionId : JsString) (authorizationContext : Fields)
    (r : PrincipalRecord) : PrincipalRecord :=
  { r with
    sessionIds := pushNew r.sessionIds providerSessionId
    activeSessionIds := pushNew r.activeSessionIds providerSessionId
    authorizationContext :=
      if authorizationContext.isEmpty then r.authorizationContext
      else overlay r.authorizationContext authorizationContext }

/-- The payload of a `session_bound` event. -/
def bindPayload (input : BindSessionInput) (r : PrincipalRecord) : Fields :=
  [(lit "provider", .string input.provider),
    (lit "providerSessionId", .string input.providerSessionId),
    (lit "agentInstanceId", .string input.agent), (lit "policyDigest", .string input.policyDigest),
    (lit "runtime", sanitizeCaptureValue input.runtime),
    (lit "authorizationContext", .object r.authorizationContext)]

/-- `bindSession` up to its event: the stream is there, and the session has joined. -/
def joinStream (input : BindSessionInput) (principalId : JsString) (authorizationContext : Fields)
    (l : Ledger) : Ledger :=
  (upsertStream principalId (makeStreamId c principalId input.provider input.agent) input.provider
    input.agent input.providerSessionId l).updatePrincipal principalId
      (joinSession input.providerSessionId authorizationContext)

/-- The options of a `session_bound` event. -/
def bindOptions (input : BindSessionInput) : EventOptions :=
  { providerSessionId := some input.providerSessionId, policyDigest := some input.policyDigest
    proofDigest := some (sha256hex c (canonicalJson input.proof.toJs)), binding := true }

/-- What `bindSession` returns. -/
def bindingOf (input : BindSessionInput) (r : PrincipalRecord) (event : PrincipalStreamEvent)
    (checkpoint : PrincipalCheckpoint) : SessionBinding :=
  { principalId := r.principalId, streamId := makeStreamId c r.principalId input.provider input.agent
    provider := input.provider, providerSessionId := input.providerSessionId
    agentInstanceId := input.agent, boundAt := event.timestamp, policyDigest := input.policyDigest
    authorizationContext := r.authorizationContext, runtime := sanitizeCaptureValue input.runtime
    prevHash := event.prevHash, bindingHash := event.chainHash
    checkpointHash := checkpoint.checkpointHash }

/-- `mustStream`: the stream record that a method holds. -/
def heldStream (l : Ledger) (streamId : JsString) : Except ServerError PrincipalStreamRecord :=
  (l.streams streamId).elim (.error .external) .ok

/-- `bindSession` after its last await. -/
def finishBind (times : Times) (input : BindSessionInput) (principalId : JsString)
    (authorizationContext : Fields) (l : Ledger) : Except ServerError SessionBinding × Ledger :=
  let joined := joinStream c input principalId authorizationContext l
  let streamId := makeStreamId c principalId input.provider input.agent
  orThrow joined (fun r =>
    orThrow joined (fun stream =>
      orThrow joined (fun event =>
        let pushed := pushEvent stream event joined
        (.ok (bindingOf c input r event (nextCheckpoint c times.checkpoint r pushed)),
          appendCheckpoint c times.checkpoint r pushed))
        (nextEvent c times.event stream .sessionBound (bindPayload input r) (bindOptions c input)))
      (heldStream joined streamId))
    (mustPrincipal joined principalId)

/-- `this.streams.get(streamId)`, of a stream of this principal. -/
def ownStream (l : Ledger) (principalId streamId : JsString) :
    Except ServerError PrincipalStreamRecord :=
  ((l.streams streamId).filter fun stream => stream.principalId = principalId).elim
    (.error (.error ("Unknown stream for principal: " ++ Js.message streamId))) .ok

/-- `appendStreamEvent(principalId, streamId, eventType, payload)`. -/
def appendStreamEvent (times : Times) (principalId streamId : JsString)
    (eventType : PrincipalEventType) (payload : Fields) (l : Ledger) :
    Except ServerError PrincipalStreamEvent × Ledger :=
  orThrow l (fun r =>
    orThrow l (fun stream =>
      orThrow l (fun event =>
        (.ok event, appendCheckpoint c times.checkpoint r (pushEvent stream event l)))
        (nextEvent c times.event stream eventType payload {}))
      (ownStream l principalId streamId))
    (mustPrincipal l principalId)

/-- `closeSession(principalId, streamId, providerSessionId)`. -/
def closeSession (times : Times) (principalId streamId providerSessionId : JsString) (l : Ledger) :
    Except ServerError Unit × Ledger :=
  orThrow l (fun r =>
    let left := l.setPrincipal principalId
      { r with activeSessionIds := r.activeSessionIds.filter (· ≠ providerSessionId) }
    let appended := appendStreamEvent c times principalId streamId .sessionClosed
      [(lit "providerSessionId", .string providerSessionId)] left
    (appended.1.map fun _ => (), appended.2))
    (mustPrincipal l principalId)

/-- `rotatePrincipalKey` up to its await. -/
def startRotation (principalId : JsString) (publicKeyJwk : JsonWebKey) (l : Ledger) :
    Except ServerError Unit × Ledger :=
  orThrow l (fun r => (.ok (), l.setPrincipal principalId { r with publicKeyJwk }))
    (mustPrincipal l principalId)

/-- `rotatePrincipalKey` after its await. -/
def finishRotation (times : Times) (principalId keyFingerprint : JsString)
    (keyVersion : Option JsNumber) (l : Ledger) : Except ServerError PrincipalRecord × Ledger :=
  orThrow l (fun r =>
    let rotated : PrincipalRecord :=
      { r with keyFingerprint, keyVersion := keyVersion.getD r.keyVersion.incr
               updatedAt := times.record }
    let done := appendCheckpoint c times.checkpoint rotated l
    (mustPrincipal done principalId, done))
    (mustPrincipal l principalId)

/-- The nonce of a proof is consumed, once. -/
def consumeNonce (challengeNonce : JsString) (l : Ledger) : Except ServerError Unit × Ledger :=
  let digest := sha256hex c challengeNonce
  if l.consumedProofNonces digest then (.error (.error "principal session proof replayed"), l)
  else (.ok (), { l with consumedProofNonces := Function.update l.consumedProofNonces digest true })

/-! ## Continuity -/

/-- `{ valid: false, principalId, brokenAt, reason }`. -/
def broken (principalId brokenAt : JsString) (reason : String) : PrincipalChainVerifyResult :=
  ⟨false, principalId, some brokenAt, some reason⟩

/-- The loop over the events of a stream, from the index `i`. -/
def verifyEvents (principalId streamId : JsString) (i : ℕ) (prevHash : JsString) :
    List PrincipalStreamEvent → Except PrincipalChainVerifyResult JsString
  | [] => .ok prevHash
  | event :: rest => do
      let at_ := streamId ++ 58 :: Js.natDigits event.seq
      require (event.seq = i + 1) (broken principalId at_ "non_contiguous_stream_seq")
      require (event.prevHash = prevHash) (broken principalId at_ "broken_stream_link")
      require (computeStreamEventHash c event.toBareStreamEvent = event.chainHash)
        (broken principalId at_ "stream_entry_hash_mismatch")
      verifyEvents principalId streamId (i + 1) event.chainHash rest

/-- The loop over the streams: `currentHeads`. -/
def verifyStreams (l : Ledger) (principalId : JsString) (heads : StreamHeads) :
    List JsString → Except PrincipalChainVerifyResult StreamHeads
  | [] => .ok heads
  | streamId :: rest => do
      let stream ← (l.streams streamId).elim
        (.error (broken principalId streamId "stream_missing")) .ok
      let prevHash ← verifyEvents c principalId streamId 0 principalGenesisHash (l.events streamId)
      require (stream.seq = (l.events streamId).length ∧ stream.headHash = prevHash)
        (broken principalId streamId "stream_head_mismatch")
      verifyStreams l principalId (Js.setField heads streamId (headOf stream)) rest

/-- The loop over the checkpoints, from the index `i`. -/
def verifyCheckpoints (principalId : JsString) (i : ℕ) (checkpointPrev : JsString) :
    List PrincipalCheckpoint → Except PrincipalChainVerifyResult Unit
  | [] => .ok ()
  | checkpoint :: rest => do
      let at_ := lit "checkpoint:" ++ Js.natDigits checkpoint.seq
      require (checkpoint.seq = i + 1) (broken principalId at_ "non_contiguous_checkpoint_seq")
      require (checkpoint.prevHash = checkpointPrev)
        (broken principalId at_ "broken_checkpoint_link")
      require (computeCheckpointHash c checkpoint.toBareCheckpoint = checkpoint.checkpointHash)
        (broken principalId at_ "checkpoint_hash_mismatch")
      verifyCheckpoints principalId (i + 1) checkpoint.checkpointHash rest

/-- What `verifyPrincipalContinuity` checks of a principal that there is. -/
def checkContinuity (l : Ledger) (principalId : JsString) (r : PrincipalRecord) :
    Except PrincipalChainVerifyResult Unit := do
  let currentHeads ← verifyStreams c l principalId [] r.streamIds
  let checkpoints := l.checkpoints principalId
  verifyCheckpoints c principalId 0 principalGenesisHash checkpoints
  let headMismatch :=
    broken principalId (lit "checkpoint:head") "principal_checkpoint_head_mismatch"
  let latest ← checkpoints.getLast?.elim (.error headMismatch) .ok
  require (latest.checkpointHash = r.checkpointHead ∧ latest.seq = r.checkpointSeq) headMismatch
  require (canonicalJson (.object latest.streamHeads) = canonicalJson (.object currentHeads))
    (broken principalId (lit "checkpoint:latest") "checkpoint_stream_heads_mismatch")

/-- The outcome of the checks. -/
def verdict (principalId : JsString) :
    Except PrincipalChainVerifyResult Unit → PrincipalChainVerifyResult
  | .ok _ => ⟨true, principalId, none, none⟩
  | .error result => result

/-- `verifyPrincipalContinuity(principalId)`. -/
def verifyPrincipalContinuity (l : Ledger) (principalId : JsString) : PrincipalChainVerifyResult :=
  (l.principals principalId).elim ⟨false, principalId, none, some "principal_not_found"⟩ fun r =>
    verdict principalId (checkContinuity c l principalId r)

end Blocks

end Principal
