import BpcProtocol.Ha.Cutover
import BpcProtocol.Lib.Async
import BpcProtocol.Lib.Transaction

set_option autoImplicit false

/-! # The cutover service

The calls of `BpcCutoverController` and `PgRedisFenceWitness.bootstrapGenesis` as programs over the
control database's transactions. `markActive` makes up to three transactions, between which any
other call may run. -/

namespace Ha

open Fallible Relational Async Transaction

/-! ## Promotion readiness -/

/-- `PromotionReadinessAttestation`. -/
structure PromotionReadinessAttestation where
  streamId : JsString
  commandId : JsString
  targetEpoch : ℤ
  targetSourceEpoch : JsString
  targetSystemId : JsString
  snapshotKeyId : JsString
  manifestDigest : JsString
  appliedSequence : ℤ
  stateDigest : JsString
  fencedDigest : JsString
  keyId : JsString
  attestationDigest : JsString
  signature : JsString
  deriving DecidableEq, Repr

/-- `promotionAttestationMessage(v, d)`. -/
def promotionAttestationMessage (v : PromotionReadinessAttestation) (d : JsString) : Bytes :=
  frame [.text (Js.lit "bpc-promotion-readiness/v1"), .text v.streamId, .text v.commandId,
    .number v.targetEpoch, .text v.targetSourceEpoch, .text v.targetSystemId,
    .text v.snapshotKeyId, .text v.manifestDigest, .number v.appliedSequence, .text v.stateDigest,
    .text v.fencedDigest, .text d]

variable (c : Crypto)

/-- `verifyPromotionReadinessAttestation(resolver, v)`. -/
def verifyPromotionReadinessAttestation (resolver : PublicKeyResolver c)
    (v : PromotionReadinessAttestation) : Except HaError Unit := do
  id v.streamId streamRe "streamId"
  id v.commandId idRe "commandId"
  id v.targetSourceEpoch idRe "targetSourceEpoch"
  id v.snapshotKeyId keyRe "snapshotKeyId"
  ensure (digits v.targetSystemId = true) "promotion target system identity malformed"
  let _ ← safeInt v.targetEpoch "targetEpoch" 1 maxEpoch
  let _ ← safeInt v.appliedSequence "appliedSequence"
  ensure ([v.manifestDigest, v.stateDigest, v.fencedDigest, v.attestationDigest].all hex64 = true)
    "promotion attestation digest malformed"
  ensure (c.sha256 (promotionAttestationMessage v []) = v.attestationDigest)
    "promotion attestation digest mismatch"
  verify c resolver v.keyId (promotionAttestationMessage v v.attestationDigest) v.signature

/-- The attestation is signed by the snapshot authority's own key, which is not the guard's. -/
def checkIndependent (resolver sourceResolver : PublicKeyResolver c)
    (attestation : PromotionReadinessAttestation) (head : CutoverReceipt) :
    Except HaError Unit := do
  ensure (attestation.keyId = attestation.snapshotKeyId ∧ attestation.keyId ≠ head.keyId)
    "promotion readiness must be signed by the independent snapshot authority"
  let source ← publicKeyFingerprint c sourceResolver attestation.keyId
  let guard ← publicKeyFingerprint c resolver head.keyId
  ensure (source ≠ guard)
    "promotion readiness must be signed by the independent snapshot authority"

/-- The attestation is about exactly this FENCED cutover. -/
def AttestationBinds (commandId : JsString) (attestation : PromotionReadinessAttestation)
    (head : CutoverReceipt) : Prop :=
  head.phase = .fenced ∧ attestation.commandId = commandId ∧
    attestation.streamId = head.streamId ∧ attestation.targetEpoch = head.targetEpoch ∧
    attestation.targetSourceEpoch = head.targetSourceEpoch ∧
    attestation.manifestDigest = head.manifestDigest ∧
    attestation.appliedSequence = head.finalSourceSequence ∧
    attestation.stateDigest = head.stateDigest ∧
    attestation.fencedDigest = head.stateDigestSigned

instance (commandId : JsString) (attestation : PromotionReadinessAttestation)
    (head : CutoverReceipt) : Decidable (AttestationBinds commandId attestation head) :=
  inferInstanceAs (Decidable (_ ∧ _))

/-! ## Transactions -/

/-- The transactions of the service. -/
inductive CutoverOp where
  | begin (ctl : BpcCutoverController c) (input : CutoverIntent)
  | transition (ctl : BpcCutoverController c) (commandId : JsString) (phase : TransitionPhase)
  | readHead (commandId : JsString)
  | readAttestation (commandId : JsString)
  | insertAttestation (commandId : JsString) (attestation : PromotionReadinessAttestation)
  | bootstrapGenesis (streamId digest : JsString)

/-- The result of each transaction. -/
abbrev CutoverOp.Result : CutoverOp c → Type
  | .begin _ _ => CutoverReceipt
  | .transition _ _ _ => CutoverReceipt
  | .readHead _ => CutoverReceipt
  | .readAttestation _ => Option AttestationRow
  | .insertAttestation _ _ => Unit
  | .bootstrapGenesis _ _ => Unit

/-- The head receipt of a command. -/
def readHeadTx (commandId : JsString) (db : ControlDb) :
    Except HaError (CutoverReceipt × ControlDb) :=
  match db.cutoverHead.select fun r => r.commandId == commandId with
  | none => .error (.contractValidation "cutover intent missing")
  | some row => do
      let head ← cutoverFromRow row
      pure (head, db)

/-- The attestation retained for a command. -/
def ControlDb.attestation (db : ControlDb) (commandId : JsString) : Option AttestationRow :=
  db.promotionAttestation.select fun r => r.commandId == commandId

/-- The attestation is retained unless the command already has one, which must be the same. -/
def insertAttestationTx (commandId : JsString) (attestation : PromotionReadinessAttestation)
    (db : ControlDb) : Except HaError (Unit × ControlDb) := do
  let (table, inserted) ← query (db.promotionAttestation.insertOrIgnore
    { commandId, attestationDigest := attestation.attestationDigest, keyId := attestation.keyId,
      signature := attestation.signature })
  ensure (inserted = 1 ∨ (db.attestation commandId).map (·.attestationDigest) =
    some attestation.attestationDigest) "conflicting promotion readiness attestation"
  pure ((), { db with promotionAttestation := table })

/-- A witness that was there before must be this genesis. -/
def checkGenesis (digest : JsString) : Option EpochWitness → Except HaError Unit
  | none => .error (.contractValidation "conflicting governed Redis genesis")
  | some w => do
      let epoch ← safeInt w.epoch "genesis witness epoch" 1 maxEpoch
      ensure (epoch = 1 ∧ w.stateDigest = digest) "conflicting governed Redis genesis"

/-- The transaction of `bootstrapGenesis`: the stream's witness is created at epoch one. -/
def bootstrapGenesisTx (streamId digest : JsString) (db : ControlDb) :
    Except HaError (Unit × ControlDb) := do
  let (table, inserted) ←
    query (db.epochWitness.insertOrIgnore { streamId, epoch := 1, stateDigest := digest })
  if inserted = 0 then do
    checkGenesis digest (db.witness streamId)
    pure ((), { db with epochWitness := table })
  else pure ((), { db with epochWitness := table })

/-- The body of each transaction, given what it reads outside the database. -/
def CutoverOp.body (resolver : PublicKeyResolver c) (evidence : FenceEvidence) :
    (o : CutoverOp c) → ControlDb → Except HaError (o.Result × ControlDb)
  | .begin ctl input => ctl.begin c resolver input
  | .transition ctl commandId phase => ctl.transition c resolver commandId phase evidence
  | .readHead commandId => readHeadTx commandId
  | .readAttestation commandId => fun db => .ok (db.attestation commandId, db)
  | .insertAttestation commandId attestation => insertAttestationTx commandId attestation
  | .bootstrapGenesis streamId digest => bootstrapGenesisTx streamId digest

/-! ## Calls -/

/-- A transaction answers its result or the error its caller sees. -/
abbrev CutoverAns (o : CutoverOp c) : Type := Except HaError o.Result

/-- A program of the service. -/
abbrev CutoverProg (α : Type) := Prog (CutoverOp c) (CutoverAns c) HaError α

/-- `await db.transaction(…)`. -/
def runTx (o : CutoverOp c) : CutoverProg c o.Result := do
  let r ← Prog.perform o
  Prog.lift r

/-- `markActive` from the head receipt it read. -/
def BpcCutoverController.markActiveFrom (resolver : PublicKeyResolver c)
    (ctl : BpcCutoverController c) (commandId : JsString)
    (attestation : PromotionReadinessAttestation) (sourceResolver : PublicKeyResolver c)
    (head : CutoverReceipt) : CutoverProg c CutoverReceipt := do
  Prog.lift (verifyCutoverReceipt c resolver head)
  Prog.lift (checkIndependent c resolver sourceResolver attestation head)
  if head.phase = .active then do
    let existing : Option AttestationRow ← runTx c (.readAttestation commandId)
    Prog.lift (ensure ((existing.map (·.attestationDigest)) = some attestation.attestationDigest)
      "ACTIVE retry has conflicting readiness evidence")
    pure head
  else do
    Prog.lift (ensure (AttestationBinds commandId attestation head)
      "promotion readiness attestation does not bind the FENCED cutover")
    runTx c (.insertAttestation commandId attestation)
    runTx c (.transition ctl commandId .active)

/-- `markActive(commandId, attestation, sourceResolver)`. -/
def BpcCutoverController.markActive (resolver : PublicKeyResolver c) (ctl : BpcCutoverController c)
    (commandId : JsString) (attestation : PromotionReadinessAttestation)
    (sourceResolver : PublicKeyResolver c) : CutoverProg c CutoverReceipt := do
  Prog.lift (verifyPromotionReadinessAttestation c sourceResolver attestation)
  let head ← runTx c (.readHead commandId)
  ctl.markActiveFrom c resolver commandId attestation sourceResolver head

/-- `bootstrapGenesis(record)`. -/
def PgRedisFenceWitness.bootstrapGenesis (resolver : PublicKeyResolver c) (record : RedisFenceRecord) :
    CutoverProg c Unit := do
  Prog.lift (ensure (record.epoch = 1) "Redis genesis must be epoch 1")
  Prog.lift (verify c resolver record.keyId (redisFenceMessage record.toBareRedisFenceRecord)
    record.signature)
  let digest ← Prog.lift (redisFenceRecordDigest c record)
  runTx c (.bootstrapGenesis record.streamId digest)

/-- The requests of the service, each with the controller it is made on. -/
inductive CutoverRequest where
  | begin (ctl : BpcCutoverController c) (input : CutoverIntent)
  | markFenced (ctl : BpcCutoverController c) (commandId : JsString)
  | markActive (ctl : BpcCutoverController c) (commandId : JsString)
      (attestation : PromotionReadinessAttestation) (sourceResolver : PublicKeyResolver c)
  | bootstrapGenesis (record : RedisFenceRecord)

/-- The program of each request. `bootstrapGenesis` answers no receipt. -/
def CutoverRequest.program (resolver : PublicKeyResolver c) :
    CutoverRequest c → CutoverProg c (Option CutoverReceipt)
  | .begin ctl input => some <$> runTx c (.begin ctl input)
  | .markFenced ctl commandId => some <$> runTx c (.transition ctl commandId .fenced)
  | .markActive ctl commandId attestation sourceResolver =>
      some <$> ctl.markActive c resolver commandId attestation sourceResolver
  | .bootstrapGenesis record => (fun _ => none) <$> PgRedisFenceWitness.bootstrapGenesis c resolver record

/-- The service on one control database. Transactions are serializable, so each is one atomic step,
    with any outcome its caller may see; meanwhile lease grants arrive in any order. -/
def cutoverService (resolver : PublicKeyResolver c) (admits : CutoverRequest c → Prop) :
    Service (CutoverRequest c) (CutoverOp c) (CutoverAns c) HaError (Option CutoverReceipt)
      ControlDb where
  body := CutoverRequest.program c resolver
  admits := admits
  init db := db = .empty
  exec db o r db' := ∃ evidence, Outcome (o.body c resolver evidence) db r db'
  env db db' := ∃ grant leases, installSourceLeaseGrant c resolver grant db.leases = .ok leases ∧
    db' = { db with leases }

end Ha
