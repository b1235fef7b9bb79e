import BpcProtocol.Principal.Ledger

set_option autoImplicit false

/-! # The ledger's methods

The methods of the ledger as programs, and the system of any number of calls of them. The resolver
of authorization contexts answers anything, or throws. -/

namespace Principal

open Fallible Pair Async

/-! ## Operations -/

/-- What a method does between two of its awaits. -/
inductive LedgerOp where
  /-- An await in which the ledger is not touched. -/
  | yield
  /-- `Date.now()`. -/
  | clock
  | consumeNonce (challengeNonce : JsString)
  | resolve (query : AuthorizationResolutionInput)
  | upsertPrincipal (publicKeyJwk : JsonWebKey) (keyFingerprint : JsString)
      (authorizationContext : Fields)
  | finishBind (input : BindSessionInput) (principalId : JsString) (authorizationContext : Fields)
  | append (principalId streamId : JsString) (eventType : PrincipalEventType) (payload : Fields)
  | close (principalId streamId providerSessionId : JsString)
  | startRotation (principalId : JsString) (publicKeyJwk : JsonWebKey)
  | finishRotation (principalId keyFingerprint : JsString) (keyVersion : Option JsNumber)

abbrev LedgerAns : LedgerOp → Type
  | .yield | .upsertPrincipal _ _ _ => Unit
  | .clock => JsNumber
  | .consumeNonce _ | .close _ _ _ | .startRotation _ _ => Except ServerError Unit
  | .resolve _ => Except ServerError Fields
  | .finishBind _ _ _ => Except ServerError SessionBinding
  | .append _ _ _ _ => Except ServerError PrincipalStreamEvent
  | .finishRotation _ _ _ => Except ServerError PrincipalRecord

abbrev LedgerProg (α : Type) := Prog LedgerOp LedgerAns ServerError α

/-- A call of a method. -/
inductive LedgerCall where
  | bindSession (input : BindSessionInput)
  | appendStreamEvent (principalId streamId : JsString) (eventType : PrincipalEventType)
      (payload : Fields)
  | closeSession (principalId streamId providerSessionId : JsString)
  | rotatePrincipalKey (principalId : JsString) (publicKeyJwk : JsonWebKey)
      (keyVersion : Option JsNumber)

/-- What it returns. -/
inductive LedgerResult where
  | binding (b : SessionBinding)
  | event (e : PrincipalStreamEvent)
  | closed
  | rotated (r : PrincipalRecord)

section Methods

variable {PrivateKey PublicKey : Type} (c : Wire.WebCrypto PrivateKey PublicKey)

/-! ## Methods -/

/-- `bindSession(input)`. -/
def bindSession (input : BindSessionInput) : LedgerProg SessionBinding := do
  Prog.lift (assertBindingInput input)
  Prog.perform LedgerOp.yield
  let keyFingerprint ← Prog.lift (computeFingerprint c input.publicKeyJwk)
  let now ← Prog.perform LedgerOp.clock
  Prog.perform LedgerOp.yield
  Prog.lift (verifyPrincipalSessionProof c now input keyFingerprint)
  .await (.consumeNonce input.proof.challengeNonce) Prog.lift
  let principalId := principalIdFromFingerprint c keyFingerprint
  let authorizationContext ← .await (.resolve
    { principalId, keyFingerprint, policyDigest := input.policyDigest
      requested := input.authorizationContext.getD (.object []) }) Prog.lift
  Prog.perform (LedgerOp.upsertPrincipal input.publicKeyJwk keyFingerprint authorizationContext)
  .await (.finishBind input principalId authorizationContext) Prog.lift

/-- `rotatePrincipalKey(principalId, publicKeyJwk, keyVersion)`. -/
def rotatePrincipalKey (principalId : JsString) (publicKeyJwk : JsonWebKey)
    (keyVersion : Option JsNumber) : LedgerProg PrincipalRecord := do
  .await (.startRotation principalId publicKeyJwk) Prog.lift
  let keyFingerprint ← Prog.lift (computeFingerprint c publicKeyJwk)
  .await (.finishRotation principalId keyFingerprint keyVersion) Prog.lift

def LedgerCall.body : LedgerCall → LedgerProg LedgerResult
  | bindSession input => LedgerResult.binding <$> Principal.bindSession c input
  | appendStreamEvent principalId streamId eventType payload =>
      .await (.append principalId streamId eventType payload) fun x =>
        LedgerResult.event <$> Prog.lift x
  | closeSession principalId streamId providerSessionId =>
      .await (.close principalId streamId providerSessionId) fun x =>
        (fun _ => LedgerResult.closed) <$> Prog.lift x
  | rotatePrincipalKey principalId publicKeyJwk keyVersion =>
      LedgerResult.rotated <$> Principal.rotatePrincipalKey c principalId publicKeyJwk keyVersion

/-- What each operation does, at some times. -/
inductive Exec : Ledger → (o : LedgerOp) → LedgerAns o → Ledger → Prop
  | yield {l : Ledger} : Exec l .yield () l
  | clock {l : Ledger} (now : JsNumber) : Exec l .clock now l
  | consumeNonce {l : Ledger} (challengeNonce : JsString) :
      Exec l (.consumeNonce challengeNonce) (consumeNonce c challengeNonce l).1
        (consumeNonce c challengeNonce l).2
  | resolve {l : Ledger} (query : AuthorizationResolutionInput) (x : Except ServerError Fields) :
      Exec l (.resolve query) x l
  | upsertPrincipal {l : Ledger} (now : JsNumber) (publicKeyJwk : JsonWebKey)
      (keyFingerprint : JsString) (authorizationContext : Fields) :
      Exec l (.upsertPrincipal publicKeyJwk keyFingerprint authorizationContext) ()
        (upsertPrincipal c now publicKeyJwk keyFingerprint authorizationContext l)
  | finishBind {l : Ledger} (times : Times) (input : BindSessionInput) (principalId : JsString)
      (authorizationContext : Fields) :
      Exec l (.finishBind input principalId authorizationContext)
        (finishBind c times input principalId authorizationContext l).1
        (finishBind c times input principalId authorizationContext l).2
  | append {l : Ledger} (times : Times) (principalId streamId : JsString)
      (eventType : PrincipalEventType) (payload : Fields) :
      Exec l (.append principalId streamId eventType payload)
        (appendStreamEvent c times principalId streamId eventType payload l).1
        (appendStreamEvent c times principalId streamId eventType payload l).2
  | close {l : Ledger} (times : Times) (principalId streamId providerSessionId : JsString) :
      Exec l (.close principalId streamId providerSessionId)
        (closeSession c times principalId streamId providerSessionId l).1
        (closeSession c times principalId streamId providerSessionId l).2
  | startRotation {l : Ledger} (principalId : JsString) (publicKeyJwk : JsonWebKey) :
      Exec l (.startRotation principalId publicKeyJwk) (startRotation principalId publicKeyJwk l).1
        (startRotation principalId publicKeyJwk l).2
  | finishRotation {l : Ledger} (times : Times) (principalId keyFingerprint : JsString)
      (keyVersion : Option JsNumber) :
      Exec l (.finishRotation principalId keyFingerprint keyVersion)
        (finishRotation c times principalId keyFingerprint keyVersion l).1
        (finishRotation c times principalId keyFingerprint keyVersion l).2

/-- The ledger, and the calls that may be made of it. -/
def ledgerService (calls : LedgerCall → Prop) :
    Service LedgerCall LedgerOp LedgerAns ServerError LedgerResult Ledger where
  body := LedgerCall.body c
  admits := calls
  init l := l = Ledger.empty
  exec := Exec c
  env _ _ := False

abbrev LedgerConfig (ι : Type) :=
  Config ι LedgerCall LedgerOp LedgerAns ServerError LedgerResult Ledger

abbrev ledgerSystem (calls : LedgerCall → Prop) (ι : Type) [DecidableEq ι] :
    Transition.System (LedgerConfig ι) :=
  (ledgerService c calls).system ι

end Methods

end Principal
