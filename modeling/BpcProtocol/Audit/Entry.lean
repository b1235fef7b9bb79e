import BpcProtocol.Js.Double
import BpcProtocol.Js.Json
import BpcProtocol.Lib.Chain
import Mathlib.Data.Nat.Digits.Defs

set_option autoImplicit false

/-! # Audit entries and their verification

The entry of `audit.ts`, the text its hash is taken of, and the verifier that both logs share. The
digest function is a parameter. -/

namespace Audit

open Js (lit)

/-! ## Entries -/

inductive AuditAction where
  | verifyPass
  | verifyFail
  | register
  | revoke
  | rotate
  | lockout
  | shadowModeHit
  | shadowModeEnter
  | ghostPairTriggered
  deriving DecidableEq, Repr

def AuditAction.text : AuditAction → JsString
  | .verifyPass => lit "verify_pass"
  | .verifyFail => lit "verify_fail"
  | .register => lit "register"
  | .revoke => lit "revoke"
  | .rotate => lit "rotate"
  | .lockout => lit "lockout"
  | .shadowModeHit => lit "shadow_mode_hit"
  | .shadowModeEnter => lit "shadow_mode_enter"
  | .ghostPairTriggered => lit "ghost_pair_triggered"

inductive AuditSeverity where
  | info
  | warn
  | critical
  | upperHigh
  | upperCritical
  deriving DecidableEq, Repr

def AuditSeverity.text : AuditSeverity → JsString
  | .info => lit "info"
  | .warn => lit "warn"
  | .critical => lit "critical"
  | .upperHigh => lit "HIGH"
  | .upperCritical => lit "CRITICAL"

/-- What a caller supplies to `write`. -/
structure AuditInput where
  action : AuditAction
  severity : Option AuditSeverity := none
  pairId : Option JsString := none
  error : Option JsString := none
  ip : Option JsString := none
  method : Option JsString := none
  path : Option JsString := none
  userAgent : Option JsString := none
  requestId : Option JsString := none
  detail : Option JsString := none
  deriving DecidableEq

/-- `entry.severity ?? (entry.error ? 'warn' : 'info')`. -/
def AuditInput.severityOrDefault (entry : AuditInput) : AuditSeverity :=
  entry.severity.getD (if entry.error.any (· ≠ []) then .warn else .info)

/-- An entry without its `chainHash`. A verifier may be handed any text for the action and the
    severity. -/
structure BareAuditEntry where
  id : JsString
  timestamp : JsDouble
  action : JsString
  severity : Option JsString
  pairId : Option JsString
  error : Option JsString
  ip : Option JsString
  method : Option JsString
  path : Option JsString
  userAgent : Option JsString
  requestId : Option JsString
  detail : Option JsString
  seq : JsDouble
  prevHash : JsString
  deriving DecidableEq

structure AuditEntry extends BareAuditEntry where
  chainHash : JsString
  deriving DecidableEq

structure ChainHead where
  seq : JsDouble
  chainHash : JsString
  count : JsDouble
  deriving DecidableEq

structure VerifyResult where
  valid : Bool
  brokenAtSeq : Option JsDouble := none
  reason : Option JsString := none
  deriving DecidableEq

/-- `GENESIS_HASH`. -/
def genesisHash : JsString :=
  List.replicate 64 48

/-! ## What the clock and the process give a write -/

/-- `n.toString(36)` of a positive integer. -/
def base36 (n : ℕ) : JsString :=
  (Nat.digits 36 n).reverse.map fun d => if d < 10 then (48 + d).toUInt16 else (87 + d).toUInt16

/-- The readings of `Date.now()`, and what the process's entry counter reads after its increment.
    A time is a whole number of milliseconds within the range of dates. -/
structure Stamp where
  idTime : ℤ
  idCount : ℕ
  timestamp : ℤ
  isTime : timestamp.natAbs ≤ 8640000000000000
  deriving DecidableEq

theorem Stamp.timestamp_lt (s : Stamp) : s.timestamp.natAbs < 2 ^ 53 :=
  Nat.lt_of_le_of_lt s.isTime (by decide)

/-- `auditId()`. -/
def Stamp.auditId (s : Stamp) : JsString :=
  lit "audit_" ++ Js.decimal s.idTime ++ lit "_" ++ base36 s.idCount

/-- `{ ...entry, id, timestamp, severity, seq, prevHash }`, as both logs build it. -/
def AuditInput.base (entry : AuditInput) (stamp : Stamp) (seq : JsDouble) (prevHash : JsString) :
    BareAuditEntry where
  id := stamp.auditId
  timestamp := .ofInt stamp.timestamp
  action := entry.action.text
  severity := some entry.severityOrDefault.text
  pairId := entry.pairId
  error := entry.error
  ip := entry.ip
  method := entry.method
  path := entry.path
  userAgent := entry.userAgent
  requestId := entry.requestId
  detail := entry.detail
  seq := seq
  prevHash := prevHash

/-- The two numbers of an entry are finite. -/
def BareAuditEntry.Finite (e : BareAuditEntry) : Prop :=
  e.seq.1.isFinite = true ∧ e.timestamp.1.isFinite = true

/-- What a log writes has finite numbers. -/
theorem AuditInput.base_finite (entry : AuditInput) (stamp : Stamp) {seq : JsDouble}
    (hseq : seq.1.isFinite = true) (prevHash : JsString) :
    (entry.base stamp seq prevHash).Finite := by
  refine ⟨hseq, ?_⟩
  show (JsDouble.ofInt stamp.timestamp).1.isFinite = true
  rw [JsDouble.ofInt_val stamp.timestamp_lt]
  rfl

/-! ## Hashing -/

variable (sha256 : Bytes → JsString)

def sha256hex (input : JsString) : JsString :=
  sha256 (Js.utf8 input)

/-- `text ?? null`. -/
def orNull (text : Option JsString) : JsValue :=
  text.elim .null .string

/-- The array that is written as JSON: free text cannot run over into the next field. -/
def chainFields (e : BareAuditEntry) : List JsValue :=
  [.number e.seq.1, .string e.prevHash, .string e.id, .number e.timestamp.1, .string e.action,
    e.severity.elim .undefined .string,
    orNull e.pairId, orNull e.error, orNull e.ip, orNull e.method,
    orNull e.path, orNull e.userAgent, orNull e.requestId, orNull e.detail]

def chainPreimage (e : BareAuditEntry) : JsString :=
  (Js.stringify (.array (chainFields e))).getD []

/-- `{ ...e, severity: e.severity ?? 'info' }`. -/
def BareAuditEntry.normalized (e : BareAuditEntry) : BareAuditEntry :=
  { e with severity := some (e.severity.getD AuditSeverity.info.text) }

def computeChainHash (e : BareAuditEntry) : JsString :=
  sha256hex sha256 (chainPreimage e.normalized)

/-- `{ ...base, chainHash: computeChainHash(base) }`. -/
def BareAuditEntry.sealed (base : BareAuditEntry) : AuditEntry :=
  { base with chainHash := computeChainHash sha256 base }

/-! ## Verification -/

def VerifyResult.invalid (brokenAtSeq : JsDouble) (reason : String) : VerifyResult :=
  { valid := false, brokenAtSeq := some brokenAtSeq, reason := some (lit reason) }

/-- The comparator `(a, b) => a.seq - b.seq`: whether it lets `a` stand before `b`. A difference
    that is no number counts as zero; where that makes the comparator inconsistent the language
    leaves the order open, and this is one of the orders. -/
def seqLe (a b : AuditEntry) : Bool :=
  !(JsNumber.fin 0).lt (a.seq.1.sub b.seq.1)

/-- `[...entries].sort((a, b) => a.seq - b.seq)`. -/
def sortBySeq (entries : List AuditEntry) : List AuditEntry :=
  entries.mergeSort seqLe

/-- The loop over the sorted entries, `prev` being the entry before. -/
def verifyLinks (prev : Option AuditEntry) : List AuditEntry → Option VerifyResult
  | [] => none
  | e :: rest =>
      if computeChainHash sha256 e.toBareAuditEntry ≠ e.chainHash then
        some (.invalid e.seq "entry_hash_mismatch")
      else if prev.any fun p => !e.seq.eq p.seq.incr then
        some (.invalid e.seq "non_contiguous_seq")
      else if prev.any fun p => e.prevHash != p.chainHash then
        some (.invalid e.seq "broken_link")
      else
        verifyLinks (some e) rest

def verifyAnchor (sorted : List AuditEntry) (anchor : ChainHead) : Option VerifyResult :=
  if !sorted.getLast?.any fun last => !last.seq.lt anchor.seq then
    some (.invalid anchor.seq "truncated_below_anchor")
  else if !(sorted.find? fun e => e.seq.eq anchor.seq).any fun e =>
      e.chainHash == anchor.chainHash then
    some (.invalid anchor.seq "anchor_mismatch")
  else
    none

/-- `verifyEntries(entries, { expectedHead })`. -/
def verifyEntries (entries : List AuditEntry) (expectedHead : Option ChainHead) : VerifyResult :=
  let sorted := sortBySeq entries
  ((verifyLinks sha256 none sorted).or (expectedHead.bind (verifyAnchor sorted))).getD
    { valid := true }

/-! ## Two entries and their hashes -/

def firstInput : AuditInput :=
  { action := .register, pairId := some (lit "pair_x") }

def firstStamp : Stamp :=
  { idTime := 1700000000000, idCount := 1, timestamp := 1700000000000, isTime := by decide }

def firstHash : JsString :=
  lit "0e6b1a41711beafdc3bb0d5e1b2800d0" ++ lit "afe36b5c92d46965d300006d5d20cd6f"

def secondInput : AuditInput :=
  { action := .verifyFail, pairId := some (lit "pair_x"), error := some (lit "invalid_signature") }

def secondStamp : Stamp :=
  { idTime := 1700000000005, idCount := 2, timestamp := 1700000000005, isTime := by decide }

def secondHash : JsString :=
  lit "7c1c9ab07615fafd9b77ddf9fc92a38b" ++ lit "0838efc04fab52e36a8c2c7e6ff48917"

/-- The text that the hash of the first entry of a log is taken of. -/
def firstPreimage : JsString :=
  chainPreimage (firstInput.base firstStamp (.counted 1) genesisHash).normalized

/-- The text that the hash of the entry behind it is taken of. -/
def secondPreimage : JsString :=
  chainPreimage (secondInput.base secondStamp (.counted 2) firstHash).normalized

/-- SHA-256 on the two texts. -/
def recordedSha (bytes : Bytes) : JsString :=
  if bytes = Js.utf8 firstPreimage then firstHash
  else if bytes = Js.utf8 secondPreimage then secondHash
  else []

def firstEntry : AuditEntry :=
  ⟨firstInput.base firstStamp (.counted 1) genesisHash, firstHash⟩

def secondEntry : AuditEntry :=
  ⟨secondInput.base secondStamp (.counted 2) firstHash, secondHash⟩

theorem preimages_differ : Js.utf8 secondPreimage ≠ Js.utf8 firstPreimage := by
  decide +kernel

theorem computeChainHash_firstEntry :
    computeChainHash recordedSha firstEntry.toBareAuditEntry = firstHash := by
  show recordedSha (Js.utf8 firstPreimage) = firstHash
  rw [recordedSha, if_pos rfl]

theorem computeChainHash_secondEntry :
    computeChainHash recordedSha secondEntry.toBareAuditEntry = secondHash := by
  show recordedSha (Js.utf8 secondPreimage) = secondHash
  rw [recordedSha, if_neg preimages_differ, if_pos rfl]

example : firstPreimage =
    lit "[1,\"" ++ genesisHash ++ lit "\",\"audit_1700000000000_1\"," ++
      lit "1700000000000,\"register\",\"info\"," ++
      lit "\"pair_x\",null,null,null,null,null,null,null]" := by
  decide +kernel

end Audit
