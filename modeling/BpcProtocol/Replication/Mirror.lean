import BpcProtocol.Lib.Transition
import BpcProtocol.Replication.Records

set_option autoImplicit false

/-! # A replicating store and its replica

`ReplicatingPairStore` writes to its primary, gives the write a number when the primary has settled
it, queues it, and pushes the head of the queue until a push is acknowledged. The network may lose,
delay, duplicate and replay what was sent. The replica hands every request that it accepts to its
guard, which takes one call after the other. -/

namespace Replication

open Pair (MemoryPairStore)
open Transition (System Run)

/-- What the two sides are configured with. -/
structure MirrorConfig where
  crypto : ReplicaCrypto
  sourceId : JsString
  token : JsString
  maxQueue : ℕ
  replica : ReplicaConfig

/-- A request on the network: the `x-replica-signature` header and the body. -/
structure ReplicaRequest where
  signature : JsString
  body : JsString

/-- A call of `applyIfNext` that applies: whether the store has written. -/
structure Application where
  call : ApplyCall
  written : Bool

/-- The state of both sides and of the network. `applied` and `numbered` are the writes in the order
    of the primary and of their numbers, `answered` the numbers that the replica has answered with
    success, and `ahead` is set while the store has written an operation that the guard has not
    committed. -/
structure Mirror where
  primary : MemoryPairStore
  applied : List ReplicaOp
  unallocated : List ReplicaOp
  numbered : List ReplicaOp
  allocated : List Queued
  sender : ReplicationQueue
  requests : List ReplicaRequest
  answered : List ℕ
  guard : MemoryReplicaApplyGuard
  waiting : List ApplyCall
  current : Option Application
  store : ReplicaStore
  ahead : Bool

/-- The envelope of a queued operation. -/
def Queued.envelope (q : Queued) (sourceId : JsString) (sentAt : JsNumber) : ReplicaEnvelope where
  sourceId
  sequence := q.sequence
  sentAt
  op := q.op.toJs

namespace Mirror

def empty : Mirror where
  primary := .empty
  applied := []
  unallocated := []
  numbered := []
  allocated := []
  sender := .empty
  requests := []
  answered := []
  guard := .empty
  waiting := []
  current := none
  store := .empty
  ahead := false

variable (s : Mirror)

/-- The primary applies a write. -/
def write (op : ReplicaOp) : Mirror :=
  { s with
    primary := applyPrimary s.primary op
    applied := s.applied ++ [op]
    unallocated := s.unallocated ++ [op] }

/-- `sequenceSource.next()` for a write that the primary has settled: the next number. -/
def allocate (op : ReplicaOp) (unallocated : List ReplicaOp) : Mirror :=
  { s with
    unallocated
    numbered := s.numbered ++ [op]
    allocated := s.allocated ++ [⟨s.numbered.length, s.numbered.length + 1, op⟩] }

/-- `enqueue` behind its number. -/
def enqueue (maxQueue : ℕ) (q : Queued) (allocated : List Queued) : Mirror :=
  { s with
    allocated
    sender := s.sender.enqueue maxQueue q }

/-- A request is delivered: the call that it leads to waits for its turn. -/
def deliver (cfg : MirrorConfig) (r : ReplicaRequest) (now : JsNumber) : Mirror :=
  { s with
    waiting := s.waiting ++
      (((Js.parseJson r.body).bind fun body =>
        (handleReplicaIngest cfg.crypto cfg.replica (some r.signature) body now).toOption).toList) }

/-- `applyIfNext` up to its call of `apply`. -/
def check (call : ApplyCall) (waiting : List ApplyCall) : Mirror :=
  match s.guard.disposition call with
  | .next => { s with waiting, current := some ⟨call, false⟩ }
  | .duplicate => { s with waiting, answered := s.answered ++ [call.sequence] }
  | _ => { s with waiting }

/-- The store writes. -/
def apply (call : ApplyCall) : Mirror :=
  { s with
    store := s.store.apply call.op
    current := some ⟨call, true⟩
    ahead := true }

/-- `apply()` has resolved to `true`. -/
def commit (call : ApplyCall) : Mirror :=
  { s with
    guard := s.guard.commit call.sourceId ⟨call.sequence, call.operationDigest⟩
    answered := s.answered ++ [call.sequence]
    current := none
    ahead := false }

/-- `apply()` has resolved to `false`: the store threw, before or after it wrote. -/
def fail : Mirror :=
  { s with current := none }

end Mirror

/-- The steps of both sides and of the network. -/
inductive MirrorStep (cfg : MirrorConfig) (s : Mirror) : Mirror → Prop
  | write (op : ReplicaOp) : Js.Genuine op.toJs → MirrorStep cfg s (s.write op)
  | allocate {pre post : List ReplicaOp} {op : ReplicaOp} : s.unallocated = pre ++ op :: post →
      Js.IsDouble ((s.numbered.length + 1 : ℕ) : ℤ) → MirrorStep cfg s (s.allocate op (pre ++ post))
  | enqueue {pre post : List Queued} {q : Queued} : s.allocated = pre ++ q :: post →
      s.sender.queue.length < cfg.maxQueue →
      MirrorStep cfg s (s.enqueue cfg.maxQueue q (pre ++ post))
  | send {q : Queued} {sentAt : JsNumber} {signature body : JsString} :
      s.sender.drainer = .pushing q → Js.Genuine (.number sentAt) →
      signReplicaEnvelope cfg.crypto (q.envelope cfg.sourceId sentAt) cfg.token = some signature →
      Js.stringify (q.envelope cfg.sourceId sentAt).toJs = some body →
      MirrorStep cfg s { s with requests := s.requests ++ [⟨signature, body⟩] }
  | settle {q : Queued} (ok : Bool) : s.sender.drainer = .pushing q →
      (ok = true → q.sequence ∈ s.answered) →
      MirrorStep cfg s { s with sender := s.sender.settle ok }
  | reject {q : Queued} : s.sender.drainer = .pushing q →
      MirrorStep cfg s { s with sender := s.sender.reject }
  | wake : s.sender.drainer = .sleeping → MirrorStep cfg s { s with sender := s.sender.loop }
  | deliver {r : ReplicaRequest} (now : JsNumber) : r ∈ s.requests →
      MirrorStep cfg s (s.deliver cfg r now)
  | check {call : ApplyCall} {waiting : List ApplyCall} : s.current = none →
      s.waiting = call :: waiting → MirrorStep cfg s (s.check call waiting)
  | apply {call : ApplyCall} : s.current = some ⟨call, false⟩ → MirrorStep cfg s (s.apply call)
  | commit {call : ApplyCall} : s.current = some ⟨call, true⟩ → MirrorStep cfg s (s.commit call)
  | fail {application : Application} : s.current = some application → MirrorStep cfg s s.fail

/-- A replicating store with a replica, from the start. -/
def mirrorSystem (cfg : MirrorConfig) : System Mirror where
  init s := s = .empty
  next := MirrorStep cfg

namespace Mirror

/-- The number of the operation that the guard has applied last. -/
def lastSequence (cfg : MirrorConfig) (s : Mirror) : ℕ :=
  s.guard.lastSequence cfg.replica.expectedSourceId

/-- The replica's store behind the operations numbered `1` to `k`. -/
def replica (s : Mirror) (k : ℕ) : ReplicaStore :=
  Replay.upTo ReplicaStore.receive .empty s.numbered k

end Mirror

/-! ## Requests -/

theorem image_op (op : ReplicaOp) : ∃ v, Js.image op.toJs = some v := by
  cases op <;> exact ⟨_, Js.image_object _⟩

/-- The fields of an envelope as they are written. -/
def ReplicaEnvelope.members (e : ReplicaEnvelope) : List (String × Option JsValue) :=
  [("version", some (.string replicaEnvelopeVersion)), ("sourceId", some (.string e.sourceId)),
    ("sequence", some (.number (.fin (e.sequence : ℤ)))), ("sentAt", some (.number e.sentAt)),
    ("op", some e.op)]

theorem ReplicaEnvelope.toJs_eq (e : ReplicaEnvelope) : e.toJs = Pair.present e.members :=
  rfl

theorem nodup_envelopeNames :
    ((["version", "sourceId", "sequence", "sentAt", "op"] : List String).map Js.lit).Nodup := by
  decide

/-- What the replica finds in an envelope that a primary has sent. -/
theorem fields_of_envelope {e : ReplicaEnvelope} {body v : JsValue}
    (hbody : Js.image e.toJs = some body) (hv : Js.image e.op = some v) :
    field body "sequence" = .number (.fin (e.sequence : ℤ)) ∧ field body "op" = v := by
  rw [e.toJs_eq] at hbody
  constructor
  · rw [field, Pair.get_image_present hbody nodup_envelopeNames
      (List.mem_cons_of_mem _ (List.mem_cons_of_mem _ List.mem_cons_self))]
    rfl
  · have hmem : ("op", some e.op) ∈ e.members := by simp [ReplicaEnvelope.members]
    rw [field, Pair.get_image_present hbody nodup_envelopeNames hmem, Option.bind_some, hv]
    rfl

/-- What an accepted envelope says. -/
theorem validateReplicaEnvelope_spec {body : JsValue} {expectedSourceId : JsString} {now : JsNumber}
    {e : ReplicaEnvelope} (h : validateReplicaEnvelope body expectedSourceId now = .ok e) :
    e.sourceId = expectedSourceId ∧
      e.sequence = ((numberOf (field body "sequence")).toInt?.getD 0).toNat ∧
      e.op = field body "op" := by
  unfold validateReplicaEnvelope at h
  split_ifs at h with h1 h2 h3 h4 h5 h6 h7 h8
  cases h
  refine ⟨?_, rfl, rfl⟩
  rw [Bool.not_eq_false] at h3
  generalize field body "sourceId" = v at h3
  cases v with
  | string s =>
      rw [isText, Bool.and_eq_true] at h3
      exact eq_of_beq h3.1
  | _ => cases h3

/-- What the replica hands to its guard of a request that it accepts. -/
theorem handleReplicaIngest_spec {c : ReplicaCrypto} {cfg : ReplicaConfig}
    {signature : Option JsString} {body : JsValue} {now : JsNumber} {call : ApplyCall}
    (h : handleReplicaIngest c cfg signature body now = .ok call) :
    call.sourceId = cfg.expectedSourceId ∧
      call.sequence = ((numberOf (field body "sequence")).toInt?.getD 0).toNat ∧
      validateReplicaOp (field body "op") = .ok call.op := by
  unfold handleReplicaIngest at h
  cases he : validateReplicaEnvelope body cfg.expectedSourceId now with
  | error message => rw [he] at h; cases h
  | ok e =>
      obtain ⟨hsource, hsequence, hop⟩ := validateReplicaEnvelope_spec he
      rw [he] at h
      simp only [Except.mapError, Except.bind, bind] at h
      split at h
      · cases h
      · cases hv : validateReplicaOp e.op with
        | error message => rw [hv] at h; cases h
        | ok op =>
            rw [hv] at h
            cases h
            rw [← hop]
            exact ⟨hsource, hsequence, hv⟩

theorem genuine_envelope {e : ReplicaEnvelope} (hsequence : Js.IsDouble (e.sequence : ℤ))
    (hsentAt : Js.Genuine (.number e.sentAt)) (hop : Js.Genuine e.op) : Js.Genuine e.toJs := by
  refine .object (nodup_envelopeNames : _) fun f hf => ?_
  simp only [List.mem_cons, List.not_mem_nil, or_false] at hf
  rcases hf with rfl | rfl | rfl | rfl | rfl
  · exact .string _
  · exact .string _
  · refine .number fun q hq => ?_
    cases hq
    exact hsequence
  · exact hsentAt
  · exact hop

/-- A call that a request of a primary leads to: its number and its operation are those that were
    sent. -/
theorem call_of_request {cfg : MirrorConfig} {q : Queued} {sentAt now : JsNumber}
    {signature body : JsString} {call : ApplyCall} (hsequence : Js.IsDouble (q.sequence : ℤ))
    (hsentAt : Js.Genuine (.number sentAt)) (hop : Js.Genuine q.op.toJs)
    (hbody : Js.stringify (q.envelope cfg.sourceId sentAt).toJs = some body)
    (hcall : call ∈ ((Js.parseJson body).bind fun body =>
      (handleReplicaIngest cfg.crypto cfg.replica (some signature) body now).toOption).toList) :
    call.sourceId = cfg.replica.expectedSourceId ∧ call.sequence = q.sequence ∧
      q.op.received = some call.op := by
  have hgenuine := (genuine_envelope hsequence hsentAt hop :
    Js.Genuine (q.envelope cfg.sourceId sentAt).toJs)
  have himage := hgenuine.parse_stringify
  rw [hbody, Option.bind_some] at himage
  obtain ⟨v, hv⟩ := image_op q.op
  obtain ⟨w, hw⟩ : ∃ w, Js.image (q.envelope cfg.sourceId sentAt).toJs = some w :=
    ⟨_, Js.image_object _⟩
  obtain ⟨hnum, hfield⟩ := fields_of_envelope hw hv
  rw [himage, hw, Option.bind_some, Option.mem_toList] at hcall
  cases hr : handleReplicaIngest cfg.crypto cfg.replica (some signature) w now with
  | error e => rw [hr] at hcall; cases hcall
  | ok c =>
      rw [hr] at hcall
      cases hcall
      obtain ⟨hsource, hseq, hvalid⟩ := handleReplicaIngest_spec hr
      refine ⟨hsource, ?_, ?_⟩
      · rw [hseq, hnum, numberOf, JsNumber.toInt?_int]
        rfl
      · rw [hfield] at hvalid
        rw [ReplicaOp.received, hv, Option.bind_some, hvalid]
        rfl

/-! ## A sample -/

/-- The registration of a key of the curve. -/
def sampleRegistration : Pair.PairRegistration where
  name := Js.lit "name"
  scope := Js.lit "read"
  mode := Js.lit "production"
  secretHash := List.replicate 43 65
  pubJwk := (Pair.CanonicalAuthorizationJwk.mk (List.replicate 43 65) (List.replicate 43 65)).toJwk
  expiresAt := none
  maxRequests := none
  kind := none
  canaryClass := none

/-- The operation that stores it until its approval. -/
def sampleOp : ReplicaOp :=
  .setPending (Js.lit "token") sampleRegistration (.fin 0)

/-- Two sides that share a key. -/
def sampleConfig : MirrorConfig where
  crypto := ⟨fun _ => [], fun _ _ => List.replicate 64 48⟩
  sourceId := Js.lit "primary"
  token := List.replicate 32 65
  maxQueue := 2
  replica := ⟨List.replicate 32 65, Js.lit "primary"⟩

theorem sampleOp_genuine : Js.Genuine sampleOp.toJs :=
  .of_check (by decide +kernel)

/-- The body of the request that sends an operation at time zero. -/
def sampleBody (q : Queued) : JsString :=
  (Js.stringify (q.envelope sampleConfig.sourceId (.fin 0)).toJs).getD []

/-- The call that it leads to at the replica. -/
def sampleCall (q : Queued) : Option ApplyCall :=
  (Js.parseJson (sampleBody q)).bind fun body =>
    (handleReplicaIngest sampleConfig.crypto sampleConfig.replica (some (List.replicate 64 48)) body
      (.fin 0)).toOption

theorem sampleCall_spec {q : Queued} {call : ApplyCall} (hsequence : Js.IsDouble (q.sequence : ℤ))
    (hop : Js.Genuine q.op.toJs) (hcall : sampleCall q = some call) :
    call.sourceId = Js.lit "primary" ∧ call.sequence = q.sequence ∧ q.op.received = some call.op := by
  have hsent : Js.Genuine (.number (.fin 0)) := .of_check (by decide +kernel)
  have hbody : Js.stringify (q.envelope sampleConfig.sourceId (.fin 0)).toJs =
      some (sampleBody q) := rfl
  exact call_of_request hsequence hsent hop hbody (Option.mem_toList.mpr hcall)

/-- A request that is sent, delivered and let through by the guard. -/
theorem run_received {s : Mirror} {q : Queued} {call : ApplyCall}
    (hpush : s.sender.drainer = .pushing q) (hwaiting : s.waiting = []) (hcurrent : s.current = none)
    (hcall : sampleCall q = some call) (hnext : s.guard.disposition call = .next) :
    Run (mirrorSystem sampleConfig) s
      { s with
        requests := s.requests ++ [⟨List.replicate 64 48, sampleBody q⟩]
        waiting := []
        current := some ⟨call, false⟩ } := by
  have hsent : Js.Genuine (.number (.fin 0)) := .of_check (by decide +kernel)
  have hsign : signReplicaEnvelope sampleConfig.crypto (q.envelope sampleConfig.sourceId (.fin 0))
      sampleConfig.token = some (List.replicate 64 48) := rfl
  have h1 : Run (mirrorSystem sampleConfig) s _ :=
    .single (.send hpush hsent hsign (rfl : _ = some (sampleBody q)))
  have h2 := h1.tail (.deliver (.fin 0) (List.mem_append_right _ List.mem_cons_self))
  have hdelivered : (Mirror.deliver
      { s with requests := s.requests ++ [⟨List.replicate 64 48, sampleBody q⟩] } sampleConfig
      ⟨List.replicate 64 48, sampleBody q⟩ (.fin 0)).waiting = [call] := by
    show s.waiting ++ (sampleCall q).toList = [call]
    rw [hwaiting, hcall]
    rfl
  have h3 := h2.tail (.check hcurrent hdelivered)
  unfold Mirror.check at h3
  have hguard : (Mirror.deliver
      { s with requests := s.requests ++ [⟨List.replicate 64 48, sampleBody q⟩] } sampleConfig
      ⟨List.replicate 64 48, sampleBody q⟩ (.fin 0)).guard.disposition call = .next := hnext
  rw [hguard] at h3
  exact h3

end Replication
