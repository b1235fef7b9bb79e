import BpcProtocol.Principal.Service

set_option autoImplicit false

/-! # A completed binding

What a call of `bindSession` that has returned did, operation by operation, and what its last stretch
gave it. -/

namespace Principal

open Fallible Pair Async Transition
open Js (lit)

variable {PrivateKey PublicKey : Type} {c : Wire.WebCrypto PrivateKey PublicKey}

/-! ## Its operations -/

/-- What the resolver is asked. -/
def resolution (input : BindSessionInput) (principalId keyFingerprint : JsString) :
    AuthorizationResolutionInput :=
  { principalId, keyFingerprint, policyDigest := input.policyDigest
    requested := input.authorizationContext.getD (.object []) }

/-- The operations of a binding, with their answers. -/
def bindingTrace (c : Wire.WebCrypto PrivateKey PublicKey) (input : BindSessionInput)
    (keyFingerprint : JsString) (now : JsNumber) (authorizationContext : Fields)
    (b : SessionBinding) : List (Made LedgerOp LedgerAns) :=
  let principalId := principalIdFromFingerprint c keyFingerprint
  [⟨.yield, ()⟩, ⟨.clock, now⟩, ⟨.yield, ()⟩, ⟨.consumeNonce input.proof.challengeNonce, .ok ()⟩,
    ⟨.resolve (resolution input principalId keyFingerprint), .ok authorizationContext⟩,
    ⟨.upsertPrincipal input.publicKeyJwk keyFingerprint authorizationContext, ()⟩,
    ⟨.finishBind input principalId authorizationContext, .ok b⟩]

/-- A binding that has returned: its key proved its session, and it went through every stretch. -/
theorem bindSession_trace {input : BindSessionInput} {es : List (Made LedgerOp LedgerAns)}
    {b : SessionBinding} (h : Trace (bindSession c input) es (.ret b)) :
    ∃ keyFingerprint now authorizationContext,
      computeFingerprint c input.publicKeyJwk = .ok keyFingerprint ∧
        verifyPrincipalSessionProof c now input keyFingerprint = .ok () ∧
          es = bindingTrace c input keyFingerprint now authorizationContext b := by
  simp only [bindSession, Prog.perform_bind, Prog.await_bind] at h
  obtain ⟨-, -, h₁⟩ := trace_lift_bind.mp h
  obtain ⟨-, es₁, rfl, h₂⟩ := trace_await_ret.mp h₁
  obtain ⟨keyFingerprint, hfingerprint, h₃⟩ := trace_lift_bind.mp h₂
  obtain ⟨now, es₂, rfl, h₄⟩ := trace_await_ret.mp h₃
  obtain ⟨-, es₃, rfl, h₅⟩ := trace_await_ret.mp h₄
  obtain ⟨⟨⟩, hproof, h₆⟩ := trace_lift_bind.mp h₅
  obtain ⟨consumed, es₄, rfl, h₇⟩ := trace_await_ret.mp h₆
  obtain ⟨-, rfl, h₈⟩ := trace_lift_bind.mp h₇
  obtain ⟨resolved, es₅, rfl, h₉⟩ := trace_await_ret.mp h₈
  obtain ⟨authorizationContext, rfl, h₁₀⟩ := trace_lift_bind.mp h₉
  obtain ⟨-, es₆, rfl, h₁₁⟩ := trace_await_ret.mp h₁₀
  obtain ⟨finished, es₇, rfl, h₁₂⟩ := trace_await_ret.mp h₁₁
  obtain ⟨rfl, rfl⟩ := trace_lift_ret.mp h₁₂
  exact ⟨keyFingerprint, now, authorizationContext, hfingerprint, hproof, rfl⟩

/-! ## Its last stretch -/

section Last

variable {l l' : Ledger} {times : Times} {input : BindSessionInput} {p : JsString}
  {authorizationContext : Fields} {b : SessionBinding}

/-- What a principal's context becomes with the resolver's answer. -/
def withAnswer (stored answer : Fields) : Fields :=
  if answer.isEmpty then stored else overlay stored answer

theorem mustPrincipal_ok {r : PrincipalRecord} :
    mustPrincipal l p = .ok r ↔ l.principals p = some r := by
  rw [mustPrincipal]
  cases l.principals p with
  | none => exact ⟨(fun h => nomatch h), (fun h => nomatch h)⟩
  | some r' => exact ⟨fun h => congrArg some (Except.ok.inj h), fun h => congrArg _ (Option.some.inj h)⟩

theorem updatePrincipal_self {r : PrincipalRecord} (hr : l.principals p = some r)
    (f : PrincipalRecord → PrincipalRecord) : (l.updatePrincipal p f).principals p = some (f r) := by
  rw [Ledger.updatePrincipal, hr]
  exact Ledger.setPrincipal_self _ _ _

/-- `upsertStream` changes of its principal's record at most which streams it lists. -/
theorem upsertStream_record {r : PrincipalRecord} (hr : l.principals p = some r)
    (s provider agent session : JsString) : ∃ streamIds,
      (upsertStream p s provider agent session l).principals p = some { r with streamIds } := by
  rw [upsertStream]
  cases l.streams s with
  | some existing => exact ⟨r.streamIds, hr⟩
  | none =>
      refine ⟨r.streamIds ++ [s], ?_⟩
      rw [Option.elim]
      exact updatePrincipal_self (by exact hr) _

/-- The record of the principal of a binding, after the session has joined. -/
theorem joinStream_record (c : Wire.WebCrypto PrivateKey PublicKey) (input : BindSessionInput)
    (authorizationContext : Fields) {r : PrincipalRecord} (hr : l.principals p = some r) : ∃ streamIds,
    (joinStream c input p authorizationContext l).principals p =
      some (joinSession input.providerSessionId authorizationContext { r with streamIds }) := by
  obtain ⟨streamIds, hjoined⟩ := upsertStream_record hr (makeStreamId c p input.provider input.agent)
    input.provider input.agent input.providerSessionId
  exact ⟨streamIds, updatePrincipal_self hjoined _⟩

/-- The stream of a binding is there when it is held. -/
theorem upsertStream_streams (p s provider agent session : JsString) (l : Ledger) :
    ∃ stream, (upsertStream p s provider agent session l).streams s = some stream := by
  rw [upsertStream]
  cases l.streams s with
  | some existing => exact ⟨_, Ledger.setStream_self _ _ _⟩
  | none =>
      refine ⟨⟨p, s, provider, agent, [session], 0, principalGenesisHash⟩, ?_⟩
      rw [Option.elim, Ledger.updatePrincipal]
      cases l.principals p with
      | none => exact Function.update_self _ _ _
      | some r => exact Function.update_self _ _ _

theorem updatePrincipal_streams (l : Ledger) (p : JsString) (f : PrincipalRecord → PrincipalRecord) :
    (l.updatePrincipal p f).streams = l.streams := by
  rw [Ledger.updatePrincipal]
  cases l.principals p <;> rfl

theorem joinStream_streams (input : BindSessionInput) (p : JsString) (authorizationContext : Fields)
    (l : Ledger) : ∃ stream, (joinStream c input p authorizationContext l).streams
      (makeStreamId c p input.provider input.agent) = some stream := by
  rw [joinStream, updatePrincipal_streams]
  exact upsertStream_streams _ _ _ _ _ l

/-- A binding that is returned: its event and its checkpoint follow on what was there. -/
theorem finishBind_ok (h : finishBind c times input p authorizationContext l = (.ok b, l')) :
    ∃ r stream event, (joinStream c input p authorizationContext l).principals p = some r ∧
      (joinStream c input p authorizationContext l).streams
        (makeStreamId c p input.provider input.agent) = some stream ∧
      nextEvent c times.event stream .sessionBound (bindPayload input r) (bindOptions c input) =
        .ok event ∧
      b = bindingOf c input r event (nextCheckpoint c times.checkpoint r
        (pushEvent stream event (joinStream c input p authorizationContext l))) ∧
      l' = appendCheckpoint c times.checkpoint r
        (pushEvent stream event (joinStream c input p authorizationContext l)) := by
  rw [finishBind] at h
  generalize joinStream c input p authorizationContext l = joined at *
  cases hr : mustPrincipal joined p with
  | error e =>
      rw [hr] at h
      cases h
  | ok r =>
      rw [hr, orThrow_ok] at h
      cases hs : heldStream joined (makeStreamId c p input.provider input.agent) with
      | error e =>
          rw [hs] at h
          cases h
      | ok stream =>
          rw [hs, orThrow_ok] at h
          cases hevent : nextEvent c times.event stream .sessionBound (bindPayload input r)
              (bindOptions c input) with
          | error e =>
              rw [hevent] at h
              cases h
          | ok event =>
              rw [hevent, orThrow_ok, Prod.mk.injEq, Except.ok.injEq] at h
              have hstream : joined.streams (makeStreamId c p input.provider input.agent) =
                  some stream := by
                rw [heldStream] at hs
                cases hst : joined.streams (makeStreamId c p input.provider input.agent) with
                | none =>
                    rw [hst] at hs
                    cases hs
                | some st =>
                    rw [hst] at hs
                    exact congrArg some (Except.ok.inj hs)
              exact ⟨r, stream, event, mustPrincipal_ok.mp hr, hstream, hevent, h.1.symm, h.2.symm⟩

/-- It returns one where the principal is there and the payload can be hashed. -/
theorem exists_finishBind (times : Times) (input : BindSessionInput) (authorizationContext : Fields)
    {r : PrincipalRecord} (hr : l.principals p = some r)
    (hevent : ∀ (r : PrincipalRecord) (stream : PrincipalStreamRecord), ∃ event,
      nextEvent c times.event stream .sessionBound (bindPayload input r) (bindOptions c input) =
        .ok event) :
    ∃ b l', finishBind c times input p authorizationContext l = (.ok b, l') := by
  obtain ⟨streamIds, hrecord⟩ := joinStream_record c input authorizationContext hr
  obtain ⟨stream, hstream⟩ := joinStream_streams (c := c) input p authorizationContext l
  rw [finishBind, mustPrincipal_ok.mpr hrecord, orThrow_ok, heldStream, hstream, Option.elim,
    orThrow_ok]
  obtain ⟨event, hevent⟩ := hevent _ stream
  rw [hevent, orThrow_ok]
  exact ⟨_, _, rfl⟩

end Last

/-! ## Records of principals -/

section Records

variable {l l' l'' : Ledger} {p : JsString}

/-- Every record has its principal's identifier. -/
def Keyed (l : Ledger) : Prop :=
  ∀ p r, l.principals p = some r → r.principalId = p

/-- No record is new, and none has another identifier or another context than before. -/
def RecordsKept (l l' : Ledger) : Prop :=
  ∀ p r', l'.principals p = some r' → ∃ r, l.principals p = some r ∧
    r'.principalId = r.principalId ∧ r'.authorizationContext = r.authorizationContext

theorem RecordsKept.trans (h : RecordsKept l l') (h' : RecordsKept l' l'') : RecordsKept l l'' := by
  intro p r'' hr''
  obtain ⟨r', hr', hid', hcontext'⟩ := h' p r'' hr''
  obtain ⟨r, hr, hid, hcontext⟩ := h p r' hr'
  exact ⟨r, hr, hid'.trans hid, hcontext'.trans hcontext⟩

theorem RecordsKept.keyed (h : RecordsKept l l') (hkeyed : Keyed l) : Keyed l' := by
  intro p r' hr'
  obtain ⟨r, hr, hid, -⟩ := h p r' hr'
  exact hid.trans (hkeyed p r hr)

section Seen

variable {α : Type} {π : PrincipalRecord → α} {q : JsString}

/-- A part of the record of a principal, if there is one. -/
def Ledger.seen (l : Ledger) (π : PrincipalRecord → α) (p : JsString) : Option α :=
  (l.principals p).map π

theorem seen_of_none (h : l.principals p = none) : l.seen π p = none := by
  rw [Ledger.seen, h]
  rfl

theorem seen_of_some {r : PrincipalRecord} (h : l.principals p = some r) :
    l.seen π p = some (π r) := by
  rw [Ledger.seen, h]
  rfl

theorem seen_setPrincipal (l : Ledger) (q : JsString) (r : PrincipalRecord) :
    (l.setPrincipal q r).seen π p = if q = p then some (π r) else l.seen π p := by
  split
  · next h =>
      subst h
      exact seen_of_some (Ledger.setPrincipal_self _ _ _)
  · next h => rw [Ledger.seen, Ledger.setPrincipal_of_ne _ _ (Ne.symm h), Ledger.seen]

/-- A record is replaced by one that does not differ in this part. -/
theorem seen_of_kept {r r' : PrincipalRecord} (hr : l.principals q = some r) (hπ : π r' = π r) :
    (l.setPrincipal q r').seen π p = l.seen π p := by
  rw [seen_setPrincipal]
  split
  · next h => rw [← h, seen_of_some hr, hπ]
  · rfl

theorem seen_updatePrincipal {f : PrincipalRecord → PrincipalRecord} (hf : ∀ r, π (f r) = π r) :
    (l.updatePrincipal q f).seen π p = l.seen π p := by
  rw [Ledger.updatePrincipal]
  cases hr : l.principals q with
  | none => rfl
  | some r => exact seen_of_kept hr (hf r)

theorem seen_upsertStream (hπ : ∀ (r : PrincipalRecord) streamIds, π { r with streamIds } = π r)
    (s provider agent session : JsString) :
    (upsertStream q s provider agent session l).seen π p = l.seen π p := by
  rw [upsertStream]
  cases l.streams s with
  | none => exact seen_updatePrincipal fun r => hπ r _
  | some existing => rfl

/-- The part does not tell of the checkpoints. -/
def OffCheckpoints (π : PrincipalRecord → α) : Prop :=
  ∀ (r : PrincipalRecord) checkpointSeq checkpointHead updatedAt,
    π { r with checkpointSeq, checkpointHead, updatedAt } = π r

theorem seen_appendCheckpoint (hπ : OffCheckpoints π) (hkeyed : Keyed l) {r r' : PrincipalRecord}
    (hr : l.principals q = some r) (hid : r'.principalId = r.principalId) (timestamp : JsNumber) :
    (appendCheckpoint c timestamp r' l).seen π p = if q = p then some (π r') else l.seen π p := by
  obtain rfl : r'.principalId = q := hid.trans (hkeyed q r hr)
  rw [appendCheckpoint, seen_setPrincipal, hπ]
  rfl

theorem seen_appendCheckpoint_of_kept (hπ : OffCheckpoints π) (hkeyed : Keyed l)
    {r r' : PrincipalRecord} (hr : l.principals q = some r) (hid : r'.principalId = r.principalId)
    (hkept : π r' = π r) (timestamp : JsNumber) :
    (appendCheckpoint c timestamp r' l).seen π p = l.seen π p := by
  rw [seen_appendCheckpoint hπ hkeyed hr hid]
  split
  · next h => rw [← h, seen_of_some hr, hkept]
  · rfl

theorem seen_appendStreamEvent (hπ : OffCheckpoints π) (hkeyed : Keyed l) (times : Times)
    (q s : JsString) (eventType : PrincipalEventType) (payload : Fields) :
    (appendStreamEvent c times q s eventType payload l).2.seen π p = l.seen π p := by
  rw [appendStreamEvent]
  cases hr : mustPrincipal l q with
  | error e => rfl
  | ok r =>
      rw [orThrow_ok]
      cases ownStream l q s with
      | error e => rfl
      | ok stream =>
          rw [orThrow_ok]
          cases nextEvent c times.event stream eventType payload {} with
          | error e => rfl
          | ok event =>
              have hpushed : (pushEvent stream event l).principals q = some r := mustPrincipal_ok.mp hr
              have hkeyed' : Keyed (pushEvent stream event l) := hkeyed
              exact seen_appendCheckpoint_of_kept hπ hkeyed' hpushed rfl rfl _

end Seen

theorem recordsKept_of_seen (h : ∀ p, l'.seen (fun r => (r.principalId, r.authorizationContext)) p =
    l.seen (fun r => (r.principalId, r.authorizationContext)) p) : RecordsKept l l' := by
  intro p r' hr'
  have hsame := h p
  rw [Ledger.seen, Ledger.seen, hr'] at hsame
  obtain ⟨r, hr, hkept⟩ := Option.map_eq_some_iff.mp hsame.symm
  rw [Prod.mk.injEq] at hkept
  exact ⟨r, hr, hkept.1.symm, hkept.2.symm⟩

theorem recordsKept_setPrincipal {r r' : PrincipalRecord} (hr : l.principals p = some r)
    (hid : r'.principalId = r.principalId) (hcontext : r'.authorizationContext = r.authorizationContext) :
    RecordsKept l (l.setPrincipal p r') :=
  recordsKept_of_seen fun _ => seen_of_kept hr (Prod.ext hid hcontext)

theorem recordsKept_upsertStream (s provider agent session : JsString) :
    RecordsKept l (upsertStream p s provider agent session l) :=
  recordsKept_of_seen fun _ => seen_upsertStream (fun _ _ => rfl) _ _ _ _

theorem recordsKept_appendCheckpoint (hkeyed : Keyed l) {r₀ r : PrincipalRecord}
    (hr₀ : l.principals p = some r₀) (hid : r.principalId = r₀.principalId)
    (hcontext : r.authorizationContext = r₀.authorizationContext) (timestamp : JsNumber) :
    RecordsKept l (appendCheckpoint c timestamp r l) :=
  recordsKept_of_seen fun _ =>
    seen_appendCheckpoint_of_kept (fun _ _ _ _ => rfl) hkeyed hr₀ hid (Prod.ext hid hcontext) _

theorem recordsKept_appendStreamEvent (hkeyed : Keyed l) (times : Times) (p s : JsString)
    (eventType : PrincipalEventType) (payload : Fields) :
    RecordsKept l (appendStreamEvent c times p s eventType payload l).2 :=
  recordsKept_of_seen fun _ => seen_appendStreamEvent (fun _ _ _ _ => rfl) hkeyed _ _ _ _ _

/-- What `joinStream` can make of a record. -/
theorem joinStream_records (input : BindSessionInput) (p : JsString) (authorizationContext : Fields)
    {q : JsString} {r' : PrincipalRecord}
    (hr' : (joinStream c input p authorizationContext l).principals q = some r') :
    ∃ r, l.principals q = some r ∧ r'.principalId = r.principalId ∧
      (r'.authorizationContext = r.authorizationContext ∨
        q = p ∧ r'.authorizationContext = withAnswer r.authorizationContext authorizationContext) := by
  have hkept := recordsKept_upsertStream (l := l) (p := p)
    (makeStreamId c p input.provider input.agent) input.provider input.agent
    input.providerSessionId
  rw [joinStream] at hr'
  generalize upsertStream p (makeStreamId c p input.provider input.agent) input.provider
    input.agent input.providerSessionId l = opened at *
  rw [Ledger.updatePrincipal] at hr'
  cases hp : opened.principals p with
  | none =>
      rw [hp] at hr'
      obtain ⟨r, hr, hid, hcontext⟩ := hkept q r' hr'
      exact ⟨r, hr, hid, Or.inl hcontext⟩
  | some r₁ =>
      rw [hp, Option.elim] at hr'
      by_cases hq : q = p
      · subst hq
        rw [Ledger.setPrincipal_self] at hr'
        obtain rfl := Option.some.inj hr'
        obtain ⟨r, hr, hid, hcontext⟩ := hkept q r₁ hp
        refine ⟨r, hr, hid, Or.inr ⟨rfl, ?_⟩⟩
        rw [← hcontext]
        rfl
      · rw [Ledger.setPrincipal_of_ne _ _ hq] at hr'
        obtain ⟨r, hr, hid, hcontext⟩ := hkept q r' hr'
        exact ⟨r, hr, hid, Or.inl hcontext⟩

theorem keyed_joinStream (hkeyed : Keyed l) (input : BindSessionInput) (p : JsString)
    (authorizationContext : Fields) : Keyed (joinStream c input p authorizationContext l) := by
  intro q r' hr'
  obtain ⟨r, hr, hid, -⟩ := joinStream_records input p authorizationContext hr'
  exact hid.trans (hkeyed q r hr)

/-- After the session has joined, a binding writes no more than a checkpoint. -/
theorem seen_finishBind {α : Type} {π : PrincipalRecord → α} (hπ : OffCheckpoints π)
    (hkeyed : Keyed l) (times : Times) (input : BindSessionInput) (p : JsString)
    (authorizationContext : Fields) (q : JsString) :
    (finishBind c times input p authorizationContext l).2.seen π q =
      (joinStream c input p authorizationContext l).seen π q := by
  have hjoined := keyed_joinStream (c := c) hkeyed input p authorizationContext
  rw [finishBind]
  generalize joinStream c input p authorizationContext l = joined at *
  cases hr : mustPrincipal joined p with
  | error e => rfl
  | ok r =>
      rw [orThrow_ok]
      cases heldStream joined (makeStreamId c p input.provider input.agent) with
      | error e => rfl
      | ok stream =>
          rw [orThrow_ok]
          cases nextEvent c times.event stream .sessionBound (bindPayload input r)
              (bindOptions c input) with
          | error e => rfl
          | ok event =>
              have hpushed : (pushEvent stream event joined).principals p = some r :=
                mustPrincipal_ok.mp hr
              have hkeyed' : Keyed (pushEvent stream event joined) := hjoined
              exact seen_appendCheckpoint_of_kept hπ hkeyed' hpushed rfl rfl _

/-- What `finishBind` can make of a record. -/
theorem finishBind_records (hkeyed : Keyed l) (times : Times) (input : BindSessionInput)
    (p : JsString) (authorizationContext : Fields) {q : JsString} {r' : PrincipalRecord}
    (hr' : (finishBind c times input p authorizationContext l).2.principals q = some r') :
    ∃ r, l.principals q = some r ∧ r'.principalId = r.principalId ∧
      (r'.authorizationContext = r.authorizationContext ∨
        q = p ∧ r'.authorizationContext = withAnswer r.authorizationContext authorizationContext) := by
  have hkept : RecordsKept (joinStream c input p authorizationContext l)
      (finishBind c times input p authorizationContext l).2 :=
    recordsKept_of_seen fun q =>
      seen_finishBind (fun _ _ _ _ => rfl) hkeyed times input p authorizationContext q
  obtain ⟨r₁, hr₁, hid₁, hcontext₁⟩ := hkept q r' hr'
  obtain ⟨r, hr, hid, hcases⟩ := joinStream_records input p authorizationContext hr₁
  rw [hid₁, hcontext₁]
  exact ⟨r, hr, hid, hcases⟩

theorem appendCheckpoint_self (timestamp : JsNumber) (r : PrincipalRecord) (l : Ledger) : ∃ r',
    (appendCheckpoint c timestamp r l).principals r.principalId = some r' ∧
      r'.authorizationContext = r.authorizationContext ∧ r'.publicKeyJwk = r.publicKeyJwk :=
  ⟨_, Ledger.setPrincipal_self _ _ _, rfl, rfl⟩

/-- A returned binding, and the record that its principal had before and has after. -/
theorem finishBind_record (hkeyed : Keyed l) {times : Times} {input : BindSessionInput}
    {authorizationContext : Fields} {b : SessionBinding}
    (h : finishBind c times input p authorizationContext l = (.ok b, l')) :
    b.principalId = p ∧ ∃ r r', l.principals p = some r ∧
      b.authorizationContext = withAnswer r.authorizationContext authorizationContext ∧
      l'.principals p = some r' ∧ r'.authorizationContext = b.authorizationContext ∧
      r'.publicKeyJwk = r.publicKeyJwk := by
  obtain ⟨r₁, stream, event, hr₁, -, -, rfl, rfl⟩ := finishBind_ok h
  obtain ⟨r, hr, hid, -⟩ := joinStream_records input p authorizationContext hr₁
  obtain ⟨streamIds, hjoined⟩ := joinStream_record c input authorizationContext hr
  obtain rfl := Option.some.inj (hr₁.symm.trans hjoined)
  have hp : r.principalId = p := hkeyed p r hr
  obtain ⟨r', hr', hcontext, hjwk⟩ := appendCheckpoint_self (c := c) times.checkpoint
    (joinSession input.providerSessionId authorizationContext { r with streamIds })
    (pushEvent stream event (joinStream c input p authorizationContext l))
  refine ⟨hp, r, r', hr, rfl, ?_, hcontext, hjwk⟩
  rw [← hr', ← hp]
  rfl

/-- What a step can make of a record: the same identifier and context, the context with an answer,
    or a new record. -/
theorem Exec.record {o : LedgerOp} {x : LedgerAns o} (hkeyed : Keyed l) (hx : Exec c l o x l')
    {q : JsString} {r' : PrincipalRecord} (hr' : l'.principals q = some r') :
    (∃ r, l.principals q = some r ∧ r'.principalId = r.principalId ∧
        r'.authorizationContext = r.authorizationContext) ∨
      (∃ r input authorizationContext, o = .finishBind input q authorizationContext ∧
        l.principals q = some r ∧ r'.principalId = r.principalId ∧
        r'.authorizationContext = withAnswer r.authorizationContext authorizationContext) ∨
      ∃ publicKeyJwk keyFingerprint authorizationContext,
        o = .upsertPrincipal publicKeyJwk keyFingerprint authorizationContext ∧
        q = principalIdFromFingerprint c keyFingerprint ∧ r'.principalId = q ∧
        r'.authorizationContext = authorizationContext := by
  cases hx with
  | yield => exact Or.inl ⟨r', hr', rfl, rfl⟩
  | clock now => exact Or.inl ⟨r', hr', rfl, rfl⟩
  | resolve query x => exact Or.inl ⟨r', hr', rfl, rfl⟩
  | consumeNonce challengeNonce =>
      rw [Principal.consumeNonce] at hr'
      split at hr' <;> exact Or.inl ⟨r', hr', rfl, rfl⟩
  | upsertPrincipal now publicKeyJwk keyFingerprint authorizationContext =>
      rw [Principal.upsertPrincipal] at hr'
      cases hp : l.principals (principalIdFromFingerprint c keyFingerprint) with
      | some existing =>
          rw [hp] at hr'
          exact Or.inl ⟨r', hr', rfl, rfl⟩
      | none =>
          rw [hp, Option.elim] at hr'
          change Function.update l.principals _ (some _) q = some r' at hr'
          by_cases hq : q = principalIdFromFingerprint c keyFingerprint
          · subst hq
            rw [Function.update_self] at hr'
            obtain rfl := Option.some.inj hr'
            exact Or.inr (Or.inr ⟨_, _, _, rfl, rfl, rfl, rfl⟩)
          · rw [Function.update_of_ne hq] at hr'
            exact Or.inl ⟨r', hr', rfl, rfl⟩
  | finishBind times input p authorizationContext =>
      obtain ⟨r, hr, hid, hcontext | ⟨rfl, hcontext⟩⟩ :=
        finishBind_records hkeyed times input p authorizationContext hr'
      · exact Or.inl ⟨r, hr, hid, hcontext⟩
      · exact Or.inr (Or.inl ⟨r, input, authorizationContext, rfl, hr, hid, hcontext⟩)
  | append times p s eventType payload =>
      exact Or.inl (recordsKept_appendStreamEvent hkeyed times p s eventType payload q r' hr')
  | close times p s session =>
      rw [Principal.closeSession] at hr'
      cases hr : mustPrincipal l p with
      | error e =>
          rw [hr] at hr'
          exact Or.inl ⟨r', hr', rfl, rfl⟩
      | ok r =>
          rw [hr, orThrow_ok] at hr'
          have hleft : RecordsKept l (l.setPrincipal p
              { r with activeSessionIds := r.activeSessionIds.filter (· ≠ session) }) :=
            recordsKept_setPrincipal (mustPrincipal_ok.mp hr) rfl rfl
          exact Or.inl (hleft.trans (recordsKept_appendStreamEvent (hleft.keyed hkeyed) times p s
            .sessionClosed [(lit "providerSessionId", .string session)]) q r' hr')
  | startRotation p publicKeyJwk =>
      rw [Principal.startRotation] at hr'
      cases hr : mustPrincipal l p with
      | error e =>
          rw [hr] at hr'
          exact Or.inl ⟨r', hr', rfl, rfl⟩
      | ok r =>
          rw [hr, orThrow_ok] at hr'
          have hkept : RecordsKept l (l.setPrincipal p { r with publicKeyJwk }) :=
            recordsKept_setPrincipal (mustPrincipal_ok.mp hr) rfl rfl
          exact Or.inl (hkept q r' hr')
  | finishRotation times p keyFingerprint keyVersion =>
      rw [Principal.finishRotation] at hr'
      cases hr : mustPrincipal l p with
      | error e =>
          rw [hr] at hr'
          exact Or.inl ⟨r', hr', rfl, rfl⟩
      | ok r =>
          rw [hr, orThrow_ok] at hr'
          have hkept : RecordsKept l (appendCheckpoint c times.checkpoint
              { r with keyFingerprint, keyVersion := keyVersion.getD r.keyVersion.incr
                       updatedAt := times.record } l) := by
            refine recordsKept_appendCheckpoint hkeyed (mustPrincipal_ok.mp hr) ?_ ?_ _ <;> rfl
          exact Or.inl (hkept q r' hr')

theorem Exec.keyed {o : LedgerOp} {x : LedgerAns o} (hx : Exec c l o x l') (hkeyed : Keyed l) :
    Keyed l' := by
  intro q r' hr'
  obtain ⟨r, hr, hid, -⟩ | ⟨r, -, -, -, hr, hid, -⟩ | ⟨-, -, -, -, -, hid, -⟩ := hx.record hkeyed hr'
  · exact hid.trans (hkeyed q r hr)
  · exact hid.trans (hkeyed q r hr)
  · exact hid

end Records

/-! ## Runs -/

section Runs

variable {calls : LedgerCall → Prop} {ι : Type} [DecidableEq ι] {cfg : LedgerConfig ι}

theorem keyed_of_reachable (h : Reachable (ledgerSystem c calls ι) cfg) : Keyed cfg.shared := by
  refine Reachable.invariant (I := fun cfg : LedgerConfig ι => Keyed cfg.shared) ?_ ?_ h
  · rintro cfg ⟨hinit, -, -⟩
    rw [show cfg.shared = Ledger.empty from hinit]
    exact fun _ _ hr => nomatch hr
  · rintro cfg cfg' - hkeyed hstep
    cases hstep with
    | start i r hadm hi => exact hkeyed
    | env s hs => exact hs.elim
    | exec i r o k x s hi hx => exact Exec.keyed hx hkeyed

/-- The states of the log are keyed too. -/
theorem keyed_of_mem_log (h : Reachable (ledgerSystem c calls ι) cfg)
    {e : Entry ι LedgerOp LedgerAns Ledger} (he : e ∈ cfg.log) : Keyed e.state :=
  ((Service.log_monotone (R := fun _ _ => True) (fun _ hr => keyed_of_reachable hr)
    (fun _ _ _ _ _ => trivial) (fun _ _ _ _ _ _ => trivial) (fun _ _ _ _ => trivial) h).2 e he).2

/-- A completed binding in a run: what it was proved with, what the resolver answered, and its last
    stretch in the log. -/
theorem exists_binding (h : Reachable (ledgerSystem c calls ι) cfg) {i : ι} {input : BindSessionInput}
    {b : SessionBinding} (hi : cfg.calls i = some ⟨.bindSession input, .ret (.binding b)⟩) :
    calls (.bindSession input) ∧ ∃ keyFingerprint now authorizationContext,
      computeFingerprint c input.publicKeyJwk = .ok keyFingerprint ∧
      verifyPrincipalSessionProof c now input keyFingerprint = .ok () ∧
      ownTrace i cfg.log = bindingTrace c input keyFingerprint now authorizationContext b ∧
      ∃ e ∈ cfg.log, e.call = i ∧ e.made =
        ⟨.finishBind input (principalIdFromFingerprint c keyFingerprint) authorizationContext,
          .ok b⟩ ∧
      ∃ times t, finishBind c times input (principalIdFromFingerprint c keyFingerprint)
        authorizationContext e.state = (.ok b, t) := by
  obtain ⟨hcall, htrace⟩ := (Service.trace_of_reachable h i).1 _ _ hi
  obtain ⟨b', hb, hbind⟩ := trace_of_map htrace
  obtain rfl := LedgerResult.binding.inj hb
  obtain ⟨keyFingerprint, now, authorizationContext, hkey, hproof, hes⟩ := bindSession_trace hbind
  obtain ⟨e, he, hei, hmade⟩ : ∃ e ∈ cfg.log, e.call = i ∧ e.made =
      ⟨.finishBind input (principalIdFromFingerprint c keyFingerprint) authorizationContext,
        .ok b⟩ := by
    refine exists_entry ?_
    rw [hes]
    simp [bindingTrace]
  refine ⟨hcall, keyFingerprint, now, authorizationContext, hkey, hproof, hes, e, he, hei, hmade, ?_⟩
  obtain ⟨t, hexec⟩ := Service.exec_of_reachable h e he
  rw [hmade] at hexec
  change Exec c _ _ _ _ at hexec
  generalize hx : (Except.ok b : Except ServerError SessionBinding) = x at hexec
  cases hexec with
  | finishBind times => exact ⟨times, (finishBind c times input _ _ e.state).2, rfl⟩

end Runs

end Principal
