import BpcProtocol.Pair.Conduct
import BpcProtocol.Pair.FailsClosed

set_option autoImplicit false

/-! # The frame of a denial

What a verification leaves unchanged when it denies: of the pair that the request names everything
but the status and the failure counters, every other pair, and, unless every check has passed, the
nonce store. -/

namespace Pair

open Fallible Async

/-! ## A verification without interference -/

/-- What a verification reads and changes: the state of the server, and the nonce store. -/
structure VerifierState (ν : Type) where
  server : ServerState
  nonces : ν

/-- The operation is about the nonce store. -/
def ServerOp.Consumes : ServerOp → Prop
  | .checkAndConsume _ _ => True
  | _ => False

/-- What an operation does while nothing else acts but the clock. -/
inductive AloneExec {ν : Type} (crypto : Crypto)
    (consume : ν → JsString → JsNumber → Except Nonce.NonceError Bool → ν → Prop) :
    VerifierState ν → (o : ServerOp) → o.Answer → VerifierState ν → Prop
  | consume {s : VerifierState ν} {nonce : JsString} {ttlMs : JsNumber}
      {answer : Except Nonce.NonceError Bool} {nonces : ν} :
      consume s.nonces nonce ttlMs answer nonces →
      AloneExec crypto consume s (.checkAndConsume nonce ttlMs) answer { s with nonces }
  | server {s : VerifierState ν} {o : ServerOp} {x : o.Answer} {server : ServerState} (now : ℤ) :
      ¬o.Consumes → ServerExec crypto { s.server with now } o x server →
      AloneExec crypto consume s o x { s with server }

/-! ## Pairs -/

/-- What a denial may make of a pair: its failure counters change, and its status moves from active
    to locked or expired. -/
structure DeniedFrame (p p' : StoredPair) : Prop where
  rest : p' =
    { p with
      status := p'.status
      failedSigs := p'.failedSigs
      cumulativeFailures := p'.cumulativeFailures
      firstFailureAt := p'.firstFailureAt }
  status : p'.status = p.status ∨
    p.status = .active ∧ (p'.status = .locked ∨ p'.status = .expired)

theorem DeniedFrame.refl (p : StoredPair) : DeniedFrame p p :=
  ⟨rfl, .inl rfl⟩

theorem DeniedFrame.trans {p q r : StoredPair} (hpq : DeniedFrame p q) (hqr : DeniedFrame q r) :
    DeniedFrame p r := by
  constructor
  · calc
      r = { q with
          status := r.status
          failedSigs := r.failedSigs
          cumulativeFailures := r.cumulativeFailures
          firstFailureAt := r.firstFailureAt } := hqr.rest
      _ = { p with
          status := r.status
          failedSigs := r.failedSigs
          cumulativeFailures := r.cumulativeFailures
          firstFailureAt := r.firstFailureAt } := by rw [hpq.rest]
  · rcases hqr.status with hsame | ⟨hactive, hended⟩
    · rw [hsame]
      exact hpq.status
    · rcases hpq.status with hsame | ⟨hp, hq⟩
      · exact .inr ⟨hsame ▸ hactive, hended⟩
      · rw [hactive] at hq
        exact (hq.elim (fun h => nomatch h) fun h => nomatch h)

/-- A pair that is retired keeps everything else. -/
theorem deniedFrame_withStatus {p : StoredPair} (hactive : p.status = .active) {status : PairStatus}
    (hstatus : status = .locked ∨ status = .expired) : DeniedFrame p (p.withStatus status) :=
  ⟨rfl, .inr ⟨hactive, hstatus⟩⟩

theorem deniedFrame_recordFailure (p : StoredPair) (ipFailures : Option JsNumber)
    (lockoutCount now : JsNumber) :
    DeniedFrame p (recordFailure p ipFailures lockoutCount now) := by
  unfold recordFailure lockAtThreshold
  split
  · next h => exact ⟨rfl, .inr ⟨h.1, .inl rfl⟩⟩
  · exact ⟨rfl, .inl rfl⟩

/-! ## The store -/

/-- What a denial may make of the store: the pair that is named changes within its frame. -/
structure StoreFrame (named : Option JsString) (s t : MemoryPairStore) : Prop where
  others : ∀ pairId, named ≠ some pairId → t.pairs.get pairId = s.pairs.get pairId
  kept : ∀ pairId p, s.pairs.get pairId = some p →
    ∃ p', t.pairs.get pairId = some p' ∧ DeniedFrame p p'
  absent : ∀ pairId, s.pairs.get pairId = none → t.pairs.get pairId = none
  pending : t.pending = s.pending

namespace StoreFrame

variable {named : Option JsString} {s t u : MemoryPairStore}

theorem refl (named : Option JsString) (s : MemoryPairStore) : StoreFrame named s s :=
  ⟨fun _ _ => rfl, fun _ p hp => ⟨p, hp, .refl p⟩, fun _ h => h, rfl⟩

theorem trans (hst : StoreFrame named s t) (htu : StoreFrame named t u) : StoreFrame named s u where
  others pairId hne := (htu.others pairId hne).trans (hst.others pairId hne)
  kept pairId p hp := by
    obtain ⟨q, hq, hpq⟩ := hst.kept pairId p hp
    obtain ⟨r, hr, hqr⟩ := htu.kept pairId q hq
    exact ⟨r, hr, hpq.trans hqr⟩
  absent pairId h := htu.absent pairId (hst.absent pairId h)
  pending := htu.pending.trans hst.pending

theorem setPair {pairId : JsString} {p p' : StoredPair} (hp : s.pairs.get pairId = some p)
    (hframe : DeniedFrame p p') : StoreFrame (some pairId) s (s.setPair pairId p') where
  others other hne := OrderedMap.get_set_of_ne _ (fun heq => hne (congrArg some heq.symm)) p'
  kept other q hq := by
    by_cases heq : other = pairId
    · subst heq
      rw [hp, Option.some.injEq] at hq
      exact ⟨p', OrderedMap.get_set_self _ _ _, hq ▸ hframe⟩
    · exact ⟨q, (OrderedMap.get_set_of_ne _ heq p').trans hq, .refl q⟩
  absent other hnone := by
    have hne : other ≠ pairId := by
      rintro rfl
      rw [hp] at hnone
      cases hnone
    exact (OrderedMap.get_set_of_ne _ hne p').trans hnone
  pending := rfl

end StoreFrame

/-- An operation that throws changes nothing. -/
theorem settle_frame {α : Type} {named : Option JsString} {s : MemoryPairStore}
    {x : Except ServerError (α × MemoryPairStore)}
    (h : ∀ a t, x = .ok (a, t) → StoreFrame named s t) : StoreFrame named s (settle x s).2 := by
  cases x with
  | error e => exact .refl _ s
  | ok r => exact h r.1 r.2 rfl

namespace MemoryPairStore

variable (s : MemoryPairStore) (pairId : JsString)

theorem transition_frame (cond : StoredPair → Bool) {status : PairStatus}
    (hstatus : status = .locked ∨ status = .expired) :
    StoreFrame (some pairId) s (s.transition pairId cond status).2 := by
  unfold transition
  split
  · exact .refl _ s
  · next pair hget =>
      split
      · next h => exact .setPair hget (deniedFrame_withStatus h.1 hstatus)
      · exact .refl _ s

theorem recordFailure_frame (ipFailures : Option JsNumber) (lockoutCount now : JsNumber) :
    StoreFrame (some pairId) s
      (settle (s.atomicMutate pairId
        (PairMutation.recordFailure ipFailures lockoutCount now).apply) s).2 := by
  refine settle_frame fun answer t hrun => ?_
  unfold atomicMutate at hrun
  split at hrun
  · cases hrun
    exact .refl _ s
  · next current hget =>
      obtain ⟨next, hnext, hcommit⟩ := (bind_eq_ok _ _ _).mp hrun
      cases hnext
      simp only [commitMutation, bind_eq_ok, ensure_eq_ok, exists_unit, pure_eq_ok] at hcommit
      obtain ⟨-, heq⟩ := hcommit
      cases heq
      exact .setPair hget (deniedFrame_recordFailure current ipFailures lockoutCount now)

/-- A claim that is not granted. -/
theorem claimSuccessfulUse_frame (at_ : JsNumber) (expected : SuccessfulUsePolicy)
    (hclaim : (settle (s.claimSuccessfulUse pairId at_ expected) s).1 ≠ .ok .claimed) :
    StoreFrame (some pairId) s (settle (s.claimSuccessfulUse pairId at_ expected) s).2 := by
  cases hrun : s.claimSuccessfulUse pairId at_ expected with
  | error e => exact .refl _ s
  | ok r =>
      obtain ⟨outcome, t⟩ := r
      have hne : outcome ≠ .claimed := by
        rintro rfl
        rw [hrun] at hclaim
        exact hclaim rfl
      simp only [claimSuccessfulUse, bind_eq_ok, ensure_eq_ok, exists_unit] at hrun
      obtain ⟨-, key, -, hrun⟩ := hrun
      show StoreFrame (some pairId) s t
      unfold claim at hrun
      split at hrun
      · cases hrun
        exact .refl _ s
      · next current hget =>
          unfold claimCurrent at hrun
          split at hrun
          · cases hrun
            exact .refl _ s
          split at hrun
          · cases hrun
            exact .refl _ s
          split at hrun
          · cases hrun
            exact .refl _ s
          next hactive =>
          have hactive := not_not.mp hactive
          split at hrun
          · cases hrun
            exact .setPair hget (deniedFrame_withStatus hactive (.inr rfl))
          split at hrun
          · cases hrun
            exact .setPair hget (deniedFrame_withStatus hactive (.inr rfl))
          · simp only [use, bind_eq_ok, pure_eq_ok] at hrun
            obtain ⟨agrees, -, heq⟩ := hrun
            cases agrees with
            | true =>
                cases heq
                exact absurd rfl hne
            | false =>
                cases heq
                exact .refl _ s

end MemoryPairStore

/-- An operation that a verification may make, and that grants no claim, stays within the frame. -/
theorem mayStore_frame {req : BPCRequestData} {o : StoreOp} (hmay : MayStore req o)
    (s : MemoryPairStore) (hclaim : o.isClaim (s.run o).1 = false) :
    StoreFrame req.pairId s (s.run o).2 := by
  cases o with
  | get pairId => exact .refl _ s
  | atomicMutate pairId m =>
      cases m with
      | recordFailure ipFailures lockoutCount now =>
          have hnames : req.pairId = some pairId := hmay
          rw [hnames]
          exact s.recordFailure_frame pairId ipFailures lockoutCount now
      | revoke => exact hmay.elim
      | unlock => exact hmay.elim
      | update updates => exact hmay.elim
  | claimSuccessfulUse pairId at_ expected =>
      have hnames : req.pairId = some pairId := hmay
      rw [hnames]
      refine s.claimSuccessfulUse_frame pairId at_ expected fun heq => ?_
      rw [MemoryPairStore.run, heq] at hclaim
      cases hclaim
  | expireIfElapsed pairId now =>
      have hnames : req.pairId = some pairId := hmay
      rw [hnames]
      refine settle_frame fun marked t hrun => ?_
      simp only [MemoryPairStore.expireIfElapsed, bind_eq_ok, ensure_eq_ok, exists_unit,
        pure_eq_ok] at hrun
      obtain ⟨-, heq⟩ := hrun
      have hframe := s.transition_frame pairId
        (fun p => p.expiresAt.any fun e => !e.ge now) (.inr (rfl : PairStatus.expired = .expired))
      rwa [heq] at hframe
  | expireIfUsageExhausted pairId =>
      have hnames : req.pairId = some pairId := hmay
      rw [hnames]
      exact s.transition_frame pairId _ (.inr rfl)
  | lockIfFailureThreshold pairId minimumFailures =>
      have hnames : req.pairId = some pairId := hmay
      rw [hnames]
      refine settle_frame fun locked t hrun => ?_
      simp only [MemoryPairStore.lockIfFailureThreshold, bind_eq_ok, ensure_eq_ok, exists_unit,
        pure_eq_ok] at hrun
      obtain ⟨-, heq⟩ := hrun
      have hframe := s.transition_frame pairId
        (fun p => !p.failedSigs.lt minimumFailures) (.inl (rfl : PairStatus.locked = .locked))
      rwa [heq] at hframe
  | list => exact hmay.elim
  | getPending token => exact hmay.elim
  | setPending token pending => exact hmay.elim
  | approvePending token expected pair maxActivePairs => exact hmay.elim
  | rotatePair expectedOld replacement => exact hmay.elim

/-! ## Denials -/

section Denied

variable {ν : Type} {registry : RegistryConfig} {cfg : VerifierConfig} {req : BPCRequestData}
  {crypto : Crypto} {consume : ν → JsString → JsNumber → Except Nonce.NonceError Bool → ν → Prop}
  {s t : VerifierState ν} {es : ServerHistory} {r : BPCVerifyResult}

theorem Concluded.unclaimed (hconcluded : Concluded req es r) (hdenied : r.ok = false) :
    Unclaimed es := by
  cases hconcluded with
  | authorized hok _ =>
      rw [hdenied] at hok
      cases hok
  | plain hplain => exact hplain.unclaimed
  | faulted hfaulted => exact hfaulted.unclaimed

theorem AloneExec.storeFrame {h : ServerHistory} {o : ServerOp} {x : o.Answer}
    (hexec : AloneExec crypto consume s o x t) (hmay : May cfg req h o)
    (hclaim : o.isClaim x = false) : StoreFrame req.pairId s.server.store t.server.store := by
  cases hexec with
  | consume _ => exact .refl _ _
  | server now _ hserver =>
      cases hserver with
      | store o => exact mayStore_frame hmay _ hclaim
      | _ => exact .refl _ _

/-- **A denial stays within its frame**: of the store only the failure counters of the named pair may
    change, and its status from active to locked or expired; and where the nonce store has changed,
    that was behind the passing of every check. -/
theorem denied_frame (htrace : Trace (verifyBPCRequest registry cfg req) es (.ret r))
    (hrun : Runs (AloneExec crypto consume) s es t) (hdenied : r.ok = false) :
    StoreFrame req.pairId s.server.store t.server.store ∧
      (t.nonces ≠ s.nonces → ∃ es₁ e es₂, es = es₁ ++ e :: es₂ ∧ e.1.Consumes ∧
        ∃ headers auth signed now, Checked cfg req es₁ headers auth signed now) := by
  have hfollows := @verifyBPCRequest_follows cfg req registry
  have hunclaimed := (htrace.returns hfollows).unclaimed hdenied
  constructor
  · refine hrun.relates (R := fun s t => StoreFrame req.pairId s.server.store t.server.store)
      (fun s => .refl _ _) (fun _ _ _ => StoreFrame.trans) fun e he s t hexec => ?_
    obtain ⟨es₁, es₂, hes⟩ := List.append_of_mem he
    exact hexec.storeFrame (htrace.permitted hfollows hes) (hunclaimed e he)
  · intro hne
    obtain ⟨es₁, ⟨o, x⟩, es₂, u, v, hes, hexec, hchange⟩ := hrun.exists_change hne
    refine ⟨es₁, ⟨o, x⟩, es₂, hes, ?_⟩
    have hmay : May cfg req es₁ o := htrace.permitted hfollows hes
    cases hexec with
    | consume _ => exact ⟨trivial, hmay⟩
    | server now _ _ => exact absurd rfl hchange

end Denied

/-! ## A denial -/

/-- A nonce store that remembers what it has seen. -/
def remembers (seen : List JsString) (nonce : JsString) (_ : JsNumber)
    (answer : Except Nonce.NonceError Bool) (seen' : List JsString) : Prop :=
  answer = .ok (decide (nonce ∈ seen)) ∧ seen' = nonce :: seen

/-- One operation, where the components agree. -/
def VerifierState.perform (crypto : Crypto) (s : VerifierState (List JsString)) :
    (o : ServerOp) → o.Answer × VerifierState (List JsString)
  | .checkAndConsume nonce _ => (.ok (decide (nonce ∈ s.nonces)), ⟨s.server, nonce :: s.nonces⟩)
  | o => ((s.server.perform crypto o).1, ⟨(s.server.perform crypto o).2, s.nonces⟩)

theorem VerifierState.exec_perform (crypto : Crypto) (s : VerifierState (List JsString))
    (o : ServerOp) :
    AloneExec crypto remembers s o (s.perform crypto o).1 (s.perform crypto o).2 := by
  have hserver := s.server.exec_perform crypto o
  cases o with
  | checkAndConsume nonce ttlMs => exact .consume ⟨rfl, rfl⟩
  | _ => exact .server s.server.now (fun h => h) hserver

/-- A key under which no signature verifies. -/
def Crypto.refusing : Crypto where
  verifySecretHmac _ _ _ _ := true
  verifyPayload _ _ _ := .ok false

/-- The first pair is registered. -/
def registeredState : VerifierState (List JsString) where
  server := ((ServerConfig.start 0).serve ⟨.fin 9, .fin 9⟩ .agreeing 0
    [.registerDirect (sampleRegistration "sample" none)]).shared
  nonces := []

/-- The verification returned a denial. -/
def denies : ServerProg BPCVerifyResult → Bool
  | .ret r => !r.ok
  | _ => false

/-- A request with a signature that does not verify. -/
theorem denied_frame_sample :
    ∃ es r t, Trace (verifyBPCRequest ⟨.fin 9, .fin 9⟩ sampleVerifier
        (requestWith (Js.lit "pair_0") samplePayload)) es (.ret r) ∧ r.ok = false ∧
      Runs (AloneExec .refusing remembers) registeredState es t ∧
      StoreFrame (some (Js.lit "pair_0")) registeredState.server.store t.server.store := by
  let p := verifyBPCRequest ⟨.fin 9, .fin 9⟩ sampleVerifier
    (requestWith (Js.lit "pair_0") samplePayload)
  obtain ⟨es, htrace, hrun, -⟩ := Prog.runs_drive (VerifierState.exec_perform .refusing) p
    registeredState 0 []
  have hdenies : denies (p.drive (VerifierState.perform .refusing) 0 registeredState []).1 = true := by
    decide +kernel
  generalize p.drive (VerifierState.perform .refusing) 0 registeredState [] = done at *
  obtain ⟨rest, t, log⟩ := done
  cases rest with
  | ret r =>
      have hdenied : r.ok = false := (Bool.not_eq_true' r.ok).mp hdenies
      exact ⟨es, r, t, htrace, hdenied, hrun, (denied_frame htrace hrun hdenied).1⟩
  | fail e => cases hdenies
  | await o k => cases hdenies

end Pair
