import BpcProtocol.Principal.Service

set_option autoImplicit false

/-! # What the verifier walks over

Streams, their events, the heads of a principal and its checkpoints are four structures that every
call updates in turn. `Sound` says of each that it is what the verifier walks over; `UpToDate`, that
the latest checkpoint of a principal has the heads of its streams. -/

namespace Principal

open Fallible Pair
open Js (lit)
open Replication (canonicalJson)

variable {PrivateKey PublicKey : Type} {c : Wire.WebCrypto PrivateKey PublicKey}

/-! ## Chains -/

/-- A stream of events grows by one that follows its head. -/
theorem verifyEvents_append {p s : JsString} {es : List PrincipalStreamEvent}
    {e : PrincipalStreamEvent} {i : ℕ} {prevHash headHash : JsString}
    (h : verifyEvents c p s i prevHash es = .ok headHash) (hseq : e.seq = i + es.length + 1)
    (hprev : e.prevHash = headHash)
    (hhash : computeStreamEventHash c e.toBareStreamEvent = e.chainHash) :
    verifyEvents c p s i prevHash (es ++ [e]) = .ok e.chainHash := by
  induction es generalizing i prevHash with
  | nil =>
      obtain rfl := Except.ok.inj h
      simp only [List.nil_append, verifyEvents, bind_eq_ok, require_eq_ok, exists_unit]
      exact ⟨hseq, hprev, hhash, trivial⟩
  | cons d rest ih =>
      simp only [List.cons_append, verifyEvents, bind_eq_ok, require_eq_ok, exists_unit] at h ⊢
      obtain ⟨hdseq, hdprev, hdhash, hrest⟩ := h
      refine ⟨hdseq, hdprev, hdhash, ih hrest ?_⟩
      rw [hseq, List.length_cons]
      omega

/-- The hash that the next checkpoint follows. -/
def checkpointTip (prev : JsString) (cps : List PrincipalCheckpoint) : JsString :=
  cps.getLast?.elim prev PrincipalCheckpoint.checkpointHash

theorem checkpointTip_cons (prev : JsString) (d : PrincipalCheckpoint)
    (rest : List PrincipalCheckpoint) :
    checkpointTip prev (d :: rest) = checkpointTip d.checkpointHash rest := by
  cases rest with
  | nil => rfl
  | cons e rest => rw [checkpointTip, checkpointTip, List.getLast?_cons_cons,
      List.getLast?_eq_some_getLast (List.cons_ne_nil e rest)]; rfl

theorem checkpointTip_append (prev : JsString) (cps : List PrincipalCheckpoint)
    (full : PrincipalCheckpoint) : checkpointTip prev (cps ++ [full]) = full.checkpointHash := by
  rw [checkpointTip, List.getLast?_concat]
  rfl

/-- A list of checkpoints grows by one that follows its tip. -/
theorem verifyCheckpoints_append {p : JsString} {cps : List PrincipalCheckpoint}
    {full : PrincipalCheckpoint} {i : ℕ} {prev : JsString}
    (h : verifyCheckpoints c p i prev cps = .ok ()) (hseq : full.seq = i + cps.length + 1)
    (hprev : full.prevHash = checkpointTip prev cps)
    (hhash : computeCheckpointHash c full.toBareCheckpoint = full.checkpointHash) :
    verifyCheckpoints c p i prev (cps ++ [full]) = .ok () := by
  induction cps generalizing i prev with
  | nil =>
      simp only [List.nil_append, verifyCheckpoints, bind_eq_ok, require_eq_ok, exists_unit]
      exact ⟨hseq, hprev, hhash, trivial⟩
  | cons d rest ih =>
      simp only [List.cons_append, verifyCheckpoints, bind_eq_ok, require_eq_ok, exists_unit] at h ⊢
      obtain ⟨hdseq, hdprev, hdhash, hrest⟩ := h
      rw [checkpointTip_cons] at hprev
      refine ⟨hdseq, hdprev, hdhash, ih hrest ?_ hprev⟩
      rw [hseq, List.length_cons]
      omega

/-- The number of the last of them. -/
theorem verifyCheckpoints_last {p : JsString} {cps : List PrincipalCheckpoint} {i : ℕ}
    {prev : JsString} (h : verifyCheckpoints c p i prev cps = .ok ()) {latest : PrincipalCheckpoint}
    (hlatest : latest ∈ cps.getLast?) : latest.seq = i + cps.length := by
  induction cps generalizing i prev with
  | nil => cases hlatest
  | cons d rest ih =>
      simp only [verifyCheckpoints, bind_eq_ok, require_eq_ok, exists_unit] at h
      obtain ⟨hdseq, -, -, hrest⟩ := h
      cases rest with
      | nil =>
          obtain rfl : d = latest := Option.some.inj hlatest
          exact hdseq
      | cons e rest =>
          rw [List.getLast?_cons_cons] at hlatest
          rw [ih hrest hlatest, List.length_cons (a := d)]
          omega

/-! ## Heads -/

/-- The heads depend on the sequence numbers and hashes of the streams named. -/
theorem streamHeads_congr {l l' : Ledger} {ids : List JsString}
    (h : ∀ s ∈ ids, (l.streams s).map headOf = (l'.streams s).map headOf) :
    streamHeads l ids = streamHeads l' ids := by
  have hfold : ∀ (ids : List JsString) (heads : StreamHeads),
      (∀ s ∈ ids, (l.streams s).map headOf = (l'.streams s).map headOf) →
      ids.foldl (fun heads s => (l.streams s).elim heads fun stream =>
          Js.setField heads s (headOf stream)) heads =
        ids.foldl (fun heads s => (l'.streams s).elim heads fun stream =>
          Js.setField heads s (headOf stream)) heads := by
    intro ids
    induction ids with
    | nil => exact fun _ _ => rfl
    | cons s rest ih =>
        intro heads hall
        have hs := hall s List.mem_cons_self
        have hhead : ((l.streams s).elim heads fun stream => Js.setField heads s (headOf stream)) =
            (l'.streams s).elim heads fun stream => Js.setField heads s (headOf stream) := by
          cases hl : l.streams s with
          | none =>
              rw [hl, Option.map_none] at hs
              rw [Option.map_eq_none_iff.mp hs.symm]
          | some stream =>
              rw [hl, Option.map_some] at hs
              obtain ⟨stream', hl', heq⟩ := Option.map_eq_some_iff.mp hs.symm
              rw [hl', Option.elim, Option.elim, heq]
        rw [List.foldl_cons, List.foldl_cons, hhead]
        exact ih _ fun t ht => hall t (List.mem_cons_of_mem s ht)
  exact hfold ids [] h

/-! ## The invariant -/

/-- What the verifier, and nothing else, reads of a record. -/
def PrincipalRecord.core (r : PrincipalRecord) : JsString × List JsString × JsString × ℕ :=
  (r.principalId, r.streamIds, r.checkpointHead, r.checkpointSeq)

/-- A stream is one that a call can have bound. -/
def Named (c : Wire.WebCrypto PrivateKey PublicKey) (calls : LedgerCall → Prop)
    (streamId principalId : JsString) : Prop :=
  ∃ input fingerprint, calls (.bindSession input) ∧
    computeFingerprint c input.publicKeyJwk = .ok fingerprint ∧
    principalId = principalIdFromFingerprint c fingerprint ∧
    streamId = makeStreamId c principalId input.provider input.agent

/-- Every structure is whole in itself. -/
structure Sound (c : Wire.WebCrypto PrivateKey PublicKey) (calls : LedgerCall → Prop)
    (l : Ledger) : Prop where
  keyed : ∀ p r, l.principals p = some r → r.principalId = p
  named : ∀ s stream, l.streams s = some stream →
    stream.streamId = s ∧ Named c calls s stream.principalId
  chained : ∀ s stream, l.streams s = some stream →
    stream.seq = (l.events s).length ∧
      ∀ p, verifyEvents c p s 0 principalGenesisHash (l.events s) = .ok stream.headHash
  listed : ∀ p r, l.principals p = some r → ∀ s ∈ r.streamIds,
    ∃ stream, l.streams s = some stream ∧ stream.principalId = p
  checkpointed : ∀ p r, l.principals p = some r →
    r.checkpointSeq = (l.checkpoints p).length ∧
      r.checkpointHead = checkpointTip principalGenesisHash (l.checkpoints p) ∧
      verifyCheckpoints c p 0 principalGenesisHash (l.checkpoints p) = .ok ()

/-- The latest checkpoint has the heads of the streams. -/
def UpToDate (l : Ledger) (p : JsString) : Prop :=
  ∀ r, l.principals p = some r → ∀ latest ∈ (l.checkpoints p).getLast?,
    latest.streamHeads = streamHeads l r.streamIds

/-- A principal with a checkpoint. -/
def Bound (l : Ledger) (p : JsString) : Prop :=
  (∃ r, l.principals p = some r) ∧ l.checkpoints p ≠ []

/-- The names of streams of different principals differ. -/
def StreamsApart (c : Wire.WebCrypto PrivateKey PublicKey) (calls : LedgerCall → Prop) : Prop :=
  ∀ s p q, Named c calls s p → Named c calls s q → p = q

/-! ## What the verifier makes of it -/

theorem verifyStreams_ok {calls : LedgerCall → Prop} {l : Ledger} (h : Sound c calls l)
    {p : JsString} {ids : List JsString}
    (hids : ∀ s ∈ ids, ∃ stream, l.streams s = some stream ∧ stream.principalId = p)
    (heads : StreamHeads) :
    verifyStreams c l p heads ids = .ok (ids.foldl (fun heads s =>
      (l.streams s).elim heads fun stream => Js.setField heads s (headOf stream)) heads) := by
  induction ids generalizing heads with
  | nil => rfl
  | cons s rest ih =>
      obtain ⟨stream, hstream, -⟩ := hids s List.mem_cons_self
      obtain ⟨hseq, hevents⟩ := h.chained s stream hstream
      simp only [verifyStreams, hstream, Option.elim, List.foldl_cons, bind_eq_ok, require_eq_ok,
        exists_unit]
      refine ⟨stream, rfl, stream.headHash, hevents p, ⟨hseq, rfl⟩, ?_⟩
      exact ih (fun t ht => hids t (List.mem_cons_of_mem s ht)) _

/-- The verifier finds nothing broken in a principal with a checkpoint that is up to date. -/
theorem continuity_of_sound {calls : LedgerCall → Prop} {l : Ledger} (h : Sound c calls l)
    {p : JsString} (hdate : UpToDate l p) (hbound : Bound l p) :
    verifyPrincipalContinuity c l p = ⟨true, p, none, none⟩ := by
  obtain ⟨⟨r, hr⟩, hsome⟩ := hbound
  obtain ⟨hseq, hhead, hchain⟩ := h.checkpointed p r hr
  have hlast := List.getLast?_eq_some_getLast hsome
  have hheads := hdate r hr _ hlast
  have hlastSeq : ((l.checkpoints p).getLast hsome).seq = r.checkpointSeq := by
    rw [verifyCheckpoints_last hchain hlast, hseq, Nat.zero_add]
  have hcheck : checkContinuity c l p r = .ok () := by
    simp only [checkContinuity, verifyStreams_ok h (h.listed p r hr), hchain, hlast, Option.elim,
      bind_eq_ok, require_eq_ok, exists_unit]
    refine ⟨_, rfl, trivial, _, rfl, ⟨?_, hlastSeq⟩, ?_⟩
    · rw [hhead, checkpointTip, hlast]
      rfl
    · rw [hheads]
      rfl
  rw [verifyPrincipalContinuity, hr, Option.elim, hcheck]
  rfl

end Principal
