import BpcProtocol.Lib.Separated
import BpcProtocol.Principal.Acceptance

set_option autoImplicit false

/-! # Continuity of a principal

Between any two steps of any calls the ledger is whole, and a principal of a completed binding has a
checkpoint that is up to date. The names of streams are prefixes of digests: two principals never
share a stream as long as no two of those prefixes collide. -/

namespace Principal

open Fallible Pair Async Transition
open Js (lit)

variable {PrivateKey PublicKey : Type} {c : Wire.WebCrypto PrivateKey PublicKey}

/-! ## Names of streams -/

/-- The text whose digest names a stream. -/
def streamText (principalId provider agentInstanceId : JsString) : JsString :=
  principalId ++ 58 :: provider ++ 58 :: agentInstanceId

/-- The text of a stream that a call can bind. -/
def NamesStream (c : Wire.WebCrypto PrivateKey PublicKey) (calls : LedgerCall → Prop)
    (text : JsString) : Prop :=
  ∃ input keyFingerprint, calls (.bindSession input) ∧
    computeFingerprint c input.publicKeyJwk = .ok keyFingerprint ∧
    text = streamText (principalIdFromFingerprint c keyFingerprint) input.provider input.agent

/-- Twenty-four hexadecimal digits of SHA-256 tell these texts apart. -/
def CollisionFree (c : Wire.WebCrypto PrivateKey PublicKey) (texts : JsString → Prop) : Prop :=
  ∀ t t', texts t → texts t' → (sha256hex c t).take 24 = (sha256hex c t').take 24 → t = t'

/-- No identifier of a principal has a colon. -/
theorem colon_notMem_principalId (keyFingerprint : JsString) :
    (58 : UInt16) ∉ principalIdFromFingerprint c keyFingerprint := by
  intro hmem
  rcases List.mem_append.mp hmem with hmem | hmem
  · exact absurd hmem (by decide)
  · have hdigits := List.mem_of_mem_take hmem
    rw [sha256hex, List.mem_flatMap] at hdigits
    obtain ⟨byte, -, hbyte⟩ := hdigits
    have hdigit : ∀ n < 16, Js.hexDigit n ≠ 58 := by decide
    have hlt : byte.toNat < 256 := byte.toNat_lt
    simp only [Ha.hexByte, List.mem_cons, List.not_mem_nil, or_false] at hbyte
    rcases hbyte with hbyte | hbyte
    · exact hdigit _ (by omega) hbyte.symm
    · exact hdigit _ (by omega) hbyte.symm

theorem streamsApart {calls : LedgerCall → Prop} (h : CollisionFree c (NamesStream c calls)) :
    StreamsApart c calls := by
  rintro s p q ⟨input, keyFingerprint, hcall, hkey, rfl, rfl⟩
    ⟨input', keyFingerprint', hcall', hkey', rfl, heq⟩
  have htext := h _ _ ⟨input, keyFingerprint, hcall, hkey, rfl⟩
    ⟨input', keyFingerprint', hcall', hkey', rfl⟩ (List.append_cancel_left heq)
  simp only [streamText, List.append_assoc, List.cons_append] at htext
  exact Separated.eq_of_append_cons (colon_notMem_principalId _) (colon_notMem_principalId _) htext

/-! ## Runs -/

/-- What is known of an operation that an admitted call makes. -/
def Admitted (c : Wire.WebCrypto PrivateKey PublicKey) (calls : LedgerCall → Prop) :
    LedgerOp → Prop
  | .finishBind input p _ =>
      Named c calls (makeStreamId c p input.provider input.agent) p ∧
        isData (sanitizeCaptureValue input.runtime) = true
  | _ => True

theorem uses_bindSession {calls : LedgerCall → Prop} {input : BindSessionInput}
    (h : calls (.bindSession input)) : (bindSession c input).Uses (Admitted c calls) := by
  simp only [bindSession, Prog.perform_bind, Prog.await_bind]
  refine Prog.uses_lift_bind fun _ _ => ⟨trivial, fun _ => ?_⟩
  refine Prog.uses_lift_bind fun keyFingerprint hkey => ⟨trivial, fun now => ⟨trivial, fun _ => ?_⟩⟩
  refine Prog.uses_lift_bind fun _ hproof => ⟨trivial, fun _ => ?_⟩
  refine Prog.uses_lift_bind fun _ _ => ⟨trivial, fun _ => ?_⟩
  refine Prog.uses_lift_bind fun authorizationContext _ => ⟨trivial, fun _ => ⟨?_, fun _ => ?_⟩⟩
  · exact ⟨⟨input, keyFingerprint, h, hkey, rfl, rfl⟩, isData_of_proof hproof⟩
  · exact Prog.uses_lift

theorem uses_body {calls : LedgerCall → Prop} (call : LedgerCall) (h : calls call) :
    (call.body c).Uses (Admitted c calls) := by
  cases call with
  | bindSession input => exact (uses_bindSession h).map
  | appendStreamEvent p s eventType payload =>
      exact ⟨trivial, fun _ => Prog.Uses.map Prog.uses_lift⟩
  | closeSession p s session => exact ⟨trivial, fun _ => Prog.Uses.map Prog.uses_lift⟩
  | rotatePrincipalKey p publicKeyJwk keyVersion =>
      refine Prog.Uses.map ⟨trivial, fun _ => ?_⟩
      refine Prog.uses_lift_bind fun _ _ => Prog.uses_lift_bind fun _ _ => ⟨trivial, fun _ => ?_⟩
      exact Prog.uses_lift

/-- What every step of every call keeps. -/
theorem Whole.exec {calls : LedgerCall → Prop} (hapart : StreamsApart c calls) {l l' : Ledger}
    {o : LedgerOp} {x : LedgerAns o} (h : Whole c calls l) (ho : Admitted c calls o)
    (hx : Exec c l o x l') : Whole c calls l' ∧ Grows l l' := by
  cases hx with
  | yield => exact ⟨h, .refl l⟩
  | clock now => exact ⟨h, .refl l⟩
  | consumeNonce challengeNonce =>
      have hsame : SameCore l (consumeNonce c challengeNonce l).2 := by
        rw [consumeNonce]
        split <;> exact ⟨fun _ => rfl, rfl, rfl, rfl⟩
      exact ⟨h.sameCore hsame, hsame.grows⟩
  | resolve query x => exact ⟨h, .refl l⟩
  | upsertPrincipal now publicKeyJwk keyFingerprint authorizationContext =>
      exact h.upsertPrincipal now publicKeyJwk keyFingerprint authorizationContext
  | finishBind times input p authorizationContext =>
      obtain ⟨hwhole, hgrows, -⟩ := h.finishBind hapart times authorizationContext ho.1 ho.2
      exact ⟨hwhole, hgrows⟩
  | append times p s eventType payload => exact h.appendStreamEvent times p s eventType payload
  | close times p s session => exact h.closeSession times p s session
  | startRotation p publicKeyJwk => exact h.startRotation p publicKeyJwk
  | finishRotation times p keyFingerprint keyVersion =>
      exact h.finishRotation times p keyFingerprint keyVersion

theorem whole_empty (calls : LedgerCall → Prop) : Whole c calls Ledger.empty where
  sound :=
    ⟨(fun _ _ h => nomatch h), (fun _ _ h => nomatch h), (fun _ _ h => nomatch h),
      (fun _ _ h => nomatch h), (fun _ _ h => nomatch h)⟩
  upToDate _ _ h := nomatch h

theorem whole_of_reachable {calls : LedgerCall → Prop} (hapart : StreamsApart c calls) {ι : Type}
    [DecidableEq ι] {cfg : LedgerConfig ι} (h : Reachable (ledgerSystem c calls ι) cfg) :
    Whole c calls cfg.shared := by
  refine Service.invariant (P := Admitted c calls) uses_body ?_ ?_ ?_ h
  · rintro l rfl
    exact whole_empty calls
  · intro l o x l' ho hl hx
    exact (hl.exec hapart ho hx).1
  · intro l l' _ henv
    exact henv.elim


/-- A completed binding left its principal with a checkpoint, and it has kept it. -/
theorem bound_of_bound {calls : LedgerCall → Prop} (hapart : StreamsApart c calls) {ι : Type}
    [DecidableEq ι] {cfg : LedgerConfig ι} (h : Reachable (ledgerSystem c calls ι) cfg) {i : ι}
    {input : BindSessionInput} {b : SessionBinding}
    (hi : cfg.calls i = some ⟨.bindSession input, .ret (.binding b)⟩) :
    Bound cfg.shared b.principalId := by
  obtain ⟨hcall, keyFingerprint, now, authorizationContext, hkey, hproof, -, e, he, -, hmade, -⟩ :=
    exists_binding h hi
  have hwhole : Whole c calls e.state :=
    ((Service.log_monotone (R := fun _ _ => True) (fun _ hr => whole_of_reachable hapart hr)
      (fun _ _ _ _ _ => trivial) (fun _ _ _ _ _ _ => trivial) (fun _ _ _ _ => trivial) h).2 e he).2
  obtain ⟨l, hexec, hgrows⟩ := (Service.log_pairwise (P := Admitted c calls) uses_body
    (fun _ hr => whole_of_reachable hapart hr) Grows.refl (fun _ _ _ => Grows.trans)
    (fun _ _ _ _ ho hl hx => (hl.exec hapart ho hx).2) (fun _ _ _ henv => henv.elim) h).2 e he
  rw [hmade] at hexec
  change Exec c _ _ _ _ at hexec
  generalize hx : (Except.ok b : Except ServerError SessionBinding) = x at hexec
  cases hexec with
  | finishBind times =>
      obtain ⟨-, -, hbound⟩ := hwhole.finishBind hapart times authorizationContext
        ⟨input, keyFingerprint, hcall, hkey, rfl, rfl⟩ (isData_of_proof hproof)
      obtain ⟨hid, hbound⟩ := hbound b hx.symm
      rw [hid]
      exact hgrows.bound hbound

/-- One session of one key: only one stream can be named. -/
theorem collisionFree_firstInput :
    CollisionFree sampleCrypto (NamesStream sampleCrypto (· = .bindSession firstInput)) := by
  rintro t t' ⟨input, keyFingerprint, hinput, hkey, rfl⟩
    ⟨input', keyFingerprint', hinput', hkey', rfl⟩ -
  obtain rfl := LedgerCall.bindSession.inj hinput
  obtain rfl := LedgerCall.bindSession.inj hinput'
  rw [hkey] at hkey'
  rw [Except.ok.inj hkey']

end Principal
