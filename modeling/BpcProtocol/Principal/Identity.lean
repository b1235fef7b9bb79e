import BpcProtocol.Principal.Context

set_option autoImplicit false

/-! # Rotated keys

A binding is of the principal that the fingerprint of its key derives; a rotation writes another key
into a principal's record, which no binding reads. So a rotation is honoured exactly where it goes
back to a key that derives the principal, from one that does not. -/

namespace Principal

open Fallible Pair Async Transition
open Js (lit)

variable {PrivateKey PublicKey : Type} {c : Wire.WebCrypto PrivateKey PublicKey}

/-- The principal that a key derives. -/
def Derives (c : Wire.WebCrypto PrivateKey PublicKey) (publicKeyJwk : JsonWebKey) (p : JsString) :
    Prop :=
  ∃ keyFingerprint, computeFingerprint c publicKeyJwk = .ok keyFingerprint ∧
    principalIdFromFingerprint c keyFingerprint = p

section Runs

variable {calls : LedgerCall → Prop} {ι : Type} [DecidableEq ι] {cfg cfg' : LedgerConfig ι}

/-- A completed rotation of `p` from one key to another. -/
def Rotated (cfg : LedgerConfig ι) (i : ι) (p : JsString) (old new : JsonWebKey) : Prop :=
  (∃ keyVersion r, cfg.calls i = some ⟨.rotatePrincipalKey p new keyVersion, .ret (.rotated r)⟩) ∧
    ∃ e ∈ cfg.log, ∃ r, e.call = i ∧ e.made = ⟨.startRotation p new, .ok ()⟩ ∧
      e.state.principals p = some r ∧ r.publicKeyJwk = old

/-- A binding is of `p`, and puts an event at the end of a stream and a checkpoint behind those of
    `p`. -/
def Extends (c : Wire.WebCrypto PrivateKey PublicKey) (cfg : LedgerConfig ι) (j : ι)
    (b : SessionBinding) (p : JsString) : Prop :=
  b.principalId = p ∧ ∃ e ∈ cfg.log, e.call = j ∧ ∃ times input answer t,
    finishBind c times input p answer e.state = (.ok b, t) ∧
      (∃ checkpoint, t.checkpoints p = e.state.checkpoints p ++ [checkpoint] ∧
        checkpoint.checkpointHash = b.checkpointHash) ∧
      ∃ event, event ∈ (t.events event.streamId).getLast? ∧ event.chainHash = b.bindingHash

/-- Between two moments of a run every binding respects the rotations that were completed at the
    first. -/
def Honoured (c : Wire.WebCrypto PrivateKey PublicKey) (cfg cfg' : LedgerConfig ι) : Prop :=
  ∀ i p old new, Rotated cfg i p old new → ∀ j input b, cfg.calls j = none →
    cfg'.calls j = some ⟨.bindSession input, .ret (.binding b)⟩ →
      (input.publicKeyJwk = old → b.principalId ≠ p) ∧
        (input.publicKeyJwk = new → Extends c cfg' j b p)

/-- Of the keys that the bindings are proved with, those from which the rotations went do not derive
    the principal, and those to which they went do. -/
def RotationsReturn (c : Wire.WebCrypto PrivateKey PublicKey) (cfg cfg' : LedgerConfig ι) : Prop :=
  ∀ i p old new, Rotated cfg i p old new → ∀ j input b, cfg.calls j = none →
    cfg'.calls j = some ⟨.bindSession input, .ret (.binding b)⟩ →
      (input.publicKeyJwk = old → ¬Derives c old p) ∧ (input.publicKeyJwk = new → Derives c new p)

/-- The stretch that ends a binding leaves a checkpoint behind the others. -/
theorem finishBind_checkpoint {l t : Ledger} (hkeyed : Keyed l) {times : Times}
    {input : BindSessionInput} {p : JsString} {answer : Fields} {b : SessionBinding}
    (h : finishBind c times input p answer l = (.ok b, t)) :
    ∃ checkpoint, t.checkpoints p = l.checkpoints p ++ [checkpoint] ∧
      checkpoint.checkpointHash = b.checkpointHash := by
  obtain ⟨r, stream, event, hr, -, -, rfl, rfl⟩ := finishBind_ok h
  obtain ⟨r₀, hr₀, hid, -⟩ := joinStream_records input p answer hr
  obtain rfl : r.principalId = p := hid.trans (hkeyed p r₀ hr₀)
  have hjoined : (joinStream c input r.principalId answer l).checkpoints = l.checkpoints := by
    have hupdate : ∀ (m : Ledger) (q : JsString) (f : PrincipalRecord → PrincipalRecord),
        (m.updatePrincipal q f).checkpoints = m.checkpoints := by
      intro m q f
      rw [Ledger.updatePrincipal]
      cases m.principals q <;> rfl
    rw [joinStream, hupdate, upsertStream]
    cases l.streams (makeStreamId c r.principalId input.provider input.agent) with
    | some existing => rfl
    | none => exact hupdate _ _ _
  refine ⟨_, ?_, rfl⟩
  rw [← hjoined]
  exact Function.update_self _ _ _

/-- A binding is of the principal that its key derives, and extends it. -/
theorem extends_of_binding (h : Reachable (ledgerSystem c calls ι) cfg) {j : ι}
    {input : BindSessionInput} {b : SessionBinding}
    (hj : cfg.calls j = some ⟨.bindSession input, .ret (.binding b)⟩) :
    Derives c input.publicKeyJwk b.principalId ∧ Extends c cfg j b b.principalId := by
  obtain ⟨-, keyFingerprint, now, answer, hkey, -, -, e, he, hej, -, times, t, hfinish⟩ :=
    exists_binding h hj
  have hkeyed := keyed_of_mem_log h he
  obtain ⟨hid, -⟩ := finishBind_record hkeyed hfinish
  rw [← hid] at hfinish
  obtain ⟨event, hlast, -, hhash, -⟩ := finishBind_event hfinish
  exact ⟨⟨keyFingerprint, hkey, hid.symm⟩, rfl, e, he, hej, times, input, answer, t, hfinish,
    finishBind_checkpoint hkeyed hfinish, event, hlast, hhash⟩

/-- A key derives one principal. -/
theorem Derives.unique {publicKeyJwk : JsonWebKey} {p q : JsString} (hp : Derives c publicKeyJwk p)
    (hq : Derives c publicKeyJwk q) : p = q := by
  obtain ⟨keyFingerprint, hkey, rfl⟩ := hp
  obtain ⟨keyFingerprint', hkey', rfl⟩ := hq
  rw [hkey] at hkey'
  rw [Except.ok.inj hkey']

/-- Rotations are honoured exactly where they return to a key that derives the principal. -/
theorem rotation_honoured_iff (h : Reachable (ledgerSystem c calls ι) cfg)
    (hrun : Run (ledgerSystem c calls ι) cfg cfg') :
    Honoured c cfg cfg' ↔ RotationsReturn c cfg cfg' := by
  have hreach := Run.reachable hrun h
  constructor
  · intro hhonoured i p old new hrotated j input b hnone hj
    obtain ⟨hold, hnew⟩ := hhonoured i p old new hrotated j input b hnone hj
    obtain ⟨hderives, -⟩ := extends_of_binding hreach hj
    refine ⟨?_, ?_⟩
    · rintro rfl hp
      exact hold rfl (hderives.unique hp)
    · rintro rfl
      rw [← (hnew rfl).1]
      exact hderives
  · intro hreturn i p old new hrotated j input b hnone hj
    obtain ⟨hold, hnew⟩ := hreturn i p old new hrotated j input b hnone hj
    obtain ⟨hderives, hextends⟩ := extends_of_binding hreach hj
    refine ⟨?_, ?_⟩
    · rintro rfl rfl
      exact hold rfl hderives
    · rintro rfl
      obtain rfl := hderives.unique (hnew rfl)
      exact hextends

end Runs

/-! ## The old key after a rotation -/

theorem serve_rotation (now : JsNumber)
    (resolver : AuthorizationResolutionInput → Except ServerError Fields)
    (calls : LedgerCall → Prop) {cfg : LedgerConfig ℕ} (i : ℕ) {p keyFingerprint : JsString}
    {new : JsonWebKey} {r : PrincipalRecord} (hkeyed : Keyed cfg.shared)
    (hr : cfg.shared.principals p = some r)
    (hkey : computeFingerprint c new = .ok keyFingerprint) :
    Rotated ((ledgerService c calls).serve (ledgerRun c now resolver) cfg i
        (.rotatePrincipalKey p new none)) i p r.publicKeyJwk new ∧
      (∃ r', ((ledgerService c calls).serve (ledgerRun c now resolver) cfg i
        (.rotatePrincipalKey p new none)).shared.principals p = some r') ∧
      ((ledgerService c calls).serve (ledgerRun c now resolver) cfg i
        (.rotatePrincipalKey p new none)).shared.consumedProofNonces =
          cfg.shared.consumedProofNonces := by
  obtain rfl : r.principalId = p := hkeyed p r hr
  let started := cfg.shared.setPrincipal r.principalId { r with publicKeyJwk := new }
  have hstart : startRotation r.principalId new cfg.shared = (.ok (), started) := by
    rw [startRotation, mustPrincipal_ok.mpr hr]
    rfl
  have hstarted : started.principals r.principalId = some { r with publicKeyJwk := new } :=
    Ledger.setPrincipal_self _ _ _
  obtain ⟨r', hr', -⟩ := appendCheckpoint_self (c := c) now
    { r with publicKeyJwk := new, keyFingerprint, keyVersion := r.keyVersion.incr, updatedAt := now }
    started
  obtain ⟨done, hfinish, hdone, hconsumed⟩ : ∃ done,
      finishRotation c ⟨now, now, now⟩ r.principalId keyFingerprint none started = (.ok r', done) ∧
        done.principals r.principalId = some r' ∧ done.consumedProofNonces = cfg.shared.consumedProofNonces := by
    refine ⟨_, ?_, hr', rfl⟩
    rw [finishRotation, mustPrincipal_ok.mpr hstarted, orThrow_ok]
    exact Prod.ext (mustPrincipal_ok.mpr hr') rfl
  have hdrive : ((ledgerService c calls).body (.rotatePrincipalKey r.principalId new none)).drive
      (ledgerRun c now resolver) i cfg.shared cfg.log =
      (.ret (.rotated r'), done, cfg.log ++ [⟨i, ⟨.startRotation r.principalId new, .ok ()⟩, cfg.shared⟩] ++
        [⟨i, ⟨.finishRotation r.principalId keyFingerprint none, .ok r'⟩, started⟩]) := by
    refine Prog.drive_bind ?_
    simp only [rotatePrincipalKey, Prog.await_bind, Prog.drive, ledgerRun, hstart, hkey, Prog.lift,
      Prog.ret_bind, hfinish]
  refine ⟨⟨⟨none, r', ?_⟩, ⟨i, ⟨.startRotation r.principalId new, .ok ()⟩, cfg.shared⟩, ?_, r, rfl, rfl, hr, rfl⟩,
    ⟨r', ?_⟩, ?_⟩
  · rw [Service.serve, hdrive]
    exact Function.update_self _ _ _
  · rw [Service.serve, hdrive]
    simp
  · rw [Service.serve, hdrive]
    exact hdone
  · rw [Service.serve, hdrive]
    exact hconsumed

section Sample

def samplePrincipal : JsString :=
  principalIdFromFingerprint sampleCrypto firstFingerprint

/-- The first principal is rotated to the second key. -/
def sampleRotated : LedgerConfig ℕ :=
  (ledgerService sampleCrypto fun _ => True).serve (ledgerRun sampleCrypto sampleNow grantAll)
    (firstBound fun _ => True) 1 (.rotatePrincipalKey samplePrincipal secondKey none)

/-- Then a session is bound with the first key again. -/
def sampleRebound : LedgerConfig ℕ :=
  (ledgerService sampleCrypto fun _ => True).serve (ledgerRun sampleCrypto sampleNow grantAll)
    sampleRotated 2 (.bindSession secondInput)

theorem reachable_sampleRotated :
    Reachable (ledgerSystem sampleCrypto (fun _ => True) ℕ) sampleRotated :=
  Run.reachable (Service.run_serve (exec_ledgerRun sampleCrypto sampleNow grantAll) trivial rfl)
    (reachable_firstBound trivial)

theorem run_sampleRebound :
    Run (ledgerSystem sampleCrypto (fun _ => True) ℕ) sampleRotated sampleRebound :=
  Service.run_serve (exec_ledgerRun sampleCrypto sampleNow grantAll) trivial rfl

theorem sampleRotated_spec : Rotated sampleRotated 1 samplePrincipal firstKey secondKey ∧
    (∃ r, sampleRotated.shared.principals samplePrincipal = some r) ∧
    sampleRotated.shared.consumedProofNonces
      (sha256hex sampleCrypto secondInput.proof.challengeNonce) = false := by
  obtain ⟨-, r, -, -, hr, hjwk, -, hfresh⟩ := firstBound_shared fun _ => True
  obtain ⟨hrotated, hprincipal, hconsumed⟩ := serve_rotation sampleNow grantAll
    (fun _ => True) 1
    (keyed_of_reachable (reachable_firstBound trivial)) hr secondKey_fingerprint
  rw [hjwk] at hrotated
  exact ⟨hrotated, hprincipal, (congrFun hconsumed _).trans hfresh⟩

theorem rotation_honoured_iff_sample :
    Honoured sampleCrypto sampleRotated sampleRebound ↔
      RotationsReturn sampleCrypto sampleRotated sampleRebound :=
  rotation_honoured_iff reachable_sampleRotated run_sampleRebound

/-- After the rotation to the second key has completed, a session proved with the first one is bound
    to the principal. -/
theorem old_key_accepted : ∃ b,
    Reachable (ledgerSystem sampleCrypto (fun _ => True) ℕ) sampleRotated ∧
      Run (ledgerSystem sampleCrypto (fun _ => True) ℕ) sampleRotated sampleRebound ∧
      Rotated sampleRotated 1 samplePrincipal firstKey secondKey ∧ sampleRotated.calls 2 = none ∧
      sampleRebound.calls 2 = some ⟨.bindSession secondInput, .ret (.binding b)⟩ ∧
      secondInput.publicKeyJwk = firstKey ∧ b.principalId = samplePrincipal ∧
      ¬Honoured sampleCrypto sampleRotated sampleRebound := by
  obtain ⟨hrotated, ⟨r, hr⟩, hfresh⟩ := sampleRotated_spec
  have hresolve : grantAll (resolution secondInput
      (principalIdFromFingerprint sampleCrypto firstFingerprint) firstFingerprint) = .ok [] := rfl
  obtain ⟨b, l', hfinish, hcall, -⟩ := serve_bindSession (i := 2) secondInput_proved hfresh hresolve
  have hkeyed : Keyed (registered sampleCrypto sampleNow secondInput firstFingerprint []
      sampleRotated.shared) := keyed_registered (keyed_of_reachable reachable_sampleRotated)
  obtain ⟨hid, -⟩ := finishBind_record hkeyed hfinish
  refine ⟨b, reachable_sampleRotated, run_sampleRebound, hrotated, rfl, hcall, rfl, hid, ?_⟩
  intro hhonoured
  exact (hhonoured 1 samplePrincipal firstKey secondKey hrotated 2 secondInput b rfl hcall).1 rfl hid

end Sample

end Principal
