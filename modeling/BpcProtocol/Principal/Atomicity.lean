import BpcProtocol.Lib.History
import BpcProtocol.Principal.Identity

set_option autoImplicit false

/-! # What a call that throws leaves behind

A call that is made alone, and throws. `appendStreamEvent` checks before it writes; `closeSession` and
`rotatePrincipalKey` write the record of the principal before what may still throw. -/

namespace Principal

open Fallible Pair Async
open Js (lit)
open Transition (Reachable)

variable {PrivateKey PublicKey : Type} {c : Wire.WebCrypto PrivateKey PublicKey} {l l' : Ledger}

/-- The principals, streams, events and checkpoints are as they were. -/
structure SameRecords (l l' : Ledger) : Prop where
  principals : l'.principals = l.principals
  streams : l'.streams = l.streams
  events : l'.events = l.events
  checkpoints : l'.checkpoints = l.checkpoints

theorem SameRecords.refl (l : Ledger) : SameRecords l l :=
  ⟨rfl, rfl, rfl, rfl⟩

variable (c) in
/-- If the call, made alone, throws, then the records are as they were. -/
def AtomicOn (l : Ledger) (call : LedgerCall) : Prop :=
  ∀ es e l', Trace (call.body c) es (.fail e) → Runs (Exec c) l es l' → SameRecords l l'

/-! ## Runs of a call that throws -/

theorem trace_lift_fail {α β : Type} {x : Except ServerError α} {f : α → β}
    {es : List (Made LedgerOp LedgerAns)} {e : ServerError} :
    Trace (f <$> (Prog.lift x : LedgerProg α)) es (.fail e) ↔ es = [] ∧ x = .error e := by
  cases x with
  | error e' => simp [Prog.lift, Functor.map, Prog.bind, trace_fail, eq_comm]
  | ok a => simp [Prog.lift, Functor.map, Prog.bind, trace_ret]

theorem runs_nil (h : Runs (Exec c) l [] l') : l' = l := by
  cases h
  rfl

theorem runs_singleton {o : LedgerOp} {x : LedgerAns o} :
    Runs (Exec c) l [⟨o, x⟩] l' ↔ Exec c l o x l' := by
  constructor
  · intro h
    cases h with
    | cons hexec hrest =>
        cases hrest
        exact hexec
  · intro h
    exact .cons h (.nil _)

/-- `appendStreamEvent` throws in one stretch. -/
theorem append_fails {p s : JsString} {eventType : PrincipalEventType} {payload : Fields}
    {es : List (Made LedgerOp LedgerAns)} {e : ServerError}
    (htrace : Trace ((LedgerCall.appendStreamEvent p s eventType payload).body c) es (.fail e))
    (hrun : Runs (Exec c) l es l') :
    ∃ times, appendStreamEvent c times p s eventType payload l = (.error e, l') := by
  cases htrace with
  | cons x hrest =>
      obtain ⟨rfl, hx⟩ := trace_lift_fail.mp hrest
      cases runs_singleton.mp hrun with
      | append times => exact ⟨times, Prod.ext hx rfl⟩

/-- `closeSession` throws in one stretch. -/
theorem close_fails {p s session : JsString} {e : ServerError} :
    (∃ es, Trace ((LedgerCall.closeSession p s session).body c) es (.fail e) ∧
      Runs (Exec c) l es l') ↔
      ∃ times, closeSession c times p s session l = (.error e, l') := by
  constructor
  · rintro ⟨es, htrace, hrun⟩
    cases htrace with
    | cons x hrest =>
        obtain ⟨rfl, hx⟩ := trace_lift_fail.mp hrest
        cases runs_singleton.mp hrun with
        | close times => exact ⟨times, Prod.ext hx rfl⟩
  · rintro ⟨times, h⟩
    refine ⟨[⟨.close p s session, .error e⟩], .cons _ (trace_lift_fail.mpr ⟨rfl, rfl⟩), ?_⟩
    have hexec : Exec c l (.close p s session) _ _ := Exec.close times p s session
    rw [h] at hexec
    exact runs_singleton.mpr hexec

theorem startRotation_of_none {p : JsString} {jwk : JsonWebKey} (h : l.principals p = none) :
    startRotation p jwk l = (.error (.error ("Unknown principal: " ++ Js.message p)), l) := by
  rw [startRotation, mustPrincipal, h]
  rfl

theorem startRotation_of_some {p : JsString} {jwk : JsonWebKey} {r : PrincipalRecord}
    (h : l.principals p = some r) :
    startRotation p jwk l = (.ok (), l.setPrincipal p { r with publicKeyJwk := jwk }) := by
  rw [startRotation, mustPrincipal, h]
  rfl

/-- A principal that there is stays: the end of a rotation does not throw. -/
theorem finishRotation_ok (times : Times) {p : JsString} (keyFingerprint : JsString)
    (v : Option JsNumber) {r : PrincipalRecord} (h : l.principals p = some r) :
    ∃ r', (finishRotation c times p keyFingerprint v l).1 = .ok r' := by
  rw [finishRotation, mustPrincipal_ok.mpr h, orThrow_ok]
  generalize ({ r with keyFingerprint, keyVersion := v.getD r.keyVersion.incr,
                       updatedAt := times.record } : PrincipalRecord) = rotated
  by_cases hp : p = rotated.principalId
  · obtain ⟨r', hr', -⟩ := appendCheckpoint_self (c := c) times.checkpoint rotated l
    exact ⟨r', mustPrincipal_ok.mpr (hp ▸ hr')⟩
  · have hkept : (appendCheckpoint c times.checkpoint rotated l).principals p = some r :=
      (Ledger.setPrincipal_of_ne _ _ hp).trans h
    exact ⟨r, mustPrincipal_ok.mpr hkept⟩

/-- A rotation of a key that has a fingerprint, after its first stretch. -/
theorem rotation_goes_on {p jwk keyFingerprint} {v : Option JsNumber}
    (hkey : computeFingerprint c jwk = .ok keyFingerprint) :
    (LedgerCall.rotatePrincipalKey p jwk v).body c = .await (.startRotation p jwk) fun x =>
      Prog.bind (fun _ => .await (.finishRotation p keyFingerprint v) fun y =>
        LedgerResult.rotated <$> Prog.lift y) (Prog.lift x) := by
  refine congrArg (Prog.await _) (funext fun x => ?_)
  cases x with
  | error e => rfl
  | ok u =>
      simp only [Prog.lift, hkey, Prog.bind]
      rfl

/-- A rotation of a key that has none. -/
theorem rotation_stops {p jwk} {v : Option JsNumber} {e : ServerError}
    (hkey : computeFingerprint c jwk = .error e) :
    (LedgerCall.rotatePrincipalKey p jwk v).body c = .await (.startRotation p jwk) fun x =>
      Prog.bind (fun _ => .fail e) (Prog.lift x) := by
  refine congrArg (Prog.await _) (funext fun x => ?_)
  cases x with
  | error e => rfl
  | ok u =>
      simp only [Prog.lift, hkey, Prog.bind]
      rfl

/-- The first stretch of a rotation writes the key of a principal that there is. -/
theorem rotation_starts {p : JsString} {jwk : JsonWebKey} {rest : Unit → LedgerProg LedgerResult}
    {es : List (Made LedgerOp LedgerAns)} {e : ServerError}
    (htrace : Trace (.await (.startRotation p jwk) fun x => Prog.bind rest (Prog.lift x)) es (.fail e))
    (hrun : Runs (Exec c) l es l') :
    (l.principals p = none ∧ l' = l) ∨
      ∃ r es', l.principals p = some r ∧ Trace (rest ()) es' (.fail e) ∧
        Runs (Exec c) (l.setPrincipal p { r with publicKeyJwk := jwk }) es' l' := by
  cases htrace with
  | cons x hrest =>
      cases hrun with
      | cons hexec hrun =>
          cases hexec with
          | startRotation =>
              cases hp : l.principals p with
              | none =>
                  rw [startRotation_of_none hp] at hrest hrun
                  obtain ⟨rfl, -⟩ := trace_fail.mp hrest
                  exact .inl ⟨rfl, runs_nil hrun⟩
              | some r =>
                  rw [startRotation_of_some hp] at hrest hrun
                  exact .inr ⟨r, _, rfl, hrest, hrun⟩

/-- `rotatePrincipalKey` throws before it writes, for a principal that is not there, and after it has
    written, for a key that has no fingerprint. -/
theorem rotate_fails {p : JsString} {jwk : JsonWebKey} {v : Option JsNumber} {e : ServerError}
    {es : List (Made LedgerOp LedgerAns)}
    (htrace : Trace ((LedgerCall.rotatePrincipalKey p jwk v).body c) es (.fail e))
    (hrun : Runs (Exec c) l es l') :
    (l.principals p = none ∧ l' = l) ∨
      ∃ r, l.principals p = some r ∧ computeFingerprint c jwk = .error e ∧
        l' = l.setPrincipal p { r with publicKeyJwk := jwk } := by
  cases hkey : computeFingerprint c jwk with
  | error e' =>
      rw [rotation_stops hkey] at htrace
      rcases rotation_starts htrace hrun with h | ⟨r, es', hr, hrest, hrun⟩
      · exact .inl h
      · obtain ⟨rfl, hfail⟩ := trace_fail.mp hrest
        cases hfail
        exact .inr ⟨r, hr, rfl, runs_nil hrun⟩
  | ok keyFingerprint =>
      rw [rotation_goes_on hkey] at htrace
      rcases rotation_starts htrace hrun with h | ⟨r, es', -, hrest, hrun⟩
      · exact .inl h
      · cases hrest with
        | cons y hrest =>
            obtain ⟨rfl, hy⟩ := trace_lift_fail.mp hrest
            cases runs_singleton.mp hrun with
            | finishRotation times =>
                obtain ⟨r', hr'⟩ := finishRotation_ok (c := c) times keyFingerprint v
                  (Ledger.setPrincipal_self l p { r with publicKeyJwk := jwk })
                cases hr'.symm.trans hy

/-- The run of a rotation to a key that has no fingerprint. -/
theorem exists_rotate_fails {p : JsString} {jwk : JsonWebKey} {v : Option JsNumber} {e : ServerError}
    {r : PrincipalRecord} (hr : l.principals p = some r) (hkey : computeFingerprint c jwk = .error e) :
    ∃ es, Trace ((LedgerCall.rotatePrincipalKey p jwk v).body c) es (.fail e) ∧
      Runs (Exec c) l es (l.setPrincipal p { r with publicKeyJwk := jwk }) := by
  refine ⟨[⟨.startRotation p jwk, .ok ()⟩], ?_, ?_⟩
  · rw [rotation_stops hkey]
    exact .cons _ (.nil _)
  · have hexec : Exec c l (.startRotation p jwk) _ _ := Exec.startRotation p jwk
    rw [startRotation_of_some hr] at hexec
    exact runs_singleton.mpr hexec

/-! ## What the stretches leave -/

/-- `appendStreamEvent` writes only once nothing can throw. -/
theorem appendStreamEvent_error {times : Times} {p s : JsString} {eventType : PrincipalEventType}
    {payload : Fields} {e : ServerError}
    (h : appendStreamEvent c times p s eventType payload l = (.error e, l')) : l' = l := by
  unfold appendStreamEvent at h
  cases hp : mustPrincipal l p with
  | error e' =>
      rw [hp] at h
      cases h
      rfl
  | ok r =>
      rw [hp, orThrow_ok] at h
      cases hs : ownStream l p s with
      | error e' =>
          rw [hs] at h
          cases h
          rfl
      | ok stream =>
          rw [hs, orThrow_ok] at h
          cases hevent : nextEvent c times.event stream eventType payload {} with
          | error e' =>
              rw [hevent] at h
              cases h
              rfl
          | ok event =>
              rw [hevent] at h
              cases h

/-- `closeSession` throws for a principal that is not there, before it writes, and for a stream that
    is not its own, after the session has left. -/
theorem closeSession_error {times : Times} {p s session : JsString} {e : ServerError} :
    closeSession c times p s session l = (.error e, l') ↔
      (mustPrincipal l p = .error e ∧ l' = l) ∨
        ∃ r, mustPrincipal l p = .ok r ∧ ownStream l p s = .error e ∧
          l' = l.setPrincipal p
            { r with activeSessionIds := r.activeSessionIds.filter (· ≠ session) } := by
  unfold closeSession
  cases hp : mustPrincipal l p with
  | error e' => simp [orThrow, eq_comm]
  | ok r =>
      rw [orThrow_ok]
      generalize hleft : l.setPrincipal p
        { r with activeSessionIds := r.activeSessionIds.filter (· ≠ session) } = left
      have hrecord : ∃ r', mustPrincipal left p = .ok r' := by
        rw [← hleft]
        exact ⟨_, mustPrincipal_ok.mpr (Ledger.setPrincipal_self l p _)⟩
      have hstreams : ownStream left p s = ownStream l p s := by
        rw [← hleft]
        rfl
      obtain ⟨r', hr'⟩ := hrecord
      unfold appendStreamEvent
      dsimp only
      rw [hr', orThrow_ok, hstreams]
      cases hs : ownStream l p s with
      | error e' =>
          constructor
          · intro h
            cases h
            exact .inr ⟨r, rfl, rfl, hleft.symm⟩
          · rintro (⟨h, -⟩ | ⟨r₁, hr₁, he, rfl⟩)
            · cases h
            · cases hr₁
              cases he
              rw [hleft]
              rfl
      | ok stream =>
          have hdata : isData (.object (sanitizeFields
              [(lit "providerSessionId", .string session)])) = true := rfl
          obtain ⟨event, hevent⟩ := nextEvent_of_data (c := c) times.event stream .sessionClosed {}
            hdata
          simp [hevent, orThrow, Except.map]

theorem ownStream_error {p s : JsString} :
    (∃ e, ownStream l p s = .error e) ↔
      ∀ stream, l.streams s = some stream → stream.principalId ≠ p := by
  unfold ownStream
  cases l.streams s with
  | none => simp
  | some stream =>
      by_cases howner : stream.principalId = p
      · simp [Option.filter_some, howner]
      · simp [Option.filter_some, howner]

/-- To write a record is to leave the records as they are if it is the record that there is. -/
theorem sameRecords_setPrincipal {p : JsString} {r r' : PrincipalRecord}
    (hr : l.principals p = some r) : SameRecords l (l.setPrincipal p r') ↔ r' = r := by
  constructor
  · intro h
    have hp := congrFun h.principals p
    rw [Ledger.setPrincipal_self, hr] at hp
    exact Option.some.inj hp
  · rintro rfl
    exact ⟨Function.update_eq_self_iff.mpr hr.symm, rfl, rfl, rfl⟩

/-! ## Atomicity -/

theorem append_atomic (p s : JsString) (eventType : PrincipalEventType) (payload : Fields) :
    AtomicOn c l (.appendStreamEvent p s eventType payload) := by
  intro es e l' htrace hrun
  obtain ⟨times, h⟩ := append_fails htrace hrun
  obtain rfl := appendStreamEvent_error h
  exact .refl l'

theorem close_atomic_iff (p s session : JsString) :
    AtomicOn c l (.closeSession p s session) ↔
      ∀ r, l.principals p = some r →
        (∃ stream, l.streams s = some stream ∧ stream.principalId = p) ∨
          session ∉ r.activeSessionIds := by
  have hkept : ∀ r : PrincipalRecord,
      ({ r with activeSessionIds := r.activeSessionIds.filter (· ≠ session) } : PrincipalRecord) = r ↔
        session ∉ r.activeSessionIds := by
    intro r
    constructor
    · intro h hmem
      have hactive : r.activeSessionIds.filter (· ≠ session) = r.activeSessionIds :=
        congrArg PrincipalRecord.activeSessionIds h
      exact absurd (List.filter_eq_self.mp hactive session hmem) (by simp)
    · intro h
      have hactive : r.activeSessionIds.filter (· ≠ session) = r.activeSessionIds := by
        refine List.filter_eq_self.mpr fun id hid => ?_
        simpa using ne_of_mem_of_not_mem hid h
      rw [hactive]
  constructor
  · intro hatomic r hr
    by_contra hcon
    push Not at hcon
    obtain ⟨e, he⟩ := ownStream_error.mpr hcon.1
    obtain ⟨es, htrace, hrun⟩ := close_fails.mpr ⟨⟨.fin 0, .fin 0, .fin 0⟩,
      closeSession_error.mpr (.inr ⟨r, mustPrincipal_ok.mpr hr, he, rfl⟩)⟩
    have hsame := hatomic es e _ htrace hrun
    rw [sameRecords_setPrincipal hr, hkept] at hsame
    exact hsame hcon.2
  · intro h es e l' htrace hrun
    obtain ⟨times, hclose⟩ := close_fails.mp ⟨es, htrace, hrun⟩
    rcases closeSession_error.mp hclose with ⟨-, rfl⟩ | ⟨r, hr, hs, rfl⟩
    · exact .refl l'
    · rw [mustPrincipal_ok] at hr
      rw [sameRecords_setPrincipal hr, hkept]
      rcases h r hr with ⟨stream, hstream, howner⟩ | hinactive
      · exact absurd howner (ownStream_error.mp ⟨e, hs⟩ stream hstream)
      · exact hinactive

theorem rotate_atomic_iff (p : JsString) (jwk : JsonWebKey) (v : Option JsNumber) :
    AtomicOn c l (.rotatePrincipalKey p jwk v) ↔
      ∀ r, l.principals p = some r →
        (∃ keyFingerprint, computeFingerprint c jwk = .ok keyFingerprint) ∨ r.publicKeyJwk = jwk := by
  have hkept : ∀ r : PrincipalRecord, ({ r with publicKeyJwk := jwk } : PrincipalRecord) = r ↔
      r.publicKeyJwk = jwk := by
    intro r
    constructor
    · intro h
      rw [← h]
    · rintro rfl
      rfl
  constructor
  · intro hatomic r hr
    cases hkey : computeFingerprint c jwk with
    | ok keyFingerprint => exact .inl ⟨keyFingerprint, rfl⟩
    | error e =>
        obtain ⟨es, htrace, hrun⟩ := exists_rotate_fails (v := v) hr hkey
        have hsame := hatomic es e _ htrace hrun
        rw [sameRecords_setPrincipal hr, hkept] at hsame
        exact .inr hsame
  · intro h es e l' htrace hrun
    rcases rotate_fails htrace hrun with ⟨-, rfl⟩ | ⟨r, hr, hkey, rfl⟩
    · exact .refl l'
    · rw [sameRecords_setPrincipal hr, hkept]
      rcases h r hr with ⟨keyFingerprint, hok⟩ | hsame
      · cases hok.symm.trans hkey
      · exact hsame

variable (c l) in
/-- **Which calls are atomic on error**: every `appendStreamEvent`; a `closeSession` of a stream of the
    principal, or of a session that is not active; a `rotatePrincipalKey` to a key that has a
    fingerprint, or that is the stored one. -/
theorem atomicOnError :
    (∀ p s eventType payload, AtomicOn c l (.appendStreamEvent p s eventType payload)) ∧
      (∀ p s session, AtomicOn c l (.closeSession p s session) ↔
        ∀ r, l.principals p = some r →
          (∃ stream, l.streams s = some stream ∧ stream.principalId = p) ∨
            session ∉ r.activeSessionIds) ∧
      ∀ p jwk v, AtomicOn c l (.rotatePrincipalKey p jwk v) ↔
        ∀ r, l.principals p = some r →
          (∃ keyFingerprint, computeFingerprint c jwk = .ok keyFingerprint) ∨ r.publicKeyJwk = jwk :=
  ⟨append_atomic, close_atomic_iff, rotate_atomic_iff⟩

/-- A key of another kind. -/
def rsaKey : JsonWebKey :=
  ⟨.object [(lit "kty", .string (lit "RSA"))], rfl⟩

/-- A rotation to such a key throws, and has replaced the key of the principal. -/
theorem rotation_not_atomic :
    ¬∀ cfg, Reachable (ledgerSystem sampleCrypto (fun _ => True) ℕ) cfg →
      ∀ call : LedgerCall, (∀ input, call ≠ .bindSession input) →
        AtomicOn sampleCrypto cfg.shared call := by
  intro hclaim
  obtain ⟨-, r, -, -, hr, hjwk, -⟩ := firstBound_shared fun _ => True
  have hatomic := hclaim _ (reachable_firstBound trivial)
    (.rotatePrincipalKey (principalIdFromFingerprint sampleCrypto firstFingerprint) rsaKey none)
    (by simp)
  rcases rotate_atomic_iff _ _ _ |>.mp hatomic r hr with ⟨keyFingerprint, hok⟩ | hsame
  · have herror : (computeFingerprint sampleCrypto rsaKey).isOk = false := rfl
    rw [hok] at herror
    cases herror
  · have hkey := congrArg (fun jwk : JsonWebKey => stringOf (jwk.get "kty")) (hjwk.symm.trans hsame)
    exact absurd hkey (by decide +kernel)

end Principal
