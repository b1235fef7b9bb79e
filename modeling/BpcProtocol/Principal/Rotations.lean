import BpcProtocol.Principal.Atomicity

set_option autoImplicit false

/-! # Overlapping rotations

A rotation writes its key, and after an await the fingerprint of that key. In between others write
theirs: once all are done the record is consistent exactly if the rotation that began last and the one
that ended last are to keys of one fingerprint. -/

namespace Principal

open Fallible Pair Async Transition
open Js (lit)

variable {PrivateKey PublicKey : Type} {c : Wire.WebCrypto PrivateKey PublicKey}

/-! ## What an operation writes -/

section Ledgers

variable {l l' : Ledger} {p : JsString}

/-- The key of a record, and its fingerprint. -/
def keyPair (r : PrincipalRecord) : JsonWebKey × JsString :=
  (r.publicKeyJwk, r.keyFingerprint)

variable (c) in
/-- What an operation makes of the key of `p` and its fingerprint. -/
def writtenBy (p : JsString) (w : Option (JsonWebKey × JsString)) :
    LedgerOp → Option (JsonWebKey × JsString)
  | .upsertPrincipal jwk keyFingerprint _ =>
      if principalIdFromFingerprint c keyFingerprint = p then some (w.getD (jwk, keyFingerprint))
      else w
  | .startRotation q jwk => if q = p then w.map fun w => (jwk, w.2) else w
  | .finishRotation q keyFingerprint _ =>
      if q = p then w.map fun w => (w.1, keyFingerprint) else w
  | _ => w

theorem keyPair_offCheckpoints : OffCheckpoints keyPair :=
  fun _ _ _ _ => rfl

theorem keyPair_finishBind (hkeyed : Keyed l) (times : Times) (input : BindSessionInput)
    (q : JsString) (authorizationContext : Fields) :
    (finishBind c times input q authorizationContext l).2.seen keyPair p = l.seen keyPair p := by
  have hjoin : ∀ r, keyPair (joinSession input.providerSessionId authorizationContext r) = keyPair r :=
    fun _ => rfl
  rw [seen_finishBind keyPair_offCheckpoints hkeyed, joinStream, seen_updatePrincipal hjoin]
  exact seen_upsertStream (fun _ _ => rfl) _ _ _ _

theorem keyPair_closeSession (hkeyed : Keyed l) (times : Times) (q s session : JsString) :
    (closeSession c times q s session l).2.seen keyPair p = l.seen keyPair p := by
  rw [closeSession]
  cases hr : mustPrincipal l q with
  | error e => rfl
  | ok r =>
      rw [mustPrincipal_ok] at hr
      rw [orThrow_ok]
      have hkept : RecordsKept l (l.setPrincipal q
          { r with activeSessionIds := r.activeSessionIds.filter (· ≠ session) }) :=
        recordsKept_setPrincipal hr rfl rfl
      rw [seen_appendStreamEvent keyPair_offCheckpoints (hkept.keyed hkeyed)]
      exact seen_of_kept hr rfl

theorem keyPair_startRotation (q : JsString) (jwk : JsonWebKey) :
    (startRotation q jwk l).2.seen keyPair p =
      if q = p then (l.seen keyPair p).map fun w => (jwk, w.2) else l.seen keyPair p := by
  cases hr : l.principals q with
  | none =>
      rw [startRotation_of_none hr]
      split
      · next hq => rw [← hq, seen_of_none hr, Option.map_none]
      · rfl
  | some r =>
      rw [startRotation_of_some hr, seen_setPrincipal]
      split
      · next hq =>
          rw [← hq, seen_of_some hr]
          rfl
      · rfl

theorem keyPair_finishRotation (hkeyed : Keyed l) (times : Times) (q keyFingerprint : JsString)
    (keyVersion : Option JsNumber) :
    (finishRotation c times q keyFingerprint keyVersion l).2.seen keyPair p =
      if q = p then (l.seen keyPair p).map fun w => (w.1, keyFingerprint) else l.seen keyPair p := by
  rw [finishRotation]
  cases hr : mustPrincipal l q with
  | error e =>
      have hnone := mustPrincipal_error hr
      split
      · next hq =>
          rw [← hq, seen_of_none hnone, Option.map_none]
          exact seen_of_none hnone
      · rfl
  | ok r =>
      rw [mustPrincipal_ok] at hr
      rw [orThrow_ok]
      refine (seen_appendCheckpoint keyPair_offCheckpoints hkeyed hr ?_ _).trans ?_
      · rfl
      · split
        · next hq =>
            rw [← hq, seen_of_some hr]
            rfl
        · rfl

theorem keyPair_upsertPrincipal (now : JsNumber) (jwk : JsonWebKey) (keyFingerprint : JsString)
    (authorizationContext : Fields) :
    (upsertPrincipal c now jwk keyFingerprint authorizationContext l).seen keyPair p =
      if principalIdFromFingerprint c keyFingerprint = p then
        some ((l.seen keyPair p).getD (jwk, keyFingerprint))
      else l.seen keyPair p := by
  cases hr : l.principals (principalIdFromFingerprint c keyFingerprint) with
  | some r =>
      rw [upsertPrincipal, hr, Option.elim]
      split
      · next hq => rw [← hq, seen_of_some hr, Option.getD_some]
      · rfl
  | none =>
      rw [upsertPrincipal, hr, Option.elim]
      split
      · next hq =>
          subst hq
          rw [seen_of_none hr, Option.getD_none]
          exact congrArg (Option.map keyPair)
            (Function.update_self (principalIdFromFingerprint c keyFingerprint) _ l.principals)
      · next hq =>
          exact congrArg (Option.map keyPair) (Function.update_of_ne (Ne.symm hq) _ l.principals)

theorem exec_written {o : LedgerOp} {x : LedgerAns o} (hkeyed : Keyed l) (hx : Exec c l o x l')
    (p : JsString) : l'.seen keyPair p = writtenBy c p (l.seen keyPair p) o := by
  cases hx with
  | yield => rfl
  | clock now => rfl
  | resolve query x => rfl
  | consumeNonce challengeNonce =>
      rw [Ledger.seen, consumeNonce_principals]
      rfl
  | upsertPrincipal now jwk keyFingerprint authorizationContext =>
      exact keyPair_upsertPrincipal now jwk keyFingerprint authorizationContext
  | finishBind times input q authorizationContext =>
      exact keyPair_finishBind hkeyed times input q authorizationContext
  | append times q s eventType payload =>
      exact seen_appendStreamEvent keyPair_offCheckpoints hkeyed times q s eventType payload
  | close times q s session => exact keyPair_closeSession hkeyed times q s session
  | startRotation q jwk => exact keyPair_startRotation q jwk
  | finishRotation times q keyFingerprint keyVersion =>
      exact keyPair_finishRotation hkeyed times q keyFingerprint keyVersion

end Ledgers

/-! ## What a run has written -/

section Runs

variable {calls : LedgerCall → Prop} {ι : Type} {p : JsString}

/-- The calls that have written a key of `p`, with the keys. -/
def begun (p : JsString) (log : List (Entry ι LedgerOp LedgerAns Ledger)) :
    List (ι × JsonWebKey) :=
  log.filterMap fun e => match e.made with
    | ⟨.startRotation q jwk, .ok _⟩ => if q = p then some (e.call, jwk) else none
    | _ => none

/-- The calls that have written a fingerprint of `p`, with the fingerprints. -/
def ended (p : JsString) (log : List (Entry ι LedgerOp LedgerAns Ledger)) : List (ι × JsString) :=
  log.filterMap fun e => match e.made with
    | ⟨.finishRotation q keyFingerprint _, _⟩ =>
        if q = p then some (e.call, keyFingerprint) else none
    | _ => none

variable (c) in
/-- The record of `p` is what the log says. -/
structure WrittenAs (p : JsString) (log : List (Entry ι LedgerOp LedgerAns Ledger)) (l : Ledger) :
    Prop where
  key : ∀ a ∈ (begun p log).getLast?, ∃ w, l.seen keyPair p = some w ∧ w.1 = a.2
  keyFingerprint : ∀ a ∈ (ended p log).getLast?, ∀ w, l.seen keyPair p = some w → w.2 = a.2
  first : begun p log = [] → ended p log = [] ∧
    ∀ w, l.seen keyPair p = some w → computeFingerprint c w.1 = .ok w.2

/-- What a call writes belongs together, and a rotation ends after it has begun. -/
def WritesOf (c : Wire.WebCrypto PrivateKey PublicKey) (call : LedgerCall)
    (made : List (Made LedgerOp LedgerAns)) : LedgerOp → Prop
  | .upsertPrincipal jwk keyFingerprint _ => computeFingerprint c jwk = .ok keyFingerprint
  | .startRotation p jwk => ∃ keyVersion, call = .rotatePrincipalKey p jwk keyVersion
  | .finishRotation p keyFingerprint keyVersion =>
      ∃ jwk, call = .rotatePrincipalKey p jwk keyVersion ∧
        computeFingerprint c jwk = .ok keyFingerprint ∧ ⟨.startRotation p jwk, .ok ()⟩ ∈ made
  | _ => True

theorem writesOf_body (call : LedgerCall) : (call.body c).UsesAfter (WritesOf c call) [] := by
  cases call with
  | bindSession input =>
      refine Prog.UsesAfter.map ?_
      simp only [bindSession, Prog.perform_bind, Prog.await_bind]
      refine Prog.UsesAfter.lift_bind fun _ _ => ⟨trivial, fun _ => ?_⟩
      refine Prog.UsesAfter.lift_bind fun _ hkey => ⟨trivial, fun _ => ⟨trivial, fun _ => ?_⟩⟩
      refine Prog.UsesAfter.lift_bind fun _ _ => ⟨trivial, fun _ => ?_⟩
      refine Prog.UsesAfter.lift_bind fun _ _ => ⟨trivial, fun _ => ?_⟩
      refine Prog.UsesAfter.lift_bind fun _ _ => ⟨hkey, fun _ => ⟨trivial, fun _ => ?_⟩⟩
      exact Prog.usesAfter_lift
  | appendStreamEvent p s eventType payload =>
      exact ⟨trivial, fun _ => Prog.UsesAfter.map Prog.usesAfter_lift⟩
  | closeSession p s session => exact ⟨trivial, fun _ => Prog.UsesAfter.map Prog.usesAfter_lift⟩
  | rotatePrincipalKey p jwk keyVersion =>
      refine Prog.UsesAfter.map ⟨⟨keyVersion, rfl⟩, fun started => ?_⟩
      refine Prog.UsesAfter.lift_bind fun _ hstarted => Prog.UsesAfter.lift_bind fun _ hkey => ?_
      subst hstarted
      exact ⟨⟨jwk, rfl, hkey, List.mem_cons_self⟩, fun _ => Prog.usesAfter_lift⟩

theorem begun_concat (p : JsString) (log : List (Entry ι LedgerOp LedgerAns Ledger))
    (e : Entry ι LedgerOp LedgerAns Ledger) : begun p (log ++ [e]) = begun p log ++ begun p [e] :=
  List.filterMap_append

theorem ended_concat (p : JsString) (log : List (Entry ι LedgerOp LedgerAns Ledger))
    (e : Entry ι LedgerOp LedgerAns Ledger) : ended p (log ++ [e]) = ended p log ++ ended p [e] :=
  List.filterMap_append

/-- A step of which neither list tells, and that leaves the record as it is. -/
theorem WrittenAs.silent {log : List (Entry ι LedgerOp LedgerAns Ledger)} {l l' : Ledger}
    {e : Entry ι LedgerOp LedgerAns Ledger} (h : WrittenAs c p log l) (hbegun : begun p [e] = [])
    (hended : ended p [e] = []) (hsame : l'.seen keyPair p = l.seen keyPair p) :
    WrittenAs c p (log ++ [e]) l' := by
  refine ⟨?_, ?_, ?_⟩
  · rw [begun_concat, hbegun, List.append_nil, hsame]
    exact h.key
  · rw [ended_concat, hended, List.append_nil, hsame]
    exact h.keyFingerprint
  · rw [begun_concat, hbegun, ended_concat, hended, List.append_nil, List.append_nil, hsame]
    exact h.first

theorem WrittenAs.present {log : List (Entry ι LedgerOp LedgerAns Ledger)} {l : Ledger}
    (h : WrittenAs c p log l) (hbegun : begun p log ≠ []) : ∃ w, l.seen keyPair p = some w := by
  obtain ⟨w, hw, -⟩ := h.key _ (List.getLast?_eq_getLast_of_ne_nil hbegun)
  exact ⟨w, hw⟩

/-- A record that was not there gets a key with its own fingerprint. -/
theorem WrittenAs.registered {log : List (Entry ι LedgerOp LedgerAns Ledger)} {l l' : Ledger}
    {e : Entry ι LedgerOp LedgerAns Ledger} (h : WrittenAs c p log l) (hbegun : begun p [e] = [])
    (hended : ended p [e] = []) (hnone : l.seen keyPair p = none)
    (hkey : ∀ w, l'.seen keyPair p = some w → computeFingerprint c w.1 = .ok w.2) :
    WrittenAs c p (log ++ [e]) l' := by
  have hfresh : begun p log = [] := by
    by_contra hne
    obtain ⟨w, hw⟩ := h.present hne
    rw [hnone] at hw
    cases hw
  have hbegun' : begun p (log ++ [e]) = [] := by
    rw [begun_concat, hfresh, hbegun, List.append_nil]
  have hended' : ended p (log ++ [e]) = [] := by
    rw [ended_concat, (h.first hfresh).1, hended, List.append_nil]
  refine ⟨?_, ?_, fun _ => ⟨hended', hkey⟩⟩
  · rw [hbegun']
    simp
  · rw [hended']
    simp

/-- A rotation of a principal that there is begins. -/
theorem WrittenAs.begins {log : List (Entry ι LedgerOp LedgerAns Ledger)} {l l' : Ledger}
    {e : Entry ι LedgerOp LedgerAns Ledger} {i : ι} {jwk : JsonWebKey} {w : JsonWebKey × JsString}
    (h : WrittenAs c p log l) (hbegun : begun p [e] = [(i, jwk)]) (hended : ended p [e] = [])
    (hw : l.seen keyPair p = some w) (hw' : l'.seen keyPair p = some (jwk, w.2)) :
    WrittenAs c p (log ++ [e]) l' := by
  refine ⟨?_, ?_, fun hnil => ?_⟩
  · rw [begun_concat, hbegun, List.getLast?_concat, hw']
    intro a ha
    cases ha
    exact ⟨_, rfl, rfl⟩
  · rw [ended_concat, hended, List.append_nil]
    intro a ha w' hsome
    rw [hw'] at hsome
    cases hsome
    exact h.keyFingerprint a ha w hw
  · rw [begun_concat, hbegun] at hnil
    simp at hnil

/-- A rotation ends. -/
theorem WrittenAs.ends {log : List (Entry ι LedgerOp LedgerAns Ledger)} {l l' : Ledger}
    {e : Entry ι LedgerOp LedgerAns Ledger} {i : ι} {keyFingerprint : JsString}
    (h : WrittenAs c p log l) (hbegun : begun p [e] = []) (hended : ended p [e] = [(i, keyFingerprint)])
    (hhas : begun p log ≠ [])
    (hw : l'.seen keyPair p = (l.seen keyPair p).map fun w => (w.1, keyFingerprint)) :
    WrittenAs c p (log ++ [e]) l' := by
  refine ⟨?_, ?_, fun hnil => ?_⟩
  · rw [begun_concat, hbegun, List.append_nil]
    intro a ha
    obtain ⟨w, hsome, hkey⟩ := h.key a ha
    exact ⟨(w.1, keyFingerprint), by rw [hw, hsome]; rfl, hkey⟩
  · rw [ended_concat, hended, List.getLast?_concat]
    intro a ha w hsome
    cases ha
    rw [hw] at hsome
    obtain ⟨w₀, -, rfl⟩ := Option.map_eq_some_iff.mp hsome
    rfl
  · rw [begun_concat, hbegun, List.append_nil] at hnil
    exact absurd hnil hhas

theorem WrittenAs.concat {log : List (Entry ι LedgerOp LedgerAns Ledger)} {l l' : Ledger}
    {i : ι} {o : LedgerOp} {x : LedgerAns o} (h : WrittenAs c p log l) (hkeyed : Keyed l)
    (hx : Exec c l o x l')
    (hkey : ∀ jwk keyFingerprint answer, o = .upsertPrincipal jwk keyFingerprint answer →
      computeFingerprint c jwk = .ok keyFingerprint)
    (hbegun : ∀ keyFingerprint keyVersion, o = .finishRotation p keyFingerprint keyVersion →
      begun p log ≠ []) :
    WrittenAs c p (log ++ [⟨i, ⟨o, x⟩, l⟩]) l' := by
  have hwritten := exec_written hkeyed hx p
  cases hx with
  | yield => exact h.silent rfl rfl hwritten
  | clock now => exact h.silent rfl rfl hwritten
  | resolve query x => exact h.silent rfl rfl hwritten
  | consumeNonce challengeNonce => exact h.silent rfl rfl hwritten
  | finishBind times input q authorizationContext => exact h.silent rfl rfl hwritten
  | append times q s eventType payload => exact h.silent rfl rfl hwritten
  | close times q s session => exact h.silent rfl rfl hwritten
  | upsertPrincipal now jwk keyFingerprint authorizationContext =>
      cases hw : l.seen keyPair p with
      | some w =>
          refine h.silent rfl rfl ?_
          rw [hwritten, hw, writtenBy]
          split <;> rfl
      | none =>
          refine h.registered rfl rfl hw fun w hw' => ?_
          rw [hwritten, hw, writtenBy] at hw'
          split at hw'
          · cases hw'
            exact hkey jwk keyFingerprint authorizationContext rfl
          · cases hw'
  | startRotation q jwk =>
      by_cases hq : q = p
      · subst hq
        cases hr : l.principals q with
        | none =>
            rw [startRotation_of_none hr]
            exact h.silent rfl rfl rfl
        | some r =>
            have hw : l.seen keyPair q = some (keyPair r) := seen_of_some hr
            rw [hw, writtenBy, if_pos rfl] at hwritten
            have hbegins : begun q [⟨i, ⟨.startRotation q jwk, (startRotation q jwk l).1⟩, l⟩] =
                [(i, jwk)] := by
              rw [startRotation_of_some hr, begun]
              simp
            exact h.begins hbegins rfl hw hwritten
      · rw [writtenBy, if_neg hq] at hwritten
        refine h.silent ?_ rfl hwritten
        rw [begun]
        cases (startRotation q jwk l).1 with
        | error e => rfl
        | ok u => simp [hq]
  | finishRotation times q keyFingerprint keyVersion =>
      by_cases hq : q = p
      · subst hq
        rw [writtenBy, if_pos rfl] at hwritten
        refine h.ends (i := i) rfl ?_ (hbegun keyFingerprint keyVersion rfl) hwritten
        rw [ended]
        simp
      · rw [writtenBy, if_neg hq] at hwritten
        refine h.silent rfl ?_ hwritten
        rw [ended]
        simp [hq]

/-! ## Consistent records -/

variable [DecidableEq ι] {cfg : LedgerConfig ι}

/-- A rotation that has begun is in the log of its call. -/
theorem begun_of_mem {log : List (Entry ι LedgerOp LedgerAns Ledger)} {i : ι} {jwk : JsonWebKey}
    (h : ⟨.startRotation p jwk, .ok ()⟩ ∈ ownTrace i log) : (i, jwk) ∈ begun p log := by
  obtain ⟨e, he, hcall, hmade⟩ := exists_entry h
  refine List.mem_filterMap.mpr ⟨e, he, ?_⟩
  rw [hmade, hcall]
  exact if_pos rfl

theorem writtenAs_of_reachable (h : Reachable (ledgerSystem c calls ι) cfg) (p : JsString) :
    WrittenAs c p cfg.log cfg.shared := by
  refine Reachable.invariant (I := fun cfg : LedgerConfig ι => WrittenAs c p cfg.log cfg.shared)
    ?_ ?_ h
  · rintro cfg ⟨hinit, -, hlog⟩
    rw [show cfg.shared = Ledger.empty from hinit, hlog]
    refine ⟨by simp [begun], by simp [ended], fun _ => ⟨rfl, fun w hw => ?_⟩⟩
    cases hw
  · rintro cfg cfg' hreach hwritten hstep
    have hreach' := hreach.next hstep
    cases hstep with
    | start i r hadm hi => exact hwritten
    | env s hs => exact hs.elim
    | exec i r o k x s hi hx =>
        obtain ⟨call, -, -, -, l₁, l₂, hsplit, hwrites⟩ := Service.usesAfter_of_call
          (fun call _ => writesOf_body call) hreach' (List.mem_append_right _ List.mem_cons_self)
        refine hwritten.concat (keyed_of_reachable hreach) hx ?_ ?_
        · rintro jwk keyFingerprint answer rfl
          exact hwrites
        · rintro keyFingerprint keyVersion rfl
          obtain ⟨jwk, -, -, hmem⟩ := hwrites
          have hown : ⟨.startRotation p jwk, .ok ()⟩ ∈ ownTrace i cfg.log := by
            have hall : ⟨.startRotation p jwk, .ok ()⟩ ∈ ownTrace i (cfg.log ++
                [⟨i, ⟨.finishRotation p keyFingerprint keyVersion, x⟩, cfg.shared⟩]) := by
              rw [hsplit]
              exact List.mem_append_left _ hmem
            rw [ownTrace_append, ownTrace_singleton, if_pos rfl] at hall
            simpa using hall
          exact List.ne_nil_of_mem (begun_of_mem hown)

/-- The record of `p` has the fingerprint of its key. -/
def Consistent (c : Wire.WebCrypto PrivateKey PublicKey) (l : Ledger) (p : JsString) : Prop :=
  ∀ r, l.principals p = some r → computeFingerprint c r.publicKeyJwk = .ok r.keyFingerprint

/-- No rotation of `p` is under way. -/
def RotationsDone (cfg : LedgerConfig ι) (p : JsString) : Prop :=
  ∀ i jwk keyVersion o k, cfg.calls i ≠ some ⟨.rotatePrincipalKey p jwk keyVersion, .await o k⟩

/-- The rotation of `p` that began last and the one that ended last are to keys of one fingerprint. -/
def LastAgree (c : Wire.WebCrypto PrivateKey PublicKey) (cfg : LedgerConfig ι) (p : JsString) : Prop :=
  ∀ i jwk, (i, jwk) ∈ (begun p cfg.log).getLast? → ∀ j keyFingerprint,
    (j, keyFingerprint) ∈ (ended p cfg.log).getLast? → ∀ jwk' keyVersion q,
      cfg.calls j = some ⟨.rotatePrincipalKey p jwk' keyVersion, q⟩ →
        computeFingerprint c jwk = computeFingerprint c jwk'

theorem call_of_begun (h : Reachable (ledgerSystem c calls ι) cfg) {i : ι} {jwk : JsonWebKey}
    (hmem : (i, jwk) ∈ begun p cfg.log) :
    ∃ keyVersion q, calls (.rotatePrincipalKey p jwk keyVersion) ∧
      cfg.calls i = some ⟨.rotatePrincipalKey p jwk keyVersion, q⟩ ∧
        ⟨.startRotation p jwk, .ok ()⟩ ∈ ownTrace i cfg.log := by
  obtain ⟨e, he, hbegins⟩ := List.mem_filterMap.mp hmem
  obtain ⟨call, q, hadm, hcall, _, _, _, hwrites⟩ :=
    Service.usesAfter_of_call (fun call _ => writesOf_body call) h he
  have hown := mem_ownTrace he rfl
  split at hbegins
  · next q' jwk' u hmade =>
      split at hbegins
      · next hq =>
          cases hbegins
          rw [hmade] at hwrites hown
          subst hq
          obtain ⟨keyVersion, rfl⟩ := hwrites
          exact ⟨keyVersion, q, hadm, hcall, hown⟩
      · cases hbegins
  · cases hbegins

theorem call_of_ended (h : Reachable (ledgerSystem c calls ι) cfg) {j : ι} {keyFingerprint : JsString}
    (hmem : (j, keyFingerprint) ∈ ended p cfg.log) :
    ∃ jwk keyVersion q, cfg.calls j = some ⟨.rotatePrincipalKey p jwk keyVersion, q⟩ ∧
      computeFingerprint c jwk = .ok keyFingerprint := by
  obtain ⟨e, he, hends⟩ := List.mem_filterMap.mp hmem
  obtain ⟨call, q, -, hcall, _, _, _, hwrites⟩ :=
    Service.usesAfter_of_call (fun call _ => writesOf_body call) h he
  split at hends
  · next q' keyFingerprint' keyVersion x hmade =>
      split at hends
      · next hq =>
          cases hends
          rw [hmade] at hwrites
          subst hq
          obtain ⟨jwk, rfl, hkey, -⟩ := hwrites
          exact ⟨jwk, keyVersion, q, hcall, hkey⟩
      · cases hends
  · cases hends

/-- A rotation to a key that has a fingerprint, once it is done, has ended if it has begun. -/
theorem ends_of_trace {jwk : JsonWebKey} {keyVersion : Option JsNumber} {keyFingerprint : JsString}
    (hkey : computeFingerprint c jwk = .ok keyFingerprint) {es : List (Made LedgerOp LedgerAns)}
    {q : LedgerProg LedgerResult}
    (htrace : Trace ((LedgerCall.rotatePrincipalKey p jwk keyVersion).body c) es q)
    (hdone : ∀ o k, q ≠ .await o k) (hbegun : ⟨.startRotation p jwk, .ok ()⟩ ∈ es) :
    ∃ y, ⟨.finishRotation p keyFingerprint keyVersion, y⟩ ∈ es := by
  rw [rotation_goes_on hkey] at htrace
  cases htrace with
  | nil => cases hbegun
  | cons x hrest =>
      cases x with
      | error e =>
          obtain ⟨rfl, -⟩ := trace_fail.mp hrest
          simp at hbegun
      | ok u =>
          cases hrest with
          | nil => exact absurd rfl (hdone _ _)
          | cons y _ => exact ⟨y, List.mem_cons_of_mem _ List.mem_cons_self⟩

theorem ended_of_mem {log : List (Entry ι LedgerOp LedgerAns Ledger)} {i : ι}
    {keyFingerprint : JsString} {keyVersion : Option JsNumber} {y : Except ServerError PrincipalRecord}
    (h : ⟨.finishRotation p keyFingerprint keyVersion, y⟩ ∈ ownTrace i log) :
    (i, keyFingerprint) ∈ ended p log := by
  obtain ⟨e, he, hcall, hmade⟩ := exists_entry h
  refine List.mem_filterMap.mpr ⟨e, he, ?_⟩
  rw [hmade, hcall]
  exact if_pos rfl

/-- **When rotations leave a consistent record**: once all rotations of a principal, to keys that have
    fingerprints, are done, the record has the fingerprint of its key exactly if the rotation that
    began last and the one that ended last are to keys of one fingerprint. -/
theorem rotations_consistent_iff (h : Reachable (ledgerSystem c calls ι) cfg)
    (hvalid : ∀ jwk keyVersion, calls (.rotatePrincipalKey p jwk keyVersion) →
      ∃ keyFingerprint, computeFingerprint c jwk = .ok keyFingerprint)
    (hdone : RotationsDone cfg p) : Consistent c cfg.shared p ↔ LastAgree c cfg p := by
  have hwritten := writtenAs_of_reachable h p
  constructor
  · intro hconsistent i jwk hi j keyFingerprint hj jwk' keyVersion q hcall
    obtain ⟨w, hw, rfl⟩ := hwritten.key _ hi
    obtain rfl := hwritten.keyFingerprint _ hj w hw
    obtain ⟨r, hr, rfl⟩ := Option.map_eq_some_iff.mp hw
    obtain ⟨jwk'', keyVersion', q', hcall', hkey⟩ := call_of_ended h (List.mem_of_getLast? hj)
    rw [hcall] at hcall'
    cases hcall'
    exact (hconsistent r hr).trans hkey.symm
  · intro hagree r hr
    have hw : cfg.shared.seen keyPair p = some (keyPair r) := seen_of_some hr
    cases hlast : (begun p cfg.log).getLast? with
    | none => exact (hwritten.first (List.getLast?_eq_none_iff.mp hlast)).2 _ hw
    | some a =>
        obtain ⟨i, jwk⟩ := a
        obtain ⟨keyVersion, q, hadm, hcall, hbegun⟩ := call_of_begun h (List.mem_of_getLast? hlast)
        obtain ⟨keyFingerprint, hkey⟩ := hvalid jwk keyVersion hadm
        obtain ⟨-, htrace⟩ := (Service.trace_of_reachable h i).1 _ _ hcall
        have hover : ∀ o k, q ≠ .await o k := by
          rintro o k rfl
          exact hdone i jwk keyVersion o k hcall
        obtain ⟨y, hy⟩ := ends_of_trace hkey htrace hover hbegun
        have hne : ended p cfg.log ≠ [] := List.ne_nil_of_mem (ended_of_mem hy)
        obtain ⟨⟨j, keyFingerprint'⟩, hj⟩ : ∃ b, (ended p cfg.log).getLast? = some b :=
          ⟨_, List.getLast?_eq_getLast_of_ne_nil hne⟩
        obtain ⟨jwk', keyVersion', q', hcall', hkey'⟩ := call_of_ended h (List.mem_of_getLast? hj)
        have hsame := hagree i jwk hlast j keyFingerprint' hj jwk' keyVersion' q' hcall'
        obtain ⟨w, hw₁, hjwk⟩ := hwritten.key _ hlast
        rw [hw] at hw₁
        cases hw₁
        have hfingerprint : r.keyFingerprint = keyFingerprint' := hwritten.keyFingerprint _ hj _ hw
        have hpublic : r.publicKeyJwk = jwk := hjwk
        rw [hpublic, hfingerprint, hsame, hkey']

/-! ## Two rotations that overlap -/

/-- What is left of a rotation that has begun. -/
def toFinish (p keyFingerprint : JsString) (keyVersion : Option JsNumber) : LedgerProg LedgerResult :=
  .await (.finishRotation p keyFingerprint keyVersion) fun y => LedgerResult.rotated <$> Prog.lift y

theorem run_begins {i : ι} {jwk : JsonWebKey} {keyVersion : Option JsNumber}
    {keyFingerprint : JsString} {w : JsonWebKey × JsString}
    (h : Reachable (ledgerSystem c calls ι) cfg) (hi : cfg.calls i = none)
    (hadm : calls (.rotatePrincipalKey p jwk keyVersion))
    (hkey : computeFingerprint c jwk = .ok keyFingerprint)
    (hw : cfg.shared.seen keyPair p = some w) :
    ∃ cfg', Reachable (ledgerSystem c calls ι) cfg' ∧
      cfg'.shared.seen keyPair p = some (jwk, w.2) ∧
        cfg'.calls = Function.update cfg.calls i (some ⟨.rotatePrincipalKey p jwk keyVersion,
          toFinish p keyFingerprint keyVersion⟩) := by
  obtain ⟨r, hr, -⟩ := Option.map_eq_some_iff.mp hw
  have hexec : Exec c cfg.shared (.startRotation p jwk) _ _ := Exec.startRotation p jwk
  have hwritten := exec_written (keyed_of_reachable h) hexec p
  rw [hw, writtenBy, if_pos rfl] at hwritten
  rw [startRotation_of_some hr] at hexec hwritten
  have hrun := Service.run_first (S := ledgerService c calls) (i := i) hadm hi
    (rotation_goes_on hkey) hexec
  exact ⟨_, Run.reachable hrun h, hwritten, rfl⟩

theorem run_ends {i : ι} {call : LedgerCall} {keyVersion : Option JsNumber}
    {keyFingerprint : JsString} {w : JsonWebKey × JsString}
    (h : Reachable (ledgerSystem c calls ι) cfg)
    (hi : cfg.calls i = some ⟨call, toFinish p keyFingerprint keyVersion⟩)
    (hw : cfg.shared.seen keyPair p = some w) :
    ∃ cfg' q, Reachable (ledgerSystem c calls ι) cfg' ∧
      cfg'.shared.seen keyPair p = some (w.1, keyFingerprint) ∧ (∀ o k, q ≠ .await o k) ∧
        cfg'.calls = Function.update cfg.calls i (some ⟨call, q⟩) := by
  have hexec : Exec c cfg.shared (.finishRotation p keyFingerprint keyVersion) _ _ :=
    Exec.finishRotation ⟨.fin 0, .fin 0, .fin 0⟩ p keyFingerprint keyVersion
  have hwritten := exec_written (keyed_of_reachable h) hexec p
  rw [hw, writtenBy, if_pos rfl] at hwritten
  have hrun := Service.run_next (S := ledgerService c calls) hi hexec
  refine ⟨_, _, Run.reachable hrun h, hwritten, ?_, rfl⟩
  intro o k hq
  cases hanswer : (finishRotation c ⟨.fin 0, .fin 0, .fin 0⟩ p keyFingerprint keyVersion
      cfg.shared).1 with
  | error e =>
      rw [hanswer] at hq
      cases hq
  | ok r =>
      rw [hanswer] at hq
      cases hq

/-- Of two rotations that overlap, the one that began first ends last. -/
theorem exists_torn {i j : ι} {jwk jwk' : JsonWebKey} {keyFingerprint keyFingerprint' : JsString}
    {w : JsonWebKey × JsString} (h : Reachable (ledgerSystem c calls ι) cfg)
    (hi : cfg.calls i = none) (hj : cfg.calls j = none) (hij : i ≠ j)
    (hadm : calls (.rotatePrincipalKey p jwk none)) (hadm' : calls (.rotatePrincipalKey p jwk' none))
    (hkey : computeFingerprint c jwk = .ok keyFingerprint)
    (hkey' : computeFingerprint c jwk' = .ok keyFingerprint')
    (hw : cfg.shared.seen keyPair p = some w) (hdone : RotationsDone cfg p) :
    ∃ cfg', Reachable (ledgerSystem c calls ι) cfg' ∧ RotationsDone cfg' p ∧
      cfg'.shared.seen keyPair p = some (jwk', keyFingerprint) := by
  obtain ⟨cfg₁, h₁, hw₁, hcalls₁⟩ := run_begins h hi hadm hkey hw
  have hj₁ : cfg₁.calls j = none := by
    rw [hcalls₁, Function.update_of_ne hij.symm, hj]
  obtain ⟨cfg₂, h₂, hw₂, hcalls₂⟩ := run_begins h₁ hj₁ hadm' hkey' hw₁
  obtain ⟨cfg₃, q', h₃, hw₃, hq', hcalls₃⟩ := run_ends (i := j) h₂
    (by rw [hcalls₂, Function.update_self]) hw₂
  obtain ⟨cfg₄, q, h₄, hw₄, hq, hcalls₄⟩ := run_ends (i := i) h₃
    (by rw [hcalls₃, Function.update_of_ne hij, hcalls₂, Function.update_of_ne hij, hcalls₁,
      Function.update_self]) hw₃
  refine ⟨cfg₄, h₄, ?_, hw₄⟩
  intro n jwk₀ keyVersion o k hn
  rw [hcalls₄, hcalls₃, hcalls₂, hcalls₁] at hn
  by_cases hni : n = i
  · subst hni
    rw [Function.update_self] at hn
    cases hn
    exact hq o k rfl
  · rw [Function.update_of_ne hni] at hn
    by_cases hnj : n = j
    · subst hnj
      rw [Function.update_self] at hn
      cases hn
      exact hq' o k rfl
    · rw [Function.update_of_ne hnj, Function.update_of_ne hnj, Function.update_of_ne hni] at hn
      exact hdone n jwk₀ keyVersion o k hn

end Runs

section Sample

/-- One principal is rotated to its own key and to another. -/
def overlapping (call : LedgerCall) : Prop :=
  call = .bindSession firstInput ∨ call = .rotatePrincipalKey samplePrincipal firstKey none ∨
    call = .rotatePrincipalKey samplePrincipal secondKey none

theorem firstKey_fingerprint : computeFingerprint sampleCrypto firstKey = .ok firstFingerprint :=
  firstInput_proved.key

theorem overlapping_valid {jwk : JsonWebKey} {keyVersion : Option JsNumber}
    (h : overlapping (.rotatePrincipalKey samplePrincipal jwk keyVersion)) :
    ∃ keyFingerprint, computeFingerprint sampleCrypto jwk = .ok keyFingerprint := by
  rcases h with h | h | h
  · cases h
  · cases h
    exact ⟨_, firstKey_fingerprint⟩
  · cases h
    exact ⟨_, secondKey_fingerprint⟩

theorem firstBound_done : RotationsDone (firstBound overlapping) samplePrincipal := by
  intro n jwk keyVersion o k hn
  obtain ⟨b, -, -, hcall, -⟩ := firstBound_calls overlapping
  by_cases hzero : n = 0
  · subst hzero
    rw [hcall] at hn
    cases hn
  · rw [firstBound, Service.serve_of_ne hzero] at hn
    cases hn

/-- The rotation to the second key begins, the one back to the first key begins and ends, and then
    the other ends. -/
theorem exists_torn_sample : ∃ cfg, Reachable (ledgerSystem sampleCrypto overlapping ℕ) cfg ∧
    RotationsDone cfg samplePrincipal ∧
      cfg.shared.seen keyPair samplePrincipal = some (firstKey, secondFingerprint) := by
  obtain ⟨-, r, -, -, hr, -⟩ := firstBound_shared overlapping
  have hw : (firstBound overlapping).shared.seen keyPair samplePrincipal = some (keyPair r) := by
    rw [samplePrincipal]
    exact seen_of_some hr
  exact exists_torn (i := 1) (j := 2) (reachable_firstBound (.inl rfl)) rfl rfl (by decide)
    (.inr (.inr rfl)) (.inr (.inl rfl)) secondKey_fingerprint firstKey_fingerprint hw firstBound_done

theorem rotations_consistent_sample :
    ∃ cfg, Reachable (ledgerSystem sampleCrypto overlapping ℕ) cfg ∧
      (Consistent sampleCrypto cfg.shared samplePrincipal ↔
        LastAgree sampleCrypto cfg samplePrincipal) := by
  obtain ⟨cfg, h, hdone, -⟩ := exists_torn_sample
  exact ⟨cfg, h, rotations_consistent_iff h (fun _ _ => overlapping_valid) hdone⟩

/-- After these rotations the record has the first key and the fingerprint of the second. -/
theorem rotations_torn :
    ¬∀ (calls : LedgerCall → Prop) (cfg : LedgerConfig ℕ) (p : JsString),
      Reachable (ledgerSystem sampleCrypto calls ℕ) cfg →
        (∀ jwk keyVersion, calls (.rotatePrincipalKey p jwk keyVersion) →
          ∃ keyFingerprint, computeFingerprint sampleCrypto jwk = .ok keyFingerprint) →
            RotationsDone cfg p → Consistent sampleCrypto cfg.shared p := by
  intro hclaim
  obtain ⟨cfg, h, hdone, hw⟩ := exists_torn_sample
  obtain ⟨r, hr, hpair⟩ := Option.map_eq_some_iff.mp hw
  have hconsistent := hclaim overlapping cfg samplePrincipal h (fun _ _ => overlapping_valid) hdone r hr
  have hkey : r.publicKeyJwk = firstKey := congrArg Prod.fst hpair
  have hfingerprint : r.keyFingerprint = secondFingerprint := congrArg Prod.snd hpair
  rw [hkey, hfingerprint, firstKey_fingerprint] at hconsistent
  exact absurd (Except.ok.inj hconsistent) (by decide +kernel)

end Sample

end Principal
