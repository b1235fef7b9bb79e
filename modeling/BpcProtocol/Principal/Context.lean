import BpcProtocol.Lib.Tracking
import BpcProtocol.Principal.Acceptance

set_option autoImplicit false

/-! # Authorization contexts

A principal's context is kept from one binding to the next: a binding overlays it with what the
resolver answers to its own call. So every field of a context comes from an answer to some binding of
that principal, not necessarily to the latest. -/

namespace Principal

open Fallible Pair Async Transition
open Js (lit)

variable {PrivateKey PublicKey : Type} {c : Wire.WebCrypto PrivateKey PublicKey}

/-! ## Fields -/

theorem mem_setField {fields : Fields} {k : JsString} {v : JsValue} {f : JsString × JsValue}
    (h : f ∈ Js.setField fields k v) : f ∈ fields ∨ f = (k, v) := by
  rw [Js.setField] at h
  split at h
  · obtain ⟨g, hg, rfl⟩ := List.mem_map.mp h
    split
    · exact Or.inr rfl
    · exact Or.inl hg
  · rcases List.mem_append.mp h with h | h
    · exact Or.inl h
    · exact Or.inr (List.mem_singleton.mp h)

theorem mem_overlay {base update : Fields} {f : JsString × JsValue} (h : f ∈ overlay base update) :
    f ∈ base ∨ f ∈ update := by
  induction update generalizing base with
  | nil => exact Or.inl h
  | cons g rest ih =>
      rcases ih h with h | h
      · rcases mem_setField h with h | rfl
        · exact Or.inl h
        · exact Or.inr List.mem_cons_self
      · exact Or.inr (List.mem_cons_of_mem g h)

theorem mem_withAnswer {stored answer : Fields} {f : JsString × JsValue}
    (h : f ∈ withAnswer stored answer) : f ∈ stored ∨ f ∈ answer := by
  rw [withAnswer] at h
  split at h
  · exact Or.inl h
  · exact mem_overlay h

/-- Sanitizing leaves, under a sensitive key, the redaction and nothing else. -/
theorem mem_sanitizeFields {fields : Fields} {k : JsString} (hkey : k ≠ lit "__proto__")
    (hsensitive : sensitiveField k = true) {v : JsValue} (hv : (k, v) ∈ fields) (w : JsValue) :
    (k, w) ∈ sanitizeFields fields ↔ w = redacted := by
  have honly : ∀ (fields : Fields), (k, w) ∈ sanitizeFields fields → w = redacted := by
    intro fields
    induction fields with
    | nil => exact fun h => nomatch h
    | cons f rest ih =>
        obtain ⟨k', v'⟩ := f
        intro h
        rw [sanitizeFields] at h
        split at h
        · exact ih h
        · rcases List.mem_cons.mp h with h | h
          · obtain ⟨rfl, rfl⟩ := Prod.mk.inj h
            rw [if_pos hsensitive]
          · exact ih h
  refine ⟨honly fields, ?_⟩
  rintro rfl
  induction fields with
  | nil => exact nomatch hv
  | cons f rest ih =>
      obtain ⟨k', v'⟩ := f
      rw [sanitizeFields]
      rcases List.mem_cons.mp hv with h | h
      · obtain ⟨rfl, rfl⟩ := Prod.mk.inj h
        rw [if_neg hkey, if_pos hsensitive]
        exact List.mem_cons_self
      · split
        · exact ih h
        · exact List.mem_cons_of_mem _ (ih h)

/-! ## Where contexts come from -/

/-- A context that an operation carries was answered to the same call before. -/
def FollowsAnswer (c : Wire.WebCrypto PrivateKey PublicKey) (made : List (Made LedgerOp LedgerAns)) :
    LedgerOp → Prop
  | .upsertPrincipal _ keyFingerprint authorizationContext =>
      ∃ query, ⟨.resolve query, .ok authorizationContext⟩ ∈ made ∧
        query.principalId = principalIdFromFingerprint c keyFingerprint
  | .finishBind _ p authorizationContext =>
      ∃ query, ⟨.resolve query, .ok authorizationContext⟩ ∈ made ∧ query.principalId = p
  | _ => True

theorem usesAfter_bindSession (input : BindSessionInput) :
    (bindSession c input).UsesAfter (FollowsAnswer c) [] := by
  simp only [bindSession, Prog.perform_bind, Prog.await_bind]
  refine Prog.UsesAfter.lift_bind fun _ _ => ⟨trivial, fun _ => ?_⟩
  refine Prog.UsesAfter.lift_bind fun keyFingerprint _ => ⟨trivial, fun _ => ⟨trivial, fun _ => ?_⟩⟩
  refine Prog.UsesAfter.lift_bind fun _ _ => ⟨trivial, fun _ => ?_⟩
  refine Prog.UsesAfter.lift_bind fun _ _ => ⟨trivial, fun resolved => ?_⟩
  refine Prog.UsesAfter.lift_bind fun authorizationContext hresolved => ?_
  subst hresolved
  refine ⟨⟨_, List.mem_append_right _ List.mem_cons_self, rfl⟩, fun _ => ⟨?_, fun _ => ?_⟩⟩
  · exact ⟨_, List.mem_append_left _ (List.mem_append_right _ List.mem_cons_self), rfl⟩
  · exact Prog.usesAfter_lift

theorem usesAfter_body (call : LedgerCall) : (call.body c).UsesAfter (FollowsAnswer c) [] := by
  cases call with
  | bindSession input => exact (usesAfter_bindSession input).map
  | appendStreamEvent p s eventType payload =>
      exact ⟨trivial, fun _ => Prog.UsesAfter.map Prog.usesAfter_lift⟩
  | closeSession p s session => exact ⟨trivial, fun _ => Prog.UsesAfter.map Prog.usesAfter_lift⟩
  | rotatePrincipalKey p publicKeyJwk keyVersion =>
      refine Prog.UsesAfter.map ⟨trivial, fun _ => ?_⟩
      refine Prog.UsesAfter.lift_bind fun _ _ => Prog.UsesAfter.lift_bind fun _ _ => ?_
      exact ⟨trivial, fun _ => Prog.usesAfter_lift⟩

section Runs

variable {calls : LedgerCall → Prop} {ι : Type} [DecidableEq ι] {cfg : LedgerConfig ι}

/-- The resolver has granted a field to a principal. -/
def Granted (log : List (Entry ι LedgerOp LedgerAns Ledger)) (p : JsString)
    (f : JsString × JsValue) : Prop :=
  ∃ e ∈ log, ∃ query answer, e.made = ⟨.resolve query, .ok answer⟩ ∧ query.principalId = p ∧
    f ∈ answer

omit [DecidableEq ι] in
theorem Granted.append {log es : List (Entry ι LedgerOp LedgerAns Ledger)} {p : JsString}
    {f : JsString × JsValue} (h : Granted log p f) : Granted (log ++ es) p f := by
  obtain ⟨e, he, hgranted⟩ := h
  exact ⟨e, List.mem_append_left es he, hgranted⟩

/-- Every field of a principal's context has been granted to it. -/
def AllGranted (log : List (Entry ι LedgerOp LedgerAns Ledger)) (l : Ledger) : Prop :=
  ∀ p r, l.principals p = some r → ∀ f ∈ r.authorizationContext, Granted log p f

/-- The answers that a call has had are in the log. -/
theorem granted_of_mem {log : List (Entry ι LedgerOp LedgerAns Ledger)} {i : ι}
    {query : AuthorizationResolutionInput} {answer : Fields} {l₁ l₂ : List (Made LedgerOp LedgerAns)}
    {a : Made LedgerOp LedgerAns} (hsplit : ownTrace i log = l₁ ++ a :: l₂)
    (hmem : ⟨.resolve query, .ok answer⟩ ∈ l₁) {f : JsString × JsValue} (hf : f ∈ answer) :
    Granted log query.principalId f := by
  obtain ⟨e, he, -, hmade⟩ := exists_entry
    (show ⟨.resolve query, .ok answer⟩ ∈ ownTrace i log by
      rw [hsplit]
      exact List.mem_append_left _ hmem)
  exact ⟨e, he, query, answer, hmade, rfl, hf⟩

theorem granted_of_reachable (h : Reachable (ledgerSystem c calls ι) cfg) :
    AllGranted cfg.log cfg.shared ∧ ∀ e ∈ cfg.log, AllGranted cfg.log e.state := by
  refine Reachable.invariant (I := fun cfg : LedgerConfig ι =>
    AllGranted cfg.log cfg.shared ∧ ∀ e ∈ cfg.log, AllGranted cfg.log e.state) ?_ ?_ h
  · rintro cfg ⟨hinit, -, hlog⟩
    rw [show cfg.shared = Ledger.empty from hinit, hlog]
    exact ⟨(fun _ _ hr => nomatch hr), (fun _ he => nomatch he)⟩
  · rintro cfg cfg' hreach ⟨hshared, hstates⟩ hstep
    have hreach' := hreach.next hstep
    cases hstep with
    | start i r hadm hi => exact ⟨hshared, hstates⟩
    | env s hs => exact hs.elim
    | exec i r o k x s hi hx =>
        have hold : AllGranted (cfg.log ++ [⟨i, ⟨o, x⟩, cfg.shared⟩]) cfg.shared :=
          fun p r hr f hf => (hshared p r hr f hf).append
        obtain ⟨l₁, l₂, hsplit, hfollows⟩ := Service.usesAfter_of_reachable
          (fun call _ => usesAfter_body call) hreach' (List.mem_append_right _ List.mem_cons_self)
        refine ⟨fun p r' hr' f hf => ?_, fun e he => ?_⟩
        · obtain ⟨r, hr, -, hcontext⟩ | ⟨r, input, answer, rfl, hr, -, hcontext⟩ |
            ⟨_, keyFingerprint, answer, rfl, hp, -, hcontext⟩ :=
            Exec.record (keyed_of_reachable hreach) hx hr'
          · rw [hcontext] at hf
            exact hold p r hr f hf
          · rw [hcontext] at hf
            rcases mem_withAnswer hf with hf | hf
            · exact hold p r hr f hf
            · obtain ⟨query, hmem, rfl⟩ := hfollows
              exact granted_of_mem hsplit hmem hf
          · rw [hcontext] at hf
            obtain ⟨query, hmem, hquery⟩ := hfollows
            rw [hp, ← hquery]
            exact granted_of_mem hsplit hmem hf
        · rcases List.mem_append.mp he with he | he
          · exact fun p r hr f hf => (hstates e he p r hr f hf).append
          · rw [List.mem_singleton.mp he]
            exact hold

theorem nextEvent_fields {timestamp : JsNumber} {stream : PrincipalStreamRecord}
    {eventType : PrincipalEventType} {payload : Fields} {options : EventOptions}
    {event : PrincipalStreamEvent}
    (h : nextEvent c timestamp stream eventType payload options = .ok event) :
    event.streamId = stream.streamId ∧ event.eventType = eventType ∧
      event.payload = sanitizeFields payload := by
  simp only [nextEvent, bind_eq_ok] at h
  obtain ⟨payloadHash, -, hevent⟩ := h
  obtain rfl := Except.ok.inj hevent
  exact ⟨rfl, rfl, rfl⟩

/-- The event of a binding stands at the end of its stream, with the redaction for the context. -/
theorem finishBind_event {times : Times} {input : BindSessionInput} {p : JsString} {answer : Fields}
    {l t : Ledger} {b : SessionBinding} (h : finishBind c times input p answer l = (.ok b, t)) :
    ∃ event, event ∈ (t.events event.streamId).getLast? ∧ event.eventType = .sessionBound ∧
      event.chainHash = b.bindingHash ∧
      ∀ v, (lit "authorizationContext", v) ∈ event.payload ↔ v = redacted := by
  obtain ⟨r, stream, event, -, -, hevent, rfl, rfl⟩ := finishBind_ok h
  obtain ⟨hstream, htype, hpayload⟩ := nextEvent_fields hevent
  refine ⟨event, ?_, htype, rfl, fun v => ?_⟩
  · rw [hstream]
    change _ ∈ (Function.update (joinStream c input p answer l).events stream.streamId _
      stream.streamId).getLast?
    rw [Function.update_self, List.getLast?_concat]
    exact rfl
  · have hkey : lit "authorizationContext" ≠ lit "__proto__" := by decide +kernel
    have hsensitive : sensitiveField (lit "authorizationContext") = true := by decide +kernel
    rw [hpayload]
    refine mem_sanitizeFields hkey hsensitive (v := .object r.authorizationContext) ?_ v
    simp [bindPayload]

/-- The context that a binding returns is the one that its principal's record holds then, overlaid
    with the answer to that call. Whatever the record holds has been granted to the principal. The
    event of the binding has the redaction in its place. -/
theorem context_of_binding (h : Reachable (ledgerSystem c calls ι) cfg) {i : ι}
    {input : BindSessionInput} {b : SessionBinding}
    (hi : cfg.calls i = some ⟨.bindSession input, .ret (.binding b)⟩) :
    ∃ keyFingerprint answer times t, ∃ e ∈ cfg.log, ∃ r, e.call = i ∧
      e.made = ⟨.finishBind input b.principalId answer, .ok b⟩ ∧
      ⟨.resolve (resolution input b.principalId keyFingerprint), .ok answer⟩ ∈ ownTrace i cfg.log ∧
      e.state.principals b.principalId = some r ∧
      b.authorizationContext = withAnswer r.authorizationContext answer ∧
      (∀ f ∈ r.authorizationContext, Granted cfg.log b.principalId f) ∧
      finishBind c times input b.principalId answer e.state = (.ok b, t) ∧
      ∃ event, event ∈ (t.events event.streamId).getLast? ∧ event.eventType = .sessionBound ∧
        event.chainHash = b.bindingHash ∧
        ∀ v, (lit "authorizationContext", v) ∈ event.payload ↔ v = redacted := by
  obtain ⟨-, keyFingerprint, now, answer, hkey, -, htrace, e, he, hei, hmade, times, t, hfinish⟩ :=
    exists_binding h hi
  obtain ⟨hid, r, -, hr, hcontext, -⟩ := finishBind_record (keyed_of_mem_log h he) hfinish
  have hgranted := (granted_of_reachable h).2 e he _ r hr
  rw [← hid] at hmade hr hgranted hfinish
  refine ⟨keyFingerprint, answer, times, t, e, he, r, hei, hmade, ?_, hr, hcontext, hgranted, hfinish,
    finishBind_event hfinish⟩
  rw [htrace, hid]
  simp [bindingTrace]

end Runs

/-! ## A right that is kept -/

/-- The second session of the same key, for which the resolver grants nothing. -/
def secondBound (calls : LedgerCall → Prop) : LedgerConfig ℕ :=
  (ledgerService sampleCrypto calls).serve (ledgerRun sampleCrypto sampleNow grantAll)
    (firstBound calls) 1 (.bindSession secondInput)

theorem reachable_secondBound :
    Reachable (ledgerSystem sampleCrypto (fun _ => True) ℕ) (secondBound fun _ => True) :=
  Run.reachable (Service.run_serve (exec_ledgerRun sampleCrypto sampleNow grantAll) trivial rfl)
    (reachable_firstBound trivial)

theorem secondBound_calls : ∃ b,
    (secondBound fun _ => True).calls 1 = some ⟨.bindSession secondInput, .ret (.binding b)⟩ ∧
      b.principalId = principalIdFromFingerprint sampleCrypto firstFingerprint ∧
      b.authorizationContext = sampleRole := by
  obtain ⟨-, r, -, -, hr, -, hcontext, hfresh⟩ := firstBound_shared fun _ => True
  have hresolve : grantAll (resolution secondInput
      (principalIdFromFingerprint sampleCrypto firstFingerprint) firstFingerprint) = .ok [] := rfl
  obtain ⟨b, l', hfinish, hcall, -⟩ := serve_bindSession (i := 1) secondInput_proved hfresh hresolve
  have hkeyed : Keyed (registered sampleCrypto sampleNow secondInput firstFingerprint []
      (firstBound fun _ => True).shared) :=
    keyed_registered (keyed_of_reachable (reachable_firstBound trivial))
  obtain ⟨hid, r', -, hr', hb, -⟩ := finishBind_record hkeyed hfinish
  obtain rfl := Option.some.inj ((registered_of_some hr).symm.trans hr')
  refine ⟨b, hcall, hid, ?_⟩
  rw [hb, hcontext]
  rfl

theorem context_of_secondBound : ∃ (b : SessionBinding) (e : Entry ℕ LedgerOp LedgerAns Ledger)
    (r : PrincipalRecord) (answer : Fields),
    (secondBound fun _ => True).calls 1 = some ⟨.bindSession secondInput, .ret (.binding b)⟩ ∧
      e ∈ (secondBound fun _ => True).log ∧ e.state.principals b.principalId = some r ∧
      b.authorizationContext = withAnswer r.authorizationContext answer := by
  obtain ⟨b, hcall, -⟩ := secondBound_calls
  obtain ⟨-, answer, -, -, e, he, r, -, -, -, hr, hcontext, -⟩ :=
    context_of_binding reachable_secondBound hcall
  exact ⟨b, e, r, answer, hcall, he, hr, hcontext⟩

/-- The first session was granted a role. The second has it too, although the resolver answers its
    call with an empty context. -/
theorem right_is_kept : ∃ b,
    Reachable (ledgerSystem sampleCrypto (fun _ => True) ℕ) (secondBound fun _ => True) ∧
      (secondBound fun _ => True).calls 1 = some ⟨.bindSession secondInput, .ret (.binding b)⟩ ∧
      grantAll (resolution secondInput b.principalId firstFingerprint) = .ok [] ∧
      b.authorizationContext = sampleRole ∧ sampleRole ≠ [] := by
  obtain ⟨b, hcall, -, hcontext⟩ := secondBound_calls
  exact ⟨b, reachable_secondBound, hcall, rfl, hcontext, List.cons_ne_nil _ _⟩

end Principal
