import BpcProtocol.Lib.Separated
import BpcProtocol.Principal.Continuity
import BpcProtocol.Principal.Identity

set_option autoImplicit false

/-! # Whose stream it is

The name of a stream is a digest of a text in which colons join the identifier of the principal, the
provider and the agent. A provider and an agent may hold colons themselves, so that two of them can
share a text, and a stream. -/

namespace Principal

open Fallible Pair Async Transition
open Js (lit)

variable {PrivateKey PublicKey : Type} {c : Wire.WebCrypto PrivateKey PublicKey}

/-! ## The texts -/

/-- A part of the agent, up to a colon, stands at the end of the other provider instead. -/
def Spliced (provider agent provider' agent' : List ℕ) : Prop :=
  ∃ x, provider' = provider ++ 58 :: x ∧ agent = x ++ 58 :: agent'

/-- What is written of two providers and agents is the same: they differ in nothing, or in lone
    surrogates, or one is spliced from the other. -/
def SameText (provider agent provider' agent' : List ℕ) : Prop :=
  (provider = provider' ∧ agent = agent') ∨ Spliced provider agent provider' agent' ∨
    Spliced provider' agent' provider agent

/-- Two inputs with different providers or agents, of which the same is written. -/
def Confused (input input' : BindSessionInput) : Prop :=
  ¬(input.provider = input'.provider ∧ input.agent = input'.agent) ∧
    SameText (Js.scalars input.provider) (Js.scalars input.agent) (Js.scalars input'.provider)
      (Js.scalars input'.agent)

theorem scalars_streamText (p provider agent : JsString) :
    Js.scalars (streamText p provider agent) =
      Js.scalars p ++ 58 :: (Js.scalars provider ++ 58 :: Js.scalars agent) := by
  have hcolon : Js.isHighSurrogate 58 = false ∧ Js.isLowSurrogate 58 = false := by decide
  have htext : streamText p provider agent = p ++ 58 :: (provider ++ 58 :: agent) := by
    simp [streamText]
  rw [htext, Js.scalars_append_cons hcolon, Js.scalars_append_cons hcolon]
  rfl

theorem utf8_streamText {p provider agent provider' agent' : JsString} :
    Js.utf8 (streamText p provider agent) = Js.utf8 (streamText p provider' agent') ↔
      SameText (Js.scalars provider) (Js.scalars agent) (Js.scalars provider')
        (Js.scalars agent') := by
  rw [Js.utf8_eq_iff, scalars_streamText, scalars_streamText, List.append_cancel_left_eq,
    List.cons.injEq, Separated.append_cons_eq_iff]
  exact and_iff_right rfl

theorem ascii_principalId (keyFingerprint : JsString) :
    Js.Ascii (principalIdFromFingerprint c keyFingerprint) := by
  intro u hu
  rcases List.mem_append.mp hu with hu | hu
  · have hname : Js.Ascii (lit "principal_") := by decide
    exact hname u hu
  · have hdigits := List.mem_of_mem_take hu
    rw [sha256hex, List.mem_flatMap] at hdigits
    obtain ⟨byte, -, hbyte⟩ := hdigits
    have hdigit : ∀ n < 16, (Js.hexDigit n).toNat < 128 := by decide
    have hlt : byte.toNat < 256 := byte.toNat_lt
    simp only [Ha.hexByte, List.mem_cons, List.not_mem_nil, or_false] at hbyte
    rcases hbyte with rfl | rfl
    · exact hdigit _ (by omega)
    · exact hdigit _ (by omega)

/-- The first colon ends the identifier of the principal. -/
theorem principalId_of_utf8 {f f' provider agent provider' agent' : JsString}
    (h : Js.utf8 (streamText (principalIdFromFingerprint c f) provider agent) =
      Js.utf8 (streamText (principalIdFromFingerprint c f') provider' agent')) :
    principalIdFromFingerprint c f = principalIdFromFingerprint c f' := by
  have hcolon : ∀ k, 58 ∉ Js.scalars (principalIdFromFingerprint c k) := by
    intro k hmem
    rw [Js.scalars_ascii (ascii_principalId k)] at hmem
    obtain ⟨u, hu, h58⟩ := List.mem_map.mp hmem
    have heq : u = 58 := UInt16.toNat_inj.mp h58
    exact colon_notMem_principalId k (heq ▸ hu)
  rw [Js.utf8_eq_iff, scalars_streamText, scalars_streamText] at h
  have hscalars := Separated.eq_of_append_cons (hcolon f) (hcolon f') h
  exact (ascii_principalId f').eq_of_utf8 (Js.utf8_eq_iff.mpr hscalars)

/-- Twenty-four hexadecimal digits of SHA-256 tell the bytes of these texts apart. -/
def TruncationInjective (c : Wire.WebCrypto PrivateKey PublicKey) (texts : JsString → Prop) : Prop :=
  ∀ t t', texts t → texts t' → (sha256hex c t).take 24 = (sha256hex c t').take 24 →
    Js.utf8 t = Js.utf8 t'

/-- Two inputs share a stream if the same is written of them, and only then. -/
theorem makeStreamId_eq_iff {texts : JsString → Prop} (hsha : TruncationInjective c texts)
    {p : JsString} {input input' : BindSessionInput}
    (htext : texts (streamText p input.provider input.agent))
    (htext' : texts (streamText p input'.provider input'.agent)) :
    makeStreamId c p input.provider input.agent = makeStreamId c p input'.provider input'.agent ↔
      SameText (Js.scalars input.provider) (Js.scalars input.agent) (Js.scalars input'.provider)
        (Js.scalars input'.agent) := by
  rw [← utf8_streamText (p := p)]
  constructor
  · intro h
    exact hsha _ _ htext htext' (List.append_cancel_left h)
  · intro h
    have hhex : sha256hex c (streamText p input.provider input.agent) =
        sha256hex c (streamText p input'.provider input'.agent) := by
      rw [sha256hex, sha256hex, h]
    exact congrArg (fun digits => lit "stream_" ++ digits.take 24) hhex

/-! ## The streams of a ledger -/

/-- A call with an accepted input binds a session of the principal. -/
structure Binds (c : Wire.WebCrypto PrivateKey PublicKey) (calls : LedgerCall → Prop)
    (input : BindSessionInput) (p : JsString) : Prop where
  call : calls (.bindSession input)
  accepted : assertBindingInput input = .ok ()
  key : ∃ keyFingerprint, computeFingerprint c input.publicKeyJwk = .ok keyFingerprint ∧
    p = principalIdFromFingerprint c keyFingerprint

/-- The text of a stream of an accepted input. -/
def BoundText (c : Wire.WebCrypto PrivateKey PublicKey) (calls : LedgerCall → Prop)
    (text : JsString) : Prop :=
  ∃ input p, Binds c calls input p ∧ text = streamText p input.provider input.agent

/-- An operation that binds does so for an accepted input. -/
def BindsInput (c : Wire.WebCrypto PrivateKey PublicKey) (calls : LedgerCall → Prop) :
    LedgerOp → Prop
  | .finishBind input p _ => Binds c calls input p
  | _ => True

theorem binds_body {calls : LedgerCall → Prop} (call : LedgerCall) (h : calls call) :
    (call.body c).Uses (BindsInput c calls) := by
  cases call with
  | bindSession input =>
      refine Prog.Uses.map ?_
      simp only [bindSession, Prog.perform_bind, Prog.await_bind]
      refine Prog.uses_lift_bind fun _ haccepted => ⟨trivial, fun _ => ?_⟩
      refine Prog.uses_lift_bind fun keyFingerprint hkey => ⟨trivial, fun _ => ⟨trivial, fun _ => ?_⟩⟩
      refine Prog.uses_lift_bind fun _ _ => ⟨trivial, fun _ => ?_⟩
      refine Prog.uses_lift_bind fun _ _ => ⟨trivial, fun _ => ?_⟩
      refine Prog.uses_lift_bind fun _ _ => ⟨trivial, fun _ => ⟨?_, fun _ => Prog.uses_lift⟩⟩
      exact ⟨h, haccepted, keyFingerprint, hkey, rfl⟩
  | appendStreamEvent p s eventType payload =>
      exact ⟨trivial, fun _ => Prog.Uses.map Prog.uses_lift⟩
  | closeSession p s session => exact ⟨trivial, fun _ => Prog.Uses.map Prog.uses_lift⟩
  | rotatePrincipalKey p publicKeyJwk keyVersion =>
      refine Prog.Uses.map ⟨trivial, fun _ => ?_⟩
      refine Prog.uses_lift_bind fun _ _ => Prog.uses_lift_bind fun _ _ => ⟨trivial, fun _ => ?_⟩
      exact Prog.uses_lift

/-- A stream is that of an input, and every event of it says so. -/
structure StreamOf (c : Wire.WebCrypto PrivateKey PublicKey) (calls : LedgerCall → Prop)
    (l : Ledger) (s : JsString) (stream : PrincipalStreamRecord) : Prop where
  name : stream.streamId = s
  opened : ∃ input p, Binds c calls input p ∧ s = makeStreamId c p input.provider input.agent ∧
    stream.provider = input.provider ∧ stream.agentInstanceId = input.agent
  events : ∀ event ∈ l.events s,
    event.provider = stream.provider ∧ event.agentInstanceId = stream.agentInstanceId

/-- Every stream is that of an input. -/
def Opened (c : Wire.WebCrypto PrivateKey PublicKey) (calls : LedgerCall → Prop) (l : Ledger) :
    Prop :=
  ∀ s stream, l.streams s = some stream → StreamOf c calls l s stream

/-- Streams stay. -/
def StreamsStay (l l' : Ledger) : Prop :=
  ∀ s, (∃ stream, l.streams s = some stream) → ∃ stream, l'.streams s = some stream

section Steps

variable {calls : LedgerCall → Prop} {l l' : Ledger} {p s : JsString}

/-- Neither the streams nor the events have changed. -/
def SameStreams (l l' : Ledger) : Prop :=
  l'.streams = l.streams ∧ l'.events = l.events

theorem Opened.same (h : Opened c calls l) (hsame : SameStreams l l') : Opened c calls l' := by
  intro s stream hs
  rw [hsame.1] at hs
  have hold := h s stream hs
  exact ⟨hold.name, hold.opened, hsame.2 ▸ hold.events⟩

theorem SameStreams.stay (h : SameStreams l l') : StreamsStay l l' := by
  intro s hs
  rw [h.1]
  exact hs

theorem sameStreams_updatePrincipal (l : Ledger) (p : JsString)
    (f : PrincipalRecord → PrincipalRecord) : SameStreams l (l.updatePrincipal p f) := by
  rw [Ledger.updatePrincipal]
  cases l.principals p with
  | none => exact ⟨rfl, rfl⟩
  | some r => exact ⟨rfl, rfl⟩

theorem streamsStay_update {stream : PrincipalStreamRecord}
    (h : l'.streams = Function.update l.streams s (some stream)) : StreamsStay l l' := by
  rintro t ⟨st, ht⟩
  rw [h]
  by_cases hts : t = s
  · subst hts
    exact ⟨stream, Function.update_self _ _ _⟩
  · exact ⟨st, (Function.update_of_ne hts _ _).trans ht⟩

/-- The record of a stream is replaced by one of the same provider and agent, and its events grow by
    events of theirs. -/
theorem Opened.extend (h : Opened c calls l) {stream stream' : PrincipalStreamRecord}
    (new : List PrincipalStreamEvent) (hs : l.streams s = some stream)
    (hstreams : l'.streams = Function.update l.streams s (some stream'))
    (hname : stream'.streamId = stream.streamId) (hprovider : stream'.provider = stream.provider)
    (hagent : stream'.agentInstanceId = stream.agentInstanceId)
    (hevents : l'.events = Function.update l.events s (l.events s ++ new))
    (hnew : ∀ event ∈ new,
      event.provider = stream.provider ∧ event.agentInstanceId = stream.agentInstanceId) :
    Opened c calls l' ∧ StreamsStay l l' := by
  constructor
  · intro t st ht
    rw [hstreams] at ht
    by_cases hts : t = s
    · subst hts
      rw [Function.update_self] at ht
      cases ht
      have hold := h t stream hs
      obtain ⟨input, q, hbinds, hid, hinput, hinputAgent⟩ := hold.opened
      refine ⟨hname.trans hold.name, ⟨input, q, hbinds, hid, hprovider.trans hinput,
        hagent.trans hinputAgent⟩, ?_⟩
      rw [hevents, Function.update_self, hprovider, hagent]
      intro event hevent
      rcases List.mem_append.mp hevent with hevent | hevent
      · exact hold.events event hevent
      · exact hnew event hevent
    · rw [Function.update_of_ne hts] at ht
      have hold := h t st ht
      refine ⟨hold.name, hold.opened, ?_⟩
      rw [hevents, Function.update_of_ne hts]
      exact hold.events
  · exact streamsStay_update hstreams

theorem Opened.upsertStream (h : Opened c calls l) {input : BindSessionInput}
    (hbinds : Binds c calls input p) (session : JsString) :
    Opened c calls (upsertStream p (makeStreamId c p input.provider input.agent) input.provider
        input.agent session l) ∧
      StreamsStay l (upsertStream p (makeStreamId c p input.provider input.agent) input.provider
        input.agent session l) := by
  generalize hid : makeStreamId c p input.provider input.agent = s
  rw [Principal.upsertStream]
  cases hs : l.streams s with
  | some existing =>
      refine h.extend [] hs rfl rfl rfl rfl ?_ (by simp)
      rw [List.append_nil, Function.update_eq_self]
      rfl
  | none =>
      have hopened : Opened c calls (l.openStream s
          ⟨p, s, input.provider, input.agent, [session], 0, principalGenesisHash⟩) := by
        intro t st ht
        by_cases hts : t = s
        · subst hts
          have hself := Option.some.inj ((Function.update_self t _ l.streams).symm.trans ht)
          subst hself
          refine ⟨rfl, ⟨input, p, hbinds, hid.symm, rfl, rfl⟩, ?_⟩
          have hnone : (l.openStream t ⟨p, t, input.provider, input.agent, [session], 0,
              principalGenesisHash⟩).events t = [] := Function.update_self _ _ _
          rw [hnone]
          simp
        · rw [Ledger.openStream_of_ne _ _ hts] at ht
          have hold := h t st ht
          refine ⟨hold.name, hold.opened, ?_⟩
          have hkept : (l.openStream s ⟨p, s, input.provider, input.agent, [session], 0,
              principalGenesisHash⟩).events t = l.events t := Function.update_of_ne hts _ _
          rw [hkept]
          exact hold.events
      have hstay : StreamsStay l (l.openStream s
          ⟨p, s, input.provider, input.agent, [session], 0, principalGenesisHash⟩) := by
        rintro t ⟨st, ht⟩
        have hts : t ≠ s := by
          rintro rfl
          cases hs.symm.trans ht
        exact ⟨st, (Ledger.openStream_of_ne _ _ hts).trans ht⟩
      have hsame := sameStreams_updatePrincipal (l.openStream s ⟨p, s, input.provider, input.agent,
        [session], 0, principalGenesisHash⟩) p fun r => { r with streamIds := r.streamIds ++ [s] }
      refine ⟨hopened.same hsame, fun t ht => hsame.stay t (hstay t ht)⟩

/-- An event names the provider and the agent of its stream. -/
theorem nextEvent_agent {timestamp : JsNumber} {stream : PrincipalStreamRecord}
    {eventType : PrincipalEventType} {payload : Fields} {options : EventOptions}
    {event : PrincipalStreamEvent}
    (h : nextEvent c timestamp stream eventType payload options = .ok event) :
    event.provider = stream.provider ∧ event.agentInstanceId = stream.agentInstanceId := by
  simp only [nextEvent, bind_eq_ok] at h
  obtain ⟨payloadHash, -, hevent⟩ := h
  obtain rfl := Except.ok.inj hevent
  exact ⟨rfl, rfl⟩

theorem Opened.pushEvent (h : Opened c calls l) {stream : PrincipalStreamRecord}
    {event : PrincipalStreamEvent} (hs : l.streams s = some stream)
    (hevent : event.provider = stream.provider ∧ event.agentInstanceId = stream.agentInstanceId) :
    Opened c calls (pushEvent stream event l) ∧ StreamsStay l (pushEvent stream event l) := by
  have hname := (h s stream hs).name
  subst hname
  exact h.extend [event] hs rfl rfl rfl rfl rfl (by simpa using hevent)

theorem StreamsStay.refl (l : Ledger) : StreamsStay l l :=
  fun _ hs => hs

theorem StreamsStay.trans {l'' : Ledger} (h : StreamsStay l l') (h' : StreamsStay l' l'') :
    StreamsStay l l'' :=
  fun s hs => h' s (h s hs)

/-- A step that leaves every stream to its provider and agent. -/
def Keeps (c : Wire.WebCrypto PrivateKey PublicKey) (calls : LedgerCall → Prop) (l l' : Ledger) :
    Prop :=
  Opened c calls l → Opened c calls l' ∧ StreamsStay l l'

theorem Keeps.refl (l : Ledger) : Keeps c calls l l :=
  fun h => ⟨h, .refl l⟩

theorem Keeps.trans {l'' : Ledger} (h : Keeps c calls l l') (h' : Keeps c calls l' l'') :
    Keeps c calls l l'' := by
  intro hl
  obtain ⟨hl', hstay⟩ := h hl
  obtain ⟨hl'', hstay'⟩ := h' hl'
  exact ⟨hl'', hstay.trans hstay'⟩

theorem SameStreams.keeps (h : SameStreams l l') : Keeps c calls l l' :=
  fun hl => ⟨hl.same h, h.stay⟩

theorem keeps_pushEvent {timestamp : JsNumber} {stream : PrincipalStreamRecord}
    {eventType : PrincipalEventType} {payload : Fields} {options : EventOptions}
    {event : PrincipalStreamEvent} (hs : l.streams s = some stream)
    (hevent : nextEvent c timestamp stream eventType payload options = .ok event) (t : JsNumber)
    (r : PrincipalRecord) :
    Keeps c calls l (appendCheckpoint c t r (pushEvent stream event l)) := by
  intro h
  obtain ⟨hpushed, hstay⟩ := h.pushEvent hs (nextEvent_agent hevent)
  have hsame : SameStreams (pushEvent stream event l)
      (appendCheckpoint c t r (pushEvent stream event l)) := ⟨rfl, rfl⟩
  exact ⟨hpushed.same hsame, hstay.trans hsame.stay⟩

theorem ownStream_ok {stream : PrincipalStreamRecord} (h : ownStream l p s = .ok stream) :
    l.streams s = some stream := by
  rw [ownStream] at h
  cases hs : (l.streams s).filter fun stream => stream.principalId = p with
  | none =>
      rw [hs] at h
      cases h
  | some stream' =>
      rw [hs] at h
      cases h
      exact (Option.filter_eq_some_iff.mp hs).1

theorem heldStream_ok {stream : PrincipalStreamRecord} (h : heldStream l s = .ok stream) :
    l.streams s = some stream := by
  rw [heldStream] at h
  cases hs : l.streams s with
  | none =>
      rw [hs] at h
      cases h
  | some stream' =>
      rw [hs] at h
      cases h
      rfl

theorem keeps_appendStreamEvent (times : Times) (p s : JsString) (eventType : PrincipalEventType)
    (payload : Fields) (l : Ledger) :
    Keeps c calls l (appendStreamEvent c times p s eventType payload l).2 := by
  unfold appendStreamEvent
  cases mustPrincipal l p with
  | error e => exact .refl l
  | ok r =>
      rw [orThrow_ok]
      cases hs : ownStream l p s with
      | error e => exact .refl l
      | ok stream =>
          rw [orThrow_ok]
          cases hevent : nextEvent c times.event stream eventType payload {} with
          | error e => exact .refl l
          | ok event => exact keeps_pushEvent (ownStream_ok hs) hevent times.checkpoint r

theorem keeps_closeSession (times : Times) (p s session : JsString) (l : Ledger) :
    Keeps c calls l (closeSession c times p s session l).2 := by
  unfold closeSession
  cases mustPrincipal l p with
  | error e => exact .refl l
  | ok r =>
      have hleft : SameStreams l (l.setPrincipal p
          { r with activeSessionIds := r.activeSessionIds.filter (· ≠ session) }) := ⟨rfl, rfl⟩
      exact hleft.keeps.trans (keeps_appendStreamEvent times p s .sessionClosed _ _)

theorem keeps_finishBind {input : BindSessionInput} (hbinds : Binds c calls input p) (times : Times)
    (authorizationContext : Fields) (l : Ledger) :
    Keeps c calls l (finishBind c times input p authorizationContext l).2 := by
  have hjoined : Keeps c calls l (joinStream c input p authorizationContext l) := by
    intro h
    obtain ⟨hopened, hstay⟩ := h.upsertStream hbinds input.providerSessionId
    have hsame := sameStreams_updatePrincipal (upsertStream p
      (makeStreamId c p input.provider input.agent) input.provider input.agent
      input.providerSessionId l) p (joinSession input.providerSessionId authorizationContext)
    exact ⟨hopened.same hsame, hstay.trans hsame.stay⟩
  unfold finishBind
  generalize joinStream c input p authorizationContext l = joined at hjoined ⊢
  dsimp only
  cases mustPrincipal joined p with
  | error e => exact hjoined
  | ok r =>
      rw [orThrow_ok]
      cases hs : heldStream joined (makeStreamId c p input.provider input.agent) with
      | error e => exact hjoined
      | ok stream =>
          rw [orThrow_ok]
          cases hevent : nextEvent c times.event stream .sessionBound (bindPayload input r)
            (bindOptions c input) with
          | error e => exact hjoined
          | ok event =>
              exact hjoined.trans (keeps_pushEvent (heldStream_ok hs) hevent times.checkpoint r)

/-- The stream that a binding names is there. -/
theorem finishBind_stream {times : Times} {input : BindSessionInput} {authorizationContext : Fields}
    {b : SessionBinding} (h : finishBind c times input p authorizationContext l = (.ok b, l')) :
    b.streamId = makeStreamId c b.principalId input.provider input.agent ∧
      ∃ stream, l'.streams (makeStreamId c p input.provider input.agent) = some stream := by
  obtain ⟨r, stream, event, -, hs, -, rfl, rfl⟩ := finishBind_ok h
  refine ⟨rfl, ?_⟩
  have hpushed : StreamsStay (joinStream c input p authorizationContext l)
      (pushEvent stream event (joinStream c input p authorizationContext l)) := streamsStay_update rfl
  exact hpushed _ ⟨stream, hs⟩

/-- What every step of every call keeps. -/
theorem exec_keeps {o : LedgerOp} {x : LedgerAns o} (ho : BindsInput c calls o)
    (hx : Exec c l o x l') : Keeps c calls l l' := by
  cases hx with
  | yield => exact .refl l
  | clock now => exact .refl l
  | consumeNonce challengeNonce =>
      have hsame : SameStreams l (consumeNonce c challengeNonce l).2 := by
        rw [consumeNonce]
        split <;> exact ⟨rfl, rfl⟩
      exact hsame.keeps
  | resolve query x => exact .refl l
  | upsertPrincipal now publicKeyJwk keyFingerprint authorizationContext =>
      have hsame : SameStreams l
          (upsertPrincipal c now publicKeyJwk keyFingerprint authorizationContext l) := by
        rw [upsertPrincipal]
        cases l.principals (principalIdFromFingerprint c keyFingerprint) <;> exact ⟨rfl, rfl⟩
      exact hsame.keeps
  | finishBind times input p authorizationContext =>
      exact keeps_finishBind ho times authorizationContext l
  | append times p s eventType payload => exact keeps_appendStreamEvent times p s eventType payload l
  | close times p s session => exact keeps_closeSession times p s session l
  | startRotation p publicKeyJwk =>
      have hsame : SameStreams l (startRotation p publicKeyJwk l).2 := by
        rw [startRotation]
        cases mustPrincipal l p <;> exact ⟨rfl, rfl⟩
      exact hsame.keeps
  | finishRotation times p keyFingerprint keyVersion =>
      have hsame : SameStreams l (finishRotation c times p keyFingerprint keyVersion l).2 := by
        rw [finishRotation]
        cases mustPrincipal l p <;> exact ⟨rfl, rfl⟩
      exact hsame.keeps

end Steps

/-! ## Runs -/

section Runs

variable {calls : LedgerCall → Prop} {ι : Type} [DecidableEq ι] {cfg : LedgerConfig ι}

theorem opened_of_reachable (h : Reachable (ledgerSystem c calls ι) cfg) :
    Opened c calls cfg.shared := by
  refine Service.invariant (P := BindsInput c calls) binds_body ?_ ?_ ?_ h
  · rintro l rfl s stream hs
    cases hs
  · intro l o x l' ho hl hx
    exact (exec_keeps ho hx hl).1
  · intro l l' _ henv
    exact henv.elim

/-- A stream has one provider and one agent. -/
theorem agent_of_streamId (hsha : TruncationInjective c (BoundText c calls))
    (hclear : ∀ input input', calls (.bindSession input) → calls (.bindSession input') →
      assertBindingInput input = .ok () → assertBindingInput input' = .ok () →
        ¬Confused input input')
    {input input' : BindSessionInput} {p q : JsString} (h : Binds c calls input p)
    (h' : Binds c calls input' q)
    (hname : makeStreamId c p input.provider input.agent =
      makeStreamId c q input'.provider input'.agent) :
    input.provider = input'.provider ∧ input.agent = input'.agent := by
  have htext : BoundText c calls (streamText p input.provider input.agent) := ⟨input, p, h, rfl⟩
  have htext' : BoundText c calls (streamText q input'.provider input'.agent) :=
    ⟨input', q, h', rfl⟩
  have hbytes := hsha _ _ htext htext' (List.append_cancel_left hname)
  obtain ⟨keyFingerprint, -, rfl⟩ := h.key
  obtain ⟨keyFingerprint', -, rfl⟩ := h'.key
  rw [principalId_of_utf8 hbytes] at hbytes
  by_contra hne
  exact hclear input input' h.call h'.call h.accepted h'.accepted ⟨hne, utf8_streamText.mp hbytes⟩

/-- The stream of a completed binding is that of its provider and its agent, as long as of no two
    accepted inputs the same is written. -/
theorem stream_of_binding (hsha : TruncationInjective c (BoundText c calls))
    (hclear : ∀ input input', calls (.bindSession input) → calls (.bindSession input') →
      assertBindingInput input = .ok () → assertBindingInput input' = .ok () →
        ¬Confused input input')
    (h : Reachable (ledgerSystem c calls ι) cfg) {i : ι} {input : BindSessionInput}
    {b : SessionBinding} (hi : cfg.calls i = some ⟨.bindSession input, .ret (.binding b)⟩) :
    ∃ stream, cfg.shared.streams b.streamId = some stream ∧ stream.provider = input.provider ∧
      stream.agentInstanceId = input.agent ∧ ∀ event ∈ cfg.shared.events b.streamId,
        event.provider = input.provider ∧ event.agentInstanceId = input.agent := by
  have hopened := opened_of_reachable h
  obtain ⟨hcall, keyFingerprint, now, authorizationContext, hkey, -, htrace, e, he, -, hmade, -⟩ :=
    exists_binding h hi
  have hbinds : Binds c calls input (principalIdFromFingerprint c keyFingerprint) := by
    have huses := ((Service.trace_of_reachable h i).1 _ _ hi).2.uses (binds_body _ hcall)
    have hmem : (⟨.finishBind input (principalIdFromFingerprint c keyFingerprint)
        authorizationContext, .ok b⟩ : Made LedgerOp LedgerAns) ∈ ownTrace i cfg.log := by
      rw [htrace]
      simp [bindingTrace]
    exact huses.1 _ hmem
  obtain ⟨t, hexec, hstay⟩ := (Service.log_pairwise (P := BindsInput c calls) binds_body
    (fun _ hr => opened_of_reachable hr) StreamsStay.refl (fun _ _ _ => StreamsStay.trans)
    (fun _ _ _ _ ho hl hx => (exec_keeps ho hx hl).2) (fun _ _ _ henv => henv.elim) h).2 e he
  rw [hmade] at hexec
  change Exec c _ _ _ _ at hexec
  generalize hx : (Except.ok b : Except ServerError SessionBinding) = x at hexec
  cases hexec with
  | finishBind times =>
      have hfinish : finishBind c times input (principalIdFromFingerprint c keyFingerprint)
          authorizationContext e.state = (.ok b, (finishBind c times input _ _ e.state).2) :=
        Prod.ext hx.symm rfl
      have hid := (finishBind_record (keyed_of_mem_log h he) hfinish).1
      obtain ⟨hname, hbound⟩ := finishBind_stream hfinish
      rw [hid] at hname
      obtain ⟨stream, hstream⟩ := hstay _ hbound
      have hof := hopened _ stream hstream
      obtain ⟨input₀, q, hbinds₀, hsame, hprovider, hagent⟩ := hof.opened
      obtain ⟨hprovider₀, hagent₀⟩ := agent_of_streamId hsha hclear hbinds hbinds₀ hsame
      have hevents := hof.events
      rw [hprovider.trans hprovider₀.symm, hagent.trans hagent₀.symm] at hevents
      rw [hname]
      exact ⟨stream, hstream, hprovider.trans hprovider₀.symm, hagent.trans hagent₀.symm, hevents⟩

end Runs

/-! ## Whose stream it is -/

/-- A session of the provider `a` with the agent `b:c`. -/
def agentWithColon : BindSessionInput :=
  { firstInput with provider := lit "a", agentInstanceId := some (lit "b:c") }

/-- A session of the provider `a:b` with the agent `c`. -/
def providerWithColon : BindSessionInput :=
  { firstInput with provider := lit "a:b", agentInstanceId := some (lit "c") }

end Principal
