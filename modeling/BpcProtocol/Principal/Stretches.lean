import BpcProtocol.Principal.Binding
import BpcProtocol.Principal.Verifier

set_option autoImplicit false

/-! # What each stretch of a method keeps

A method breaks `UpToDate` for one principal when it opens a stream or puts an event into one, and its
checkpoint restores it before the next await: `SoundBut` holds in between, `Whole` at the awaits. -/

namespace Principal

open Fallible Pair
open Js (lit)

variable {PrivateKey PublicKey : Type} {c : Wire.WebCrypto PrivateKey PublicKey}

/-! ## What changes nothing that is verified -/

/-- Two ledgers that differ at most in what the verifier does not read. -/
structure SameCore (l l' : Ledger) : Prop where
  principals : ∀ p, (l'.principals p).map PrincipalRecord.core =
    (l.principals p).map PrincipalRecord.core
  streams : l'.streams = l.streams
  events : l'.events = l.events
  checkpoints : l'.checkpoints = l.checkpoints

theorem SameCore.record {l l' : Ledger} (h : SameCore l l') {p : JsString} {r' : PrincipalRecord}
    (hr' : l'.principals p = some r') : ∃ r, l.principals p = some r ∧ r'.principalId = r.principalId ∧
      r'.streamIds = r.streamIds ∧ r'.checkpointHead = r.checkpointHead ∧
      r'.checkpointSeq = r.checkpointSeq := by
  have hmap := h.principals p
  rw [hr', Option.map_some] at hmap
  obtain ⟨r, hr, hcore⟩ := Option.map_eq_some_iff.mp hmap.symm
  simp only [PrincipalRecord.core, Prod.mk.injEq] at hcore
  exact ⟨r, hr, hcore.1.symm, hcore.2.1.symm, hcore.2.2.1.symm, hcore.2.2.2.symm⟩

theorem Sound.sameCore {calls : LedgerCall → Prop} {l l' : Ledger} (h : Sound c calls l)
    (hsame : SameCore l l') : Sound c calls l' := by
  constructor
  · intro p r' hr'
    obtain ⟨r, hr, hid, -⟩ := hsame.record hr'
    rw [hid]
    exact h.keyed p r hr
  · rw [hsame.streams]
    exact h.named
  · rw [hsame.streams, hsame.events]
    exact h.chained
  · intro p r' hr'
    obtain ⟨r, hr, -, hids, -⟩ := hsame.record hr'
    rw [hids, hsame.streams]
    exact h.listed p r hr
  · intro p r' hr'
    obtain ⟨r, hr, -, -, hhead, hseq⟩ := hsame.record hr'
    rw [hhead, hseq, hsame.checkpoints]
    exact h.checkpointed p r hr

theorem UpToDate.sameCore {l l' : Ledger} {p : JsString} (h : UpToDate l p)
    (hsame : SameCore l l') : UpToDate l' p := by
  intro r' hr' latest hlatest
  obtain ⟨r, hr, -, hids, -⟩ := hsame.record hr'
  rw [hsame.checkpoints] at hlatest
  rw [h r hr latest hlatest, hids]
  exact streamHeads_congr fun s _ => by rw [hsame.streams]

theorem sameCore_setPrincipal {l : Ledger} {p : JsString} {r r' : PrincipalRecord}
    (hr : l.principals p = some r) (hcore : r'.core = r.core) : SameCore l (l.setPrincipal p r') := by
  refine ⟨fun q => ?_, rfl, rfl, rfl⟩
  by_cases hq : q = p
  · subst hq
    rw [Ledger.setPrincipal_self, hr, Option.map_some, Option.map_some, hcore]
  · rw [Ledger.setPrincipal_of_ne _ _ hq]

theorem sameCore_updatePrincipal (l : Ledger) (p : JsString) {f : PrincipalRecord → PrincipalRecord}
    (hf : ∀ r, (f r).core = r.core) : SameCore l (l.updatePrincipal p f) := by
  rw [Ledger.updatePrincipal]
  cases hr : l.principals p with
  | none => exact ⟨fun _ => rfl, rfl, rfl, rfl⟩
  | some r => exact sameCore_setPrincipal hr (hf r)

/-! ## What each part of a call keeps -/

section Parts

variable {calls : LedgerCall → Prop} {l l' : Ledger} {p : JsString}

/-- Everything is whole, and only `p` may have streams that are ahead of its checkpoints. -/
structure SoundBut (c : Wire.WebCrypto PrivateKey PublicKey) (calls : LedgerCall → Prop)
    (p : JsString) (l : Ledger) : Prop where
  sound : Sound c calls l
  others : ∀ q, q ≠ p → UpToDate l q

/-- Everything is whole and up to date, as it is between two steps. -/
structure Whole (c : Wire.WebCrypto PrivateKey PublicKey) (calls : LedgerCall → Prop)
    (l : Ledger) : Prop where
  sound : Sound c calls l
  upToDate : ∀ q, UpToDate l q

theorem Whole.but (h : Whole c calls l) (p : JsString) : SoundBut c calls p l :=
  ⟨h.sound, fun q _ => h.upToDate q⟩

theorem Whole.sameCore (h : Whole c calls l) (hsame : SameCore l l') : Whole c calls l' :=
  ⟨h.sound.sameCore hsame, fun q => (h.upToDate q).sameCore hsame⟩

theorem SoundBut.sameCore (h : SoundBut c calls p l) (hsame : SameCore l l') :
    SoundBut c calls p l' :=
  ⟨h.sound.sameCore hsame, fun q hq => (h.others q hq).sameCore hsame⟩

/-- A principal whose record and whose streams stay as they are stays up to date. -/
theorem UpToDate.of_streams {q : JsString} (h : UpToDate l q)
    (hprincipals : l'.principals q = l.principals q) (hcheckpoints : l'.checkpoints q = l.checkpoints q)
    (hstreams : ∀ r, l.principals q = some r → ∀ s ∈ r.streamIds,
      (l.streams s).map headOf = (l'.streams s).map headOf) : UpToDate l' q := by
  intro r hr latest hlatest
  rw [hprincipals] at hr
  rw [hcheckpoints] at hlatest
  rw [h r hr latest hlatest]
  exact streamHeads_congr (hstreams r hr)

/-- A stream is not listed by a principal that it does not belong to. -/
theorem Sound.not_listed (h : Sound c calls l) {s q : JsString} {r : PrincipalRecord}
    (hs : ∀ stream, l.streams s = some stream → stream.principalId ≠ q)
    (hr : l.principals q = some r) : s ∉ r.streamIds := by
  intro hmem
  obtain ⟨stream, hstream, howner⟩ := h.listed q r hr s hmem
  exact hs stream hstream howner

/-! ### Streams -/

/-- A stream takes another provider session. -/
theorem Sound.setStream (h : Sound c calls l) {s : JsString} {stream stream' : PrincipalStreamRecord}
    (hs : l.streams s = some stream) (hid : stream'.streamId = stream.streamId)
    (howner : stream'.principalId = stream.principalId) (hseq : stream'.seq = stream.seq)
    (hhead : stream'.headHash = stream.headHash) : Sound c calls (l.setStream s stream') := by
  have hcases : ∀ t st, (l.setStream s stream').streams t = some st →
      ∃ st₀, l.streams t = some st₀ ∧ st.streamId = st₀.streamId ∧
        st.principalId = st₀.principalId ∧ st.seq = st₀.seq ∧ st.headHash = st₀.headHash := by
    intro t st ht
    by_cases hts : t = s
    · subst hts
      rw [Ledger.setStream_self] at ht
      obtain rfl := Option.some.inj ht
      exact ⟨stream, hs, hid, howner, hseq, hhead⟩
    · rw [Ledger.setStream_of_ne _ _ hts] at ht
      exact ⟨st, ht, rfl, rfl, rfl, rfl⟩
  refine ⟨h.keyed, ?_, ?_, ?_, h.checkpointed⟩
  · intro t st ht
    obtain ⟨st₀, ht₀, hid, howner, -⟩ := hcases t st ht
    rw [hid, howner]
    exact h.named t st₀ ht₀
  · intro t st ht
    obtain ⟨st₀, ht₀, -, -, hseq, hhead⟩ := hcases t st ht
    rw [hseq, hhead]
    exact h.chained t st₀ ht₀
  · intro q r hr t ht
    obtain ⟨st, hst, hq⟩ := h.listed q r hr t ht
    by_cases hts : t = s
    · subst hts
      rw [hs] at hst
      obtain rfl := Option.some.inj hst
      exact ⟨stream', Ledger.setStream_self _ _ _, howner.trans hq⟩
    · exact ⟨st, (Ledger.setStream_of_ne _ _ hts).trans hst, hq⟩

/-- A stream is opened, without events. -/
def Ledger.openStream (l : Ledger) (s : JsString) (stream : PrincipalStreamRecord) : Ledger :=
  { l with
      streams := Function.update l.streams s (some stream)
      events := Function.update l.events s [] }

theorem Ledger.openStream_of_ne (l : Ledger) {s t : JsString} (stream : PrincipalStreamRecord)
    (h : t ≠ s) : (l.openStream s stream).streams t = l.streams t :=
  Function.update_of_ne h _ _

/-- A stream that is not there yet is not listed either. -/
theorem Sound.ne_of_listed (h : Sound c calls l) {s t q : JsString} {r : PrincipalRecord}
    (hs : l.streams s = none) (hr : l.principals q = some r) (ht : t ∈ r.streamIds) : t ≠ s := by
  rintro rfl
  exact h.not_listed (fun stream hstream => by rw [hs] at hstream; cases hstream) hr ht

theorem Sound.openStream (h : Sound c calls l) {s : JsString} (stream : PrincipalStreamRecord)
    (hs : l.streams s = none) (hid : stream.streamId = s)
    (hnamed : Named c calls s stream.principalId) (hseq : stream.seq = 0)
    (hhead : stream.headHash = principalGenesisHash) : Sound c calls (l.openStream s stream) := by
  have hself : (l.openStream s stream).streams s = some stream := Function.update_self _ _ _
  refine ⟨h.keyed, ?_, ?_, ?_, h.checkpointed⟩
  · intro t st ht
    by_cases hts : t = s
    · subst hts
      rw [hself] at ht
      obtain rfl := Option.some.inj ht
      exact ⟨hid, hnamed⟩
    · rw [Ledger.openStream_of_ne _ _ hts] at ht
      exact h.named t st ht
  · intro t st ht
    by_cases hts : t = s
    · subst hts
      rw [hself] at ht
      obtain rfl := Option.some.inj ht
      have hevents : (l.openStream t stream).events t = [] := Function.update_self _ _ _
      rw [hevents, hseq, hhead]
      exact ⟨rfl, fun _ => rfl⟩
    · rw [Ledger.openStream_of_ne _ _ hts] at ht
      have hevents : (l.openStream s stream).events t = l.events t := Function.update_of_ne hts _ _
      rw [hevents]
      exact h.chained t st ht
  · intro q r hr t ht
    rw [Ledger.openStream_of_ne _ _ (h.ne_of_listed hs hr ht)]
    exact h.listed q r hr t ht

/-- A principal lists a stream of its own. -/
theorem Sound.listStream (h : Sound c calls l) {s : JsString} {r : PrincipalRecord}
    {stream : PrincipalStreamRecord} (hr : l.principals p = some r)
    (hs : l.streams s = some stream) (howner : stream.principalId = p) :
    Sound c calls (l.setPrincipal p { r with streamIds := r.streamIds ++ [s] }) := by
  have hcases : ∀ q r', (l.setPrincipal p { r with streamIds := r.streamIds ++ [s] }).principals q =
      some r' → ∃ r₀, l.principals q = some r₀ ∧ r'.principalId = r₀.principalId ∧
        (∀ t ∈ r'.streamIds, t ∈ r₀.streamIds ∨ (q = p ∧ t = s)) ∧
        r'.checkpointSeq = r₀.checkpointSeq ∧ r'.checkpointHead = r₀.checkpointHead := by
    intro q r' hr'
    by_cases hq : q = p
    · subst hq
      rw [Ledger.setPrincipal_self] at hr'
      obtain rfl := Option.some.inj hr'
      refine ⟨r, hr, rfl, fun t ht => ?_, rfl, rfl⟩
      rcases List.mem_append.mp ht with ht | ht
      · exact Or.inl ht
      · exact Or.inr ⟨rfl, List.mem_singleton.mp ht⟩
    · rw [Ledger.setPrincipal_of_ne _ _ hq] at hr'
      exact ⟨r', hr', rfl, fun _ ht => Or.inl ht, rfl, rfl⟩
  refine ⟨?_, h.named, h.chained, ?_, ?_⟩
  · intro q r' hr'
    obtain ⟨r₀, hr₀, hid, -⟩ := hcases q r' hr'
    rw [hid]
    exact h.keyed q r₀ hr₀
  · intro q r' hr' t ht
    obtain ⟨r₀, hr₀, -, hlisted, -⟩ := hcases q r' hr'
    rcases hlisted t ht with ht | ⟨rfl, rfl⟩
    · exact h.listed q r₀ hr₀ t ht
    · exact ⟨stream, hs, howner⟩
  · intro q r' hr'
    obtain ⟨r₀, hr₀, -, -, hseq, hhead⟩ := hcases q r' hr'
    rw [hseq, hhead]
    exact h.checkpointed q r₀ hr₀

/-- `upsertStream` of a principal leaves the others up to date. -/
theorem Whole.upsertStream (h : Whole c calls l) {s provider agent session : JsString}
    (hnamed : Named c calls s p) :
    SoundBut c calls p (upsertStream p s provider agent session l) := by
  rw [Principal.upsertStream]
  cases hs : l.streams s with
  | some existing =>
      refine ⟨h.sound.setStream hs rfl rfl rfl rfl, fun q _ => ?_⟩
      refine (h.upToDate q).of_streams rfl rfl fun r _ t _ => ?_
      by_cases hts : t = s
      · subst hts
        rw [Option.elim, Ledger.setStream_self, hs]
        rfl
      · rw [Option.elim, Ledger.setStream_of_ne _ _ hts]
  | none =>
      have hopen := h.sound.openStream
        ⟨p, s, provider, agent, [session], 0, principalGenesisHash⟩ hs rfl hnamed rfl rfl
      -- the stream is new, so that no principal's heads have it
      have hothers : ∀ q, UpToDate
          (l.openStream s ⟨p, s, provider, agent, [session], 0, principalGenesisHash⟩) q := by
        intro q
        refine (h.upToDate q).of_streams rfl rfl fun r hr t ht => ?_
        rw [Ledger.openStream_of_ne _ _ (h.sound.ne_of_listed hs hr ht)]
      change SoundBut c calls p ((l.openStream s _).updatePrincipal p _)
      rw [Ledger.updatePrincipal]
      cases hr : l.principals p with
      | none =>
          change SoundBut c calls p (Option.elim (l.principals p) _ _)
          rw [hr]
          exact ⟨hopen, fun q _ => hothers q⟩
      | some r =>
          change SoundBut c calls p (Option.elim (l.principals p) _ _)
          rw [hr]
          refine ⟨hopen.listStream hr (Function.update_self _ _ _) rfl, fun q hq => ?_⟩
          exact (hothers q).of_streams (Ledger.setPrincipal_of_ne _ _ hq) rfl fun _ _ _ _ => rfl

/-! ### Events -/

/-- The event follows the head of its stream, and its hash is its own. -/
theorem nextEvent_ok {timestamp : JsNumber} {stream : PrincipalStreamRecord}
    {eventType : PrincipalEventType} {payload : Fields} {options : EventOptions}
    {event : PrincipalStreamEvent}
    (h : nextEvent c timestamp stream eventType payload options = .ok event) :
    event.seq = stream.seq + 1 ∧ event.prevHash = stream.headHash ∧
      computeStreamEventHash c event.toBareStreamEvent = event.chainHash := by
  simp only [nextEvent, bind_eq_ok] at h
  obtain ⟨payloadHash, -, hevent⟩ := h
  obtain rfl := Except.ok.inj hevent
  exact ⟨rfl, rfl, rfl⟩

/-- An event at the end of a stream of `p`. -/
theorem SoundBut.pushEvent (h : SoundBut c calls p l) {s : JsString}
    {stream : PrincipalStreamRecord} {event : PrincipalStreamEvent} (hs : l.streams s = some stream)
    (howner : stream.principalId = p) (hseq : event.seq = stream.seq + 1)
    (hprev : event.prevHash = stream.headHash)
    (hhash : computeStreamEventHash c event.toBareStreamEvent = event.chainHash) :
    SoundBut c calls p (pushEvent stream event l) := by
  obtain ⟨rfl, hnamed⟩ := h.sound.named s stream hs
  have hself : (Principal.pushEvent stream event l).streams stream.streamId =
      some { stream with seq := event.seq, headHash := event.chainHash } := Ledger.setStream_self _ _ _
  have hne : ∀ t, t ≠ stream.streamId →
      (Principal.pushEvent stream event l).streams t = l.streams t :=
    fun t ht => Ledger.setStream_of_ne _ _ ht
  have hother : ∀ t, t ≠ stream.streamId →
      (Principal.pushEvent stream event l).events t = l.events t :=
    fun t ht => Function.update_of_ne ht _ _
  have hevents : (Principal.pushEvent stream event l).events stream.streamId =
      l.events stream.streamId ++ [event] := Function.update_self _ _ _
  refine ⟨⟨h.sound.keyed, ?_, ?_, ?_, h.sound.checkpointed⟩, fun q hq => ?_⟩
  · intro t st ht
    by_cases hts : t = stream.streamId
    · subst hts
      rw [hself] at ht
      obtain rfl := Option.some.inj ht
      exact ⟨rfl, hnamed⟩
    · rw [hne t hts] at ht
      exact h.sound.named t st ht
  · intro t st ht
    by_cases hts : t = stream.streamId
    · subst hts
      rw [hself] at ht
      obtain rfl := Option.some.inj ht
      obtain ⟨hlen, hchain⟩ := h.sound.chained _ stream hs
      rw [hevents, List.length_append, ← hlen]
      refine ⟨hseq, fun q => verifyEvents_append (hchain q) ?_ hprev hhash⟩
      rw [hseq, hlen, Nat.zero_add]
    · rw [hne t hts] at ht
      rw [hother t hts]
      exact h.sound.chained t st ht
  · intro q r hr t ht
    obtain ⟨st, hst, hq⟩ := h.sound.listed q r hr t ht
    by_cases hts : t = stream.streamId
    · subst hts
      rw [hs] at hst
      obtain rfl := Option.some.inj hst
      exact ⟨_, hself, hq⟩
    · exact ⟨st, (hne t hts).trans hst, hq⟩
  · refine (h.others q hq).of_streams rfl rfl fun r hr t ht => ?_
    have hts : t ≠ stream.streamId := by
      rintro rfl
      refine h.sound.not_listed (fun st hst => ?_) hr ht
      rw [hs] at hst
      obtain rfl := Option.some.inj hst
      rw [howner]
      exact hq.symm
    rw [hne t hts]

/-! ### Checkpoints -/

/-- A checkpoint of `p` brings everything up to date. -/
theorem SoundBut.appendCheckpoint (h : SoundBut c calls p l) {r₀ r : PrincipalRecord}
    (hr₀ : l.principals p = some r₀) (hcore : r.core = r₀.core) (timestamp : JsNumber) :
    Whole c calls (appendCheckpoint c timestamp r l) ∧
      Bound (appendCheckpoint c timestamp r l) p := by
  simp only [PrincipalRecord.core, Prod.mk.injEq] at hcore
  obtain ⟨hid, hids, hhead, hseq⟩ := hcore
  obtain rfl : r.principalId = p := hid.trans (h.sound.keyed p r₀ hr₀)
  obtain ⟨hlen, htip, hchain⟩ := h.sound.checkpointed _ r₀ hr₀
  have hself : (Principal.appendCheckpoint c timestamp r l).principals r.principalId =
      some { r with checkpointSeq := r.checkpointSeq + 1
                    checkpointHead := (nextCheckpoint c timestamp r l).checkpointHash
                    updatedAt := timestamp } := Ledger.setPrincipal_self _ _ _
  have hne : ∀ q, q ≠ r.principalId →
      (Principal.appendCheckpoint c timestamp r l).principals q = l.principals q :=
    fun q hq => Ledger.setPrincipal_of_ne _ _ hq
  have hcheckpoints : (Principal.appendCheckpoint c timestamp r l).checkpoints r.principalId =
      l.checkpoints r.principalId ++ [nextCheckpoint c timestamp r l] := Function.update_self _ _ _
  have hother : ∀ q, q ≠ r.principalId →
      (Principal.appendCheckpoint c timestamp r l).checkpoints q = l.checkpoints q :=
    fun q hq => Function.update_of_ne hq _ _
  refine ⟨⟨⟨?_, h.sound.named, h.sound.chained, ?_, ?_⟩, ?_⟩, ⟨_, hself⟩, ?_⟩
  · intro q r' hr'
    by_cases hq : q = r.principalId
    · subst hq
      rw [hself] at hr'
      obtain rfl := Option.some.inj hr'
      rfl
    · rw [hne q hq] at hr'
      exact h.sound.keyed q r' hr'
  · intro q r' hr' t ht
    by_cases hq : q = r.principalId
    · subst hq
      rw [hself] at hr'
      obtain rfl := Option.some.inj hr'
      rw [show _ = r.streamIds from rfl, hids] at ht
      exact h.sound.listed _ r₀ hr₀ t ht
    · rw [hne q hq] at hr'
      exact h.sound.listed q r' hr' t ht
  · intro q r' hr'
    by_cases hq : q = r.principalId
    · subst hq
      rw [hself] at hr'
      obtain rfl := Option.some.inj hr'
      rw [hcheckpoints, checkpointTip_append, List.length_append, ← hlen, hseq]
      refine ⟨rfl, rfl, verifyCheckpoints_append hchain ?_ ?_ rfl⟩
      · rw [Nat.zero_add, ← hlen, ← hseq]
        rfl
      · exact hhead.trans htip
    · rw [hne q hq] at hr'
      rw [hother q hq]
      exact h.sound.checkpointed q r' hr'
  · intro q
    by_cases hq : q = r.principalId
    · subst hq
      intro r' hr' latest hlatest
      rw [hcheckpoints, List.getLast?_concat] at hlatest
      rw [hself] at hr'
      obtain rfl := Option.some.inj hr'
      obtain rfl := Option.some.inj hlatest
      rfl
    · exact (h.others q hq).of_streams (hne q hq) (hother q hq) fun _ _ _ _ => rfl
  · rw [hcheckpoints]
    exact List.append_ne_nil_of_right_ne_nil _ (List.cons_ne_nil _ _)

/-! ### What is never lost -/

/-- Principals stay, and so do their checkpoints. -/
def Grows (l l' : Ledger) : Prop :=
  ∀ p, (∃ r, l.principals p = some r) →
    (∃ r, l'.principals p = some r) ∧ l.checkpoints p <+: l'.checkpoints p

theorem Grows.refl (l : Ledger) : Grows l l :=
  fun _ hp => ⟨hp, List.prefix_refl _⟩

theorem Grows.trans {l'' : Ledger} (h : Grows l l') (h' : Grows l' l'') : Grows l l'' := by
  intro p hp
  obtain ⟨hp', hle⟩ := h p hp
  obtain ⟨hp'', hle'⟩ := h' p hp'
  exact ⟨hp'', hle.trans hle'⟩

theorem Grows.bound (h : Grows l l') (hbound : Bound l p) : Bound l' p := by
  obtain ⟨hp, hsome⟩ := hbound
  obtain ⟨hp', hle⟩ := h p hp
  refine ⟨hp', fun hnil => hsome ?_⟩
  rw [hnil] at hle
  exact List.prefix_nil.mp hle

theorem SameCore.grows (h : SameCore l l') : Grows l l' := by
  rintro p ⟨r, hr⟩
  have hmap := h.principals p
  rw [hr, Option.map_some] at hmap
  obtain ⟨r', hr', -⟩ := Option.map_eq_some_iff.mp hmap
  exact ⟨⟨r', hr'⟩, h.checkpoints ▸ List.prefix_refl _⟩

theorem grows_setPrincipal (l : Ledger) (p : JsString) (r : PrincipalRecord) :
    Grows l (l.setPrincipal p r) := by
  intro q hq
  refine ⟨?_, List.prefix_refl _⟩
  by_cases heq : q = p
  · subst heq
    exact ⟨r, Ledger.setPrincipal_self _ _ _⟩
  · rw [Ledger.setPrincipal_of_ne _ _ heq]
    exact hq

theorem grows_updatePrincipal (l : Ledger) (p : JsString) (f : PrincipalRecord → PrincipalRecord) :
    Grows l (l.updatePrincipal p f) := by
  rw [Ledger.updatePrincipal]
  cases l.principals p with
  | none => exact .refl l
  | some r => exact grows_setPrincipal l p (f r)

theorem grows_upsertStream (p s provider agent session : JsString) (l : Ledger) :
    Grows l (upsertStream p s provider agent session l) := by
  rw [upsertStream]
  cases l.streams s with
  | some existing => exact .refl l
  | none =>
      have hopen : Grows l (l.openStream s ⟨p, s, provider, agent, [session], 0,
        principalGenesisHash⟩) := .refl l
      exact hopen.trans (grows_updatePrincipal _ _ _)

theorem grows_appendCheckpoint (timestamp : JsNumber) (r : PrincipalRecord) (l : Ledger) :
    Grows l (appendCheckpoint c timestamp r l) := by
  intro q hq
  refine ⟨(grows_setPrincipal l r.principalId _ q hq).1, ?_⟩
  by_cases heq : q = r.principalId
  · subst heq
    change _ <+: Function.update l.checkpoints r.principalId _ r.principalId
    rw [Function.update_self]
    exact List.prefix_append _ _
  · change _ <+: Function.update l.checkpoints r.principalId _ q
    rw [Function.update_of_ne heq]

/-! ## What each stretch keeps -/

theorem mustPrincipal_error {e : ServerError} (h : mustPrincipal l p = .error e) :
    l.principals p = none := by
  rw [mustPrincipal] at h
  cases hp : l.principals p with
  | none => rfl
  | some r => rw [hp] at h; cases h

/-- A principal that is not there has nothing to be brought up to date. -/
theorem SoundBut.of_none (h : SoundBut c calls p l) (hp : l.principals p = none) :
    Whole c calls l := by
  refine ⟨h.sound, fun q => ?_⟩
  by_cases hq : q = p
  · subst hq
    intro r hr
    rw [hp] at hr
    cases hr
  · exact h.others q hq

/-- A principal is registered, without streams and checkpoints. -/
def Ledger.register (l : Ledger) (p : JsString) (r : PrincipalRecord) : Ledger :=
  { l with
      principals := Function.update l.principals p (some r)
      checkpoints := Function.update l.checkpoints p [] }

theorem Ledger.register_of_ne (l : Ledger) {q : JsString} (r : PrincipalRecord) (h : q ≠ p) :
    (l.register p r).principals q = l.principals q ∧ (l.register p r).checkpoints q = l.checkpoints q :=
  ⟨Function.update_of_ne h _ _, Function.update_of_ne h _ _⟩

theorem Whole.register (h : Whole c calls l) {r : PrincipalRecord} (hid : r.principalId = p)
    (hids : r.streamIds = []) (hseq : r.checkpointSeq = 0)
    (hhead : r.checkpointHead = principalGenesisHash) : Whole c calls (l.register p r) := by
  have hself : (l.register p r).principals p = some r := Function.update_self _ _ _
  have hnil : (l.register p r).checkpoints p = [] := Function.update_self _ _ _
  refine ⟨⟨?_, h.sound.named, h.sound.chained, ?_, ?_⟩, ?_⟩
  · intro q r' hr'
    by_cases hq : q = p
    · subst hq
      obtain rfl := Option.some.inj (hself.symm.trans hr')
      exact hid
    · exact h.sound.keyed q r' ((l.register_of_ne r hq).1.symm.trans hr')
  · intro q r' hr' s hs
    by_cases hq : q = p
    · subst hq
      obtain rfl := Option.some.inj (hself.symm.trans hr')
      rw [hids] at hs
      cases hs
    · exact h.sound.listed q r' ((l.register_of_ne r hq).1.symm.trans hr') s hs
  · intro q r' hr'
    by_cases hq : q = p
    · subst hq
      obtain rfl := Option.some.inj (hself.symm.trans hr')
      rw [hnil, hseq, hhead]
      exact ⟨rfl, rfl, rfl⟩
    · rw [(l.register_of_ne r hq).1] at hr'
      rw [(l.register_of_ne r hq).2]
      exact h.sound.checkpointed q r' hr'
  · intro q
    by_cases hq : q = p
    · subst hq
      intro r' _ latest hlatest
      rw [hnil] at hlatest
      cases hlatest
    · obtain ⟨hprincipal, hcheckpoints⟩ := l.register_of_ne r hq
      exact (h.upToDate q).of_streams hprincipal hcheckpoints fun _ _ _ _ => rfl

theorem grows_register {r : PrincipalRecord} (hp : l.principals p = none) :
    Grows l (l.register p r) := by
  rintro q ⟨r', hr'⟩
  have hq : q ≠ p := by
    rintro rfl
    rw [hp] at hr'
    cases hr'
  rw [(l.register_of_ne r hq).1, (l.register_of_ne r hq).2]
  exact ⟨⟨r', hr'⟩, List.prefix_refl _⟩

theorem Whole.upsertPrincipal (h : Whole c calls l) (now : JsNumber) (publicKeyJwk : JsonWebKey)
    (keyFingerprint : JsString) (authorizationContext : Fields) :
    Whole c calls (upsertPrincipal c now publicKeyJwk keyFingerprint authorizationContext l) ∧
      Grows l (upsertPrincipal c now publicKeyJwk keyFingerprint authorizationContext l) := by
  rw [Principal.upsertPrincipal]
  cases hp : l.principals (principalIdFromFingerprint c keyFingerprint) with
  | some existing => exact ⟨h, .refl l⟩
  | none =>
      refine ⟨?_, grows_register hp⟩
      refine h.register ?_ ?_ ?_ ?_ <;> rfl

theorem Whole.appendStreamEvent (h : Whole c calls l) (times : Times) (p s : JsString)
    (eventType : PrincipalEventType) (payload : Fields) :
    Whole c calls (appendStreamEvent c times p s eventType payload l).2 ∧
      Grows l (appendStreamEvent c times p s eventType payload l).2 := by
  rw [Principal.appendStreamEvent]
  cases hr : mustPrincipal l p with
  | error e => exact ⟨h, .refl l⟩
  | ok r =>
      rw [mustPrincipal_ok] at hr
      rw [orThrow_ok]
      cases hs : ownStream l p s with
      | error e => exact ⟨h, .refl l⟩
      | ok stream =>
          obtain ⟨hstream, howner⟩ : l.streams s = some stream ∧ stream.principalId = p := by
            rw [ownStream] at hs
            cases hfilter : (l.streams s).filter fun stream => stream.principalId = p with
            | none => rw [hfilter] at hs; cases hs
            | some stream' =>
                rw [hfilter] at hs
                obtain rfl := Except.ok.inj hs
                simpa using Option.filter_eq_some_iff.mp hfilter
          rw [orThrow_ok]
          cases hevent : nextEvent c times.event stream eventType payload {} with
          | error e => exact ⟨h, .refl l⟩
          | ok event =>
              obtain ⟨hseq, hprev, hhash⟩ := nextEvent_ok hevent
              have hpushed := (h.but p).pushEvent hstream howner hseq hprev hhash
              have hrecord : (Principal.pushEvent stream event l).principals p = some r := hr
              refine ⟨(hpushed.appendCheckpoint hrecord (Eq.refl r.core) _).1, ?_⟩
              exact grows_appendCheckpoint times.checkpoint r (Principal.pushEvent stream event l)

theorem Whole.closeSession (h : Whole c calls l) (times : Times) (p s session : JsString) :
    Whole c calls (closeSession c times p s session l).2 ∧
      Grows l (closeSession c times p s session l).2 := by
  rw [Principal.closeSession]
  cases hr : mustPrincipal l p with
  | error e => exact ⟨h, .refl l⟩
  | ok r =>
      rw [mustPrincipal_ok] at hr
      have hsame : SameCore l (l.setPrincipal p
          { r with activeSessionIds := r.activeSessionIds.filter (· ≠ session) }) :=
        sameCore_setPrincipal hr rfl
      obtain ⟨hwhole, hgrows⟩ := (h.sameCore hsame).appendStreamEvent times p s .sessionClosed
        [(lit "providerSessionId", .string session)]
      exact ⟨hwhole, hsame.grows.trans hgrows⟩

theorem Whole.startRotation (h : Whole c calls l) (p : JsString) (publicKeyJwk : JsonWebKey) :
    Whole c calls (startRotation p publicKeyJwk l).2 ∧ Grows l (startRotation p publicKeyJwk l).2 := by
  rw [Principal.startRotation]
  cases hr : mustPrincipal l p with
  | error e => exact ⟨h, .refl l⟩
  | ok r =>
      have hsame : SameCore l (l.setPrincipal p { r with publicKeyJwk }) :=
        sameCore_setPrincipal (mustPrincipal_ok.mp hr) rfl
      exact ⟨h.sameCore hsame, hsame.grows⟩

theorem Whole.finishRotation (h : Whole c calls l) (times : Times) (p keyFingerprint : JsString)
    (keyVersion : Option JsNumber) :
    Whole c calls (finishRotation c times p keyFingerprint keyVersion l).2 ∧
      Grows l (finishRotation c times p keyFingerprint keyVersion l).2 := by
  rw [Principal.finishRotation]
  cases hr : mustPrincipal l p with
  | error e => exact ⟨h, .refl l⟩
  | ok r =>
      refine ⟨((h.but p).appendCheckpoint (mustPrincipal_ok.mp hr) ?_ _).1, ?_⟩
      · rfl
      · exact grows_appendCheckpoint _ _ _

/-! ### A binding -/

mutual

theorem isData_sanitizeCaptureValue {v : JsValue} (h : isData v = true) :
    isData (sanitizeCaptureValue v) = true := by
  match v, h with
  | .array items, h => exact itemsAreData_sanitizeItems h
  | .object fields, h => exact fieldsAreData_sanitizeFields h
  | .null, _ | .bool _, _ | .number _, _ | .string _, _ | .undefined, _ => rfl

theorem itemsAreData_sanitizeItems {items : List JsValue} (h : itemsAreData items = true) :
    itemsAreData (sanitizeItems items) = true := by
  match items, h with
  | [], _ => rfl
  | v :: rest, h =>
      rw [itemsAreData, Bool.and_eq_true] at h
      rw [sanitizeItems, itemsAreData, Bool.and_eq_true]
      exact ⟨isData_sanitizeCaptureValue h.1, itemsAreData_sanitizeItems h.2⟩

theorem fieldsAreData_sanitizeFields {fields : Fields} (h : fieldsAreData fields = true) :
    fieldsAreData (sanitizeFields fields) = true := by
  match fields, h with
  | [], _ => rfl
  | (k, v) :: rest, h =>
      rw [fieldsAreData, Bool.and_eq_true] at h
      rw [sanitizeFields]
      split
      · exact fieldsAreData_sanitizeFields h.2
      · rw [fieldsAreData, Bool.and_eq_true]
        refine ⟨?_, fieldsAreData_sanitizeFields h.2⟩
        split
        · rfl
        · exact isData_sanitizeCaptureValue h.1

end

/-- What is redacted need not be data. -/
theorem fieldsAreData_of_sensitive {fields : Fields}
    (h : ∀ f ∈ fields, sensitiveField f.1 = true ∨ isData f.2 = true) :
    fieldsAreData (sanitizeFields fields) = true := by
  induction fields with
  | nil => rfl
  | cons f rest ih =>
      have hrest := ih fun g hg => h g (List.mem_cons_of_mem f hg)
      obtain ⟨k, v⟩ := f
      rw [sanitizeFields]
      split
      · exact hrest
      · rw [fieldsAreData, hrest, Bool.and_true]
        rcases h (k, v) List.mem_cons_self with hk | hv
        · rw [if_pos hk]
          rfl
        · split
          · rfl
          · exact isData_sanitizeCaptureValue hv

theorem bindPayload_data {input : BindSessionInput} (r : PrincipalRecord)
    (h : isData (sanitizeCaptureValue input.runtime) = true) :
    isData (.object (sanitizeFields (bindPayload input r))) = true := by
  refine fieldsAreData_of_sensitive fun f hf => ?_
  simp only [bindPayload, List.mem_cons, List.not_mem_nil, or_false] at hf
  rcases hf with rfl | rfl | rfl | rfl | rfl | rfl
  · exact Or.inr rfl
  · exact Or.inr rfl
  · exact Or.inr rfl
  · exact Or.inr rfl
  · exact Or.inr h
  · have hsensitive : sensitiveField (lit "authorizationContext") = true := by decide +kernel
    exact Or.inl hsensitive

/-- A proof hashes the runtime metadata, so that what has been proved can be hashed. -/
theorem isData_of_proof {now : JsNumber} {input : BindSessionInput} {keyFingerprint : JsString}
    (h : verifyPrincipalSessionProof c now input keyFingerprint = .ok ()) :
    isData (sanitizeCaptureValue input.runtime) = true := by
  simp only [verifyPrincipalSessionProof, buildPrincipalSessionProofPayload, hashOf, bind_eq_ok,
    ensure_eq_ok, require_eq_ok, exists_unit] at h
  obtain ⟨_, _, _, ⟨_, _, _, ⟨hruntime, _⟩, _⟩, _⟩ := h
  exact hruntime

theorem nextEvent_of_data (timestamp : JsNumber) (stream : PrincipalStreamRecord)
    (eventType : PrincipalEventType) {payload : Fields} (options : EventOptions)
    (h : isData (.object (sanitizeFields payload)) = true) :
    ∃ event, nextEvent c timestamp stream eventType payload options = .ok event := by
  rw [nextEvent, hashOf, require, if_pos h]
  exact ⟨_, rfl⟩

theorem Whole.finishBind (h : Whole c calls l) (hapart : StreamsApart c calls) (times : Times)
    {input : BindSessionInput} (authorizationContext : Fields)
    (hnamed : Named c calls (makeStreamId c p input.provider input.agent) p)
    (hdata : isData (sanitizeCaptureValue input.runtime) = true) :
    Whole c calls (finishBind c times input p authorizationContext l).2 ∧
      Grows l (finishBind c times input p authorizationContext l).2 ∧
      ∀ b, (finishBind c times input p authorizationContext l).1 = .ok b →
        b.principalId = p ∧ Bound (finishBind c times input p authorizationContext l).2 p := by
  have hsame := sameCore_updatePrincipal
    (Principal.upsertStream p (makeStreamId c p input.provider input.agent) input.provider
      input.agent input.providerSessionId l) p (f := joinSession input.providerSessionId authorizationContext)
    fun _ => rfl
  have hjoined : SoundBut c calls p (joinStream c input p authorizationContext l) :=
    (h.upsertStream hnamed).sameCore hsame
  have hgrows : Grows l (joinStream c input p authorizationContext l) :=
    (grows_upsertStream _ _ _ _ _ l).trans hsame.grows
  obtain ⟨stream, hstream⟩ := joinStream_streams (c := c) input p authorizationContext l
  have howner : stream.principalId = p :=
    hapart _ _ _ (hjoined.sound.named _ stream hstream).2 hnamed
  rw [Principal.finishBind]
  generalize joinStream c input p authorizationContext l = joined at *
  cases hr : mustPrincipal joined p with
  | error e =>
      refine ⟨hjoined.of_none (mustPrincipal_error hr), hgrows, fun b hb => ?_⟩
      cases hb
  | ok r =>
      rw [mustPrincipal_ok] at hr
      obtain ⟨event, hevent⟩ := nextEvent_of_data (c := c) times.event stream .sessionBound
        (bindOptions c input) (bindPayload_data r hdata)
      have hheld : heldStream joined (makeStreamId c p input.provider input.agent) = .ok stream := by
        rw [heldStream, hstream]
        rfl
      rw [orThrow_ok, hheld, orThrow_ok, hevent, orThrow_ok]
      obtain ⟨hseq, hprev, hhash⟩ := nextEvent_ok hevent
      have hpushed := hjoined.pushEvent hstream howner hseq hprev hhash
      have hrecord : (Principal.pushEvent stream event joined).principals p = some r := hr
      obtain ⟨hwhole, hbound⟩ := hpushed.appendCheckpoint hrecord (Eq.refl r.core) times.checkpoint
      refine ⟨hwhole, ?_, fun b hb => ?_⟩
      · exact hgrows.trans
          (grows_appendCheckpoint times.checkpoint r (Principal.pushEvent stream event joined))
      · obtain rfl := Except.ok.inj hb
        exact ⟨hjoined.sound.keyed p r hr, hbound⟩

end Parts

end Principal
