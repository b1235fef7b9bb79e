import BpcProtocol.Ha.CutoverSteps

set_option autoImplicit false

/-! # Retries of `markFenced`

A `markFenced` that is called again finds its own FENCED receipt as the head, or the ACTIVE one that
has followed it. Both are admitted, but the witness is compared with the head, and the witness names
the FENCED receipt: the retry answers while the head is FENCED, and throws once it is ACTIVE. -/

namespace Ha

open Fallible Relational Async Transaction

variable (c : Crypto) (resolver : PublicKeyResolver c)

/-! ## The witness names the last FENCED receipt -/

/-- The witness of a stream holds the digest of its last FENCED receipt. -/
def WitnessNames (db : ControlDb) (streamId : JsString) : Prop :=
  ∀ w ∈ db.witness streamId, ∀ f ∈ lastFenced (db.receipts streamId),
    w.stateDigest = f.stateDigestSigned

/-- A stream without a witness has retained nothing. -/
theorem CutoverInv.unwitnessed {db : ControlDb} {s : JsString} (hinv : CutoverInv c resolver db s)
    (h : db.witness s = none) : db.receipts s = [] := by
  obtain ⟨_, -, -, hnone, -⟩ := hinv.witness
  exact hnone h

variable {c resolver}

theorem WitnessNames.effect {o : CutoverOp c} {db db' : ControlDb}
    (heffect : CutoverEffect c o db db') (hinv : ∀ s, CutoverInv c resolver db s)
    (hnames : ∀ s, WitnessNames db s) (s : JsString) : WitnessNames db' s := by
  cases heffect with
  | none => exact hnames s
  | attested commandId attestation _ table hrows => exact hnames s
  | genesis streamId digest _ table hkeeps =>
      intro w hw f hf
      by_cases hs : db.witness s = none
      · have hf' : f ∈ lastFenced (db.receipts s) := hf
        rw [(hinv s).unwitnessed c resolver hs] at hf'
        simp [lastFenced] at hf'
      · exact hnames s w ((hkeeps s hs).symm ▸ hw) f hf
  | @prepared ctl _ _ input r h =>
      intro w hw f hf
      rw [h.receipts] at hf
      by_cases hs : db.witness s = none
      · rw [(hinv s).unwitnessed c resolver hs, List.nil_append] at hf
        split at hf
        · simp [lastFenced, h.phase] at hf
        · simp [lastFenced] at hf
      · rw [h.witness s hs] at hw
        refine hnames s w hw f ?_
        split at hf
        · simpa [lastFenced_append, h.phase] using hf
        · simpa using hf
  | @advanced ctl commandId phase _ _ current r next hmem hcommand hphase h =>
      intro w hw f hf
      rw [h.receipts] at hf
      by_cases hs : r.streamId = s
      · subst hs
        rw [if_pos rfl, lastFenced_append, h.phase] at hf
        by_cases hnext : next = .fenced
        · rw [if_pos hnext] at hf
          obtain rfl : r = f := by simpa using hf
          obtain ⟨w', hw', hdigest⟩ := h.fenced hnext
          obtain rfl : w' = w := by simpa [hw'] using hw
          exact hdigest
        · rw [if_neg hnext] at hf
          rw [h.witness _ (Or.inl hnext)] at hw
          exact hnames _ w hw f hf
      · rw [if_neg hs, List.append_nil] at hf
        rw [h.witness s (Or.inr fun he => hs he.symm)] at hw
        exact hnames s w hw f hf

section Run

variable {cfg : CutoverConfig c}

theorem witnessNames_of_reachable
    (h : Transition.Reachable
      ((cutoverService c resolver (RequestsAccepted c resolver)).system ℕ) cfg) :
    ∀ s, WitnessNames cfg.shared s := by
  have hboth : ∀ s, CutoverInv c resolver cfg.shared s ∧ WitnessNames cfg.shared s := by
    refine Service.invariant
      (I := fun db => ∀ s, CutoverInv c resolver db s ∧ WitnessNames db s)
      (P := SignsAccepted c resolver) (fun req hreq => uses_of_accepted c resolver hreq) ?_ ?_ ?_ h
    · rintro db rfl s
      exact ⟨CutoverInv.empty c resolver s, fun w hw => by cases hw⟩
    · rintro db o r db' ho hI ⟨evidence, hout⟩ s
      have hinv : ∀ s, CutoverInv c resolver db s := fun s => (hI s).1
      have hnames : ∀ s, WitnessNames db s := fun s => (hI s).2
      refine hout.induction
        (P := fun db => CutoverInv c resolver db s ∧ WitnessNames db s) (hI s) fun a t ha => ?_
      exact ⟨CutoverInv.body c resolver ho hinv ha s,
        WitnessNames.effect (effect_of_body c resolver ha) hinv hnames s⟩
    · rintro db db' hI ⟨grant, leases, -, rfl⟩ s
      exact ⟨(hI s).1.congr c resolver rfl rfl rfl, (hI s).2⟩
  exact fun s => (hboth s).2

/-! ## Nothing that is retained is lost -/

/-- Every stream's receipts are a prefix of the later ones. -/
def Retains (db db' : ControlDb) : Prop :=
  ∀ s, db.receipts s <+: db'.receipts s

theorem Retains.effect {o : CutoverOp c} {db db' : ControlDb} (h : CutoverEffect c o db db') :
    Retains db db' := by
  intro s
  cases h with
  | none => exact List.prefix_rfl
  | attested commandId attestation _ table hrows => exact List.prefix_rfl
  | genesis streamId digest _ table hkeeps => exact List.prefix_rfl
  | prepared ctl h => exact h.receipts s ▸ List.prefix_append _ _
  | advanced ctl commandId phase hmem hcommand hphase h => exact h.receipts s ▸ List.prefix_append _ _

theorem Retains.exec {admits : CutoverRequest c → Prop} {db db' : ControlDb} {o : CutoverOp c}
    {x : CutoverAns c o} (h : (cutoverService c resolver admits).exec db o x db') :
    Retains db db' := by
  obtain ⟨evidence, hout⟩ := h
  rcases hout.unchanged_or_ran with rfl | ⟨a, ha⟩
  · exact fun s => List.prefix_rfl
  · exact Retains.effect (effect_of_body c resolver ha)

/-- The operations in the log of a run, with what each left and what has become of it since. -/
theorem log_retains
    (h : Transition.Reachable
      ((cutoverService c resolver (RequestsAccepted c resolver)).system ℕ) cfg)
    {e : Entry ℕ (CutoverOp c) (CutoverAns c) ControlDb} (he : e ∈ cfg.log) :
    (∀ s, CutoverInv c resolver e.state s) ∧ ∃ t,
      (cutoverService c resolver (RequestsAccepted c resolver)).exec e.state e.made.1 e.made.2 t ∧
        Retains t cfg.shared := by
  have htrans : ∀ s t u : ControlDb, Retains s t → Retains t u → Retains s u :=
    fun s t u hst htu x => (hst x).trans (htu x)
  have henv : ∀ db db', (cutoverService c resolver (RequestsAccepted c resolver)).env db db' →
      Retains db db' := by
    rintro db db' ⟨grant, leases, -, rfl⟩ s
    exact List.prefix_rfl
  obtain ⟨-, hstates⟩ := Service.log_monotone (I := fun db => ∀ s, CutoverInv c resolver db s)
    (R := Retains) (fun _ hreach => cutoverInv_of_reachable c resolver hreach) htrans
    (fun _ _ _ _ _ hexec => Retains.exec hexec) (fun _ _ _ h => henv _ _ h) h
  obtain ⟨-, hleft⟩ := Service.log_pairwise (P := fun _ => True) (I := fun _ => True) (R := Retains)
    (fun req hreq => (uses_of_accepted c resolver hreq).mono fun _ _ => trivial)
    (fun _ _ => trivial) (fun _ _ => List.prefix_rfl) htrans
    (fun _ _ _ _ _ _ hexec => Retains.exec hexec) (fun _ _ _ h => henv _ _ h) h
  exact ⟨(hstates e he).2, hleft e he⟩

end Run

/-! ## The checks of a fence -/

/-- The row of the old source lease that a cutover reads. -/
def ControlDb.oldLease (db : ControlDb) (streamId : JsString) : Option SourceLeaseGrant :=
  db.leases.sourceLease.select fun r => r.streamId == streamId

/-- The old lease's expiry, the clock skew and the transaction window are past on the control clock. -/
def ClockPast (ctl : BpcCutoverController c) (current : CutoverReceipt) (controlNow : ℤ) : Prop :=
  current.oldLeaseExpiresAtMs + ctl.maxClockSkewMs + current.sourceTransactionWindowMs ≤ controlNow ∧
    0 ≤ controlNow ∧ controlNow ≤ maxMs

/-- Of the lease all but the clock is decided by the row and the intent. -/
theorem checkOldLease_eq_ok {ctl : BpcCutoverController c} {current : CutoverReceipt}
    {controlNow : ℤ} {row : Option SourceLeaseGrant} :
    checkOldLease c resolver ctl current controlNow row = .ok () ↔
      (∃ lease, row = some lease ∧ leaseFromRow lease = .ok lease ∧
        verifySourceLeaseGrant c resolver lease = .ok () ∧ lease.status = .revoked ∧
        lease.grantDigest = current.oldLeaseDigest ∧ lease.epoch = current.previousEpoch ∧
        lease.expiresAtMs = current.oldLeaseExpiresAtMs ∧
        lease.maxTransactionDurationMs = current.sourceTransactionWindowMs) ∧
      ClockPast ctl current controlNow := by
  cases row with
  | none => simp [checkOldLease]
  | some lease =>
      simp only [checkOldLease, bind_eq_ok, ensure_eq_ok, exists_unit, safeInt_eq_ok,
        Option.some.injEq]
      constructor
      · rintro ⟨lease', hread, hverify, ⟨h1, h2, h3, h4, h5⟩, now, ⟨⟨-, hpos, hmax⟩, rfl⟩, hpast⟩
        obtain rfl := eq_of_leaseFromRow hread
        exact ⟨⟨lease', rfl, hread, hverify, h1, h2, h3, h4, h5⟩, h4 ▸ hpast, hpos, hmax⟩
      · rintro ⟨⟨_, rfl, hread, hverify, h1, h2, h3, h4, h5⟩, hpast, hpos, hmax⟩
        have hsafe : Js.isSafeInteger controlNow = true := by
          have : maxMs ≤ Js.maxSafeInteger := by decide
          have : 0 ≤ Js.maxSafeInteger := by decide
          simp [Js.isSafeInteger]
          omega
        exact ⟨_, hread, hverify, ⟨h1, h2, h3, h4, h5⟩, _, ⟨⟨hsafe, hpos, hmax⟩, rfl⟩, h4 ▸ hpast⟩

/-- A fence that has been checked for a cutover passes the checks again on the same lease row and the
    same Redis record, if the clock is past. -/
theorem checkFence_again {ctl ctl' : BpcCutoverController c} {db db' : ControlDb}
    {current current' : CutoverReceipt} {before evidence : FenceEvidence}
    (h : checkFence c resolver ctl db current before = .ok ())
    (hintent : current'.toCutoverIntent = current.toCutoverIntent)
    (hlease : db'.oldLease current'.streamId = db.oldLease current'.streamId)
    (hredis : evidence.redis = before.redis) :
    checkFence c resolver ctl' db' current' evidence = .ok () ↔
      ClockPast ctl' current' evidence.controlNow := by
  simp only [checkFence, bind_eq_ok, exists_unit] at h ⊢
  obtain ⟨hold, redis, hredisOk, hcheck⟩ := h
  obtain ⟨hevidence, -⟩ := checkOldLease_eq_ok.mp hold
  rw [checkOldLease_eq_ok]
  constructor
  · exact fun hnow => hnow.1.2
  · intro hpast
    refine ⟨⟨?_, hpast⟩, redis, hredis ▸ hredisOk, ?_⟩
    · show ∃ lease, db'.oldLease current'.streamId = some lease ∧ _
      rw [hlease, hintent]
      exact hevidence
    · simp only [checkRedis, hintent]
      exact hcheck

/-! ## The retry -/

section Retry

variable {cfg : CutoverConfig c} {head : CutoverReceipt}

variable (c resolver) in
/-- `markFenced` has succeeded for the head's cutover, and since then neither the row of the revoked
    lease nor the record of the Redis quorum has changed. -/
def FencedSince (cfg : CutoverConfig c) (head : CutoverReceipt) (evidence : FenceEvidence) : Prop :=
  ∃ e ∈ cfg.log, ∃ ctl before r db',
    e.made = ⟨.transition ctl head.commandId .fenced, .ok r⟩ ∧
    ctl.transition c resolver head.commandId .fenced before e.state = .ok (r, db') ∧
    r.streamId = head.streamId ∧ r.targetEpoch = head.targetEpoch ∧
    cfg.shared.oldLease head.streamId = e.state.oldLease head.streamId ∧
    evidence.redis = before.redis

theorem FencedSince.of_entry {commandId : JsString} {i : ℕ} {ctl : BpcCutoverController c}
    {before evidence : FenceEvidence} {r : CutoverReceipt} {db db' : ControlDb}
    (hlog : ⟨i, ⟨.transition ctl commandId .fenced, .ok r⟩, db⟩ ∈ cfg.log)
    (hran : ctl.transition c resolver commandId .fenced before db = .ok (r, db'))
    (hcommand : head.commandId = commandId) (hstream : r.streamId = head.streamId)
    (hepoch : r.targetEpoch = head.targetEpoch)
    (hlease : cfg.shared.oldLease head.streamId = db.oldLease head.streamId)
    (hredis : evidence.redis = before.redis) : FencedSince c resolver cfg head evidence := by
  subst hcommand
  exact ⟨_, hlog, ctl, before, r, db', rfl, hran, hstream, hepoch, hlease, hredis⟩

/-- A head is the last that its stream has retained. -/
theorem CutoverInv.head_last {db : ControlDb} (hinv : ∀ s, CutoverInv c resolver db s)
    (hmem : head ∈ db.cutoverHead.rows) :
    (db.receipts head.streamId).getLast? = some head := by
  rw [← (hinv head.streamId).head]
  exact ControlDb.head_of_mem hmem

/-- The receipt that a `markFenced` of the log has answered is retained. -/
theorem retained_of_log
    (h : Transition.Reachable
      ((cutoverService c resolver (RequestsAccepted c resolver)).system ℕ) cfg)
    {e : Entry ℕ (CutoverOp c) (CutoverAns c) ControlDb} (he : e ∈ cfg.log)
    {ctl : BpcCutoverController c} {commandId : JsString} {r : CutoverReceipt}
    (hmade : e.made = ⟨.transition ctl commandId .fenced, .ok r⟩) :
    r ∈ cfg.shared.receipts r.streamId := by
  obtain ⟨hinv, t, ⟨evidence, hout⟩, hretains⟩ := log_retains h he
  rw [hmade] at hout
  refine (hretains r.streamId).subset ?_
  cases hout with
  | commit hbody =>
      have hran : ctl.transition c resolver commandId .fenced evidence e.state = .ok (r, t) := hbody
      obtain ⟨current, hsel, ⟨rfl, rfl⟩ | ⟨next, -, hadv⟩⟩ := transition_effect c resolver hran
      · exact List.mem_of_getLast? (CutoverInv.head_last hinv (Table.mem_of_select hsel).1)
      · rw [hadv.receipts, if_pos rfl]
        simp

/-- What has been checked of the fence of the head's cutover still holds, as far as the clock does. -/
theorem checkFence_since
    (h : Transition.Reachable
      ((cutoverService c resolver (RequestsAccepted c resolver)).system ℕ) cfg)
    (hmem : head ∈ cfg.shared.cutoverHead.rows) {evidence : FenceEvidence}
    (hsince : FencedSince c resolver cfg head evidence) (ctl : BpcCutoverController c) :
    checkFence c resolver ctl cfg.shared head evidence = .ok () ↔
      ClockPast ctl head evidence.controlNow := by
  obtain ⟨e, he, ctl₀, before, r, db', hmade, hran, hstream, hepoch, hlease, hredis⟩ := hsince
  have hinv := cutoverInv_of_reachable c resolver h
  -- the receipt answered then and the head are of one epoch, and so of one intent
  have hr := retained_of_log h he hmade
  rw [hstream] at hr
  have hlast := List.mem_of_getLast? (CutoverInv.head_last hinv hmem)
  have hintent : r.toCutoverIntent = head.toCutoverIntent :=
    (hinv head.streamId).chain.same_intent hr hlast hepoch
  unfold BpcCutoverController.transition at hran
  obtain ⟨current, hsel, hcase⟩ := transition_effect c resolver (show ctl₀.transition c resolver
    head.commandId .fenced before e.state = .ok (r, db') from hran)
  have hcurrent : head.toCutoverIntent = current.toCutoverIntent := by
    rcases hcase with ⟨-, rfl⟩ | ⟨next, -, hadv⟩
    · exact hintent.symm
    · exact hintent.symm.trans hadv.intent
  simp only [hsel, bind_eq_ok, transitionFenced, exists_unit] at hran
  obtain ⟨current', hread, hcheck, -⟩ := hran
  obtain rfl := eq_of_currentReceipt c resolver hread
  exact checkFence_again hcheck hcurrent hlease hredis

/-- Past PREPARING the last FENCED receipt is the last receipt, or the one before an ACTIVE one. -/
theorem CutoverChain.lastFenced_eq {history : List CutoverReceipt} (h : CutoverChain history)
    (hlast : history.getLast? = some head) (hphase : head.phase ≠ .preparing) :
    ∃ f, lastFenced history = some f ∧ f ∈ history ∧ f.phase = .fenced ∧
      (head.phase = .fenced → f = head) := by
  obtain ⟨before, rfl⟩ := List.getLast?_eq_some_iff.mp hlast
  cases hp : head.phase with
  | preparing => exact absurd hp hphase
  | fenced => exact ⟨head, by simp [lastFenced_append, hp], by simp, hp, fun _ => rfl⟩
  | active =>
      rcases List.eq_nil_or_concat before with rfl | ⟨older, f, rfl⟩
      · have := h.starts head (by simp)
        simp [hp] at this
      · rw [List.concat_eq_append] at h ⊢
        have hfollows : Follows f head := by
          have := (List.isChain_append.mp h.follows).2.2
          exact this f (by simp) head (by simp)
        have hf : f.phase = .fenced := by
          rcases hfollows with ⟨-, hb, -⟩ | ⟨ha, -⟩ | ⟨-, hb, -⟩
          · simp [hp] at hb
          · exact ha
          · simp [hp] at hb
        exact ⟨f, by rw [lastFenced_append, lastFenced_append, hp, hf]; rfl, by simp, hf,
          fun h => by cases h⟩

theorem target_valid {r : CutoverReceipt} (h : verifyCutoverReceipt c resolver r = .ok ()) :
    Js.isSafeInteger r.targetEpoch ∧ 1 ≤ r.targetEpoch ∧ r.targetEpoch ≤ maxEpoch := by
  simp only [verifyCutoverReceipt, validateBareCutover, bind_eq_ok, id_eq_ok, ensure_eq_ok,
    safeInt_eq_ok, exists_unit] at h
  obtain ⟨⟨-, -, -, -, _, -, _, ⟨h, -⟩, -⟩, -⟩ := h
  exact h

/-- Two receipts of a stream have digests of their own. -/
theorem eq_of_digest {db : ControlDb} {s : JsString} {a b : CutoverReceipt} (ha : a ∈ db.receipts s)
    (hb : b ∈ db.receipts s) (h : a.stateDigestSigned = b.stateDigestSigned) : a = b := by
  obtain ⟨ha, has⟩ := List.mem_filter.mp ha
  obtain ⟨hb, hbs⟩ := List.mem_filter.mp hb
  refine Table.eq_of_clash _ (fun x y => ?_) ha hb ?_
  · simp [cutoverHistorySchema, Bool.beq_comm]
  · simp only [beq_iff_eq] at has hbs
    simp [cutoverHistorySchema, has, hbs, h]

/-- The retry's own check passes exactly while the head is FENCED. -/
theorem checkFencedRetry_iff
    (h : Transition.Reachable
      ((cutoverService c resolver (RequestsAccepted c resolver)).system ℕ) cfg)
    (hmem : head ∈ cfg.shared.cutoverHead.rows) (hphase : head.phase ≠ .preparing) :
    checkFencedRetry c resolver cfg.shared head = .ok () ↔ head.phase = .fenced := by
  have hinv := cutoverInv_of_reachable c resolver h
  have hlast := CutoverInv.head_last hinv hmem
  have hverifies := (hinv head.streamId).verifies c resolver
  obtain ⟨genesis, -, -, hnone, hepoch⟩ := (hinv head.streamId).witness
  have hnames := witnessNames_of_reachable h head.streamId
  obtain ⟨f, hf, hfmem, hfphase, hfhead⟩ :=
    (hinv head.streamId).chain.lastFenced_eq hlast hphase
  cases hw : cfg.shared.witness head.streamId with
  | none =>
      have hnil := hnone hw
      simp [hnil] at hlast
  | some w =>
      have hdigest : w.stateDigest = f.stateDigestSigned := hnames w hw f hf
      have hwepoch : w.epoch = f.targetEpoch := by
        simpa [hf] using hepoch w hw
      simp only [checkFencedRetry, hverifies, hlast, hw, ok_bind, Option.map_some, ensure_of trivial,
        bind_eq_ok, safeInt_eq_ok, ensure_eq_ok]
      constructor
      · rintro ⟨epoch, -, -, hsame⟩
        rw [hdigest] at hsame
        rw [← eq_of_digest hfmem (List.mem_of_getLast? hlast) hsame]
        exact hfphase
      · intro hp
        obtain rfl := hfhead hp
        have hvalid := (hinv f.streamId).verified f hfmem
        exact ⟨_, ⟨hwepoch ▸ target_valid hvalid, rfl⟩, hwepoch, hdigest⟩

/-- **A `markFenced` that is called again** for a cutover it has fenced answers the head and changes
    nothing exactly while the head is still FENCED (and the clock has not been set back). -/
theorem markFenced_again_iff
    (h : Transition.Reachable
      ((cutoverService c resolver (RequestsAccepted c resolver)).system ℕ) cfg)
    {commandId : JsString}
    (hhead : cfg.shared.cutoverHead.select (fun r => r.commandId == commandId) = some head)
    {evidence : FenceEvidence} (hsince : FencedSince c resolver cfg head evidence)
    (ctl : BpcCutoverController c) :
    (CutoverRequest.markFenced ctl commandId).alone c resolver evidence cfg.shared =
        (.ret (some head), cfg.shared) ↔
      head.phase = .fenced ∧ ClockPast ctl head evidence.controlNow := by
  have hmem := (Table.mem_of_select hhead).1
  have hinv := cutoverInv_of_reachable c resolver h
  have hlast := List.mem_of_getLast? (CutoverInv.head_last hinv hmem)
  have hverified := (hinv head.streamId).verified head hlast
  have hcurrent := currentReceipt_of_verified c resolver hverified
  have hfence := checkFence_since h hmem hsince ctl
  have htransition : ctl.transition c resolver commandId .fenced evidence cfg.shared =
      transitionFenced c resolver ctl head evidence cfg.shared := by
    simp only [BpcCutoverController.transition, hhead, hcurrent, ok_bind]
  have hends := @alone_eq_ret c resolver (.markFenced ctl commandId)
    (.transition ctl commandId .fenced) some rfl evidence cfg.shared cfg.shared head
    (Option.some_injective _)
  rw [hends]
  show ctl.transition c resolver commandId .fenced evidence cfg.shared = .ok (head, cfg.shared) ↔ _
  rw [htransition]
  simp only [transitionFenced, bind_eq_ok, exists_unit, hfence]
  constructor
  · rintro ⟨hpast, hrest⟩
    split at hrest
    · next hp =>
        -- a PREPARING head is advanced, and the answer is another receipt
        have hadv := advanced_of_advance c hmem hrest
        have := hadv.phase
        simp [hp] at this
    · next hp =>
        simp only [bind_eq_ok, exists_unit] at hrest
        exact ⟨(checkFencedRetry_iff h hmem hp).mp hrest.1, hpast⟩
  · rintro ⟨hp, hpast⟩
    refine ⟨hpast, ?_⟩
    have hne : head.phase ≠ .preparing := by simp [hp]
    rw [if_neg hne]
    simp only [bind_eq_ok, exists_unit, pure_eq_ok, and_true]
    exact (checkFencedRetry_iff h hmem hne).mpr hp

end Retry

/-! ## A concrete cutover

One stream's cutover from epoch one to two: fenced, and then active. -/

/-- For concrete runs in which digests must differ: a polynomial of the message's bytes, as hex. -/
def polyCrypto : Crypto where
  PrivateKey := ℕ
  PublicKey := ℕ
  sha256 message :=
    let h := message.foldl (fun h b => (h * 257 + b.toNat + 1) % 2 ^ 128) 0
    (List.range 64).map fun i => Js.hexDigit (h / 16 ^ i % 16)
  edSign key _ := Js.decimal key
  edVerify key _ signature := signature == Js.decimal key
  fingerprint key := digestOf (Js.decimal key)

namespace FencedExample

/-- The guard's key. -/
def keys : PublicKeyResolver polyCrypto := fun keyId =>
  if keyId = Js.lit "guard" then some (1 : ℕ) else none

/-- The snapshot authority's key. -/
def sourceKeys : PublicKeyResolver polyCrypto := fun keyId =>
  if keyId = Js.lit "snapshot" then some (2 : ℕ) else none

def guard : BpcCutoverController polyCrypto := ⟨Js.lit "guard", (1 : ℕ), 0⟩

/-- A lease that is revoked, and has expired at zero. -/
def bareGrant (epoch grantSeq : ℤ) (command : String) (prevDigest : Option JsString) :
    BareSourceLeaseGrant where
  streamId := Js.lit "stream"
  epoch := epoch
  status := .revoked
  holderNodeId := Js.lit "a"
  leaseId := Js.lit "lease"
  commandId := Js.lit command
  expiresAtMs := 0
  maxTransactionDurationMs := 1
  grantSeq := grantSeq
  prevDigest := prevDigest

def signedGrant (bare : BareSourceLeaseGrant) : SourceLeaseGrant :=
  orElse (signSourceLeaseGrant polyCrypto (Js.lit "guard") (1 : ℕ) bare)
    { bare with grantDigest := [], keyId := [], signature := [] }

def grant : SourceLeaseGrant := signedGrant (bareGrant 1 1 "revoke" none)

/-- The Redis record of an epoch. -/
def record (epoch : ℤ) : RedisFenceRecord :=
  { streamId := Js.lit "stream", epoch, nodeId := Js.lit "b", authoritySystemId := Js.lit "7"
    nodeCredentialKeyId := Js.lit "node", commandId := Js.lit "cutover", claimedAtMs := 0
    keyId := Js.lit "guard", signature := Js.decimal 1 }

def recordDigest (epoch : ℤ) : JsString :=
  orElse (redisFenceRecordDigest polyCrypto (record epoch)) []

/-- The cutover of an epoch, always under one command id. -/
def intent (previousEpoch : ℤ) (oldLeaseDigest : JsString) : CutoverIntent where
  streamId := Js.lit "stream"
  commandId := Js.lit "cutover"
  previousEpoch := previousEpoch
  targetEpoch := previousEpoch + 1
  targetNodeId := Js.lit "b"
  targetSourceEpoch := Js.lit "next"
  manifestDigest := digestOf []
  finalSourceSequence := 0
  stateDigest := digestOf []
  redisClaimDigest := recordDigest (previousEpoch + 1)
  oldLeaseDigest := oldLeaseDigest
  oldLeaseExpiresAtMs := 0
  sourceTransactionWindowMs := 1

/-- The control clock past the window, and the Redis quorum on the record of an epoch. -/
def evidence (epoch : ℤ) : FenceEvidence := ⟨1, .ok (record epoch)⟩

def leases : LeaseDb :=
  orElse (installSourceLeaseGrant polyCrypto keys grant .empty) .empty

/-- What a transaction leaves, and the receipt it answers. -/
def ran {α : Type} (x : Except HaError (α × ControlDb)) (a : α) : α × ControlDb :=
  orElse x (a, .empty)

def atGenesis : Unit × ControlDb :=
  ran (bootstrapGenesisTx (Js.lit "stream") (recordDigest 1) { ControlDb.empty with leases }) ()

/-- A receipt for a transaction that has answered none. -/
def noReceipt : CutoverReceipt :=
  { intent 0 [] with
    phase := .preparing, prevStateDigest := none, stateDigestSigned := [], keyId := [], signature := [] }

def begun : CutoverReceipt × ControlDb :=
  ran (guard.begin polyCrypto keys (intent 1 grant.grantDigest) atGenesis.2) noReceipt

def fenced : CutoverReceipt × ControlDb :=
  ran (guard.transition polyCrypto keys (Js.lit "cutover") .fenced (evidence 2) begun.2) noReceipt

/-- What the snapshot authority attests of a FENCED head. -/
def attestation (head : CutoverReceipt) : PromotionReadinessAttestation :=
  let bare : PromotionReadinessAttestation :=
    { streamId := head.streamId, commandId := head.commandId, targetEpoch := head.targetEpoch
      targetSourceEpoch := head.targetSourceEpoch, targetSystemId := Js.lit "7"
      snapshotKeyId := Js.lit "snapshot", manifestDigest := head.manifestDigest
      appliedSequence := head.finalSourceSequence, stateDigest := head.stateDigest
      fencedDigest := head.stateDigestSigned, keyId := Js.lit "snapshot", attestationDigest := []
      signature := Js.decimal 2 }
  { bare with attestationDigest := polyCrypto.sha256 (promotionAttestationMessage bare []) }

/-- The call that completes the cutover. -/
def activation : CutoverRequest polyCrypto :=
  .markActive guard (Js.lit "cutover") (attestation fenced.1) sourceKeys

/-- The control database once the head is ACTIVE. -/
def active : ControlDb := (activation.alone polyCrypto keys (evidence 2) fenced.2).2

/-- Every transaction of the run succeeds, and the retry of the last one does not. -/
theorem run_computes :
    (installSourceLeaseGrant polyCrypto keys grant .empty).isOk = true ∧
    (bootstrapGenesisTx (Js.lit "stream") (recordDigest 1)
      { ControlDb.empty with leases }).isOk = true ∧
    (guard.begin polyCrypto keys (intent 1 grant.grantDigest) atGenesis.2).isOk = true ∧
    (guard.transition polyCrypto keys (Js.lit "cutover") .fenced (evidence 2) begun.2).isOk = true ∧
    verify polyCrypto keys (record 1).keyId (redisFenceMessage (record 1).toBareRedisFenceRecord)
      (record 1).signature = .ok () ∧
    redisFenceRecordDigest polyCrypto (record 1) = .ok (recordDigest 1) ∧
    (fenced.2.cutoverHead.rows = [fenced.1] ∧ fenced.1.commandId = Js.lit "cutover" ∧
      fenced.1.phase = .fenced ∧
      fenced.1.oldLeaseExpiresAtMs + guard.maxClockSkewMs + fenced.1.sourceTransactionWindowMs ≤ 1 ∧
      fenced.2.oldLease fenced.1.streamId = begun.2.oldLease fenced.1.streamId) ∧
    (active.cutoverHead.rows.map (·.commandId) = [Js.lit "cutover"] ∧
      ∀ x ∈ active.cutoverHead.rows, fenced.1.streamId = x.streamId ∧
        fenced.1.targetEpoch = x.targetEpoch ∧
        active.oldLease x.streamId = begun.2.oldLease x.streamId ∧
        x.oldLeaseExpiresAtMs + guard.maxClockSkewMs + x.sourceTransactionWindowMs ≤ 1) ∧
    (guard.transition polyCrypto keys (Js.lit "cutover") .fenced (evidence 2) active).isOk = false := by
  decide +kernel

theorem orElse_eq {α : Type} {x : Except HaError α} (h : x.isOk = true) (a : α) :
    x = .ok (orElse x a) := by
  cases x with
  | ok b => rfl
  | error e => cases h

theorem ran_eq {α : Type} {x : Except HaError (α × ControlDb)} (h : x.isOk = true) (a : α) :
    x = .ok ((ran x a).1, (ran x a).2) :=
  orElse_eq h (a, .empty)

theorem install_eq : installSourceLeaseGrant polyCrypto keys grant .empty = .ok leases :=
  orElse_eq run_computes.1 _

theorem fenced_eq : guard.transition polyCrypto keys (Js.lit "cutover") .fenced (evidence 2) begun.2 =
    .ok (fenced.1, fenced.2) := by
  obtain ⟨-, -, -, hfenced, -⟩ := run_computes
  exact ran_eq hfenced noReceipt

theorem guard_accepted : GuardAccepted polyCrypto keys guard := by
  intro message signature hsign
  simp only [sign, bind_eq_ok, id_eq_ok, exists_unit, pure_eq_ok] at hsign
  obtain ⟨-, rfl⟩ := hsign
  have hresolve : publicKey polyCrypto keys (Js.lit "guard") = .ok (1 : ℕ) :=
    (publicKey_eq_ok _ _ _ _).mpr ⟨by decide, if_pos rfl⟩
  have hb64 : b64u (Js.decimal 1) = true := by decide
  simp only [verify, bind_eq_ok, ensure_eq_ok, exists_unit]
  exact ⟨hb64, (1 : ℕ), hresolve, beq_self_eq_true (Js.decimal 1)⟩

/-- The run to the FENCED head, whose last operation is the `markFenced`. -/
theorem reachable_fenced :
    ∃ cfg : CutoverConfig polyCrypto, Transition.Reachable
        ((cutoverService polyCrypto keys (RequestsAccepted polyCrypto keys)).system ℕ) cfg ∧
      cfg.shared = fenced.2 ∧ (∀ j, 3 ≤ j → cfg.calls j = none) ∧
      ⟨2, ⟨.transition guard (Js.lit "cutover") .fenced, .ok fenced.1⟩, begun.2⟩ ∈ cfg.log := by
  obtain ⟨-, hgenesis, hbegin, -, hverify, hdigest, -⟩ := run_computes
  have h0 : Transition.Reachable
      ((cutoverService polyCrypto keys (RequestsAccepted polyCrypto keys)).system ℕ)
      ⟨.empty, fun _ => none, []⟩ := .init ⟨rfl, fun _ => rfl, rfl⟩
  have h1 := h0.next (Service.Step.env { ControlDb.empty with leases } ⟨grant, leases, install_eq, rfl⟩)
  obtain ⟨cfg₂, h2, hs2, hc2, -⟩ := reachable_of_commit polyCrypto keys h1 (i := 0) rfl
    (.bootstrapGenesis (record 1)) trivial
    (o := .bootstrapGenesis (Js.lit "stream") (recordDigest 1)) (f := fun _ => none)
    (e := evidence 2) (program_bootstrapGenesis polyCrypto keys rfl hverify hdigest)
    (ran_eq hgenesis ())
  obtain ⟨cfg₃, h3, hs3, hc3, -⟩ := reachable_of_commit polyCrypto keys h2 (i := 1)
    (by rw [hc2 1 (by decide)]) (.begin guard (intent 1 grant.grantDigest)) trivial
    (o := .begin guard (intent 1 grant.grantDigest)) (f := some) (e := evidence 2) rfl
    (by rw [hs2]; exact ran_eq hbegin noReceipt)
  obtain ⟨cfg₄, h4, hs4, hc4, hlog⟩ := reachable_of_commit polyCrypto keys h3 (i := 2)
    (by rw [hc3 2 (by decide), hc2 2 (by decide)])
    (.markFenced guard (Js.lit "cutover")) guard_accepted
    (o := .transition guard (Js.lit "cutover") .fenced) (f := some) (e := evidence 2) rfl
    (by rw [hs3]; exact fenced_eq)
  refine ⟨cfg₄, h4, hs4, fun j hj => ?_, ?_⟩
  · rw [hc4 j (by omega), hc3 j (by omega), hc2 j (by omega)]
  · rw [hlog, hs3]
    exact List.mem_append_right _ List.mem_cons_self

end FencedExample

open FencedExample in
/-- The retry answers a head that is still FENCED. -/
theorem markFenced_again_fenced :
    (CutoverRequest.markFenced guard (Js.lit "cutover")).alone polyCrypto keys (evidence 2) fenced.2 =
      (.ret (some fenced.1), fenced.2) := by
  obtain ⟨cfg, h, hs, -, hlog⟩ := reachable_fenced
  obtain ⟨-, -, -, -, -, -, ⟨hrows, hcommand, hphase, hclock, hlease⟩, -⟩ := run_computes
  have hhead : cfg.shared.cutoverHead.select (fun r => r.commandId == Js.lit "cutover") =
      some fenced.1 := by
    rw [hs, Table.select, hrows]
    simp [hcommand]
  rw [← hs]
  refine (markFenced_again_iff h hhead
    (.of_entry hlog fenced_eq hcommand rfl rfl (by rw [hs]; exact hlease) rfl) guard).mpr ⟨hphase, ?_⟩
  exact ⟨hclock, by decide, by decide⟩

open FencedExample in
/-- The retry of a fence whose head is ACTIVE throws. -/
theorem markFenced_again_active :
    ¬∀ (cfg : CutoverConfig polyCrypto) (head : CutoverReceipt) (evidence : FenceEvidence),
      Transition.Reachable
        ((cutoverService polyCrypto keys (RequestsAccepted polyCrypto keys)).system ℕ) cfg →
      cfg.shared.cutoverHead.select (fun r => r.commandId == Js.lit "cutover") = some head →
      FencedSince polyCrypto keys cfg head evidence → ClockPast guard head evidence.controlNow →
      (CutoverRequest.markFenced guard (Js.lit "cutover")).alone polyCrypto keys evidence cfg.shared =
        (.ret (some head), cfg.shared) := by
  intro hclaim
  obtain ⟨cfg₀, h₀, hs₀, hc₀, hlog₀⟩ := reachable_fenced
  obtain ⟨cfg, h, hs, -, hbegins⟩ := run_alone polyCrypto keys h₀ (hc₀ 3 le_rfl) activation
    guard_accepted (evidence 2)
  have hshared : cfg.shared = active := by
    rw [hs, hs₀, active]
  obtain ⟨-, -, -, -, -, -, -, ⟨hcommands, hbound⟩, hthrows⟩ := run_computes
  obtain ⟨head, hrows, hcommand⟩ := List.map_eq_singleton_iff.mp hcommands
  have hhead : active.cutoverHead.select (fun r => r.commandId == Js.lit "cutover") = some head := by
    rw [Table.select, hrows]
    simp [hcommand]
  obtain ⟨hstream, hepoch, hlease, hclock⟩ := hbound head (by simp [hrows])
  have hret := hclaim cfg head (evidence 2) h (by rw [hshared]; exact hhead)
    (.of_entry (hbegins.subset hlog₀) fenced_eq hcommand hstream hepoch
      (by rw [hshared]; exact hlease) rfl)
    ⟨hclock, by decide, by decide⟩
  rw [hshared] at hret
  have hok := (alone_eq_ret polyCrypto keys (.markFenced guard (Js.lit "cutover"))
    (.transition guard (Js.lit "cutover") .fenced) (f := some) rfl (evidence 2)
    (Option.some_injective _)).mp hret
  change guard.transition polyCrypto keys (Js.lit "cutover") .fenced (evidence 2) active = _ at hok
  rw [hok] at hthrows
  cases hthrows

end Ha
