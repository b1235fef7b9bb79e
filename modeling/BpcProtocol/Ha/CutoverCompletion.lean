import BpcProtocol.Ha.Artifacts
import BpcProtocol.Ha.FencedRetry
import Mathlib.Data.Set.Function

set_option autoImplicit false

/-! # Completing a fenced cutover

`markActive` retains the attestation under the command id before it moves the head. The table of the
attestations is keyed by the command id alone and outlives the cutover, and `begin` admits a command id
whatever is retained under it: a FENCED head can be completed with an attestation exactly if no other one
is retained under its command. -/

namespace Ha

open Fallible Relational Async Transaction

variable (c : Crypto) (resolver : PublicKeyResolver c)

/-! ## Digests that are told apart -/

/-- What the ACTIVE receipt of a FENCED head says. -/
def completed (head : CutoverReceipt) : BareCutover :=
  { head.toBareCutover with phase := .active, prevStateDigest := some head.stateDigestSigned }

/-- The messages whose digests name a stream's receipts, the ACTIVE one to come among them. -/
def receiptMessages (db : ControlDb) (head : CutoverReceipt) : Set Bytes :=
  {m | ∃ v ∈ completed head :: (db.receipts head.streamId).map (·.toBareCutover),
    m = cutoverMessage v []}

/-- The first parts of a receipt's message. -/
def messageHead (v : BareCutover) : List FramePart :=
  [.text (Js.lit "bpc-cutover/v1"), .text v.streamId, .text v.commandId, .text v.phase.text,
    .number v.previousEpoch, .number v.targetEpoch]

theorem messageHead_fits {v : BareCutover} (h : validateBareCutover v = .ok ()) :
    ∀ p ∈ messageHead v, p.Fits := by
  simp only [validateBareCutover, bind_eq_ok, id_eq_ok, safeInt_eq_ok, exists_unit] at h
  obtain ⟨hstream, hcommand, -, -, _, ⟨⟨hprevious, -⟩, -⟩, _, ⟨⟨htarget, -⟩, -⟩, -⟩ := h
  have hnumber : ∀ n : ℤ, Js.isSafeInteger n = true → (FramePart.number n).Fits := by
    rintro n hn b ⟨⟩
    exact (isField_safe hn).2
  have hphase : (FramePart.text v.phase.text).Fits := by
    cases v.phase <;> exact fits_of_ascii (by decide) (by decide)
  have hstreamFits : (FramePart.text v.streamId).Fits := by
    have hlen : v.streamId.length ≤ 512 :=
      (ascii_classPattern (fun _ => Js.idClass_lt (by decide)) hstream).2
    exact fits_of_ascii (ascii_streamRe hstream) (by omega)
  have hcommandFits : (FramePart.text v.commandId).Fits := by
    have hlen : v.commandId.length ≤ 128 :=
      (ascii_classPattern (fun _ => Js.idClass_lt (by decide)) hcommand).2
    exact fits_of_ascii (ascii_idRe hcommand) (by omega)
  simp only [messageHead, List.forall_mem_cons, List.not_mem_nil, false_implies, implies_true,
    and_true]
  exact ⟨fits_of_ascii (by decide) (by decide), hstreamFits, hcommandFits, hphase,
    hnumber _ hprevious, hnumber _ htarget⟩

/-- Messages of receipts tell the phase and the target epoch. -/
theorem phase_of_message {a b : BareCutover} (ha : validateBareCutover a = .ok ())
    (hb : validateBareCutover b = .ok ()) (h : cutoverMessage a [] = cutoverMessage b []) :
    a.phase = b.phase ∧ a.targetEpoch = b.targetEpoch := by
  have hsplit : ∀ v : BareCutover, ∃ rest, cutoverMessage v [] = frame (messageHead v) ++ frame rest := by
    intro v
    refine ⟨[.text v.targetNodeId, .text v.targetSourceEpoch, .text v.manifestDigest,
      .number v.finalSourceSequence, .text v.stateDigest, .text v.redisClaimDigest,
      .text v.oldLeaseDigest, .number v.oldLeaseExpiresAtMs, .number v.sourceTransactionWindowMs,
      .ofOption v.prevStateDigest, .text []], ?_⟩
    simp [cutoverMessage, messageHead, frame]
  obtain ⟨ra, hra⟩ := hsplit a
  obtain ⟨rb, hrb⟩ := hsplit b
  rw [hra, hrb] at h
  obtain ⟨hparts, -⟩ := @payloads_of_frame (messageHead a) (messageHead b) _ _ rfl
    (messageHead_fits ha) (messageHead_fits hb) h
  simp only [messageHead, List.map_cons, List.map_nil, List.cons.injEq, and_true] at hparts
  obtain ⟨-, -, -, hphase, -, htarget⟩ := hparts
  exact ⟨phase_inj hphase, number_inj htarget⟩

/-! ## The last transition -/

section Advance

variable {c resolver} {db : ControlDb} {head : CutoverReceipt}

theorem validate_of_verified {r : CutoverReceipt} (h : verifyCutoverReceipt c resolver r = .ok ()) :
    validateBareCutover r.toBareCutover = .ok () ∧ hex64 r.stateDigestSigned = true := by
  simp only [verifyCutoverReceipt, bind_eq_ok, ensure_eq_ok, exists_unit] at h
  exact ⟨h.1, h.2.1.1⟩

theorem validate_completed (h : verifyCutoverReceipt c resolver head = .ok ()) :
    validateBareCutover (completed head) = .ok () := by
  obtain ⟨hvalid, hhex⟩ := validate_of_verified h
  simp only [validateBareCutover, bind_eq_ok, ensure_eq_ok, exists_unit] at hvalid ⊢
  obtain ⟨h1, h2, h3, h4, n5, h5, n6, h6, n7, h7, n8, h8, n9, h9, h10, h11, h12, h13, h14, -⟩ := hvalid
  exact ⟨h1, h2, h3, h4, n5, h5, n6, h6, n7, h7, n8, h8, n9, h9, h10, h11, h12, h13, h14, hhex⟩

/-- A validated receipt with a digest passes the row checks of its tables. -/
theorem check_of_validate {r : CutoverReceipt} (h : validateBareCutover r.toBareCutover = .ok ())
    (hhex : hex64 r.stateDigestSigned = true) : cutoverCheck r = true := by
  simp only [validateBareCutover, bind_eq_ok, ensure_eq_ok, id_eq_ok, safeInt_eq_ok, exists_unit] at h
  obtain ⟨-, -, -, -, _, ⟨⟨-, h1⟩, -⟩, _, ⟨⟨-, h2⟩, -⟩, _, ⟨⟨-, h3⟩, -⟩, _, ⟨⟨-, h4⟩, -⟩, _,
    ⟨⟨-, h5⟩, -⟩, -, h6, h7, h8, h9, -⟩ := h
  simp only [cutoverCheck, h1, h2, h3, h4, h5, h6, h7, h8, h9, hhex, and_self, decide_true,
    Bool.and_self]

/-- While the head is FENCED, its stream has no ACTIVE receipt of its epoch. -/
theorem CutoverInv.not_active (hinv : CutoverInv c resolver db head.streamId)
    (hlast : (db.receipts head.streamId).getLast? = some head) (hfenced : head.phase = .fenced)
    {x : CutoverReceipt} (hx : x ∈ db.receipts head.streamId) :
    ¬(x.phase = .active ∧ x.targetEpoch = head.targetEpoch) := by
  rintro ⟨hactive, hepoch⟩
  obtain ⟨before, hrows⟩ := List.getLast?_eq_some_iff.mp hlast
  have hkeys := hinv.chain.pairwise_key
  rw [hrows] at hkeys hx
  rcases List.mem_append.mp hx with hx | hx
  · have hle := (List.pairwise_append.mp hkeys).2.2 x hx head (by simp)
    rw [Prod.Lex.toLex_le_toLex] at hle
    simp [hepoch, hactive, hfenced, CutoverPhase.rank] at hle
  · obtain rfl := List.mem_singleton.mp hx
    simp [hactive] at hfenced

/-- The ACTIVE receipt of a FENCED head can be signed and written. -/
theorem advance_completes {ctl : BpcCutoverController c} (hinv : ∀ s, CutoverInv c resolver db s)
    (hmem : head ∈ db.cutoverHead.rows) (hfenced : head.phase = .fenced)
    (hkey : keyRe ctl.guardKeyId = true)
    (hhex : hex64 (c.sha256 (cutoverMessage (completed head) [])) = true)
    (hinj : Set.InjOn c.sha256 (receiptMessages db head)) :
    ∃ r db', advance c ctl head .active db = .ok (r, db') := by
  have hlast := CutoverInv.head_last hinv hmem
  have hstream := hinv head.streamId
  have hverified := hstream.verified head (List.mem_of_getLast? hlast)
  have hvalid := validate_completed hverified
  let receipt : CutoverReceipt :=
    { completed head with
      stateDigestSigned := c.sha256 (cutoverMessage (completed head) [])
      keyId := ctl.guardKeyId
      signature := c.edSign ctl.guardKey (keyedMessage ctl.guardKeyId (cutoverMessage (completed head)
        (c.sha256 (cutoverMessage (completed head) [])))) }
  have hsign : signCutoverReceipt c ctl.guardKeyId ctl.guardKey (completed head) = .ok receipt := by
    simp only [signCutoverReceipt, hvalid, ok_bind, sign, id, ensure_of hkey]
    rfl
  have hcheck : cutoverCheck receipt = true := check_of_validate hvalid hhex
  -- neither the epoch and phase nor the digest of the new receipt is in the history
  have hfresh : ∀ x ∈ db.cutoverHistory.rows, cutoverHistorySchema.clash x receipt = false := by
    intro x hx
    by_contra hclash
    simp only [cutoverHistorySchema, Bool.not_eq_false, Bool.and_eq_true, Bool.or_eq_true,
      beq_iff_eq] at hclash
    obtain ⟨hxs, hcase⟩ := hclash
    have hxmem : x ∈ db.receipts head.streamId := List.mem_filter.mpr ⟨hx, beq_iff_eq.mpr hxs⟩
    rcases hcase with ⟨hepoch, hactive⟩ | hdigest
    · exact hstream.not_active hlast hfenced hxmem ⟨hactive, hepoch⟩
    · have hxv := hstream.verified x hxmem
      have hxdigest : c.sha256 (cutoverMessage x.toBareCutover []) = x.stateDigestSigned := by
        simp only [verifyCutoverReceipt, bind_eq_ok, ensure_eq_ok, exists_unit] at hxv
        exact hxv.2.1.2
      have hmessage : cutoverMessage x.toBareCutover [] = cutoverMessage (completed head) [] := by
        refine hinj ⟨x.toBareCutover, ?_, rfl⟩ ⟨completed head, List.mem_cons_self, rfl⟩
          (hxdigest.trans hdigest)
        exact List.mem_cons_of_mem _ (List.mem_map_of_mem hxmem)
      obtain ⟨hphase, hepoch⟩ := phase_of_message (validate_of_verified hxv).1 hvalid hmessage
      exact hstream.not_active hlast hfenced hxmem ⟨hphase, hepoch⟩
  obtain ⟨history, hhistory⟩ := Table.insert_of_fresh hcheck hfresh
  obtain ⟨table, htable⟩ := @Table.update_one _ _ db.cutoverHead
    (fun r => r.streamId == receipt.streamId && r.stateDigestSigned == head.stateDigestSigned)
    (cutoverColumns receipt) head (fun x => by simp [cutoverHeadSchema]) hmem
    (by simp [receipt, completed])
    (fun x hx hsel => by
      simp only [Bool.and_eq_true, beq_iff_eq] at hsel
      have hxs : x.streamId = head.streamId := hsel.1
      have hxhead := ControlDb.head_of_mem hx
      rw [hxs, ControlDb.head_of_mem hmem] at hxhead
      exact (Option.some.inj hxhead).symm)
    hcheck (fun x => ⟨rfl, rfl⟩)
  refine ⟨receipt, { db with cutoverHead := table, cutoverHistory := history }, ?_⟩
  have hwrite : writeReceipt db (some head) receipt =
      .ok { db with cutoverHead := table, cutoverHistory := history } := by
    simp only [writeReceipt, hhistory, htable, query, Except.mapError, ok_bind, ensure_of]
    rfl
  simp only [Ha.advance]
  rw [show ({ head with phase := CutoverPhase.active, prevStateDigest := some head.stateDigestSigned }
    : BareCutover) = completed head from rfl, hsign]
  simp only [ok_bind, hwrite]
  rfl

end Advance

/-! ## The attestation -/

section Attestation

variable {db : ControlDb} {commandId : JsString} {attestation : PromotionReadinessAttestation}

theorem insertAttestationTx_eq :
    insertAttestationTx commandId attestation db =
      (query (db.promotionAttestation.insertOrIgnore (attestationRow commandId attestation)) >>=
        fun p => ensure (p.2 = 1 ∨ (db.attestation commandId).map (·.attestationDigest) =
          some attestation.attestationDigest) "conflicting promotion readiness attestation" >>=
          fun _ => pure ((), { db with promotionAttestation := p.1 })) :=
  rfl

/-- A command that has an attestation keeps it. -/
theorem insertOrIgnore_retained {row : AttestationRow} (hrow : db.attestation commandId = some row) :
    db.promotionAttestation.insertOrIgnore (attestationRow commandId attestation) =
      .ok (db.promotionAttestation, 0) := by
  obtain ⟨hmem, hkey⟩ := Table.mem_of_select hrow
  exact Table.insertOrIgnore_of_clash hmem hkey

/-- The attestation is retained, or is found to be retained already. -/
theorem insertAttestationTx_ok (hhex : hex64 attestation.attestationDigest = true)
    (h : ∀ row ∈ db.attestation commandId, row.attestationDigest = attestation.attestationDigest) :
    ∃ table, insertAttestationTx commandId attestation db =
      .ok ((), { db with promotionAttestation := table }) := by
  cases hrow : db.attestation commandId with
  | none =>
      obtain ⟨table, htable⟩ := Table.insertOrIgnore_of_fresh (t := db.promotionAttestation)
        (r := attestationRow commandId attestation) hhex fun x hx => Table.select_eq_none.mp hrow x hx
      refine ⟨table, ?_⟩
      rw [insertAttestationTx_eq, htable]
      simp only [query, Except.mapError, ok_bind]
      rfl
  | some row =>
      have hsame : (db.attestation commandId).map (·.attestationDigest) =
          some attestation.attestationDigest := by
        rw [hrow, Option.map_some, h row hrow]
      refine ⟨db.promotionAttestation, ?_⟩
      rw [insertAttestationTx_eq, insertOrIgnore_retained hrow]
      simp only [query, Except.mapError, ok_bind, ensure_of (Or.inr hsame : _ ∨ _)]
      rfl

/-- Another attestation of the command stays, and the one that is presented is refused. -/
theorem insertAttestationTx_conflict {row : AttestationRow} (hrow : db.attestation commandId = some row)
    (hne : row.attestationDigest ≠ attestation.attestationDigest) :
    insertAttestationTx commandId attestation db =
      .error (.contractValidation "conflicting promotion readiness attestation") := by
  have hdiffers : ¬((0 : ℕ) = 1 ∨ (db.attestation commandId).map (·.attestationDigest) =
      some attestation.attestationDigest) := by
    simp [hrow, hne]
  rw [insertAttestationTx_eq, insertOrIgnore_retained hrow]
  simp only [query, Except.mapError, ok_bind]
  rw [ensure, require_of_not hdiffers]
  rfl

end Attestation

/-! ## Completing -/

section Complete

variable {c resolver} {cfg : CutoverConfig c} {head : CutoverReceipt} {commandId : JsString}
  {attestation : PromotionReadinessAttestation} {sourceResolver : PublicKeyResolver c}

variable (c resolver) in
/-- The attestation conforms to the head: it is signed by the independent snapshot authority, and all
    the fields that bind it are the head's. -/
structure Conforms (sourceResolver : PublicKeyResolver c) (commandId : JsString)
    (attestation : PromotionReadinessAttestation) (head : CutoverReceipt) : Prop where
  verified : verifyPromotionReadinessAttestation c sourceResolver attestation = .ok ()
  independent : checkIndependent c resolver sourceResolver attestation head = .ok ()
  binds : AttestationBinds commandId attestation head

variable (c resolver) in
/-- `markActive`, called when nothing else happens, succeeds, and makes the head ACTIVE. -/
def Completes (evidence : FenceEvidence) (db : ControlDb) (head : CutoverReceipt)
    (req : CutoverRequest c) : Prop :=
  ∃ r db', req.alone c resolver evidence db = (.ret (some r), db') ∧
    db'.head head.streamId = some r ∧ r.phase = .active ∧ r.toCutoverIntent = head.toCutoverIntent

/-- Past the checks, `markActive` comes to the transaction that retains the attestation. -/
theorem alone_markActive {db : ControlDb} {evidence : FenceEvidence} {ctl : BpcCutoverController c}
    (hverified : verifyCutoverReceipt c resolver head = .ok ())
    (hhead : db.cutoverHead.select (fun r => r.commandId == commandId) = some head)
    (hconforms : Conforms c resolver sourceResolver commandId attestation head) :
    (CutoverRequest.markActive ctl commandId attestation sourceResolver).alone c resolver evidence db =
      ends c resolver evidence db (runTx c (.insertAttestation commandId attestation) >>= fun _ =>
        runTx c (.transition ctl commandId .active) >>= fun r => .ret (some r)) := by
  have hread : (CutoverOp.readHead commandId : CutoverOp c).body c resolver evidence db =
      .ok (head, db) := by
    simp only [CutoverOp.body, readHeadTx, hhead, cutoverFromRow_of_valid c resolver hverified, ok_bind]
    rfl
  have hne : ¬head.phase = .active := by simp [hconforms.binds.1]
  have hmap : CutoverRequest.program c resolver
      (.markActive ctl commandId attestation sourceResolver) =
        ctl.markActive c resolver commandId attestation sourceResolver >>= fun r => .ret (some r) := rfl
  simp only [CutoverRequest.alone, hmap, BpcCutoverController.markActive, Prog.bind_assoc]
  rw [ends_lift_ok c resolver hconforms.verified, ends_runTx_ok c resolver hread]
  simp only [BpcCutoverController.markActiveFrom, Prog.bind_assoc, if_neg hne]
  rw [ends_lift_ok c resolver hverified, ends_lift_ok c resolver hconforms.independent,
    ends_lift_ok c resolver (ensure_of hconforms.binds _)]

/-- An attestation that is retained has been presented in the run. -/
theorem attestation_of_log
    (h : Transition.Reachable
      ((cutoverService c resolver (RequestsAccepted c resolver)).system ℕ) cfg) :
    ∀ row ∈ cfg.shared.promotionAttestation.rows, ∃ e ∈ cfg.log, ∃ presented,
      e.made.1 = .insertAttestation row.commandId presented ∧
        presented.attestationDigest = row.attestationDigest := by
  refine Transition.Reachable.invariant (I := fun cfg : CutoverConfig c =>
    ∀ row ∈ cfg.shared.promotionAttestation.rows, ∃ e ∈ cfg.log, ∃ presented,
      e.made.1 = .insertAttestation row.commandId presented ∧
        presented.attestationDigest = row.attestationDigest) ?_ ?_ h
  · rintro cfg ⟨hinit, -, -⟩ row hrow
    have hempty : cfg.shared = .empty := hinit
    rw [hempty] at hrow
    cases hrow
  · rintro cfg cfg' - ih hstep
    cases hstep with
    | start i r hadm hi => exact ih
    | env s hs =>
        obtain ⟨grant, leases, -, rfl⟩ := hs
        exact ih
    | exec i r o k x s hi hx =>
        have hold : ∀ row ∈ cfg.shared.promotionAttestation.rows,
            ∃ e ∈ cfg.log ++ [⟨i, ⟨o, x⟩, cfg.shared⟩], ∃ presented,
              e.made.1 = .insertAttestation row.commandId presented ∧
                presented.attestationDigest = row.attestationDigest := by
          intro row hrow
          obtain ⟨e, he, hpresented⟩ := ih row hrow
          exact ⟨e, List.mem_append_left _ he, hpresented⟩
        intro row hrow
        obtain ⟨evidence, hout⟩ := hx
        rcases hout.unchanged_or_ran with rfl | ⟨a, ha⟩
        · exact hold row hrow
        · have heffect := effect_of_body c resolver ha
          cases heffect with
          | none => exact hold row hrow
          | prepared ctl hprepared => exact hold row (hprepared.attestations ▸ hrow)
          | advanced ctl commandId phase hmem hcommand hphase hadv =>
              exact hold row (hadv.attestations ▸ hrow)
          | genesis streamId digest _ table hkeeps => exact hold row hrow
          | attested commandId attestation _ table hrows =>
              rcases hrows row hrow with hrow | rfl
              · exact hold row hrow
              · exact ⟨_, List.mem_append_right _ List.mem_cons_self, attestation, rfl, rfl⟩

/-- Where `markActive` completes, no other attestation is retained under the command. -/
theorem attestation_of_completes {db : ControlDb} {evidence : FenceEvidence}
    {ctl : BpcCutoverController c} (hverified : verifyCutoverReceipt c resolver head = .ok ())
    (hhead : db.cutoverHead.select (fun r => r.commandId == commandId) = some head)
    (hconforms : Conforms c resolver sourceResolver commandId attestation head)
    (h : Completes c resolver evidence db head
      (.markActive ctl commandId attestation sourceResolver)) :
    ∀ row ∈ db.attestation commandId, row.attestationDigest = attestation.attestationDigest := by
  intro row hrow
  obtain ⟨r, db', hends, -⟩ := h
  by_contra hne
  have hconflict := insertAttestationTx_conflict hrow hne
  rw [alone_markActive hverified hhead hconforms, ends_runTx_error c resolver
    (o := .insertAttestation commandId attestation) hconflict] at hends
  cases (Prod.mk.inj hends).1

/-- Where no other attestation is retained under the command, `markActive` completes. -/
theorem completes_of_attestation {db : ControlDb} (ctl : BpcCutoverController c)
    (hinv : ∀ s, CutoverInv c resolver db s)
    (hhead : db.cutoverHead.select (fun r => r.commandId == commandId) = some head)
    (hfenced : head.phase = .fenced)
    (hconforms : Conforms c resolver sourceResolver commandId attestation head)
    (hkey : keyRe ctl.guardKeyId = true)
    (hhex : hex64 (c.sha256 (cutoverMessage (completed head) [])) = true)
    (hinj : Set.InjOn c.sha256 (receiptMessages db head)) (evidence : FenceEvidence)
    (hsame : ∀ row ∈ db.attestation commandId,
      row.attestationDigest = attestation.attestationDigest) :
    Completes c resolver evidence db head (.markActive ctl commandId attestation sourceResolver) := by
  have hmem := (Table.mem_of_select hhead).1
  have hverified := (hinv head.streamId).verified head
    (List.mem_of_getLast? (CutoverInv.head_last hinv hmem))
  have hdigest : hex64 attestation.attestationDigest = true := by
    have hverify := hconforms.verified
    simp only [verifyPromotionReadinessAttestation, bind_eq_ok, ensure_eq_ok, exists_unit] at hverify
    obtain ⟨-, -, -, -, -, _, -, _, -, hall, -⟩ := hverify
    exact List.all_eq_true.mp hall _ (by simp)
  obtain ⟨table, hinsert⟩ := insertAttestationTx_ok hdigest hsame
  let db₁ : ControlDb := { db with promotionAttestation := table }
  have hinv₁ : ∀ s, CutoverInv c resolver db₁ s := fun s => (hinv s).congr c resolver rfl rfl rfl
  obtain ⟨r, db', hadvance⟩ :=
    @advance_completes c resolver db₁ head ctl hinv₁ hmem hfenced hkey hhex hinj
  have hadv : Advanced db₁ db' head .active r := advanced_of_advance c hmem hadvance
  have htransition : ctl.transition c resolver commandId .active evidence db₁ = .ok (r, db') := by
    have hhead₁ : db₁.cutoverHead.select (fun r => r.commandId == commandId) = some head := hhead
    simp only [BpcCutoverController.transition, hhead₁,
      currentReceipt_of_verified c resolver hverified, ok_bind, transitionActive, hfenced]
    exact hadvance
  refine ⟨r, db', ?_, ?_, hadv.phase, hadv.intent⟩
  · rw [alone_markActive hverified hhead hconforms,
      ends_runTx_ok c resolver (o := .insertAttestation commandId attestation) hinsert,
      ends_runTx_ok c resolver (o := .transition ctl commandId .active) htransition]
    rfl
  · have hstream : r.streamId = head.streamId := by rw [hadv.intent]
    rw [hadv.head, if_pos hstream]

/-- **A FENCED head can be completed** with an attestation that conforms to it exactly if no other
    attestation is retained under its command; and so in every run in which none but that one has been
    presented under the command. -/
theorem markActive_completes
    (h : Transition.Reachable
      ((cutoverService c resolver (RequestsAccepted c resolver)).system ℕ) cfg)
    (hhead : cfg.shared.cutoverHead.select (fun r => r.commandId == commandId) = some head)
    (hfenced : head.phase = .fenced)
    (hconforms : Conforms c resolver sourceResolver commandId attestation head)
    {ctl : BpcCutoverController c} (hkey : keyRe ctl.guardKeyId = true)
    (hhex : hex64 (c.sha256 (cutoverMessage (completed head) [])) = true)
    (hinj : Set.InjOn c.sha256 (receiptMessages cfg.shared head)) (evidence : FenceEvidence) :
    (Completes c resolver evidence cfg.shared head
        (.markActive ctl commandId attestation sourceResolver) ↔
      ∀ row ∈ cfg.shared.attestation commandId,
        row.attestationDigest = attestation.attestationDigest) ∧
    ((∀ e ∈ cfg.log, ∀ presented, e.made.1 = .insertAttestation commandId presented →
        presented.attestationDigest = attestation.attestationDigest) →
      Completes c resolver evidence cfg.shared head
        (.markActive ctl commandId attestation sourceResolver)) := by
  have hinv := cutoverInv_of_reachable c resolver h
  have hverified := (hinv head.streamId).verified head
    (List.mem_of_getLast? (CutoverInv.head_last hinv (Table.mem_of_select hhead).1))
  have hcompletes := completes_of_attestation ctl hinv hhead hfenced hconforms hkey hhex hinj
    evidence
  refine ⟨⟨attestation_of_completes hverified hhead hconforms, hcompletes⟩,
    fun honly => hcompletes fun row hrow => ?_⟩
  obtain ⟨hmem, hcommand⟩ := Table.mem_of_select hrow
  obtain ⟨e, he, presented, hmade, hdigest⟩ := attestation_of_log h row hmem
  rw [beq_iff_eq.mp hcommand] at hmade
  rw [← hdigest]
  exact honly e he presented hmade

end Complete

/-! ## A command id that is used again

The cutover of the next epoch, begun under the command id of the one that has been completed. -/

namespace FencedExample

def secondGrant : SourceLeaseGrant :=
  signedGrant (bareGrant 2 2 "revoke-2" (some grant.grantDigest))

/-- The leases once the epoch that the completed cutover began is revoked. -/
def regrantedLeases : LeaseDb :=
  orElse (installSourceLeaseGrant polyCrypto keys secondGrant active.leases) .empty

def regranted : ControlDb := { active with leases := regrantedLeases }

def secondBegin : CutoverRequest polyCrypto := .begin guard (intent 2 secondGrant.grantDigest)

def secondFence : CutoverRequest polyCrypto := .markFenced guard (Js.lit "cutover")

/-- The second cutover, FENCED. -/
def refenced : ControlDb :=
  (secondFence.alone polyCrypto keys (evidence 3)
    (secondBegin.alone polyCrypto keys (evidence 3) regranted).2).2

def secondHead : CutoverReceipt := (refenced.cutoverHead.rows.head?).getD noReceipt

/-- The first cutover can be completed, and its attestation stands in the way of the second. -/
theorem completion_computes :
    (verifyPromotionReadinessAttestation polyCrypto sourceKeys (attestation fenced.1) = .ok () ∧
      checkIndependent polyCrypto keys sourceKeys (attestation fenced.1) fenced.1 = .ok () ∧
      AttestationBinds (Js.lit "cutover") (attestation fenced.1) fenced.1 ∧
      fenced.2.attestation (Js.lit "cutover") = none ∧
      hex64 (polyCrypto.sha256 (cutoverMessage (completed fenced.1) [])) = true ∧
      ∀ v ∈ completed fenced.1 :: (fenced.2.receipts fenced.1.streamId).map (·.toBareCutover),
        ∀ w ∈ completed fenced.1 :: (fenced.2.receipts fenced.1.streamId).map (·.toBareCutover),
          polyCrypto.sha256 (cutoverMessage v []) = polyCrypto.sha256 (cutoverMessage w []) → v = w) ∧
    (installSourceLeaseGrant polyCrypto keys secondGrant active.leases).isOk = true ∧
    (verifyPromotionReadinessAttestation polyCrypto sourceKeys (attestation secondHead) = .ok () ∧
      checkIndependent polyCrypto keys sourceKeys (attestation secondHead) secondHead = .ok () ∧
      AttestationBinds (Js.lit "cutover") (attestation secondHead) secondHead ∧
      refenced.cutoverHead.rows = [secondHead] ∧ secondHead.commandId = Js.lit "cutover" ∧
      verifyCutoverReceipt polyCrypto keys secondHead = .ok () ∧
      (refenced.attestation (Js.lit "cutover")).map (·.attestationDigest) =
        some (attestation fenced.1).attestationDigest ∧
      (attestation fenced.1).attestationDigest ≠ (attestation secondHead).attestationDigest) := by
  decide +kernel

/-- The run to the second FENCED head. -/
theorem reachable_refenced :
    ∃ cfg : CutoverConfig polyCrypto, Transition.Reachable
        ((cutoverService polyCrypto keys (RequestsAccepted polyCrypto keys)).system ℕ) cfg ∧
      cfg.shared = refenced := by
  obtain ⟨cfg₀, h₀, hs₀, hc₀, -⟩ := reachable_fenced
  obtain ⟨cfg₁, h₁, hs₁, hc₁, -⟩ := run_alone polyCrypto keys h₀ (hc₀ 3 le_rfl) activation
    guard_accepted (evidence 2)
  have hactive : cfg₁.shared = active := by rw [hs₁, hs₀, active]
  have hinstall : installSourceLeaseGrant polyCrypto keys secondGrant cfg₁.shared.leases =
      .ok regrantedLeases := by
    rw [hactive]
    exact orElse_eq completion_computes.2.1 _
  have hregranted : regranted = { cfg₁.shared with leases := regrantedLeases } := by
    rw [hactive, regranted]
  have h₂ := h₁.next (Service.Step.env regranted ⟨secondGrant, regrantedLeases, hinstall, hregranted⟩)
  obtain ⟨cfg₃, h₃, hs₃, hc₃, -⟩ := run_alone polyCrypto keys h₂ (i := 4)
    (by rw [hc₁ 4 (by decide)]; exact hc₀ 4 (by decide)) secondBegin trivial (evidence 3)
  obtain ⟨cfg₄, h₄, hs₄, -, -⟩ := run_alone polyCrypto keys h₃ (i := 5)
    (by rw [hc₃ 5 (by decide), hc₁ 5 (by decide)]; exact hc₀ 5 (by decide)) secondFence
    guard_accepted (evidence 3)
  exact ⟨cfg₄, h₄, by rw [hs₄, hs₃, refenced]⟩

end FencedExample

open FencedExample in
/-- The first cutover is completed. -/
theorem markActive_completes_fenced :
    Completes polyCrypto keys (evidence 2) fenced.2 fenced.1
      (.markActive guard (Js.lit "cutover") (attestation fenced.1) sourceKeys) := by
  obtain ⟨cfg, h, hs, -, -⟩ := reachable_fenced
  obtain ⟨-, -, -, -, -, -, ⟨hrows, hcommand, hphase, -, -⟩, -⟩ := run_computes
  obtain ⟨⟨hverify, hindependent, hbinds, hnone, hhex, hapart⟩, -⟩ := completion_computes
  have hhead : cfg.shared.cutoverHead.select (fun r => r.commandId == Js.lit "cutover") =
      some fenced.1 := by
    rw [hs, Table.select, hrows]
    simp [hcommand]
  have hinj : Set.InjOn polyCrypto.sha256 (receiptMessages cfg.shared fenced.1) := by
    rw [hs]
    rintro _ ⟨v, hv, rfl⟩ _ ⟨w, hw, rfl⟩ hsame
    rw [hapart v hv w hw hsame]
  rw [← hs]
  refine (markActive_completes h hhead hphase ⟨hverify, hindependent, hbinds⟩ (by decide) hhex hinj
    (evidence 2)).1.mpr fun row hrow => ?_
  rw [hs, hnone] at hrow
  cases hrow

open FencedExample in
/-- The second cutover under the same command id is stuck. -/
theorem markActive_stuck :
    ¬∀ (cfg : CutoverConfig polyCrypto) (head : CutoverReceipt)
      (attestation : PromotionReadinessAttestation), Transition.Reachable
        ((cutoverService polyCrypto keys (RequestsAccepted polyCrypto keys)).system ℕ) cfg →
      cfg.shared.cutoverHead.select (fun r => r.commandId == Js.lit "cutover") = some head →
      head.phase = .fenced →
      Conforms polyCrypto keys sourceKeys (Js.lit "cutover") attestation head →
      Completes polyCrypto keys (evidence 3) cfg.shared head
        (.markActive guard (Js.lit "cutover") attestation sourceKeys) := by
  intro hclaim
  obtain ⟨cfg, h, hs⟩ := reachable_refenced
  obtain ⟨-, -, hverify, hindependent, hbinds, hrows, hcommand, hverified, hretained, hne⟩ :=
    completion_computes
  have hhead : cfg.shared.cutoverHead.select (fun r => r.commandId == Js.lit "cutover") =
      some secondHead := by
    rw [hs, Table.select, hrows]
    simp [hcommand]
  have hconforms : Conforms polyCrypto keys sourceKeys (Js.lit "cutover") (attestation secondHead)
      secondHead := ⟨hverify, hindependent, hbinds⟩
  have hcompletes := hclaim cfg secondHead (attestation secondHead) h hhead hbinds.1 hconforms
  obtain ⟨row, hrow, hdigest⟩ := Option.map_eq_some_iff.mp hretained
  refine hne (hdigest.symm.trans ?_)
  exact attestation_of_completes hverified hhead hconforms hcompletes row (by rw [hs]; exact hrow)

end Ha
