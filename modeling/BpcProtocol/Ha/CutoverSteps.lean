import BpcProtocol.Ha.CutoverChain

set_option autoImplicit false

/-! # What the cutover's transactions do

One inversion for each transaction that writes: what it found, and everything it leaves of the control
database. From these follow the invariants that `CutoverInv` leaves out: the witness names the digest
of the last FENCED receipt, and what a stream has retained it keeps. -/

namespace Ha

open Fallible Relational Async Transaction

/-! ## The writes -/

/-- The receipt is retained, and its stream's head, and nothing else is written to the head's and the
    history's tables or to those of the leases and the attestations. -/
structure Appended (db db' : ControlDb) (r : CutoverReceipt) : Prop where
  receipts : ∀ s, db'.receipts s = db.receipts s ++ if r.streamId = s then [r] else []
  head : ∀ s, db'.head s = if r.streamId = s then some r else db.head s
  leases : db'.leases = db.leases
  attestations : db'.promotionAttestation = db.promotionAttestation

theorem writeReceipt_frame {db db' : ControlDb} {current : Option CutoverReceipt}
    {receipt : CutoverReceipt} (h : writeReceipt db current receipt = .ok db') :
    db'.leases = db.leases ∧ db'.promotionAttestation = db.promotionAttestation := by
  simp only [writeReceipt, bind_eq_ok, query_eq_ok] at h
  obtain ⟨history, -, h⟩ := h
  cases current with
  | none =>
      simp only [bind_eq_ok, query_eq_ok, pure_eq_ok] at h
      obtain ⟨head, -, rfl⟩ := h
      exact ⟨rfl, rfl⟩
  | some cur =>
      simp only [bind_eq_ok, query_eq_ok, ensure_eq_ok, exists_unit, pure_eq_ok, Prod.exists] at h
      obtain ⟨head, n, -, -, rfl⟩ := h
      exact ⟨rfl, rfl⟩

theorem Appended.of_write {db db' db'' : ControlDb} {receipt : CutoverReceipt}
    (h : writeReceipt db (db.head receipt.streamId) receipt = .ok db')
    (hhistory : db''.cutoverHistory = db'.cutoverHistory) (hhead : db''.cutoverHead = db'.cutoverHead)
    (hleases : db''.leases = db'.leases)
    (hattestations : db''.promotionAttestation = db'.promotionAttestation) :
    Appended db db'' receipt := by
  obtain ⟨-, -, hspec⟩ := writeReceipt_spec h
  obtain ⟨hl, ha⟩ := writeReceipt_frame h
  constructor
  · intro s
    rw [← (hspec s).1]
    simp only [ControlDb.receipts, hhistory]
  · intro s
    rw [← (hspec s).2]
    simp only [ControlDb.head, hhead]
  · rw [hleases, hl]
  · rw [hattestations, ha]

theorem Appended.witness_of_write {db db' : ControlDb} {receipt : CutoverReceipt}
    (h : writeReceipt db (db.head receipt.streamId) receipt = .ok db') (s : JsString) :
    db'.witness s = db.witness s := by
  obtain ⟨hew, -, -⟩ := writeReceipt_spec h
  simp only [ControlDb.witness, hew]

variable (c : Crypto) (resolver : PublicKeyResolver c)

abbrev CutoverConfig :=
  Config ℕ (CutoverRequest c) (CutoverOp c) (CutoverAns c) HaError (Option CutoverReceipt) ControlDb

/-- `begin` wrote the intent as a PREPARING receipt. -/
structure Prepared (db db' : ControlDb) (input : CutoverIntent) (r : CutoverReceipt) : Prop
    extends Appended db db' r where
  phase : r.phase = .preparing
  intent : r.toCutoverIntent = input
  /-- A witness that was there before is left as it was. -/
  witness : ∀ s, db.witness s ≠ none → db'.witness s = db.witness s
  /-- An intent that is in force is returned as it is, and not written again. -/
  changed : ∀ cur ∈ db.head input.streamId, cur.phase = .active

theorem prepared_of_prepare {ctl : BpcCutoverController c} {input : CutoverIntent}
    {db db' : ControlDb} {r : CutoverReceipt}
    (h : prepare c resolver ctl input db (db.head input.streamId) = .ok (r, db')) :
    Prepared db db' input r := by
  simp only [Ha.prepare, bind_eq_ok, ensure_eq_ok, exists_unit, pure_eq_ok, Prod.mk.injEq] at h
  obtain ⟨hcur, epoch, -, rfl, db₁, hdb₁, preparing, hsign, -, db₂, hwrite, rfl, rfl⟩ := h
  obtain ⟨hbare, -, -, -, -⟩ := signCutoverReceipt_spec c hsign
  have hs : preparing.streamId = input.streamId := by rw [hbare]
  obtain ⟨hsame, hother, hwit⟩ := witnessRow_spec hdb₁
  have hframe : db₁.leases = db.leases ∧ db₁.promotionAttestation = db.promotionAttestation := by
    unfold witnessRow at hdb₁
    split at hdb₁
    · obtain rfl := (pure_eq_ok _ _).mp hdb₁
      exact ⟨rfl, rfl⟩
    · simp only [bind_eq_ok, query_eq_ok, pure_eq_ok] at hdb₁
      obtain ⟨table, -, rfl⟩ := hdb₁
      exact ⟨rfl, rfl⟩
  have hwrite₁ : writeReceipt db₁ (db₁.head preparing.streamId) preparing = .ok db₂ := by
    rw [(hsame _).2, hs]
    exact hwrite
  have happended : Appended db₁ db₂ preparing := .of_write hwrite₁ rfl rfl rfl rfl
  refine ⟨⟨fun s => ?_, fun s => ?_, ?_, ?_⟩, by rw [hbare], by rw [hbare], fun s hs => ?_, ?_⟩
  · rw [happended.receipts, (hsame s).1]
  · rw [happended.head, (hsame s).2]
  · rw [happended.leases, hframe.1]
  · rw [happended.attestations, hframe.2]
  · rw [Appended.witness_of_write hwrite₁]
    by_cases hst : s = input.streamId
    · subst hst
      rcases hwit with ⟨hw, -⟩ | ⟨hnone, -⟩
      · exact hw
      · exact absurd hnone hs
    · exact hother s hst
  · exact fun cur hmem => (hcur cur hmem).1

/-- A transition wrote the next receipt of a head, and with FENCED moved the witness to it. -/
structure Advanced (db db' : ControlDb) (current : CutoverReceipt) (next : CutoverPhase)
    (r : CutoverReceipt) : Prop extends Appended db db' r where
  phase : r.phase = next
  intent : r.toCutoverIntent = current.toCutoverIntent
  prev : r.prevStateDigest = some current.stateDigestSigned
  witness : ∀ s, next ≠ .fenced ∨ s ≠ r.streamId → db'.witness s = db.witness s
  fenced : next = .fenced →
    ∃ w, db'.witness r.streamId = some w ∧ w.stateDigest = r.stateDigestSigned

theorem advanced_of_advance {ctl : BpcCutoverController c} {current r : CutoverReceipt}
    {next : CutoverPhase} {db db' : ControlDb} (hmem : current ∈ db.cutoverHead.rows)
    (h : advance c ctl current next db = .ok (r, db')) : Advanced db db' current next r := by
  simp only [Ha.advance, bind_eq_ok] at h
  obtain ⟨receipt, hsign, db₁, hwrite, h⟩ := h
  obtain ⟨hbare, -, -, -, -⟩ := signCutoverReceipt_spec c hsign
  have hs : receipt.streamId = current.streamId := by rw [hbare]
  have hhead : db.head receipt.streamId = some current := hs ▸ ControlDb.head_of_mem hmem
  rw [← hhead] at hwrite
  by_cases hnext : next = .fenced
  · rw [if_pos hnext] at h
    simp only [bind_eq_ok, pure_eq_ok, Prod.mk.injEq] at h
    obtain ⟨db₂, hadv, rfl, rfl⟩ := h
    obtain ⟨h1, h2, ⟨w, hw, -, hwd⟩, hother⟩ := advanceWitness_spec hadv
    have hframe : db₂.leases = db₁.leases ∧ db₂.promotionAttestation = db₁.promotionAttestation := by
      simp only [advanceWitness, bind_eq_ok, query_eq_ok, ensure_eq_ok, exists_unit, pure_eq_ok,
        Prod.exists] at hadv
      obtain ⟨table, n, -, -, rfl⟩ := hadv
      exact ⟨rfl, rfl⟩
    refine ⟨.of_write hwrite h1 h2 hframe.1 hframe.2, by rw [hbare], by rw [hbare], by rw [hbare],
      fun s hs => ?_, fun _ => ⟨w, hw, hwd⟩⟩
    rcases hs with hne | hne
    · exact absurd hnext hne
    · rw [hother s hne, Appended.witness_of_write hwrite]
  · rw [if_neg hnext] at h
    simp only [pure_eq_ok, Prod.mk.injEq] at h
    obtain ⟨rfl, rfl⟩ := h
    exact ⟨.of_write hwrite rfl rfl rfl rfl, by rw [hbare], by rw [hbare], by rw [hbare],
      fun s _ => Appended.witness_of_write hwrite s, fun h => absurd h hnext⟩

/-! ## Every transaction -/

/-- The row that `markActive` retains. -/
def attestationRow (commandId : JsString) (attestation : PromotionReadinessAttestation) :
    AttestationRow :=
  { commandId, attestationDigest := attestation.attestationDigest, keyId := attestation.keyId,
    signature := attestation.signature }

/-- An attestation that is retained is the one presented, or was retained before. -/
theorem insertAttestationTx_rows {commandId : JsString} {attestation : PromotionReadinessAttestation}
    {db db' : ControlDb} {u : Unit} (h : insertAttestationTx commandId attestation db = .ok (u, db')) :
    ∃ table : Table promotionAttestationSchema, db' = { db with promotionAttestation := table } ∧
      ∀ x ∈ table.rows,
        x ∈ db.promotionAttestation.rows ∨ x = attestationRow commandId attestation := by
  simp only [insertAttestationTx, bind_eq_ok, query_eq_ok, pure_eq_ok, exists_unit, Prod.exists,
    Prod.mk.injEq] at h
  obtain ⟨table, n, hins, -, -, rfl⟩ := h
  refine ⟨table, rfl, fun x hx => ?_⟩
  rcases Table.insertOrIgnore_eq_ok hins with ⟨-, rfl, -⟩ | ⟨-, hrow, -⟩
  · exact Or.inl hx
  · rw [Table.insert_eq_ok.mp hrow] at hx
    simpa [attestationRow] using hx

/-- What a transaction of the service may do to the control database. -/
inductive CutoverEffect : CutoverOp c → ControlDb → ControlDb → Prop
  | none (o : CutoverOp c) (db : ControlDb) : CutoverEffect o db db
  | prepared (ctl : BpcCutoverController c) {db db' : ControlDb} {input : CutoverIntent}
      {r : CutoverReceipt} : Prepared db db' input r → CutoverEffect (.begin ctl input) db db'
  | advanced (ctl : BpcCutoverController c) (commandId : JsString) (phase : TransitionPhase)
      {db db' : ControlDb} {current r : CutoverReceipt} {next : CutoverPhase} :
      current ∈ db.cutoverHead.rows → current.commandId = commandId →
      (phase = .fenced ∧ current.phase = .preparing ∧ next = .fenced ∨
        phase = .active ∧ current.phase = .fenced ∧ next = .active) →
      Advanced db db' current next r → CutoverEffect (.transition ctl commandId phase) db db'
  | attested (commandId : JsString) (attestation : PromotionReadinessAttestation) (db : ControlDb)
      (table : Table promotionAttestationSchema) :
      (∀ x ∈ table.rows,
        x ∈ db.promotionAttestation.rows ∨ x = attestationRow commandId attestation) →
      CutoverEffect (.insertAttestation commandId attestation) db
        { db with promotionAttestation := table }
  | genesis (streamId digest : JsString) (db : ControlDb) (table : Table epochWitnessSchema) :
      (∀ s, db.witness s ≠ none → table.select (fun w => w.streamId == s) = db.witness s) →
      CutoverEffect (.bootstrapGenesis streamId digest) db { db with epochWitness := table }

/-- A verified row is read back as it is. -/
theorem currentReceipt_of_verified {r : CutoverReceipt} (h : verifyCutoverReceipt c resolver r = .ok ()) :
    currentReceipt c resolver r = .ok r := by
  simp [currentReceipt, cutoverFromRow_of_valid c resolver h, h]

/-- `transition` answered the head it found, or advanced it by one phase. -/
theorem transition_effect {ctl : BpcCutoverController c} {commandId : JsString}
    {phase : TransitionPhase} {evidence : FenceEvidence} {db db' : ControlDb} {r : CutoverReceipt}
    (h : ctl.transition c resolver commandId phase evidence db = .ok (r, db')) :
    ∃ current, db.cutoverHead.select (fun x => x.commandId == commandId) = some current ∧
      ((db' = db ∧ r = current) ∨ ∃ next,
        (phase = .fenced ∧ current.phase = .preparing ∧ next = .fenced ∨
          phase = .active ∧ current.phase = .fenced ∧ next = .active) ∧
        Advanced db db' current next r) := by
  unfold BpcCutoverController.transition at h
  split at h
  · simp at h
  · next row hrow =>
      simp only [bind_eq_ok] at h
      obtain ⟨current, hcurrent, h⟩ := h
      obtain rfl := eq_of_currentReceipt c resolver hcurrent
      have hmem := (Table.mem_of_select hrow).1
      refine ⟨current, hrow, ?_⟩
      cases phase with
      | fenced =>
          simp only [transitionFenced, bind_eq_ok, exists_unit] at h
          obtain ⟨-, h⟩ := h
          split at h
          · next hp =>
              exact Or.inr ⟨.fenced, Or.inl ⟨rfl, hp, rfl⟩, advanced_of_advance c hmem h⟩
          · simp only [bind_eq_ok, exists_unit, pure_eq_ok, Prod.mk.injEq] at h
            exact Or.inl ⟨h.2.2.symm, h.2.1.symm⟩
      | active =>
          simp only [transitionActive] at h
          split at h
          · simp only [pure_eq_ok, Prod.mk.injEq] at h
            exact Or.inl ⟨h.2.symm, h.1.symm⟩
          · simp at h
          · next hp =>
              exact Or.inr ⟨.active, Or.inr ⟨rfl, hp, rfl⟩, advanced_of_advance c hmem h⟩

theorem bootstrapGenesisTx_spec {streamId digest : JsString} {db db' : ControlDb} {u : Unit}
    (h : bootstrapGenesisTx streamId digest db = .ok (u, db')) :
    ∃ table : Table epochWitnessSchema, db' = { db with epochWitness := table } ∧
      ∀ s, db.witness s ≠ none → table.select (fun w => w.streamId == s) = db.witness s := by
  simp only [bootstrapGenesisTx, bind_eq_ok, query_eq_ok, Prod.exists] at h
  obtain ⟨table, n, hins, h⟩ := h
  have hdb' : db' = { db with epochWitness := table } := by
    split at h
    · simp only [bind_eq_ok, exists_unit, pure_eq_ok, Prod.mk.injEq] at h
      exact h.2.2.symm
    · simp only [pure_eq_ok, Prod.mk.injEq] at h
      exact h.2.symm
  refine ⟨table, hdb', fun s hs => ?_⟩
  rcases Table.insertOrIgnore_eq_ok hins with ⟨-, rfl, -⟩ | ⟨-, hrow, -⟩
  · rfl
  · rw [Table.select_insert hrow]
    obtain ⟨w, hw⟩ := Option.ne_none_iff_exists'.mp hs
    have hsel : db.epochWitness.select (fun x => x.streamId == s) = some w := hw
    rw [hw, hsel]
    rfl

theorem effect_of_body {o : CutoverOp c} {evidence : FenceEvidence} {db db' : ControlDb} {a : o.Result}
    (h : o.body c resolver evidence db = .ok (a, db')) : CutoverEffect c o db db' := by
  cases o with
  | begin ctl input =>
      rcases begin_cases c resolver h with rfl | hprepare
      · exact .none _ _
      · exact .prepared ctl (prepared_of_prepare c resolver hprepare)
  | transition ctl commandId phase =>
      obtain ⟨current, hsel, ⟨rfl, -⟩ | ⟨next, hphase, hadv⟩⟩ := transition_effect c resolver h
      · exact .none _ _
      · obtain ⟨hmem, hcommand⟩ := Table.mem_of_select hsel
        exact .advanced ctl commandId phase hmem (by simpa using hcommand) hphase hadv
  | readHead commandId =>
      rw [readHeadTx_spec h]
      exact .none _ _
  | readAttestation commandId =>
      obtain rfl : db = db' := congrArg Prod.snd (Except.ok.inj h)
      exact .none _ _
  | insertAttestation commandId attestation =>
      obtain ⟨table, rfl, hrows⟩ := insertAttestationTx_rows h
      exact .attested commandId attestation db table hrows
  | bootstrapGenesis streamId digest =>
      obtain ⟨table, rfl, hkeeps⟩ := bootstrapGenesisTx_spec h
      exact .genesis streamId digest db table hkeeps

/-! ## Calls without interference -/

/-- A transaction that is neither aborted nor loses its acknowledgement. -/
def CutoverOp.settled (evidence : FenceEvidence) (db : ControlDb) (o : CutoverOp c) :
    CutoverAns c o × ControlDb :=
  settle (o.body c resolver evidence db) db

theorem CutoverOp.settled_exec (admits : CutoverRequest c → Prop) (evidence : FenceEvidence)
    (db : ControlDb) (o : CutoverOp c) :
    (cutoverService c resolver admits).exec db o (o.settled c resolver evidence db).1
      (o.settled c resolver evidence db).2 :=
  ⟨evidence, settle_outcome (o.body c resolver evidence) db⟩

/-- How a program ends when no other transaction comes between its own, and what it leaves. -/
def ends {α : Type} (evidence : FenceEvidence) (db : ControlDb) (p : CutoverProg c α) :
    CutoverProg c α × ControlDb :=
  let done := p.drive (CutoverOp.settled c resolver evidence) () db []
  (done.1, done.2.1)

/-- How a call ends when no other transaction comes between its own, and what it leaves. -/
def CutoverRequest.alone (evidence : FenceEvidence) (db : ControlDb) (req : CutoverRequest c) :
    CutoverProg c (Option CutoverReceipt) × ControlDb :=
  ends c resolver evidence db (req.program c resolver)

theorem ends_runTx {α : Type} (evidence : FenceEvidence) (db : ControlDb) (o : CutoverOp c)
    (f : o.Result → CutoverProg c α) :
    ends c resolver evidence db (runTx c o >>= f) =
      ends c resolver evidence (o.settled c resolver evidence db).2
        (Prog.lift (o.settled c resolver evidence db).1 >>= f) := by
  have hdrive : (runTx c o >>= f).drive (CutoverOp.settled c resolver evidence) () db [] =
      (Prog.lift (o.settled c resolver evidence db).1 >>= f).drive
        (CutoverOp.settled c resolver evidence) () (o.settled c resolver evidence db).2
        [⟨(), ⟨o, (o.settled c resolver evidence db).1⟩, db⟩] := rfl
  obtain ⟨h₁, h₂⟩ := Prog.drive_unlogged (CutoverOp.settled c resolver evidence)
    (Prog.lift (o.settled c resolver evidence db).1 >>= f) (o.settled c resolver evidence db).2 () ()
    [⟨(), ⟨o, (o.settled c resolver evidence db).1⟩, db⟩] []
  simp only [ends, hdrive, h₁, h₂]

theorem ends_runTx_ok {α : Type} {evidence : FenceEvidence} {db db' : ControlDb} {o : CutoverOp c}
    {a : o.Result} (h : o.body c resolver evidence db = .ok (a, db')) (f : o.Result → CutoverProg c α) :
    ends c resolver evidence db (runTx c o >>= f) = ends c resolver evidence db' (f a) := by
  have hsettled : o.settled c resolver evidence db = (.ok a, db') := settle_eq_ok.mpr h
  rw [ends_runTx, hsettled]
  rfl

theorem ends_runTx_error {α : Type} {evidence : FenceEvidence} {db : ControlDb} {o : CutoverOp c}
    {e : HaError} (h : o.body c resolver evidence db = .error e) (f : o.Result → CutoverProg c α) :
    ends c resolver evidence db (runTx c o >>= f) = (.fail e, db) := by
  have hsettled : o.settled c resolver evidence db = (.error e, db) := by
    simp only [CutoverOp.settled, h, settle]
  rw [ends_runTx, hsettled]
  rfl

theorem ends_lift_ok {α β : Type} {evidence : FenceEvidence} {db : ControlDb} {x : Except HaError α}
    {a : α} (h : x = .ok a) (f : α → CutoverProg c β) :
    ends c resolver evidence db (Prog.lift x >>= f) = ends c resolver evidence db (f a) := by
  rw [h]
  rfl

/-- A call that is served without interference is a run, which adds to the log. -/
theorem run_alone {admits : CutoverRequest c → Prop} {cfg : CutoverConfig c}
    (h : Transition.Reachable ((cutoverService c resolver admits).system ℕ) cfg) {i : ℕ}
    (hi : cfg.calls i = none) (req : CutoverRequest c) (hadm : admits req)
    (evidence : FenceEvidence) :
    ∃ cfg', Transition.Reachable ((cutoverService c resolver admits).system ℕ) cfg' ∧
      cfg'.shared = (req.alone c resolver evidence cfg.shared).2 ∧
      (∀ j, j ≠ i → cfg'.calls j = cfg.calls j) ∧ cfg.log <+: cfg'.log := by
  have hrun := Service.run_serve (S := cutoverService c resolver admits)
    (CutoverOp.settled_exec c resolver admits evidence) hadm hi
  refine ⟨_, hrun.reachable h, ?_, fun j hj => Service.serve_of_ne hj, Prog.drive_log _ _ _ _⟩
  exact (Prog.drive_unlogged _ _ _ _ _ _ _).2

/-- A call of one transaction returns what its transaction commits. -/
theorem alone_eq_ret (req : CutoverRequest c) (o : CutoverOp c) {f : o.Result → Option CutoverReceipt}
    (hprog : req.program c resolver = f <$> runTx c o) (evidence : FenceEvidence) {db db' : ControlDb}
    {a : o.Result} (hinj : Function.Injective f) :
    req.alone c resolver evidence db = (.ret (f a), db') ↔
      o.body c resolver evidence db = .ok (a, db') := by
  have halone : req.alone c resolver evidence db =
      ends c resolver evidence db (runTx c o >>= fun a => .ret (f a)) := by
    rw [CutoverRequest.alone, hprog]
    rfl
  rw [halone]
  cases hbody : o.body c resolver evidence db with
  | ok p =>
      rw [ends_runTx_ok c resolver hbody]
      show (Prog.ret (f p.1), p.2) = (Prog.ret (f a), db') ↔ _
      simp [hinj.eq_iff, Prod.ext_iff]
  | error e =>
      rw [ends_runTx_error c resolver hbody]
      simp

end Ha
