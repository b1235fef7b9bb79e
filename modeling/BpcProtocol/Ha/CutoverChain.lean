import BpcProtocol.Ha.CutoverService
import BpcProtocol.Ha.SourceLeaseChain
import BpcProtocol.Lib.Chain
import Mathlib.Data.List.Chain

set_option autoImplicit false

/-! # The cutover chain

However the controllers' calls interleave, fail and are retried, a stream's retained receipts form
one digest-linked chain that runs through PREPARING, FENCED and ACTIVE epoch by epoch, and the head
row, the epoch witness and `verifyCutoverChain` agree with it. Two writes make the chain grow
(`prepare` and `advance`); `CutoverInv.grow` is the step they share. -/

namespace Ha

open Fallible Relational Chain Async Transaction

/-! ## What a chain is -/

/-- `b` is the next phase of `a`'s cutover, or prepares the next epoch once `a` is ACTIVE. -/
def Follows (a b : CutoverReceipt) : Prop :=
  (a.phase = .preparing ∧ b.phase = .fenced ∧ b.toCutoverIntent = a.toCutoverIntent) ∨
  (a.phase = .fenced ∧ b.phase = .active ∧ b.toCutoverIntent = a.toCutoverIntent) ∨
  (a.phase = .active ∧ b.phase = .preparing ∧ b.targetEpoch = a.targetEpoch + 1 ∧
    b.previousEpoch = a.targetEpoch)

/-- The receipts of a stream in order: they start with a PREPARING receipt, each follows the one
    before it, and each names its digest. -/
structure CutoverChain (history : List CutoverReceipt) : Prop where
  starts : ∀ r ∈ history.head?, r.phase = .preparing
  follows : history.IsChain Follows
  linked : Linked (·.prevStateDigest) (·.stateDigestSigned) none history

theorem CutoverChain.nil : CutoverChain [] where
  starts := by simp
  follows := .nil
  linked := linked_nil _ _ _

theorem Follows.key_le {a b : CutoverReceipt} (h : Follows a b) :
    toLex (a.targetEpoch, a.phase.rank) ≤ toLex (b.targetEpoch, b.phase.rank) := by
  rw [Prod.Lex.toLex_le_toLex]
  rcases h with ⟨ha, hb, hi⟩ | ⟨ha, hb, hi⟩ | ⟨-, -, ht, -⟩
  · right
    simp [ha, hb, hi, CutoverPhase.rank]
  · right
    simp [ha, hb, hi, CutoverPhase.rank]
  · left
    simp only [ht]
    omega

theorem CutoverChain.pairwise_key {history : List CutoverReceipt} (h : CutoverChain history) :
    history.Pairwise fun a b =>
      toLex (a.targetEpoch, a.phase.rank) ≤ toLex (b.targetEpoch, b.phase.rank) := by
  let K : CutoverReceipt → CutoverReceipt → Prop := fun a b =>
    toLex (a.targetEpoch, a.phase.rank) ≤ toLex (b.targetEpoch, b.phase.rank)
  have : Trans K K K := ⟨fun hab hbc => le_trans hab hbc⟩
  exact (h.follows.imp (S := K) fun _ _ => Follows.key_le).pairwise

/-- A chain is in the order in which `verifyCutoverChain` reads it. -/
theorem CutoverChain.sorted {history : List CutoverReceipt} (h : CutoverChain history) :
    orderBy (fun r => toLex (r.targetEpoch, r.phase.rank)) history = history :=
  orderBy_of_pairwise h.pairwise_key

/-- The cutover of an epoch: the fields that all its receipts share. -/
theorem CutoverChain.same_intent {history : List CutoverReceipt} (h : CutoverChain history)
    {a b : CutoverReceipt} (ha : a ∈ history) (hb : b ∈ history)
    (hab : a.targetEpoch = b.targetEpoch) : a.toCutoverIntent = b.toCutoverIntent := by
  -- along the chain either the target epoch rises or the intent stays
  let R : CutoverReceipt → CutoverReceipt → Prop := fun x y =>
    x.targetEpoch < y.targetEpoch ∨ x.toCutoverIntent = y.toCutoverIntent
  have hR : ∀ x y, Follows x y → R x y := by
    rintro x y (⟨-, -, hi⟩ | ⟨-, -, hi⟩ | ⟨-, -, ht, -⟩)
    · exact Or.inr hi.symm
    · exact Or.inr hi.symm
    · exact Or.inl (by omega)
  have : Trans R R R := ⟨by
    rintro x y z (hxy | hxy) (hyz | hyz)
    · exact Or.inl (by omega)
    · exact Or.inl (by rw [← hyz]; exact hxy)
    · exact Or.inl (by rw [hxy]; exact hyz)
    · exact Or.inr (hxy.trans hyz)⟩
  have hpair : history.Pairwise fun x y =>
      x.targetEpoch = y.targetEpoch → x.toCutoverIntent = y.toCutoverIntent :=
    (h.follows.imp hR).pairwise.imp fun hxy he => by
      rcases hxy with hlt | hi
      · omega
      · exact hi
  have : Std.Symm fun x y : CutoverReceipt =>
      x.targetEpoch = y.targetEpoch → x.toCutoverIntent = y.toCutoverIntent :=
    ⟨fun x y hxy he => (hxy he.symm).symm⟩
  by_cases hne : a = b
  · rw [hne]
  · exact hpair.forall ha hb hne hab

theorem CutoverChain.follows_getElem {history : List CutoverReceipt} (h : CutoverChain history)
    (i : ℕ) (hi : i + 1 < history.length) : Follows history[i] history[i + 1] :=
  List.isChain_iff_getElem.mp h.follows i hi

/-- An epoch that is not the last has all three phases. -/
theorem CutoverChain.finished {history : List CutoverReceipt} (h : CutoverChain history)
    {r last : CutoverReceipt} (hr : r ∈ history) (hlast : history.getLast? = some last)
    (hlt : r.targetEpoch < last.targetEpoch) (phase : CutoverPhase) :
    ∃ r' ∈ history, r'.phase = phase ∧ r'.toCutoverIntent = r.toCutoverIntent := by
  -- the next receipt of an unfinished cutover exists, since the chain goes on to a later epoch
  have hnext : ∀ x ∈ history, x.targetEpoch < last.targetEpoch →
      ∃ y ∈ history, Follows x y := by
    intro x hx hxlt
    obtain ⟨i, hi, rfl⟩ := List.getElem_of_mem hx
    rcases Nat.lt_or_ge (i + 1) history.length with hi' | hi'
    · exact ⟨history[i + 1], List.getElem_mem hi', h.follows_getElem i hi'⟩
    · rw [List.getLast?_eq_getElem?] at hlast
      have hi'' : history.length - 1 = i := by omega
      rw [hi'', List.getElem?_eq_getElem hi] at hlast
      obtain rfl : history[i] = last := by simpa using hlast
      omega
  have hprev : ∀ x ∈ history, x.phase ≠ .preparing → ∃ y ∈ history, Follows y x := by
    intro x hx hp
    obtain ⟨i, hi, rfl⟩ := List.getElem_of_mem hx
    cases i with
    | zero => exact absurd (h.starts _ (by simp [List.head?_eq_getElem?, hi])) hp
    | succ j => exact ⟨history[j], List.getElem_mem (by omega), h.follows_getElem j hi⟩
  have hfenced : ∃ f ∈ history, f.phase = .fenced ∧ f.toCutoverIntent = r.toCutoverIntent := by
    rcases hphase : r.phase with _ | _ | _
    · obtain ⟨y, hy, hf⟩ := hnext r hr hlt
      rcases hf with ⟨-, hb, hi⟩ | ⟨ha, -⟩ | ⟨ha, -⟩
      · exact ⟨y, hy, hb, hi⟩
      · simp [hphase] at ha
      · simp [hphase] at ha
    · exact ⟨r, hr, hphase, rfl⟩
    · obtain ⟨y, hy, hf⟩ := hprev r hr (by simp [hphase])
      rcases hf with ⟨-, hb, -⟩ | ⟨ha, -, hi⟩ | ⟨-, hb, -⟩
      · simp [hphase] at hb
      · exact ⟨y, hy, ha, hi.symm⟩
      · simp [hphase] at hb
  obtain ⟨f, hf, hfp, hfi⟩ := hfenced
  have hft : f.targetEpoch = r.targetEpoch := by rw [hfi]
  cases phase with
  | fenced => exact ⟨f, hf, hfp, hfi⟩
  | preparing =>
      obtain ⟨y, hy, hyf⟩ := hprev f hf (by simp [hfp])
      rcases hyf with ⟨ha, -, hi⟩ | ⟨-, hb, -⟩ | ⟨-, hb, -⟩
      · exact ⟨y, hy, ha, hi.symm.trans hfi⟩
      · simp [hfp] at hb
      · simp [hfp] at hb
  | active =>
      obtain ⟨y, hy, hyf⟩ := hnext f hf (by omega)
      rcases hyf with ⟨ha, -⟩ | ⟨-, hb, hi⟩ | ⟨ha, -⟩
      · simp [hfp] at ha
      · exact ⟨y, hy, hb, hi.trans hfi⟩
      · simp [hfp] at ha

/-! ## The invariant of a stream -/

variable (c : Crypto) (resolver : PublicKeyResolver c)

/-- The latest receipt that is FENCED. -/
def lastFenced (history : List CutoverReceipt) : Option CutoverReceipt :=
  (history.filter fun r => r.phase = .fenced).getLast?

/-- The epoch witness stands at the last FENCED target epoch, and before the first at the epoch it
    was created with: zero by the first `begin`, or one by `bootstrapGenesis`. -/
def WitnessAgrees (witness : Option EpochWitness) (history : List CutoverReceipt) : Prop :=
  ∃ genesis : ℤ, (genesis = 0 ∨ genesis = 1) ∧
    (∀ r ∈ history.head?, r.previousEpoch = genesis) ∧
    (witness = none → history = []) ∧
    ∀ w ∈ witness, w.epoch = ((lastFenced history).map (·.targetEpoch)).getD genesis

/-- The invariant of one stream, over its receipts as they are stored. -/
structure CutoverInv (db : ControlDb) (streamId : JsString) : Prop where
  chain : CutoverChain (db.receipts streamId)
  verified : ∀ r ∈ db.receipts streamId, verifyCutoverReceipt c resolver r = .ok ()
  head : db.head streamId = (db.receipts streamId).getLast?
  witness : WitnessAgrees (db.witness streamId) (db.receipts streamId)

theorem CutoverInv.empty (streamId : JsString) : CutoverInv c resolver .empty streamId where
  chain := CutoverChain.nil
  verified := by simp [ControlDb.receipts, ControlDb.empty]
  head := rfl
  witness := ⟨0, Or.inl rfl, by simp [ControlDb.receipts, ControlDb.empty], fun _ => rfl,
    by simp [ControlDb.witness, ControlDb.empty, Table.select]⟩

/-- The invariant of a stream reads only its receipts, its head and its witness. -/
theorem CutoverInv.congr {db db' : ControlDb} {streamId : JsString}
    (h : CutoverInv c resolver db streamId) (hrows : db'.receipts streamId = db.receipts streamId)
    (hhead : db'.head streamId = db.head streamId)
    (hwitness : db'.witness streamId = db.witness streamId) :
    CutoverInv c resolver db' streamId where
  chain := by rw [hrows]; exact h.chain
  verified := by rw [hrows]; exact h.verified
  head := by rw [hrows, hhead]; exact h.head
  witness := by rw [hrows, hwitness]; exact h.witness

/-! ## The writes -/

/-- What `writeReceipt` leaves: the receipt retained, and as its stream's head. -/
theorem writeReceipt_spec {db db' : ControlDb} {receipt : CutoverReceipt}
    (h : writeReceipt db (db.head receipt.streamId) receipt = .ok db') :
    db'.epochWitness = db.epochWitness ∧ hex64 receipt.stateDigestSigned = true ∧
      ∀ streamId, db'.receipts streamId =
          db.receipts streamId ++ (if receipt.streamId = streamId then [receipt] else []) ∧
        db'.head streamId =
          if receipt.streamId = streamId then some receipt else db.head streamId := by
  simp only [writeReceipt, bind_eq_ok, query_eq_ok] at h
  obtain ⟨history, hhistory, h⟩ := h
  have hrows := Table.insert_eq_ok.mp hhistory
  have hcheck : hex64 receipt.stateDigestSigned = true := by
    have := history.check_of_mem (r := receipt) (by simp [hrows])
    simp only [cutoverHistorySchema, cutoverCheck, Bool.and_eq_true] at this
    exact this.2
  have hstream : ∀ (db'' : ControlDb) (streamId : JsString), db''.cutoverHistory = history →
      db''.receipts streamId =
        db.receipts streamId ++ (if receipt.streamId = streamId then [receipt] else []) := by
    rintro db'' streamId rfl
    simp [ControlDb.receipts, hrows, List.filter_append, List.filter_singleton, Bool.cond_eq_ite]
  split at h
  · next hnone =>
      simp only [bind_eq_ok, query_eq_ok, pure_eq_ok] at h
      obtain ⟨head, hins, rfl⟩ := h
      refine ⟨rfl, hcheck, fun streamId => ⟨hstream _ _ rfl, ?_⟩⟩
      simpa [ControlDb.head] using
        Table.select_key_insert (fun r : CutoverReceipt => r.streamId) hins hnone streamId
  · next cur hcur =>
      simp only [bind_eq_ok, query_eq_ok, ensure_eq_ok, exists_unit, pure_eq_ok, Prod.exists] at h
      obtain ⟨head, n, hupd, -, rfl⟩ := h
      refine ⟨rfl, hcheck, fun streamId => ⟨hstream _ _ rfl, ?_⟩⟩
      have hset : ∀ x : CutoverReceipt, x.streamId = receipt.streamId →
          cutoverColumns receipt x = receipt := by
        intro x hx
        simp only [cutoverColumns, hx]
      simpa [ControlDb.head] using
        Table.select_key_update (fun r : CutoverReceipt => r.streamId)
          (p := fun r => r.stateDigestSigned == cur.stateDigestSigned) hupd hset (fun x => rfl)
          hcur (by simp) streamId

/-- What signing a receipt gives. -/
theorem signCutoverReceipt_spec {keyId : JsString} {key : c.PrivateKey} {bare : BareCutover}
    {r : CutoverReceipt} (h : signCutoverReceipt c keyId key bare = .ok r) :
    r.toBareCutover = bare ∧ validateBareCutover bare = .ok () ∧
      r.stateDigestSigned = c.sha256 (cutoverMessage bare []) ∧ r.keyId = keyId ∧
      sign c keyId key (cutoverMessage bare r.stateDigestSigned) = .ok r.signature := by
  simp only [signCutoverReceipt, bind_eq_ok, pure_eq_ok, exists_unit] at h
  obtain ⟨hvalid, signature, hsign, rfl⟩ := h
  exact ⟨rfl, hvalid, rfl, rfl, hsign⟩

/-- A receipt that follows the chain's last one, verified and written as the head, extends the
    chain; the witness must come to agree with the longer chain. -/
theorem CutoverInv.grow {db db' db'' : ControlDb} {receipt : CutoverReceipt}
    (hinv : CutoverInv c resolver db receipt.streamId)
    (hwrite : writeReceipt db (db.head receipt.streamId) receipt = .ok db')
    (hverified : verifyCutoverReceipt c resolver receipt = .ok ())
    (hlink : receipt.prevStateDigest = (db.head receipt.streamId).map (·.stateDigestSigned))
    (hfirst : db.head receipt.streamId = none → receipt.phase = .preparing)
    (hfollows : ∀ cur ∈ db.head receipt.streamId, Follows cur receipt)
    (hrows : db''.cutoverHistory = db'.cutoverHistory) (hhead : db''.cutoverHead = db'.cutoverHead)
    (hwitness : WitnessAgrees (db''.witness receipt.streamId)
      (db.receipts receipt.streamId ++ [receipt])) :
    CutoverInv c resolver db'' receipt.streamId := by
  obtain ⟨-, -, hspec⟩ := writeReceipt_spec hwrite
  obtain ⟨hr, hh⟩ := hspec receipt.streamId
  rw [if_pos rfl] at hr hh
  have hr'' : db''.receipts receipt.streamId = db.receipts receipt.streamId ++ [receipt] := by
    rw [← hr]
    simp only [ControlDb.receipts, hrows]
  have hh'' : db''.head receipt.streamId = some receipt := by
    rw [← hh]
    simp only [ControlDb.head, hhead]
  rw [hinv.head] at hlink hfirst hfollows
  refine ⟨⟨?_, ?_, ?_⟩, ?_, ?_, ?_⟩
  · rw [hr'']
    intro r hrmem
    rcases hcase : db.receipts receipt.streamId with _ | ⟨a, rest⟩
    · obtain rfl : receipt = r := by simpa [hcase] using hrmem
      exact hfirst (by simp [hcase])
    · refine hinv.chain.starts r ?_
      rw [hcase] at hrmem ⊢
      simpa using hrmem
  · rw [hr'', List.isChain_append]
    refine ⟨hinv.chain.follows, .singleton _, fun cur hcur y hy => ?_⟩
    obtain rfl : receipt = y := by simpa using hy
    exact hfollows cur hcur
  · rw [hr'', linked_append_singleton]
    exact ⟨hinv.chain.linked, by rw [hlink]; simp [tip]⟩
  · rw [hr'']
    intro r hrmem
    rcases List.mem_append.mp hrmem with hrmem | hrmem
    · exact hinv.verified r hrmem
    · rwa [List.mem_singleton.mp hrmem]
  · rw [hr'', hh'', List.getLast?_concat]
  · rw [hr'']
    exact hwitness

/-! ## The transactions -/

theorem eq_of_cutoverFromRow {row r : CutoverReceipt} (h : cutoverFromRow row = .ok r) :
    r = row := by
  revert h
  simp only [cutoverFromRow, bind_eq_ok, safeInt_eq_ok, pure_eq_ok]
  rintro ⟨_, ⟨-, rfl⟩, _, ⟨-, rfl⟩, _, ⟨-, rfl⟩, _, ⟨-, rfl⟩, _, ⟨-, rfl⟩, rfl⟩
  rfl

theorem eq_of_currentReceipt {row r : CutoverReceipt}
    (h : currentReceipt c resolver row = .ok r) : r = row := by
  simp only [currentReceipt, bind_eq_ok, pure_eq_ok, exists_unit] at h
  obtain ⟨r', hr, -, rfl⟩ := h
  exact eq_of_cutoverFromRow hr

theorem target_of_validate {v : BareCutover} (h : validateBareCutover v = .ok ()) :
    v.targetEpoch = v.previousEpoch + 1 := by
  simp only [validateBareCutover, bind_eq_ok, ensure_eq_ok, exists_unit] at h
  obtain ⟨-, -, -, -, _, -, _, -, _, -, _, -, _, -, h, -⟩ := h
  exact h

/-- `begin` left the database alone, or prepared the intent against the head row. -/
theorem begin_cases {ctl : BpcCutoverController c} {input : CutoverIntent} {db db' : ControlDb}
    {r : CutoverReceipt} (h : ctl.begin c resolver input db = .ok (r, db')) :
    db' = db ∨ prepare c resolver ctl input db (db.head input.streamId) = .ok (r, db') := by
  unfold BpcCutoverController.begin at h
  split at h
  · next hnone =>
      rw [hnone]
      exact Or.inr h
  · next row hrow =>
      simp only [bind_eq_ok] at h
      obtain ⟨current, hcurrent, h⟩ := h
      rw [hrow, ← eq_of_currentReceipt c resolver hcurrent]
      split at h
      · simp only [pure_eq_ok, Prod.mk.injEq] at h
        exact Or.inl h.2.symm
      · exact Or.inr h

/-- `transition` left the database alone, or advanced its command's head receipt by one phase. -/
theorem transition_cases {ctl : BpcCutoverController c} {commandId : JsString}
    {phase : TransitionPhase} {evidence : FenceEvidence} {db db' : ControlDb} {r : CutoverReceipt}
    (h : ctl.transition c resolver commandId phase evidence db = .ok (r, db')) :
    db' = db ∨ ∃ current next, current ∈ db.cutoverHead.rows ∧
      ((current.phase = .preparing ∧ next = .fenced) ∨
        (current.phase = .fenced ∧ next = .active)) ∧
      advance c ctl current next db = .ok (r, db') := by
  unfold BpcCutoverController.transition at h
  split at h
  · simp at h
  · next row hrow =>
      simp only [bind_eq_ok] at h
      obtain ⟨current, hcurrent, h⟩ := h
      obtain rfl := eq_of_currentReceipt c resolver hcurrent
      have hmem := (Table.mem_of_select hrow).1
      cases phase with
      | fenced =>
          simp only [transitionFenced, bind_eq_ok, exists_unit] at h
          obtain ⟨-, h⟩ := h
          split at h
          · next hp => exact Or.inr ⟨current, .fenced, hmem, Or.inl ⟨hp, rfl⟩, h⟩
          · simp only [bind_eq_ok, exists_unit, pure_eq_ok, Prod.mk.injEq] at h
            exact Or.inl h.2.2.symm
      | active =>
          simp only [transitionActive] at h
          split at h
          · simp only [pure_eq_ok, Prod.mk.injEq] at h
            exact Or.inl h.2.symm
          · simp at h
          · next hp => exact Or.inr ⟨current, .active, hmem, Or.inr ⟨hp, rfl⟩, h⟩

/-- A stream's head row, found by any other way, is the row its stream selects. -/
theorem ControlDb.head_of_mem {db : ControlDb} {r : CutoverReceipt} (h : r ∈ db.cutoverHead.rows) :
    db.head r.streamId = some r := by
  rcases hsel : db.head r.streamId with _ | row
  · have := Table.select_eq_none.mp hsel r h
    simp at this
  · obtain ⟨hmem, hkey⟩ := Table.mem_of_select hsel
    refine congrArg some (Table.eq_of_clash _ (fun a b => ?_) hmem h ?_)
    · simp [cutoverHeadSchema, Bool.beq_comm]
    · simp only [beq_iff_eq] at hkey
      simp [cutoverHeadSchema, hkey]

theorem witnessEpoch_eq_ok {db : ControlDb} {streamId : JsString} {n : ℤ}
    (h : witnessEpoch db streamId = .ok n) :
    (db.witness streamId = none ∧ n = 0) ∨ ∃ w, db.witness streamId = some w ∧ w.epoch = n := by
  unfold witnessEpoch at h
  split at h
  · next hnone => exact Or.inl ⟨hnone, ((pure_eq_ok _ _).mp h).symm⟩
  · next w hw => exact Or.inr ⟨w, hw, ((safeInt_eq_ok _ _ _ _ _).mp h).2⟩

/-- The witness row is created at epoch zero where there was none, and nothing else changes. -/
theorem witnessRow_spec {db db' : ControlDb} {streamId : JsString}
    (h : witnessRow db streamId = .ok db') :
    (∀ s, db'.receipts s = db.receipts s ∧ db'.head s = db.head s) ∧
      (∀ s, s ≠ streamId → db'.witness s = db.witness s) ∧
      (db'.witness streamId = db.witness streamId ∧ db.witness streamId ≠ none ∨
        db.witness streamId = none ∧ ∃ w, db'.witness streamId = some w ∧ w.epoch = 0) := by
  unfold witnessRow at h
  split at h
  · next w hw =>
      obtain rfl := (pure_eq_ok _ _).mp h
      exact ⟨fun _ => ⟨rfl, rfl⟩, fun _ _ => rfl, Or.inl ⟨rfl, by simp [hw]⟩⟩
  · next hnone =>
      simp only [bind_eq_ok, query_eq_ok, pure_eq_ok] at h
      obtain ⟨table, hins, rfl⟩ := h
      have hsel := Table.select_key_insert (fun w : EpochWitness => w.streamId) hins hnone
      refine ⟨fun _ => ⟨rfl, rfl⟩, fun s hs => ?_, 
        Or.inr ⟨hnone, { streamId, epoch := 0, stateDigest := List.replicate 64 48 }, ?_, rfl⟩⟩
      · have hne : ¬ streamId = s := fun he => hs he.symm
        simpa [ControlDb.witness, hne] using hsel s
      · simpa [ControlDb.witness] using hsel streamId

theorem lastFenced_append (history : List CutoverReceipt) (r : CutoverReceipt) :
    lastFenced (history ++ [r]) = if r.phase = .fenced then some r else lastFenced history := by
  unfold lastFenced
  by_cases hp : r.phase = .fenced
  · simp [hp]
  · simp [hp]

/-- Preparing an intent keeps every stream's invariant. -/
theorem CutoverInv.prepare {ctl : BpcCutoverController c} {input : CutoverIntent}
    {db db' : ControlDb} {r : CutoverReceipt} (hinv : ∀ s, CutoverInv c resolver db s)
    (h : prepare c resolver ctl input db (db.head input.streamId) = .ok (r, db'))
    (streamId : JsString) : CutoverInv c resolver db' streamId := by
  simp only [Ha.prepare, bind_eq_ok, ensure_eq_ok, exists_unit, pure_eq_ok, Prod.mk.injEq] at h
  obtain ⟨hcur, epoch, hepoch, rfl, db₁, hdb₁, preparing, hsign, hverify, db₂, hwrite, rfl, rfl⟩ := h
  obtain ⟨hbare, hvalid, -, -, -⟩ := signCutoverReceipt_spec c hsign
  have hs : preparing.streamId = input.streamId := by rw [hbare]
  have hprev : preparing.previousEpoch = input.previousEpoch := by rw [hbare]
  have hphase : preparing.phase = .preparing := by rw [hbare]
  have htarget : preparing.targetEpoch = input.previousEpoch + 1 := by
    rw [← hprev]
    exact target_of_validate (hbare ▸ hvalid)
  obtain ⟨hsame, hother, hwit⟩ := witnessRow_spec hdb₁
  have hwrite₁ : writeReceipt db₁ (db₁.head preparing.streamId) preparing = .ok db₂ := by
    rw [(hsame _).2, hs]
    exact hwrite
  obtain ⟨hew, -, hspec⟩ := writeReceipt_spec hwrite₁
  have hw₂ : ∀ s, db₂.witness s = db₁.witness s := fun s => by
    simp only [ControlDb.witness, hew]
  by_cases hst : streamId = input.streamId
  · subst hst
    rw [← hs] at hwit hepoch ⊢
    have hbase : CutoverInv c resolver db preparing.streamId := hinv _
    obtain ⟨genesis, hg, hgfirst, hgnone, hgw⟩ := hbase.witness
    -- before the first receipt the witness stands at genesis, and `begin` starts from there
    have hbase₁ : CutoverInv c resolver db₁ preparing.streamId := by
      refine ⟨by rw [(hsame _).1]; exact hbase.chain, by rw [(hsame _).1]; exact hbase.verified,
        by rw [(hsame _).1, (hsame _).2]; exact hbase.head, ?_⟩
      rcases hwit with ⟨hw, -⟩ | ⟨hnone, w, hw, hw0⟩
      · rw [hw, (hsame _).1]
        exact hbase.witness
      · rw [hw, (hsame _).1, hgnone hnone]
        exact ⟨0, Or.inl rfl, by simp, by simp, by simpa [lastFenced] using hw0⟩
    refine hbase₁.grow c resolver hwrite₁ hverify ?_ (fun _ => hphase) ?_ rfl rfl ?_
    · rw [(hsame _).2, hbare]
    · rw [(hsame _).2, hs]
      intro cur hcurmem
      obtain ⟨hactive, hpe⟩ := hcur cur hcurmem
      refine Or.inr (Or.inr ⟨hactive, hphase, ?_, ?_⟩)
      · rw [htarget, hpe]
      · rw [hprev, hpe]
    · rw [hw₂, (hsame _).1]
      rcases witnessEpoch_eq_ok hepoch with ⟨hnone, h0⟩ | ⟨w, hw, hwe⟩
      · rcases hwit with ⟨-, hne⟩ | ⟨-, w, hw, hw0⟩
        · exact absurd hnone hne
        · rw [hw, hgnone hnone]
          refine ⟨0, Or.inl rfl, ?_, by simp, ?_⟩
          · simp [hprev, h0]
          · simpa [lastFenced, hphase] using hw0
      · have hwne : db.witness preparing.streamId ≠ none := by simp [hw]
        have hw₁ : db₁.witness preparing.streamId = some w := by
          rcases hwit with ⟨he, -⟩ | ⟨hnone, -⟩
          · rw [he, hw]
          · exact absurd hnone hwne
        rw [hw₁]
        have hwg := hgw w (by rw [hw]; rfl)
        refine ⟨genesis, hg, ?_, by simp, ?_⟩
        · intro x hx
          rcases hrows : db.receipts preparing.streamId with _ | ⟨a, rest⟩
          · obtain rfl : preparing = x := by simpa [hrows] using hx
            rw [hprev, ← hwe, hwg, hrows]
            rfl
          · refine hgfirst x ?_
            rw [hrows] at hx ⊢
            simpa using hx
        · intro w' hw'
          obtain rfl : w = w' := by simpa using hw'
          rw [hwg, lastFenced_append, if_neg (by simp [hphase])]
  · have hne : ¬ preparing.streamId = streamId := fun he => hst (he ▸ hs)
    obtain ⟨hr, hh⟩ := hspec streamId
    rw [if_neg hne, List.append_nil, (hsame _).1] at hr
    rw [if_neg hne, (hsame _).2] at hh
    exact (hinv streamId).congr c resolver hr hh (by rw [hw₂, hother streamId hst])

/-- The resolver accepts what the controller signs: it holds the public half of the guard key under
    the guard key's id. -/
def GuardAccepted (ctl : BpcCutoverController c) : Prop :=
  ∀ message signature, sign c ctl.guardKeyId ctl.guardKey message = .ok signature →
    verify c resolver ctl.guardKeyId message signature = .ok ()

/-- What an accepted guard key signs verifies. -/
theorem GuardAccepted.verified {ctl : BpcCutoverController c} (hctl : GuardAccepted c resolver ctl)
    {bare : BareCutover} {r : CutoverReceipt}
    (h : signCutoverReceipt c ctl.guardKeyId ctl.guardKey bare = .ok r)
    (hhex : hex64 r.stateDigestSigned = true) : verifyCutoverReceipt c resolver r = .ok () := by
  obtain ⟨hbare, hvalid, hdigest, hkey, hsign⟩ := signCutoverReceipt_spec c h
  have hverify := hctl _ _ hsign
  simp only [verifyCutoverReceipt, bind_eq_ok, ensure_eq_ok, exists_unit]
  rw [hbare, hkey]
  exact ⟨hvalid, ⟨hhex, hdigest.symm⟩, hverify⟩

/-- The witness after a FENCED receipt: the row that stood at the previous epoch, moved to the
    target epoch. -/
theorem advanceWitness_spec {db db' : ControlDb} {next : CutoverReceipt}
    (h : advanceWitness db next = .ok db') :
    db'.cutoverHistory = db.cutoverHistory ∧ db'.cutoverHead = db.cutoverHead ∧
      (∃ w, db'.witness next.streamId = some w ∧ w.epoch = next.targetEpoch ∧
        w.stateDigest = next.stateDigestSigned) ∧
      ∀ s, s ≠ next.streamId → db'.witness s = db.witness s := by
  simp only [advanceWitness, bind_eq_ok, query_eq_ok, ensure_eq_ok, exists_unit, pure_eq_ok,
    Prod.exists] at h
  obtain ⟨table, n, hupd, hcount, rfl⟩ := h
  rw [(Table.update_eq_ok.mp hupd).2, List.countP_eq_length_filter] at hcount
  obtain ⟨w, hw⟩ := List.length_eq_one_iff.mp hcount
  have hwmem : w ∈ db.epochWitness.rows ∧ w.streamId = next.streamId ∧
      w.epoch = next.previousEpoch := by
    have : w ∈ [w] := List.mem_singleton.mpr rfl
    rw [← hw] at this
    simpa using this
  obtain ⟨hmem, hws, hwe⟩ := hwmem
  have hsel := fun s => Table.select_update (q := fun x : EpochWitness => x.streamId == s) hupd
    fun x => rfl
  -- the stream's row is unique, so the row counted is the row selected
  have hcur : (db.epochWitness.select fun x => x.streamId == next.streamId) = some w := by
    rcases hrow : db.epochWitness.select fun x => x.streamId == next.streamId with _ | row
    · have := Table.select_eq_none.mp hrow w hmem
      simp [hws] at this
    · obtain ⟨hrm, hrk⟩ := Table.mem_of_select hrow
      refine congrArg some (Table.eq_of_clash _ (fun a b => ?_) hrm hmem ?_)
      · simp [epochWitnessSchema, Bool.beq_comm]
      · simp only [beq_iff_eq] at hrk
        simp [epochWitnessSchema, hrk, hws]
  refine ⟨rfl, rfl, ⟨{ w with epoch := next.targetEpoch, stateDigest := next.stateDigestSigned },
    ?_, rfl, rfl⟩, fun s hs => ?_⟩
  · simp only [ControlDb.witness, hsel, hcur, Option.map_some, hws, hwe, beq_self_eq_true,
      Bool.and_self, if_true]
  · simp only [ControlDb.witness, hsel]
    rcases hrow : db.epochWitness.select fun x => x.streamId == s with _ | row
    · rfl
    · have hrs : row.streamId = s := by simpa using (Table.mem_of_select hrow).2
      simp [hrs, hs]

/-- Advancing a cutover by one phase keeps every stream's invariant, if the controller's guard key
    is accepted. -/
theorem CutoverInv.advance {ctl : BpcCutoverController c} (hctl : GuardAccepted c resolver ctl)
    {current r : CutoverReceipt} {next : CutoverPhase} {db db' : ControlDb}
    (hinv : ∀ s, CutoverInv c resolver db s) (hmem : current ∈ db.cutoverHead.rows)
    (hphase : (current.phase = .preparing ∧ next = .fenced) ∨
      (current.phase = .fenced ∧ next = .active))
    (h : advance c ctl current next db = .ok (r, db')) (streamId : JsString) :
    CutoverInv c resolver db' streamId := by
  simp only [Ha.advance, bind_eq_ok] at h
  obtain ⟨receipt, hsign, db₁, hwrite, h⟩ := h
  obtain ⟨hbare, -, -, -, -⟩ := signCutoverReceipt_spec c hsign
  have hs : receipt.streamId = current.streamId := by rw [hbare]
  have hp : receipt.phase = next := by rw [hbare]
  have hintent : receipt.toCutoverIntent = current.toCutoverIntent := by rw [hbare]
  have hhead : db.head receipt.streamId = some current := hs ▸ ControlDb.head_of_mem hmem
  rw [← hhead] at hwrite
  obtain ⟨hew, hhex, hspec⟩ := writeReceipt_spec hwrite
  have hverified := hctl.verified c resolver hsign hhex
  have hfollows : Follows current receipt := by
    rcases hphase with ⟨hc, rfl⟩ | ⟨hc, rfl⟩
    · exact Or.inl ⟨hc, hp, hintent⟩
    · exact Or.inr (Or.inl ⟨hc, hp, hintent⟩)
  obtain ⟨genesis, hg, hgfirst, -, hgw⟩ := (hinv receipt.streamId).witness
  have hne : db.receipts receipt.streamId ≠ [] := by
    intro hnil
    have := (hinv receipt.streamId).head
    rw [hhead, hnil] at this
    simp at this
  have hgfirst' : ∀ x ∈ (db.receipts receipt.streamId ++ [receipt]).head?,
      x.previousEpoch = genesis := by
    intro x hx
    rcases hrows : db.receipts receipt.streamId with _ | ⟨a, rest⟩
    · exact absurd hrows hne
    · refine hgfirst x ?_
      rw [hrows] at hx ⊢
      simpa using hx
  -- the state after the writes, whichever branch of `advance` was taken
  have hkey : db'.cutoverHistory = db₁.cutoverHistory ∧ db'.cutoverHead = db₁.cutoverHead ∧
      (∀ s, s ≠ receipt.streamId → db'.witness s = db.witness s) ∧
      ∀ w ∈ db'.witness receipt.streamId, w.epoch = ((lastFenced
        (db.receipts receipt.streamId ++ [receipt])).map (·.targetEpoch)).getD genesis := by
    have hw₁ : ∀ s, db₁.witness s = db.witness s := fun s => by
      simp only [ControlDb.witness, hew]
    rw [lastFenced_append, hp]
    rcases hphase with ⟨-, rfl⟩ | ⟨-, rfl⟩
    · simp only [if_true, bind_eq_ok, pure_eq_ok, Prod.mk.injEq] at h
      obtain ⟨db₂, hadv, -, rfl⟩ := h
      obtain ⟨h1, h2, ⟨w, hw, hwe, -⟩, hother⟩ := advanceWitness_spec hadv
      refine ⟨h1, h2, fun s hs => (hother s hs).trans (hw₁ s), fun w' hw' => ?_⟩
      obtain rfl : w = w' := by simpa [hw] using hw'
      simpa using hwe
    · simp only [reduceCtorEq, if_false, pure_eq_ok, Prod.mk.injEq] at h
      obtain ⟨-, rfl⟩ := h
      refine ⟨rfl, rfl, fun s _ => hw₁ s, fun w hw => ?_⟩
      rw [hw₁] at hw
      simpa using hgw w hw
  obtain ⟨hk1, hk2, hk3, hk4⟩ := hkey
  by_cases hst : streamId = receipt.streamId
  · subst hst
    refine (hinv _).grow c resolver hwrite hverified ?_ ?_ ?_ hk1 hk2 ?_
    · rw [hhead, hbare]
      rfl
    · rw [hhead]
      simp
    · rw [hhead]
      intro cur hcur
      obtain rfl : current = cur := by simpa using hcur
      exact hfollows
    · have hwne : (db'.witness receipt.streamId = none →
          db.receipts receipt.streamId ++ [receipt] = []) := by
        intro hnone
        exfalso
        rcases hphase with ⟨-, rfl⟩ | ⟨-, rfl⟩
        · simp only [if_true, bind_eq_ok, pure_eq_ok, Prod.mk.injEq] at h
          obtain ⟨db₂, hadv, -, rfl⟩ := h
          obtain ⟨-, -, ⟨w, hw, -⟩, -⟩ := advanceWitness_spec hadv
          rw [hnone] at hw
          cases hw
        · simp only [reduceCtorEq, if_false, pure_eq_ok, Prod.mk.injEq] at h
          obtain ⟨-, rfl⟩ := h
          obtain ⟨_, -, -, hnone', -⟩ := (hinv receipt.streamId).witness
          refine hne (hnone' ?_)
          simpa only [ControlDb.witness, hew] using hnone
      exact ⟨genesis, hg, hgfirst', hwne, hk4⟩
  · have hne' : ¬ receipt.streamId = streamId := fun he => hst he.symm
    obtain ⟨hr, hh⟩ := hspec streamId
    rw [if_neg hne', List.append_nil] at hr
    rw [if_neg hne'] at hh
    refine (hinv streamId).congr c resolver ?_ ?_ (hk3 streamId hst)
    · rw [← hr]
      simp only [ControlDb.receipts, hk1]
    · rw [← hh]
      simp only [ControlDb.head, hk2]

/-- Bootstrapping genesis keeps every stream's invariant: it creates a witness at epoch one where
    there was none, before the stream's first receipt. -/
theorem CutoverInv.bootstrapGenesis {genesisStream digest : JsString} {db db' : ControlDb}
    {u : Unit} (hinv : ∀ s, CutoverInv c resolver db s)
    (h : bootstrapGenesisTx genesisStream digest db = .ok (u, db')) (streamId : JsString) :
    CutoverInv c resolver db' streamId := by
  simp only [bootstrapGenesisTx, bind_eq_ok, query_eq_ok, Prod.exists] at h
  obtain ⟨table, n, hins, h⟩ := h
  have hdb' : db' = { db with epochWitness := table } := by
    split at h
    · simp only [bind_eq_ok, exists_unit, pure_eq_ok, Prod.mk.injEq] at h
      exact h.2.2.symm
    · simp only [pure_eq_ok, Prod.mk.injEq] at h
      exact h.2.symm
  subst hdb'
  rcases Table.insertOrIgnore_eq_ok hins with ⟨-, rfl, -⟩ | ⟨-, hrow, hnew⟩
  · exact hinv streamId
  · have hnone : db.witness genesisStream = none :=
      Table.select_eq_none.mpr fun r hr => hnew r hr
    have hsel := Table.select_key_insert (fun w : EpochWitness => w.streamId) hrow hnone
    by_cases hs : genesisStream = streamId
    · subst hs
      obtain ⟨_, -, -, hempty, -⟩ := (hinv genesisStream).witness
      have hrows := hempty hnone
      refine ⟨(hinv _).chain, (hinv _).verified, (hinv _).head, 1, Or.inr rfl, ?_, ?_, ?_⟩
      · intro r hr
        have hnil : (db.receipts genesisStream).head? = some r := hr
        simp [hrows] at hnil
      · exact fun _ => hrows
      · intro w hw
        have hrows' : ControlDb.receipts { db with epochWitness := table } genesisStream = [] :=
          hrows
        rw [hrows']
        have hw' : table.select (fun x => x.streamId == genesisStream) = some w := hw
        rw [hsel] at hw'
        obtain rfl : _ = w := by simpa using hw'
        rfl
    · refine (hinv streamId).congr c resolver rfl rfl ?_
      simpa [ControlDb.witness, hs] using hsel streamId

/-! ## Runs -/

/-- A transaction that signs a transition does so with an accepted guard key. -/
def SignsAccepted : CutoverOp c → Prop
  | .transition ctl _ _ => GuardAccepted c resolver ctl
  | _ => True

/-- A request whose transitions, if it makes any, are signed with an accepted guard key. -/
def RequestsAccepted : CutoverRequest c → Prop
  | .begin _ _ => True
  | .markFenced ctl _ => GuardAccepted c resolver ctl
  | .markActive ctl _ _ _ => GuardAccepted c resolver ctl
  | .bootstrapGenesis _ => True

theorem uses_runTx {P : CutoverOp c → Prop} {o : CutoverOp c} (h : P o) :
    (runTx c o).Uses P :=
  (Prog.uses_perform.mpr h).bind fun _ => Prog.uses_lift

theorem uses_markActiveFrom {ctl : BpcCutoverController c} (hctl : GuardAccepted c resolver ctl)
    (commandId : JsString) (attestation : PromotionReadinessAttestation)
    (sourceResolver : PublicKeyResolver c) (head : CutoverReceipt) :
    (ctl.markActiveFrom c resolver commandId attestation sourceResolver head).Uses
      (SignsAccepted c resolver) := by
  refine Prog.uses_lift.bind fun _ => Prog.uses_lift.bind fun _ => ?_
  split
  · exact (uses_runTx c trivial).bind fun _ => Prog.uses_lift.bind fun _ => trivial
  · exact Prog.uses_lift.bind fun _ => (uses_runTx c trivial).bind fun _ => uses_runTx c hctl

theorem uses_of_accepted {req : CutoverRequest c} (h : RequestsAccepted c resolver req) :
    (req.program c resolver).Uses (SignsAccepted c resolver) := by
  cases req with
  | begin ctl input => exact (uses_runTx c trivial).map
  | markFenced ctl commandId => exact (uses_runTx c h).map
  | markActive ctl commandId attestation sourceResolver =>
      refine Prog.Uses.map (Prog.uses_lift.bind fun _ => (uses_runTx c trivial).bind ?_)
      exact fun head => uses_markActiveFrom c resolver h commandId attestation sourceResolver head
  | bootstrapGenesis record =>
      refine Prog.Uses.map (Prog.uses_lift.bind fun _ => Prog.uses_lift.bind fun _ => ?_)
      exact Prog.uses_lift.bind fun _ => uses_runTx c trivial

theorem readHeadTx_spec {commandId : JsString} {db db' : ControlDb} {r : CutoverReceipt}
    (h : readHeadTx commandId db = .ok (r, db')) : db' = db := by
  unfold readHeadTx at h
  split at h
  · simp at h
  · simp only [bind_eq_ok, pure_eq_ok, Prod.mk.injEq] at h
    obtain ⟨_, -, -, rfl⟩ := h
    rfl

theorem insertAttestationTx_spec {commandId : JsString}
    {attestation : PromotionReadinessAttestation} {db db' : ControlDb} {u : Unit}
    (h : insertAttestationTx commandId attestation db = .ok (u, db')) :
    ∃ table, db' = { db with promotionAttestation := table } := by
  simp only [insertAttestationTx, bind_eq_ok, query_eq_ok, pure_eq_ok, exists_unit, Prod.exists,
    Prod.mk.injEq] at h
  obtain ⟨table, _, -, -, -, rfl⟩ := h
  exact ⟨table, rfl⟩

/-- Every transaction of the service keeps every stream's invariant. -/
theorem CutoverInv.body {o : CutoverOp c} (ho : SignsAccepted c resolver o)
    {evidence : FenceEvidence} {db db' : ControlDb} {a : o.Result}
    (hinv : ∀ s, CutoverInv c resolver db s)
    (h : o.body c resolver evidence db = .ok (a, db')) (streamId : JsString) :
    CutoverInv c resolver db' streamId := by
  cases o with
  | begin ctl input =>
      rcases begin_cases c resolver h with rfl | hprepare
      · exact hinv streamId
      · exact CutoverInv.prepare c resolver hinv hprepare streamId
  | transition ctl commandId phase =>
      rcases transition_cases c resolver h with rfl | ⟨current, next, hmem, hphase, hadv⟩
      · exact hinv streamId
      · exact CutoverInv.advance c resolver ho hinv hmem hphase hadv streamId
  | readHead commandId =>
      rw [readHeadTx_spec h]
      exact hinv streamId
  | readAttestation commandId =>
      obtain rfl : db = db' := congrArg Prod.snd (Except.ok.inj h)
      exact hinv streamId
  | insertAttestation commandId attestation =>
      obtain ⟨table, rfl⟩ := insertAttestationTx_spec h
      exact (hinv streamId).congr c resolver rfl rfl rfl
  | bootstrapGenesis genesisStream digest =>
      exact CutoverInv.bootstrapGenesis c resolver hinv h streamId

theorem cutoverInv_of_reachable
    {cfg : Config ℕ (CutoverRequest c) (CutoverOp c) (CutoverAns c) HaError
      (Option CutoverReceipt) ControlDb}
    (h : Transition.Reachable
      ((cutoverService c resolver (RequestsAccepted c resolver)).system ℕ) cfg) :
    ∀ streamId, CutoverInv c resolver cfg.shared streamId := by
  refine Service.invariant (I := fun db => ∀ s, CutoverInv c resolver db s)
    (P := SignsAccepted c resolver) (fun req hreq => uses_of_accepted c resolver hreq) ?_ ?_ ?_ h
  · rintro db rfl
    exact CutoverInv.empty c resolver
  · rintro db o r db' ho hinv ⟨evidence, hout⟩
    exact hout.induction (P := fun db => ∀ s, CutoverInv c resolver db s) hinv
      fun a t ha => CutoverInv.body c resolver ho hinv ha
  · rintro db db' hinv ⟨grant, leases, -, rfl⟩ s
    exact (hinv s).congr c resolver rfl rfl rfl

/-! ## The verdict on a state -/

theorem cutoverFromRow_of_valid {r : CutoverReceipt}
    (h : verifyCutoverReceipt c resolver r = .ok ()) : cutoverFromRow r = .ok r := by
  simp only [verifyCutoverReceipt, validateBareCutover, bind_eq_ok, id_eq_ok, ensure_eq_ok,
    safeInt_eq_ok, exists_unit] at h
  obtain ⟨⟨-, -, -, -, _, ⟨h1, -⟩, _, ⟨h2, -⟩, _, ⟨h3, -⟩, _, ⟨h4, -⟩, _, ⟨h5, -⟩, -⟩, -⟩ := h
  simp only [cutoverFromRow, safeInt_of h1, safeInt_of h2, safeInt_of h3, safeInt_of h4,
    safeInt_of h5, ok_bind]
  rfl

/-- On verified, linked rows the loop of `verifyCutoverChain` runs to the last of them. -/
theorem verifyCutoverRows_of_linked {rows : List CutoverReceipt} {last : Option CutoverReceipt}
    (hverified : ∀ r ∈ rows, verifyCutoverReceipt c resolver r = .ok ())
    (hlinked : Linked (·.prevStateDigest) (·.stateDigestSigned)
      (last.map (·.stateDigestSigned)) rows) :
    verifyCutoverRows c resolver rows last = .ok (rows.getLast?.or last) := by
  induction rows generalizing last with
  | nil => rfl
  | cons r rest ih =>
      have hr := hverified r List.mem_cons_self
      have hlink : r.prevStateDigest = last.map (·.stateDigestSigned) := hlinked.1
      have hrest : verifyCutoverRows c resolver rest (some r) = .ok (rest.getLast?.or (some r)) :=
        ih (fun x hx => hverified x (List.mem_cons_of_mem _ hx)) hlinked.2
      simp only [verifyCutoverRows, cutoverFromRow_of_valid c resolver hr, hr, ok_bind,
        ensure_of hlink, hrest]
      cases rest with
      | nil => rfl
      | cons a l =>
          obtain ⟨z, hz⟩ := Option.isSome_iff_exists.mp (by simp : (a :: l).getLast?.isSome)
          simp only [List.getLast?_cons_cons, hz, Option.some_or]

theorem CutoverInv.verifies {db : ControlDb} {streamId : JsString}
    (hinv : CutoverInv c resolver db streamId) :
    verifyCutoverChain c resolver db streamId = .ok (db.receipts streamId).getLast? := by
  have hrows : db.history streamId = db.receipts streamId := hinv.chain.sorted
  have hloop : verifyCutoverRows c resolver (db.receipts streamId) none =
      .ok ((db.receipts streamId).getLast?.or none) :=
    verifyCutoverRows_of_linked c resolver hinv.verified hinv.chain.linked
  rw [Option.or_none] at hloop
  simp only [verifyCutoverChain, hrows, hloop, ok_bind]
  rw [hinv.head]
  rcases hlast : (db.receipts streamId).getLast? with _ | head
  · rfl
  · have hhead := hinv.verified head (List.mem_of_getLast? hlast)
    simp only [cutoverFromRow_of_valid c resolver hhead, hhead, ok_bind, Option.map_some,
      ensure_of trivial]
    rfl

/-- What holds of one stream in a control database. -/
structure CutoverChainHolds (db : ControlDb) (streamId : JsString) : Prop where
  /-- The retained receipts start with PREPARING, each follows the one before it in phase or in
      epoch, and each names its digest. -/
  chain : CutoverChain (db.history streamId)
  /-- The receipts of one target epoch agree on every field but phase, link and signature. -/
  sameIntent : ∀ a ∈ db.history streamId, ∀ b ∈ db.history streamId,
    a.targetEpoch = b.targetEpoch → a.toCutoverIntent = b.toCutoverIntent
  /-- Only the last epoch may be unfinished. -/
  finished : ∀ r ∈ db.history streamId, ∀ last ∈ (db.history streamId).getLast?,
    r.targetEpoch < last.targetEpoch → ∀ phase, ∃ r' ∈ db.history streamId,
      r'.phase = phase ∧ r'.toCutoverIntent = r.toCutoverIntent
  /-- The head row is the last receipt. -/
  head : db.head streamId = (db.history streamId).getLast?
  /-- The epoch witness stands at the last FENCED target epoch, or at genesis. -/
  witness : WitnessAgrees (db.witness streamId) (db.history streamId)
  /-- The code's own verification of the chain succeeds. -/
  verifies : verifyCutoverChain c resolver db streamId = .ok (db.history streamId).getLast?

theorem CutoverInv.holds {db : ControlDb} {streamId : JsString}
    (hinv : CutoverInv c resolver db streamId) : CutoverChainHolds c resolver db streamId := by
  have hrows : db.history streamId = db.receipts streamId := hinv.chain.sorted
  refine ⟨?_, ?_, ?_, ?_, ?_, ?_⟩
  · rw [hrows]
    exact hinv.chain
  · rw [hrows]
    exact fun a ha b hb hab => hinv.chain.same_intent ha hb hab
  · rw [hrows]
    exact fun r hr last hlast hlt phase => hinv.chain.finished hr hlast hlt phase
  · rw [hrows]
    exact hinv.head
  · rw [hrows]
    exact hinv.witness
  · rw [hrows]
    exact hinv.verifies

/-- **The cutover chain invariant.** In every state that any interleaving of calls reaches, if the
    controllers that make transitions hold accepted guard keys, every stream's receipts, head row
    and epoch witness form one verified chain. -/
theorem cutoverChain_of_accepted
    {cfg : Config ℕ (CutoverRequest c) (CutoverOp c) (CutoverAns c) HaError
      (Option CutoverReceipt) ControlDb}
    (h : Transition.Reachable
      ((cutoverService c resolver (RequestsAccepted c resolver)).system ℕ) cfg)
    (streamId : JsString) : CutoverChainHolds c resolver cfg.shared streamId :=
  (cutoverInv_of_reachable c resolver h streamId).holds c resolver

/-! ## A concrete cutover

One stream's cutover from epoch one to two, run once by a controller whose guard key the resolver
accepts, and once with `markFenced` called on a controller that holds another key. -/

/-- A call whose whole program is one transaction can start and commit. -/
theorem reachable_of_commit {admits : CutoverRequest c → Prop}
    {cfg : Config ℕ (CutoverRequest c) (CutoverOp c) (CutoverAns c) HaError
      (Option CutoverReceipt) ControlDb}
    (h : Transition.Reachable ((cutoverService c resolver admits).system ℕ) cfg) {i : ℕ}
    (hi : cfg.calls i = none) (req : CutoverRequest c) (hadm : admits req) {o : CutoverOp c}
    {f : o.Result → Option CutoverReceipt} (hprog : req.program c resolver = f <$> runTx c o)
    {e : FenceEvidence} {a : o.Result} {db' : ControlDb}
    (hbody : o.body c resolver e cfg.shared = .ok (a, db')) :
    ∃ cfg', Transition.Reachable ((cutoverService c resolver admits).system ℕ) cfg' ∧
      cfg'.shared = db' ∧ (∀ j, j ≠ i → cfg'.calls j = cfg.calls j) ∧
      cfg'.log = cfg.log ++ [⟨i, ⟨o, .ok a⟩, cfg.shared⟩] := by
  have hstart := h.next (Service.Step.start (S := cutoverService c resolver admits) i req hadm hi)
  have hexec := hstart.next (Service.Step.exec (S := cutoverService c resolver admits) i req o _
    (.ok a) db' (by simp only [Function.update_self]; exact congrArg _ (congrArg _ hprog))
    ⟨e, .commit hbody⟩)
  refine ⟨_, hexec, rfl, fun j hj => ?_, rfl⟩
  simp only [Function.update_of_ne hj]

/-- A genesis record that passes its checks goes straight to its transaction. -/
theorem program_bootstrapGenesis {record : RedisFenceRecord} {digest : JsString}
    (hepoch : record.epoch = 1)
    (hverify : verify c resolver record.keyId (redisFenceMessage record.toBareRedisFenceRecord)
      record.signature = .ok ())
    (hdigest : redisFenceRecordDigest c record = .ok digest) :
    (CutoverRequest.bootstrapGenesis record : CutoverRequest c).program c resolver =
      (fun _ => none) <$> runTx c (.bootstrapGenesis record.streamId digest) := by
  simp only [CutoverRequest.program, PgRedisFenceWitness.bootstrapGenesis, hepoch, hverify,
    hdigest, ensure_of trivial, Prog.lift, Prog.ret_bind]

namespace CutoverExample

/-- The one trusted key. -/
def keys : PublicKeyResolver lengthCrypto := fun keyId =>
  if keyId = Js.lit "guard" then some (1 : ℕ) else none

def guard : BpcCutoverController lengthCrypto := ⟨Js.lit "guard", (1 : ℕ), 0⟩

/-- A controller whose guard key the resolver does not know. -/
def stranger : BpcCutoverController lengthCrypto := ⟨Js.lit "stranger", (2 : ℕ), 0⟩

def streamId : JsString := Js.lit "stream"

def bareGrant : BareSourceLeaseGrant where
  streamId := streamId
  epoch := 1
  status := .revoked
  holderNodeId := Js.lit "a"
  leaseId := Js.lit "lease"
  commandId := Js.lit "revoke"
  expiresAtMs := 0
  maxTransactionDurationMs := 1
  grantSeq := 1
  prevDigest := none

/-- The old source lease, revoked. -/
def grant : SourceLeaseGrant :=
  result (signSourceLeaseGrant lengthCrypto (Js.lit "guard") (1 : ℕ) bareGrant) (by decide +kernel)

/-- The Redis record of an epoch. -/
def record (epoch : ℤ) : RedisFenceRecord :=
  { streamId, epoch, nodeId := Js.lit "b", authoritySystemId := Js.lit "7"
    nodeCredentialKeyId := Js.lit "node", commandId := Js.lit "cutover", claimedAtMs := 0
    keyId := Js.lit "guard", signature := Js.decimal 1 }

def recordDigest (epoch : ℤ) : JsString :=
  orElse (redisFenceRecordDigest lengthCrypto (record epoch)) []

def intent : CutoverIntent where
  streamId := streamId
  commandId := Js.lit "cutover"
  previousEpoch := 1
  targetEpoch := 2
  targetNodeId := Js.lit "b"
  targetSourceEpoch := Js.lit "epoch-2"
  manifestDigest := digestOf []
  finalSourceSequence := 0
  stateDigest := digestOf []
  redisClaimDigest := recordDigest 2
  oldLeaseDigest := grant.grantDigest
  oldLeaseExpiresAtMs := 0
  sourceTransactionWindowMs := 1

/-- The control clock past the window, and the Redis quorum on the new record. -/
def evidence : FenceEvidence := ⟨1, .ok (record 2)⟩

def leases : LeaseDb :=
  result (installSourceLeaseGrant lengthCrypto keys grant .empty) (by decide +kernel)

def atGenesis : Unit × ControlDb :=
  result (bootstrapGenesisTx streamId (recordDigest 1) { ControlDb.empty with leases })
    (by decide +kernel)

def begun : CutoverReceipt × ControlDb :=
  result (guard.begin lengthCrypto keys intent atGenesis.2) (by decide +kernel)

/-- The cutover fenced by the trusted controller. -/
def fenced : CutoverReceipt × ControlDb :=
  result (guard.transition lengthCrypto keys (Js.lit "cutover") .fenced evidence begun.2)
    (by decide +kernel)

/-- The cutover fenced by the other controller. -/
def misfenced : CutoverReceipt × ControlDb :=
  result (stranger.transition lengthCrypto keys (Js.lit "cutover") .fenced evidence begun.2)
    (by decide +kernel)

theorem install_eq : installSourceLeaseGrant lengthCrypto keys grant .empty = .ok leases :=
  eq_ok_result _ _

theorem genesis_eq : bootstrapGenesisTx streamId (recordDigest 1)
    { ControlDb.empty with leases } = .ok (atGenesis.1, atGenesis.2) := by
  unfold atGenesis
  exact eq_ok_result_pair _ _

theorem begin_eq : guard.begin lengthCrypto keys intent atGenesis.2 = .ok (begun.1, begun.2) := by
  unfold begun
  exact eq_ok_result_pair _ _

theorem fenced_eq : guard.transition lengthCrypto keys (Js.lit "cutover") .fenced evidence begun.2 =
    .ok (fenced.1, fenced.2) := by
  unfold fenced
  exact eq_ok_result_pair _ _

theorem misfenced_eq : stranger.transition lengthCrypto keys (Js.lit "cutover") .fenced evidence
    begun.2 = .ok (misfenced.1, misfenced.2) := by
  unfold misfenced
  exact eq_ok_result_pair _ _

/-- Both runs share their first three steps: the lease, the genesis and the intent. -/
theorem reachable_begun (admits : CutoverRequest lengthCrypto → Prop)
    (hgenesis : admits (.bootstrapGenesis (record 1))) (hbegin : admits (.begin guard intent)) :
    ∃ cfg, Transition.Reachable ((cutoverService lengthCrypto keys admits).system ℕ) cfg ∧
      cfg.shared = begun.2 ∧ cfg.calls 2 = none := by
  have h0 : Transition.Reachable ((cutoverService lengthCrypto keys admits).system ℕ)
      ⟨.empty, fun _ => none, []⟩ := .init ⟨rfl, fun _ => rfl, rfl⟩
  have h1 := h0.next (Service.Step.env { ControlDb.empty with leases } ⟨grant, leases, install_eq, rfl⟩)
  obtain ⟨cfg₂, h2, hs2, hc2, -⟩ := reachable_of_commit lengthCrypto keys h1 (i := 0) rfl _ hgenesis
    (o := .bootstrapGenesis streamId (recordDigest 1)) (f := fun _ => none) (e := evidence)
    (program_bootstrapGenesis lengthCrypto keys rfl (by decide +kernel) (by decide +kernel))
    genesis_eq
  obtain ⟨cfg₃, h3, hs3, hc3, -⟩ := reachable_of_commit lengthCrypto keys h2 (i := 1)
    (by rw [hc2 1 (by decide)]) _ hbegin (o := .begin guard intent) (f := some)
    (e := evidence) rfl (by rw [hs2]; exact begin_eq)
  exact ⟨cfg₃, h3, hs3, by rw [hc3 2 (by decide), hc2 2 (by decide)]⟩

/-- The run in which `markFenced` is called on a controller. -/
theorem reachable_markFenced (admits : CutoverRequest lengthCrypto → Prop)
    (hgenesis : admits (.bootstrapGenesis (record 1))) (hbegin : admits (.begin guard intent))
    {ctl : BpcCutoverController lengthCrypto} (hctl : admits (.markFenced ctl (Js.lit "cutover")))
    {r : CutoverReceipt} {db' : ControlDb}
    (hbody : ctl.transition lengthCrypto keys (Js.lit "cutover") .fenced evidence begun.2 =
      .ok (r, db')) :
    ∃ cfg, Transition.Reachable ((cutoverService lengthCrypto keys admits).system ℕ) cfg ∧
      cfg.shared = db' := by
  obtain ⟨cfg, h, hs, hc⟩ := reachable_begun admits hgenesis hbegin
  obtain ⟨cfg', h', hs', -, -⟩ := reachable_of_commit lengthCrypto keys h hc _ hctl
    (o := .transition ctl (Js.lit "cutover") .fenced) (f := some) (e := evidence) rfl
    (by rw [hs]; exact hbody)
  exact ⟨cfg', h', hs'⟩

end CutoverExample

/-- The chain invariant at the state in which the trusted controller has fenced the cutover: its
    last receipt is FENCED. -/
theorem cutoverChain_of_accepted_fenced :
    ∃ cfg, CutoverChainHolds lengthCrypto CutoverExample.keys cfg CutoverExample.streamId ∧
      (cfg.history CutoverExample.streamId).map (·.phase) = [.preparing, .fenced] := by
  have hguard : GuardAccepted lengthCrypto CutoverExample.keys CutoverExample.guard := by
    intro message signature hsign
    simp only [sign, bind_eq_ok, id_eq_ok, exists_unit, pure_eq_ok] at hsign
    obtain ⟨hkey, rfl⟩ := hsign
    have hresolve : publicKey lengthCrypto CutoverExample.keys (Js.lit "guard") = .ok (1 : ℕ) :=
      (publicKey_eq_ok _ _ _ _).mpr ⟨by decide, if_pos rfl⟩
    have hb64 : b64u (Js.decimal 1) = true := by decide
    simp only [verify, bind_eq_ok, ensure_eq_ok, exists_unit]
    exact ⟨hb64, (1 : ℕ), hresolve, beq_self_eq_true (Js.decimal 1)⟩
  obtain ⟨cfg, h, hs⟩ := CutoverExample.reachable_markFenced
    (RequestsAccepted lengthCrypto CutoverExample.keys) trivial trivial hguard
    CutoverExample.fenced_eq
  refine ⟨cfg.shared, cutoverChain_of_accepted lengthCrypto CutoverExample.keys h _, ?_⟩
  rw [hs]
  decide +kernel

/-- With a controller whose guard key is not accepted the invariant fails: its FENCED receipt is
    retained, and the code's own verification of the chain then throws. -/
theorem cutoverChain_unaccepted :
    ∃ cfg, Transition.Reachable ((cutoverService lengthCrypto CutoverExample.keys
        fun _ => True).system ℕ) cfg ∧
      verifyCutoverChain lengthCrypto CutoverExample.keys cfg.shared CutoverExample.streamId =
        .error (.contractValidation
          "unknown/revoked keyId or non-public ed25519 verify key") ∧
      ¬ CutoverChainHolds lengthCrypto CutoverExample.keys cfg.shared CutoverExample.streamId := by
  obtain ⟨cfg, h, hs⟩ := CutoverExample.reachable_markFenced (fun _ => True) trivial trivial
    trivial CutoverExample.misfenced_eq
  have hverify : verifyCutoverChain lengthCrypto CutoverExample.keys cfg.shared
      CutoverExample.streamId = .error (.contractValidation
        "unknown/revoked keyId or non-public ed25519 verify key") := by
    rw [hs]
    decide +kernel
  refine ⟨cfg, h, hverify, fun hholds => ?_⟩
  have := hholds.verifies
  rw [hverify] at this
  cases this

end Ha
