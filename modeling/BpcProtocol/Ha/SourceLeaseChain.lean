import BpcProtocol.Ha.SourceLease
import BpcProtocol.Lib.Chain
import Mathlib.Data.List.Induction

set_option autoImplicit false

/-! # The source-lease chain

Whatever grants are delivered to a database, in whatever order and however often, each stream's
history stays one numbered, digest-linked chain whose epochs obey the lease rules, and the head row
is its last grant. `installSourceLeaseGrant` enforces the epoch rules by three partial queries; the
step lemma (`LeaseChain.append`) shows that on a history that is already a chain they decide the
rules for the whole of it. -/

namespace Ha

open Fallible Relational Chain

/-! ## What a chain is -/

/-- The rules a stream's lease history obeys, over its grants in sequence order. -/
structure LeaseChain (history : List SourceLeaseGrant) : Prop where
  /-- The grants are numbered from one. -/
  numbered : Numbered (·.grantSeq) history
  /-- Each grant names the digest of the one before it. -/
  linked : Linked (·.prevDigest) (·.grantDigest) none history
  /-- Epochs never decrease. -/
  epochs : history.Pairwise fun a b => a.epoch ≤ b.epoch
  /-- Within an epoch the holder, the lease id and the transaction window are constant. -/
  identity : ∀ a ∈ history, ∀ b ∈ history, a.epoch = b.epoch →
    a.holderNodeId = b.holderNodeId ∧ a.leaseId = b.leaseId ∧
      a.maxTransactionDurationMs = b.maxTransactionDurationMs
  /-- Within an epoch the expiry never decreases. -/
  expiry : history.Pairwise fun a b => a.epoch = b.epoch → a.expiresAtMs ≤ b.expiresAtMs
  /-- No active grant follows a revoked one of its epoch. -/
  revocation : history.Pairwise fun a b =>
    a.epoch = b.epoch → a.status = .revoked → b.status ≠ .active

theorem LeaseChain.nil : LeaseChain [] where
  numbered := numbered_nil _
  linked := linked_nil _ _ _
  epochs := List.Pairwise.nil
  identity := by simp
  expiry := List.Pairwise.nil
  revocation := List.Pairwise.nil

/-- What a further grant must satisfy against the chain it extends. -/
structure LeaseExtends (history : List SourceLeaseGrant) (grant : SourceLeaseGrant) : Prop where
  numbered : grant.grantSeq = history.length + 1
  linked : grant.prevDigest = tip (·.grantDigest) none history
  epochs : ∀ a ∈ history, a.epoch ≤ grant.epoch
  identity : ∀ a ∈ history, a.epoch = grant.epoch →
    a.holderNodeId = grant.holderNodeId ∧ a.leaseId = grant.leaseId ∧
      a.maxTransactionDurationMs = grant.maxTransactionDurationMs
  expiry : ∀ a ∈ history, a.epoch = grant.epoch → a.expiresAtMs ≤ grant.expiresAtMs
  revocation : ∀ a ∈ history, a.epoch = grant.epoch → a.status = .revoked →
    grant.status ≠ .active

/-- A pairwise rule grows by what it says between every earlier entry and the new one. -/
private theorem pairwise_concat {α : Type} {R : α → α → Prop} {l : List α} {a : α}
    (hl : l.Pairwise R) (ha : ∀ x ∈ l, R x a) : (l ++ [a]).Pairwise R := by
  rw [List.pairwise_append]
  exact ⟨hl, List.pairwise_singleton R a, by simpa using ha⟩

theorem LeaseChain.append {history : List SourceLeaseGrant} {grant : SourceLeaseGrant}
    (h : LeaseChain history) (hg : LeaseExtends history grant) :
    LeaseChain (history ++ [grant]) where
  numbered := numbered_append_singleton.mpr ⟨h.numbered, hg.numbered⟩
  linked := linked_append_singleton.mpr ⟨h.linked, hg.linked⟩
  epochs := pairwise_concat h.epochs hg.epochs
  expiry := pairwise_concat h.expiry hg.expiry
  revocation := pairwise_concat h.revocation hg.revocation
  identity := by
    intro a ha b hb hab
    rw [List.mem_append, List.mem_singleton] at ha hb
    rcases ha with ha | rfl <;> rcases hb with hb | rfl
    · exact h.identity a ha b hb hab
    · exact hg.identity a ha hab
    · obtain ⟨h1, h2, h3⟩ := hg.identity b hb hab.symm
      exact ⟨h1.symm, h2.symm, h3.symm⟩
    · exact ⟨rfl, rfl, rfl⟩

/-! ## The chain of a stream in a database -/

/-- The history rows of one stream, as stored. -/
def LeaseDb.streamRows (db : LeaseDb) (streamId : JsString) : List SourceLeaseGrant :=
  db.sourceLeaseHistory.rows.filter fun r => r.streamId == streamId

/-- The history of one stream in sequence order. -/
def LeaseDb.history (db : LeaseDb) (streamId : JsString) : List SourceLeaseGrant :=
  orderBy (·.grantSeq) (db.streamRows streamId)

/-- The head row of one stream. -/
def LeaseDb.head (db : LeaseDb) (streamId : JsString) : Option SourceLeaseGrant :=
  db.sourceLease.select fun r => r.streamId == streamId

variable (c : Crypto) (resolver : PublicKeyResolver c)

/-- The invariant of one stream: its stored rows are a chain of verified grants and the head row is
    the last of them. -/
structure LeaseInv (db : LeaseDb) (streamId : JsString) : Prop where
  chain : LeaseChain (db.streamRows streamId)
  head : db.head streamId = (db.streamRows streamId).getLast?
  verified : ∀ g ∈ db.streamRows streamId, verifySourceLeaseGrant c resolver g = .ok ()

theorem LeaseInv.empty (streamId : JsString) : LeaseInv c resolver .empty streamId where
  chain := LeaseChain.nil
  head := rfl
  verified := by simp [LeaseDb.streamRows, LeaseDb.empty]

theorem LeaseDb.mem_streamRows {db : LeaseDb} {streamId : JsString} {g : SourceLeaseGrant} :
    g ∈ db.streamRows streamId ↔ g ∈ db.sourceLeaseHistory.rows ∧ g.streamId = streamId := by
  simp [LeaseDb.streamRows]

theorem mem_epochRows {db : LeaseDb} {streamId : JsString} {epoch : ℤ} {g : SourceLeaseGrant} :
    g ∈ epochRows db streamId epoch ↔ g ∈ db.streamRows streamId ∧ g.epoch = epoch := by
  simp [epochRows, LeaseDb.streamRows, and_assoc]

/-- On a chain the rows are stored in sequence order. -/
theorem LeaseChain.history_eq {db : LeaseDb} {streamId : JsString}
    (h : LeaseChain (db.streamRows streamId)) : db.history streamId = db.streamRows streamId :=
  orderBy_of_pairwise h.numbered.pairwise_le

/-! ## One installation -/

theorem currentLease_eq_ok {db : LeaseDb} {streamId : JsString} {cur : Option SourceLeaseGrant}
    (h : currentLease c resolver db streamId = .ok cur) : cur = db.head streamId := by
  unfold currentLease at h
  unfold LeaseDb.head
  split at h
  · next hnone => rw [hnone, ← (pure_eq_ok _ _).mp h]
  · next row hrow =>
      simp only [bind_eq_ok, pure_eq_ok] at h
      obtain ⟨lease, hlease, _, -, rfl⟩ := h
      rw [hrow, eq_of_leaseFromRow hlease]

/-- What a successful installation did: nothing, for a command the history already holds, or it
    admitted the grant against the head row and wrote it. -/
theorem installSourceLeaseGrant_cases {grant : SourceLeaseGrant} {db db' : LeaseDb}
    (h : installSourceLeaseGrant c resolver grant db = .ok db') :
    verifySourceLeaseGrant c resolver grant = .ok () ∧
      (db' = db ∨
        (admitGrant db (db.head grant.streamId) grant = .ok () ∧
          writeGrant db (db.head grant.streamId) grant = .ok db')) := by
  simp only [installSourceLeaseGrant, bind_eq_ok] at h
  obtain ⟨_, hverify, current, hcurrent, h⟩ := h
  rw [← currentLease_eq_ok c resolver hcurrent]
  refine ⟨hverify, ?_⟩
  split at h
  · simp only [bind_eq_ok, pure_eq_ok] at h
    obtain ⟨_, -, rfl⟩ := h
    exact Or.inl rfl
  · simp only [bind_eq_ok] at h
    obtain ⟨_, hadmission, hwrite⟩ := h
    exact Or.inr ⟨hadmission, hwrite⟩

theorem checkFirst_eq_ok {grant first : SourceLeaseGrant}
    (h : checkFirst grant (some first) = .ok ()) :
    first.holderNodeId = grant.holderNodeId ∧ first.leaseId = grant.leaseId ∧
      first.maxTransactionDurationMs = grant.maxTransactionDurationMs := by
  simp only [checkFirst, bind_eq_ok, ensure_eq_ok, safeInt_eq_ok, exists_unit] at h
  obtain ⟨⟨hholder, hlease⟩, _, ⟨-, rfl⟩, hwindow⟩ := h
  exact ⟨hholder, hlease, hwindow⟩

theorem checkPriorMax_eq_ok {grant : SourceLeaseGrant} {m : ℤ}
    (h : checkPriorMax grant (some m) = .ok ()) : m ≤ grant.expiresAtMs := by
  simp only [checkPriorMax, bind_eq_ok, ensure_eq_ok, safeInt_eq_ok] at h
  obtain ⟨_, ⟨-, rfl⟩, hle⟩ := h
  exact Int.not_lt.mp hle

/-- The partial queries of `admitGrant`, made on a chain, decide the rules for the whole of it. -/
theorem admitGrant_extends {db : LeaseDb} {grant : SourceLeaseGrant}
    (hinv : LeaseInv c resolver db grant.streamId)
    (h : admitGrant db (db.head grant.streamId) grant = .ok ()) :
    LeaseExtends (db.streamRows grant.streamId) grant := by
  simp only [admitGrant, bind_eq_ok, ensure_eq_ok, exists_unit] at h
  obtain ⟨⟨hseq, hprev⟩, hepoch, hfirst, hrevoked, hmax⟩ := h
  have hchain := hinv.chain
  rw [hinv.head] at hseq hprev hepoch
  have hin : ∀ a ∈ db.streamRows grant.streamId, a.epoch = grant.epoch →
      a ∈ epochRows db grant.streamId grant.epoch :=
    fun a ha he => mem_epochRows.mpr ⟨ha, he⟩
  refine ⟨?_, ?_, ?_, ?_, ?_, ?_⟩
  · rw [hseq]
    rcases hlast : (db.streamRows grant.streamId).getLast? with _ | last
    · simp [List.getLast?_eq_none_iff.mp hlast]
    · simp [hchain.numbered.getLast hlast]
  · rw [hprev]
    simp [tip]
  · -- the head row is the last grant, so its epoch bounds every epoch of the chain
    intro a ha
    have hne := List.ne_nil_of_mem ha
    have hlast := hepoch _ (List.getLast?_eq_some_getLast hne)
    have : Std.Refl fun a b : SourceLeaseGrant => a.epoch ≤ b.epoch := ⟨fun a => Int.le_refl _⟩
    exact Int.le_trans (hchain.epochs.rel_getLast ha) (Int.not_lt.mp hlast)
  · -- the first row of the epoch speaks for all of them
    intro a ha he
    rcases hhead : (orderBy (·.grantSeq) (epochRows db grant.streamId grant.epoch)).head?
      with _ | first
    · have hmem : a ∈ orderBy (·.grantSeq) _ := mem_orderBy.mpr (hin a ha he)
      rw [List.head?_eq_none_iff.mp hhead] at hmem
      simp at hmem
    · rw [hhead] at hfirst
      obtain ⟨hholder, hlease, hwindow⟩ := checkFirst_eq_ok hfirst
      obtain ⟨hmem, hfe⟩ := mem_epochRows.mp (mem_orderBy.mp (List.mem_of_head? hhead))
      obtain ⟨h1, h2, h3⟩ := hchain.identity a ha first hmem (he.trans hfe.symm)
      exact ⟨h1.trans hholder, h2.trans hlease, h3.trans hwindow⟩
  · intro a ha he
    rcases hm : maxOf (·.expiresAtMs) (epochRows db grant.streamId grant.epoch) with _ | m
    · have hmem := hin a ha he
      rw [maxOf_eq_none.mp hm] at hmem
      simp at hmem
    · rw [hm] at hmax
      exact Int.le_trans (le_of_maxOf hm (hin a ha he)) (checkPriorMax_eq_ok hmax)
  · intro a ha he hrev hactive
    refine hrevoked ⟨?_, hactive⟩
    exact List.any_eq_true.mpr ⟨a, hin a ha he, by simp [hrev]⟩

/-- What the writes leave: the grant appended to the history, and as the stream's head. -/
theorem writeGrant_spec {db db' : LeaseDb} {grant : SourceLeaseGrant}
    (h : writeGrant db (db.head grant.streamId) grant = .ok db') (streamId : JsString) :
    db'.streamRows streamId =
        db.streamRows streamId ++ (if grant.streamId = streamId then [grant] else []) ∧
      db'.head streamId = if grant.streamId = streamId then some grant else db.head streamId := by
  simp only [writeGrant, bind_eq_ok, query_eq_ok] at h
  obtain ⟨history, hhistory, h⟩ := h
  have hrows := Table.insert_eq_ok.mp hhistory
  have hstream : ∀ db'' : LeaseDb, db''.sourceLeaseHistory = history →
      db''.streamRows streamId =
        db.streamRows streamId ++ (if grant.streamId = streamId then [grant] else []) := by
    rintro db'' rfl
    simp [LeaseDb.streamRows, hrows, List.filter_append, List.filter_singleton, Bool.cond_eq_ite]
  split at h
  · next hnone =>
      simp only [bind_eq_ok, query_eq_ok, pure_eq_ok] at h
      obtain ⟨head, hins, rfl⟩ := h
      refine ⟨hstream _ rfl, ?_⟩
      simpa [LeaseDb.head] using
        Table.select_key_insert (fun g : SourceLeaseGrant => g.streamId) hins hnone streamId
  · next cur hcur =>
      simp only [bind_eq_ok, query_eq_ok, ensure_eq_ok, exists_unit, pure_eq_ok, Prod.exists] at h
      obtain ⟨head, n, hupd, -, rfl⟩ := h
      refine ⟨hstream _ rfl, ?_⟩
      have hset : ∀ x : SourceLeaseGrant, x.streamId = grant.streamId →
          headColumns grant x = grant := by
        intro x hx
        simp only [headColumns, hx]
      simpa [LeaseDb.head] using
        Table.select_key_update (fun g : SourceLeaseGrant => g.streamId)
          (p := fun r => r.grantDigest == cur.grantDigest) hupd hset (fun x => rfl) hcur
          (by simp) streamId

/-- One installation keeps the invariant of every stream. -/
theorem LeaseInv.install {grant : SourceLeaseGrant} {db db' : LeaseDb} {streamId : JsString}
    (hinv : LeaseInv c resolver db streamId)
    (h : installSourceLeaseGrant c resolver grant db = .ok db') :
    LeaseInv c resolver db' streamId := by
  obtain ⟨hverify, rfl | ⟨hadmission, hwrite⟩⟩ := installSourceLeaseGrant_cases c resolver h
  · exact hinv
  · obtain ⟨hrows, hhead⟩ := writeGrant_spec hwrite streamId
    by_cases hs : grant.streamId = streamId
    · subst hs
      rw [if_pos rfl] at hrows hhead
      refine ⟨?_, ?_, ?_⟩
      · rw [hrows]
        exact hinv.chain.append (admitGrant_extends c resolver hinv hadmission)
      · rw [hrows, hhead, List.getLast?_concat]
      · rw [hrows]
        intro g hg
        rcases List.mem_append.mp hg with hg | hg
        · exact hinv.verified g hg
        · rwa [List.mem_singleton.mp hg]
    · rw [if_neg hs, List.append_nil] at hrows
      rw [if_neg hs] at hhead
      exact ⟨by rw [hrows]; exact hinv.chain, by rw [hrows, hhead]; exact hinv.head,
        by rw [hrows]; exact hinv.verified⟩

/-! ## Runs -/

/-- One delivery of a grant: its transaction commits, or fails and is rolled back. -/
def deliverGrant (db : LeaseDb) (grant : SourceLeaseGrant) : LeaseDb :=
  orElse (installSourceLeaseGrant c resolver grant db) db

/-- The deliveries of a list of grants, in its order, to a freshly provisioned database. -/
def deliverGrants (grants : List SourceLeaseGrant) : LeaseDb :=
  grants.foldl (deliverGrant c resolver) .empty

theorem LeaseInv.deliver {db : LeaseDb} {streamId : JsString}
    (hinv : LeaseInv c resolver db streamId) (grant : SourceLeaseGrant) :
    LeaseInv c resolver (deliverGrant c resolver db grant) streamId :=
  orElse_induction (P := fun db => LeaseInv c resolver db streamId) hinv
    fun _ h => hinv.install c resolver h

theorem leaseInv_deliverGrants (grants : List SourceLeaseGrant) (streamId : JsString) :
    LeaseInv c resolver (deliverGrants c resolver grants) streamId := by
  induction grants using List.reverseRecOn with
  | nil => exact LeaseInv.empty c resolver streamId
  | append_singleton grants grant ih =>
      simp only [deliverGrants, List.foldl_append, List.foldl_cons, List.foldl_nil]
      exact ih.deliver c resolver grant

theorem leaseFromRow_of_verified {grant : SourceLeaseGrant}
    (h : verifySourceLeaseGrant c resolver grant = .ok ()) : leaseFromRow grant = .ok grant := by
  simp only [verifySourceLeaseGrant, validateBareLease, bind_eq_ok, id_eq_ok, ensure_eq_ok,
    safeInt_eq_ok, exists_unit] at h
  obtain ⟨⟨-, -, -, -, _, ⟨hepoch, -⟩, _, ⟨hexpiry, -⟩, _, ⟨hwindow, -⟩, _, ⟨hseq, -⟩, -⟩, -⟩ := h
  simp only [leaseFromRow, safeInt_of hepoch, safeInt_of hexpiry, safeInt_of hwindow,
    safeInt_of hseq, ok_bind]
  rfl

/-- The head row of a chain passes its checks when it is read again. -/
theorem LeaseInv.currentLease {db : LeaseDb} {streamId : JsString}
    (hinv : LeaseInv c resolver db streamId) :
    currentLease c resolver db streamId = .ok (db.head streamId) := by
  have hhead := hinv.head
  unfold Ha.currentLease
  unfold LeaseDb.head at hhead ⊢
  split
  · next hnone => rw [hnone]; rfl
  · next row hrow =>
      have hrow' := hinv.verified row (List.mem_of_getLast? (by rw [← hhead, hrow]))
      rw [hrow]
      simp only [leaseFromRow_of_verified c resolver hrow', hrow', ok_bind]
      rfl

/-- Installing a grant of the history again succeeds and changes nothing. -/
theorem LeaseInv.reinstall {db : LeaseDb} {grant : SourceLeaseGrant}
    (hinv : LeaseInv c resolver db grant.streamId) (hg : grant ∈ db.history grant.streamId) :
    installSourceLeaseGrant c resolver grant db = .ok db := by
  rw [hinv.chain.history_eq] at hg
  simp only [installSourceLeaseGrant, hinv.verified grant hg, hinv.currentLease, ok_bind]
  have hrow := (LeaseDb.mem_streamRows.mp hg).1
  -- the history keeps commands apart, so the row found for the command is the grant itself
  rcases hsel : db.sourceLeaseHistory.select
      (fun r => r.streamId == grant.streamId && r.commandId == grant.commandId) with _ | row
  · have := Table.select_eq_none.mp hsel grant hrow
    simp at this
  · obtain ⟨hmem, hkey⟩ := Table.mem_of_select hsel
    have hrg : row = grant := by
      refine Table.eq_of_clash _ (fun a b => ?_) hmem hrow ?_
      · simp [sourceLeaseHistorySchema, Bool.beq_comm]
      · simp only [Bool.and_eq_true, beq_iff_eq] at hkey
        simp [sourceLeaseHistorySchema, hkey]
    subst hrg
    simp [ensure, require]

/-- **The source-lease chain invariant.** Whatever grants are delivered, in whatever order, the
    history of every stream is a chain, the head row is its last grant, and installing a grant that
    the history holds changes nothing. -/
theorem sourceLeaseChain (grants : List SourceLeaseGrant) (streamId : JsString) :
    let db := deliverGrants c resolver grants
    LeaseChain (db.history streamId) ∧
      db.head streamId = (db.history streamId).getLast? ∧
      ∀ g ∈ db.history streamId, installSourceLeaseGrant c resolver g db = .ok db := by
  have hinv := leaseInv_deliverGrants c resolver grants streamId
  refine ⟨?_, ?_, ?_⟩
  · rw [hinv.chain.history_eq]
    exact hinv.chain
  · rw [hinv.chain.history_eq]
    exact hinv.head
  · intro g hg
    have hs : g.streamId = streamId :=
      (LeaseDb.mem_streamRows.mp (mem_orderBy.mp hg)).2
    subst hs
    exact hinv.reinstall c resolver hg

end Ha
