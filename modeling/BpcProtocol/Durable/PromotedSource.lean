import BpcProtocol.Durable.SnapshotRoundTrip

set_option autoImplicit false

/-! # Snapshots of a promoted source

A promotion starts a new epoch at zero and keeps the tables that the receiver holds. A snapshot
carries the records of the epoch alone, so that the pairs that were inherited are not in it. -/

namespace Durable

open Ha Fallible Relational

/-! ## The pairs that a record touches -/

/-- The pairs that a mutation names. -/
def BpcPairMutation.pairIds : BpcPairMutation → List JsString
  | .pairSet pairId _ => [pairId.1]
  | .pairDelete pairId => [pairId.1]
  | .pendingSet _ _ _ => []
  | .pendingDelete _ => []
  | .pairApprove _ _ _ pairId _ => [pairId.1]
  | .pairRotate oldPairId _ newPairId _ => [oldPairId.1, newPairId.1]

/-- The pairs that the mutation of a record names. -/
def recordPairIds (record : OutboxRecord) : List JsString :=
  (normalizeMutation record.mutation).toOption.elim [] BpcPairMutation.pairIds

namespace PairTables

variable {a a' : PairTables} {p : CanonicalStoredPair} {id : JsString}

theorem pairOf_upsertPair (h : a.upsertPair p = .ok a') (hid : p.id.1 ≠ id) :
    a'.pairOf id = a.pairOf id := by
  obtain ⟨row, hrow, -, hpairs, -⟩ := upsertPair_eq_ok h
  rw [hpairs, if_neg (by simpa [id_pairParams hrow] using hid)]

theorem pairOf_insertPair (h : a.insertPair p = .ok a') (hid : p.id.1 ≠ id) :
    a'.pairOf id = a.pairOf id := by
  simp only [insertPair, bind_eq_ok, query_eq_ok, pure_eq_ok] at h
  obtain ⟨row, hrow, pairs, hpairs, rfl⟩ := h
  show pairs.select _ = a.pairs.select _
  rw [Table.select_insert hpairs, if_neg (by simpa [id_pairParams hrow] using hid), Option.or_none]

end PairTables

namespace PgPairMutationApplier

variable {applier : PgPairMutationApplier} {db db' : PairTables} {id : JsString}

theorem id_of_openPair {codec : PairPayloadCodec} {s : SealedPairPayload} {aad : PairSetAad}
    {pair : CanonicalStoredPair} (h : codec.openPair s aad = .ok pair) :
    pair.id.1 = aad.pairId := by
  simp only [PairPayloadCodec.openPair, bind_eq_ok, ensure_eq_ok, exists_unit, pure_eq_ok] at h
  obtain ⟨-, -, _, -, _, -, hid, rfl⟩ := h
  exact hid

/-- **A mutation leaves the pairs that it does not name.** -/
theorem applyMutation_frame {m : BpcPairMutation} (h : applier.applyMutation db m = .ok db')
    (hid : id ∉ m.pairIds) : db'.pairOf id = db.pairOf id := by
  cases m with
  | pairSet pairId payload =>
      simp only [applyMutation, bind_eq_ok] at h
      obtain ⟨pair, hopen, hupsert⟩ := h
      refine PairTables.pairOf_upsertPair hupsert fun heq => hid ?_
      exact List.mem_singleton.mpr (heq.symm.trans (id_of_openPair hopen))
  | pairDelete pairId =>
      obtain ⟨_, hdelete, hpairs, -⟩ := PairTables.deletePair_ok db pairId.1
      have hdeleted : db.deletePair pairId.1 = .ok db' := h
      rw [hdelete] at hdeleted
      cases hdeleted
      have hne : ¬pairId.1 = id := fun heq => hid (List.mem_singleton.mpr heq.symm)
      rw [hpairs, if_neg (by simpa using hne)]
  | pendingSet token requestedAt payload =>
      simp only [applyMutation, PairTables.upsertPending, bind_eq_ok, exists_unit, pure_eq_ok] at h
      obtain ⟨_, -, _, -, -, rfl⟩ := h
      rfl
  | pendingDelete token =>
      obtain ⟨_, hdelete, -, hpairs⟩ := PairTables.deletePending_ok db token.1
      have hdeleted : db.deletePending token.1 = .ok db' := h
      rw [hdelete] at hdeleted
      cases hdeleted
      rw [PairTables.pairOf, hpairs]
      rfl
  | pairApprove token requestedAt expectedPending pairId payload =>
      simp only [applyMutation, applyApprove, PairTables.deleteApproved, bind_eq_ok, ensure_eq_ok,
        exists_unit, pure_eq_ok] at h
      obtain ⟨_, -, approved, -, happroved, -, -, -, _, ⟨-, rfl⟩, hinsert⟩ := h
      have hkept := PairTables.pairOf_insertPair hinsert fun heq =>
        hid (List.mem_singleton.mpr (heq.symm.trans happroved))
      exact hkept
  | pairRotate oldPairId expectedOld newPairId payload =>
      simp only [applyMutation, applyRotate, bind_eq_ok, ensure_eq_ok, exists_unit] at h
      obtain ⟨expected, -, replacement, -, ⟨hold, hnew, -⟩, -, -, rotated, hupsert, hinsert⟩ := h
      have hnames : ∀ name ∈ [oldPairId.1, newPairId.1], ¬name = id := fun name hname heq =>
        hid (heq ▸ hname)
      rw [PairTables.pairOf_insertPair hinsert (hnew ▸ hnames _ (by simp))]
      exact PairTables.pairOf_upsertPair hupsert (hold ▸ hnames _ (by simp))

/-- So do the records of a list. -/
theorem foldlM_frame {records : List OutboxRecord}
    (h : records.foldlM applier.applyInTx db = .ok db')
    (hid : ∀ record ∈ records, id ∉ recordPairIds record) : db'.pairOf id = db.pairOf id := by
  induction records generalizing db with
  | nil =>
      cases h
      rfl
  | cons record rest ih =>
      rw [List.foldlM_cons, bind_eq_ok] at h
      obtain ⟨next, hnext, hrest⟩ := h
      rw [ih hrest fun r hr => hid r (List.mem_cons_of_mem _ hr)]
      simp only [applyInTx, bind_eq_ok, ensure_eq_ok, exists_unit] at hnext
      obtain ⟨-, m, hm, happly⟩ := hnext
      have hrecord := hid record List.mem_cons_self
      rw [recordPairIds, hm] at hrecord
      exact applyMutation_frame happly hrecord

end PgPairMutationApplier

/-! ## The promoted source -/

variable {c : Crypto} {text : TableText} {store : PgTransactionalPairStore}

/-- A promotion leaves a source at the genesis of the target epoch, if no row of the epoch was
    there. -/
theorem Promotion.Promoted.genesis {p : Promotion c} {manifestDigest : JsString}
    {before promoted : ReceiverDb} (h : p.Promoted text manifestDigest before promoted)
    (hstream : p.manifest.streamId = store.streamId)
    (hunused : before.source.outbox.recordsOf store.streamId p.targetSourceEpoch = []) :
    Genesis store.streamId p.targetSourceEpoch promoted.source := by
  obtain ⟨-, -, hrows, -⟩ := h.rest
  constructor
  · rw [← hstream]
    have hcheckpoint := h.checkpoint p.manifest.streamId
    rwa [beq_self_eq_true, if_pos rfl] at hcheckpoint
  · rwa [OutboxDb.recordsOf, OutboxDb.history, hrows]

namespace SeedExample

open PromotionExample

/-- Members of an object, as `jsonb` writes them. -/
def written (members : List JsString) : JsString :=
  Js.lit "\x7b" ++ (members.intersperse (Js.lit ", ")).flatten ++ Js.lit "\x7d"

/-- The row of the sample pair, as PostgreSQL writes it. -/
def pairText : JsString :=
  written [Js.lit "\"id\": \"bpc_ci\"", Js.lit "\"kind\": \"legitimate\"",
    Js.lit "\"mode\": \"production\"", Js.lit "\"name\": \"ci\"", Js.lit "\"scope\": \"read\"",
    Js.lit "\"status\": \"active\"", Js.lit "\"created\": 1",
    Js.lit "\"pub_jwk\": " ++ written
      [Js.lit "\"x\": \"" ++ samplePair.pubJwk.1.1 ++ Js.lit "\"",
        Js.lit "\"y\": \"" ++ samplePair.pubJwk.1.2 ++ Js.lit "\"", Js.lit "\"crv\": \"P-256\"",
        Js.lit "\"kty\": \"EC\""],
    Js.lit "\"requests\": 0", Js.lit "\"expires_at\": null", Js.lit "\"failed_sigs\": 0",
    Js.lit "\"last_active\": null",
    Js.lit "\"secret_hash\": \"" ++ samplePair.secretHash.1 ++ Js.lit "\"",
    Js.lit "\"canary_class\": null", Js.lit "\"max_requests\": null",
    Js.lit "\"first_failure_at\": null", Js.lit "\"cumulative_failures\": null"]

/-- The texts of the tables that this succession has. -/
def texts : TableText where
  pairs tables :=
    if tables.pairs.rows.isEmpty then Js.lit "[]" else Js.lit "[" ++ pairText ++ Js.lit "]"
  pending _ := Js.lit "[]"

/-- The receiver, at the genesis of its source's epoch. -/
def held : ReceiverDb :=
  { SnapshotExample.fresh with
    source :=
      { SnapshotExample.fresh.source with
        tables := orElse (PairTables.empty.insertPair samplePair) PairTables.empty } }

def manifest : PairSnapshotManifest :=
  { PromotionExample.manifest with
    streamId := Js.lit "pairs", sourceEpoch := Js.lit "e1"
    stateDigest := stateDigest lengthCrypto texts held.source.tables }

def fencedReceipt : CutoverReceipt :=
  let bare : BareCutover :=
    { PromotionExample.fencedReceipt.toBareCutover with
      streamId := Js.lit "pairs", targetSourceEpoch := Js.lit "e2"
      manifestDigest := orElse (pairSnapshotManifestDigest lengthCrypto manifest) []
      stateDigest := manifest.stateDigest }
  { bare with
    stateDigestSigned := lengthCrypto.sha256 (cutoverMessage bare [])
    keyId := Js.lit "guard", signature := Js.decimal 1 }

def promotion : Promotion lengthCrypto :=
  { PromotionExample.promotion with
    bundle := ⟨manifest, []⟩, targetSourceEpoch := Js.lit "e2", fencedReceipt := fencedReceipt }

def manifestDigest : JsString := orElse promotion.verifyPromotion []

def promoted : ReceiverDb :=
  (orElse (promotion.promoteInTx texts manifestDigest held) ((), held)).2

def succession : Except HaError PairSnapshotBundle :=
  buildPairSnapshotBundle lengthCrypto
    (promoted.source.snapshotSource lengthCrypto texts sampleStore.streamId (Js.lit "8"))
    sampleStore.streamId 0 (Js.lit "snapshot") (2 : ℕ) 0

def successionBundle : PairSnapshotBundle := orElse succession ⟨manifest, []⟩

theorem promotion_computes :
    promotion.verifyPromotion.isOk = true ∧
      (promotion.promoteInTx texts manifestDigest held).isOk = true ∧
      (promoted.promotionReceipt.rows.length = 1 ∧ promoted.source.outbox.rows.rows.length = 0) ∧
      succession.isOk = true := by
  decide +kernel

theorem held_computes :
    held.promotionReceipt.rows.length = 0 ∧ held.source.outbox.rows.rows.length = 0 ∧
      (held.source.tables.pairOf samplePair.id.1).isSome = true := by
  decide +kernel

theorem verified : promotion.verifyPromotion = .ok manifestDigest := by
  obtain ⟨hok, -⟩ := promotion_computes
  rw [manifestDigest]
  cases hverified : promotion.verifyPromotion with
  | error e =>
      rw [hverified] at hok
      cases hok
  | ok digest => rfl

/-- The receiver is promoted. -/
theorem promotes : promotion.Promoted texts manifestDigest held promoted := by
  obtain ⟨-, hok, ⟨hone, -⟩, -⟩ := promotion_computes
  have hran : promotion.promoteInTx texts manifestDigest held = .ok ((), promoted) := by
    rw [promoted]
    cases hpromotes : promotion.promoteInTx texts manifestDigest held with
    | error e =>
        rw [hpromotes] at hok
        cases hok
    | ok res => rfl
  rcases Promotion.promoteInTx_eq_ok verified hran with hsame | hpromoted
  · rw [hsame, held_computes.1] at hone
    cases hone
  · exact hpromoted

theorem built : succession = .ok successionBundle := by
  obtain ⟨-, -, -, hok⟩ := promotion_computes
  rw [successionBundle]
  cases hbuild : succession with
  | error e =>
      rw [hbuild] at hok
      cases hok
  | ok b => rfl

theorem recordsOf_of_none {db : SourceDb} (h : db.outbox.rows.rows.length = 0)
    (streamId sourceEpoch : JsString) : db.outbox.recordsOf streamId sourceEpoch = [] := by
  rw [OutboxDb.recordsOf, OutboxDb.history, List.length_eq_zero_iff.mp h]
  rfl

/-- A receiver that is provisioned for the new epoch. -/
def newReceiver : ReceiverDb :=
  { SnapshotExample.fresh with
    receiverCheckpoint := ⟨[⟨Js.lit "pairs", Js.lit "e2", 0⟩], by decide⟩ }

theorem freshReceiver : FreshReceiver sampleStore.streamId (Js.lit "e2") newReceiver where
  pairs := rfl
  pending := rfl
  checkpoint := rfl
  applied _ hr := absurd hr List.not_mem_nil

end SeedExample

end Durable
