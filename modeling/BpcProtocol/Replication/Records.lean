import BpcProtocol.Lib.Replay
import BpcProtocol.Pair.Written
import BpcProtocol.Replication.Receiver

set_option autoImplicit false

/-! # Replicated records

What an operation that a primary sends is for the replica that receives it, and the records of the
two stores under one set of keys. -/

namespace Replication

open Pair (StoredPair PairRegistration MemoryPairStore PendingPairing present)

/-! ## Received operations -/

/-- What the replica receives of an operation: its JSON read back, if that is valid. -/
def ReplicaOp.received (op : ReplicaOp) : Option ReceivedOp :=
  (Js.image op.toJs).bind fun v => (validateReplicaOp v).toOption

theorem image_pair (pair : StoredPair) :
    ∃ v, Js.image pair.toJs = some v ∧ textOf (field v "id") = pair.id := by
  obtain ⟨v, hv⟩ : ∃ v, Js.image pair.toJs = some v := ⟨_, Pair.image_present _⟩
  refine ⟨v, hv, ?_⟩
  rw [field, Pair.get_image_present hv Pair.nodup_pairNames List.mem_cons_self]
  rfl

theorem image_registration (registration : PairRegistration) :
    ∃ v, Js.image registration.toJs = some v :=
  ⟨_, Pair.image_present _⟩

theorem received_set {pair : StoredPair} {r : ReceivedOp} {v : JsValue}
    (hv : Js.image pair.toJs = some v) (h : (ReplicaOp.set pair).received = some r) :
    r = .set pair.id v := by
  obtain ⟨w, hw, hid⟩ := image_pair pair
  obtain rfl : w = v := Option.some.inj (hw.symm.trans hv)
  have himage : Js.image (ReplicaOp.set pair).toJs =
      some (.object [(Js.lit "op", .string (Js.lit "set")), (Js.lit "pair", w)]) := by
    simp [ReplicaOp.toJs, Js.image, Js.imageFields, hw]
  have hvalid : validateReplicaOp
      (.object [(Js.lit "op", .string (Js.lit "set")), (Js.lit "pair", w)]) =
        if isValidStoredPair w = true then .ok (.set (textOf (field w "id")) w)
        else .error "invalid_set" := rfl
  rw [ReplicaOp.received, himage, Option.bind_some, hvalid] at h
  split at h
  · cases h
    rw [hid]
  · cases h

theorem received_delete {pairId : JsString} {r : ReceivedOp}
    (h : (ReplicaOp.delete pairId).received = some r) : r = .delete pairId := by
  have himage : Js.image (ReplicaOp.delete pairId).toJs = some (ReplicaOp.delete pairId).toJs := by
    simp [ReplicaOp.toJs, Js.image, Js.imageFields]
  have hvalid : validateReplicaOp (ReplicaOp.delete pairId).toJs =
      if isText isValidPairId (.string pairId) = true then .ok (.delete pairId)
      else .error "invalid_delete" := rfl
  rw [ReplicaOp.received, himage, Option.bind_some, hvalid] at h
  split at h
  · cases h
    rfl
  · cases h

theorem received_deletePending {token : JsString} {r : ReceivedOp}
    (h : (ReplicaOp.deletePending token).received = some r) : r = .deletePending token := by
  have himage : Js.image (ReplicaOp.deletePending token).toJs =
      some (ReplicaOp.deletePending token).toJs := by
    simp [ReplicaOp.toJs, Js.image, Js.imageFields]
  have hvalid : validateReplicaOp (ReplicaOp.deletePending token).toJs =
      if isValidToken (.string token) = true then .ok (.deletePending token)
      else .error "invalid_pending_token" := rfl
  rw [ReplicaOp.received, himage, Option.bind_some, hvalid] at h
  split at h
  · cases h
    rfl
  · cases h

theorem received_setPending {token : JsString} {registration : PairRegistration}
    {requestedAt : JsNumber} {r : ReceivedOp} {v : JsValue}
    (hv : Js.image registration.toJs = some v)
    (h : (ReplicaOp.setPending token registration requestedAt).received = some r) :
    r = .setPending token v requestedAt := by
  have himage : Js.image (ReplicaOp.setPending token registration requestedAt).toJs =
      some (.object
        [(Js.lit "op", .string (Js.lit "setPending")), (Js.lit "token", .string token),
          (Js.lit "registration", v),
          (Js.lit "requestedAt", if requestedAt.isFinite then .number requestedAt else .null)]) := by
    simp [ReplicaOp.toJs, Js.image, Js.imageFields, hv]
  have hvalid : ∀ n : JsValue, validateReplicaOp (.object
      [(Js.lit "op", .string (Js.lit "setPending")), (Js.lit "token", .string token),
        (Js.lit "registration", v), (Js.lit "requestedAt", n)]) =
      if isValidToken (.string token) = false then .error "invalid_pending_token"
      else if isValidRegistration v = false then .error "invalid_pending_registration"
      else if isNumber JsNumber.isFinite n = false then .error "invalid_pending_requestedAt"
      else .ok (.setPending token v (numberOf n)) := fun n => rfl
  rw [ReplicaOp.received, himage, Option.bind_some, hvalid] at h
  by_cases hfinite : requestedAt.isFinite = true
  · rw [if_pos hfinite] at h
    split_ifs at h
    · cases h
    · cases h
    · cases h
    · cases h
      rfl
  · rw [if_neg hfinite] at h
    split_ifs at h with h1 h2 h3
    · cases h
    · cases h
    · cases h
    · exact absurd rfl h3

/-! ## Records under keys -/

/-- Where a record stands: the pairs and the pending registrations are apart. -/
inductive RecordKey where
  | pair (pairId : JsString)
  | pending (token : JsString)
  deriving DecidableEq

/-- A record as it is read from JSON. -/
inductive Record where
  | pair (pair : JsValue)
  | pending (registration : JsValue) (requestedAt : JsNumber)

namespace ReplicaOp

/-- The key that an operation writes. -/
def key : ReplicaOp → RecordKey
  | .set pair => .pair pair.id
  | .delete pairId => .pair pairId
  | .setPending token _ _ => .pending token
  | .deletePending token => .pending token

/-- What it leaves there, as it is read from JSON. -/
def record : ReplicaOp → Option Record
  | .set pair => (Js.image pair.toJs).map .pair
  | .delete _ => none
  | .setPending _ registration requestedAt =>
      (Js.image registration.toJs).map fun v => .pending v requestedAt
  | .deletePending _ => none

end ReplicaOp

/-- The record of a key in the store of the replica. -/
def ReplicaStore.read (s : ReplicaStore) : RecordKey → Option Record
  | .pair pairId => (s.pairs.get pairId).map .pair
  | .pending token => (s.pending.get token).map fun p => .pending p.1 p.2

/-- The replica's store behind an operation, if it is valid there. -/
def ReplicaStore.receive (s : ReplicaStore) (op : ReplicaOp) : ReplicaStore :=
  op.received.elim s s.apply

/-- What an operation writes to the primary. -/
def applyPrimary (s : MemoryPairStore) : ReplicaOp → MemoryPairStore
  | .set pair => s.setPair pair.id pair
  | .delete pairId => { s with pairs := s.pairs.delete pairId }
  | .setPending token registration requestedAt => s.setPending token ⟨registration, requestedAt⟩
  | .deletePending token => { s with pending := s.pending.delete token }

/-- The record of a key in the primary, as it is read from JSON. -/
def readPrimary (s : MemoryPairStore) : RecordKey → Option Record
  | .pair pairId => (s.pairs.get pairId).bind fun pair => (Js.image pair.toJs).map .pair
  | .pending token =>
      (s.pending.get token).bind fun p =>
        (Js.image p.registration.toJs).map fun v => .pending v p.requestedAt

/-- An operation that is applied twice in a row leaves what it left the first time. -/
theorem ReplicaStore.apply_apply (s : ReplicaStore) (op : ReceivedOp) :
    (s.apply op).apply op = s.apply op := by
  cases op with
  | set pairId pair => simp only [apply, OrderedMap.set_set]
  | delete pairId => simp only [apply, OrderedMap.delete_delete]
  | setPending token registration requestedAt => simp only [apply, OrderedMap.set_set]
  | deletePending token => simp only [apply, OrderedMap.delete_delete]

theorem writes_primary (op : ReplicaOp) :
    Replay.Writes applyPrimary readPrimary ReplicaOp.key ReplicaOp.record op := by
  intro s k
  cases op with
  | set pair =>
      cases k with
      | pair pairId =>
          by_cases h : pairId = pair.id
          · subst h
            simp [applyPrimary, readPrimary, ReplicaOp.key, ReplicaOp.record, MemoryPairStore.setPair]
          · simp [applyPrimary, readPrimary, ReplicaOp.key, MemoryPairStore.setPair,
              OrderedMap.get_set, h, Ne.symm h]
      | pending token => simp [applyPrimary, readPrimary, ReplicaOp.key, MemoryPairStore.setPair]
  | delete id =>
      cases k with
      | pair pairId =>
          by_cases h : pairId = id
          · subst h
            simp [applyPrimary, readPrimary, ReplicaOp.key, ReplicaOp.record, OrderedMap.get_delete]
          · simp [applyPrimary, readPrimary, ReplicaOp.key, OrderedMap.get_delete, h, Ne.symm h]
      | pending token => simp [applyPrimary, readPrimary, ReplicaOp.key]
  | setPending t registration requestedAt =>
      cases k with
      | pair pairId => simp [applyPrimary, readPrimary, ReplicaOp.key, MemoryPairStore.setPending]
      | pending token =>
          by_cases h : token = t
          · subst h
            simp [applyPrimary, readPrimary, ReplicaOp.key, ReplicaOp.record,
              MemoryPairStore.setPending]
          · simp [applyPrimary, readPrimary, ReplicaOp.key, MemoryPairStore.setPending,
              OrderedMap.get_set, h, Ne.symm h]
  | deletePending t =>
      cases k with
      | pair pairId => simp [applyPrimary, readPrimary, ReplicaOp.key]
      | pending token =>
          by_cases h : token = t
          · subst h
            simp [applyPrimary, readPrimary, ReplicaOp.key, ReplicaOp.record, OrderedMap.get_delete]
          · simp [applyPrimary, readPrimary, ReplicaOp.key, OrderedMap.get_delete, h, Ne.symm h]

theorem writes_replica {op : ReplicaOp} (h : op.received.isSome = true) :
    Replay.Writes ReplicaStore.receive ReplicaStore.read ReplicaOp.key ReplicaOp.record op := by
  obtain ⟨r, hr⟩ := Option.isSome_iff_exists.mp h
  intro s k
  rw [ReplicaStore.receive, hr, Option.elim_some]
  cases op with
  | set pair =>
      obtain ⟨v, hv, -⟩ := image_pair pair
      obtain rfl := received_set hv hr
      cases k with
      | pair pairId =>
          by_cases h : pairId = pair.id
          · subst h
            simp [ReplicaStore.apply, ReplicaStore.read, ReplicaOp.key, ReplicaOp.record, hv]
          · simp [ReplicaStore.apply, ReplicaStore.read, ReplicaOp.key, OrderedMap.get_set, h,
              Ne.symm h]
      | pending token => simp [ReplicaStore.apply, ReplicaStore.read, ReplicaOp.key]
  | delete id =>
      obtain rfl := received_delete hr
      cases k with
      | pair pairId =>
          by_cases h : pairId = id
          · subst h
            simp [ReplicaStore.apply, ReplicaStore.read, ReplicaOp.key, ReplicaOp.record,
              OrderedMap.get_delete]
          · simp [ReplicaStore.apply, ReplicaStore.read, ReplicaOp.key, OrderedMap.get_delete, h,
              Ne.symm h]
      | pending token => simp [ReplicaStore.apply, ReplicaStore.read, ReplicaOp.key]
  | setPending t registration requestedAt =>
      obtain ⟨v, hv⟩ := image_registration registration
      obtain rfl := received_setPending hv hr
      cases k with
      | pair pairId => simp [ReplicaStore.apply, ReplicaStore.read, ReplicaOp.key]
      | pending token =>
          by_cases h : token = t
          · subst h
            simp [ReplicaStore.apply, ReplicaStore.read, ReplicaOp.key, ReplicaOp.record, hv]
          · simp [ReplicaStore.apply, ReplicaStore.read, ReplicaOp.key, OrderedMap.get_set, h,
              Ne.symm h]
  | deletePending t =>
      obtain rfl := received_deletePending hr
      cases k with
      | pair pairId => simp [ReplicaStore.apply, ReplicaStore.read, ReplicaOp.key]
      | pending token =>
          by_cases h : token = t
          · subst h
            simp [ReplicaStore.apply, ReplicaStore.read, ReplicaOp.key, ReplicaOp.record,
              OrderedMap.get_delete]
          · simp [ReplicaStore.apply, ReplicaStore.read, ReplicaOp.key, OrderedMap.get_delete, h,
              Ne.symm h]

end Replication
