import BpcProtocol.Durable.ScoreSurvival
import BpcProtocol.Pair.NonAtomic

set_option autoImplicit false

/-! # One decision, three stores

The memory store, the registry without an atomic store and the durable store come to the same
decisions and leave the same pair. Only a counter of requests at its limit tells them apart. -/

/-- A pair as its columns tell it: `null` is no time of a first failure. -/
def Pair.StoredPair.columns (p : Pair.StoredPair) : Pair.StoredPair :=
  { p with firstFailureAt := p.firstFailureAt.join.map some }

theorem Pair.StoredPair.columns_columns (p : Pair.StoredPair) : p.columns.columns = p.columns := by
  have hfirst : ∀ o : Option (Option JsNumber),
      (o.join.map some).join.map some = o.join.map some := by
    intro o
    cases o.join <;> rfl
  exact congrArg (fun t => { p with firstFailureAt := t }) (hfirst p.firstFailureAt)

namespace Durable

open Ha Fallible
open PairTables (pairParams float8)
open Pair (StoredPair PairStatus SuccessfulUsePolicy SuccessfulUseClaim ServerError MemoryPairStore
  PlainRegistry presentFields canonicalAuthorizationJwk)
open PgTransactionalPairStore (rowOf)

/-! ## Pairs in canonical form -/

theorem SafeNat.isSafe (n : SafeNat) :
    n.toNumber.isSafeInteger = true ∧ n.toNumber.lt (.fin 0) = false :=
  (JsNumber.isSafeNat_iff _).mpr ⟨n.1, congrArg JsNumber.fin (Int.cast_natCast _), n.2⟩

namespace CanonicalStoredPair

/-- The failure score, where there is one, is written as normalization writes a number. -/
def Rendered (p : CanonicalStoredPair) : Prop :=
  ∀ text ∈ p.cumulativeFailures, ∃ x, Js.IsDouble x ∧ 0 ≤ x ∧
    finiteNumberToDecimal (.fin x) = .ok text

variable {p : CanonicalStoredPair}

theorem Rendered.scoreText (hp : p.Rendered) {text : JsString}
    (htext : p.cumulativeFailures = some text) : ∃ x, ScoreText x text := by
  obtain ⟨x, hdouble, hx, hwritten⟩ := hp text htext
  obtain ⟨text', htext'⟩ := exists_scoreText hdouble hx
  have heq : text' = text := Except.ok.inj (htext'.written.symm.trans hwritten)
  exact ⟨x, heq ▸ htext'⟩

theorem Rendered.scored (hp : p.Rendered) : p.Scored := fun _ ht =>
  (hp.scoreText ht).elim fun _ htext => htext.score

theorem Rendered.columns (hp : p.Rendered) : p.columns.Rendered :=
  hp

theorem Rendered.withStatus (hp : p.Rendered) (status : PairStatus) :
    ({ p with status } : CanonicalStoredPair).Rendered :=
  hp

/-- The score as a number is written as the same text again. -/
theorem Rendered.scoreOf (hp : p.Rendered) :
    scoreOf ((p.toStored.cumulativeFailures.map JsValue.number).getD .undefined) false =
      .ok p.cumulativeFailures := by
  cases hscore : p.cumulativeFailures with
  | none =>
      simp only [toStored, hscore]
      rfl
  | some text =>
      obtain ⟨x, htext⟩ := hp.scoreText hscore
      have hstored : p.toStored.cumulativeFailures = some (.fin x) := by
        show p.cumulativeFailures.map Js.stringToNumber = _
        rw [hscore, ← htext.read]
        rfl
      rw [hstored]
      show (do
        let n ← found (numberOf (.number (.fin x))) "pair.cumulativeFailures is invalid"
        let text ← finiteNumberToDecimal n
        pure (some text)) = _
      simp only [bind_eq_ok, found_eq_ok, pure_eq_ok]
      exact ⟨.fin x, rfl, text, htext.written, rfl⟩

/-- A pair in canonical form is normalized to itself. -/
theorem Rendered.normalizePair (hp : p.Rendered) : normalizePair p.toStored.toJs false = .ok p := by
  have hread : ownValue (presentFields p.storedMembers) "cumulativeFailures" =
      (p.toStored.cumulativeFailures.map JsValue.number).getD .undefined :=
    ownValue_presentFields (nodup_storedMembers p) (by simp [storedMembers])
  rw [toStored_toJs]
  exact normalizePair_of (readsFields_toStored p) (hread ▸ hp.scoreOf)

/-- What the column of the score is written with, and read as. -/
theorem Rendered.column (hp : p.Rendered) :
    (p.cumulativeFailures.elim (.ok none) fun text => (float8 text).map some) =
        .ok (rowOf p).cumulativeFailures ∧
      ((rowOf p).cumulativeFailures.elim (.ok none) fun value =>
        (databaseFloatToDecimal value).map some) = .ok p.cumulativeFailures := by
  have hrow : (rowOf p).cumulativeFailures = p.cumulativeFailures.map Js.stringToNumber := rfl
  rw [hrow]
  cases hscore : p.cumulativeFailures with
  | none => exact ⟨rfl, rfl⟩
  | some text =>
      obtain ⟨x, htext⟩ := hp.scoreText hscore
      have hfloat : float8 text = .ok (.fin x) := by
        rw [float8, htext.read]
        exact if_pos rfl
      have hdecimal : databaseFloatToDecimal (.fin x) = .ok text := htext.written
      constructor
      · show (float8 text).map some = .ok (some (Js.stringToNumber text))
        rw [hfloat, htext.read]
        rfl
      · show (databaseFloatToDecimal (Js.stringToNumber text)).map some = _
        rw [htext.read, hdecimal]
        rfl

/-- The row of a pair in canonical form, and what is read from it. -/
theorem Rendered.row (hp : p.Rendered) :
    pairParams p = .ok (rowOf p) ∧ rowToPair (rowOf p) = .ok p.columns.toStored := by
  have hread : ownValue (presentFields (rowMembers (rowOf p) p.cumulativeFailures))
      "cumulativeFailures" = (p.cumulativeFailures.map JsValue.string).getD .undefined :=
    ownValue_presentFields (nodup_rowMembers _ _) (by simp [rowMembers])
  have hscore := scoreOf_eq_ok.mpr ⟨rfl, fun _ => hp.scored _⟩
  have hnormal := normalizePair_of (readsFields_rowOf p p.cumulativeFailures) (hread ▸ hscore)
  simp only [pairParams, rowToPair, bind_eq_ok, pure_eq_ok]
  exact ⟨⟨_, hp.column.1, rfl⟩, ⟨_, hp.column.2, _, hnormal, rfl⟩⟩

theorem toStored_columns (p : CanonicalStoredPair) : p.columns.toStored = p.toStored.columns := by
  have hfirst : ∀ o : Option (Option SafeNat),
      (o.join.map some).map (fun t : Option SafeNat => t.map SafeNat.toNumber) =
        (o.map fun t => t.map SafeNat.toNumber).join.map some := by
    intro o
    cases o with
    | none => rfl
    | some o => cases o <;> rfl
  show ({ p.toStored with
    firstFailureAt := (p.firstFailureAt.join.map some).map fun t => t.map SafeNat.toNumber } :
      StoredPair) = _
  rw [hfirst]
  rfl

/-- The key of a pair in canonical form can be read. -/
theorem canonicalAuthorizationJwk_toStored (p : CanonicalStoredPair) :
    canonicalAuthorizationJwk p.toStored.pubJwk = .ok p.pubJwk.1 :=
  canonicalJwk_of (readsJwk_toJs p.pubJwk)

theorem zero_isSafe : 0 ≤ 9007199254740991 :=
  Nat.zero_le _

/-- The pair after a successful use, below the limit of the counter. -/
def used (p : CanonicalStoredPair) (at_ : SafeNat) (h : p.requests.1 < 9007199254740991) :
    CanonicalStoredPair :=
  { p with
    requests := ⟨p.requests.1 + 1, h⟩
    lastActive := some at_
    failedSigs := ⟨0, zero_isSafe⟩
    cumulativeFailures := some (Js.lit "0")
    firstFailureAt := some none
    status := (p.toStored.used at_.toNumber).status }

theorem incr_toNumber {n : SafeNat} (h : n.1 < 9007199254740991) :
    n.toNumber.incr = SafeNat.toNumber ⟨n.1 + 1, h⟩ := by
  show JsNumber.incr (.fin ((n.1 : ℤ) : ℚ)) = .fin (((n.1 + 1 : ℕ) : ℤ) : ℚ)
  rw [Int.cast_natCast, Int.cast_natCast, JsNumber.incr_natCast (by omega)]

theorem toStored_used (p : CanonicalStoredPair) (at_ : SafeNat)
    (h : p.requests.1 < 9007199254740991) :
    (p.used at_ h).toStored = p.toStored.used at_.toNumber := by
  have hscore : Js.stringToNumber (Js.lit "0") = .fin 0 := by decide
  have hfailed : SafeNat.toNumber ⟨0, Nat.zero_le _⟩ = .fin 0 :=
    congrArg JsNumber.fin Int.cast_zero
  show ({ p.toStored with
    requests := SafeNat.toNumber ⟨p.requests.1 + 1, h⟩
    lastActive := some at_.toNumber
    failedSigs := SafeNat.toNumber ⟨0, Nat.zero_le _⟩
    cumulativeFailures := some (Js.stringToNumber (Js.lit "0"))
    firstFailureAt := some none
    status := (p.toStored.used at_.toNumber).status } : StoredPair) = _
  rw [hscore, hfailed, ← incr_toNumber h]
  rfl

theorem Rendered.used (p : CanonicalStoredPair) (at_ : SafeNat)
    (h : p.requests.1 < 9007199254740991) : (p.used at_ h).Rendered := by
  intro text htext
  cases htext
  have hdouble : Js.IsDouble 0 := by simpa using Js.isDouble_natCast (n := 0) (Nat.zero_le _)
  exact ⟨0, hdouble, le_rfl, by decide⟩

end CanonicalStoredPair

/-! ## What the durable store decides -/

namespace PgTransactionalPairStore

variable (store : PgTransactionalPairStore) (nonce : Bytes)

/-- A decision on a pair: the store returns and leaves the pair, or it appends the sealed pair,
    writes it and returns. -/
inductive Decides {α : Type} (p : CanonicalStoredPair) (x : Except PairStoreError (Plan α))
    (outcome : α) : StoredPair → Prop where
  | left : x = .ok (.done outcome) → Decides p x outcome p.toStored
  | written (next : CanonicalStoredPair) : next.Rendered → next.id = p.id →
      x = store.planSet nonce next (.ok outcome) → Decides p x outcome next.toStored

variable {store nonce} {p : CanonicalStoredPair}

/-- **What a decision leaves once its transaction has committed.** -/
theorem Decides.committed {α : Type} {c : Ha.Crypto} {db db' : SourceDb} {outcome answer : α}
    {body : PairTables → Except PairStoreError (Plan α)} {q : StoredPair} (hp : p.Rendered)
    (hrow : db.tables.pairOf p.id.1 = some (rowOf p))
    (h : store.Decides nonce p.columns (body db.tables) outcome q)
    (hcommit : store.withOutboxTx c db body = .ok (answer, db')) :
    answer = outcome ∧ ∃ row, db'.tables.pairOf p.id.1 = some row ∧
      rowToPair row = .ok q.columns := by
  simp only [withOutboxTx, bind_eq_ok] at hcommit
  obtain ⟨plan, hplan, hexecute⟩ := hcommit
  cases h with
  | left hdone =>
      rw [hdone] at hplan
      cases hplan
      cases hexecute
      refine ⟨rfl, _, hrow, ?_⟩
      rw [hp.row.2, p.toStored_columns, StoredPair.columns_columns]
  | written next hnext hid hset =>
      simp only [hset, planSet, bind_eq_ok, ofHa_eq_ok, pure_eq_ok] at hplan
      obtain ⟨payload, -, rfl⟩ := hplan
      simp only [execute, bind_eq_ok, ofHa_eq_ok, pure_eq_ok] at hexecute
      obtain ⟨appended, -, tables, hrun, answer, hanswer, -, -, heq⟩ := hexecute
      cases hanswer
      cases heq
      obtain ⟨row, hparams, -, hpairs, -⟩ := PairTables.upsertPair_eq_ok hrun
      have hrowOf : rowOf next = row := Except.ok.inj (hnext.row.1.symm.trans hparams)
      subst hrowOf
      have hsame : (rowOf next).id = p.id.1 := congrArg Subtype.val hid
      refine ⟨rfl, rowOf next, ?_, ?_⟩
      · rw [hpairs, hsame, if_pos (beq_self_eq_true _)]
      · rw [hnext.row.2, next.toStored_columns]

/-- The status of a pair is changed where the condition holds. -/
theorem decides_conditionalStatus {tables : PairTables} {predicate : StoredPair → Bool}
    {status : PairStatus} (hp : p.Rendered) (hrow : tables.pairOf p.id.1 = some (rowOf p)) :
    store.Decides nonce p.columns
      (store.conditionalStatus nonce p.id.1 predicate status tables)
      (predicate p.columns.toStored)
      (if predicate p.columns.toStored = true then p.columns.toStored.withStatus status
        else p.columns.toStored) := by
  have hread : store.conditionalStatus nonce p.id.1 predicate status tables =
      if predicate p.columns.toStored = false then .ok (.done false)
      else store.planSet nonce { p.columns with status } (.ok true) := by
    have hnormal : normalizePair (p.columns.toStored.withStatus status).toJs false =
        .ok { p.columns with status } := (hp.columns.withStatus status).normalizePair
    rw [conditionalStatus, checked_val]
    show ((tables.pairOf p.id.1).elim (.ok (.done false)) fun row => do
      let current ← ofHa (rowToPair row)
      if predicate current = false then pure (Plan.done false)
      else do
        let next ← ofHa (normalizePair (current.withStatus status).toJs false)
        store.planSet nonce next (.ok true)) = _
    rw [hrow]
    show (do
      let current ← ofHa (rowToPair (rowOf p))
      if predicate current = false then pure (Plan.done false)
      else do
        let next ← ofHa (normalizePair (current.withStatus status).toJs false)
        store.planSet nonce next (.ok true)) = _
    rw [hp.row.2]
    show (if predicate p.columns.toStored = false then pure (Plan.done false)
      else do
        let next ← ofHa (normalizePair (p.columns.toStored.withStatus status).toJs false)
        store.planSet nonce next (.ok true)) = _
    rw [hnormal]
    rfl
  rw [hread]
  cases predicate p.columns.toStored with
  | true => exact .written _ (hp.columns.withStatus status) rfl rfl
  | false => exact .left rfl

/-- The pair is expired before its claim is denied. -/
theorem decides_planExpired (hp : p.Rendered) (outcome : SuccessfulUseClaim) :
    store.Decides nonce p (store.planExpired nonce p.toStored outcome) outcome
      (p.toStored.withStatus .expired) := by
  have hnormal : normalizePair (p.toStored.withStatus .expired).toJs false =
      .ok { p with status := .expired } := (hp.withStatus .expired).normalizePair
  refine .written _ (hp.withStatus .expired) rfl ?_
  rw [planExpired, hnormal]
  rfl

/-- What the durable store throws where its counter of requests is at its limit. -/
def counterExhausted : PairStoreError :=
  .ha (.contractValidation "pair request counter exhausted")

variable (store) (nonce)

/-- **The durable store makes the decision**, unless its counter cannot count the use. -/
theorem decides_planClaim {at_ : SafeNat} {captured : SuccessfulUsePolicy}
    {outcome : SuccessfulUseClaim} {q : StoredPair} (hp : p.Rendered)
    (hclaim : p.toStored.claim at_.toNumber captured = .ok (outcome, q)) :
    (outcome = .claimed ∧ p.requests.1 = 9007199254740991 ∧
        store.planClaim nonce p.toStored at_.toNumber captured = .error counterExhausted) ∨
      ¬(outcome = .claimed ∧ p.requests.1 = 9007199254740991) ∧
        store.Decides nonce p (store.planClaim nonce p.toStored at_.toNumber captured) outcome
          q := by
  rw [StoredPair.claim_eq] at hclaim
  unfold planClaim
  split_ifs at hclaim ⊢
  · cases hclaim
    exact .inr ⟨by simp, .left rfl⟩
  · cases hclaim
    exact .inr ⟨by simp, .left rfl⟩
  · cases hclaim
    exact .inr ⟨by simp, .left rfl⟩
  · cases hclaim
    exact .inr ⟨by simp, decides_planExpired hp _⟩
  · cases hclaim
    exact .inr ⟨by simp, decides_planExpired hp _⟩
  · simp only [StoredPair.claimUse, bind_eq_ok, pure_eq_ok] at hclaim
    obtain ⟨agrees, hagrees, hq⟩ := hclaim
    cases agrees with
    | false =>
        cases hq
        refine .inr ⟨by simp, .left ?_⟩
        rw [planUse, hagrees]
        rfl
    | true =>
        cases hq
        have huse : store.planUse nonce p.toStored at_.toNumber captured = (do
            ofHa (ensure (p.toStored.requests.incr.isSafeInteger = true)
              "pair request counter exhausted")
            let next ← ofHa (normalizePair (p.toStored.used at_.toNumber).toJs false)
            store.planSet nonce next (.ok .claimed)) := by
          rw [planUse, hagrees]
          rfl
        rcases Nat.lt_or_eq_of_le p.requests.2 with hlt | heq
        · have hsafe : p.toStored.requests.incr.isSafeInteger = true := by
            show (p.requests.toNumber.incr).isSafeInteger = true
            rw [CanonicalStoredPair.incr_toNumber hlt]
            exact (JsNumber.isSafeInteger_iff _).mpr
              ⟨((p.requests.1 + 1 : ℕ) : ℤ), rfl, by omega, by omega⟩
          have hused := CanonicalStoredPair.Rendered.used p at_ hlt
          rw [← p.toStored_used at_ hlt] at huse ⊢
          refine .inr ⟨fun h => absurd h.2 hlt.ne, .written _ hused rfl ?_⟩
          rw [huse, hused.normalizePair, ensure_of hsafe]
          rfl
        · have hunsafe : p.toStored.requests.incr.isSafeInteger = false := by
            have hrequests : p.toStored.requests = .fin ((9007199254740991 : ℤ) : ℚ) :=
              congrArg (fun n : ℕ => JsNumber.fin ((n : ℤ) : ℚ)) heq
            rw [hrequests]
            decide +kernel
          refine .inl ⟨rfl, heq, ?_⟩
          rw [huse, hunsafe]
          rfl

theorem claimSuccessfulUse_of_row (at_ : SafeNat) {tables : PairTables}
    {expected : SuccessfulUsePolicy} {key : Pair.CanonicalAuthorizationJwk} (hp : p.Rendered)
    (hkey : canonicalAuthorizationJwk expected.pubJwk = .ok key)
    (hrow : tables.pairOf p.id.1 = some (rowOf p)) :
    store.claimSuccessfulUse nonce p.id.1 at_.toNumber expected tables =
      store.planClaim nonce p.columns.toStored at_.toNumber
        { expected with pubJwk := key.toJwk } := by
  rw [claimSuccessfulUse, checked_val, ensure_of (SafeNat.isSafe at_), hkey]
  show ((tables.pairOf p.id.1).elim (.ok (.done .missing)) fun row => do
    let current ← ofHa (rowToPair row)
    store.planClaim nonce current at_.toNumber { expected with pubJwk := key.toJwk }) = _
  rw [hrow]
  show (do
    let current ← ofHa (rowToPair (rowOf p))
    store.planClaim nonce current at_.toNumber { expected with pubJwk := key.toJwk }) = _
  rw [hp.row.2]
  rfl

end PgTransactionalPairStore

/-! ## Conditions on pairs -/

/-- A claim does not depend on how the time of a first failure is left out. -/
theorem claim_columns {p q : StoredPair} {at_ : JsNumber} {captured : SuccessfulUsePolicy}
    {outcome : SuccessfulUseClaim} (h : p.claim at_ captured = .ok (outcome, q)) :
    ∃ q', p.columns.claim at_ captured = .ok (outcome, q') ∧ q'.columns = q.columns := by
  have hcolumns : p.columns.claim at_ captured =
      if p.status = .expired ∧ p.timeExpired at_ = true then .ok (.timeExpired, p.columns)
      else if p.status = .expired ∧ p.usageExhausted = true then .ok (.usageExhausted, p.columns)
      else if p.status ≠ .active then .ok (.inactive, p.columns)
      else if p.timeExpired at_ = true then .ok (.timeExpired, p.columns.withStatus .expired)
      else if p.usageExhausted = true then .ok (.usageExhausted, p.columns.withStatus .expired)
      else (do
        let agrees ← Pair.successfulUsePolicyMatches p captured
        pure (if agrees then (.claimed, p.columns.used at_) else (.policyChanged, p.columns))) :=
    p.columns.claim_eq at_ captured
  have hexpired : (p.columns.withStatus .expired).columns = (p.withStatus .expired).columns :=
    StoredPair.columns_columns (p.withStatus .expired)
  rw [StoredPair.claim_eq] at h
  rw [hcolumns]
  split_ifs at h ⊢
  · cases h
    exact ⟨_, rfl, p.columns_columns⟩
  · cases h
    exact ⟨_, rfl, p.columns_columns⟩
  · cases h
    exact ⟨_, rfl, p.columns_columns⟩
  · cases h
    exact ⟨_, rfl, hexpired⟩
  · cases h
    exact ⟨_, rfl, hexpired⟩
  · simp only [StoredPair.claimUse, bind_eq_ok, pure_eq_ok] at h ⊢
    obtain ⟨agrees, hagrees, hq⟩ := h
    cases agrees with
    | true =>
        cases hq
        exact ⟨_, ⟨true, hagrees, rfl⟩, rfl⟩
    | false =>
        cases hq
        exact ⟨_, ⟨false, hagrees, rfl⟩, p.columns_columns⟩

theorem not_ge_fin (a b : ℚ) :
    (!(JsNumber.fin a).ge (.fin b)) = (JsNumber.fin a).lt (.fin b) := by
  have hlt : (JsNumber.fin a).lt (.fin b) = decide (a < b) := rfl
  rw [hlt, JsNumber.ge_fin, ← decide_not]
  exact decide_eq_decide.mpr not_le

theorem not_lt_fin (a b : ℚ) :
    (!(JsNumber.fin a).lt (.fin b)) = (JsNumber.fin a).ge (.fin b) := by
  have hlt : (JsNumber.fin a).lt (.fin b) = decide (a < b) := rfl
  rw [hlt, JsNumber.ge_fin, ← decide_not]
  exact decide_eq_decide.mpr not_lt

theorem any_toNumber {o : Option SafeNat} {f g : JsNumber → Bool}
    (h : ∀ n : SafeNat, f n.toNumber = g n.toNumber) :
    (o.map SafeNat.toNumber).any f = (o.map SafeNat.toNumber).any g := by
  cases o with
  | none => rfl
  | some n => exact h n

/-! ## Agreement -/

/-- The memory store and the registry without an atomic store conclude with an outcome, and leave a
    pair under the identity of `p`. -/
structure Concludes {α : Type} (p : CanonicalStoredPair)
    (onMemory : Except ServerError (α × MemoryPairStore))
    (onPlain : Except ServerError (α × PlainRegistry)) (outcome : α) (q : StoredPair) : Prop where
  memory : ∃ s, onMemory = .ok (outcome, s) ∧ s.pairs.get p.id.1 = some q
  plain : ∃ r, onPlain = .ok (outcome, r) ∧ r.pairs.get p.id.1 = some q

/-- The durable store decides so as well, and a transaction that commits leaves the same pair. -/
structure PgTransactionalPairStore.Concludes {α : Type} (store : PgTransactionalPairStore)
    (nonce : Bytes) (db : SourceDb) (p : CanonicalStoredPair)
    (body : PairTables → Except PairStoreError (Plan α)) (outcome : α) (q : StoredPair) : Prop where
  decides : ∃ q', store.Decides nonce p.columns (body db.tables) outcome q' ∧
    q'.columns = q.columns
  commits : ∀ (c : Ha.Crypto) (answer : α) (db' : SourceDb),
    store.withOutboxTx c db body = .ok (answer, db') →
      answer = outcome ∧ ∃ row, db'.tables.pairOf p.id.1 = some row ∧
        rowToPair row = .ok q.columns

section Agreement

variable {store : PgTransactionalPairStore} {nonce : Bytes} {p : CanonicalStoredPair}
  {s : MemoryPairStore} {r : PlainRegistry} {db : SourceDb}

theorem concludes_of_decides {α : Type} {body : PairTables → Except PairStoreError (Plan α)}
    {outcome : α} {q q' : StoredPair} (hp : p.Rendered)
    (hrow : db.tables.pairOf p.id.1 = some (rowOf p))
    (h : store.Decides nonce p.columns (body db.tables) outcome q')
    (hq : q'.columns = q.columns) : store.Concludes nonce db p body outcome q where
  decides := ⟨q', h, hq⟩
  commits _ _ _ hcommit := hq ▸ h.committed hp hrow hcommit

/-- **A claim is decided alike**, but where the counter of the durable store is exhausted. -/
theorem claims_agree (hp : p.Rendered) (hs : s.pairs.get p.id.1 = some p.toStored)
    (hr : r.pairs.get p.id.1 = some p.toStored) (hrow : db.tables.pairOf p.id.1 = some (rowOf p))
    (at_ : SafeNat) {expected : SuccessfulUsePolicy} {key : Pair.CanonicalAuthorizationJwk}
    (hkey : canonicalAuthorizationJwk expected.pubJwk = .ok key) :
    ∃ outcome q,
      Concludes p (s.claimSuccessfulUse p.id.1 at_.toNumber expected)
        (r.claimSuccessfulUseOutcome p.id.1 at_.toNumber expected) outcome q ∧
      (outcome = .claimed ∧ p.requests.1 = 9007199254740991 ∧
          store.claimSuccessfulUse nonce p.id.1 at_.toNumber expected db.tables =
            .error PgTransactionalPairStore.counterExhausted ∨
        ¬(outcome = .claimed ∧ p.requests.1 = 9007199254740991) ∧
          store.Concludes nonce db p
            (store.claimSuccessfulUse nonce p.id.1 at_.toNumber expected) outcome q) := by
  have hat : MemoryPairStore.isTimestamp at_.toNumber = true := by
    rw [MemoryPairStore.isTimestamp, (SafeNat.isSafe at_).1, (SafeNat.isSafe at_).2]
    rfl
  obtain ⟨outcome, q, hclaim⟩ :=
    Pair.claim_isOk p.canonicalAuthorizationJwk_toStored hkey at_.toNumber
  refine ⟨outcome, q, ⟨MemoryPairStore.claimSuccessfulUse_of_claim hat hkey hs hclaim,
    PlainRegistry.claimSuccessfulUseOutcome_of_claim hr hclaim (Pair.id_of_claim hclaim)⟩, ?_⟩
  rw [← Pair.claim_canonical hkey] at hclaim
  obtain ⟨q', hcolumns, hq⟩ := claim_columns hclaim
  rw [← p.toStored_columns] at hcolumns
  have hrun := store.claimSuccessfulUse_of_row nonce at_ hp hkey hrow
  rcases store.decides_planClaim nonce hp.columns hcolumns with
    ⟨hclaimed, hlimit, hthrows⟩ | ⟨hbelow, hdecides⟩
  · exact .inl ⟨hclaimed, hlimit, hrun.trans hthrows⟩
  · exact .inr ⟨hbelow, concludes_of_decides hp hrow (hrun ▸ hdecides) hq⟩

/-- A change of status is decided alike, where the stores ask the same of the pair. -/
theorem transitions_agree (hp : p.Rendered) (hs : s.pairs.get p.id.1 = some p.toStored)
    (hr : r.pairs.get p.id.1 = some p.toStored) (hrow : db.tables.pairOf p.id.1 = some (rowOf p))
    {cond predicate : StoredPair → Bool} (status : PairStatus)
    (hsame : predicate p.columns.toStored = (decide (p.status = .active) && cond p.toStored)) :
    ∃ applies q,
      Concludes p (.ok (s.transition p.id.1 cond status)) (.ok (r.transition p.id.1 cond status))
        applies q ∧
      store.Concludes nonce db p (store.conditionalStatus nonce p.id.1 predicate status)
        applies q := by
  obtain ⟨s', hs', hmemory⟩ := MemoryPairStore.transition_of_get status hs hsame
  obtain ⟨r', hr', hplain⟩ := PlainRegistry.transition_of_get status hr rfl hsame
  refine ⟨_, _, ⟨⟨s', congrArg Except.ok hs', hmemory⟩, ⟨r', congrArg Except.ok hr', hplain⟩⟩,
    concludes_of_decides hp hrow
      (PgTransactionalPairStore.decides_conditionalStatus hp hrow) ?_⟩
  rw [p.toStored_columns]
  cases predicate p.toStored.columns with
  | true => exact StoredPair.columns_columns (p.toStored.withStatus status)
  | false => exact p.toStored.columns_columns

theorem expiries_agree (hp : p.Rendered) (hs : s.pairs.get p.id.1 = some p.toStored)
    (hr : r.pairs.get p.id.1 = some p.toStored) (hrow : db.tables.pairOf p.id.1 = some (rowOf p))
    (now : SafeNat) :
    ∃ applies q,
      Concludes p (s.expireIfElapsed p.id.1 now.toNumber)
        (.ok (r.markExpired p.id.1 now.toNumber)) applies q ∧
      store.Concludes nonce db p (store.expireIfElapsed nonce p.id.1 now.toNumber) applies q := by
  have hmemory : s.expireIfElapsed p.id.1 now.toNumber =
      .ok (s.transition p.id.1 (fun p => p.expiresAt.any fun e => !e.ge now.toNumber)
        .expired) := by
    rw [MemoryPairStore.expireIfElapsed, MemoryPairStore.isTimestamp, (SafeNat.isSafe now).1,
      (SafeNat.isSafe now).2]
    rfl
  have hdurable : store.expireIfElapsed nonce p.id.1 now.toNumber =
      store.conditionalStatus nonce p.id.1 (fun pair => decide (pair.status = .active) &&
        pair.expiresAt.any fun e => e.lt now.toNumber) .expired := by
    funext tables
    rw [PgTransactionalPairStore.expireIfElapsed, ensure_of (SafeNat.isSafe now)]
    rfl
  rw [hmemory, hdurable]
  refine transitions_agree hp hs hr hrow .expired (congrArg (decide (p.status = .active) && ·) ?_)
  exact any_toNumber fun _ => (not_ge_fin _ _).symm

theorem usage_expiries_agree (hp : p.Rendered) (hs : s.pairs.get p.id.1 = some p.toStored)
    (hr : r.pairs.get p.id.1 = some p.toStored)
    (hrow : db.tables.pairOf p.id.1 = some (rowOf p)) :
    ∃ applies q,
      Concludes p (.ok (s.expireIfUsageExhausted p.id.1)) (.ok (r.markUsageExpired p.id.1))
        applies q ∧
      store.Concludes nonce db p (store.expireIfUsageExhausted nonce p.id.1) applies q := by
  refine transitions_agree hp hs hr hrow .expired (congrArg (decide (p.status = .active) && ·) ?_)
  refine any_toNumber fun m => ?_
  show (m.toNumber.truthy && (JsNumber.fin 0).lt m.toNumber && p.requests.toNumber.ge m.toNumber) =
    (m.toNumber.truthy && !(JsNumber.fin 0).ge m.toNumber && !p.requests.toNumber.lt m.toNumber)
  rw [SafeNat.toNumber, SafeNat.toNumber, not_ge_fin, not_lt_fin]

theorem locks_agree (hp : p.Rendered) (hs : s.pairs.get p.id.1 = some p.toStored)
    (hr : r.pairs.get p.id.1 = some p.toStored) (hrow : db.tables.pairOf p.id.1 = some (rowOf p))
    {minimumFailures : SafeNat} (hminimum : 1 ≤ minimumFailures.1) :
    ∃ applies q,
      Concludes p (s.lockIfFailureThreshold p.id.1 minimumFailures.toNumber)
        (.ok (r.ensureLocked p.id.1 minimumFailures.toNumber)) applies q ∧
      store.Concludes nonce db p
        (store.lockIfFailureThreshold nonce p.id.1 minimumFailures.toNumber) applies q := by
  have hthreshold : minimumFailures.toNumber.isSafeInteger = true ∧
      minimumFailures.toNumber.lt (.fin 1) = false :=
    ⟨(SafeNat.isSafe minimumFailures).1,
      decide_eq_false (not_lt.mpr (by exact_mod_cast hminimum))⟩
  have hmemory : s.lockIfFailureThreshold p.id.1 minimumFailures.toNumber =
      .ok (s.transition p.id.1 (fun p => !p.failedSigs.lt minimumFailures.toNumber) .locked) := by
    rw [MemoryPairStore.lockIfFailureThreshold, Pair.ensure, require_of hthreshold]
    rfl
  have hdurable : store.lockIfFailureThreshold nonce p.id.1 minimumFailures.toNumber =
      store.conditionalStatus nonce p.id.1 (fun pair => decide (pair.status = .active) &&
        pair.failedSigs.ge minimumFailures.toNumber) .locked := by
    funext tables
    rw [PgTransactionalPairStore.lockIfFailureThreshold, ensure_of hthreshold]
    rfl
  rw [hmemory, hdurable]
  exact transitions_agree hp hs hr hrow .locked
    (congrArg (decide (p.status = .active) && ·) (not_lt_fin _ _).symm)

end Agreement

/-- **The stores decide alike.** On a pair in canonical form, at every time and for every policy
    whose key can be read, the memory store, the registry without an atomic store and the durable
    store claim a use with the same outcome and leave the same pair; so they do for expiry, for
    exhausted usage and for the failure threshold. Only where a use would be claimed at the limit of
    the counter of requests does the durable store throw. -/
theorem decisions_agree (store : PgTransactionalPairStore) (nonce : Bytes)
    {p : CanonicalStoredPair} (hp : p.Rendered) {s : MemoryPairStore} {r : PlainRegistry}
    {db : SourceDb} (hs : s.pairs.get p.id.1 = some p.toStored)
    (hr : r.pairs.get p.id.1 = some p.toStored)
    (hrow : db.tables.pairOf p.id.1 = some (rowOf p)) :
    (∀ (at_ : SafeNat) (expected : SuccessfulUsePolicy) (key : Pair.CanonicalAuthorizationJwk),
      canonicalAuthorizationJwk expected.pubJwk = .ok key → ∃ outcome q,
        Concludes p (s.claimSuccessfulUse p.id.1 at_.toNumber expected)
          (r.claimSuccessfulUseOutcome p.id.1 at_.toNumber expected) outcome q ∧
        (outcome = .claimed ∧ p.requests.1 = 9007199254740991 ∧
            store.claimSuccessfulUse nonce p.id.1 at_.toNumber expected db.tables =
              .error PgTransactionalPairStore.counterExhausted ∨
          ¬(outcome = .claimed ∧ p.requests.1 = 9007199254740991) ∧
            store.Concludes nonce db p
              (store.claimSuccessfulUse nonce p.id.1 at_.toNumber expected) outcome q)) ∧
    (∀ now : SafeNat, ∃ applies q,
      Concludes p (s.expireIfElapsed p.id.1 now.toNumber)
        (.ok (r.markExpired p.id.1 now.toNumber)) applies q ∧
      store.Concludes nonce db p (store.expireIfElapsed nonce p.id.1 now.toNumber) applies q) ∧
    (∃ applies q,
      Concludes p (.ok (s.expireIfUsageExhausted p.id.1)) (.ok (r.markUsageExpired p.id.1))
        applies q ∧
      store.Concludes nonce db p (store.expireIfUsageExhausted nonce p.id.1) applies q) ∧
    ∀ minimumFailures : SafeNat, 1 ≤ minimumFailures.1 → ∃ applies q,
      Concludes p (s.lockIfFailureThreshold p.id.1 minimumFailures.toNumber)
        (.ok (r.ensureLocked p.id.1 minimumFailures.toNumber)) applies q ∧
      store.Concludes nonce db p
        (store.lockIfFailureThreshold nonce p.id.1 minimumFailures.toNumber) applies q :=
  ⟨fun at_ _ _ hkey => claims_agree hp hs hr hrow at_ hkey,
    fun now => expiries_agree hp hs hr hrow now,
    usage_expiries_agree hp hs hr hrow,
    fun _ hminimum => locks_agree hp hs hr hrow hminimum⟩

/-! ## A counter at its limit -/

/-- The sample pair with the most requests that are counted. -/
def exhaustedPair : CanonicalStoredPair :=
  { samplePair with requests := ⟨9007199254740991, le_rfl⟩ }

/-- A memory store with one pair. -/
def memoryOf (p : CanonicalStoredPair) : MemoryPairStore :=
  MemoryPairStore.empty.setPair p.id.1 p.toStored

/-- A registry with one pair. -/
def plainOf (p : CanonicalStoredPair) : PlainRegistry :=
  ⟨(memoryOf p).pairs, .empty⟩

/-- The policy of an active pair. -/
def policyOf (p : CanonicalStoredPair) : SuccessfulUsePolicy where
  status := .active
  scope := p.scope.text
  mode := p.mode.text
  secretHash := p.secretHash.1
  pubJwk := p.toStored.pubJwk
  expiresAt := p.toStored.expiresAt
  maxRequests := p.toStored.maxRequests
  kind := p.kind
  canaryClass := p.canaryClass

theorem rendered_exhaustedPair : exhaustedPair.Rendered := by
  intro text htext
  cases htext

/-- The tables with the row of the pair. -/
def exhaustedTables : PairTables where
  pairs := ⟨[rowOf exhaustedPair], by decide +kernel⟩
  pending := Relational.Table.empty pendingSchema

theorem pairOf_exhausted :
    exhaustedTables.pairOf exhaustedPair.id.1 = some (rowOf exhaustedPair) := by
  rw [PairTables.pairOf, Relational.Table.select]
  exact List.find?_cons_of_pos (beq_self_eq_true _)

/-- At the limit the other two claim the use, and the durable store throws. -/
theorem exhausted_claims_differ :
    (∃ s, (memoryOf exhaustedPair).claimSuccessfulUse exhaustedPair.id.1
        (SafeNat.toNumber ⟨5, by decide⟩) (policyOf exhaustedPair) = .ok (.claimed, s)) ∧
      (∃ r, (plainOf exhaustedPair).claimSuccessfulUseOutcome exhaustedPair.id.1
        (SafeNat.toNumber ⟨5, by decide⟩) (policyOf exhaustedPair) = .ok (.claimed, r)) ∧
      sampleStore.claimSuccessfulUse [] exhaustedPair.id.1 (SafeNat.toNumber ⟨5, by decide⟩)
        (policyOf exhaustedPair) exhaustedTables =
          .error PgTransactionalPairStore.counterExhausted := by
  let at_ : SafeNat := ⟨5, by decide⟩
  have hkey : canonicalAuthorizationJwk (policyOf exhaustedPair).pubJwk =
      .ok exhaustedPair.pubJwk.1 := exhaustedPair.canonicalAuthorizationJwk_toStored
  have hmatches : Pair.successfulUsePolicyMatches exhaustedPair.toStored (policyOf exhaustedPair) =
      .ok true := by decide +kernel
  have hclaim : exhaustedPair.toStored.claim at_.toNumber (policyOf exhaustedPair) =
      .ok (.claimed, exhaustedPair.toStored.used at_.toNumber) := by
    show exhaustedPair.toStored.claimUse at_.toNumber (policyOf exhaustedPair) = _
    rw [StoredPair.claimUse, hmatches]
    rfl
  have hat : MemoryPairStore.isTimestamp at_.toNumber = true := by decide +kernel
  obtain ⟨s, hs, -⟩ := MemoryPairStore.claimSuccessfulUse_of_claim (s := memoryOf exhaustedPair)
    hat hkey (MemoryPairStore.get_setPair _ _ _) hclaim
  obtain ⟨r, hr, -⟩ := PlainRegistry.claimSuccessfulUseOutcome_of_claim (r := plainOf exhaustedPair)
    (MemoryPairStore.get_setPair _ _ _) hclaim rfl
  refine ⟨⟨s, hs⟩, ⟨r, hr⟩, ?_⟩
  rw [← Pair.claim_canonical hkey] at hclaim
  have hrun := sampleStore.claimSuccessfulUse_of_row [] at_ rendered_exhaustedPair hkey
    pairOf_exhausted
  rcases sampleStore.decides_planClaim [] rendered_exhaustedPair.columns hclaim with
    ⟨-, -, hthrows⟩ | ⟨hbelow, -⟩
  · exact hrun.trans hthrows
  · exact absurd ⟨rfl, rfl⟩ hbelow

/-- A database that holds the pair alone. -/
def exhaustedDb : SourceDb :=
  { sampleDb with tables := exhaustedTables }

theorem decisions_agree_sample :
    ∃ applies q,
      Concludes exhaustedPair
        ((memoryOf exhaustedPair).lockIfFailureThreshold exhaustedPair.id.1
          (SafeNat.toNumber ⟨1, by decide⟩))
        (.ok ((plainOf exhaustedPair).ensureLocked exhaustedPair.id.1
          (SafeNat.toNumber ⟨1, by decide⟩))) applies q ∧
      sampleStore.Concludes [] exhaustedDb exhaustedPair
        (sampleStore.lockIfFailureThreshold [] exhaustedPair.id.1
          (SafeNat.toNumber ⟨1, by decide⟩)) applies q :=
  (decisions_agree sampleStore [] rendered_exhaustedPair (MemoryPairStore.get_setPair _ _ _)
    (MemoryPairStore.get_setPair _ _ _) pairOf_exhausted).2.2.2 ⟨1, by decide⟩ le_rfl

end Durable
