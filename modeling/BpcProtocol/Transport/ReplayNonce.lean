import BpcProtocol.Lib.Transition
import BpcProtocol.Transport.Receiver
import Mathlib.Logic.Function.Basic
import Mathlib.Tactic.Linarith

set_option autoImplicit false

/-! # Replay protection

Requests are received concurrently while two clocks go on. A request is fresh by the clock of the
application and its nonce expires by the clock of the database. `lastInstant` is where the two
meet: after it no timely request with a given timestamp is stored, and until it the row that the
first of them left is there. -/

namespace Transport

open Fallible Ha Transition

/-! ## The receiver at work -/

/-- How far a request has come. A checked one remembers when it was, by both clocks; one in its
    transaction, when that began. -/
inductive Phase where
  | reading
  | checked (cred : Credentials) (appAt dbAt : ℚ)
  | storing (cred : Credentials) (appAt dbAt txNow : ℚ)
  | accepted (cred : Credentials)
  | replied (reply : Reply)

/-- Not answered, and not accepted. -/
def Phase.Pending : Phase → Prop
  | reading | checked _ _ _ | storing _ _ _ _ => True
  | accepted _ | replied _ => False

/-- The table of nonces, the two clocks in milliseconds, and the requests so far. -/
structure State (ι : Type) where
  nonces : NonceTable
  appClock : ℚ
  dbClock : ℚ
  calls : ι → Option (HttpRequest × Phase)

variable {ι : Type}

def State.move [DecidableEq ι] (s : State ι) (i : ι) (req : HttpRequest) (phase : Phase) : State ι :=
  { s with calls := Function.update s.calls i (some (req, phase)) }

section Receiving

variable [DecidableEq ι] (crypto : NodeCrypto) (recv : HttpOutboxReceiver)

/-- What can happen next. The transactions on the table are one after another: each holds its lock
    from before the first row it looks at. -/
inductive Step : State ι → State ι → Prop
  | tick {s : State ι} (app db : ℚ) :
      s.dbClock ≤ db → Step s { s with appClock := app, dbClock := db }
  | prune {s : State ι} (now : ℚ) :
      now ≤ s.dbClock → Step s { s with nonces := s.nonces.prune now }
  | start {s : State ι} (i : ι) (req : HttpRequest) :
      s.calls i = none → beforeBody recv req = .ok () → Step s (s.move i req .reading)
  | refuse {s : State ι} (i : ι) (req : HttpRequest) (reply : Reply) :
      s.calls i = none → beforeBody recv req = .error reply → Step s (s.move i req (.replied reply))
  | check {s : State ι} (i : ι) (req : HttpRequest) (body : Bytes)
      (resolveRequestKey : JsString → Option Bytes) (cred : Credentials) :
      s.calls i = some (req, .reading) →
      authenticate crypto recv req body resolveRequestKey (.fin s.appClock) = .ok cred →
      Step s (s.move i req (.checked cred s.appClock s.dbClock))
  | reject {s : State ι} (i : ι) (req : HttpRequest) (body : Bytes)
      (resolveRequestKey : JsString → Option Bytes) (reply : Reply) :
      s.calls i = some (req, .reading) →
      authenticate crypto recv req body resolveRequestKey (.fin s.appClock) = .error reply →
      Step s (s.move i req (.replied reply))
  | transact {s : State ι} (i : ι) (req : HttpRequest) (cred : Credentials) (appAt dbAt : ℚ) :
      s.calls i = some (req, .checked cred appAt dbAt) →
      Step s (s.move i req (.storing cred appAt dbAt s.dbClock))
  /-- The transaction is rolled back and begun again. -/
  | retry {s : State ι} (i : ι) (req : HttpRequest) (cred : Credentials) (appAt dbAt txNow : ℚ) :
      s.calls i = some (req, .storing cred appAt dbAt txNow) →
      Step s (s.move i req (.storing cred appAt dbAt s.dbClock))
  | store {s : State ι} (i : ι) (req : HttpRequest) (cred : Credentials) (appAt dbAt txNow : ℚ)
      (appNow : JsNumber) (t : NonceTable) :
      s.calls i = some (req, .storing cred appAt dbAt txNow) →
      recv.nonceStore.checkAndStore cred.nonce txNow appNow s.nonces = .ok (true, t) →
      Step s ({ s with nonces := t }.move i req (.accepted cred))
  | replay {s : State ι} (i : ι) (req : HttpRequest) (cred : Credentials) (appAt dbAt txNow : ℚ)
      (appNow : JsNumber) (t : NonceTable) :
      s.calls i = some (req, .storing cred appAt dbAt txNow) →
      recv.nonceStore.checkAndStore cred.nonce txNow appNow s.nonces = .ok (false, t) →
      Step s ({ s with nonces := t }.move i req (.replied ⟨401, "replay"⟩))
  /-- The transaction is committed, but its outcome is an error. -/
  | lose {s : State ι} (i : ι) (req : HttpRequest) (cred : Credentials) (appAt dbAt txNow : ℚ)
      (appNow : JsNumber) (fresh : Bool) (t : NonceTable) :
      s.calls i = some (req, .storing cred appAt dbAt txNow) →
      recv.nonceStore.checkAndStore cred.nonce txNow appNow s.nonces = .ok (fresh, t) →
      Step s ({ s with nonces := t }.move i req (.replied ⟨500, "ingest failed"⟩))
  /-- The body ends badly, or something throws. -/
  | fail {s : State ι} (i : ι) (req : HttpRequest) (phase : Phase) (reply : Reply) :
      s.calls i = some (req, phase) → phase.Pending →
      reply ∈ ([⟨408, "body read failed"⟩, ⟨413, "body read failed"⟩, ⟨500, "ingest failed"⟩] :
        List Reply) →
      Step s (s.move i req (.replied reply))

/-- Any number of requests in any order, over a table that may hold nonces already. -/
def receiverSystem (ι : Type) [DecidableEq ι] : System (State ι) where
  init s := ∀ i, s.calls i = none
  next := Step crypto recv

/-- The clocks differ by at most the skew that the store is configured with. -/
def State.InStep (s : State ι) : Prop :=
  |s.appClock - s.dbClock| ≤ recv.nonceStore.maxClockSkewMs.1

/-- A request that becomes accepted is stored within the safety margin of its freshness check, by
    one of the clocks. -/
def Timely (s t : State ι) : Prop :=
  ∀ i req cred appAt dbAt txNow, s.calls i = some (req, .storing cred appAt dbAt txNow) →
    t.calls i = some (req, .accepted cred) →
      s.appClock ≤ appAt + recv.safetyMs.1 ∨ s.dbClock ≤ dbAt + recv.safetyMs.1

/-- The runs in which the clocks stay together and requests are stored in time. -/
def timelySystem (ι : Type) [DecidableEq ι] : System (State ι) :=
  (receiverSystem crypto recv ι).restrict fun s t => s.InStep recv ∧ Timely recv s t

end Receiving

/-! ## The table -/

theorem NonceTable.prune_keeps {t : NonceTable} {nonce : JsString} {expiresAt now : ℚ}
    (h : t nonce = some expiresAt) (hnow : now ≤ expiresAt) :
    t.prune now nonce = some expiresAt := by
  rw [NonceTable.prune, h]
  exact Option.filter_some_pos (decide_eq_true hnow)

/-- A row is inserted only where there is none, and no other row is touched. -/
theorem NonceTable.insert_spec {t t' : NonceTable} {nonce : JsString} {expiresAt : ℚ} {fresh : Bool}
    (h : t.insert nonce expiresAt = (fresh, t')) :
    (fresh = true → t nonce = none ∧ t' nonce = some expiresAt) ∧
      ∀ n e, t n = some e → t' n = some e := by
  cases hrow : t nonce with
  | some e =>
      rw [NonceTable.insert, hrow] at h
      obtain ⟨rfl, rfl⟩ := Prod.mk.inj h
      exact ⟨fun hfresh => (Bool.false_ne_true hfresh).elim, fun n e' he' => he'⟩
  | none =>
      rw [NonceTable.insert, hrow] at h
      obtain ⟨rfl, rfl⟩ := Prod.mk.inj h
      refine ⟨fun _ => ⟨rfl, Function.update_self _ _ _⟩, fun n e he => ?_⟩
      have hne : n ≠ nonce := by
        rintro rfl
        rw [hrow] at he
        cases he
      rw [Function.update_of_ne hne]
      exact he

theorem PgReplayNonceStore.checkAndStore_ok {store : PgReplayNonceStore} {nonce : JsString}
    {now : ℚ} {appNow : JsNumber} {t : NonceTable} {outcome : Bool × NonceTable} :
    store.checkAndStore nonce now appNow t = .ok outcome ↔
      (appNow.isSafeInteger = true ∧ JsNumber.lt (.fin store.maxClockSkewMs.1)
        ((JsNumber.fin (dbMilliseconds now)).sub appNow).abs = false) ∧
      (t.prune now).insert nonce (now + store.retentionMs.1) = outcome := by
  simp only [checkAndStore, bind_eq_ok, ensure_eq_ok, exists_unit, pure_eq_ok]

/-! ## Freshness -/

/-- The instant that a timestamp names. -/
def issued (ts : JsString) : ℚ :=
  (Js.stringToNumber ts).toInt?.getD 0

theorem isFresh_spec {recv : HttpOutboxReceiver} {ts : JsString} {now : ℚ}
    (h : isFresh recv ts (.fin now) = true) : |now - issued ts| ≤ recv.freshnessMs.1 := by
  simp only [isFresh, Bool.and_eq_true, Bool.not_eq_true'] at h
  obtain ⟨⟨hts, hnow⟩, hlt⟩ := h
  obtain ⟨b, hb, -⟩ := (JsNumber.isSafeInteger_iff _).mp hts
  obtain ⟨a, ha, -⟩ := (JsNumber.isSafeInteger_iff _).mp hnow
  obtain rfl : now = a := JsNumber.fin.inj ha
  have hissued : issued ts = b := by
    rw [issued, hb, JsNumber.toInt?_int]
    rfl
  have hf : 1 ≤ recv.freshnessMs.1 ∧ recv.freshnessMs.1 ≤ 9007199254740991 := recv.freshnessMs.2
  have hle : |a - b| ≤ recv.freshnessMs.1 := by
    by_contra hgt
    have hlt' := (JsNumber.lt_abs_sub (a := a) (b := b) (f := recv.freshnessMs.1) (by omega)
      (by omega)).mpr (not_le.mp hgt)
    rw [hb] at hlt
    rw [hlt] at hlt'
    cases hlt'
  rw [hissued]
  exact_mod_cast hle

theorem authenticate_fresh {crypto : NodeCrypto} {recv : HttpOutboxReceiver} {req : HttpRequest}
    {body : Bytes} {resolveRequestKey : JsString → Option Bytes} {now : ℚ} {cred : Credentials}
    (h : authenticate crypto recv req body resolveRequestKey (.fin now) = .ok cred) :
    |now - issued cred.ts| ≤ recv.freshnessMs.1 := by
  simp only [authenticate, bind_eq_ok, require_eq_ok, exists_unit, pure_eq_ok] at h
  obtain ⟨cred', -, secret, -, -, -, hfresh, -, rfl⟩ := h
  exact isFresh_spec hfresh

/-! ## The invariant -/

section Invariant

variable (recv : HttpOutboxReceiver)

/-- The last instant, by the clock of the database, at which a request with this timestamp is
    stored. -/
def lastInstant (ts : JsString) : ℚ :=
  issued ts + recv.freshnessMs.1 + recv.nonceStore.maxClockSkewMs.1 + recv.safetyMs.1

/-- What the freshness check was made on. -/
structure CheckedAt (cred : Credentials) (appAt dbAt : ℚ) : Prop where
  fresh : |appAt - issued cred.ts| ≤ recv.freshnessMs.1
  skew : |appAt - dbAt| ≤ recv.nonceStore.maxClockSkewMs.1

/-- The nonce is in the table for as long as its request could be stored again. -/
def Remembered (s : State ι) (cred : Credentials) : Prop :=
  lastInstant recv cred.ts < s.dbClock ∨
    ∃ expiresAt, s.nonces cred.nonce = some expiresAt ∧ lastInstant recv cred.ts ≤ expiresAt

/-- What is known of a request in each phase. -/
def State.PhaseOk (s : State ι) : Phase → Prop
  | .checked cred appAt dbAt => CheckedAt recv cred appAt dbAt ∧ dbAt ≤ s.dbClock
  | .storing cred appAt dbAt txNow =>
      CheckedAt recv cred appAt dbAt ∧ dbAt ≤ txNow ∧ txNow ≤ s.dbClock
  | .accepted cred => Remembered recv s cred
  | .reading | .replied _ => True

/-- Time goes on, and no row is lost before it expires. -/
structure Later (s t : State ι) : Prop where
  clock : s.dbClock ≤ t.dbClock
  keeps : ∀ nonce expiresAt, s.nonces nonce = some expiresAt → t.dbClock ≤ expiresAt →
    t.nonces nonce = some expiresAt

theorem Remembered.later {s t : State ι} {cred : Credentials} (h : Remembered recv s cred)
    (hlater : Later s t) : Remembered recv t cred := by
  rcases lt_or_ge (lastInstant recv cred.ts) t.dbClock with hover | hopen
  · exact Or.inl hover
  · rcases h with hover | ⟨expiresAt, hrow, hle⟩
    · exact Or.inl (hover.trans_le hlater.clock)
    · exact Or.inr ⟨expiresAt, hlater.keeps _ _ hrow (hopen.trans hle), hle⟩

theorem State.PhaseOk.later {s t : State ι} {phase : Phase} (h : s.PhaseOk recv phase)
    (hlater : Later s t) : t.PhaseOk recv phase := by
  cases phase with
  | reading => trivial
  | replied reply => trivial
  | checked cred appAt dbAt => exact ⟨h.1, h.2.trans hlater.clock⟩
  | storing cred appAt dbAt txNow => exact ⟨h.1, h.2.1, h.2.2.trans hlater.clock⟩
  | accepted cred => exact Remembered.later recv h hlater

/-- A timely request is stored by the last instant. -/
theorem CheckedAt.stored_by {cred : Credentials} {appAt dbAt : ℚ}
    (h : CheckedAt recv cred appAt dbAt) {s : State ι} (hstep : s.InStep recv)
    (htimely : s.appClock ≤ appAt + recv.safetyMs.1 ∨ s.dbClock ≤ dbAt + recv.safetyMs.1) :
    s.dbClock ≤ lastInstant recv cred.ts := by
  obtain ⟨-, hfresh⟩ := abs_le.mp h.fresh
  obtain ⟨hskew, -⟩ := abs_le.mp h.skew
  obtain ⟨hnow, -⟩ := abs_le.mp hstep
  rw [lastInstant]
  rcases htimely with happ | hdb
  · linarith
  · linarith

/-- What is stored under a checked request expires at the last instant or later. -/
theorem CheckedAt.expires {cred : Credentials} {appAt dbAt txNow : ℚ}
    (h : CheckedAt recv cred appAt dbAt) (htx : dbAt ≤ txNow) :
    lastInstant recv cred.ts ≤ txNow + recv.nonceStore.retentionMs.1 := by
  obtain ⟨hfresh, -⟩ := abs_le.mp h.fresh
  obtain ⟨-, hskew⟩ := abs_le.mp h.skew
  have hhorizon : (2 * recv.freshnessMs.1 + recv.safetyMs.1 : ℚ) ≤
      recv.nonceStore.retentionMs.1 - 2 * recv.nonceStore.maxClockSkewMs.1 := by
    exact_mod_cast recv.horizon
  rw [lastInstant]
  linarith

/-- Every request is where its phase says, and a timestamp and a nonce are accepted together once. -/
structure Protected (s : State ι) : Prop where
  phases : ∀ i req phase, s.calls i = some (req, phase) → s.PhaseOk recv phase
  once : ∀ i j req req' cred cred', s.calls i = some (req, .accepted cred) →
    s.calls j = some (req', .accepted cred') → cred.ts = cred'.ts → cred.nonce = cred'.nonce → i = j

variable {recv} {s t : State ι}

theorem later_of_table {nonces : NonceTable}
    (hkeeps : ∀ nonce expiresAt, s.nonces nonce = some expiresAt → s.dbClock ≤ expiresAt →
      nonces nonce = some expiresAt) : Later s { s with nonces := nonces } :=
  ⟨le_rfl, hkeeps⟩

/-- What a transaction leaves behind, whatever becomes of its outcome. -/
theorem later_of_store {nonce : JsString} {txNow : ℚ} {appNow : JsNumber} {fresh : Bool}
    {nonces : NonceTable} (htx : txNow ≤ s.dbClock)
    (h : recv.nonceStore.checkAndStore nonce txNow appNow s.nonces = .ok (fresh, nonces)) :
    Later s { s with nonces := nonces } := by
  have hspec := NonceTable.insert_spec (PgReplayNonceStore.checkAndStore_ok.mp h).2
  exact later_of_table fun n e hrow hnow =>
    hspec.2 n e (NonceTable.prune_keeps hrow (htx.trans hnow))

/-- The nonce of a request that was accepted is not stored again while a request with its timestamp
    can be. -/
theorem Remembered.not_stored {cred cred' : Credentials} {txNow : ℚ} {appNow : JsNumber}
    {nonces : NonceTable} (hrem : Remembered recv s cred') (hts : cred.ts = cred'.ts)
    (hnonce : cred.nonce = cred'.nonce) (hby : s.dbClock ≤ lastInstant recv cred.ts)
    (htx : txNow ≤ s.dbClock) :
    recv.nonceStore.checkAndStore cred.nonce txNow appNow s.nonces ≠ .ok (true, nonces) := by
  intro hstore
  have hspec := NonceTable.insert_spec (PgReplayNonceStore.checkAndStore_ok.mp hstore).2
  obtain ⟨hfree, -⟩ := hspec.1 rfl
  rw [hts] at hby
  rcases hrem with hover | ⟨expiresAt, hrow, hle⟩
  · exact absurd hby (not_le.mpr hover)
  · have hkept := NonceTable.prune_keeps hrow (htx.trans (hby.trans hle))
    rw [hnonce, hkept] at hfree
    cases hfree

theorem Protected.later (h : Protected recv s) (hlater : Later s t) (hcalls : t.calls = s.calls) :
    Protected recv t := by
  constructor
  · intro i req phase hi
    rw [hcalls] at hi
    exact (h.phases i req phase hi).later recv hlater
  · intro i j req req' cred cred' hi hj
    rw [hcalls] at hi hj
    exact h.once i j req req' cred cred' hi hj

variable [DecidableEq ι]

theorem State.move_calls {i j : ι} {req req' : HttpRequest} {phase phase' : Phase}
    (h : (s.move i req phase).calls j = some (req', phase')) :
    j = i ∧ req' = req ∧ phase' = phase ∨ j ≠ i ∧ s.calls j = some (req', phase') := by
  by_cases hj : j = i
  · subst hj
    obtain ⟨rfl, rfl⟩ := Prod.mk.inj (Option.some.inj ((Function.update_self j _ s.calls).symm.trans h))
    exact Or.inl ⟨rfl, rfl, rfl⟩
  · exact Or.inr ⟨hj, (Function.update_of_ne hj _ s.calls).symm.trans h⟩

/-- A request moves on to a phase that is as it says, and is accepted only as the first. -/
theorem Protected.move (h : Protected recv s) {i : ι} {req : HttpRequest} {phase : Phase}
    (hphase : s.PhaseOk recv phase)
    (hfirst : ∀ cred, phase = .accepted cred → ∀ j req' cred', j ≠ i →
      s.calls j = some (req', .accepted cred') → cred.ts = cred'.ts → cred.nonce ≠ cred'.nonce) :
    Protected recv (s.move i req phase) := by
  constructor
  · intro j req' phase' hj
    rcases State.move_calls hj with ⟨-, -, rfl⟩ | ⟨-, hj⟩
    · cases phase' <;> exact hphase
    · have hok := h.phases j req' phase' hj
      cases phase' <;> exact hok
  · intro j k req₁ req₂ cred cred' hj hk hts hnonce
    rcases State.move_calls hj with ⟨hji, -, hacc⟩ | ⟨hji, hj'⟩
    · rcases State.move_calls hk with ⟨hki, -, -⟩ | ⟨hki, hk'⟩
      · exact hji.trans hki.symm
      · exact absurd hnonce (hfirst cred hacc.symm k req₂ cred' hki hk' hts)
    · rcases State.move_calls hk with ⟨-, -, hacc⟩ | ⟨-, hk'⟩
      · exact absurd hnonce.symm (hfirst cred' hacc.symm j req₁ cred hji hj' hts.symm)
      · exact h.once j k req₁ req₂ cred cred' hj' hk' hts hnonce

/-- A request that is not accepted by moving on has nothing to be the first of. -/
theorem Protected.move_on (h : Protected recv s) {i : ι} {req : HttpRequest} {phase : Phase}
    (hphase : s.PhaseOk recv phase) (hnot : ∀ cred, phase ≠ .accepted cred) :
    Protected recv (s.move i req phase) :=
  h.move hphase fun cred hacc => absurd hacc (hnot cred)

/-- An answer leaves the table as its transaction left it. -/
theorem Protected.reply (h : Protected recv s) (i : ι) (req : HttpRequest) (reply : Reply) :
    Protected recv (s.move i req (.replied reply)) :=
  h.move_on trivial (fun _ h => nomatch h)

theorem Protected.step {crypto : NodeCrypto} (h : Protected recv s) (hstep : s.InStep recv)
    (htimely : Timely recv s t) (hnext : Step crypto recv s t) : Protected recv t := by
  cases hnext with
  | tick app db hle => exact h.later ⟨hle, fun _ _ hrow _ => hrow⟩ rfl
  | prune now hnow =>
      have hlater : Later s { s with nonces := s.nonces.prune now } :=
        later_of_table fun _ _ hrow hle => NonceTable.prune_keeps hrow (hnow.trans hle)
      exact h.later hlater rfl
  | start i req hi hbefore => exact h.move_on trivial (fun _ h => nomatch h)
  | refuse i req reply hi hbefore => exact h.reply i req reply
  | check i req body resolveRequestKey cred hi hauth =>
      refine h.move_on ?_ (fun _ h => nomatch h)
      exact ⟨⟨authenticate_fresh hauth, hstep⟩, le_rfl⟩
  | reject i req body resolveRequestKey reply hi hauth => exact h.reply i req reply
  | transact i req cred appAt dbAt hi =>
      obtain ⟨hchecked, hle⟩ := h.phases _ _ _ hi
      exact h.move_on ⟨hchecked, hle, le_rfl⟩ (fun _ h => nomatch h)
  | retry i req cred appAt dbAt txNow hi =>
      obtain ⟨hchecked, hle, hle'⟩ := h.phases _ _ _ hi
      exact h.move_on ⟨hchecked, hle.trans hle', le_rfl⟩ (fun _ h => nomatch h)
  | replay i req cred appAt dbAt txNow appNow nonces hi hstore =>
      obtain ⟨-, -, htx⟩ := h.phases _ _ _ hi
      exact (h.later (later_of_store htx hstore) rfl).reply i req _
  | lose i req cred appAt dbAt txNow appNow fresh nonces hi hstore =>
      obtain ⟨-, -, htx⟩ := h.phases _ _ _ hi
      exact (h.later (later_of_store htx hstore) rfl).reply i req _
  | fail i req phase reply hi hpending hreply => exact h.reply i req reply
  | store i req cred appAt dbAt txNow appNow nonces hi hstore =>
      obtain ⟨hchecked, hle, htx⟩ := h.phases _ _ _ hi
      have hby := hchecked.stored_by recv hstep
        (htimely i req cred appAt dbAt txNow hi (Function.update_self _ _ _))
      have hspec := NonceTable.insert_spec (PgReplayNonceStore.checkAndStore_ok.mp hstore).2
      refine (h.later (later_of_store htx hstore) rfl).move ?_ ?_
      · exact Or.inr ⟨_, (hspec.1 rfl).2, hchecked.expires recv hle⟩
      · -- another request with this timestamp and nonce has its row in the table still
        rintro _ ⟨⟩ j req' cred' - hj hts hnonce
        exact Remembered.not_stored (h.phases _ _ _ hj) hts hnonce hby htx hstore

end Invariant

/-! ## Every run -/

variable [DecidableEq ι] {crypto : NodeCrypto} {recv : HttpOutboxReceiver}

theorem protected_of_reachable {s : State ι} (h : Reachable (timelySystem crypto recv ι) s) :
    Protected recv s := by
  refine Reachable.invariant (I := Protected recv) ?_ ?_ h
  · intro s hinit
    have hnone : ∀ i, s.calls i = none := hinit
    constructor
    · intro i req phase hi
      rw [hnone] at hi
      cases hi
    · intro i j req req' cred cred' hi
      rw [hnone] at hi
      cases hi
  · rintro s t - hprotected ⟨hnext, hstep, htimely⟩
    exact hprotected.step hstep htimely hnext

/-- **Replay protection.** While the clocks stay within the skew and requests are stored in time, of
    the requests with one timestamp and one nonce only one is accepted. -/
theorem accepted_once {s : State ι} (h : Reachable (timelySystem crypto recv ι) s) {i j : ι}
    {req req' : HttpRequest} {cred cred' : Credentials} (hi : s.calls i = some (req, .accepted cred))
    (hj : s.calls j = some (req', .accepted cred')) (hts : cred.ts = cred'.ts)
    (hnonce : cred.nonce = cred'.nonce) : i = j :=
  (protected_of_reachable h).once i j req req' cred cred' hi hj hts hnonce

/-! ## A request that is sent twice -/

def sampleSecret : Bytes := List.replicate 32 0x6b

def sampleBody : Bytes := [0x7b, 0x7d]

def sampleDigest : JsString :=
  Js.lit "44136fa355b3678a1146ad16f7e8649e" ++ Js.lit "94fb4fc21fe77e8310c060f61caaff8a"

def sampleMac : Bytes :=
  [119, 94, 32, 186, 32, 111, 166, 36, 248, 69, 16, 196, 30, 233, 248, 194, 154, 113, 32, 30, 168,
    27, 6, 6, 110, 53, 254, 195, 183, 14, 211, 136]

def sampleOptions : HttpOutboxReceiverOptions where
  expectedPath := Js.lit "/outbox"
  responseKeyId := Js.lit "r1"
  responseSecret := sampleSecret
  nonceStore := (PgReplayNonceStore.new ⟨none, none⟩).toOption
  freshnessMs := none
  nonceSafetyMs := none
  maxBodyBytes := none
  bodyReadMs := none

def sampleRequest : HttpRequest where
  method := Js.lit "POST"
  url := some (Js.lit "/outbox")
  contentType := some (Js.lit "application/json")
  headers
    | "x-bpc-key-id" => some (.text (Js.lit "k1"))
    | "x-bpc-timestamp" => some (.text (Js.lit "1000"))
    | "x-bpc-nonce" => some (.text (Js.lit "nonce-0123456789"))
    | "x-bpc-signature" =>
        some (.text (Js.lit "d14guiBvpiT4RRDEHun4w" ++ Js.lit "ppxIB6oGwYGbjX-w7cO04g"))
    | _ => none

def sampleCredentials : Credentials where
  keyId := Js.lit "k1"
  ts := Js.lit "1000"
  nonce := Js.lit "nonce-0123456789"
  sig := Js.lit "d14guiBvpiT4RRDEHun4w" ++ Js.lit "ppxIB6oGwYGbjX-w7cO04g"

/-- SHA-256 and HMAC-SHA256, where the sample reads them. -/
def sampleCrypto : NodeCrypto where
  sha256hex body := if body = sampleBody then sampleDigest else []
  hmac key message :=
    if key = sampleSecret ∧ message = frame [Js.lit "BPCv1-req", Js.lit "k1", Js.lit "POST",
        Js.lit "/outbox", Js.lit "1000", Js.lit "nonce-0123456789", sampleDigest] then sampleMac
    else []

theorem create_sample : (createHttpOutboxReceiver sampleOptions).isOk = true := by
  decide +kernel

def sampleReceiver : HttpOutboxReceiver :=
  result (createHttpOutboxReceiver sampleOptions) create_sample

/-- One second. -/
def sampleNow : ℚ :=
  (1000 : ℤ)

theorem authenticate_sample :
    authenticate sampleCrypto sampleReceiver sampleRequest sampleBody (fun _ => some sampleSecret)
      (.fin sampleNow) = .ok sampleCredentials := by
  decide +kernel

/-- An empty table, and both clocks at one second. -/
def sampleStart : State ℕ where
  nonces _ := none
  appClock := sampleNow
  dbClock := sampleNow
  calls _ := none

theorem inStep_sample : sampleStart.InStep sampleReceiver := by
  rw [State.InStep, sampleStart, sub_self, abs_zero]
  decide +kernel

theorem skew_sample : (JsNumber.fin sampleNow).isSafeInteger = true ∧
    JsNumber.lt (.fin sampleReceiver.nonceStore.maxClockSkewMs.1)
      ((JsNumber.fin (dbMilliseconds sampleNow)).sub (.fin sampleNow)).abs = false := by
  decide +kernel

/-- A step that accepts nothing, with the clocks together. -/
theorem reaches_move {s t : State ι} (h : Reachable (timelySystem crypto recv ι) s) {i : ι}
    {req : HttpRequest} {phase : Phase} (hnext : Step crypto recv s (t.move i req phase))
    (hstep : s.InStep recv) (hcalls : t.calls = s.calls) (hnot : ∀ cred, phase ≠ .accepted cred) :
    Reachable (timelySystem crypto recv ι) (t.move i req phase) := by
  refine h.next ⟨hnext, hstep, ?_⟩
  intro j req' cred appAt dbAt txNow hj hacc
  rcases State.move_calls hacc with ⟨-, -, rfl⟩ | ⟨-, hacc⟩
  · exact absurd rfl (hnot cred)
  · rw [hcalls, hj] at hacc
    cases hacc

/-- The table with the nonce of the sample. -/
def sampleTable : NonceTable :=
  Function.update (fun _ => none) sampleCredentials.nonce
    (some (sampleNow + sampleReceiver.nonceStore.retentionMs.1))

/-- In its transaction, of a request that is checked and stored in the same instant. -/
def sampleStoring : Phase :=
  .storing sampleCredentials sampleNow sampleNow sampleNow

/-- A request comes as far as its transaction. -/
theorem reaches_storing {s : State ℕ}
    (h : Reachable (timelySystem sampleCrypto sampleReceiver ℕ) s) (happ : s.appClock = sampleNow)
    (hdb : s.dbClock = sampleNow) {i : ℕ} (hi : s.calls i = none) :
    Reachable (timelySystem sampleCrypto sampleReceiver ℕ)
      (s.move i sampleRequest sampleStoring) := by
  obtain ⟨nonces, app, db, calls⟩ := s
  subst happ hdb
  have hstep : State.InStep sampleReceiver ⟨nonces, sampleNow, sampleNow, calls⟩ := inStep_sample
  have hreading := reaches_move h (.start i sampleRequest hi (by decide +kernel)) hstep rfl
    (fun _ h => nomatch h)
  have hchecked := reaches_move hreading (.check i sampleRequest sampleBody
    (fun _ => some sampleSecret) sampleCredentials (Function.update_self _ _ _)
    authenticate_sample) hstep rfl (fun _ h => nomatch h)
  have hstoring := reaches_move hchecked (.transact i sampleRequest sampleCredentials _ _
    (Function.update_self _ _ _)) hstep rfl (fun _ h => nomatch h)
  simp only [State.move, Function.update_idem] at hstoring
  exact hstoring

/-- The first time, the request is accepted. -/
def sampleAccepted : State ℕ :=
  { sampleStart with nonces := sampleTable }.move 0 sampleRequest (.accepted sampleCredentials)

theorem reaches_accepted :
    Reachable (timelySystem sampleCrypto sampleReceiver ℕ) sampleAccepted := by
  have h₀ : Reachable (timelySystem sampleCrypto sampleReceiver ℕ) sampleStart :=
    .init fun _ => rfl
  have h₁ := reaches_storing h₀ rfl rfl (i := 0) rfl
  have hnext : Step sampleCrypto sampleReceiver (sampleStart.move 0 sampleRequest sampleStoring)
      ({ sampleStart.move 0 sampleRequest sampleStoring with nonces := sampleTable }.move 0
        sampleRequest (.accepted sampleCredentials)) :=
    .store 0 sampleRequest sampleCredentials _ _ sampleNow (.fin sampleNow) sampleTable rfl
      (PgReplayNonceStore.checkAndStore_ok.mpr ⟨skew_sample, rfl⟩)
  have htimely : Timely sampleReceiver (sampleStart.move 0 sampleRequest sampleStoring)
      ({ sampleStart.move 0 sampleRequest sampleStoring with nonces := sampleTable }.move 0
        sampleRequest (.accepted sampleCredentials)) := by
    intro j req cred appAt dbAt txNow hj _
    rcases State.move_calls hj with ⟨-, -, hphase⟩ | ⟨-, hj⟩
    · obtain ⟨-, rfl, -, -⟩ := Phase.storing.inj hphase
      have hsafety : (0 : ℚ) ≤ sampleReceiver.safetyMs.1 := by
        have hpos := sampleReceiver.safetyMs.2.1
        exact_mod_cast (by omega : 0 ≤ sampleReceiver.safetyMs.1)
      exact Or.inl (le_add_of_nonneg_right hsafety)
    · cases hj
  have hstored := h₁.next ⟨hnext, inStep_sample, htimely⟩
  simp only [State.move, Function.update_idem] at hstored
  exact hstored

/-- The second time, it is answered as a replay. -/
def sampleReplayed : State ℕ :=
  { sampleAccepted with nonces := sampleTable.prune sampleNow }.move 1 sampleRequest
    (.replied ⟨401, "replay"⟩)

theorem insert_sample :
    (sampleTable.prune sampleNow).insert sampleCredentials.nonce
        (sampleNow + sampleReceiver.nonceStore.retentionMs.1) =
      (false, sampleTable.prune sampleNow) := by
  have hrow : sampleTable sampleCredentials.nonce =
      some (sampleNow + sampleReceiver.nonceStore.retentionMs.1) := Function.update_self _ _ _
  rw [NonceTable.insert, NonceTable.prune_keeps hrow (by decide +kernel)]
  rfl

theorem reaches_replayed :
    Reachable (timelySystem sampleCrypto sampleReceiver ℕ) sampleReplayed := by
  have h₁ := reaches_storing reaches_accepted rfl rfl (i := 1) rfl
  have hnext : Step sampleCrypto sampleReceiver (sampleAccepted.move 1 sampleRequest sampleStoring)
      ({ sampleAccepted.move 1 sampleRequest sampleStoring with
          nonces := sampleTable.prune sampleNow }.move 1 sampleRequest
        (.replied ⟨401, "replay"⟩)) :=
    .replay 1 sampleRequest sampleCredentials sampleNow sampleNow sampleNow (.fin sampleNow) _ rfl
      (PgReplayNonceStore.checkAndStore_ok.mpr ⟨skew_sample, insert_sample⟩)
  have hreplied := reaches_move h₁ hnext inStep_sample rfl (fun _ h => nomatch h)
  simp only [State.move, Function.update_idem] at hreplied
  exact hreplied

theorem accepted_once_replayed :
    Reachable (timelySystem sampleCrypto sampleReceiver ℕ) sampleReplayed ∧
      sampleReplayed.calls 0 = some (sampleRequest, .accepted sampleCredentials) ∧
      ∀ i req cred, sampleReplayed.calls i = some (req, .accepted cred) →
        cred.ts = sampleCredentials.ts → cred.nonce = sampleCredentials.nonce → i = 0 := by
  refine ⟨reaches_replayed, rfl, fun i req cred hi hts hnonce => ?_⟩
  have hfirst : sampleReplayed.calls 0 = some (sampleRequest, .accepted sampleCredentials) := rfl
  exact accepted_once reaches_replayed hi hfirst hts hnonce

end Transport
