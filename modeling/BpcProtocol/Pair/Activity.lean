import BpcProtocol.Js.Rounding
import BpcProtocol.Pair.Lifecycle

set_option autoImplicit false

/-! # Histories of calls

Calls of the registry that are answered one after another, each at its own reading of the clock, and
what a failed verification leaves of the pair and of the tracker of source addresses. -/

namespace Pair

open Fallible Async

/-! ## Calls in order -/

/-- A call, and the clock while it is answered. -/
structure TimedCall where
  now : ℤ
  request : ServerRequest

section Answered

variable (registry : RegistryConfig) (crypto : Crypto)

/-- The state once a call has been answered that no other interrupts. -/
def ServerState.answered (s : ServerState) (c : TimedCall) : ServerState :=
  ((c.request.program registry).drive (ServerState.perform crypto) 0 { s with now := c.now } []).2.1

/-- The state once the calls have been answered, one after another. -/
def ServerState.answeredAll (s : ServerState) (calls : List TimedCall) : ServerState :=
  calls.foldl (ServerState.answered registry crypto) s

theorem ServerState.answeredAll_cons (s : ServerState) (c : TimedCall) (calls : List TimedCall) :
    s.answeredAll registry crypto (c :: calls) =
      (s.answered registry crypto c).answeredAll registry crypto calls :=
  rfl

theorem ServerState.answeredAll_append (s : ServerState) (calls calls' : List TimedCall) :
    s.answeredAll registry crypto (calls ++ calls') =
      (s.answeredAll registry crypto calls).answeredAll registry crypto calls' :=
  List.foldl_append

variable {registry crypto}

/-- What every operation of a program keeps, the program keeps. -/
theorem drive_keeps {P : ServerOp → Prop} {I : ServerState → Prop}
    (hI : ∀ s o, P o → I s → I (s.perform crypto o).2) {α : Type} {p : ServerProg α}
    (hp : p.Uses P) {s : ServerState} (hs : I s) (i : ℕ)
    (log : List (Entry ℕ ServerOp ServerOp.Answer ServerState)) :
    I (p.drive (ServerState.perform crypto) i s log).2.1 := by
  induction p generalizing s log with
  | ret a => exact hs
  | fail e => exact hs
  | await o k ih => exact ih _ (hp.2 _) (hI s o hp.1 hs) _

/-- **A history is a run of the service.** -/
theorem ServerConfig.run_answeredAll {cfg : ServerConfig ℕ} {n : ℕ}
    (hfree : ∀ i, n ≤ i → cfg.calls i = none) (calls : List TimedCall) :
    ∃ cfg' : ServerConfig ℕ, Transition.Run ((serverService registry crypto).system ℕ) cfg cfg' ∧
      cfg'.shared = cfg.shared.answeredAll registry crypto calls ∧
        ∀ i, n + calls.length ≤ i → cfg'.calls i = none := by
  induction calls generalizing cfg n with
  | nil => exact ⟨cfg, .refl, rfl, hfree⟩
  | cons c calls ih =>
      -- the clock is set, and the call is served
      set cfg₁ : ServerConfig ℕ := { cfg with shared := { cfg.shared with now := c.now } } with h₁
      have htick : Transition.Run ((serverService registry crypto).system ℕ) cfg cfg₁ :=
        .single (.env _ ⟨c.now, rfl⟩)
      have hserved := @ServerConfig.run_serve registry crypto cfg₁ n hfree [c.request]
      have hfree' := @ServerConfig.serve_free registry crypto cfg₁ n hfree [c.request]
      obtain ⟨cfg', hrun, hshared, hrest⟩ := ih hfree'
      refine ⟨cfg', htick.trans (hserved.trans hrun), ?_, fun i hi => hrest i ?_⟩
      · rw [hshared, ServerState.answeredAll_cons]
        congr 1
        exact (Prog.drive_unlogged _ _ _ _ _ _ _).2
      · simpa [Nat.add_assoc, Nat.add_comm, Nat.add_left_comm] using hi

end Answered

/-! ## Failed verifications -/

/-- `${pairId}:${ip}`. -/
def ipKey (pairId ip : JsString) : JsString :=
  pairId ++ Js.lit ":" ++ ip

/-- The tracker behind a failed verification, with the count of the source address if there is
    one. -/
def countFailure (tracker : IpFailureTracker) (pairId ip : JsString) (now : JsNumber) :
    Option JsNumber × IpFailureTracker :=
  let fresh := evictStaleIpEntries tracker now
  if ip = [] then (none, fresh)
  else
    let counted := trackIpFailure fresh (ipKey pairId ip) now
    (some counted.1, counted.2)

/-- The call that records a failed verification. -/
def failedAt (pairId ip : JsString) (now : ℤ) : TimedCall :=
  ⟨now, .recordActivity pairId false ip⟩

/-! ### The tracker -/

section Tracker

variable {tracker : IpFailureTracker} {now : JsNumber}

theorem ipKey_inj {pairId ip ip' : JsString} : ipKey pairId ip = ipKey pairId ip' ↔ ip = ip' :=
  List.append_right_inj (pairId ++ Js.lit ":")

theorem evictStaleIpEntries_get (key : JsString) :
    (evictStaleIpEntries tracker now).get key =
      (tracker.get key).filter fun entry => !entry.stale now :=
  tracker.get_filter _ key

theorem countFailure_nil {pairId ip : JsString} (hip : ip = []) :
    countFailure tracker pairId ip now = (none, evictStaleIpEntries tracker now) := by
  simp only [countFailure, if_pos hip]

theorem countFailure_of_ip {pairId ip : JsString} (hip : ip ≠ []) :
    countFailure tracker pairId ip now =
      (some (trackIpFailure (evictStaleIpEntries tracker now) (ipKey pairId ip) now).1,
        (trackIpFailure (evictStaleIpEntries tracker now) (ipKey pairId ip) now).2) := by
  simp only [countFailure, if_neg hip]

/-- An entry is stale more than five minutes after its window began. -/
theorem stale_iff (count : JsNumber) (start now : ℤ) :
    (IpFailures.mk count (.fin start)).stale (.fin now) = decide (start + 300000 < now) := by
  have hsub : (JsNumber.fin now).sub (.fin start) = Js.ofRat ((now - start : ℤ) : ℚ) := by
    show Js.ofRat ((now : ℚ) + -(start : ℚ)) = _
    push_cast
    rw [sub_eq_add_neg]
  show ipFailureWindowMs.lt ((JsNumber.fin now).sub (.fin start)) = _
  rw [hsub]
  by_cases hlate : start + 300000 < now
  · have hle : JsNumber.Le (Js.ofRat ((300001 : ℤ) : ℚ)) (Js.ofRat ((now - start : ℤ) : ℚ)) :=
      JsNumber.le_ofRat (by exact_mod_cast (by omega : (300001 : ℤ) ≤ now - start))
    rw [Js.ofRat_intCast (n := 300001) (by decide)] at hle
    rw [decide_eq_true hlate]
    exact JsNumber.lt_trans_le (by decide +kernel) hle
  · have hle : JsNumber.Le (Js.ofRat ((now - start : ℤ) : ℚ)) (Js.ofRat ((300000 : ℤ) : ℚ)) :=
      JsNumber.le_ofRat (by exact_mod_cast (by omega : now - start ≤ (300000 : ℤ)))
    rw [Js.ofRat_intCast (n := 300000) (by decide), Int.cast_ofNat] at hle
    rw [decide_eq_false hlate]
    exact hle.lt_eq_false

/-- An entry that was evicted would have begun anew. -/
theorem nextIpFailures_filter (entry : Option IpFailures) :
    nextIpFailures (entry.filter fun e => !e.stale now) now = nextIpFailures entry now := by
  cases entry with
  | none => rfl
  | some e =>
      by_cases hstale : e.stale now = true
      · simp [Option.filter_some, nextIpFailures, hstale]
      · simp [Option.filter_some, hstale]

theorem countFailure_self {pairId ip : JsString} (hip : ip ≠ []) :
    (countFailure tracker pairId ip now).1 =
        some (nextIpFailures (tracker.get (ipKey pairId ip)) now).count ∧
      (countFailure tracker pairId ip now).2.get (ipKey pairId ip) =
        some (nextIpFailures (tracker.get (ipKey pairId ip)) now) := by
  simp only [countFailure, if_neg hip, trackIpFailure, OrderedMap.get_set_self,
    evictStaleIpEntries_get, nextIpFailures_filter, and_self]

/-- The entry of any other key stays, or is evicted. -/
theorem countFailure_of_ne {pairId ip key : JsString} (hkey : key ≠ ipKey pairId ip) :
    (countFailure tracker pairId ip now).2.get key =
      (tracker.get key).filter fun entry => !entry.stale now := by
  unfold countFailure
  split
  · exact evictStaleIpEntries_get key
  · simp only [trackIpFailure, OrderedMap.get_set_of_ne _ hkey, evictStaleIpEntries_get]

/-- An entry behind a failed verification is that of its address, or was there before. -/
theorem countFailure_entry {pairId ip key : JsString} {entry : IpFailures}
    (h : (countFailure tracker pairId ip now).2.get key = some entry) :
    ip ≠ [] ∧ key = ipKey pairId ip ∧ entry = nextIpFailures (tracker.get key) now ∨
      tracker.get key = some entry := by
  by_cases hip : ip = []
  · rw [countFailure_nil hip, evictStaleIpEntries_get] at h
    exact Or.inr (Option.filter_eq_some_iff.mp h).1
  · by_cases hkey : key = ipKey pairId ip
    · subst hkey
      rw [(countFailure_self hip).2] at h
      exact Or.inl ⟨hip, rfl, (Option.some.inj h).symm⟩
    · rw [countFailure_of_ne hkey] at h
      exact Or.inr (Option.filter_eq_some_iff.mp h).1

end Tracker

/-! ### The score -/

/-- The windows that a failure at `now` decays the score by, where the cycle has begun. -/
def elapsedWindows (p : StoredPair) (now : JsNumber) : JsNumber :=
  windowsElapsed ((p.firstFailureAt.getD none).getD now) now

/-- The score that a failure at `now` is added to. -/
def decayedScore (p : StoredPair) (now : JsNumber) : JsNumber :=
  if (JsNumber.fin 0).lt (elapsedWindows p now) then
    (p.cumulativeFailures.getD (.fin 0)).div (elapsedWindows p now).twoPow
  else p.cumulativeFailures.getD (.fin 0)

/-- Where the cycle of a failure at `now` has begun. -/
def cycleStart (p : StoredPair) (now : JsNumber) : JsNumber :=
  if (JsNumber.fin 0).lt (elapsedWindows p now) then now
  else (p.firstFailureAt.getD none).getD now

/-- The failures of this window that the pair is given, of the source address or of all. -/
def windowFailures (p : StoredPair) (count : Option JsNumber) : JsNumber :=
  count.getD p.failedSigs.incr

/-- A failed verification reaches one of the two limits. -/
def ReachesLimit (p : StoredPair) (count : Option JsNumber) (lockoutCount now : JsNumber) : Prop :=
  (windowFailures p count).ge lockoutCount = true ∨
    (decayedScore p now).incr.ge (lockoutCount.mulNat 2) = true

section Score

variable {p : StoredPair} {count : Option JsNumber} {lockoutCount now : JsNumber}

/-- **What a failed verification leaves of a pair.** -/
theorem recordFailure_record :
    (recordFailure p count lockoutCount now).failedSigs = windowFailures p count ∧
      (recordFailure p count lockoutCount now).cumulativeFailures =
        some (decayedScore p now).incr ∧
      (recordFailure p count lockoutCount now).firstFailureAt = some (some (cycleStart p now)) := by
  unfold recordFailure lockAtThreshold
  split <;> exact ⟨rfl, rfl, rfl⟩

theorem recordFailure_locks (h : p.status = .active) :
    (recordFailure p count lockoutCount now).status = .locked ↔
      ReachesLimit p count lockoutCount now := by
  unfold recordFailure lockAtThreshold
  split
  · next hreached => exact ⟨fun _ => hreached.2, fun _ => rfl⟩
  · next hnot =>
      have hstatus : (applyCumulativeDecay { p with failedSigs := count.getD p.failedSigs.incr }
          now).status = .active := h
      constructor
      · intro hlocked
        rw [hstatus] at hlocked
        cases hlocked
      · intro hreached
        exact absurd ⟨hstatus, hreached⟩ hnot

theorem recordFailure_status_of_ne (h : p.status ≠ .active) :
    (recordFailure p count lockoutCount now).status = p.status := by
  rcases recordFailure_status p count lockoutCount now with hsame | ⟨hactive, -⟩
  · exact hsame
  · exact absurd hactive h

end Score

/-- Readings of the clock, in order, see no fewer windows elapsed. -/
theorem windowsElapsed_mono (start : ℚ) {m n : ℤ} (h : m ≤ n) :
    JsNumber.Le (windowsElapsed (.fin start) (.fin m)) (windowsElapsed (.fin start) (.fin n)) := by
  have hsub : JsNumber.Le ((JsNumber.fin m).sub (.fin start)) ((JsNumber.fin n).sub (.fin start)) :=
    JsNumber.le_add_fin _ ((JsNumber.le_fin _ _).mpr (by exact_mod_cast h))
  exact JsNumber.le_floor (JsNumber.le_div_fin (by norm_num) hsub)

/-- Within five minutes of its start no cycle has decayed. -/
theorem windowsElapsed_within {start now : ℤ} (h : now < start + 300000) :
    (JsNumber.fin 0).lt (windowsElapsed (.fin start) (.fin now)) = false := by
  have hlast : windowsElapsed (.fin (start : ℤ)) (.fin ((start + 299999 : ℤ) : ℚ)) = .fin 0 := by
    have hsub : (JsNumber.fin ((start + 299999 : ℤ) : ℚ)).sub (.fin (start : ℤ)) = .fin 299999 := by
      have hdiff : ((start + 299999 : ℤ) : ℚ) + -(start : ℤ) = ((299999 : ℤ) : ℚ) := by
        push_cast
        ring
      show Js.ofRat _ = _
      rw [hdiff, Js.ofRat_intCast (by decide)]
      norm_num
    unfold windowsElapsed
    rw [hsub]
    decide +kernel
  have hle := windowsElapsed_mono (start : ℤ) (show now ≤ start + 299999 by omega)
  rw [hlast] at hle
  exact hle.lt_eq_false

/-! ### The pair -/

section Failures

variable {registry : RegistryConfig} {crypto : Crypto} {s : ServerState} {pairId ip : JsString}
  {now : ℤ}

/-- Nothing behind the mutation of the store touches the state. -/
theorem drive_settled {α : Type} (x : Except ServerError α) (result : ServerResult) (t : ServerState)
    (log : List (Entry ℕ ServerOp ServerOp.Answer ServerState)) :
    (((Prog.lift x >>= fun _ => (pure () : ServerProg Unit)) >>= fun _ =>
      (pure result : ServerProg ServerResult)).drive (ServerState.perform crypto) 0 t log).2.1 =
      t := by
  cases x <;> rfl

theorem answered_failedAt :
    s.answered registry crypto (failedAt pairId ip now) =
      { store := (s.store.run (.atomicMutate pairId (.recordFailure
          (countFailure s.tracker pairId ip (.fin now)).1 registry.lockoutCount (.fin now)))).2
        tracker := (countFailure s.tracker pairId ip (.fin now)).2
        now := now } := by
  have hfalse : ¬(false = true) := Bool.false_ne_true
  by_cases hip : ip = []
  · rw [countFailure_nil hip]
    simp only [ServerState.answered, failedAt, ServerRequest.program, recordActivity,
      recordFailedActivity, countIpFailure, if_pos hip, if_neg hfalse]
    exact drive_settled _ _ _ _
  · rw [countFailure_of_ip hip]
    simp only [ServerState.answered, failedAt, ServerRequest.program, recordActivity,
      recordFailedActivity, countIpFailure, if_neg hip, if_neg hfalse]
    exact drive_settled _ _ _ _

theorem run_recordFailure {store : MemoryPairStore} {p : StoredPair}
    (hp : store.pairs.get pairId = some p) (hid : p.id = pairId) (count : Option JsNumber)
    (lockoutCount now : JsNumber) :
    (store.run (.atomicMutate pairId (.recordFailure count lockoutCount now))).2 =
      store.setPair pairId (recordFailure p count lockoutCount now) := by
  have hkeeps : (recordFailure p count lockoutCount now).id = pairId :=
    (recordFailure_id p count lockoutCount now).trans hid
  simp [MemoryPairStore.run, MemoryPairStore.atomicMutate, hp, PairMutation.apply,
    MemoryPairStore.commitMutation, settle, ensure, require, hkeeps]

end Failures

end Pair
