import BpcProtocol.Pair.Allowance

set_option autoImplicit false

/-! # The slow drip

An address that fails one time less than the limit in every five minutes never brings the score of a
pair to its threshold. It is locked all the same: a window of the tracker lasts a millisecond longer
than five minutes, so the windows of the tracker fall behind those of the schedule, and one of them
comes to hold a failure more than the address may make. -/

namespace Pair

open Fallible Async JsNumber

/-! ## Schedules -/

/-- The clock before the failure `i`. -/
def clockBefore (start : ℤ) (time : ℕ → ℤ) : ℕ → ℤ
  | 0 => start
  | i + 1 => time i

/-- One address fails `limit - 1` times in each five minutes from `start` on, for ever. Before each of
    its failures other verifications may fail, of any pair and from any address. -/
structure SlowDrip (limit : ℕ) (pairId ip : JsString) where
  start : ℤ
  time : ℕ → ℤ
  others : ℕ → List TimedCall
  failures : ∀ i, ∀ c ∈ others i, ∃ id ip' now, c = failedAt id ip' now
  windows : ∀ i : ℕ, start + ((i / (limit - 1) : ℕ) : ℤ) * 300000 ≤ time i ∧
    time i < start + (((i / (limit - 1) : ℕ) : ℤ) + 1) * 300000
  ordered : ∀ i, InOrder (clockBefore start time i) (others i ++ [failedAt pairId ip (time i)])

/-- The calls of the schedule up to the failure `n` of the address. -/
def SlowDrip.calls {limit : ℕ} {pairId ip : JsString} (d : SlowDrip limit pairId ip) (n : ℕ) :
    List TimedCall :=
  (List.range n).flatMap fun i => d.others i ++ [failedAt pairId ip (d.time i)]

theorem SlowDrip.calls_succ {limit : ℕ} {pairId ip : JsString} (d : SlowDrip limit pairId ip)
    (n : ℕ) :
    d.calls (n + 1) = d.calls n ++ (d.others n ++ [failedAt pairId ip (d.time n)]) := by
  unfold SlowDrip.calls
  rw [List.range_succ, List.flatMap_append, List.flatMap_cons, List.flatMap_nil, List.append_nil]

/-- What the tracker holds of an address: a number of failures, and a reading of the clock. -/
def Tracked (entry : Option IpFailures) : Prop :=
  ∀ e, entry = some e → ∃ (k : ℕ) (n : ℤ), e = ⟨counted k, .fin (n : ℤ)⟩

/-! ## How far the windows have fallen behind -/

/-- The address has failed `i` times: at most `limit - 1` times in each of `j` windows of the tracker
    that are over, and `own` times in the one that lasts. The window `j` began no sooner than the
    windows before it take. -/
def Dripped (limit : ℕ) (start : ℤ) (i : ℕ) (clock : ℤ) (entry : Option IpFailures) : Prop :=
  ∃ j own : ℕ, i ≤ j * (limit - 1) + own ∧ own ≤ limit - 1 ∧
    (entry = none ∧ own = 0 ∧ (j = 0 ∨ start + ((j : ℤ) - 1) * 300001 ≤ clock) ∨
      ∃ (k : ℕ) (n : ℤ), entry = some ⟨counted k, .fin (n : ℤ)⟩ ∧ own ≤ k ∧
        (j = 0 ∨ start + ((j : ℤ) - 1) * 300001 ≤ n ∧ n ≤ clock))

section Dripped

variable {limit : ℕ} {start clock now : ℤ} {i : ℕ} {entry : Option IpFailures}

/-- The eviction closes a window that is over. -/
theorem Dripped.evicted (h : Dripped limit start i clock entry) (hclock : clock ≤ now)
    (hstart : start ≤ now) :
    Dripped limit start i now (entry.filter fun e => !e.stale (.fin (now : ℤ))) := by
  obtain ⟨j, own, hi, hown, ⟨rfl, rfl, hj⟩ | ⟨k, n, rfl, hk, hj⟩⟩ := h
  · exact ⟨j, 0, hi, hown, Or.inl ⟨rfl, rfl, hj.imp_right fun hle => hle.trans hclock⟩⟩
  · by_cases hstale : n + 300000 < now
    · refine ⟨j + 1, 0, ?_, Nat.zero_le _, Or.inl ⟨?_, rfl, Or.inr ?_⟩⟩
      · rw [Nat.succ_mul]
        omega
      · simp [Option.filter_some, stale_iff, hstale]
      · push_cast
        rcases hj with rfl | ⟨hlo, -⟩
        · simpa using hstart
        · linarith
    · refine ⟨j, own, hi, hown, Or.inr ⟨k, n, ?_, hk, ?_⟩⟩
      · simp [Option.filter_some, stale_iff, hstale]
      · exact hj.imp_right fun ⟨hlo, hhi⟩ => ⟨hlo, hhi.trans hclock⟩

/-- What the eviction leaves is counted on. -/
theorem next_of_kept {k : ℕ} {n : ℤ}
    (h : (entry.filter fun e => !e.stale (.fin (now : ℤ))) = some ⟨counted k, .fin (n : ℤ)⟩) :
    nextIpFailures entry (.fin (now : ℤ)) = ⟨counted (k + 1), .fin (n : ℤ)⟩ := by
  obtain ⟨rfl, hkept⟩ := Option.filter_eq_some_iff.mp h
  have hlive : ¬n + 300000 < now := by simpa [stale_iff] using hkept
  simp [nextIpFailures, stale_iff, hlive, incr_counted]

theorem next_of_dropped (h : (entry.filter fun e => !e.stale (.fin (now : ℤ))) = none) :
    nextIpFailures entry (.fin (now : ℤ)) = ⟨counted 1, .fin (now : ℤ)⟩ := by
  have hone : counted 1 = .fin 1 := by simp [counted]
  rw [← nextIpFailures_filter, h, hone]
  rfl

/-- Another failure under the key of the address. -/
theorem Dripped.next (h : Dripped limit start i clock entry) (hclock : clock ≤ now)
    (hstart : start ≤ now) :
    Dripped limit start i now (some (nextIpFailures entry (.fin (now : ℤ)))) := by
  obtain ⟨j, own, hi, hown, ⟨hnone, rfl, hj⟩ | ⟨k, n, hsome, hk, hj⟩⟩ := h.evicted hclock hstart
  · rw [next_of_dropped hnone]
    exact ⟨j, 0, hi, hown, Or.inr ⟨1, now, rfl, by omega, hj.imp_right fun hle => ⟨hle, le_rfl⟩⟩⟩
  · rw [next_of_kept hsome]
    exact ⟨j, own, hi, hown, Or.inr ⟨k + 1, n, rfl, by omega, hj⟩⟩

/-- A failure of the address itself, as long as its counter is below the limit. -/
theorem Dripped.failed (h : Dripped limit start i clock entry) (hclock : clock ≤ now)
    (hstart : start ≤ now) (htwo : 2 ≤ limit) (hmax : limit ≤ 2 ^ 53)
    (hbelow : (nextIpFailures entry (.fin (now : ℤ))).count.ge (.fin (limit : ℚ)) ≠ true) :
    Dripped limit start (i + 1) now (some (nextIpFailures entry (.fin (now : ℤ)))) := by
  obtain ⟨j, own, hi, hown, ⟨hnone, rfl, hj⟩ | ⟨k, n, hsome, hk, hj⟩⟩ := h.evicted hclock hstart
  · rw [next_of_dropped hnone]
    exact ⟨j, 1, by omega, by omega, Or.inr ⟨1, now, rfl, le_rfl,
      hj.imp_right fun hle => ⟨hle, le_rfl⟩⟩⟩
  · rw [next_of_kept hsome] at hbelow ⊢
    have hcount : k + 1 < limit := by
      by_contra hreached
      refine hbelow ?_
      rw [counted, ge_fin, decide_eq_true_iff]
      exact_mod_cast (by omega : limit ≤ min (k + 1) (2 ^ 53))
    exact ⟨j, own + 1, by omega, by omega, Or.inr ⟨k + 1, n, rfl, by omega, hj⟩⟩

/-- **The windows cannot fall behind for ever**: `n` windows of the schedule begin no later than `n`
    windows of the tracker end. -/
theorem Dripped.bound {n : ℕ} (htwo : 2 ≤ limit)
    (h : Dripped limit start (n * (limit - 1)) clock entry) (hentry : entry ≠ none)
    (hclock : clock < start + (n : ℤ) * 300000) : n < 600002 := by
  obtain ⟨j, own, hi, hown, ⟨hnone, -⟩ | ⟨k, m, -, -, hj⟩⟩ := h
  · exact absurd hnone hentry
  · have hwindows : n ≤ j + 1 := by
      have hle : n * (limit - 1) ≤ (j + 1) * (limit - 1) := by
        rw [Nat.succ_mul]
        omega
      exact Nat.le_of_mul_le_mul_right hle (by omega)
    rcases hj with rfl | ⟨hlo, hhi⟩
    · omega
    · have hcast : (n : ℤ) ≤ (j : ℤ) + 1 := by exact_mod_cast hwindows
      have hbehind : ((n : ℤ) - 2) * 300001 ≤ ((j : ℤ) - 1) * 300001 := by nlinarith
      have hlast : (n : ℤ) < 600002 := by linarith
      exact_mod_cast hlast

end Dripped

/-! ## The lock -/

section Run

variable {registry : RegistryConfig} {crypto : Crypto} {limit : ℕ} {pairId ip : JsString}
  {s : ServerState} {start clock : ℤ} {i : ℕ}

theorem countFailure_get {tracker : IpFailureTracker} {id ip' key : JsString} {now : JsNumber} :
    (countFailure tracker id ip' now).2.get key =
        (tracker.get key).filter (fun e => !e.stale now) ∨
      (countFailure tracker id ip' now).2.get key =
        some (nextIpFailures (tracker.get key) now) := by
  by_cases hip : ip' = []
  · rw [countFailure_nil hip]
    exact Or.inl (evictStaleIpEntries_get key)
  · by_cases hkey : key = ipKey id ip'
    · subst hkey
      exact Or.inr (countFailure_self hip).2
    · exact Or.inl (countFailure_of_ne hkey)

/-- A mutation of another pair. -/
theorem run_atomicMutate_of_ne {store : MemoryPairStore} {id : JsString} (hne : pairId ≠ id)
    (m : PairMutation) :
    (store.run (.atomicMutate id m)).2.pairs.get pairId = store.pairs.get pairId := by
  show (settle (store.atomicMutate id m.apply) store).2.pairs.get pairId = _
  cases hrun : store.atomicMutate id m.apply with
  | error e => rfl
  | ok r =>
      unfold MemoryPairStore.atomicMutate at hrun
      cases hget : store.pairs.get id with
      | none =>
          rw [hget] at hrun
          cases hrun
          rfl
      | some current =>
          rw [hget] at hrun
          obtain ⟨next, -, hcommit⟩ := (bind_eq_ok _ _ _).mp hrun
          cases next with
          | none =>
              cases hcommit
              rfl
          | some next =>
              simp only [MemoryPairStore.commitMutation, bind_eq_ok, ensure_eq_ok, exists_unit,
                pure_eq_ok] at hcommit
              obtain ⟨-, rfl⟩ := hcommit
              exact OrderedMap.get_set_of_ne _ hne _

theorem Failing.failed_any (h : ∃ p, Failing pairId s p) (id ip' : JsString) (now : ℤ) :
    ∃ p, Failing pairId (s.answered registry crypto (failedAt id ip' now)) p := by
  obtain ⟨p, hp⟩ := h
  by_cases hid : pairId = id
  · subst hid
    obtain ⟨p', hp', -⟩ := @Failing.failed registry crypto _ _ _ hp ip' now
    exact ⟨p', hp'⟩
  · obtain ⟨hget, hrest⟩ := hp
    refine ⟨p, ?_, hrest⟩
    rw [answered_failedAt]
    exact (run_atomicMutate_of_ne hid _).trans hget

/-- Failures of any pair and any address keep the pair failing, and the windows where they were. -/
theorem dripped_others {calls : List TimedCall}
    (hfailures : ∀ c ∈ calls, ∃ id ip' now, c = failedAt id ip' now) {last : TimedCall} (horder : InOrder clock (calls ++ [last])) (hstart : start ≤ clock)
    (hfailing : ∃ p, Failing pairId s p)
    (h : Dripped limit start i clock (s.tracker.get (ipKey pairId ip))) :
    ∃ clock', clock ≤ clock' ∧ clock' ≤ last.now ∧
      (∃ p, Failing pairId (s.answeredAll registry crypto calls) p) ∧
        Dripped limit start i clock'
          ((s.answeredAll registry crypto calls).tracker.get (ipKey pairId ip)) := by
  induction calls generalizing s clock with
  | nil => exact ⟨clock, le_rfl, horder.1, hfailing, h⟩
  | cons c calls ih =>
      obtain ⟨id, ip', now, rfl⟩ := hfailures c (by simp)
      obtain ⟨hnow, horder⟩ := horder
      have hnow : clock ≤ now := hnow
      have hfailing' := @Failing.failed_any registry crypto _ _ hfailing id ip' now
      have hentry : Dripped limit start i now
          ((s.answered registry crypto (failedAt id ip' now)).tracker.get (ipKey pairId ip)) := by
        rw [answered_failedAt]
        rcases @countFailure_get s.tracker id ip' (ipKey pairId ip) (.fin (now : ℤ)) with hget | hget
        · exact hget ▸ h.evicted hnow (hstart.trans hnow)
        · exact hget ▸ h.next hnow (hstart.trans hnow)
      obtain ⟨clock', hlo, hrest⟩ := ih (fun d hd => hfailures d (List.mem_cons_of_mem _ hd)) horder
        (hstart.trans hnow) hfailing' hentry
      exact ⟨clock', hnow.trans hlo, hrest⟩

/-- As long as the pair is not locked, the windows fall behind. -/
theorem SlowDrip.dripped (d : SlowDrip limit pairId ip)
    (hlimit : registry.lockoutCount = .fin (limit : ℚ)) (htwo : 2 ≤ limit) (hmax : limit ≤ 2 ^ 53)
    (hip : ip ≠ []) (hfailing : ∃ p, Failing pairId s p)
    (htracked : Tracked (s.tracker.get (ipKey pairId ip)))
    (hopen : ∀ n, ¬(s.answeredAll registry crypto (d.calls n)).IsLocked pairId) (n : ℕ) :
    (∃ p, Failing pairId (s.answeredAll registry crypto (d.calls n)) p) ∧
      Dripped limit d.start n (clockBefore d.start d.time n)
        ((s.answeredAll registry crypto (d.calls n)).tracker.get (ipKey pairId ip)) ∧
      (n ≠ 0 → (s.answeredAll registry crypto (d.calls n)).tracker.get (ipKey pairId ip) ≠ none) := by
  induction n with
  | zero =>
      refine ⟨hfailing, ⟨0, 0, by simp, Nat.zero_le _, ?_⟩, fun h => absurd rfl h⟩
      cases hentry : s.tracker.get (ipKey pairId ip) with
      | none => exact Or.inl ⟨hentry, rfl, Or.inl rfl⟩
      | some e =>
          obtain ⟨k, m, rfl⟩ := htracked e hentry
          exact Or.inr ⟨k, m, hentry, Nat.zero_le _, Or.inl rfl⟩
  | succ n ih =>
      obtain ⟨hfailing, hdripped, -⟩ := ih
      have hclock : d.start ≤ clockBefore d.start d.time n := by
        cases n with
        | zero => exact le_rfl
        | succ n =>
            have hlo := (d.windows n).1
            have hpos : (0 : ℤ) ≤ ((n / (limit - 1) : ℕ) : ℤ) * 300000 := by positivity
            exact le_trans (by linarith) hlo
      have hopen' := hopen (n + 1)
      rw [d.calls_succ, ServerState.answeredAll_append] at hopen' ⊢
      set t := s.answeredAll registry crypto (d.calls n)
      obtain ⟨clock', hlo, hhi, hfailing', hdripped'⟩ :=
        @dripped_others registry crypto _ _ _ _ _ _ _ _ (d.failures n) _ (d.ordered n) hclock
          hfailing hdripped
      rw [ServerState.answeredAll_append] at hopen' ⊢
      set u := t.answeredAll registry crypto (d.others n)
      -- the failure of the address itself does not lock the pair
      obtain ⟨p, hp⟩ := hfailing'
      obtain ⟨p', hp', -, hlocks⟩ := @Failing.failed registry crypto _ _ _ hp ip (d.time n)
      obtain ⟨hcount, hget⟩ := @countFailure_self u.tracker (.fin (d.time n : ℤ)) pairId ip hip
      have hbelow : (nextIpFailures (u.tracker.get (ipKey pairId ip))
          (.fin (d.time n : ℤ))).count.ge (.fin (limit : ℚ)) ≠ true := by
        intro hreached
        refine hopen' ⟨p', hp'.1, hlocks (Or.inr (Or.inl ?_))⟩
        rw [hcount, hlimit]
        exact hreached
      have htracker : (u.answered registry crypto (failedAt pairId ip (d.time n))).tracker.get
          (ipKey pairId ip) = some (nextIpFailures (u.tracker.get (ipKey pairId ip))
            (.fin (d.time n : ℤ))) := by
        rw [answered_failedAt]
        exact hget
      refine ⟨⟨p', hp'⟩, ?_, fun _ hnone => ?_⟩
      · show Dripped limit d.start (n + 1) (d.time n) _
        rw [show u.answeredAll registry crypto [failedAt pairId ip (d.time n)] =
          u.answered registry crypto (failedAt pairId ip (d.time n)) from rfl, htracker]
        exact hdripped'.failed hhi (hclock.trans (hlo.trans hhi)) htwo hmax hbelow
      · rw [show u.answeredAll registry crypto [failedAt pairId ip (d.time n)] =
          u.answered registry crypto (failedAt pairId ip (d.time n)) from rfl, htracker] at hnone
        cases hnone

end Run

/-- **A slow drip locks the pair**, whatever the limit is that a counter can come to. -/
theorem slowDrip_locks {registry : RegistryConfig} {limit : ℕ}
    (hlimit : registry.lockoutCount = .fin (limit : ℚ)) (htwo : 2 ≤ limit) (hmax : limit ≤ 2 ^ 53)
    (crypto : Crypto) {s : ServerState} {pairId ip : JsString} {p : StoredPair}
    (hp : s.store.pairs.get pairId = some p) (hid : p.id = pairId) (hactive : p.status = .active)
    (htracked : Tracked (s.tracker.get (ipKey pairId ip))) (hip : ip ≠ [])
    (d : SlowDrip limit pairId ip) :
    ∃ n, (s.answeredAll registry crypto (d.calls n)).IsLocked pairId := by
  by_contra hnever
  have hopen : ∀ n, ¬(s.answeredAll registry crypto (d.calls n)).IsLocked pairId :=
    fun n h => hnever ⟨n, h⟩
  obtain ⟨-, hdripped, hentry⟩ := d.dripped hlimit htwo hmax hip
    ⟨p, hp, hid, Or.inl hactive⟩ htracked hopen (600002 * (limit - 1))
  have hne : 600002 * (limit - 1) ≠ 0 := by omega
  obtain ⟨m, hm⟩ := Nat.exists_eq_succ_of_ne_zero hne
  -- the last failure falls into the last of the windows
  have hdiv : m / (limit - 1) = 600001 := by
    refine Nat.div_eq_of_lt_le ?_ ?_
    · omega
    · omega
  have hlast := (d.windows m).2
  rw [hdiv] at hlast
  have hclock : clockBefore d.start d.time (600002 * (limit - 1)) = d.time m := by
    rw [hm]
    rfl
  rw [hclock] at hdripped
  exact absurd (hdripped.bound htwo (hentry hne) (by push_cast at hlast ⊢; linarith)) (lt_irrefl _)

/-! ## A steady drip -/

/-- All failures of a window at its start. -/
def steadyDrip (limit : ℕ) : SlowDrip limit sampleId sampleIp where
  start := 0
  time i := ((i / (limit - 1) : ℕ) : ℤ) * 300000
  others _ := []
  failures _ c hc := absurd hc (List.not_mem_nil)
  windows i := ⟨by omega, by linarith⟩
  ordered i := by
    refine ⟨?_, trivial⟩
    cases i with
    | zero => simp [clockBefore, failedAt]
    | succ i =>
        have hle : i / (limit - 1) ≤ (i + 1) / (limit - 1) := Nat.div_le_div_right i.le_succ
        show ((i / (limit - 1) : ℕ) : ℤ) * 300000 ≤ (((i + 1) / (limit - 1) : ℕ) : ℤ) * 300000
        exact_mod_cast Nat.mul_le_mul_right 300000 hle

theorem slowDrip_locks_ten :
    ∃ n, (ServerState.sample.answeredAll .standard .agreeing ((steadyDrip 10).calls n)).IsLocked
      sampleId := by
  have htracked : Tracked (ServerState.sample.tracker.get (ipKey sampleId sampleIp)) := by
    intro e he
    cases he
  exact @slowDrip_locks .standard 10 rfl (by decide) (by decide) .agreeing .sample sampleId sampleIp
    (newPair sampleId (sampleRegistration "victim" none) (.fin 0)) (OrderedMap.get_set_self _ _ _)
    rfl rfl htracked (by decide) (steadyDrip 10)

/-- A limit that no counter can come to. -/
def RegistryConfig.vast : RegistryConfig :=
  ⟨.fin 2000, .fin ((2 ^ 53 + 2 : ℕ) : ℚ)⟩

/-- The counters stop at `2 ^ 53`, and what lies beyond is never reached. -/
theorem vast_drip_never_locks :
    ¬∃ n, (ServerState.sample.answeredAll .vast .agreeing
      ((steadyDrip (2 ^ 53 + 2)).calls n)).IsLocked sampleId := by
  rintro ⟨n, p, hp, hlocked⟩
  have habout : ∀ c ∈ (steadyDrip (2 ^ 53 + 2)).calls n,
      c.request.About RegistryConfig.vast.lockoutCount sampleId := by
    intro c hc
    obtain ⟨i, -, hc⟩ := List.mem_flatMap.mp hc
    rw [List.mem_singleton.mp hc]
    exact rfl
  obtain ⟨q, hq, hrecorded⟩ := @exists_recorded .vast .agreeing (2 ^ 53 + 2) _ _ rfl
    ServerState.sample_unfailed _ habout
  obtain rfl : q = p := Option.some.inj (hq.symm.trans hp)
  exact absurd (hrecorded.locked hlocked) (by norm_num)

end Pair
