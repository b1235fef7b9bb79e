import BpcProtocol.Pair.Activity

set_option autoImplicit false

/-! # Failures of many addresses

The tracker counts the failures of each source address, the score of the pair those of all of them.
Within one window neither is ever taken back, so a crowd of addresses locks a pair once it has failed
twice as often as one address may, however few failures each of its addresses has made. -/

namespace Pair

open Fallible Async

/-- A failed verification: its source address, and the clock. -/
structure FailedVerification where
  ip : JsString
  now : ℤ

/-- The call that records it for a pair. -/
def FailedVerification.call (pairId : JsString) (f : FailedVerification) : TimedCall :=
  failedAt pairId f.ip f.now

/-- The failures that one address has made. -/
def failuresOf (ip : JsString) (failures : List FailedVerification) : ℕ :=
  failures.countP fun f => decide (f.ip = ip)

/-- The five minutes from `start` on. -/
def InWindow (start now : ℤ) : Prop :=
  start ≤ now ∧ now < start + 300000

/-- The pair is in the store, and locked. -/
def ServerState.IsLocked (s : ServerState) (pairId : JsString) : Prop :=
  ∃ p, s.store.pairs.get pairId = some p ∧ p.status = .locked

/-- The pair is in use, and no failure of it is recorded. -/
structure ServerState.Unfailed (s : ServerState) (pairId : JsString) : Prop where
  pair : ∃ p, s.store.pairs.get pairId = some p ∧ p.id = pairId ∧ p.status = .active ∧
    p.failedSigs = .fin 0 ∧ p.cumulativeFailures.getD (.fin 0) = .fin 0 ∧
      p.firstFailureAt.getD none = none
  tracker : ∀ ip, s.tracker.get (ipKey pairId ip) = none

theorem failuresOf_append (ip : JsString) (l : List FailedVerification) (f : FailedVerification) :
    failuresOf ip (l ++ [f]) = failuresOf ip l + if f.ip = ip then 1 else 0 := by
  simp [failuresOf, List.countP_append, List.countP_cons]

/-! ## The counters within a window -/

/-- One of the two limits has been reached by what has failed so far. -/
def Reached (lockoutCount : JsNumber) (failures : List FailedVerification) : Prop :=
  failures ≠ [] ∧
    ((JsNumber.counted failures.length).ge (lockoutCount.mulNat 2) = true ∨
      ∃ f ∈ failures, (JsNumber.counted (failuresOf f.ip failures)).ge lockoutCount = true)

/-- The counters stand at what has failed since the window began. -/
structure Tally (lockoutCount : JsNumber) (pairId : JsString) (start : ℤ)
    (failures : List FailedVerification) (s : ServerState) (p : StoredPair) : Prop where
  stored : s.store.pairs.get pairId = some p
  id : p.id = pairId
  score : p.cumulativeFailures.getD (.fin 0) = JsNumber.counted failures.length
  cycle : ∀ t, p.firstFailureAt.getD none = some t → ∃ n, t = .fin (n : ℤ) ∧ InWindow start n
  status : p.status = .active ∧ ¬Reached lockoutCount failures ∨
    p.status = .locked ∧ Reached lockoutCount failures
  tracker : ∀ ip, ip ≠ [] →
    failuresOf ip failures = 0 ∧ s.tracker.get (ipKey pairId ip) = none ∨
      ∃ n, InWindow start n ∧ s.tracker.get (ipKey pairId ip) =
        some ⟨JsNumber.counted (failuresOf ip failures), .fin (n : ℤ)⟩

theorem ge_counted_mono {m n : ℕ} (h : m ≤ n) {x : JsNumber}
    (hm : (JsNumber.counted m).ge x = true) : (JsNumber.counted n).ge x = true :=
  JsNumber.Le.trans (show JsNumber.Le x (JsNumber.counted m) from hm) (JsNumber.le_counted h)

/-- What one more failure reaches is what was reached before, or what its own counters reach. -/
theorem reached_append {lockoutCount : JsNumber} {failures : List FailedVerification}
    (f : FailedVerification) :
    Reached lockoutCount (failures ++ [f]) ↔
      Reached lockoutCount failures ∨
        (JsNumber.counted (failuresOf f.ip failures + 1)).ge lockoutCount = true ∨
          (JsNumber.counted (failures.length + 1)).ge (lockoutCount.mulNat 2) = true := by
  have hlength : (failures ++ [f]).length = failures.length + 1 := by simp
  have hself : failuresOf f.ip (failures ++ [f]) = failuresOf f.ip failures + 1 := by
    rw [failuresOf_append, if_pos rfl]
  constructor
  · rintro ⟨-, htotal | ⟨g, hg, hcount⟩⟩
    · rw [hlength] at htotal
      exact Or.inr (Or.inr htotal)
    · by_cases hip : f.ip = g.ip
      · rw [← hip, hself] at hcount
        exact Or.inr (Or.inl hcount)
      · -- the address of an earlier failure
        rcases List.mem_append.mp hg with hg | hg
        · rw [failuresOf_append, if_neg hip, Nat.add_zero] at hcount
          exact Or.inl ⟨List.ne_nil_of_mem hg, Or.inr ⟨g, hg, hcount⟩⟩
        · exact absurd (congrArg FailedVerification.ip (List.mem_singleton.mp hg)).symm hip
  · intro h
    refine ⟨by simp, ?_⟩
    rcases h with ⟨-, htotal | ⟨g, hg, hcount⟩⟩ | hcount | htotal
    · exact Or.inl (ge_counted_mono (by simp) htotal)
    · refine Or.inr ⟨g, List.mem_append_left _ hg, ge_counted_mono ?_ hcount⟩
      rw [failuresOf_append]
      exact Nat.le_add_right _ _
    · exact Or.inr ⟨f, by simp, by rw [hself]; exact hcount⟩
    · rw [← hlength] at htotal
      exact Or.inl htotal

section Run

variable {registry : RegistryConfig} {crypto : Crypto} {pairId : JsString} {start : ℤ}

theorem Tally.zero {lockoutCount : JsNumber} {s : ServerState} {p : StoredPair}
    (hp : s.store.pairs.get pairId = some p) (hid : p.id = pairId) (hactive : p.status = .active)
    (hscore : p.cumulativeFailures.getD (.fin 0) = .fin 0) (hcycle : p.firstFailureAt.getD none = none)
    (htracker : ∀ ip, s.tracker.get (ipKey pairId ip) = none) :
    Tally lockoutCount pairId start [] s p where
  stored := hp
  id := hid
  score := hscore.trans JsNumber.counted_zero.symm
  cycle t ht := by
    rw [hcycle] at ht
    cases ht
  status := Or.inl ⟨hactive, fun h => h.1 rfl⟩
  tracker ip _ := Or.inl ⟨rfl, htracker ip⟩

/-- The entry of an address after one more failure of the window. -/
theorem Tally.next {lockoutCount : JsNumber} {failures : List FailedVerification} {s : ServerState}
    {p : StoredPair} (h : Tally lockoutCount pairId start failures s p) {ip : JsString}
    (hip : ip ≠ []) {now : ℤ} (hwindow : InWindow start now) :
    ∃ n, InWindow start n ∧ nextIpFailures (s.tracker.get (ipKey pairId ip)) (.fin (now : ℤ)) =
      ⟨JsNumber.counted (failuresOf ip failures + 1), .fin (n : ℤ)⟩ := by
  rcases h.tracker ip hip with ⟨hzero, hnone⟩ | ⟨n, hn, hsome⟩
  · refine ⟨now, hwindow, ?_⟩
    rw [hnone, hzero]
    simp [nextIpFailures, JsNumber.counted]
  · have hfresh : ¬n + 300000 < now := by
      have hlo := hn.1
      have hhi := hwindow.2
      omega
    refine ⟨n, hn, ?_⟩
    rw [hsome]
    simp [nextIpFailures, stale_iff, hfresh, JsNumber.incr_counted]

/-- **One more failure of the window.** -/
theorem Tally.append {failures : List FailedVerification} {s : ServerState} {p : StoredPair}
    (h : Tally registry.lockoutCount pairId start failures s p) {f : FailedVerification}
    (hip : f.ip ≠ []) (hwindow : InWindow start f.now) :
    ∃ p', Tally registry.lockoutCount pairId start (failures ++ [f])
      (s.answered registry crypto (f.call pairId)) p' := by
  obtain ⟨n, hn, hnext⟩ := h.next hip hwindow
  obtain ⟨hcount, hself⟩ := @countFailure_self s.tracker (.fin (f.now : ℤ)) pairId f.ip hip
  rw [hnext] at hcount hself
  set count := JsNumber.counted (failuresOf f.ip failures + 1) with hcounted
  -- the cycle began in this window, so nothing is decayed
  have helapsed : (JsNumber.fin 0).lt (elapsedWindows p (.fin (f.now : ℤ))) = false := by
    unfold elapsedWindows
    cases hcycle : p.firstFailureAt.getD none with
    | none => exact windowsElapsed_within (by omega)
    | some t =>
        obtain ⟨m, rfl, hm⟩ := h.cycle t hcycle
        refine windowsElapsed_within ?_
        have hlo := hm.1
        have hhi := hwindow.2
        omega
  have hscore : decayedScore p (.fin (f.now : ℤ)) = JsNumber.counted failures.length := by
    unfold decayedScore
    rw [helapsed, if_neg Bool.false_ne_true, h.score]
  have hstart : cycleStart p (.fin (f.now : ℤ)) =
      (p.firstFailureAt.getD none).getD (.fin (f.now : ℤ)) := by
    unfold cycleStart
    rw [helapsed, if_neg Bool.false_ne_true]
  obtain ⟨-, hscore', hcycle'⟩ :=
    @recordFailure_record p (some count) registry.lockoutCount (.fin (f.now : ℤ))
  have hanswered : s.answered registry crypto (f.call pairId) =
      { store := s.store.setPair pairId
          (recordFailure p (some count) registry.lockoutCount (.fin (f.now : ℤ)))
        tracker := (countFailure s.tracker pairId f.ip (.fin (f.now : ℤ))).2
        now := f.now } := by
    unfold FailedVerification.call
    rw [answered_failedAt, hcount, run_recordFailure h.stored h.id]
  rw [hanswered]
  refine ⟨recordFailure p (some count) registry.lockoutCount (.fin (f.now : ℤ)), ?_⟩
  constructor
  case stored => exact OrderedMap.get_set_self _ _ _
  case id => exact (recordFailure_id _ _ _ _).trans h.id
  case score =>
    rw [hscore', Option.getD_some, hscore, JsNumber.incr_counted]
    simp
  case cycle =>
    intro t ht
    rw [hcycle', Option.getD_some, Option.some.injEq, hstart] at ht
    cases hcycle : p.firstFailureAt.getD none with
    | none =>
        rw [hcycle] at ht
        exact ⟨f.now, ht.symm, hwindow⟩
    | some t' =>
        rw [hcycle] at ht
        exact h.cycle t (hcycle.trans (congrArg some ht))
  case status =>
    have hlimit : ReachesLimit p (some count) registry.lockoutCount (.fin (f.now : ℤ)) ↔
        count.ge registry.lockoutCount = true ∨
          (JsNumber.counted (failures.length + 1)).ge (registry.lockoutCount.mulNat 2) = true := by
      unfold ReachesLimit windowFailures
      rw [hscore, JsNumber.incr_counted, Option.getD_some]
    rcases h.status with ⟨hactive, hnot⟩ | ⟨hlocked, hreached⟩
    · by_cases hreaches : ReachesLimit p (some count) registry.lockoutCount (.fin (f.now : ℤ))
      · exact Or.inr ⟨(recordFailure_locks hactive).mpr hreaches,
          (reached_append f).mpr (Or.inr (hlimit.mp hreaches))⟩
      · refine Or.inl ⟨?_, fun h => ?_⟩
        · rcases recordFailure_status p (some count) registry.lockoutCount (.fin (f.now : ℤ)) with
            hsame | ⟨-, hlocks⟩
          · exact hsame.trans hactive
          · exact absurd ((recordFailure_locks hactive).mp hlocks) hreaches
        · rcases (reached_append f).mp h with h | h
          · exact hnot h
          · exact hreaches (hlimit.mpr h)
    · have hne : p.status ≠ .active := by
        rw [hlocked]
        decide
      exact Or.inr ⟨(recordFailure_status_of_ne hne).trans hlocked,
        (reached_append f).mpr (Or.inl hreached)⟩
  case tracker =>
    intro ip hip'
    by_cases hsame : f.ip = ip
    · subst hsame
      refine Or.inr ⟨n, hn, ?_⟩
      rw [failuresOf_append, if_pos rfl]
      exact hself
    · -- the entry of another address is of this window, and is not evicted
      have hkey : ipKey pairId ip ≠ ipKey pairId f.ip := fun hkey => hsame (ipKey_inj.mp hkey).symm
      have hget := @countFailure_of_ne s.tracker (.fin (f.now : ℤ)) _ _ _ hkey
      rw [failuresOf_append, if_neg hsame, Nat.add_zero]
      rcases h.tracker ip hip' with ⟨hzero, hnone⟩ | ⟨m, hm, hsome⟩
      · refine Or.inl ⟨hzero, ?_⟩
        rw [hget, hnone, Option.filter_none]
      · have hfresh : ¬m + 300000 < f.now := by
          have hlo := hm.1
          have hhi := hwindow.2
          omega
        refine Or.inr ⟨m, hm, ?_⟩
        rw [hget, hsome]
        simp [Option.filter_some, stale_iff, hfresh]

/-- A window of failures, from a pair with none. -/
theorem exists_tally {s : ServerState} (hs : s.Unfailed pairId) {failures : List FailedVerification}
    (hip : ∀ f ∈ failures, f.ip ≠ []) (hwindow : ∀ f ∈ failures, InWindow start f.now) :
    ∃ p, Tally registry.lockoutCount pairId start failures
      (s.answeredAll registry crypto (failures.map (FailedVerification.call pairId))) p := by
  induction failures using List.reverseRecOn with
  | nil =>
      obtain ⟨p, hp, hid, hactive, -, hscore, hcycle⟩ := hs.pair
      exact ⟨p, .zero hp hid hactive hscore hcycle hs.tracker⟩
  | append_singleton failures f ih =>
      obtain ⟨p, htally⟩ := ih (fun g hg => hip g (List.mem_append_left _ hg))
        fun g hg => hwindow g (List.mem_append_left _ hg)
      rw [List.map_append, ServerState.answeredAll_append]
      exact htally.append (hip f (by simp)) (hwindow f (by simp))

/-- Within one window a pair is locked when one of the two limits has been reached. -/
theorem isLocked_iff_reached {s : ServerState} (hs : s.Unfailed pairId)
    {failures : List FailedVerification} (hip : ∀ f ∈ failures, f.ip ≠ [])
    (hwindow : ∀ f ∈ failures, InWindow start f.now) :
    (s.answeredAll registry crypto (failures.map (FailedVerification.call pairId))).IsLocked pairId ↔
      Reached registry.lockoutCount failures := by
  obtain ⟨p, htally⟩ := @exists_tally registry crypto _ _ _ hs _ hip hwindow
  constructor
  · rintro ⟨p', hp', hlocked⟩
    obtain rfl : p = p' := Option.some.inj (htally.stored.symm.trans hp')
    rcases htally.status with ⟨hactive, -⟩ | ⟨-, hreached⟩
    · rw [hlocked] at hactive
      cases hactive
    · exact hreached
  · intro hreached
    rcases htally.status with ⟨-, hnot⟩ | ⟨hlocked, -⟩
    · exact absurd hreached hnot
    · exact ⟨p, htally.stored, hlocked⟩

end Run

/-! ## Who locks a pair -/

theorem ge_counted {n limit : ℕ} (h : (JsNumber.counted n).ge (.fin (limit : ℚ)) = true) :
    limit ≤ n := by
  have hle : (limit : ℚ) ≤ ((min n (2 ^ 53) : ℕ) : ℚ) := (JsNumber.le_fin _ _).mp h
  have hmin : limit ≤ min n (2 ^ 53) := by exact_mod_cast hle
  omega

/-- Nothing has failed less than twice. -/
theorem not_ge_counted_zero {limit : ℕ} (h : 0 < limit) :
    (JsNumber.counted 0).ge ((JsNumber.fin (limit : ℚ)).mulNat 2) = false := by
  have htwo : JsNumber.Le (Js.ofRat 2) (Js.ofRat ((limit : ℚ) * (2 : ℕ))) :=
    JsNumber.le_ofRat (by exact_mod_cast (by omega : 2 ≤ limit * 2))
  have hround : Js.ofRat 2 = .fin 2 := by decide +kernel
  rw [hround] at htwo
  rw [← Bool.not_eq_true]
  intro hle
  rw [JsNumber.counted_zero] at hle
  have hzero : (2 : ℚ) ≤ 0 := (JsNumber.le_fin 2 0).mp (htwo.trans hle)
  exact absurd hzero (by norm_num)

/-- **Within one window a pair is locked for what one address did, as long as the addresses together
    fail less than twice as often as one may.** Beyond, it is locked in any case. -/
theorem locked_for_one_address_iff {registry : RegistryConfig} {limit : ℕ}
    (hlimit : registry.lockoutCount = .fin (limit : ℚ)) (crypto : Crypto) {s : ServerState}
    {pairId : JsString} (hs : s.Unfailed pairId) {failures : List FailedVerification}
    (hip : ∀ f ∈ failures, f.ip ≠ []) {start : ℤ} (hwindow : ∀ f ∈ failures, InWindow start f.now) :
    ((s.answeredAll registry crypto (failures.map (FailedVerification.call pairId))).IsLocked pairId →
        ∃ ip, limit ≤ failuresOf ip failures) ↔
      (JsNumber.counted failures.length).ge ((JsNumber.fin (limit : ℚ)).mulNat 2) = false ∨
        ∃ ip, limit ≤ failuresOf ip failures := by
  rw [isLocked_iff_reached hs hip hwindow, hlimit]
  constructor
  · intro h
    by_cases htotal : (JsNumber.counted failures.length).ge ((JsNumber.fin (limit : ℚ)).mulNat 2) =
        true
    · refine Or.inr ?_
      rcases limit.eq_zero_or_pos with hzero | hpos
      · exact ⟨[], by omega⟩
      · refine h ⟨?_, Or.inl htotal⟩
        rintro rfl
        rw [List.length_nil, not_ge_counted_zero hpos] at htotal
        cases htotal
    · exact Or.inl (Bool.not_eq_true _ ▸ htotal)
  · rintro (htotal | hsome) ⟨-, hreached⟩
    · rcases hreached with hreached | ⟨f, -, hcount⟩
      · rw [htotal] at hreached
        cases hreached
      · exact ⟨f.ip, ge_counted hcount⟩
    · exact hsome

/-! ## A crowd of twenty -/

/-- The pair that the samples are about. -/
def sampleId : JsString :=
  Js.lit "pair_1"

/-- A server that has one pair, in use since its clock began. -/
def ServerState.sample : ServerState where
  store :=
    ⟨OrderedMap.empty.set sampleId (newPair sampleId (sampleRegistration "victim" none) (.fin 0)),
      .empty⟩
  tracker := .empty
  now := 0

theorem ServerState.sample_unfailed : ServerState.sample.Unfailed sampleId where
  pair := ⟨_, OrderedMap.get_set_self _ _ _, rfl, rfl, rfl, rfl, rfl⟩
  tracker _ := rfl

/-- `new PairRegistry(store)`. -/
def RegistryConfig.standard : RegistryConfig :=
  ⟨.fin 2000, .fin 10⟩

/-- One failure from each of `n` addresses, all at once. -/
def crowd (n : ℕ) : List FailedVerification :=
  (List.range n).map fun i => ⟨Js.lit "198.51.100." ++ Js.natDigits i, 1⟩

theorem crowd_address (n : ℕ) : ∀ f ∈ crowd n, f.ip ≠ [] := by
  intro f hf
  obtain ⟨i, -, rfl⟩ := List.mem_map.mp hf
  exact List.append_ne_nil_of_left_ne_nil (by decide) _

theorem crowd_window (n : ℕ) : ∀ f ∈ crowd n, InWindow 0 f.now := by
  intro f hf
  obtain ⟨i, -, rfl⟩ := List.mem_map.mp hf
  exact ⟨zero_le_one, one_lt_two.trans (by norm_num)⟩

/-- Where no address comes twice, each has failed once at most. -/
theorem failuresOf_le_one {failures : List FailedVerification}
    (h : (failures.map FailedVerification.ip).Nodup) (ip : JsString) :
    failuresOf ip failures ≤ 1 := by
  have hcount := List.nodup_iff_count_le_one.mp h ip
  rw [List.count_eq_countP, List.countP_map] at hcount
  refine (List.countP_mono_left fun f _ hf => ?_).trans hcount
  simpa using hf

theorem locked_for_one_address_nineteen :
    ¬(ServerState.sample.answeredAll .standard .agreeing
        ((crowd 19).map (FailedVerification.call sampleId))).IsLocked sampleId ∨
      ∃ ip, 10 ≤ failuresOf ip (crowd 19) :=
  not_or_of_imp ((@locked_for_one_address_iff .standard 10 rfl .agreeing _ _
    ServerState.sample_unfailed _ (crowd_address 19) _ (crowd_window 19)).mpr
    (Or.inl (by decide +kernel)))

/-- Twenty addresses that fail once each lock a pair that no address may lock with less than ten. -/
theorem crowd_locks :
    ¬((ServerState.sample.answeredAll .standard .agreeing
        ((crowd 20).map (FailedVerification.call sampleId))).IsLocked sampleId →
      ∃ ip, 10 ≤ failuresOf ip (crowd 20)) := by
  intro h
  have hreached : Reached (.fin 10) (crowd 20) :=
    ⟨by decide, Or.inl (by decide +kernel)⟩
  obtain ⟨ip, hip⟩ := h ((isLocked_iff_reached ServerState.sample_unfailed (crowd_address 20)
    (crowd_window 20)).mpr hreached)
  have hnodup : ((crowd 20).map FailedVerification.ip).Nodup := by decide +kernel
  have honce := failuresOf_le_one hnodup ip
  omega

end Pair
