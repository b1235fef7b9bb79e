import BpcProtocol.Anomaly.Engine
import BpcProtocol.Pair.Failures
import BpcProtocol.Pair.Frame

set_option autoImplicit false

/-! # How failures are counted

A denial for a failure of the signed payload is told to the engine by `recordSigFailure` and again by
`recordSigFailureForIp`, which calls `recordSigFailure` itself: overall and for the pair a failure
counts twice, for the address once. -/

namespace Anomaly

open Async Pair

/-! ## Counters within a window -/

namespace MemoryAnomalyStore

variable {s : MemoryAnomalyStore} {key : JsString} {start now : ℤ} {n : ℕ}

/-- Since `start` the counter has been incremented `n` times, and it counts on at `now`. -/
def CountsSince (s : MemoryAnomalyStore) (key : JsString) (start now : ℤ) (n : ℕ) : Prop :=
  n = 0 ∧ s.live key start = none ∨
    ∃ c, s.counters.get key = some c ∧ now ≤ c.expiresAt ∧ c.value = n

theorem CountsSince.get (h : s.CountsSince key start now n) (hle : start ≤ now) :
    s.get key now = n := by
  rcases h with ⟨rfl, hnone⟩ | ⟨c, hget, hexpires, rfl⟩
  · refine get_of_not_live (live_eq_none.mpr fun c hget => ?_)
    exact Int.lt_of_lt_of_le (live_eq_none.mp hnone c hget) hle
  · exact get_of_live (live_eq_some.mpr ⟨hget, hexpires⟩)

/-- One increment within the window. -/
theorem CountsSince.increment (h : s.CountsSince key start now n) (hwindow : now ≤ start + windowMs)
    {i : JsString × ℤ} (hstart : start ≤ i.2) (hnow : i.2 ≤ now) :
    (s.increment i.1 windowMs i.2).2.CountsSince key start now (n + [i.1].count key) := by
  obtain ⟨other, time⟩ := i
  have hstart : start ≤ time := hstart
  have hnow : time ≤ now := hnow
  by_cases hkey : key = other
  · subst hkey
    rw [List.count_singleton_self]
    rcases h with ⟨rfl, hnone⟩ | ⟨c, hget, hexpires, rfl⟩
    · have hdead : s.live key time = none := by
        refine live_eq_none.mpr fun c hget => ?_
        exact Int.lt_of_lt_of_le (live_eq_none.mp hnone c hget) hstart
      have hexpires : now ≤ time + windowMs := by omega
      rw [increment_of_not_live hdead]
      exact .inr ⟨_, OrderedMap.get_set_self _ _ _, hexpires, rfl⟩
    · rw [increment_of_live (live_eq_some.mpr ⟨hget, Int.le_trans hnow hexpires⟩)]
      exact .inr ⟨_, OrderedMap.get_set_self _ _ _, hexpires, rfl⟩
  · have hcount : [other].count key = 0 := by
      rw [List.count_eq_zero, List.mem_singleton]
      exact hkey
    rw [hcount, Nat.add_zero]
    rcases h with ⟨rfl, hnone⟩ | ⟨c, hget, hexpires, rfl⟩
    · exact .inl ⟨rfl, by rwa [live_increment_of_ne hkey]⟩
    · exact .inr ⟨c, by rwa [counters_increment_of_ne hkey], hexpires, rfl⟩

theorem CountsSince.incrementAll {timed : List (JsString × ℤ)} (h : s.CountsSince key start now n)
    (hwindow : now ≤ start + windowMs) (htimes : ∀ i ∈ timed, start ≤ i.2 ∧ i.2 ≤ now) :
    (s.incrementAll timed).CountsSince key start now (n + (timed.map Prod.fst).count key) := by
  induction timed generalizing s n with
  | nil => exact h
  | cons i rest ih =>
      obtain ⟨hstart, hnow⟩ := htimes i List.mem_cons_self
      have hrest := ih (h.increment hwindow hstart hnow) fun j hj =>
        htimes j (List.mem_cons_of_mem i hj)
      show ((s.increment i.1 windowMs i.2).2.incrementAll rest).CountsSince key start now
        (n + ([i.1] ++ rest.map Prod.fst).count key)
      rw [List.count_append, ← Nat.add_assoc]
      exact hrest

/-- Within one window a counter has counted its increments. -/
theorem get_incrementAll {timed : List (JsString × ℤ)} (hidle : s.live key start = none)
    (hle : start ≤ now) (hwindow : now ≤ start + windowMs)
    (htimes : ∀ i ∈ timed, start ≤ i.2 ∧ i.2 ≤ now) :
    (s.incrementAll timed).get key now = (timed.map Prod.fst).count key := by
  have hcounts : s.CountsSince key start now 0 := .inl ⟨rfl, hidle⟩
  simpa using (hcounts.incrementAll hwindow htimes).get hle

end MemoryAnomalyStore

/-! ## What is told of a failure -/

/-- The counters of failures. -/
inductive FailureKey : JsString → Prop
  | overall : FailureKey (globalKey "sig_fail")
  | pair (pairId : JsString) : FailureKey (pairKey pairId "sig_fail")
  | address (ip pairId : JsString) : FailureKey (ipPairKey ip pairId)

section Keys

variable {name : String} {key : JsString}

theorem mem_counterKeys {pairId : Option JsString} :
    key ∈ counterKeys name pairId ↔
      key = globalKey name ∨ ∃ id, nonEmpty pairId = some id ∧ key = pairKey id name := by
  simp only [counterKeys, List.mem_cons, List.mem_map, Option.mem_toList]
  exact or_congr_right (exists_congr fun id => and_congr_right fun _ => eq_comm)

/-- A counter of another name counts no failures. -/
theorem FailureKey.not_mem (hkey : FailureKey key)
    (hname : name ∈ ["total", "denied", "unknown_pair", "replay", "expired_ts"])
    (pairId : Option JsString) : key ∉ counterKeys name pairId := by
  have hglobal : ∀ name ∈ ["total", "denied", "unknown_pair", "replay", "expired_ts"],
      globalKey "sig_fail" ≠ globalKey name := by decide
  have hends : ∀ name ∈ ["total", "denied", "unknown_pair", "replay", "expired_ts"],
      ¬Js.lit "sig_fail" <:+ Js.lit ":" ++ Js.lit name ∧
        ¬Js.lit ":" ++ Js.lit name <:+ Js.lit "sig_fail" := by decide
  rw [mem_counterKeys]
  rintro (heq | ⟨id, -, heq⟩)
  · cases hkey with
    | overall => exact hglobal name hname heq
    | pair => exact pairKey_ne_globalKey heq
    | address => exact ipPairKey_ne_globalKey heq
  · cases hkey with
    | overall => exact pairKey_ne_globalKey heq.symm
    | pair => exact pairKey_ne_of_suffix (hends name hname).1 (hends name hname).2 heq
    | address => exact ipPairKey_ne_pairKey heq

theorem FailureKey.not_mem_keysOf (hkey : FailureKey key) {event : AnomalyEvent}
    (hevent : event.isFailure = false) : key ∉ keysOf event := by
  cases event with
  | request pairId => exact hkey.not_mem (by simp) pairId
  | denied pairId => exact hkey.not_mem (by simp) pairId
  | unknownPair =>
      have hname : "unknown_pair" ∈ ["total", "denied", "unknown_pair", "replay", "expired_ts"] := by
        simp
      exact hkey.not_mem hname none
  | sigFailure pairId => cases hevent
  | sigFailureForIp pairId ip => cases hevent
  | replay pairId => exact hkey.not_mem (by simp) (some pairId)
  | expiredTimestamp pairId => exact hkey.not_mem (by simp) (some pairId)
  | enterShadowState pairId ip reason => exact List.not_mem_nil

/-- Only failures count. -/
theorem FailureKey.count (hkey : FailureKey key) (events : List AnomalyEvent) :
    (events.flatMap keysOf).count key =
      ((events.filter AnomalyEvent.isFailure).flatMap keysOf).count key := by
  induction events with
  | nil => rfl
  | cons event rest ih =>
      rw [List.flatMap_cons, List.count_append, ih]
      cases hevent : event.isFailure with
      | true => rw [List.filter_cons_of_pos hevent, List.flatMap_cons, List.count_append]
      | false =>
          rw [List.count_eq_zero.mpr (hkey.not_mem_keysOf hevent), Nat.zero_add,
            List.filter_cons_of_neg (by simp [hevent])]

end Keys

/-! ## Requests -/

namespace Counted

variable (p : Processed)

/-- The counters that the engine increments for a request, in order. -/
def keys : List JsString :=
  (recorded p.history).flatMap keysOf

/-- The request was denied for a failed check, and it is a request on this pair. -/
def FailsOn (pairId : JsString) : Prop :=
  p.Fails ∧ p.req.pairId = some pairId

/-- It is from this address, too. -/
def FailsFrom (ip pairId : JsString) : Prop :=
  FailsOn p pairId ∧ p.req.sourceIp = ip

variable {p}

theorem count_keys_of_not_fails (hfails : ¬p.Fails) {key : JsString} (hkey : FailureKey key) :
    (keys p).count key = 0 := by
  rw [keys, hkey.count]
  have hplain : (recorded p.history).filter AnomalyEvent.isFailure = [] :=
    p.fails_or_plain.resolve_left hfails
  rw [hplain]
  rfl

/-- A failure is counted twice, but for the address. -/
theorem exists_count_keys (hfails : p.Fails) : ∃ pairId, p.req.pairId = some pairId ∧
    pairIdRe pairId = true ∧ ∀ key, FailureKey key → (keys p).count key =
      [globalKey "sig_fail", globalKey "sig_fail", pairKey pairId "sig_fail",
        pairKey pairId "sig_fail", ipPairKey p.req.sourceIp pairId].count key := by
  obtain ⟨pairId, ⟨hpair, hform, -⟩, hfailures⟩ := hfails.faulted.failures
  refine ⟨pairId, hpair, hform, fun key hkey => ?_⟩
  have hnonEmpty : nonEmpty (some pairId) = some pairId := by
    rw [nonEmpty, Option.filter_some, if_pos]
    unfold pairIdRe at hform
    exact (Bool.and_eq_true_iff.mp hform).1
  have hkeys : (failures p.history).flatMap keysOf =
      [globalKey "sig_fail", pairKey pairId "sig_fail", ipPairKey p.req.sourceIp pairId,
        globalKey "sig_fail", pairKey pairId "sig_fail"] := by
    rw [hfailures, hpair]
    simp [keysOf, counterKeys, hnonEmpty]
  rw [keys, hkey.count]
  show ((failures p.history).flatMap keysOf).count key = _
  rw [hkeys]
  simp only [List.count_cons]
  omega

/-- How many requests there are of a kind. -/
noncomputable def number (kind : Processed → Prop) (ps : List Processed) : ℕ :=
  open Classical in ps.countP fun p => decide (kind p)

theorem count_of_kind {kind : Processed → Prop} {key : JsString} {n : ℕ}
    (hkind : ∀ p, kind p → (keys p).count key = n) (hother : ∀ p, ¬kind p → (keys p).count key = 0)
    (ps : List Processed) : (ps.flatMap keys).count key = n * number kind ps := by
  induction ps with
  | nil => rfl
  | cons p rest ih =>
      rw [List.flatMap_cons, List.count_append, ih, number, number]
      by_cases h : kind p
      · rw [hkind p h, List.countP_cons_of_pos (by simpa using h), Nat.mul_succ, Nat.add_comm]
      · rw [hother p h, List.countP_cons_of_neg (by simpa using h), Nat.zero_add]

theorem number_eq_zero {kind : Processed → Prop} {ps : List Processed} :
    number kind ps = 0 ↔ ∀ p ∈ ps, ¬kind p := by
  simp only [number, List.countP_eq_zero, decide_eq_true_eq]

section Kinds

variable (ps : List Processed)

theorem count_overall :
    (ps.flatMap keys).count (globalKey "sig_fail") = 2 * number Processed.Fails ps := by
  refine count_of_kind (fun p hfails => ?_) (fun p hfails => ?_) ps
  · obtain ⟨pairId, -, -, hcount⟩ := exists_count_keys hfails
    have hpair : pairKey pairId "sig_fail" ≠ globalKey "sig_fail" := pairKey_ne_globalKey
    have haddress : ipPairKey p.req.sourceIp pairId ≠ globalKey "sig_fail" := ipPairKey_ne_globalKey
    rw [hcount _ .overall]
    simp [hpair, haddress]
  · exact count_keys_of_not_fails hfails .overall

theorem count_pair (pairId : JsString) :
    (ps.flatMap keys).count (pairKey pairId "sig_fail") =
      2 * number (FailsOn · pairId) ps := by
  refine count_of_kind (fun p hon => ?_) (fun p hon => ?_) ps
  · obtain ⟨id, hid, -, hcount⟩ := exists_count_keys hon.1
    obtain rfl : id = pairId := Option.some.inj (hid.symm.trans hon.2)
    have hglobal : globalKey "sig_fail" ≠ pairKey id "sig_fail" := pairKey_ne_globalKey.symm
    have haddress : ipPairKey p.req.sourceIp id ≠ pairKey id "sig_fail" := ipPairKey_ne_pairKey
    rw [hcount _ (.pair id)]
    simp [hglobal, haddress]
  · by_cases hfails : p.Fails
    · obtain ⟨id, hid, -, hcount⟩ := exists_count_keys hfails
      have hne : id ≠ pairId := fun heq => hon ⟨hfails, heq ▸ hid⟩
      have hglobal : globalKey "sig_fail" ≠ pairKey pairId "sig_fail" := pairKey_ne_globalKey.symm
      have hpair : pairKey id "sig_fail" ≠ pairKey pairId "sig_fail" := mt pairKey_inj.mp hne
      have haddress : ipPairKey p.req.sourceIp id ≠ pairKey pairId "sig_fail" := ipPairKey_ne_pairKey
      rw [hcount _ (.pair pairId)]
      simp [hglobal, hpair, haddress]
    · exact count_keys_of_not_fails hfails (.pair pairId)

theorem count_address (ip pairId : JsString) (hform : pairIdRe pairId = true) :
    (ps.flatMap keys).count (ipPairKey ip pairId) = number (FailsFrom · ip pairId) ps := by
  rw [← Nat.one_mul (number _ ps)]
  refine count_of_kind (fun p hfrom => ?_) (fun p hfrom => ?_) ps
  · obtain ⟨id, hid, -, hcount⟩ := exists_count_keys hfrom.1.1
    obtain rfl : id = pairId := Option.some.inj (hid.symm.trans hfrom.1.2)
    have hglobal : globalKey "sig_fail" ≠ ipPairKey ip id := ipPairKey_ne_globalKey.symm
    have hpair : pairKey id "sig_fail" ≠ ipPairKey ip id := ipPairKey_ne_pairKey.symm
    rw [hcount _ (.address ip id)]
    simp [hglobal, hpair, hfrom.2]
  · by_cases hfails : p.Fails
    · obtain ⟨id, hid, hre, hcount⟩ := exists_count_keys hfails
      have hglobal : globalKey "sig_fail" ≠ ipPairKey ip pairId := ipPairKey_ne_globalKey.symm
      have hpair : pairKey id "sig_fail" ≠ ipPairKey ip pairId := ipPairKey_ne_pairKey.symm
      have haddress : ipPairKey p.req.sourceIp id ≠ ipPairKey ip pairId := by
        intro heq
        obtain ⟨hip, rfl⟩ := ipPairKey_inj hre hform heq
        exact hfrom ⟨⟨hfails, hid⟩, hip⟩
      rw [hcount _ (.address ip pairId)]
      simp [hglobal, hpair, haddress]
    · exact count_keys_of_not_fails hfails (.address ip pairId)

end Kinds

/-! ## Requests within a window -/

variable {ps : List Processed} {timed : List (JsString × ℤ)} {s : MemoryAnomalyStore} {start now : ℤ}

/-- The requests are processed within one window of the counters, none of which counts yet: the
    increments are those of the requests, in whatever order, each at its time. -/
structure WithinWindow (ps : List Processed) (timed : List (JsString × ℤ)) (s : MemoryAnomalyStore)
    (start now : ℤ) : Prop where
  idle : ∀ key, s.live key start = none
  le : start ≤ now
  window : now ≤ start + windowMs
  times : ∀ i ∈ timed, start ≤ i.2 ∧ i.2 ≤ now
  made : (timed.map Prod.fst).Perm (ps.flatMap keys)

theorem WithinWindow.get (hwindow : WithinWindow ps timed s start now) (key : JsString) :
    (s.incrementAll timed).get key now = (ps.flatMap keys).count key := by
  rw [MemoryAnomalyStore.get_incrementAll (hwindow.idle key) hwindow.le hwindow.window hwindow.times]
  exact hwindow.made.count_eq key

/-- Every failure is counted exactly once, overall, for the pair, and for the address and the pair. -/
structure CountedOnce (ps : List Processed) (s : MemoryAnomalyStore) (now : ℤ) : Prop where
  overall : s.get (globalKey "sig_fail") now = number Processed.Fails ps
  pair : ∀ pairId, s.get (pairKey pairId "sig_fail") now = number (FailsOn · pairId) ps
  address : ∀ ip pairId, pairIdRe pairId = true →
    s.get (ipPairKey ip pairId) now = number (FailsFrom · ip pairId) ps

/-- What the counters of failures count. -/
theorem sig_fail_counts (hwindow : WithinWindow ps timed s start now) :
    (s.incrementAll timed).get (globalKey "sig_fail") now = 2 * number Processed.Fails ps ∧
      (∀ pairId, (s.incrementAll timed).get (pairKey pairId "sig_fail") now =
        2 * number (FailsOn · pairId) ps) ∧
      ∀ ip pairId, pairIdRe pairId = true →
        (s.incrementAll timed).get (ipPairKey ip pairId) now = number (FailsFrom · ip pairId) ps := by
  refine ⟨?_, fun pairId => ?_, fun ip pairId hform => ?_⟩
  · rw [hwindow.get, count_overall]
  · rw [hwindow.get, count_pair]
  · rw [hwindow.get, count_address ps ip pairId hform]

/-- **Failures are counted once only where there are none.** -/
theorem counted_once_iff (hwindow : WithinWindow ps timed s start now) :
    CountedOnce ps (s.incrementAll timed) now ↔ ∀ p ∈ ps, ¬p.Fails := by
  obtain ⟨hoverall, hpair, haddress⟩ := sig_fail_counts hwindow
  constructor
  · intro honce
    have htwice := honce.overall
    rw [hoverall] at htwice
    refine number_eq_zero.mp ?_
    omega
  · intro hnone
    have hon : ∀ pairId, number (FailsOn · pairId) ps = 0 := fun pairId =>
      number_eq_zero.mpr fun p hp hfails => hnone p hp hfails.1
    refine ⟨?_, fun pairId => ?_, haddress⟩
    · rw [hoverall, number_eq_zero.mpr hnone]
    · rw [hpair, hon pairId]

/-! ## A failure -/

/-- A request with a signature that does not verify. -/
theorem exists_refused : ∃ p : Processed,
    p.req = requestWith (Js.lit "pair_0") samplePayload ∧ p.Fails := by
  let program := verifyBPCRequest ⟨.fin 9, .fin 9⟩ sampleVerifier
    (requestWith (Js.lit "pair_0") samplePayload)
  obtain ⟨es, htrace, -, hlog⟩ := Prog.runs_drive (VerifierState.exec_perform .refusing) program
    registeredState 0 []
  have hfails : (denies (program.drive (VerifierState.perform .refusing) 0 registeredState []).1 &&
      (failures ((program.drive (VerifierState.perform .refusing) 0 registeredState []).2.2.map
        Entry.made)).length == 2) = true := by
    decide +kernel
  generalize program.drive (VerifierState.perform .refusing) 0 registeredState [] = done at *
  obtain ⟨rest, t, log⟩ := done
  obtain ⟨hdenies, htwo⟩ := Bool.and_eq_true_iff.mp hfails
  have hhistory : log.map Entry.made = es := hlog
  rw [hhistory, beq_iff_eq] at htwo
  cases rest with
  | fail e => cases hdenies
  | await o k => cases hdenies
  | ret r =>
      let p : Processed := ⟨_, _, _, es, r, htrace⟩
      refine ⟨p, rfl, p.fails_or_plain.resolve_right fun hplain => ?_⟩
      have hplain : failures es = [] := hplain
      rw [hplain] at htwo
      cases htwo

/-- A request by itself, all at the time 0. -/
theorem withinWindow_single (p : Processed) :
    WithinWindow [p] ((keys p).map fun key => (key, 0)) .empty 0 0 where
  idle _ := rfl
  le := le_rfl
  window := by decide
  times i hi := by
    obtain ⟨key, -, rfl⟩ := List.mem_map.mp hi
    exact ⟨le_rfl, le_rfl⟩
  made := by simp [Function.comp_def]

theorem counted_once_iff_refused : ∃ p : Processed,
    p.req = requestWith (Js.lit "pair_0") samplePayload ∧
      (CountedOnce [p] (MemoryAnomalyStore.empty.incrementAll ((keys p).map fun key => (key, 0))) 0 ↔
        ∀ q ∈ [p], ¬q.Fails) := by
  obtain ⟨p, hreq, -⟩ := exists_refused
  exact ⟨p, hreq, counted_once_iff (withinWindow_single p)⟩

/-- One failure counts twice. -/
theorem refused_counted_twice : ∃ p : Processed,
    p.req = requestWith (Js.lit "pair_0") samplePayload ∧ number Processed.Fails [p] = 1 ∧
      (MemoryAnomalyStore.empty.incrementAll ((keys p).map fun key => (key, 0))).get
        (globalKey "sig_fail") 0 = 2 ∧
      ¬CountedOnce [p] (MemoryAnomalyStore.empty.incrementAll ((keys p).map fun key => (key, 0))) 0 := by
  obtain ⟨p, hreq, hfails⟩ := exists_refused
  have hone : number Processed.Fails [p] = 1 := by simp [number, hfails]
  have htwo := (sig_fail_counts (withinWindow_single p)).1
  rw [hone] at htwo
  refine ⟨p, hreq, hone, htwo, fun honce => ?_⟩
  have honce := honce.overall
  rw [hone, htwo] at honce
  cases honce

end Counted

end Anomaly
