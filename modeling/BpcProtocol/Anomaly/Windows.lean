import BpcProtocol.Anomaly.Counts
import BpcProtocol.Lib.Transition

set_option autoImplicit false

/-! # Counters against each other

The counter of all requests and those of the failures each run a window of their own, from their own
first increment. Where none of the failures outlives the requests, every failure counted is one of the
requests counted; where one does, `threatScore` sets old failures against new requests. -/

namespace Anomaly

open Async Pair Transition

/-! ## The increments of a request -/

/-- The failures that `threatScore` takes for shares of the requests. -/
def failureNames : List String :=
  ["unknown_pair", "replay", "expired_ts"]

/-- The name under which an event counts overall. -/
def overallName : AnomalyEvent → Option String
  | .request _ => some "total"
  | .denied _ => some "denied"
  | .unknownPair => some "unknown_pair"
  | .sigFailure _ => some "sig_fail"
  | .sigFailureForIp _ _ => some "sig_fail"
  | .replay _ => some "replay"
  | .expiredTimestamp _ => some "expired_ts"
  | .enterShadowState _ _ _ => none

section Increments

variable {name name' : String} {event : AnomalyEvent} {es : ServerHistory} {cfg : VerifierConfig}
  {req : BPCRequestData} {registry : RegistryConfig} {q : ServerProg BPCVerifyResult}
  {l : List AnomalyEvent}

theorem count_counterKeys (pairId : Option JsString) :
    (counterKeys name pairId).count (globalKey name') = if globalKey name = globalKey name' then 1 else 0 := by
  have hpairs : ((nonEmpty pairId).toList.map fun id => pairKey id name).count (globalKey name') = 0 := by
    refine List.count_eq_zero.mpr fun hmem => ?_
    obtain ⟨id, -, heq⟩ := List.mem_map.mp hmem
    exact pairKey_ne_globalKey heq
  rw [counterKeys, List.count_cons, hpairs, Nat.zero_add]
  simp only [beq_iff_eq]

theorem count_keysOf (hname : name ∈ "total" :: failureNames) :
    (keysOf event).count (globalKey name) = if overallName event = some name then 1 else 0 := by
  have htable : ∀ name ∈ "total" :: failureNames, ∀ other ∈
      ["total", "denied", "unknown_pair", "sig_fail", "replay", "expired_ts"],
      globalKey other = globalKey name ↔ other = name := by decide
  have hcounter : ∀ other ∈ ["total", "denied", "unknown_pair", "sig_fail", "replay", "expired_ts"],
      ∀ pairId, (counterKeys other pairId).count (globalKey name) =
        if some other = some name then 1 else 0 := by
    intro other hother pairId
    rw [count_counterKeys]
    simp only [htable name hname other hother, Option.some.injEq]
  cases event with
  | request pairId => exact hcounter "total" (by simp) pairId
  | denied pairId => exact hcounter "denied" (by simp) pairId
  | unknownPair => exact hcounter "unknown_pair" (by simp) none
  | sigFailure pairId => exact hcounter "sig_fail" (by simp) pairId
  | replay pairId => exact hcounter "replay" (by simp) (some pairId)
  | expiredTimestamp pairId => exact hcounter "expired_ts" (by simp) (some pairId)
  | enterShadowState pairId ip reason => rfl
  | sigFailureForIp pairId ip =>
      have haddress : (ipPairKey ip pairId == globalKey name) = false :=
        beq_eq_false_iff_ne.mpr ipPairKey_ne_globalKey
      rw [keysOf, List.count_cons, hcounter "sig_fail" (by simp), haddress]
      rfl

/-- What is told stands behind what had been told by then. -/
theorem recorded_split {l₁ l₂ : List AnomalyEvent} (h : recorded es = l₁ ++ event :: l₂) :
    ∃ es₁ e es₂, es = es₁ ++ e :: es₂ ∧ recorded es₁ = l₁ ∧ e.1.record = some event := by
  obtain ⟨es₁, rest, rfl, hes₁, hrest⟩ := List.filterMap_eq_append_iff.mp h
  obtain ⟨es₂, e, es₃, rfl, hnone, he, -⟩ := List.filterMap_eq_cons_iff.mp hrest
  refine ⟨es₁ ++ es₂, e, es₃, by rw [List.append_assoc], ?_, he⟩
  have hes₂ : recorded es₂ = [] := List.filterMap_eq_nil_iff.mpr hnone
  show List.filterMap _ (es₁ ++ es₂) = l₁
  rw [List.filterMap_append, hes₁]
  exact (congrArg (l₁ ++ ·) hes₂).trans (List.append_nil l₁)

/-- The request is told of first, and what `threatScore` takes for failures right behind it. -/
structure InOrder (l : List AnomalyEvent) : Prop where
  request : ∀ l₁ event l₂, l = l₁ ++ event :: l₂ → overallName event = some "total" → l₁ = []
  failure : ∀ l₁ event l₂, l = l₁ ++ event :: l₂ → ∀ name ∈ failureNames,
    overallName event = some name → ∃ pairId, l₁ = [.request pairId]

/-- What a verification tells, as far as it has come. -/
theorem recorded_inOrder (htrace : Trace (verifyBPCRequest registry cfg req) es q) :
    InOrder (recorded es) := by
  have hmay : ∀ l₁ event l₂, recorded es = l₁ ++ event :: l₂ →
      ∃ es₁, recorded es₁ = l₁ ∧ MayRecord cfg req es₁ event := by
    intro l₁ event l₂ h
    obtain ⟨es₁, ⟨o, x⟩, es₂, hes, hrecorded, hrecord⟩ := recorded_split h
    have hpermitted := htrace.permitted (verifyBPCRequest_follows registry) hes
    have ho : o = .external (.recordAnomaly event) := by
      cases o with
      | external o =>
          cases o with
          | recordAnomaly other =>
              have heq : other = event := Option.some.inj hrecord
              rw [heq]
          | _ => cases hrecord
      | _ => cases hrecord
    subst ho
    exact ⟨es₁, hrecorded, hpermitted⟩
  constructor
  · intro l₁ event l₂ h hname
    obtain ⟨es₁, rfl, hevent⟩ := hmay l₁ event l₂ h
    cases event with
    | request pairId => exact hevent.2
    | _ => simp [overallName] at hname
  · intro l₁ event l₂ h name hmem hname
    obtain ⟨es₁, rfl, hevent⟩ := hmay l₁ event l₂ h
    cases event with
    | unknownPair => exact ⟨_, hevent⟩
    | replay pairId => exact ⟨_, hevent⟩
    | expiredTimestamp pairId => exact ⟨_, hevent⟩
    | enterShadowState pairId ip reason => cases hname
    | _ =>
        obtain rfl := Option.some.inj hname
        exact absurd hmem (by decide)

/-- What a request has still to count: itself first, and each failure once at most. -/
structure Owing (keys : List JsString) : Prop where
  total : globalKey "total" ∈ keys →
    ∃ rest, keys = globalKey "total" :: rest ∧ globalKey "total" ∉ rest
  once : ∀ name ∈ failureNames, keys.count (globalKey name) ≤ 1

theorem owing_nil : Owing [] where
  total h := absurd h List.not_mem_nil
  once _ _ := Nat.zero_le 1

theorem Owing.tail {key : JsString} {rest : List JsString} (h : Owing (key :: rest)) : Owing rest where
  total hmem := by
    obtain ⟨rest', heq, hnot⟩ := h.total (List.mem_cons_of_mem key hmem)
    obtain ⟨-, rfl⟩ := List.cons.inj heq
    exact absurd hmem hnot
  once name hname := Nat.le_trans (List.count_le_count_cons ..) (h.once name hname)

/-- Events of other names leave a counter alone. -/
theorem not_mem_flatMap_keysOf (hname : name ∈ "total" :: failureNames)
    (h : ∀ event ∈ l, overallName event ≠ some name) : globalKey name ∉ l.flatMap keysOf := by
  intro hmem
  obtain ⟨event, hevent, hkey⟩ := List.mem_flatMap.mp hmem
  have hpos := List.count_pos_iff.mpr hkey
  rw [count_keysOf hname, if_neg (h event hevent)] at hpos
  exact Nat.lt_irrefl 0 hpos

theorem InOrder.owing (h : InOrder l) : Owing (l.flatMap keysOf) := by
  have htotal : "total" ∈ "total" :: failureNames := List.mem_cons_self
  cases l with
  | nil => exact owing_nil
  | cons first rest =>
      -- nothing behind the first event is a request
      have hrest : globalKey "total" ∉ rest.flatMap keysOf := by
        refine not_mem_flatMap_keysOf htotal fun event hmem heq => ?_
        obtain ⟨l₁, l₂, rfl⟩ := List.append_of_mem hmem
        cases h.request (first :: l₁) event l₂ rfl heq
      constructor
      · intro hmem
        rw [List.flatMap_cons] at hmem ⊢
        have hfirst := (List.mem_append.mp hmem).resolve_right hrest
        have hpos := List.count_pos_iff.mpr hfirst
        rw [count_keysOf htotal] at hpos
        cases first with
        | request pairId =>
            refine ⟨_, rfl, fun hmem => ?_⟩
            refine (List.mem_append.mp hmem).elim (fun hpair => ?_) hrest
            obtain ⟨id, -, heq⟩ := List.mem_map.mp hpair
            exact pairKey_ne_globalKey heq
        | _ => simp [overallName] at hpos
      · intro name hname
        have hmem := List.mem_cons_of_mem "total" hname
        have hfirst : (keysOf first).count (globalKey name) = 0 := by
          rw [count_keysOf hmem, if_neg]
          intro heq
          obtain ⟨pairId, hnil⟩ := h.failure [] first rest rfl name hname heq
          cases hnil
        rw [List.flatMap_cons, List.count_append, hfirst, Nat.zero_add]
        cases rest with
        | nil => exact Nat.zero_le 1
        | cons second rest =>
            -- a failure stands right behind the request or nowhere
            have hlater : globalKey name ∉ rest.flatMap keysOf := by
              refine not_mem_flatMap_keysOf hmem fun event hevent heq => ?_
              obtain ⟨l₁, l₂, rfl⟩ := List.append_of_mem hevent
              obtain ⟨pairId, hshort⟩ := h.failure (first :: second :: l₁) event l₂ rfl name hname heq
              cases hshort
            rw [List.flatMap_cons, List.count_append, List.count_eq_zero.mpr hlater, Nat.add_zero,
              count_keysOf hmem]
            split <;> decide

/-- A request that counts a failure counts itself. -/
theorem InOrder.total_mem (h : InOrder l) (hname : name ∈ failureNames)
    (hmem : globalKey name ∈ l.flatMap keysOf) : globalKey "total" ∈ l.flatMap keysOf := by
  obtain ⟨event, hevent, hkey⟩ := List.mem_flatMap.mp hmem
  obtain ⟨l₁, l₂, rfl⟩ := List.append_of_mem hevent
  have heq : overallName event = some name := by
    by_contra hne
    have hpos := List.count_pos_iff.mpr hkey
    rw [count_keysOf (List.mem_cons_of_mem _ hname), if_neg hne] at hpos
    exact Nat.lt_irrefl 0 hpos
  obtain ⟨pairId, rfl⟩ := h.failure l₁ event l₂ rfl name hname heq
  exact List.mem_cons_self

end Increments

/-! ## Counters in time -/

namespace MemoryAnomalyStore

variable {s : MemoryAnomalyStore} {key other : JsString} {now later : ℤ}

theorem live_increment_self (s : MemoryAnomalyStore) (key : JsString) (now : ℤ) :
    ∃ c, (s.increment key windowMs now).2.live key now = some c ∧ c.value = s.get key now + 1 := by
  cases hlive : s.live key now with
  | none =>
      refine ⟨⟨1, now + windowMs⟩, ?_, by rw [get_of_not_live hlive]⟩
      rw [increment_of_not_live hlive]
      exact live_eq_some.mpr ⟨OrderedMap.get_set_self _ _ _, Int.le_add_of_nonneg_right (by decide)⟩
  | some c =>
      refine ⟨{ c with value := c.value + 1 }, ?_, by rw [get_of_live hlive]⟩
      rw [increment_of_live hlive]
      exact live_eq_some.mpr ⟨OrderedMap.get_set_self _ _ _, (live_eq_some.mp hlive).2⟩

theorem get_increment_self (s : MemoryAnomalyStore) (key : JsString) (now : ℤ) :
    (s.increment key windowMs now).2.get key now = s.get key now + 1 := by
  obtain ⟨c, hlive, hvalue⟩ := s.live_increment_self key now
  rw [get_of_live hlive, hvalue]

theorem get_increment_of_ne (h : other ≠ key) :
    (s.increment key windowMs now).2.get other now = s.get other now := by
  rw [get, get, live_increment_of_ne h]

/-- What counts later counts now, and as much. -/
theorem live_of_later (hle : now ≤ later) {c : Counter} (h : s.live key later = some c) :
    s.live key now = some c := by
  obtain ⟨hget, hexpires⟩ := live_eq_some.mp h
  exact live_eq_some.mpr ⟨hget, Int.le_trans hle hexpires⟩

theorem get_later_le (hle : now ≤ later) : s.get key later ≤ s.get key now := by
  cases hlive : s.live key later with
  | none =>
      rw [get_of_not_live hlive]
      exact Nat.zero_le _
  | some c => rw [get_of_live hlive, get_of_live (live_of_later hle hlive)]

theorem live_of_get_ne_zero (h : s.get key now ≠ 0) : (s.live key now).isSome := by
  cases hlive : s.live key now with
  | none => exact absurd (get_of_not_live hlive) h
  | some c => rfl

end MemoryAnomalyStore

/-! ## Requests one after another -/

/-- The counters, the clock, and what the request in progress has still to count. -/
structure Telemetry where
  store : MemoryAnomalyStore
  now : ℤ
  owed : List JsString

/-- What may happen next: the clock moves; a request does what it does; or the next of its increments
    is made. -/
inductive TelemetryEvent where
  | tick (later : ℤ)
  | request (history : ServerHistory)
  | increment

namespace Telemetry

def empty (now : ℤ) : Telemetry := ⟨.empty, now, []⟩

variable (s : Telemetry)

/-- One request follows another. -/
def Enabled : TelemetryEvent → Prop
  | .tick _ => True
  | .request history => s.owed = [] ∧
      ∃ registry cfg req q, Trace (verifyBPCRequest registry cfg req) history q
  | .increment => s.owed ≠ []

def next : TelemetryEvent → Telemetry
  | .tick later => { s with now := later }
  | .request history => { s with owed := (recorded history).flatMap keysOf }
  | .increment =>
      { s with
        store := s.owed.head?.elim s.store fun key => (s.store.increment key windowMs s.now).2
        owed := s.owed.tail }

/-- The requests are counted at a time when one of these failures is. -/
def Covered (store : MemoryAnomalyStore) (now : ℤ) : Prop :=
  ∀ name ∈ failureNames, (store.live (globalKey name) now).isSome →
    (store.live (globalKey "total") now).isSome

/-- The clock does not go back, nor past the end of the requests' window while a failure counts; and a
    failure is counted only while the requests are. -/
def InWindow : TelemetryEvent → Prop
  | .tick later => s.now ≤ later ∧ Covered s.store later
  | .request _ => True
  | .increment => ∀ name ∈ failureNames, s.owed.head? = some (globalKey name) →
      (s.store.live (globalKey "total") s.now).isSome

/-- The runs whose events all satisfy `cond`. -/
def system (cond : Telemetry → TelemetryEvent → Prop) : System Telemetry where
  init s := ∃ now, s = empty now
  next s t := ∃ e, s.Enabled e ∧ cond s e ∧ t = s.next e

/-- The failures that the request in progress will have counted, once it has been counted itself. -/
def due (name : String) : ℕ :=
  if globalKey "total" ∈ s.owed then 0 else s.owed.count (globalKey name)

/-- The requests counted bear out the failures counted, and those that are due. -/
structure Balanced : Prop where
  owing : Owing s.owed
  covered : Covered s.store s.now
  balance : (s.store.live (globalKey "total") s.now).isSome → ∀ name ∈ failureNames,
    s.store.get (globalKey name) s.now + s.due name ≤ s.store.get (globalKey "total") s.now

variable {s}

open MemoryAnomalyStore

theorem ne_total {name : String} (hname : name ∈ failureNames) :
    globalKey name ≠ globalKey "total" := by
  revert name
  decide

theorem Balanced.tick (h : s.Balanced) {later : ℤ} (hle : s.now ≤ later)
    (hcovered : Covered s.store later) : Balanced { s with now := later } where
  owing := h.owing
  covered := hcovered
  balance htotal name hname := by
    obtain ⟨c, hc⟩ := Option.isSome_iff_exists.mp htotal
    have hnow := live_of_later hle hc
    have hbalance := h.balance (by rw [hnow]; rfl) name hname
    have hfailures : s.store.get (globalKey name) later ≤ s.store.get (globalKey name) s.now :=
      get_later_le hle
    rw [get_of_live hnow] at hbalance
    rw [get_of_live hc]
    exact Nat.le_trans (Nat.add_le_add_right hfailures _) hbalance

theorem Balanced.request (h : s.Balanced) {keys : List JsString}
    (howing : Owing keys) (htotal : ∀ name ∈ failureNames, globalKey name ∈ keys →
      globalKey "total" ∈ keys) : Balanced { s with owed := keys } where
  owing := howing
  covered := h.covered
  balance hlive name hname := by
    have hdue : due { s with owed := keys } name = 0 := by
      unfold due
      split
      · rfl
      · next hnot =>
          exact List.count_eq_zero.mpr fun hmem => hnot (htotal name hname hmem)
    have hbalance := h.balance hlive name hname
    rw [hdue]
    exact Nat.le_trans (Nat.le_add_right _ _) hbalance

/-- The request is counted: from now on its failures are due. -/
theorem Balanced.incrementTotal (h : s.Balanced) {rest : List JsString}
    (howed : s.owed = globalKey "total" :: rest) :
    Balanced ⟨(s.store.increment (globalKey "total") windowMs s.now).2, s.now, rest⟩ := by
  have howing := h.owing
  rw [howed] at howing
  obtain ⟨c, hlive, -⟩ := s.store.live_increment_self (globalKey "total") s.now
  refine ⟨howing.tail, fun name hname _ => by rw [hlive]; rfl, fun _ name hname => ?_⟩
  have honce := howing.tail.once name hname
  have hdue : due ⟨(s.store.increment (globalKey "total") windowMs s.now).2, s.now, rest⟩ name ≤ 1 := by
    unfold due
    split
    · exact Nat.zero_le 1
    · exact honce
  have hbefore : s.store.get (globalKey name) s.now ≤ s.store.get (globalKey "total") s.now := by
    by_cases hzero : s.store.get (globalKey name) s.now = 0
    · rw [hzero]
      exact Nat.zero_le _
    · have htotal := h.covered name hname (live_of_get_ne_zero hzero)
      exact Nat.le_trans (Nat.le_add_right _ _) (h.balance htotal name hname)
  show (s.store.increment _ windowMs s.now).2.get _ s.now + _ ≤
    (s.store.increment _ windowMs s.now).2.get _ s.now
  rw [get_increment_of_ne (ne_total hname), get_increment_self]
  exact Nat.add_le_add hbefore hdue

/-- Something else is counted, behind the request itself. -/
theorem Balanced.incrementOther (h : s.Balanced) {key : JsString} {rest : List JsString}
    (howed : s.owed = key :: rest) (hkey : key ≠ globalKey "total")
    (htimely : ∀ name ∈ failureNames, key = globalKey name →
      (s.store.live (globalKey "total") s.now).isSome) :
    Balanced ⟨(s.store.increment key windowMs s.now).2, s.now, rest⟩ := by
  have howing := h.owing
  rw [howed] at howing
  have hlive : (s.store.increment key windowMs s.now).2.live (globalKey "total") s.now =
      s.store.live (globalKey "total") s.now := live_increment_of_ne hkey.symm _
  have habsent : globalKey "total" ∉ key :: rest := by
    intro hmem
    obtain ⟨rest', heq, -⟩ := howing.total hmem
    exact hkey (List.cons.inj heq).1
  refine ⟨howing.tail, fun name hname hsome => ?_, fun htotal name hname => ?_⟩
  · rw [hlive]
    by_cases hsame : key = globalKey name
    · exact htimely name hname hsame
    · rw [live_increment_of_ne (fun heq => hsame heq.symm)] at hsome
      exact h.covered name hname hsome
  · rw [hlive] at htotal
    have hbalance := h.balance htotal name hname
    have hdue : s.due name = (key :: rest).count (globalKey name) := by
      rw [due, howed, if_neg habsent]
    have hafter : due ⟨(s.store.increment key windowMs s.now).2, s.now, rest⟩ name =
        rest.count (globalKey name) := if_neg fun hmem => habsent (List.mem_cons_of_mem _ hmem)
    show (s.store.increment key windowMs s.now).2.get _ s.now + _ ≤
      (s.store.increment key windowMs s.now).2.get _ s.now
    rw [hdue] at hbalance
    rw [get_increment_of_ne hkey.symm, hafter]
    by_cases hsame : key = globalKey name
    · subst hsame
      rw [List.count_cons_self] at hbalance
      rw [get_increment_self]
      omega
    · rw [List.count_cons_of_ne hsame] at hbalance
      rw [get_increment_of_ne fun heq => hsame heq.symm]
      exact hbalance

theorem Balanced.next (h : s.Balanced) {e : TelemetryEvent} (he : s.Enabled e)
    (hwindow : s.InWindow e) : (s.next e).Balanced := by
  cases e with
  | tick later => exact h.tick hwindow.1 hwindow.2
  | request history =>
      obtain ⟨-, registry, cfg, req, q, htrace⟩ := he
      have horder := recorded_inOrder htrace
      exact h.request horder.owing fun name hname => horder.total_mem hname
  | increment =>
      obtain ⟨key, rest, howed⟩ := List.exists_cons_of_ne_nil he
      have hnext : s.next .increment =
          ⟨(s.store.increment key windowMs s.now).2, s.now, rest⟩ := by
        unfold Telemetry.next
        rw [howed]
        rfl
      rw [hnext]
      by_cases hkey : key = globalKey "total"
      · subst hkey
        exact h.incrementTotal howed
      · refine h.incrementOther howed hkey fun name hname heq => hwindow name hname ?_
        rw [howed, heq]
        rfl

theorem balanced_empty (now : ℤ) : (empty now).Balanced where
  owing := owing_nil
  covered _ _ h := by cases h
  balance h := by cases h

/-- The failures counted are among the requests counted, and `threatScore` weighs their shares. -/
structure Proportionate (store : MemoryAnomalyStore) (now : ℤ) : Prop where
  counted : ∀ name ∈ failureNames,
    store.get (globalKey name) now ≤ store.get (globalKey "total") now
  score : store.get (globalKey "total") now ≠ 0 →
    let total := store.get (globalKey "total") now
    store.threatScore now = weigh (share (store.get (globalKey "unknown_pair") now) total)
      (minOne (share (store.get (globalKey "sig_fail") now) total))
      (share (store.get (globalKey "replay") now) total)
      (share (store.get (globalKey "expired_ts") now) total)

/-- The share of no more than all is at most one. -/
theorem minOne_share {failed total : ℕ} (hle : failed ≤ total) (hpos : total ≠ 0) :
    minOne (share failed total) = share failed total := by
  have htotal : (0 : ℚ) < total := by exact_mod_cast Nat.pos_of_ne_zero hpos
  have hone : (JsNumber.fin total).div (.fin total) = .fin 1 := by
    rw [JsNumber.div, div_self htotal.ne']
    simpa using Js.ofRat_intCast (n := 1) (by decide)
  have hle' : JsNumber.Le (.fin failed) (.fin total) := (JsNumber.le_fin _ _).mpr (by exact_mod_cast hle)
  have hshare := JsNumber.le_div_fin htotal hle'
  rw [hone] at hshare
  rw [minOne, share, hshare.lt_eq_false]
  rfl

theorem proportionate_of_counted {store : MemoryAnomalyStore} {now : ℤ}
    (hcounted : ∀ name ∈ failureNames,
      store.get (globalKey name) now ≤ store.get (globalKey "total") now) :
    Proportionate store now where
  counted := hcounted
  score hpos := by
    have hshare : ∀ name ∈ failureNames,
        minOne (share (store.get (globalKey name) now) (store.get (globalKey "total") now)) =
          share (store.get (globalKey name) now) (store.get (globalKey "total") now) :=
      fun name hname => minOne_share (hcounted name hname) hpos
    have hunknown := hshare "unknown_pair" (by decide)
    have hreplay := hshare "replay" (by decide)
    have hexpired := hshare "expired_ts" (by decide)
    simp only [MemoryAnomalyStore.threatScore, if_neg hpos, hunknown, hreplay, hexpired]

section Runs

variable {cond : Telemetry → TelemetryEvent → Prop}

theorem reachable_tick {store : MemoryAnomalyStore} {now later : ℤ} {owed : List JsString}
    (hreach : Reachable (system cond) ⟨store, now, owed⟩)
    (hcond : cond ⟨store, now, owed⟩ (.tick later)) :
    Reachable (system cond) ⟨store, later, owed⟩ :=
  hreach.next ⟨.tick later, trivial, hcond, rfl⟩

/-- The increments of a request, all at one time. -/
theorem reachable_increments {keys : List JsString} {store : MemoryAnomalyStore} {now : ℤ}
    (hcond : ∀ store, ∀ key ∈ keys, ∀ rest, cond ⟨store, now, key :: rest⟩ .increment)
    (hreach : Reachable (system cond) ⟨store, now, keys⟩) :
    Reachable (system cond) ⟨store.incrementAll (keys.map fun key => (key, now)), now, []⟩ := by
  induction keys generalizing store with
  | nil => exact hreach
  | cons key rest ih =>
      have hrest : Reachable (system cond) ⟨(store.increment key windowMs now).2, now, rest⟩ :=
        hreach.next ⟨.increment, List.cons_ne_nil key rest, hcond _ key List.mem_cons_self _, rfl⟩
      exact ih (fun store other hother => hcond store other (List.mem_cons_of_mem key hother)) hrest

/-- A request that makes these increments. -/
def Counts (keys : List JsString) : Prop :=
  ∃ registry cfg req es q, Trace (verifyBPCRequest registry cfg req) es q ∧
    (recorded es).flatMap keysOf = keys

theorem reachable_request {store : MemoryAnomalyStore} {now : ℤ}
    (hreach : Reachable (system cond) ⟨store, now, []⟩) {keys : List JsString}
    (hcounts : Counts keys) (hbegin : ∀ es, cond ⟨store, now, []⟩ (.request es))
    (hcond : ∀ store, ∀ key ∈ keys, ∀ rest, cond ⟨store, now, key :: rest⟩ .increment) :
    Reachable (system cond) ⟨store.incrementAll (keys.map fun key => (key, now)), now, []⟩ := by
  obtain ⟨registry, cfg, req, es, q, htrace, rfl⟩ := hcounts
  refine reachable_increments hcond ?_
  exact hreach.next ⟨.request es, ⟨rfl, registry, cfg, req, q, htrace⟩, hbegin es, rfl⟩

end Runs

/-- What a request counts that the server in this state answers. -/
theorem counts_drive (server : VerifierState (List JsString)) (req : BPCRequestData)
    {keys : List JsString}
    (h : (recorded (((verifyBPCRequest ⟨.fin 9, .fin 9⟩ sampleVerifier req).drive
      (VerifierState.perform .agreeing) 0 server []).2.2.map Entry.made)).flatMap keysOf = keys) :
    Counts keys := by
  obtain ⟨es, htrace, -, hlog⟩ := Prog.runs_drive (VerifierState.exec_perform .agreeing)
    (verifyBPCRequest ⟨.fin 9, .fin 9⟩ sampleVerifier req) server 0 []
  have hlog : _ = es := hlog
  rw [hlog] at h
  exact ⟨_, _, _, es, _, htrace, h⟩

/-- What a request without headers counts. -/
def bareKeys : List JsString :=
  [AnomalyEvent.request none, .denied none].flatMap keysOf

/-- What a request on a pair that there is not counts. -/
def unknownKeys : List JsString :=
  [AnomalyEvent.request (some (Js.lit "pair_9")), .unknownPair,
    .denied (some (Js.lit "pair_9"))].flatMap keysOf

/-- What a request out of its time counts. -/
def staleKeys : List JsString :=
  [AnomalyEvent.request (some (Js.lit "pair_0")), .expiredTimestamp (Js.lit "pair_0"),
    .denied (some (Js.lit "pair_0")), .sigFailure (some (Js.lit "pair_0")),
    .sigFailureForIp (Js.lit "pair_0") (Js.lit "unknown")].flatMap keysOf

theorem counts_bare : Counts bareKeys :=
  counts_drive registeredState { requestWith [] [] with pairId := none } (by decide +kernel)

theorem counts_unknown : Counts unknownKeys :=
  counts_drive registeredState (requestWith (Js.lit "pair_9") samplePayload) (by decide +kernel)

theorem counts_stale : Counts staleKeys :=
  counts_drive { registeredState with server := { registeredState.server with now := 60001 } }
    (requestWith (Js.lit "pair_0") samplePayload) (by decide +kernel)

/-- Half a window behind a first request come two requests on a pair that there is not and one out of
    its time; and behind the end of the first request's window another request. -/
def agedStore : MemoryAnomalyStore :=
  ((((MemoryAnomalyStore.empty.incrementAll (bareKeys.map fun key => (key, 0))).incrementAll
    (unknownKeys.map fun key => (key, 1800000))).incrementAll
    (unknownKeys.map fun key => (key, 1800000))).incrementAll
    (staleKeys.map fun key => (key, 1800000))).incrementAll
    (bareKeys.map fun key => (key, 3600001))

theorem agedStore_reachable :
    Reachable (system fun _ _ => True) ⟨agedStore, 3600001, []⟩ := by
  have hstep : ∀ {store : MemoryAnomalyStore} {now : ℤ},
      Reachable (system fun _ _ => True) ⟨store, now, []⟩ → ∀ {keys : List JsString}, Counts keys →
        Reachable (system fun _ _ => True)
          ⟨store.incrementAll (keys.map fun key => (key, now)), now, []⟩ :=
    fun hreach _ hcounts => reachable_request hreach hcounts (fun _ => trivial) fun _ _ _ _ => trivial
  have hfirst := hstep (.init ⟨0, rfl⟩) counts_bare
  have hhalf := @reachable_tick _ _ 0 1800000 _ hfirst trivial
  have hfailed := hstep (hstep (hstep hhalf counts_unknown) counts_unknown) counts_stale
  have hlater := @reachable_tick _ _ 1800000 3600001 _ hfailed trivial
  exact hstep hlater counts_bare

end Telemetry

end Anomaly
