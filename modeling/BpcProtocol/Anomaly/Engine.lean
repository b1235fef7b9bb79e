import BpcProtocol.Anomaly.Store
import BpcProtocol.Js.Rounding
import BpcProtocol.Lib.Separated
import BpcProtocol.Pair.Middleware

set_option autoImplicit false

/-! # The anomaly engine

`AnomalyEngine` counts requests and failures in windows, overall, by pair, and by address and pair;
and it keeps the addresses that are in shadow state for a pair, which no time ends. -/

namespace Anomaly

open Pair (AnomalyEvent AnomalyVerdict nonEmpty)

/-! ## Keys -/

def globalKey (name : String) : JsString :=
  Js.lit "global:" ++ Js.lit name

def pairKey (pairId : JsString) (name : String) : JsString :=
  Js.lit "pair:" ++ pairId ++ Js.lit ":" ++ Js.lit name

def ipPairKey (ip pairId : JsString) : JsString :=
  Js.lit "ip:" ++ ip ++ Js.lit ":pair:" ++ pairId ++ Js.lit ":sig_fail"

def shadowKey (pairId ip : JsString) : JsString :=
  pairId ++ Js.lit ":" ++ ip

/-- The counters of a name: the global one, and that of the pair where one is given. -/
def counterKeys (name : String) (pairId : Option JsString) : List JsString :=
  globalKey name :: (nonEmpty pairId).toList.map fun id => pairKey id name

/-- The counters that an event increments, in order. -/
def keysOf : AnomalyEvent → List JsString
  | .request pairId => counterKeys "total" pairId
  | .denied pairId => counterKeys "denied" pairId
  | .unknownPair => [globalKey "unknown_pair"]
  | .sigFailure pairId => counterKeys "sig_fail" pairId
  | .sigFailureForIp pairId ip => ipPairKey ip pairId :: counterKeys "sig_fail" (some pairId)
  | .replay pairId => counterKeys "replay" (some pairId)
  | .expiredTimestamp pairId => counterKeys "expired_ts" (some pairId)
  | .enterShadowState _ _ _ => []

/-! ## The engine -/

/-- `WINDOW_MS`. -/
def windowMs : ℤ := 3600000

/-- `SUSPICIOUS_SIG_FAIL_THRESHOLD`. -/
def suspiciousThreshold : ℕ := 3

/-- `SHADOW_SIG_FAIL_THRESHOLD`. -/
def shadowThreshold : ℕ := 7

/-- `ShadowRecord`. -/
structure ShadowRecord where
  enteredAt : ℤ
  sourceIp : JsString
  pairId : JsString
  reason : JsString

/-- An entry of `tarpitState`. -/
structure TarpitRecord where
  verdict : AnomalyVerdict
  since : ℤ

/-- `AnomalyEngine` over a `MemoryAnomalyStore`. -/
structure AnomalyEngine where
  store : MemoryAnomalyStore
  shadowState : OrderedMap JsString ShadowRecord
  tarpitState : OrderedMap JsString TarpitRecord

/-- `Math.min(n, 1)`. -/
def minOne (n : JsNumber) : JsNumber :=
  if (JsNumber.fin 1).lt n then .fin 1 else n

/-- `Math.round(n)`. -/
def mathRound : JsNumber → JsNumber
  | .fin q => .fin (⌊q + 1 / 2⌋ : ℤ)
  | n => n

/-- The share of the requests counted. -/
def share (failed total : ℕ) : JsNumber :=
  (JsNumber.fin failed).div (.fin total)

/-- The weighted sum of the rates. -/
def weigh (unknownRate sigRate replayRate expiredRate : JsNumber) : JsNumber :=
  mathRound ((((unknownRate.mulNat 30).add (sigRate.mulNat 30)).add (replayRate.mulNat 20)).add
    (expiredRate.mulNat 20))

namespace MemoryAnomalyStore

variable (s : MemoryAnomalyStore)

/-- Increments at the times they come at. -/
def incrementAll (timed : List (JsString × ℤ)) : MemoryAnomalyStore :=
  timed.foldl (fun s i => (s.increment i.1 windowMs i.2).2) s

/-- `threatScore()`. -/
def threatScore (now : ℤ) : JsNumber :=
  let total := s.get (globalKey "total") now
  let rate (name : String) := minOne (share (s.get (globalKey name) now) total)
  if total = 0 then .fin 0
  else weigh (rate "unknown_pair") (rate "sig_fail") (rate "replay") (rate "expired_ts")

end MemoryAnomalyStore

namespace AnomalyEngine

def empty : AnomalyEngine := ⟨.empty, .empty, .empty⟩

variable (e : AnomalyEngine)

/-- `enterShadowState(pairId, sourceIp, reason)`. -/
def enterShadowState (pairId sourceIp reason : JsString) (now : ℤ) : AnomalyEngine :=
  { e with
    shadowState := e.shadowState.set (shadowKey pairId sourceIp) ⟨now, sourceIp, pairId, reason⟩
    tarpitState := e.tarpitState.set sourceIp ⟨.shadow, now⟩ }

/-- `clearShadowState(pairId, sourceIp)`. -/
def clearShadowState (pairId sourceIp : JsString) : AnomalyEngine :=
  { e with
    shadowState := e.shadowState.delete (shadowKey pairId sourceIp)
    tarpitState := e.tarpitState.delete sourceIp }

/-- `isInShadowState(pairId, sourceIp)`. -/
def isInShadowState (pairId sourceIp : JsString) : Bool :=
  e.shadowState.has (shadowKey pairId sourceIp)

/-- The method that an event stands for. -/
def record (now : ℤ) : AnomalyEvent → AnomalyEngine
  | .enterShadowState pairId sourceIp reason => e.enterShadowState pairId sourceIp reason now
  | event => { e with store := e.store.incrementAll ((keysOf event).map fun key => (key, now)) }

/-- `getVerdict(pairId, sourceIp)` of an address that is not in shadow state yet. -/
def judge (pairId sourceIp : JsString) (now : ℤ) : AnomalyVerdict × AnomalyEngine :=
  let fails := e.store.get (ipPairKey sourceIp pairId) now
  if shadowThreshold ≤ fails then
    (.shadow, e.enterShadowState pairId sourceIp
      (Js.lit "sig_fail_threshold:" ++ Js.natDigits fails) now)
  else if suspiciousThreshold ≤ fails then (.suspicious, e)
  else if (e.store.threatScore now).ge (.fin 70) then (.attack, e)
  else (.clean, e)

/-- `getVerdict(pairId, sourceIp)`. -/
def getVerdict (pairId sourceIp : JsString) (now : ℤ) : AnomalyVerdict × AnomalyEngine :=
  if e.isInShadowState pairId sourceIp then (.shadow, e) else e.judge pairId sourceIp now

end AnomalyEngine

/-! ## Keys are told apart -/

section Keys

variable {pairId other ip ip' : JsString} {name name' : String}

theorem pairKey_ne_globalKey : pairKey pairId name ≠ globalKey name' := by
  intro h
  have hhead := congrArg List.head? h
  exact absurd hhead (by simp [pairKey, globalKey, Js.lit])

theorem ipPairKey_ne_globalKey : ipPairKey ip pairId ≠ globalKey name := by
  intro h
  have hhead := congrArg List.head? h
  exact absurd hhead (by simp [ipPairKey, globalKey, Js.lit])

theorem ipPairKey_ne_pairKey : ipPairKey ip pairId ≠ pairKey other name := by
  intro h
  have hhead := congrArg List.head? h
  exact absurd hhead (by simp [ipPairKey, pairKey, Js.lit])

theorem pairKey_inj : pairKey pairId name = pairKey other name ↔ pairId = other := by
  constructor
  · intro h
    exact List.append_cancel_left (List.append_cancel_right (List.append_cancel_right h))
  · rintro rfl
    rfl

/-- Counters of different names, whatever the pairs: neither name ends as the other does behind a
    colon. -/
theorem pairKey_ne_of_suffix (hname : ¬Js.lit name <:+ Js.lit ":" ++ Js.lit name')
    (hname' : ¬Js.lit ":" ++ Js.lit name' <:+ Js.lit name) :
    pairKey pairId name ≠ pairKey other name' := by
  intro h
  have hleft : Js.lit name <:+ pairKey other name' := h ▸ List.suffix_append _ _
  have hright : Js.lit ":" ++ Js.lit name' <:+ pairKey other name' := by
    rw [pairKey, List.append_assoc]
    exact List.suffix_append _ _
  exact (List.suffix_or_suffix_of_suffix hleft hright).elim hname hname'

/-- The identity of a pair has no colon. -/
theorem colon_not_mem_of_pairIdRe (h : Pair.pairIdRe pairId = true) : (58 : UInt16) ∉ pairId := by
  intro hmem
  rw [Pair.pairIdRe, Bool.and_eq_true, List.all_eq_true] at h
  have hcolon := h.2 58 hmem
  revert hcolon
  decide

theorem shadowKey_inj (hpair : Pair.pairIdRe pairId = true) (hother : Pair.pairIdRe other = true)
    (h : shadowKey pairId ip = shadowKey other ip') : pairId = other ∧ ip = ip' := by
  have hcolon : Js.lit ":" = [58] := rfl
  rw [shadowKey, shadowKey, hcolon, List.append_assoc, List.append_assoc] at h
  have hid : pairId = other := Separated.eq_of_append_cons (colon_not_mem_of_pairIdRe hpair)
    (colon_not_mem_of_pairIdRe hother) h
  subst hid
  exact ⟨rfl, List.cons.inj (List.append_cancel_left h) |>.2⟩

theorem ipPairKey_inj (hpair : Pair.pairIdRe pairId = true) (hother : Pair.pairIdRe other = true)
    (h : ipPairKey ip pairId = ipPairKey ip' other) : ip = ip' ∧ pairId = other := by
  have hcolon : Js.lit ":pair:" = Js.lit ":pair" ++ [58] := by decide
  have hcancel := List.append_cancel_right h
  rw [hcolon] at hcancel
  -- read from the end, the identity stands before the first colon
  have hreverse := congrArg List.reverse hcancel
  simp only [List.reverse_append] at hreverse
  rw [← List.append_assoc, List.append_assoc] at hreverse
  have hid : pairId.reverse = other.reverse := by
    refine Separated.eq_of_append_cons ?_ ?_ hreverse
    · simpa using colon_not_mem_of_pairIdRe hpair
    · simpa using colon_not_mem_of_pairIdRe hother
  have hid : pairId = other := List.reverse_injective hid
  subst hid
  refine ⟨?_, rfl⟩
  have hip := List.append_cancel_right hcancel
  rw [← List.append_assoc, ← List.append_assoc] at hip
  exact List.append_cancel_left (List.append_cancel_right (List.append_cancel_right hip))

end Keys

end Anomaly
