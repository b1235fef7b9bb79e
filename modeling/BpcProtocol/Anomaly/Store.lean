import BpcProtocol.Js.Text
import BpcProtocol.Lib.OrderedMap

set_option autoImplicit false

/-! # Counters

`MemoryAnomalyStore`: a counter lives from its first increment until its time is up, and starts again
with the next one. Times are whole milliseconds. -/

namespace Anomaly

/-- A counter and the moment up to which it counts. -/
structure Counter where
  value : ℕ
  expiresAt : ℤ
  deriving DecidableEq

/-- `MemoryAnomalyStore`. -/
structure MemoryAnomalyStore where
  counters : OrderedMap JsString Counter

namespace MemoryAnomalyStore

def empty : MemoryAnomalyStore := ⟨.empty⟩

variable (s : MemoryAnomalyStore)

/-- The counter of a key, unless it has expired. -/
def live (key : JsString) (now : ℤ) : Option Counter :=
  (s.counters.get key).filter fun entry => !decide (entry.expiresAt < now)

/-- `increment(key, ttlMs)`. -/
def increment (key : JsString) (ttlMs now : ℤ) : ℕ × MemoryAnomalyStore :=
  (s.live key now).elim (1, ⟨s.counters.set key ⟨1, now + ttlMs⟩⟩) fun entry =>
    (entry.value + 1, ⟨s.counters.set key { entry with value := entry.value + 1 }⟩)

/-- `get(key)`. -/
def get (key : JsString) (now : ℤ) : ℕ :=
  (s.live key now).elim 0 Counter.value

/-- `reset(key)`. -/
def reset (key : JsString) : MemoryAnomalyStore :=
  ⟨s.counters.delete key⟩

variable {s} {key other : JsString} {now ttlMs : ℤ} {c : Counter}

theorem live_eq_some :
    s.live key now = some c ↔ s.counters.get key = some c ∧ now ≤ c.expiresAt := by
  simp only [live, Option.filter_eq_some_iff, Bool.not_eq_true', decide_eq_false_iff_not, Int.not_lt]

theorem live_eq_none :
    s.live key now = none ↔ ∀ c, s.counters.get key = some c → c.expiresAt < now := by
  simp only [live, Option.filter_eq_none_iff, Bool.not_eq_true, Bool.not_eq_false',
    decide_eq_true_eq]

@[simp]
theorem live_empty (key : JsString) (now : ℤ) : empty.live key now = none :=
  rfl

/-- An increment of a counter that lives, and of one that does not. -/
theorem increment_of_live (h : s.live key now = some c) :
    s.increment key ttlMs now =
      (c.value + 1, ⟨s.counters.set key { c with value := c.value + 1 }⟩) := by
  rw [increment, h]
  rfl

theorem increment_of_not_live (h : s.live key now = none) :
    s.increment key ttlMs now = (1, ⟨s.counters.set key ⟨1, now + ttlMs⟩⟩) := by
  rw [increment, h]
  rfl

theorem get_of_live (h : s.live key now = some c) : s.get key now = c.value := by
  rw [get, h]
  rfl

theorem get_of_not_live (h : s.live key now = none) : s.get key now = 0 := by
  rw [get, h]
  rfl

/-- An increment is about its own key only. -/
theorem counters_increment_of_ne (h : other ≠ key) :
    (s.increment key ttlMs now).2.counters.get other = s.counters.get other := by
  cases hlive : s.live key now with
  | none => rw [increment_of_not_live hlive, OrderedMap.get_set_of_ne _ h]
  | some c => rw [increment_of_live hlive, OrderedMap.get_set_of_ne _ h]

theorem live_increment_of_ne (h : other ≠ key) (later : ℤ) :
    (s.increment key ttlMs now).2.live other later = s.live other later := by
  rw [live, live, counters_increment_of_ne h]

end MemoryAnomalyStore

end Anomaly
