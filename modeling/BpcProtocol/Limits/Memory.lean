import BpcProtocol.Js.Text
import BpcProtocol.Lib.Lockstep
import BpcProtocol.Lib.OrderedMap

set_option autoImplicit false

/-! # The rate limiter of one process

`MemoryRateLimiter` keeps the times of the calls that it has allowed, for each key those of the last
window. A call that finds too many keys first drops the oldest tenth of them, with their times; a key
that is not dropped so is never allowed more calls within a window than the limit. -/

namespace Limits

open Lockstep

/-- `MAX_TRACKED_KEYS`. -/
def maxTrackedKeys : ℕ := 50000

/-- `Math.ceil(MAX_TRACKED_KEYS * 0.1)`. -/
def evictCount : ℕ := 5000

/-- `RateLimitResult`. -/
structure RateLimitResult where
  allowed : Bool
  remaining : ℕ
  resetAt : ℤ
  deriving DecidableEq

/-- `MemoryRateLimiter`: its limit, its window in whole milliseconds, and the times of each key. -/
structure MemoryRateLimiter where
  limit : ℕ
  windowMs : ℤ
  windows : OrderedMap JsString (List ℤ)

/-- A call of `check`, at what `Date.now()` reads. -/
structure Check where
  key : JsString
  now : ℤ

namespace MemoryRateLimiter

/-- `new MemoryRateLimiter(limit, windowMs)`. -/
def create (limit : ℕ) (windowMs : ℤ) : MemoryRateLimiter :=
  ⟨limit, windowMs, .empty⟩

variable (r : MemoryRateLimiter)

/-- The capacity guard. -/
def guarded : OrderedMap JsString (List ℤ) :=
  if maxTrackedKeys ≤ r.windows.size then r.windows.drop evictCount else r.windows

/-- The times of a key. -/
def times (key : JsString) : List ℤ :=
  (r.windows.get key).getD []

/-- The times of a key within the window that ends at `now`. -/
def recent (key : JsString) (now : ℤ) : List ℤ :=
  ((r.guarded.get key).getD []).filter fun t => decide (now - r.windowMs < t)

/-- `timestamps` at the end of a check. -/
def noted (c : Check) : List ℤ :=
  if (r.recent c.key c.now).length < r.limit then r.recent c.key c.now ++ [c.now]
  else r.recent c.key c.now

/-- `check(key)`. -/
def check (c : Check) : RateLimitResult × MemoryRateLimiter :=
  ({ allowed := decide ((r.recent c.key c.now).length < r.limit)
     remaining := r.limit - (r.noted c).length
     resetAt := (r.noted c).headD c.now + r.windowMs },
    { r with windows := r.guarded.set c.key (r.noted c) })

/-- The limiter as a machine that answers checks. -/
def machine : Machine MemoryRateLimiter Check RateLimitResult where
  step r c := r.check c

/-- A check would find too many keys, `key` among the oldest tenth of them. -/
def Evicts (key : JsString) : Prop :=
  maxTrackedKeys ≤ r.windows.size ∧ key ∈ r.windows.keys.take evictCount

/-- How many checks of a key are allowed from `start` on, for the length of a window. -/
def allowedWithin (key : JsString) (start : ℤ) : MemoryRateLimiter → List Check → ℕ
  | _, [] => 0
  | r, c :: rest =>
      (if c.key = key ∧ start ≤ c.now ∧ c.now < start + r.windowMs ∧ (r.check c).1.allowed = true
        then 1 else 0) + allowedWithin key start (r.check c).2 rest

variable {r} {c : Check} {key : JsString} {start : ℤ}

/-! ## One check -/

@[simp]
theorem limit_check : (r.check c).2.limit = r.limit :=
  rfl

@[simp]
theorem windowMs_check : (r.check c).2.windowMs = r.windowMs :=
  rfl

theorem allowed_check :
    (r.check c).1.allowed = true ↔ (r.recent c.key c.now).length < r.limit := by
  rw [check, decide_eq_true_eq]

theorem times_check_self : (r.check c).2.times c.key = r.noted c := by
  rw [times, check, OrderedMap.get_set_self, Option.getD_some]

/-- A key that is not evicted keeps its times. -/
theorem getD_guarded (h : ¬r.Evicts key) : (r.guarded.get key).getD [] = r.times key := by
  unfold guarded times
  split
  · next hfull => rw [OrderedMap.get_drop_of_not_mem _ fun hmem => h ⟨hfull, hmem⟩]
  · rfl

theorem times_check_of_ne (hne : key ≠ c.key) (h : ¬r.Evicts key) :
    (r.check c).2.times key = r.times key := by
  rw [← getD_guarded h, times, check, OrderedMap.get_set_of_ne _ hne]

/-- The times from `start` on. -/
def since (start : ℤ) (times : List ℤ) : ℕ :=
  times.countP fun t => decide (start ≤ t)

/-- Within a window from `start` on, no time since then is filtered out. -/
theorem since_recent (h : ¬r.Evicts key) {now : ℤ} (hnow : now < start + r.windowMs) :
    since start (r.recent key now) = since start (r.times key) := by
  rw [since, since, recent, getD_guarded h, List.countP_filter]
  refine List.countP_congr fun t _ => ?_
  simp only [Bool.and_eq_true, decide_eq_true_eq]
  omega

theorem since_le_length (times : List ℤ) : since start times ≤ times.length :=
  List.countP_le_length

theorem since_concat {times : List ℤ} {t : ℤ} (h : start ≤ t) :
    since start (times ++ [t]) = since start times + 1 := by
  simp [since, h]

/-! ## Runs -/

/-- Behind the window nothing is counted. -/
theorem allowedWithin_eq_zero {calls : List Check}
    (h : ∀ c ∈ calls, start + r.windowMs ≤ c.now) : allowedWithin key start r calls = 0 := by
  induction calls generalizing r with
  | nil => rfl
  | cons c rest ih =>
      have hc := h c List.mem_cons_self
      have hrest := ih (r := (r.check c).2) fun d hd => h d (List.mem_cons_of_mem _ hd)
      rw [allowedWithin, if_neg (by omega), hrest]

/-- What is counted within the window is among the times of the key, so that the limit bounds it. -/
theorem allowedWithin_le {calls : List Check} {counted : ℕ}
    (horder : calls.Pairwise fun c d => c.now ≤ d.now)
    (hspared : machine.Throughout
      (fun r c => start ≤ c.now → c.now < start + r.windowMs → ¬r.Evicts key) r calls)
    (hstarted : counted = 0 ∨ ∀ c ∈ calls, start ≤ c.now)
    (hlimit : counted ≤ r.limit) (htimes : counted ≤ since start (r.times key)) :
    counted + allowedWithin key start r calls ≤ r.limit := by
  induction calls generalizing r counted with
  | nil => exact hlimit
  | cons c rest ih =>
      obtain ⟨hfirst, horder⟩ := List.pairwise_cons.mp horder
      obtain ⟨hc, hspared⟩ := hspared
      rw [allowedWithin]
      by_cases hbehind : start + r.windowMs ≤ c.now
      · -- the window is over, for this check and for all later ones
        have hzero : allowedWithin key start (r.check c).2 rest = 0 := by
          refine allowedWithin_eq_zero fun d hd => ?_
          have hd := hfirst d hd
          rw [windowMs_check]
          omega
        rw [if_neg (by omega), hzero]
        omega
      by_cases hbefore : c.now < start
      · -- nothing has been counted yet
        have hzero : counted = 0 :=
          hstarted.resolve_right fun hall => absurd (hall c List.mem_cons_self) (by omega)
        subst hzero
        rw [if_neg (by omega), Nat.zero_add]
        exact ih horder hspared (.inl rfl) hlimit (Nat.zero_le _)
      have hkept : ¬r.Evicts key := hc (by omega) (by omega)
      have hlater : ∀ d ∈ rest, start ≤ d.now := fun d hd => by
        have := hfirst d hd
        omega
      have hsince : since start (r.recent key c.now) = since start (r.times key) :=
        since_recent hkept (by omega)
      by_cases hkey : c.key = key
      · subst hkey
        by_cases hallowed : (r.recent c.key c.now).length < r.limit
        · have hbound : since start (r.recent c.key c.now) ≤ (r.recent c.key c.now).length :=
            since_le_length _
          have hnoted : (r.check c).2.times c.key = r.recent c.key c.now ++ [c.now] := by
            rw [times_check_self, noted, if_pos hallowed]
          have hnext : counted + 1 + allowedWithin c.key start (r.check c).2 rest ≤ r.limit := by
            refine ih horder hspared (.inr hlater) (by rw [limit_check]; omega) ?_
            rw [hnoted, since_concat (by omega)]
            omega
          rw [if_pos ⟨rfl, by omega, by omega, allowed_check.mpr hallowed⟩]
          omega
        · have hnoted : (r.check c).2.times c.key = r.recent c.key c.now := by
            rw [times_check_self, noted, if_neg hallowed]
          have hnot : ¬(c.key = c.key ∧ start ≤ c.now ∧ c.now < start + r.windowMs ∧
              (r.check c).1.allowed = true) := fun h => hallowed (allowed_check.mp h.2.2.2)
          rw [if_neg hnot, Nat.zero_add]
          exact ih horder hspared (.inr hlater) hlimit (by rw [hnoted, hsince]; exact htimes)
      · rw [if_neg fun h => hkey h.1, Nat.zero_add]
        refine ih horder hspared (.inr hlater) hlimit ?_
        rw [times_check_of_ne (Ne.symm hkey) hkept]
        exact htimes

/-- **No key is allowed more checks within a window than the limit**, unless a check within the
    window evicts its times. -/
theorem check_bounded (limit : ℕ) (windowMs : ℤ) {calls : List Check} (key : JsString) (start : ℤ)
    (horder : calls.Pairwise fun c d => c.now ≤ d.now)
    (hspared : machine.Throughout
      (fun r c => start ≤ c.now → c.now < start + r.windowMs → ¬r.Evicts key)
      (create limit windowMs) calls) :
    allowedWithin key start (create limit windowMs) calls ≤ limit := by
  have hbound := allowedWithin_le horder hspared (.inl rfl) (Nat.zero_le _) (Nat.zero_le _)
  rwa [Nat.zero_add] at hbound

/-! ## A flood -/

theorem allowedWithin_append (calls more : List Check) :
    allowedWithin key start r (calls ++ more) =
      allowedWithin key start r calls + allowedWithin key start (machine.after r calls) more := by
  induction calls generalizing r with
  | nil => rw [List.nil_append, allowedWithin, Nat.zero_add]; rfl
  | cons c rest ih =>
      rw [List.cons_append, allowedWithin, ih, allowedWithin, Nat.add_assoc]
      rfl

theorem windowMs_after (calls : List Check) : (machine.after r calls).windowMs = r.windowMs := by
  induction calls generalizing r with
  | nil => rfl
  | cons c rest ih => exact ih

/-- The first check of the `i`-th key of a flood, all of them at one time. -/
def flood (i : ℕ) : Check := ⟨List.replicate (i + 1) 97, 0⟩

theorem flood_key_injective {i j : ℕ} (h : (flood i).key = (flood j).key) : i = j := by
  have hlength := congrArg List.length h
  simpa [flood] using hlength

/-- A flood is tracked as it came. -/
theorem entries_flood {limit : ℕ} {windowMs : ℤ} (hlimit : 0 < limit) {n : ℕ}
    (hn : n ≤ maxTrackedKeys) :
    (machine.after (create limit windowMs) ((List.range n).map flood)).limit = limit ∧
      (machine.after (create limit windowMs) ((List.range n).map flood)).windows.entries =
        (List.range n).map fun i => ((flood i).key, [(0 : ℤ)]) := by
  induction n with
  | zero => exact ⟨rfl, rfl⟩
  | succ n ih =>
      obtain ⟨hlim, hentries⟩ := ih (by omega)
      have hafter : machine.after (create limit windowMs) ((List.range (n + 1)).map flood) =
          ((machine.after (create limit windowMs) ((List.range n).map flood)).check (flood n)).2 := by
        rw [List.range_succ, List.map_append, Machine.after, List.foldl_append]
        rfl
      generalize machine.after (create limit windowMs) ((List.range n).map flood) = r at *
      have habsent : r.windows.get (flood n).key = none := by
        refine OrderedMap.lookup_eq_none.mpr fun hmem => ?_
        rw [hentries] at hmem
        simp only [List.map_map, List.mem_map, List.mem_range, Function.comp_apply] at hmem
        obtain ⟨i, hi, heq⟩ := hmem
        rw [flood_key_injective heq] at hi
        exact absurd hi (Nat.lt_irrefl n)
      have hguarded : r.guarded = r.windows := by
        refine if_neg ?_
        rw [OrderedMap.size, hentries, List.length_map, List.length_range]
        omega
      have hrecent : r.recent (flood n).key (flood n).now = [] := by
        rw [recent, hguarded, habsent]
        rfl
      have hnoted : r.noted (flood n) = [0] := by
        rw [noted, hrecent, hlim, if_pos (by simpa using hlimit)]
        rfl
      rw [hafter]
      refine ⟨hlim, ?_⟩
      rw [check, hguarded, OrderedMap.entries_set_of_none _ habsent, hnoted, hentries,
        List.range_succ, List.map_append]
      rfl

/-- Behind a flood, the oldest key has no times left. -/
theorem allowed_after_flood {limit : ℕ} {windowMs : ℤ} (hlimit : 0 < limit) {n : ℕ}
    (hn : n = maxTrackedKeys) :
    ((machine.after (create limit windowMs) ((List.range n).map flood)).check (flood 0)).1.allowed =
      true := by
  obtain ⟨hlim, hentries⟩ := @entries_flood limit windowMs hlimit n (by omega)
  generalize machine.after (create limit windowMs) ((List.range n).map flood) = r at *
  have hsize : maxTrackedKeys ≤ r.windows.size := by
    rw [OrderedMap.size, hentries, List.length_map, List.length_range]
    omega
  have hfirst : (flood 0).key ∈ r.windows.keys.take evictCount := by
    have hpos : 0 < evictCount := by decide
    have hcap : evictCount ≤ maxTrackedKeys := by decide
    rw [OrderedMap.keys, hentries, List.map_map, ← List.map_take, List.take_range]
    refine List.mem_map.mpr ⟨0, List.mem_range.mpr ?_, rfl⟩
    omega
  have hgone : r.guarded.get (flood 0).key = none := by
    rw [guarded, if_pos hsize, OrderedMap.get_drop_of_mem _ hfirst]
  rw [allowed_check, recent, hgone, hlim]
  exact hlimit

theorem allowedWithin_flood {n : ℕ} (hn : n = maxTrackedKeys) :
    1 < allowedWithin (flood 0).key 0 (create 1 60000)
      ((List.range n).map flood ++ [flood 0]) := by
  have hagain := @allowed_after_flood 1 60000 Nat.one_pos n hn
  have hlast : allowedWithin (flood 0).key 0
      (machine.after (create 1 60000) ((List.range n).map flood)) [flood 0] = 1 := by
    have hwindow := windowMs_after (r := create 1 60000) ((List.range n).map flood)
    rw [allowedWithin, hwindow, if_pos ⟨rfl, Int.le_refl _, by decide, hagain⟩]
    rfl
  have hfirst : 1 ≤ allowedWithin (flood 0).key 0 (create 1 60000) ((List.range n).map flood) := by
    obtain ⟨m, rfl⟩ : ∃ m, n = m + 1 := ⟨n - 1, by rw [hn]; rfl⟩
    have hallowed : ((create 1 60000).check (flood 0)).1.allowed = true := by decide
    rw [List.range_succ_eq_map, List.map_cons, allowedWithin,
      if_pos ⟨rfl, Int.le_refl _, by decide, hallowed⟩]
    omega
  rw [allowedWithin_append, hlast]
  omega

/-- A key is allowed a second time within its window of one once enough other keys have come. -/
theorem check_evicted :
    ¬allowedWithin (flood 0).key 0 (create 1 60000)
      ((List.range maxTrackedKeys).map flood ++ [flood 0]) ≤ 1 :=
  Nat.not_le.mpr (allowedWithin_flood rfl)

/-- Three checks of one key within a minute, of which two are allowed. -/
theorem check_bounded_sample :
    allowedWithin [107] 0 (create 2 60000) [⟨[107], 0⟩, ⟨[107], 30000⟩, ⟨[107], 59999⟩] ≤ 2 := by
  have hspared : ∀ r : MemoryRateLimiter, r.windows.size < maxTrackedKeys → ¬r.Evicts [107] :=
    fun r hsize h => absurd h.1 (Nat.not_le.mpr hsize)
  refine check_bounded 2 60000 [107] 0 (by decide) ⟨?_, ?_, ?_, trivial⟩
  · exact fun _ _ => hspared _ (by decide)
  · exact fun _ _ => hspared _ (by decide)
  · exact fun _ _ => hspared _ (by decide)

end MemoryRateLimiter

end Limits
