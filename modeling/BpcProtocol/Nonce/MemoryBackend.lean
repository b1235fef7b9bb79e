import BpcProtocol.Js.Arithmetic
import BpcProtocol.Lib.OrderedMap

set_option autoImplicit false

/-! # The nonces of one process

`MemoryNonceBackend` keeps nonces in a map, in the order in which they came. Every call drops what
has expired; a call that brings a new nonce to a full map first drops the oldest tenth. Within its
time to live a nonce is a replay unless it was dropped so. -/

namespace Nonce

/-- `MAX_NONCE_ENTRIES`. -/
def maxNonceEntries : ℕ := 100000

/-- `Math.ceil(MAX_NONCE_ENTRIES * 0.1)`. -/
def evictCount : ℕ := 10000

/-- `MemoryNonceBackend`. -/
structure MemoryNonceBackend where
  seen : OrderedMap JsString JsNumber

namespace MemoryNonceBackend

def empty : MemoryNonceBackend := ⟨.empty⟩

variable (b : MemoryNonceBackend)

/-- Evict expired nonces. -/
def sweep (now : JsNumber) : MemoryNonceBackend :=
  ⟨b.seen.filter fun _ exp => !exp.lt now⟩

/-- The capacity guard. -/
def shed : MemoryNonceBackend :=
  if maxNonceEntries ≤ b.seen.size then ⟨b.seen.drop evictCount⟩ else b

/-- `checkAndConsume(nonce, ttlMs)` at `now`. -/
def checkAndConsume (nonce : JsString) (ttlMs now : JsNumber) : Bool × MemoryNonceBackend :=
  if (b.sweep now).seen.has nonce then (true, b.sweep now)
  else (false, ⟨(b.sweep now).shed.seen.set nonce (now.add ttlMs)⟩)

end MemoryNonceBackend

/-! ## Runs -/

/-- A call of `checkAndConsume`, at what `Date.now()` reads. -/
structure Consumption where
  nonce : JsString
  now : ℤ

/-- The clock does not go back. -/
def InOrder (calls : List Consumption) : Prop :=
  calls.Pairwise fun c d => c.now ≤ d.now

namespace MemoryNonceBackend

variable (ttlMs : JsNumber)

def answer (b : MemoryNonceBackend) (c : Consumption) : Bool :=
  (b.checkAndConsume c.nonce ttlMs (.fin c.now)).1

def step (b : MemoryNonceBackend) (c : Consumption) : MemoryNonceBackend :=
  (b.checkAndConsume c.nonce ttlMs (.fin c.now)).2

/-- The backend behind some calls. -/
def after (b : MemoryNonceBackend) (calls : List Consumption) : MemoryNonceBackend :=
  calls.foldl (step ttlMs) b

/-- What the calls answer. -/
def answers : MemoryNonceBackend → List Consumption → List Bool
  | _, [] => []
  | b, c :: rest => b.answer ttlMs c :: answers (b.step ttlMs c) rest

/-- The call brings a new nonce to a full map, and `nonce` is among the oldest tenth. -/
def Evicts (b : MemoryNonceBackend) (c : Consumption) (nonce : JsString) : Prop :=
  (b.sweep (.fin c.now)).seen.has c.nonce = false ∧
    maxNonceEntries ≤ (b.sweep (.fin c.now)).seen.size ∧
    nonce ∈ (b.sweep (.fin c.now)).seen.keys.take evictCount

variable {ttlMs} {b : MemoryNonceBackend} {c : Consumption} {nonce : JsString} {exp : JsNumber}

@[simp]
theorem after_nil : b.after ttlMs [] = b :=
  rfl

@[simp]
theorem after_cons (calls : List Consumption) :
    b.after ttlMs (c :: calls) = (b.step ttlMs c).after ttlMs calls :=
  rfl

theorem after_append (calls more : List Consumption) :
    b.after ttlMs (calls ++ more) = (b.after ttlMs calls).after ttlMs more :=
  List.foldl_append

/-! ## One call -/

theorem answer_eq_false : b.answer ttlMs c = false ↔ (b.sweep (.fin c.now)).seen.has c.nonce = false := by
  unfold answer checkAndConsume
  split <;> simp_all

theorem answer_eq_true : b.answer ttlMs c = true ↔ (b.sweep (.fin c.now)).seen.has c.nonce = true := by
  rw [← not_iff_not, Bool.not_eq_true, Bool.not_eq_true, answer_eq_false]

/-- A call for a nonce that is there leaves what has not expired. -/
theorem step_of_replay (h : b.answer ttlMs c = true) : b.step ttlMs c = b.sweep (.fin c.now) := by
  rw [answer_eq_true] at h
  rw [step, checkAndConsume, if_pos h]

theorem step_of_fresh (h : b.answer ttlMs c = false) :
    b.step ttlMs c =
      ⟨(b.sweep (.fin c.now)).shed.seen.set c.nonce ((JsNumber.fin c.now).add ttlMs)⟩ := by
  rw [answer_eq_false] at h
  rw [step, checkAndConsume, if_neg (by rw [h]; decide)]

/-- A nonce that has not expired survives the sweep. -/
theorem get_sweep (h : b.seen.get nonce = some exp) {now : JsNumber} (hlive : exp.lt now = false) :
    (b.sweep now).seen.get nonce = some exp := by
  rw [sweep, OrderedMap.get_filter, h, Option.filter_some, hlive]
  rfl

theorem get_shed (h : b.seen.get nonce = some exp)
    (hkept : ¬(maxNonceEntries ≤ b.seen.size ∧ nonce ∈ b.seen.keys.take evictCount)) :
    b.shed.seen.get nonce = some exp := by
  unfold shed
  split
  · next hfull => rw [OrderedMap.get_drop_of_not_mem _ fun hmem => hkept ⟨hfull, hmem⟩, h]
  · exact h

/-- A call keeps a nonce that has not expired and that it does not evict. -/
theorem get_step (h : b.seen.get nonce = some exp) (hlive : exp.lt (.fin c.now) = false)
    (hkept : ¬b.Evicts c nonce) : (b.step ttlMs c).seen.get nonce = some exp := by
  have hswept := get_sweep h hlive
  cases hanswer : b.answer ttlMs c with
  | true => rw [step_of_replay hanswer, hswept]
  | false =>
      have habsent := answer_eq_false.mp hanswer
      have hne : nonce ≠ c.nonce := by
        rintro rfl
        rw [OrderedMap.has_eq_false, hswept] at habsent
        cases habsent
      rw [step_of_fresh hanswer, OrderedMap.get_set_of_ne _ hne]
      exact get_shed hswept fun hfull => hkept ⟨habsent, hfull⟩

/-- A new nonce is held until its time to live has passed. -/
theorem get_step_self (h : b.answer ttlMs c = false) :
    (b.step ttlMs c).seen.get c.nonce = some ((JsNumber.fin c.now).add ttlMs) := by
  rw [step_of_fresh h, OrderedMap.get_set_self]

/-- What has not expired later had not expired before. -/
theorem live_earlier {earlier later : ℤ} (horder : earlier ≤ later)
    (hlive : exp.lt (.fin later) = false) : exp.lt (.fin earlier) = false := by
  cases exp with
  | fin q =>
      have hq : ¬q < (later : ℚ) := of_decide_eq_false hlive
      have hcast : (earlier : ℚ) ≤ later := by exact_mod_cast horder
      exact decide_eq_false fun hlt => hq (hlt.trans_le hcast)
  | nan => rfl
  | posInf => rfl
  | negInf => cases hlive

/-! ## Retention -/

/-- No call evicts `nonce`. -/
def Spared (ttlMs : JsNumber) (nonce : JsString) : MemoryNonceBackend → List Consumption → Prop
  | _, [] => True
  | b, c :: rest => ¬b.Evicts c nonce ∧ Spared ttlMs nonce (b.step ttlMs c) rest

/-- A nonce that is spared is held to the end of its time to live. -/
theorem get_after {calls : List Consumption} {now : ℤ} (h : b.seen.get nonce = some exp)
    (hlive : exp.lt (.fin now) = false) (hnow : ∀ c ∈ calls, c.now ≤ now)
    (hspared : Spared ttlMs nonce b calls) : (b.after ttlMs calls).seen.get nonce = some exp := by
  induction calls generalizing b with
  | nil => exact h
  | cons c rest ih =>
      have hc := live_earlier (hnow c List.mem_cons_self) hlive
      exact ih (get_step h hc hspared.1) (fun d hd => hnow d (List.mem_cons_of_mem _ hd)) hspared.2

/-! ## How many nonces it takes -/

/-- `nonce` is held, with at most `n` others behind it. -/
def HeldBefore (n : ℕ) (nonce : JsString) (exp : JsNumber) (b : MemoryNonceBackend) : Prop :=
  ∃ older newer, b.seen.entries = older ++ (nonce, exp) :: newer ∧ newer.length ≤ n

theorem HeldBefore.get {n : ℕ} (h : HeldBefore n nonce exp b) : b.seen.get nonce = some exp := by
  obtain ⟨older, newer, hentries, -⟩ := h
  refine (OrderedMap.lookup_eq_some b.seen.nodup).mpr ?_
  rw [hentries]
  exact List.mem_append_right _ List.mem_cons_self

theorem HeldBefore.sweep {n : ℕ} (h : HeldBefore n nonce exp b) {now : JsNumber}
    (hlive : exp.lt now = false) : HeldBefore n nonce exp (b.sweep now) := by
  obtain ⟨older, newer, hentries, hlength⟩ := h
  refine ⟨older.filter fun e => !e.2.lt now, newer.filter fun e => !e.2.lt now, ?_,
    (List.length_filter_le _ newer).trans hlength⟩
  show b.seen.entries.filter (fun e => !e.2.lt now) = _
  rw [hentries, List.filter_append, List.filter_cons_of_pos (by simp [hlive])]

/-- The capacity guard reaches a nonce only when nine tenths of a full map are newer. -/
theorem HeldBefore.shed {n : ℕ} (h : HeldBefore n nonce exp b)
    (hn : n < maxNonceEntries - evictCount) : HeldBefore n nonce exp b.shed := by
  unfold MemoryNonceBackend.shed
  split
  · next hfull =>
      obtain ⟨older, newer, hentries, hlength⟩ := h
      have hsize : b.seen.size = older.length + (newer.length + 1) := by
        rw [OrderedMap.size, hentries, List.length_append, List.length_cons]
      have holder : evictCount ≤ older.length := by
        have hmax : maxNonceEntries - evictCount + evictCount = maxNonceEntries := rfl
        omega
      refine ⟨older.drop evictCount, newer, ?_, hlength⟩
      show b.seen.entries.drop evictCount = _
      rw [hentries, List.drop_append_of_le_length holder]
  · exact h

theorem get_shed_eq_none (h : b.seen.get nonce = none) : b.shed.seen.get nonce = none := by
  unfold shed
  split
  · by_cases hmem : nonce ∈ b.seen.keys.take evictCount
    · exact OrderedMap.get_drop_of_mem _ hmem
    · rw [OrderedMap.get_drop_of_not_mem _ hmem, h]
  · exact h

/-- A new nonce comes behind all others. -/
theorem entries_step_of_fresh (h : b.answer ttlMs c = false) :
    (b.step ttlMs c).seen.entries =
      (b.sweep (.fin c.now)).shed.seen.entries ++
        [(c.nonce, (JsNumber.fin c.now).add ttlMs)] := by
  have habsent := (OrderedMap.has_eq_false _).mp (answer_eq_false.mp h)
  rw [step_of_fresh h]
  exact OrderedMap.entries_set_of_none _ (get_shed_eq_none habsent) _

theorem heldBefore_step_self (h : b.answer ttlMs c = false) :
    HeldBefore 0 c.nonce ((JsNumber.fin c.now).add ttlMs) (b.step ttlMs c) :=
  ⟨_, [], entries_step_of_fresh h, le_rfl⟩

/-- Only a new nonce adds to those behind. -/
theorem HeldBefore.step_replay {n : ℕ} (h : HeldBefore n nonce exp b)
    (hlive : exp.lt (.fin c.now) = false) (hanswer : b.answer ttlMs c = true) :
    HeldBefore n nonce exp (b.step ttlMs c) := by
  rw [step_of_replay hanswer]
  exact h.sweep hlive

theorem HeldBefore.step_fresh {n : ℕ} (h : HeldBefore n nonce exp b)
    (hlive : exp.lt (.fin c.now) = false) (hanswer : b.answer ttlMs c = false)
    (hn : n < maxNonceEntries - evictCount) : HeldBefore (n + 1) nonce exp (b.step ttlMs c) := by
  obtain ⟨older, newer, hentries, hlength⟩ := (h.sweep hlive).shed hn
  refine ⟨older, newer ++ [(c.nonce, (JsNumber.fin c.now).add ttlMs)], ?_, ?_⟩
  · rw [entries_step_of_fresh hanswer, hentries, List.append_assoc, List.cons_append]
  · rw [List.length_append]
    exact Nat.succ_le_succ hlength

/-- A nonce is held while no more than nine tenths of a full map have come behind it. -/
theorem heldBefore_after {calls : List Consumption} {now : ℤ} {n : ℕ}
    (h : HeldBefore n nonce exp b) (hlive : exp.lt (.fin now) = false)
    (hnow : ∀ c ∈ calls, c.now ≤ now)
    (hfew : n + (answers ttlMs b calls).count false ≤ maxNonceEntries - evictCount) :
    ∃ m, HeldBefore m nonce exp (b.after ttlMs calls) := by
  induction calls generalizing b n with
  | nil => exact ⟨n, h⟩
  | cons c rest ih =>
      have hc := live_earlier (hnow c List.mem_cons_self) hlive
      have hrest := fun d hd => hnow d (List.mem_cons_of_mem _ hd)
      rw [answers] at hfew
      cases hanswer : b.answer ttlMs c with
      | true =>
          rw [hanswer, List.count_cons_of_ne (by decide)] at hfew
          exact ih (h.step_replay hc hanswer) hrest hfew
      | false =>
          rw [hanswer, List.count_cons_self] at hfew
          exact ih (h.step_fresh hc hanswer (by omega)) hrest (by omega)

/-- **A nonce is a replay to the end of its time to live**, unless a call that brings a new nonce to
    a full map evicts it; for that, more than nine tenths of a full map must have come after it. -/
theorem checkAndConsume_retains {before between : List Consumption} {first later : Consumption}
    (hclock : InOrder (before ++ first :: (between ++ [later])))
    (hnonce : later.nonce = first.nonce)
    (hfirst : (empty.after ttlMs before).answer ttlMs first = false)
    (hwithin : ((JsNumber.fin first.now).add ttlMs).lt (.fin later.now) = false)
    (hspared : Spared ttlMs first.nonce (empty.after ttlMs (before ++ [first])) between ∨
      (answers ttlMs (empty.after ttlMs (before ++ [first])) between).count false ≤
        maxNonceEntries - evictCount) :
    (empty.after ttlMs (before ++ first :: between)).answer ttlMs later = true := by
  have hnow : ∀ c ∈ between, c.now ≤ later.now := by
    have hbetween := (List.pairwise_cons.mp (List.pairwise_append.mp hclock).2.1).2
    intro c hc
    exact (List.pairwise_append.mp hbetween).2.2 c hc later List.mem_cons_self
  have hstep : empty.after ttlMs (before ++ [first]) =
      (empty.after ttlMs before).step ttlMs first := by
    rw [after_append]
    rfl
  have hall : empty.after ttlMs (before ++ first :: between) =
      (empty.after ttlMs (before ++ [first])).after ttlMs between := by
    rw [← after_append, List.append_assoc]
    rfl
  have hheld : (empty.after ttlMs (before ++ first :: between)).seen.get first.nonce =
      some ((JsNumber.fin first.now).add ttlMs) := by
    rw [hall]
    rcases hspared with hspared | hfew
    · refine get_after ?_ hwithin hnow hspared
      rw [hstep, get_step_self hfirst]
    · have hself := heldBefore_step_self hfirst
      rw [← hstep] at hself
      obtain ⟨m, hm⟩ := heldBefore_after hself hwithin hnow (by rwa [Nat.zero_add])
      exact hm.get
  rw [answer_eq_true, hnonce, OrderedMap.has, get_sweep hheld hwithin]
  rfl

/-! ## A flood -/

/-- The `i`-th nonce of a flood, all of them at one time. -/
def flood (i : ℕ) : Consumption := ⟨List.replicate (i + 1) 97, 0⟩

theorem flood_nonce_injective {i j : ℕ} (h : (flood i).nonce = (flood j).nonce) : i = j := by
  have hlength := congrArg List.length h
  simpa [flood] using hlength

section Flood

variable (hlive : ((JsNumber.fin 0).add ttlMs).lt (.fin 0) = false)

/-- The entry of the `i`-th nonce. -/
def floodEntry (ttlMs : JsNumber) (i : ℕ) : JsString × JsNumber :=
  ((flood i).nonce, (JsNumber.fin 0).add ttlMs)

theorem not_mem_floodEntries {indices : List ℕ} {i : ℕ} (h : i ∉ indices) :
    (flood i).nonce ∉ (indices.map (floodEntry ttlMs)).map Prod.fst := by
  intro hmem
  simp only [List.map_map, List.mem_map, Function.comp_apply, floodEntry] at hmem
  obtain ⟨j, hj, heq⟩ := hmem
  rw [flood_nonce_injective heq] at hj
  exact h hj

include hlive in
/-- Nothing of a flood expires while it lasts. -/
theorem sweep_flood {indices : List ℕ} (h : b.seen.entries = indices.map (floodEntry ttlMs)) :
    (b.sweep (.fin 0)).seen.entries = indices.map (floodEntry ttlMs) := by
  show b.seen.entries.filter (fun e => !e.2.lt (.fin 0)) = _
  rw [h, List.filter_eq_self]
  intro e he
  obtain ⟨i, -, rfl⟩ := List.mem_map.mp he
  rw [floodEntry, hlive]
  rfl

include hlive in
theorem answer_flood {indices : List ℕ} {i : ℕ} (h : b.seen.entries = indices.map (floodEntry ttlMs))
    (hi : i ∉ indices) : b.answer ttlMs (flood i) = false := by
  rw [answer_eq_false, OrderedMap.has_eq_false]
  refine OrderedMap.lookup_eq_none.mpr ?_
  show (flood i).nonce ∉ ((b.sweep (.fin 0)).seen.entries).map Prod.fst
  rw [sweep_flood hlive h]
  exact not_mem_floodEntries hi

include hlive in
/-- Up to the cap, a flood is held as it came. -/
theorem entries_flood {n : ℕ} (hn : n ≤ maxNonceEntries) :
    (empty.after ttlMs ((List.range n).map flood)).seen.entries =
      (List.range n).map (floodEntry ttlMs) := by
  induction n with
  | zero => rfl
  | succ n ih =>
      have hentries := ih (by omega)
      have hanswer := answer_flood hlive hentries List.not_mem_range_self
      have hswept := sweep_flood hlive hentries
      rw [List.range_succ, List.map_append, after_append]
      show ((empty.after ttlMs ((List.range n).map flood)).step ttlMs (flood n)).seen.entries = _
      have hsize : ((empty.after ttlMs ((List.range n).map flood)).sweep (.fin 0)).seen.size = n := by
        rw [OrderedMap.size, hswept, List.length_map, List.length_range]
      have hshed : ((empty.after ttlMs ((List.range n).map flood)).sweep (.fin 0)).shed =
          (empty.after ttlMs ((List.range n).map flood)).sweep (.fin 0) := by
        rw [shed, hsize, if_neg (by omega)]
      rw [entries_step_of_fresh hanswer]
      show ((empty.after ttlMs ((List.range n).map flood)).sweep (.fin 0)).shed.seen.entries ++
        [floodEntry ttlMs n] = _
      rw [hshed, hswept, List.map_append]
      rfl

include hlive in
/-- The first nonce behind the cap evicts the oldest. -/
theorem answer_after_flood {n : ℕ} (hn : n = maxNonceEntries) :
    (empty.after ttlMs ((List.range (n + 1)).map flood)).answer ttlMs (flood 0) = false := by
  have hentries := entries_flood hlive hn.le
  have hanswer := answer_flood hlive hentries (i := n) List.not_mem_range_self
  have hswept := sweep_flood hlive hentries
  have hsize : maxNonceEntries ≤
      ((empty.after ttlMs ((List.range n).map flood)).sweep (.fin 0)).seen.size := by
    rw [OrderedMap.size, hswept, List.length_map, List.length_range, hn]
  have hafter : ((empty.after ttlMs ((List.range n).map flood)).step ttlMs (flood n)).seen.entries =
      ((List.range n).drop evictCount ++ [n]).map (floodEntry ttlMs) := by
    rw [entries_step_of_fresh hanswer]
    show ((empty.after ttlMs ((List.range n).map flood)).sweep (.fin 0)).shed.seen.entries ++
      [floodEntry ttlMs n] = _
    rw [shed, if_pos hsize]
    show ((empty.after ttlMs ((List.range n).map flood)).sweep
      (.fin 0)).seen.entries.drop evictCount ++ _ = _
    rw [hswept, ← List.map_drop, List.map_append]
    rfl
  have hfirst : 0 ∉ (List.range n).drop evictCount ++ [n] := by
    intro hmem
    rw [List.mem_append, List.mem_singleton, List.range_eq_range', List.drop_range',
      List.mem_range'_1] at hmem
    have hcap : evictCount ≤ maxNonceEntries := by decide
    have hpos : 0 < evictCount := by decide
    omega
  rw [List.range_succ, List.map_append, after_append]
  exact answer_flood hlive hafter hfirst

end Flood

/-- A nonce is a replay while another one has come. -/
theorem checkAndConsume_retains_sample :
    (empty.after (.fin 120000) ([] ++ flood 0 :: [flood 1])).answer (.fin 120000) (flood 0) =
      true := by
  have hclock : InOrder ([] ++ flood 0 :: ([flood 1] ++ [flood 0])) := by simp [InOrder, flood]
  have hfacts : (empty.after (.fin 120000) []).answer (.fin 120000) (flood 0) = false ∧
      ((JsNumber.fin (flood 0).now).add (.fin 120000)).lt (.fin (flood 0).now) = false ∧
      (answers (.fin 120000) (empty.after (.fin 120000) ([] ++ [flood 0])) [flood 1]).count false ≤
        maxNonceEntries - evictCount := by decide +kernel
  exact checkAndConsume_retains hclock rfl hfacts.1 hfacts.2.1 (.inr hfacts.2.2)

/-- A nonce is taken a second time, within its two minutes, once the cap has been passed. -/
theorem checkAndConsume_evicted :
    empty.answer (.fin 120000) (flood 0) = false ∧
      ((JsNumber.fin (flood 0).now).add (.fin 120000)).lt (.fin (flood 0).now) = false ∧
      (empty.after (.fin 120000) ((List.range (maxNonceEntries + 1)).map flood)).answer
        (.fin 120000) (flood 0) = false := by
  have hlive : ((JsNumber.fin 0).add (.fin 120000)).lt (.fin 0) = false := by decide +kernel
  have hentries : empty.seen.entries = ([] : List ℕ).map (floodEntry (.fin 120000)) := rfl
  exact ⟨answer_flood hlive hentries List.not_mem_nil, by simpa [flood] using hlive,
    answer_after_flood hlive rfl⟩

end MemoryNonceBackend

end Nonce
