import BpcProtocol.Files.LocalFile
import BpcProtocol.Lib.Lockstep

set_option autoImplicit false

/-! # Files in the place of memory

The file stores answer as the memory stores do, except that a file lets an entry go at the moment up
to which memory keeps it, and that an increment lets a counter of a file live anew. -/

namespace Files

open Fallible Lockstep Nonce Anomaly

/-! ## Nonces -/

/-- A call of `checkAndConsume`, at what `Date.now()` reads. -/
structure NonceCall where
  nonce : JsString
  ttlMs : ℤ
  now : ℤ

/-- The key and the time to live are valid, and so is the moment of expiry. -/
def NonceCall.Valid (c : NonceCall) : Prop :=
  validKey c.nonce = true ∧ validTtl c.ttlMs = true ∧ 0 ≤ c.now ∧
    Js.isSafeInteger (c.now + c.ttlMs) = true

def memoryNonces : Machine MemoryNonceBackend NonceCall (Except FileStoreError Bool) where
  step b c :=
    (.ok (b.checkAndConsume c.nonce (.fin c.ttlMs) (.fin c.now)).1,
      (b.checkAndConsume c.nonce (.fin c.ttlMs) (.fin c.now)).2)

def fileNonces : Machine (AtomicFile NonceEntries) NonceCall (Except FileStoreError Bool) where
  step f c := FileNonceBackend.checkAndConsume f c.nonce c.ttlMs c.now

/-- Fewer nonces live than the memory holds. -/
def Roomy (b : MemoryNonceBackend) (c : NonceCall) : Prop :=
  (b.sweep (.fin c.now)).seen.size < maxNonceEntries

/-- The call is not for a nonce whose time to live ends at this very moment. -/
def OffExpiry (b : MemoryNonceBackend) (c : NonceCall) : Prop :=
  b.seen.get c.nonce ≠ some (.fin c.now)

/-- Memory and file at `now`: they hold the same nonces beyond this moment. -/
structure SameNonces (now : ℤ) (b : MemoryNonceBackend) (f : AtomicFile NonceEntries) : Prop where
  whole : ∀ nonce exp, b.seen.get nonce = some exp → ∃ e : ℤ, exp = .fin e
  natural : ∀ nonce e, (f.getD .empty).get nonce = some e → natural e = true
  same : ∀ nonce (e : ℤ), now < e →
    (b.seen.get nonce = some (.fin e) ↔ (f.getD .empty).get nonce = some e)

variable {b : MemoryNonceBackend} {f : AtomicFile NonceEntries} {c : NonceCall} {now : ℤ}

theorem natural_iff {n : ℤ} : natural n = true ↔ 0 ≤ n ∧ n ≤ 9007199254740991 := by
  have hmax : Js.maxSafeInteger = 9007199254740991 := rfl
  simp only [natural, Js.isSafeInteger, Bool.and_eq_true, decide_eq_true_eq]
  omega

theorem isSafeInteger_natCast {n : ℕ} :
    Js.isSafeInteger (n : ℤ) = true ↔ n ≤ 9007199254740991 := by
  have hnatural := natural_iff (n := (n : ℤ))
  rw [natural, Bool.and_eq_true, decide_eq_true_eq, and_iff_left (by omega)] at hnatural
  rw [hnatural]
  omega

/-- The moment of expiry of a valid call is exact. -/
theorem NonceCall.Valid.expires (h : c.Valid) :
    (JsNumber.fin c.now).add (.fin c.ttlMs) = .fin ((c.now + c.ttlMs : ℤ) : ℚ) ∧
      Files.natural (c.now + c.ttlMs) = true := by
  obtain ⟨-, httl, hnow, hsafe⟩ := h
  have hpos : 1 ≤ c.ttlMs := of_decide_eq_true ((Bool.and_eq_true _ _).mp httl).2
  have hnatural : Files.natural (c.now + c.ttlMs) = true := by
    rw [Files.natural, hsafe, Bool.true_and, decide_eq_true_eq]
    omega
  have hbounds := natural_iff.mp hnatural
  have hround := Js.ofRat_intCast (n := c.now + c.ttlMs) (by omega)
  rw [Int.cast_add] at hround ⊢
  exact ⟨hround, hnatural⟩

/-- A whole moment has passed when it is earlier. -/
theorem lt_whole (e now : ℤ) : (JsNumber.fin (e : ℚ)).lt (.fin (now : ℚ)) = decide (e < now) :=
  JsNumber.lt_int e now

theorem get_sweep_whole (nonce : JsString) (e : ℤ) :
    (b.sweep (.fin now)).seen.get nonce = some (.fin e) ↔
      b.seen.get nonce = some (.fin e) ∧ now ≤ e := by
  rw [MemoryNonceBackend.sweep, OrderedMap.get_filter, Option.filter_eq_some_iff, lt_whole]
  simp

/-- What the memory answers. -/
theorem has_sweep_iff (hwhole : ∀ nonce exp, b.seen.get nonce = some exp → ∃ e : ℤ, exp = .fin e)
    (nonce : JsString) :
    (b.sweep (.fin now)).seen.has nonce = true ↔
      ∃ e : ℤ, b.seen.get nonce = some (.fin e) ∧ now ≤ e := by
  rw [OrderedMap.has, Option.isSome_iff_exists]
  constructor
  · rintro ⟨exp, hexp⟩
    have hsome := hexp
    rw [MemoryNonceBackend.sweep, OrderedMap.get_filter, Option.filter_eq_some_iff] at hsome
    obtain ⟨e, rfl⟩ := hwhole nonce exp hsome.1
    exact ⟨e, (get_sweep_whole nonce e).mp hexp⟩
  · rintro ⟨e, he⟩
    exact ⟨.fin e, (get_sweep_whole nonce e).mpr he⟩

/-- The entries of a file that have not expired at `now`. -/
def unexpired (f : AtomicFile NonceEntries) (now : ℤ) : NonceEntries :=
  (f.getD .empty).filter fun _ expiresAt => !decide (expiresAt ≤ now)

theorem get_unexpired (nonce : JsString) (e : ℤ) :
    (unexpired f now).get nonce = some e ↔ (f.getD .empty).get nonce = some e ∧ now < e := by
  rw [unexpired, OrderedMap.get_filter, Option.filter_eq_some_iff]
  simp

/-- What a valid call answers of a file, and what it leaves. -/
theorem checkAndConsume_file (hc : c.Valid)
    (hnatural : ∀ nonce e, (f.getD .empty).get nonce = some e → natural e = true) :
    fileNonces.step f c =
      (.ok ((unexpired f c.now).has c.nonce),
        some (if (unexpired f c.now).has c.nonce then unexpired f c.now
          else (unexpired f c.now).set c.nonce (c.now + c.ttlMs))) := by
  have hdecode : FileNonceBackend.decode (f.getD .empty) = .ok (f.getD .empty) := by
    have hall : (f.getD .empty).values.all natural = true := by
      rw [List.all_eq_true]
      intro e he
      obtain ⟨nonce, hget⟩ := OrderedMap.mem_values.mp he
      exact hnatural nonce e hget
    rw [FileNonceBackend.decode, require_of hall]
    rfl
  have hload : f.load .empty FileNonceBackend.decode = .ok (f.getD .empty) := by
    cases f with
    | none => rfl
    | some d => exact hdecode
  have hreplay : ((unexpired f c.now).get c.nonce).any (fun expiresAt => decide (c.now < expiresAt)) =
      (unexpired f c.now).has c.nonce := by
    rw [OrderedMap.has]
    cases hget : (unexpired f c.now).get c.nonce with
    | none => rfl
    | some e =>
        have hlive := ((get_unexpired c.nonce e).mp hget).2
        simp [hlive]
  have hfn : FileNonceBackend.consume c.nonce c.ttlMs c.now (f.getD .empty) =
      .ok (some (if (unexpired f c.now).has c.nonce then unexpired f c.now
        else (unexpired f c.now).set c.nonce (c.now + c.ttlMs)),
        (unexpired f c.now).has c.nonce) := by
    rw [FileNonceBackend.consume, require_of hc.2.2.2, ← hreplay]
    rfl
  show FileNonceBackend.checkAndConsume f c.nonce c.ttlMs c.now = _
  rw [FileNonceBackend.checkAndConsume, hc.1, hc.2.1, AtomicFile.tx_of_ok hload hfn]
  rfl

/-- The file answers the replays that do not expire at this very moment. -/
theorem has_unexpired_iff (h : SameNonces now b f) (hnow : now ≤ c.now) (nonce : JsString) :
    (unexpired f c.now).has nonce = true ↔
      ∃ e : ℤ, b.seen.get nonce = some (.fin e) ∧ c.now < e := by
  rw [OrderedMap.has, Option.isSome_iff_exists]
  constructor
  · rintro ⟨e, he⟩
    obtain ⟨hget, hlt⟩ := (get_unexpired nonce e).mp he
    exact ⟨e, (h.same nonce e (by omega)).mpr hget, hlt⟩
  · rintro ⟨e, hget, hlt⟩
    exact ⟨e, (get_unexpired nonce e).mpr ⟨(h.same nonce e (by omega)).mp hget, hlt⟩⟩

/-- Memory and file drop what has expired, each in its way. -/
theorem SameNonces.drop (h : SameNonces now b f) {later : ℤ} (hlater : now ≤ later) :
    SameNonces later (b.sweep (.fin later)) (some (unexpired f later)) where
  whole nonce exp hget := by
    rw [MemoryNonceBackend.sweep, OrderedMap.get_filter, Option.filter_eq_some_iff] at hget
    exact h.whole nonce exp hget.1
  natural nonce e hget := h.natural nonce e ((get_unexpired nonce e).mp hget).1
  same nonce e he := by
    rw [get_sweep_whole, Option.getD_some, get_unexpired, h.same nonce e (by omega)]
    constructor
    · rintro ⟨hget, -⟩
      exact ⟨hget, he⟩
    · rintro ⟨hget, -⟩
      exact ⟨hget, by omega⟩

/-- Both hold a new nonce for the same time. -/
theorem SameNonces.set {d : NonceEntries} (h : SameNonces now b (some d)) {e : ℤ}
    (he : Files.natural e = true) (nonce : JsString) :
    SameNonces now ⟨b.seen.set nonce (.fin e)⟩ (some (d.set nonce e)) where
  whole other exp hget := by
    rw [OrderedMap.get_set] at hget
    split at hget
    · cases hget
      exact ⟨e, rfl⟩
    · exact h.whole other exp hget
  natural other e' hget := by
    rw [Option.getD_some, OrderedMap.get_set] at hget
    split at hget
    · cases hget
      exact he
    · exact h.natural other e' hget
  same other e' he' := by
    rw [Option.getD_some, OrderedMap.get_set, OrderedMap.get_set]
    split
    · simp
    · exact h.same other e' he'

/-! ### Runs -/

/-- Memory and file agree, and the calls to come are valid, in order, and not too many. -/
def NoncesTogether (b : MemoryNonceBackend) (f : AtomicFile NonceEntries) (calls : List NonceCall) :
    Prop :=
  ∃ now, SameNonces now b f ∧ (∀ c ∈ calls, c.Valid ∧ now ≤ c.now) ∧
    calls.Pairwise (fun c d => c.now ≤ d.now) ∧ memoryNonces.Throughout Roomy b calls

theorem decides_nonces :
    Decides memoryNonces fileNonces (fun s c => OffExpiry s.1 c) NoncesTogether where
  agree b f c rest := by
    rintro ⟨now, hsame, hcalls, horder, hroomy⟩ hoff
    obtain ⟨hvalid, hnow⟩ := hcalls c List.mem_cons_self
    have hfile := checkAndConsume_file hvalid hsame.natural
    have hdrop := hsame.drop hnow
    have hlater : ∀ d ∈ rest, d.Valid ∧ c.now ≤ d.now := fun d hd =>
      ⟨(hcalls d (List.mem_cons_of_mem _ hd)).1, (List.pairwise_cons.mp horder).1 d hd⟩
    have hanswer : (b.sweep (.fin c.now)).seen.has c.nonce = (unexpired f c.now).has c.nonce := by
      rw [Bool.eq_iff_iff, has_sweep_iff hsame.whole, has_unexpired_iff hsame hnow]
      constructor
      · rintro ⟨e, hget, hle⟩
        refine ⟨e, hget, lt_of_le_of_ne hle ?_⟩
        rintro rfl
        exact hoff hget
      · rintro ⟨e, hget, hlt⟩
        exact ⟨e, hget, hlt.le⟩
    have hstep : memoryNonces.step b c = (.ok ((b.sweep (.fin c.now)).seen.has c.nonce),
        if (b.sweep (.fin c.now)).seen.has c.nonce then b.sweep (.fin c.now)
        else ⟨(b.sweep (.fin c.now)).seen.set c.nonce (.fin ((c.now + c.ttlMs : ℤ) : ℚ))⟩) := by
      have hshed : (b.sweep (.fin c.now)).shed = b.sweep (.fin c.now) :=
        if_neg (not_le.mpr hroomy.1)
      simp only [memoryNonces, MemoryNonceBackend.checkAndConsume, hshed, hvalid.expires.1]
      cases (b.sweep (.fin c.now)).seen.has c.nonce <;> rfl
    refine ⟨by rw [hstep, hfile, hanswer], c.now, ?_, hlater, (List.pairwise_cons.mp horder).2,
      hroomy.2⟩
    rw [hstep, hfile, hanswer]
    cases (unexpired f c.now).has c.nonce with
    | true => exact hdrop
    | false => exact hdrop.set hvalid.expires.2 c.nonce
  differ b f c rest := by
    rintro ⟨now, hsame, hcalls, -, -⟩ hoff
    obtain ⟨hvalid, hnow⟩ := hcalls c List.mem_cons_self
    have hget : b.seen.get c.nonce = some (.fin c.now) := not_not.mp hoff
    have hmemory : (b.sweep (.fin c.now)).seen.has c.nonce = true :=
      (has_sweep_iff hsame.whole c.nonce).mpr ⟨c.now, hget, le_rfl⟩
    have hfile : (unexpired f c.now).has c.nonce = false := by
      rw [← Bool.not_eq_true, has_unexpired_iff hsame hnow]
      rintro ⟨e, he, hlt⟩
      rw [hget, Option.some.injEq, JsNumber.fin.injEq, Int.cast_inj] at he
      omega
    rw [checkAndConsume_file hvalid hsame.natural, hfile]
    have hanswer : (memoryNonces.step b c).1 = .ok true := by
      simp [memoryNonces, MemoryNonceBackend.checkAndConsume, hmemory]
    rw [hanswer]
    simp

theorem sameNonces_empty (now : ℤ) : SameNonces now .empty none where
  whole _ _ h := nomatch h
  natural _ _ h := nomatch h
  same _ _ _ := by simp [MemoryNonceBackend.empty]

/-- **A file answers for nonces as the memory does**, exactly when no call comes for a nonce at the
    moment at which its time to live ends. -/
theorem fileNonces_eq_iff {calls : List NonceCall} (hvalid : ∀ c ∈ calls, c.Valid)
    (horder : calls.Pairwise fun c d => c.now ≤ d.now)
    (hroomy : memoryNonces.Throughout Roomy .empty calls) :
    memoryNonces.outputs .empty calls = fileNonces.outputs none calls ↔
      (memoryNonces.both fileNonces).Throughout (fun s c => OffExpiry s.1 c) (.empty, none) calls :=
  decides_nonces.outputs_eq_iff
    ⟨0, sameNonces_empty 0, fun c hc => ⟨hvalid c hc, (hvalid c hc).2.2.1⟩, horder, hroomy⟩

/-! ## Counters -/

/-- An operation of an anomaly store. -/
inductive CounterOp where
  | increment (key : JsString) (ttlMs : ℤ)
  | get (key : JsString)
  | reset (key : JsString)

structure CounterCall where
  op : CounterOp
  now : ℤ

/-- The key of a call that reads a counter. -/
def CounterOp.reads : CounterOp → Option JsString
  | increment key _ => some key
  | get key => some key
  | reset _ => none

/-- Key, time to live and moment of expiry are valid. -/
def CounterCall.Valid (c : CounterCall) : Prop :=
  0 ≤ c.now ∧ ∀ key ttlMs, c.op = .increment key ttlMs →
    validKey key = true ∧ validTtl ttlMs = true ∧ Js.isSafeInteger (c.now + ttlMs) = true

def memoryCounters : Machine MemoryAnomalyStore CounterCall (Except FileStoreError ℕ) where
  step s c :=
    match c.op with
    | .increment key ttlMs =>
        (.ok (s.increment key ttlMs c.now).1, (s.increment key ttlMs c.now).2)
    | .get key => (.ok (s.get key c.now), s)
    | .reset key => (.ok 0, s.reset key)

def fileCounters : Machine (AtomicFile AnomalyEntries) CounterCall (Except FileStoreError ℕ) where
  step f c :=
    match c.op with
    | .increment key ttlMs => FileAnomalyStore.increment f key ttlMs c.now
    | .get key => FileAnomalyStore.get f key c.now
    | .reset key =>
        ((FileAnomalyStore.reset f key).1.map fun _ => 0, (FileAnomalyStore.reset f key).2)

/-- The counter of a key in a file, unless it has expired. -/
def fileLive (f : AtomicFile AnomalyEntries) (key : JsString) (now : ℤ) : Option Counter :=
  ((f.getD .empty).get key).filter fun v => decide (now < v.expiresAt)

/-- Memory and file both still count under the key of a call, or neither does. -/
def SameLife (s : MemoryAnomalyStore) (f : AtomicFile AnomalyEntries) (c : CounterCall) : Prop :=
  ∀ key, c.op.reads = some key → (s.live key c.now).isSome = (fileLive f key c.now).isSome

/-- What is incremented in a file stays a safe integer. -/
def CanCount (f : AtomicFile AnomalyEntries) (c : CounterCall) : Prop :=
  ∀ key ttlMs, c.op = .increment key ttlMs →
    (fileLive f key c.now).elim 0 Counter.value < 9007199254740991

/-- Memory and file at `now`: a counter that lives in both has one value. -/
structure SameCounts (now : ℤ) (s : MemoryAnomalyStore) (f : AtomicFile AnomalyEntries) : Prop where
  natural : ∀ key v, (f.getD .empty).get key = some v →
    natural v.value = true ∧ natural v.expiresAt = true
  counted : ∀ key v, s.counters.get key = some v → 1 ≤ v.value
  fileCounted : ∀ key v, (f.getD .empty).get key = some v → 1 ≤ v.value
  same : ∀ key v w, s.live key now = some v → fileLive f key now = some w → v.value = w.value

section Counters

variable {s : MemoryAnomalyStore} {f : AtomicFile AnomalyEntries} {now later ttlMs : ℤ}
  {key : JsString} {v w : Counter}

theorem fileLive_eq_some :
    fileLive f key now = some v ↔ (f.getD .empty).get key = some v ∧ now < v.expiresAt := by
  rw [fileLive, Option.filter_eq_some_iff, decide_eq_true_eq]

/-! ### What a file does -/

theorem load_counters (h : SameCounts now s f) :
    f.load .empty FileAnomalyStore.decode = .ok (f.getD .empty) := by
  have hdecode : FileAnomalyStore.decode (f.getD .empty) = .ok (f.getD .empty) := by
    have hall : ((f.getD .empty).values.all fun x => natural x.value && natural x.expiresAt) =
        true := by
      rw [List.all_eq_true]
      intro v hv
      obtain ⟨key, hget⟩ := OrderedMap.mem_values.mp hv
      rw [(h.natural key v hget).1, (h.natural key v hget).2]
      rfl
    rw [FileAnomalyStore.decode, require_of hall]
    rfl
  cases f with
  | none => rfl
  | some d => exact hdecode

/-- The entries that an increment finds. -/
def counting (f : AtomicFile AnomalyEntries) (now : ℤ) : AnomalyEntries :=
  (f.getD .empty).filter fun _ v => !decide (v.expiresAt ≤ now)

theorem get_counting : (counting f now).get key = fileLive f key now := by
  rw [counting, OrderedMap.get_filter, fileLive]
  congr 1
  funext v
  rw [Bool.eq_iff_iff]
  simp

/-- The value that an increment of a file reaches. -/
def nextValue (f : AtomicFile AnomalyEntries) (key : JsString) (now : ℤ) : ℕ :=
  (fileLive f key now).elim 0 Counter.value + 1

theorem count_eq :
    FileAnomalyStore.count key ttlMs now (f.getD .empty) =
      (do
        require (Js.isSafeInteger (now + ttlMs) = true) FileStoreError.anomalyInputInvalid
        require (Js.isSafeInteger (nextValue f key now) = true) FileStoreError.anomalyInputInvalid
        pure (some ((counting f now).set key ⟨nextValue f key now, now + ttlMs⟩),
          nextValue f key now)) := by
  have hvalue : ((counting f now).get key).filter (fun v => decide (now < v.expiresAt)) =
      fileLive f key now := by
    rw [get_counting, fileLive, Option.filter_filter]
    simp
  have hnext : (((counting f now).get key).filter fun v => decide (now < v.expiresAt)).elim 0
      Counter.value + 1 = nextValue f key now := by
    rw [hvalue, nextValue]
  rw [← hnext]
  rfl

theorem increment_file (h : SameCounts now s f) (hkey : validKey key = true)
    (httl : validTtl ttlMs = true) (hexpires : Js.isSafeInteger (later + ttlMs) = true)
    (hvalue : (fileLive f key later).elim 0 Counter.value < 9007199254740991) :
    FileAnomalyStore.increment f key ttlMs later =
      (.ok (nextValue f key later),
        some ((counting f later).set key ⟨nextValue f key later, later + ttlMs⟩)) := by
  have hsafe : Js.isSafeInteger (nextValue f key later) = true := isSafeInteger_natCast.mpr hvalue
  have hcount : FileAnomalyStore.count key ttlMs later (f.getD .empty) =
      .ok (some ((counting f later).set key ⟨nextValue f key later, later + ttlMs⟩),
        nextValue f key later) := by
    rw [count_eq, require_of hexpires, require_of hsafe]
    rfl
  rw [FileAnomalyStore.increment, hkey, httl, AtomicFile.tx_of_ok (load_counters h) hcount]
  rfl

/-- Past the last safe integer an increment is refused. -/
theorem increment_file_refused (h : SameCounts now s f) (hkey : validKey key = true)
    (httl : validTtl ttlMs = true) (hexpires : Js.isSafeInteger (later + ttlMs) = true)
    (hvalue : ¬(fileLive f key later).elim 0 Counter.value < 9007199254740991) :
    (FileAnomalyStore.increment f key ttlMs later).1 = .error .anomalyInputInvalid := by
  have hunsafe : ¬Js.isSafeInteger (nextValue f key later) = true :=
    fun hsafe => hvalue (isSafeInteger_natCast.mp hsafe)
  rw [FileAnomalyStore.increment, hkey, httl, AtomicFile.tx, load_counters h, ok_bind, count_eq,
    require_of hexpires, require_of_not hunsafe]
  rfl

theorem get_file (h : SameCounts now s f) :
    FileAnomalyStore.get f key later = (.ok ((fileLive f key later).elim 0 Counter.value), f) := by
  rw [FileAnomalyStore.get, AtomicFile.tx_of_ok (load_counters h) rfl]
  rfl

theorem reset_file (h : SameCounts now s f) :
    FileAnomalyStore.reset f key = (.ok (), some ((f.getD .empty).delete key)) := by
  rw [FileAnomalyStore.reset, AtomicFile.tx_of_ok (load_counters h) rfl]
  rfl

/-! ### What both hold -/

/-- What lives later lives now. -/
theorem SameCounts.mono (h : SameCounts now s f) (hlater : now ≤ later) : SameCounts later s f where
  natural := h.natural
  counted := h.counted
  fileCounted := h.fileCounted
  same key v w hv hw := by
    rw [MemoryAnomalyStore.live_eq_some] at hv
    rw [fileLive_eq_some] at hw
    refine h.same key v w (MemoryAnomalyStore.live_eq_some.mpr ⟨hv.1, by omega⟩)
      (fileLive_eq_some.mpr ⟨hw.1, by omega⟩)

theorem SameCounts.reset (h : SameCounts now s f) (key : JsString) :
    SameCounts now (s.reset key) (some ((f.getD .empty).delete key)) := by
  have hmemory : ∀ other v, (s.reset key).counters.get other = some v →
      s.counters.get other = some v := by
    intro other v hget
    rw [MemoryAnomalyStore.reset, OrderedMap.get_delete] at hget
    split at hget
    · cases hget
    · exact hget
  have hfile : ∀ other v, ((f.getD .empty).delete key).get other = some v →
      (f.getD .empty).get other = some v := by
    intro other v hget
    rw [OrderedMap.get_delete] at hget
    split at hget
    · cases hget
    · exact hget
  exact
    { natural := fun other v hget => h.natural other v (hfile other v hget)
      counted := fun other v hget => h.counted other v (hmemory other v hget)
      fileCounted := fun other v hget => h.fileCounted other v (hfile other v hget)
      same := fun other v w hv hw => by
        rw [MemoryAnomalyStore.live_eq_some] at hv
        rw [fileLive_eq_some] at hw
        exact h.same other v w (MemoryAnomalyStore.live_eq_some.mpr ⟨hmemory other v hv.1, hv.2⟩)
          (fileLive_eq_some.mpr ⟨hfile other w hw.1, hw.2⟩) }

/-- An increment that finds both alive, or neither, makes both count on from one value. -/
theorem SameCounts.increment (h : SameCounts now s f) (hlife : (s.live key now).isSome =
    (fileLive f key now).isSome) (hvalue : (fileLive f key now).elim 0 Counter.value <
      9007199254740991) (hexpires : Files.natural (now + ttlMs) = true) :
    (s.increment key ttlMs now).1 = nextValue f key now ∧
      SameCounts now (s.increment key ttlMs now).2
        (some ((counting f now).set key ⟨nextValue f key now, now + ttlMs⟩)) := by
  have hother : ∀ other v, other ≠ key → (counting f now).get other = some v →
      (f.getD .empty).get other = some v := by
    intro other v _ hget
    rw [get_counting, fileLive_eq_some] at hget
    exact hget.1
  have hnext : (s.increment key ttlMs now).1 = nextValue f key now ∧
      ∃ v : Counter, (s.increment key ttlMs now).2.counters.get key = some v ∧
        v.value = nextValue f key now := by
    cases hmemory : s.live key now with
    | none =>
        have hfile : fileLive f key now = none := by
          rw [hmemory] at hlife
          exact Option.isNone_iff_eq_none.mp (Option.isSome_eq_false_iff.mp hlife.symm)
        rw [MemoryAnomalyStore.increment_of_not_live hmemory, nextValue, hfile]
        exact ⟨rfl, _, OrderedMap.get_set_self _ _ _, rfl⟩
    | some v =>
        rw [hmemory] at hlife
        obtain ⟨w, hfile⟩ := Option.isSome_iff_exists.mp hlife.symm
        have hsame := h.same key v w hmemory hfile
        rw [MemoryAnomalyStore.increment_of_live hmemory, nextValue, hfile]
        exact ⟨congrArg (· + 1) hsame, _, OrderedMap.get_set_self _ _ _, congrArg (· + 1) hsame⟩
  refine ⟨hnext.1, ?_, ?_, ?_, ?_⟩
  · intro other v hget
    rw [Option.getD_some, OrderedMap.get_set] at hget
    split at hget
    · cases hget
      exact ⟨natural_iff.mpr ⟨by simp, by exact_mod_cast hvalue⟩, hexpires⟩
    · next hne => exact h.natural other v (hother other v hne hget)
  · intro other v hget
    by_cases hne : other = key
    · obtain ⟨w, hw, hvalue⟩ := hnext.2
      subst hne
      rw [hw] at hget
      cases hget
      rw [hvalue, nextValue]
      omega
    · rw [MemoryAnomalyStore.counters_increment_of_ne hne] at hget
      exact h.counted other v hget
  · intro other v hget
    rw [Option.getD_some, OrderedMap.get_set] at hget
    split at hget
    · cases hget
      exact Nat.succ_le_succ (Nat.zero_le _)
    · next hne => exact h.fileCounted other v (hother other v hne hget)
  · intro other v w hv hw
    rw [fileLive_eq_some, Option.getD_some, OrderedMap.get_set] at hw
    by_cases hne : other = key
    · subst hne
      rw [if_pos rfl] at hw
      cases hw.1
      obtain ⟨u, hu, hvalue⟩ := hnext.2
      rw [MemoryAnomalyStore.live_eq_some, hu] at hv
      cases hv.1
      exact hvalue
    · rw [if_neg hne] at hw
      rw [MemoryAnomalyStore.live_increment_of_ne hne] at hv
      exact h.same other v w hv (fileLive_eq_some.mpr ⟨hother other w hne hw.1, hw.2⟩)

/-- An increment that finds one alive and the other not is answered differently. -/
theorem SameCounts.increment_ne (h : SameCounts now s f) (hlife : (s.live key now).isSome ≠
    (fileLive f key now).isSome) : (s.increment key ttlMs now).1 ≠ nextValue f key now := by
  cases hmemory : s.live key now with
  | none =>
      rw [hmemory] at hlife
      obtain ⟨w, hfile⟩ := Option.ne_none_iff_exists'.mp (by simpa using hlife)
      have hpos := h.fileCounted key w (fileLive_eq_some.mp hfile).1
      rw [MemoryAnomalyStore.increment_of_not_live hmemory, nextValue, hfile, Option.elim_some]
      omega
  | some v =>
      rw [hmemory] at hlife
      have hfile : fileLive f key now = none := by simpa using hlife
      have hpos := h.counted key v (MemoryAnomalyStore.live_eq_some.mp hmemory).1
      rw [MemoryAnomalyStore.increment_of_live hmemory, nextValue, hfile, Option.elim_none]
      omega

/-- So is a reading. -/
theorem SameCounts.get_eq_iff (h : SameCounts now s f) :
    s.get key now = (fileLive f key now).elim 0 Counter.value ↔
      (s.live key now).isSome = (fileLive f key now).isSome := by
  cases hmemory : s.live key now with
  | none =>
      rw [MemoryAnomalyStore.get_of_not_live hmemory]
      cases hfile : fileLive f key now with
      | none => simp
      | some w =>
          have hpos := h.fileCounted key w (fileLive_eq_some.mp hfile).1
          simp
          omega
  | some v =>
      rw [MemoryAnomalyStore.get_of_live hmemory]
      cases hfile : fileLive f key now with
      | none =>
          have hpos := h.counted key v (MemoryAnomalyStore.live_eq_some.mp hmemory).1
          simp
          omega
      | some w =>
          have hsame := h.same key v w hmemory hfile
          simp [hsame]

end Counters

/-! ### Runs -/

/-- Memory and file agree, and the calls to come are valid and in order. -/
def CountsTogether (s : MemoryAnomalyStore) (f : AtomicFile AnomalyEntries)
    (calls : List CounterCall) : Prop :=
  ∃ now, SameCounts now s f ∧ (∀ c ∈ calls, c.Valid ∧ now ≤ c.now) ∧
    calls.Pairwise fun c d => c.now ≤ d.now

theorem decides_counters :
    Decides memoryCounters fileCounters (fun s c => SameLife s.1 s.2 c ∧ CanCount s.2 c)
      CountsTogether where
  agree s f c rest := by
    rintro ⟨now, hsame, hcalls, horder⟩ ⟨hlife, hcan⟩
    obtain ⟨op, time⟩ := c
    obtain ⟨hvalid, hnow⟩ := hcalls _ List.mem_cons_self
    have hlater : ∀ d ∈ rest, d.Valid ∧ time ≤ d.now := fun d hd =>
      ⟨(hcalls d (List.mem_cons_of_mem _ hd)).1, (List.pairwise_cons.mp horder).1 d hd⟩
    have htime := hsame.mono hnow
    have hrest := (List.pairwise_cons.mp horder).2
    cases op with
    | increment key ttlMs =>
        obtain ⟨hkey, httl, hexpires⟩ := hvalid.2 key ttlMs rfl
        have hnatural : natural (time + ttlMs) = true := by
          have hpos : 1 ≤ ttlMs := of_decide_eq_true ((Bool.and_eq_true _ _).mp httl).2
          have htime : 0 ≤ time := hvalid.1
          rw [natural, hexpires, Bool.true_and, decide_eq_true_eq]
          omega
        have hstep := increment_file htime hkey httl hexpires (hcan key ttlMs rfl)
        obtain ⟨hanswer, hnext⟩ := htime.increment (hlife key rfl) (hcan key ttlMs rfl) hnatural
        have hfile : fileCounters.step f ⟨.increment key ttlMs, time⟩ = _ := hstep
        rw [hfile]
        exact ⟨congrArg Except.ok hanswer, time, hnext, hlater, hrest⟩
    | get key =>
        have hfile : fileCounters.step f ⟨.get key, time⟩ = _ := get_file htime
        rw [hfile]
        exact ⟨congrArg Except.ok (htime.get_eq_iff.mpr (hlife key rfl)), time, htime, hlater, hrest⟩
    | reset key =>
        have hfile : fileCounters.step f ⟨.reset key, time⟩ =
            (.ok 0, some ((f.getD .empty).delete key)) := by
          show (((FileAnomalyStore.reset f key).1.map fun _ => 0), (FileAnomalyStore.reset f key).2) = _
          rw [reset_file htime]
          rfl
        rw [hfile]
        exact ⟨rfl, time, htime.reset key, hlater, hrest⟩
  differ s f c rest := by
    rintro ⟨now, hsame, hcalls, -⟩ hnot
    obtain ⟨op, time⟩ := c
    obtain ⟨hvalid, hnow⟩ := hcalls _ List.mem_cons_self
    have htime := hsame.mono hnow
    cases op with
    | increment key ttlMs =>
        obtain ⟨hkey, httl, hexpires⟩ := hvalid.2 key ttlMs rfl
        show Except.ok (s.increment key ttlMs time).1 ≠ (FileAnomalyStore.increment f key ttlMs time).1
        by_cases hvalue : (fileLive f key time).elim 0 Counter.value < 9007199254740991
        · have hlife : (s.live key time).isSome ≠ (fileLive f key time).isSome := by
            intro hlife
            refine hnot ⟨fun k hk => ?_, fun k t hk => ?_⟩
            · cases hk
              exact hlife
            · cases hk
              exact hvalue
          rw [increment_file htime hkey httl hexpires hvalue]
          exact fun heq => htime.increment_ne hlife (Except.ok.inj heq)
        · rw [increment_file_refused htime hkey httl hexpires hvalue]
          exact fun heq => nomatch heq
    | get key =>
        show Except.ok (s.get key time) ≠ (FileAnomalyStore.get f key time).1
        rw [get_file htime]
        intro heq
        refine hnot ⟨fun k hk => ?_, fun k t hk => nomatch hk⟩
        cases hk
        exact htime.get_eq_iff.mp (Except.ok.inj heq)
    | reset key => exact absurd ⟨fun k hk => (nomatch hk), fun k t hk => (nomatch hk)⟩ hnot

theorem sameCounts_empty (now : ℤ) : SameCounts now .empty none where
  natural _ _ h := nomatch h
  counted _ _ h := nomatch h
  fileCounted _ _ h := nomatch h
  same _ _ _ h := nomatch h

/-- **A file answers for counters as the memory does**, exactly when every counter that is read or
    incremented lives in both or in neither, and none passes the last safe integer. -/
theorem fileCounters_eq_iff {calls : List CounterCall} (hvalid : ∀ c ∈ calls, c.Valid)
    (horder : calls.Pairwise fun c d => c.now ≤ d.now) :
    memoryCounters.outputs .empty calls = fileCounters.outputs none calls ↔
      (memoryCounters.both fileCounters).Throughout
        (fun s c => SameLife s.1 s.2 c ∧ CanCount s.2 c) (.empty, none) calls :=
  decides_counters.outputs_eq_iff
    ⟨0, sameCounts_empty 0, fun c hc => ⟨hvalid c hc, (hvalid c hc).1⟩, horder⟩

/-- **Files in the place of memory**: for nonces and for counters, the answers of a run agree exactly
    when no call finds an entry that has expired in one of them and not in the other. -/
theorem files_interchangeable {nonces : List NonceCall} {counters : List CounterCall}
    (hnonces : ∀ c ∈ nonces, c.Valid) (hcounters : ∀ c ∈ counters, c.Valid)
    (hnonceClock : nonces.Pairwise fun c d => c.now ≤ d.now)
    (hcounterClock : counters.Pairwise fun c d => c.now ≤ d.now)
    (hroomy : memoryNonces.Throughout Roomy .empty nonces) :
    (memoryNonces.outputs .empty nonces = fileNonces.outputs none nonces ↔
      (memoryNonces.both fileNonces).Throughout (fun s c => OffExpiry s.1 c) (.empty, none)
        nonces) ∧
    (memoryCounters.outputs .empty counters = fileCounters.outputs none counters ↔
      (memoryCounters.both fileCounters).Throughout
        (fun s c => SameLife s.1 s.2 c ∧ CanCount s.2 c) (.empty, none) counters) :=
  ⟨fileNonces_eq_iff hnonces hnonceClock hroomy, fileCounters_eq_iff hcounters hcounterClock⟩

/-- A nonce, and the same one behind its time to live. -/
def sampleNonces (again : ℤ) : List NonceCall :=
  [⟨[110], 1000, 0⟩, ⟨[110], 1000, again⟩]

/-- A counter that is incremented twice within its lifetime and then read. -/
def sampleCounters (read : ℤ) : List CounterCall :=
  [⟨.increment [107] 1000, 0⟩, ⟨.increment [107] 1000, 500⟩, ⟨.get [107], read⟩]

/-- Before the first lifetime is over, all answers agree. -/
theorem files_interchangeable_sample :
    (memoryNonces.outputs .empty (sampleNonces 999) = fileNonces.outputs none (sampleNonces 999) ↔
      (memoryNonces.both fileNonces).Throughout (fun s c => OffExpiry s.1 c) (.empty, none)
        (sampleNonces 999)) ∧
    (memoryCounters.outputs .empty (sampleCounters 900) =
        fileCounters.outputs none (sampleCounters 900) ↔
      (memoryCounters.both fileCounters).Throughout
        (fun s c => SameLife s.1 s.2 c ∧ CanCount s.2 c) (.empty, none) (sampleCounters 900)) := by
  have hnonce : ∀ now : ℤ, 0 ≤ now → now ≤ 1000 → NonceCall.Valid ⟨[110], 1000, now⟩ := by
    intro now hnow hle
    have hmax : Js.maxSafeInteger = 9007199254740991 := rfl
    have hkey : validKey [110] = true := by decide
    have httl : validTtl 1000 = true := by decide
    refine ⟨hkey, httl, hnow, ?_⟩
    simp only [Js.isSafeInteger, Bool.and_eq_true, decide_eq_true_eq]
    omega
  have hcount : ∀ now : ℤ, 0 ≤ now → now ≤ 1000 →
      CounterCall.Valid ⟨.increment [107] 1000, now⟩ := by
    intro now hnow hle
    have hmax : Js.maxSafeInteger = 9007199254740991 := rfl
    refine ⟨hnow, fun key ttlMs heq => ?_⟩
    cases heq
    refine ⟨by decide, by decide, ?_⟩
    simp only [Js.isSafeInteger, Bool.and_eq_true, decide_eq_true_eq]
    omega
  have hread : CounterCall.Valid ⟨.get [107], 900⟩ := by
    refine ⟨by decide, fun _ _ heq => ?_⟩
    cases heq
  have hroomy : memoryNonces.Throughout Roomy .empty (sampleNonces 999) :=
    ⟨by unfold Roomy; decide +kernel, by unfold Roomy; decide +kernel, trivial⟩
  refine files_interchangeable ?_ ?_ ?_ ?_ hroomy
  · intro c hc
    simp only [sampleNonces, List.mem_cons, List.not_mem_nil, or_false] at hc
    rcases hc with rfl | rfl
    · exact hnonce 0 (by decide) (by decide)
    · exact hnonce 999 (by decide) (by decide)
  · intro c hc
    simp only [sampleCounters, List.mem_cons, List.not_mem_nil, or_false] at hc
    rcases hc with rfl | rfl | rfl
    · exact hcount 0 (by decide) (by decide)
    · exact hcount 500 (by decide) (by decide)
    · exact hread
  · simp [sampleNonces]
  · simp [sampleCounters]

/-- At the end of its time to live a nonce is a replay in memory and new in a file, and a counter
    that was incremented meanwhile is over in memory and counts on in a file. -/
theorem files_not_interchangeable :
    memoryNonces.outputs .empty (sampleNonces 1000) = [.ok false, .ok true] ∧
      fileNonces.outputs none (sampleNonces 1000) = [.ok false, .ok false] ∧
      memoryCounters.outputs .empty (sampleCounters 1200) = [.ok 1, .ok 2, .ok 0] ∧
      fileCounters.outputs none (sampleCounters 1200) = [.ok 1, .ok 2, .ok 2] := by
  refine ⟨?_, ?_, ?_, ?_⟩ <;> decide +kernel

end Files
