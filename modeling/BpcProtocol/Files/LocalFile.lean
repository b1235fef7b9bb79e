import BpcProtocol.Anomaly.Store
import BpcProtocol.Lib.Fallible
import BpcProtocol.Nonce.MemoryBackend

set_option autoImplicit false

/-! # Local files

`FileNonceBackend` and `FileAnomalyStore` keep their entries in a file that every operation loads,
checks and, where it has changed, replaces. A file is what is parsed of it; the lock is free and the
disk does not fail. -/

namespace Files

open Fallible

/-- What the file stores throw. -/
inductive FileStoreError where
  | corrupt
  | nonceInputInvalid
  | anomalyInputInvalid
  deriving DecidableEq

/-- The contents of a file, `none` where it does not exist. -/
abbrev AtomicFile (T : Type) := Option T

namespace AtomicFile

variable {T R : Type}

/-- `load()`. -/
def load (empty : T) (decode : T → Except FileStoreError T) (f : AtomicFile T) :
    Except FileStoreError T :=
  f.elim (.ok empty) decode

/-- What a transaction leaves: a result, and the file replaced where there is a next value. -/
def commit (f : AtomicFile T) : Except FileStoreError (Option T × R) →
    Except FileStoreError R × AtomicFile T
  | .ok (next, result) => (.ok result, next.or f)
  | .error e => (.error e, f)

/-- `tx(fn)`. -/
def tx (empty : T) (decode : T → Except FileStoreError T)
    (fn : T → Except FileStoreError (Option T × R)) (f : AtomicFile T) :
    Except FileStoreError R × AtomicFile T :=
  f.commit (f.load empty decode >>= fn)

theorem tx_of_ok {empty : T} {decode : T → Except FileStoreError T}
    {fn : T → Except FileStoreError (Option T × R)} {f : AtomicFile T} {current : T}
    {next : Option T} {result : R} (hload : f.load empty decode = .ok current)
    (hfn : fn current = .ok (next, result)) : f.tx empty decode fn = (.ok result, next.or f) := by
  rw [tx, hload, ok_bind, hfn]
  rfl

end AtomicFile

/-- `natural(v)`, for an integer. -/
def natural (n : ℤ) : Bool :=
  Js.isSafeInteger n && decide (0 ≤ n)

/-- `pairId(v)`, for a string: what may be a key. -/
def validKey (key : JsString) : Bool :=
  decide (0 < key.length) && decide (key.length ≤ 128) &&
    !(["__proto__", "constructor", "prototype"].map Js.lit).contains key

/-- `Number.isSafeInteger(ttlMs) && ttlMs >= 1`. -/
def validTtl (ttlMs : ℤ) : Bool :=
  Js.isSafeInteger ttlMs && decide (1 ≤ ttlMs)

/-! ## Nonces -/

/-- `Record<string, NonceEntry>`: nonces and the moments at which they expire. -/
abbrev NonceEntries := OrderedMap JsString ℤ

namespace FileNonceBackend

/-- `decode(v)`. -/
def decode (v : NonceEntries) : Except FileStoreError NonceEntries := do
  require (v.values.all natural = true) FileStoreError.corrupt
  pure v

/-- What `checkAndConsume` makes of the entries. -/
def consume (nonce : JsString) (ttlMs now : ℤ) (d : NonceEntries) :
    Except FileStoreError (Option NonceEntries × Bool) := do
  require (Js.isSafeInteger (now + ttlMs) = true) FileStoreError.nonceInputInvalid
  let n := d.filter fun _ expiresAt => !decide (expiresAt ≤ now)
  let replay := (n.get nonce).any fun expiresAt => decide (now < expiresAt)
  pure (some (if replay then n else n.set nonce (now + ttlMs)), replay)

/-- `checkAndConsume(nonce, ttlMs)`. -/
def checkAndConsume (f : AtomicFile NonceEntries) (nonce : JsString) (ttlMs now : ℤ) :
    Except FileStoreError Bool × AtomicFile NonceEntries :=
  if validKey nonce && validTtl ttlMs then f.tx .empty decode (consume nonce ttlMs now)
  else (.error .nonceInputInvalid, f)

end FileNonceBackend

/-! ## Counters -/

/-- `Record<string, AnomalyEntry>`. -/
abbrev AnomalyEntries := OrderedMap JsString Anomaly.Counter

namespace FileAnomalyStore

/-- `decode(v)`. -/
def decode (v : AnomalyEntries) : Except FileStoreError AnomalyEntries := do
  require ((v.values.all fun x => natural x.value && natural x.expiresAt) = true)
    FileStoreError.corrupt
  pure v

/-- What `increment` makes of the entries: also the lifetime starts again. -/
def count (key : JsString) (ttlMs now : ℤ) (d : AnomalyEntries) :
    Except FileStoreError (Option AnomalyEntries × ℕ) := do
  require (Js.isSafeInteger (now + ttlMs) = true) FileStoreError.anomalyInputInvalid
  let n := d.filter fun _ v => !decide (v.expiresAt ≤ now)
  let value := ((n.get key).filter fun v => decide (now < v.expiresAt)).elim 0 Anomaly.Counter.value + 1
  require (Js.isSafeInteger value = true) FileStoreError.anomalyInputInvalid
  pure (some (n.set key ⟨value, now + ttlMs⟩), value)

/-- `increment(key, ttlMs)`. -/
def increment (f : AtomicFile AnomalyEntries) (key : JsString) (ttlMs now : ℤ) :
    Except FileStoreError ℕ × AtomicFile AnomalyEntries :=
  if validKey key && validTtl ttlMs then f.tx .empty decode (count key ttlMs now)
  else (.error .anomalyInputInvalid, f)

/-- `get(key)`. -/
def get (f : AtomicFile AnomalyEntries) (key : JsString) (now : ℤ) :
    Except FileStoreError ℕ × AtomicFile AnomalyEntries :=
  f.tx .empty decode fun d =>
    .ok (none, ((d.get key).filter fun v => decide (now < v.expiresAt)).elim 0 Anomaly.Counter.value)

/-- `reset(key)`. -/
def reset (f : AtomicFile AnomalyEntries) (key : JsString) :
    Except FileStoreError Unit × AtomicFile AnomalyEntries :=
  f.tx .empty decode fun d => .ok (some (d.delete key), ())

end FileAnomalyStore

end Files
