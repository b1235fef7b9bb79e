import BpcProtocol.Js.Ascii
import BpcProtocol.Js.Base64
import BpcProtocol.Js.Decoding
import BpcProtocol.Js.JsonParsed
import BpcProtocol.Lib.History
import BpcProtocol.Lib.OrderedMap
import BpcProtocol.Lib.Sha256
import BpcProtocol.Pair.Middleware

set_option autoImplicit false

/-! # The agent credential cache

Entries are sealed by a protector of the platform and put into a store that nothing else protects.
An entry that is read back is unsealed, checked, and compared with the state that is expected of it.
What the protector and the store answer is awaited; everything between two awaits is a function. -/

namespace AgentCache

open Fallible Async
open Js (lit)

/-! ## Errors and checks -/

/-- `CacheExpiredError`, `CacheTamperedError` and `CacheUnavailableError`. -/
inductive CacheError where
  | expired
  | tampered (message : String)
  | unavailable (message : String)
  deriving DecidableEq

/-- What a call throws: an error of the cache, or another one that a protector or a store throws. -/
inductive Thrown where
  | cache (e : CacheError)
  | other
  deriving DecidableEq

/-- `s.trim() === ''`. -/
def isBlank (s : JsString) : Bool :=
  (Js.trim s).isEmpty

def invalid (fieldName : String) : CacheError :=
  .tampered ("agent credential cache " ++ fieldName ++ " invalid")

def requireNonEmptyString (value : JsValue) (fieldName : String) : Except CacheError JsString :=
  match value with
  | .string s => if isBlank s then .error (invalid fieldName) else .ok s
  | _ => .error (invalid fieldName)

def requireFiniteTimestamp (value : JsValue) (fieldName : String) : Except CacheError JsNumber :=
  match value with
  | .number n => if n.isFinite then .ok n else .error (invalid fieldName)
  | _ => .error (invalid fieldName)

def assertCacheKey (cacheKey : JsString) : Except CacheError JsString := do
  require (isBlank cacheKey = false) (.unavailable "agent credential cache key is required")
  pure cacheKey

/-! ## Entries -/

structure AgentCredentialCacheEntry where
  version : JsValue
  principalId : JsString
  bindingHash : JsString
  policyDigest : JsString
  permissionsHash : JsString
  expiresAt : JsNumber
  sealedAt : JsNumber
  credentialMaterial : JsValue

/-- What an entry is made of; `credentialMaterial` is `none` where there is no such property. -/
structure CreateAgentCredentialCacheEntryInput where
  principalId : JsValue
  bindingHash : JsValue
  policyDigest : JsValue
  permissionsHash : JsValue
  expiresAt : JsValue
  credentialMaterial : Option JsValue
  nowMs : Option JsNumber

structure AgentCredentialCacheExpectedState where
  principalId : JsValue
  bindingHash : JsValue
  policyDigest : JsValue
  permissionsHash : JsValue
  nowMs : Option JsNumber

/-- The members of an entry, as it is written. -/
def AgentCredentialCacheEntry.fields (e : AgentCredentialCacheEntry) :
    List (JsString × JsValue) :=
  [(lit "version", e.version), (lit "principal_id", .string e.principalId),
    (lit "binding_hash", .string e.bindingHash), (lit "policy_digest", .string e.policyDigest),
    (lit "permissions_hash", .string e.permissionsHash), (lit "expires_at", .number e.expiresAt),
    (lit "sealed_at", .number e.sealedAt), (lit "credential_material", e.credentialMaterial)]

/-- `JSON.stringify(entry)`. -/
def AgentCredentialCacheEntry.serialized (e : AgentCredentialCacheEntry) : JsString :=
  (Js.stringify (.object e.fields)).getD []

/-- `createAgentCredentialCacheEntry(input)`, at the time `now`. -/
def createAgentCredentialCacheEntry (input : CreateAgentCredentialCacheEntryInput)
    (now : JsNumber) : Except CacheError AgentCredentialCacheEntry := do
  let principalId ← requireNonEmptyString input.principalId "principalId"
  let bindingHash ← requireNonEmptyString input.bindingHash "bindingHash"
  let policyDigest ← requireNonEmptyString input.policyDigest "policyDigest"
  let permissionsHash ← requireNonEmptyString input.permissionsHash "permissionsHash"
  let expiresAt ← requireFiniteTimestamp input.expiresAt "expiresAt"
  let sealedAt ← requireFiniteTimestamp (.number now) "nowMs"
  require (input.credentialMaterial.isSome = true)
    (.tampered "agent credential cache entry missing credential material")
  pure
    { version := .string (lit "1"), principalId, bindingHash, policyDigest, permissionsHash,
      expiresAt, sealedAt, credentialMaterial := input.credentialMaterial.getD .undefined }

/-- `Object.prototype.hasOwnProperty.call(v, key)` of an object that was parsed. -/
def hasOwn (v : JsValue) (key : JsString) : Bool :=
  match v with
  | .object fields => fields.any fun f => f.1 == key
  | _ => false

/-- `v && typeof v === 'object' && !Array.isArray(v)` of a value that was parsed. -/
def isRecord : JsValue → Bool
  | .object _ => true
  | _ => false

def isText (v : JsValue) (s : String) : Bool :=
  match v with
  | .string t => t == lit s
  | _ => false

def parseCacheEntry (serialized : JsString) : Except CacheError AgentCredentialCacheEntry := do
  let record ← (Js.parseJson serialized).elim
    (.error (.tampered "agent credential cache payload is not valid JSON")) .ok
  require (isRecord record = true) (.tampered "agent credential cache payload invalid")
  let version := record.get (lit "version")
  let principalId ← requireNonEmptyString (record.get (lit "principal_id")) "principal_id"
  let bindingHash ← requireNonEmptyString (record.get (lit "binding_hash")) "binding_hash"
  let policyDigest ← requireNonEmptyString (record.get (lit "policy_digest")) "policy_digest"
  let permissionsHash ←
    requireNonEmptyString (record.get (lit "permissions_hash")) "permissions_hash"
  let expiresAt ← requireFiniteTimestamp (record.get (lit "expires_at")) "expires_at"
  let sealedAt ← requireFiniteTimestamp (record.get (lit "sealed_at")) "sealed_at"
  require (isText version "1" = true)
    (.tampered "agent credential cache payload version invalid")
  require (hasOwn record (lit "credential_material") = true)
    (.tampered "agent credential cache payload missing credential material")
  pure
    { version, principalId, bindingHash, policyDigest, permissionsHash, expiresAt, sealedAt,
      credentialMaterial := record.get (lit "credential_material") }

/-- Two texts are compared by the digests of their bytes. -/
def constantTimeStringEqual (a b : JsString) : Bool :=
  Sha256.digest (Js.utf8 a) == Sha256.digest (Js.utf8 b)

def assertSameField (actual : JsString) (expected : JsValue) (fieldName : String) :
    Except CacheError Unit := do
  let expected ← requireNonEmptyString expected fieldName
  require (constantTimeStringEqual actual expected = true)
    (.tampered ("agent credential cache " ++ fieldName ++ " mismatch"))

/-- `validateEntryAgainstCurrentState(entry, expected)`, at the time `now`. -/
def validateEntryAgainstCurrentState (entry : AgentCredentialCacheEntry)
    (expected : AgentCredentialCacheExpectedState) (now : JsNumber) : Except CacheError Unit := do
  require (now.ge entry.expiresAt = false) .expired
  assertSameField entry.principalId expected.principalId "principal_id"
  assertSameField entry.bindingHash expected.bindingHash "binding_hash"
  assertSameField entry.policyDigest expected.policyDigest "policy_digest"
  assertSameField entry.permissionsHash expected.permissionsHash "permissions_hash"

/-! ## Envelopes -/

/-- The envelope of a ciphertext. -/
def sealedCache (protectedAt : JsNumber) (ciphertext : Bytes) : JsValue :=
  .object [(lit "version", .string (lit "1")), (lit "scope", .string (lit "CurrentUser")),
    (lit "protected_at", .number protectedAt),
    (lit "ciphertext_b64", .string (Js.btoa ciphertext))]

/-- `v && typeof v === 'object'`. -/
def isObject : JsValue → Bool
  | .object _ => true
  | .array _ => true
  | .other => true
  | _ => false

def validateSealedEnvelope (cache : JsValue) : Except CacheError Unit := do
  require (isObject cache = true) (.tampered "agent credential cache envelope invalid")
  require (isText (cache.get (lit "version")) "1" = true)
    (.tampered "agent credential cache version invalid")
  require (isText (cache.get (lit "scope")) "CurrentUser" = true)
    (.tampered "agent credential cache scope invalid")
  let _ ← requireNonEmptyString (cache.get (lit "ciphertext_b64")) "ciphertext_b64"
  let _ ← requireFiniteTimestamp (cache.get (lit "protected_at")) "protected_at"

/-- The ciphertext of an envelope that is valid. -/
def ciphertextOf (cache : JsValue) : Bytes :=
  match cache.get (lit "ciphertext_b64") with
  | .string text => Js.fromBase64 text
  | _ => []

/-- `protector.scope !== 'CurrentUser'` is refused. -/
def requireScope (scope : JsString) : Except CacheError Unit :=
  require (scope = lit "CurrentUser")
    (.unavailable "agent credential cache requires DPAPI CurrentUser scope")

/-! ## Calls -/

/-- What a call awaits: the time, the protector, and the store. -/
inductive CacheOp where
  | now
  | protect (plaintext : Bytes)
  | unprotect (ciphertext : Bytes)
  | put (cacheKey : JsString) (cache : JsValue)
  | get (cacheKey : JsString)

abbrev CacheOp.Answer : CacheOp → Type
  | now => JsNumber
  | protect _ => Except Thrown Bytes
  | unprotect _ => Except Thrown Bytes
  | put _ _ => Except Thrown Unit
  | get _ => Except Thrown JsValue

abbrev CacheProg := Prog CacheOp CacheOp.Answer Thrown

/-- A check of the cache. -/
def check {α : Type} (x : Except CacheError α) : CacheProg α :=
  .lift (x.mapError .cache)

/-- `nowMs ?? Date.now()`. -/
def nowOr (nowMs : Option JsNumber) : CacheProg JsNumber :=
  nowMs.elim (Prog.perform CacheOp.now) pure

def protect (plaintext : Bytes) : CacheProg Bytes :=
  .await (.protect plaintext) .lift

/-- What is thrown when the protector throws at an entry that is opened. -/
def unsealError : Thrown → Thrown
  | .cache e => .cache e
  | .other => .cache (.tampered "agent credential cache could not be unsealed")

def unprotect (ciphertext : Bytes) : CacheProg Bytes :=
  .await (.unprotect ciphertext) fun x => .lift (Except.mapError unsealError x)

def sealAgentCredentialCacheEntry (scope : JsString)
    (input : CreateAgentCredentialCacheEntryInput) : CacheProg JsValue := do
  check (requireScope scope)
  let now ← nowOr input.nowMs
  let entry ← check (createAgentCredentialCacheEntry input now)
  let ciphertext ← protect (Js.utf8 entry.serialized)
  pure (sealedCache entry.sealedAt ciphertext)

def openAgentCredentialCacheEntry (scope : JsString) (cache : JsValue)
    (expected : AgentCredentialCacheExpectedState) : CacheProg AgentCredentialCacheEntry := do
  check (validateSealedEnvelope cache)
  check (requireScope scope)
  let plaintext ← unprotect (ciphertextOf cache)
  let entry ← check (parseCacheEntry (Js.fromUtf8 plaintext))
  let now ← nowOr expected.nowMs
  check (validateEntryAgainstCurrentState entry expected now)
  pure entry

/-- `DpapiFailClosedAgentCache.write(cacheKey, input)`. -/
def write (scope cacheKey : JsString) (input : CreateAgentCredentialCacheEntryInput) :
    CacheProg JsValue := do
  let cache ← sealAgentCredentialCacheEntry scope input
  Prog.await (.put cacheKey cache) .lift
  pure cache

/-- `DpapiFailClosedAgentCache.read(cacheKey, expected)`. -/
def read (scope cacheKey : JsString) (expected : AgentCredentialCacheExpectedState) :
    CacheProg AgentCredentialCacheEntry := do
  let cache ← Prog.await (.get cacheKey) .lift
  check (require (Pair.truthy cache = true)
    (.unavailable "agent credential cache entry unavailable"))
  openAgentCredentialCacheEntry scope cache expected

namespace MemoryAgentCredentialCacheStore

def put (entries : OrderedMap JsString JsValue) (cacheKey : JsString) (cache : JsValue) :
    Except CacheError (OrderedMap JsString JsValue) := do
  let cacheKey ← assertCacheKey cacheKey
  pure (entries.set cacheKey cache)

def get (entries : OrderedMap JsString JsValue) (cacheKey : JsString) :
    Except CacheError JsValue := do
  let cacheKey ← assertCacheKey cacheKey
  pure ((entries.get cacheKey).getD .undefined)

end MemoryAgentCredentialCacheStore

/-! ## The protector of Windows -/

namespace WindowsCurrentUserDpapiProtector

/-- What a run of the script gives: `none` where the process fails, or what it has printed. -/
def runDpapi (stdout : Option JsString) (failed : CacheError) : Except CacheError Bytes := do
  let stdout ← stdout.elim (.error failed) .ok
  require (isBlank stdout = false) (.unavailable "DPAPI returned no output")
  pure (Js.fromBase64 (Js.trim stdout))

def unavailable : CacheError :=
  .unavailable "DPAPI CurrentUser protection is only available on Windows"

def protect (win32 : Bool) (stdout : Option JsString) : Except CacheError Bytes := do
  require (win32 = true) unavailable
  runDpapi stdout (.unavailable "DPAPI CurrentUser protection failed")

def unprotect (win32 : Bool) (stdout : Option JsString) : Except CacheError Bytes := do
  require (win32 = true) unavailable
  runDpapi stdout (.tampered "DPAPI CurrentUser cache could not be unsealed")

end WindowsCurrentUserDpapiProtector

/-! ## What comes back of an entry -/

section Entries

variable {v : JsValue} {s : JsString} {n : JsNumber} {name : String}

theorem requireNonEmptyString_eq_ok :
    requireNonEmptyString v name = .ok s ↔ v = .string s ∧ isBlank s = false := by
  unfold requireNonEmptyString
  cases v with
  | string t =>
      by_cases h : isBlank t = true
      · simp only [h, if_true, reduceCtorEq, JsValue.string.injEq, false_iff, not_and]
        rintro rfl
        simp [h]
      · rw [Bool.not_eq_true] at h
        simp only [h, Bool.false_eq_true, if_false, Except.ok.injEq, JsValue.string.injEq]
        constructor
        · rintro rfl
          exact ⟨rfl, h⟩
        · exact And.left
  | _ => simp

theorem requireFiniteTimestamp_eq_ok :
    requireFiniteTimestamp v name = .ok n ↔ v = .number n ∧ n.isFinite = true := by
  unfold requireFiniteTimestamp
  cases v with
  | number m =>
      by_cases h : m.isFinite = true
      · simp only [h, if_true, Except.ok.injEq, JsValue.number.injEq]
        constructor
        · rintro rfl
          exact ⟨rfl, h⟩
        · exact And.left
      · simp only [h, Bool.false_eq_true, if_false, reduceCtorEq, JsValue.number.injEq, false_iff,
          not_and]
        rintro rfl
        exact h
  | _ => simp

/-- An entry that passes the checks. -/
structure AgentCredentialCacheEntry.Valid (e : AgentCredentialCacheEntry) : Prop where
  version : e.version = .string (lit "1")
  principalId : isBlank e.principalId = false
  bindingHash : isBlank e.bindingHash = false
  policyDigest : isBlank e.policyDigest = false
  permissionsHash : isBlank e.permissionsHash = false
  expiresAt : e.expiresAt.isFinite = true
  sealedAt : e.sealedAt.isFinite = true

/-- What is created of an input: its texts and times, checked, and its material. -/
theorem createAgentCredentialCacheEntry_eq_ok {input : CreateAgentCredentialCacheEntryInput}
    {now : JsNumber} {e : AgentCredentialCacheEntry}
    (h : createAgentCredentialCacheEntry input now = .ok e) :
    e.Valid ∧ input.expiresAt = .number e.expiresAt ∧ e.sealedAt = now ∧
      input.credentialMaterial = some e.credentialMaterial := by
  simp only [createAgentCredentialCacheEntry, bind_eq_ok, pure_eq_ok, require_eq_ok, exists_unit,
    requireNonEmptyString_eq_ok, requireFiniteTimestamp_eq_ok, JsValue.number.injEq] at h
  obtain ⟨_, ⟨-, h1⟩, _, ⟨-, h2⟩, _, ⟨-, h3⟩, _, ⟨-, h4⟩, _, ⟨hexpires, h5⟩, _, ⟨hnow, h6⟩,
    hmaterial, rfl⟩ := h
  refine ⟨⟨rfl, h1, h2, h3, h4, h5, h6⟩, hexpires, hnow.symm, ?_⟩
  obtain ⟨m, hm⟩ := Option.isSome_iff_exists.mp hmaterial
  simp [hm]

theorem nodup_fieldNames (e : AgentCredentialCacheEntry) : (e.fields.map Prod.fst).Nodup := by
  have hnames : [lit "version", lit "principal_id", lit "binding_hash", lit "policy_digest",
      lit "permissions_hash", lit "expires_at", lit "sealed_at",
      lit "credential_material"].Nodup := by
    decide +kernel
  exact hnames

/-- What JSON makes of a material: nothing, where it has no text. -/
def AgentCredentialCacheEntry.kept (e : AgentCredentialCacheEntry) :
    Except CacheError AgentCredentialCacheEntry :=
  (Js.image e.credentialMaterial).elim
    (.error (.tampered "agent credential cache payload missing credential material"))
    fun material => .ok { e with credentialMaterial := material }

/-- A property that came back is one that is not `undefined`. -/
theorem hasOwn_image (fields : List (JsString × JsValue)) (key : JsString) :
    hasOwn (.object (Js.imageFields fields)) key = true ↔
      (JsValue.object (Js.imageFields fields)).get key ≠ .undefined := by
  have hvalues : ∀ l : List (JsString × JsValue), ∀ f ∈ Js.imageFields l, f.2 ≠ .undefined := by
    intro l
    induction l with
    | nil =>
        intro f hf
        cases hf
    | cons g rest ih =>
        intro f hf
        rw [Js.imageFields, List.mem_append, Option.mem_toList, Option.map_eq_some_iff] at hf
        rcases hf with ⟨w, hw, rfl⟩ | hf
        · rintro rfl
          exact Js.image_ne_undefined g.2 hw
        · exact ih f hf
  have hsome := hvalues fields
  generalize Js.imageFields fields = l at hsome
  induction l with
  | nil => simp [hasOwn, JsValue.get]
  | cons f rest ih =>
      rw [List.forall_mem_cons] at hsome
      by_cases hkey : f.1 = key
      · rw [Js.get_cons, if_pos hkey]
        simp [hasOwn, hkey, hsome.1]
      · rw [Js.get_cons, if_neg hkey]
        simpa [hasOwn, hkey] using ih hsome.2

/-- **The payload comes back**, with its material as JSON keeps it. -/
theorem parseCacheEntry_serialized {e : AgentCredentialCacheEntry} (hvalid : e.Valid)
    (hgenuine : Js.Genuine (.object e.fields)) : parseCacheEntry e.serialized = e.kept := by
  have hnodup := nodup_fieldNames e
  obtain ⟨hprincipal, hbinding, hpolicy, hpermissions, hexpires, hsealed, hlast⟩ :
      (lit "principal_id", JsValue.string e.principalId) ∈ e.fields ∧
        (lit "binding_hash", .string e.bindingHash) ∈ e.fields ∧
        (lit "policy_digest", .string e.policyDigest) ∈ e.fields ∧
        (lit "permissions_hash", .string e.permissionsHash) ∈ e.fields ∧
        (lit "expires_at", .number e.expiresAt) ∈ e.fields ∧
        (lit "sealed_at", .number e.sealedAt) ∈ e.fields ∧
        (lit "credential_material", e.credentialMaterial) ∈ e.fields := by
    simp [AgentCredentialCacheEntry.fields]
  have hparse : Js.parseJson e.serialized = some (.object (Js.imageFields e.fields)) := by
    have himage := hgenuine.parse_stringify
    rw [Js.image_object] at himage
    obtain ⟨text, htext, hparse⟩ := Option.bind_eq_some_iff.mp himage
    rwa [AgentCredentialCacheEntry.serialized, htext, Option.getD_some]
  -- each property is what comes back of the member of its name
  have hget : ∀ {key : JsString} {v : JsValue}, (key, v) ∈ e.fields →
      (JsValue.object (Js.imageFields e.fields)).get key = (Js.image v).getD .undefined := by
    intro key v hmem
    rw [Js.get_imageFields hnodup, Js.get_of_mem hnodup hmem]
  have htext : ∀ {s : JsString}, (Js.image (.string s)).getD .undefined = .string s := rfl
  have htime : ∀ {n : JsNumber}, n.isFinite = true →
      (Js.image (.number n)).getD .undefined = .number n := by
    intro n hn
    rw [Js.image, if_pos hn]
    rfl
  have hown : hasOwn (.object (Js.imageFields e.fields)) (lit "credential_material") = true ↔
      (Js.image e.credentialMaterial).isSome = true := by
    rw [hasOwn_image, hget hlast]
    cases himage : Js.image e.credentialMaterial with
    | none => simp
    | some w =>
        simp only [Option.getD_some, Option.isSome_some, iff_true]
        rintro rfl
        exact Js.image_ne_undefined _ himage
  have htexts : ∀ {key : JsString} {s : JsString}, (key, JsValue.string s) ∈ e.fields →
      isBlank s = false → ∀ name, requireNonEmptyString
        ((JsValue.object (Js.imageFields e.fields)).get key) name = .ok s :=
    fun hmem hs _ => requireNonEmptyString_eq_ok.mpr ⟨(hget hmem).trans htext, hs⟩
  have htimes : ∀ {key : JsString} {n : JsNumber}, (key, JsValue.number n) ∈ e.fields →
      n.isFinite = true → ∀ name, requireFiniteTimestamp
        ((JsValue.object (Js.imageFields e.fields)).get key) name = .ok n :=
    fun hmem hn _ => requireFiniteTimestamp_eq_ok.mpr ⟨(hget hmem).trans (htime hn), hn⟩
  have hversion : (JsValue.object (Js.imageFields e.fields)).get (lit "version") = e.version := by
    rw [hget (List.mem_cons_self : (lit "version", e.version) ∈ e.fields), hvalid.version]
    rfl
  have hmaterial := hget hlast
  simp only [parseCacheEntry, hparse, Option.elim_some, ok_bind, hversion, hmaterial,
    require_of (show isRecord (.object (Js.imageFields e.fields)) = true from rfl),
    htexts hprincipal hvalid.principalId,
    htexts hbinding hvalid.bindingHash,
    htexts hpolicy hvalid.policyDigest,
    htexts hpermissions hvalid.permissionsHash,
    htimes hexpires hvalid.expiresAt,
    htimes hsealed hvalid.sealedAt]
  have hone : isText e.version "1" = true := by
    rw [hvalid.version]
    exact beq_self_eq_true _
  rw [require_of hone]
  cases himage : Js.image e.credentialMaterial with
  | none =>
      rw [himage] at hown
      have hnone : ¬hasOwn (.object (Js.imageFields e.fields)) (lit "credential_material") = true := by
        intro h
        simpa using hown.mp h
      rw [require_of_not hnone, AgentCredentialCacheEntry.kept, himage]
      rfl
  | some material =>
      rw [himage] at hown
      rw [require_of (hown.mpr rfl), AgentCredentialCacheEntry.kept, himage]
      rfl

/-- The bytes of a payload are read as the payload. -/
theorem parseCacheEntry_fromUtf8 {e : AgentCredentialCacheEntry} (hvalid : e.Valid)
    (hgenuine : Js.Genuine (.object e.fields)) :
    parseCacheEntry (Js.fromUtf8 (Js.utf8 e.serialized)) = e.kept := by
  have hwellFormed : Js.WellFormed e.serialized := by
    rw [AgentCredentialCacheEntry.serialized]
    cases htext : Js.stringify (.object e.fields) with
    | none => trivial
    | some text => exact Js.stringify_wellFormed htext
  rw [Js.fromUtf8_utf8 hwellFormed, parseCacheEntry_serialized hvalid hgenuine]

end Entries

/-! ## What comes back of an envelope -/

theorem isWhiteSpace_btoa {bytes : Bytes} {c : UInt16} (h : c ∈ Js.btoa bytes) :
    Js.isWhiteSpace c = false := by
  have hall : ∀ n < 64, Js.isWhiteSpace (Js.base64Char n) = false := by decide
  rcases List.mem_append.mp h with h | h
  · obtain ⟨n, hn, rfl⟩ := List.mem_map.mp h
    exact hall n (Js.byteSextets_lt (Js.forall_toNat_lt bytes) n hn)
  · rw [List.eq_of_mem_replicate h]
    rfl

theorem btoa_ne_nil {bytes : Bytes} (h : bytes ≠ []) : Js.btoa bytes ≠ [] := by
  intro hnil
  have hlength := congrArg List.length (List.append_eq_nil_iff.mp hnil).1
  rw [List.length_map, Js.length_byteSextets, List.length_map, List.length_nil] at hlength
  have hpos := List.length_pos_iff.mpr h
  omega

/-- The envelope of a ciphertext is valid, unless there is nothing in it. -/
theorem validateSealedEnvelope_sealedCache {n : JsNumber} (hn : n.isFinite = true)
    {ciphertext : Bytes} (h : ciphertext ≠ []) :
    validateSealedEnvelope (sealedCache n ciphertext) = .ok () := by
  have hblank : isBlank (Js.btoa ciphertext) = false := by
    rw [isBlank, Js.trim_of_noSpace fun c => isWhiteSpace_btoa, List.isEmpty_eq_false_iff]
    exact btoa_ne_nil h
  have htext : requireNonEmptyString (.string (Js.btoa ciphertext)) "ciphertext_b64" =
      .ok (Js.btoa ciphertext) := requireNonEmptyString_eq_ok.mpr ⟨rfl, hblank⟩
  have htime : requireFiniteTimestamp (.number n) "protected_at" = .ok n :=
    requireFiniteTimestamp_eq_ok.mpr ⟨rfl, hn⟩
  simp only [validateSealedEnvelope, bind_eq_ok, require_eq_ok, exists_unit, pure_eq_ok]
  exact ⟨rfl, rfl, rfl, _, htext, _, htime, trivial⟩

theorem ciphertextOf_sealedCache (n : JsNumber) (ciphertext : Bytes) :
    ciphertextOf (sealedCache n ciphertext) = ciphertext :=
  Js.fromBase64_btoa ciphertext

/-- What the script prints of bytes, on a line of its own, is read as these bytes. -/
theorem WindowsCurrentUserDpapiProtector.runDpapi_printed {bytes : Bytes} (h : bytes ≠ [])
    (failed : CacheError) :
    runDpapi (some (Js.btoa bytes ++ [13, 10])) failed = .ok bytes := by
  -- the line break member by member: `decide` may go through every `UInt16`
  have htrim : Js.trim (Js.btoa bytes ++ [13, 10]) = Js.btoa bytes :=
    Js.trim_append (fun c => isWhiteSpace_btoa) (btoa_ne_nil h) (by simp [Js.isWhiteSpace])
  have hblank : isBlank (Js.btoa bytes ++ [13, 10]) = false := by
    rw [isBlank, htrim, List.isEmpty_eq_false_iff]
    exact btoa_ne_nil h
  simp only [runDpapi, Option.elim_some, ok_bind, hblank, require_of, htrim, Js.fromBase64_btoa]
  rfl

end AgentCache
