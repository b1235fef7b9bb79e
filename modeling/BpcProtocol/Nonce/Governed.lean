import BpcProtocol.Js.Json
import BpcProtocol.Js.Value
import BpcProtocol.Lib.Fallible
import Mathlib.Logic.Function.Basic

set_option autoImplicit false

/-! # Governed Redis replay protection

Continuity state, shared quarantine and each nonce live in one Redis hash slot, and are read and
written by two scripts only. `RECONCILE` establishes the continuity marker and the configuration;
`CONSUME` validates both and consumes a nonce, all in one execution. -/

namespace Nonce

open Fallible

/-! ## Configuration -/

/-- The reasons of an `AuthorizationQuarantineError`. -/
inductive QuarantineReason where
  | continuityMarkerLost
  | continuityEpochChanged
  | continuityConfigMismatch
  | continuityStoreUnavailable
  deriving DecidableEq, Repr

/-- The statuses the scripts reply. -/
inductive ScriptStatus where
  | ok
  | configEstablished
  | configMissing
  | configInvalid
  | configMismatch
  | missing
  | epochChanged
  | malformed
  | quarantined
  | fresh
  | replay
  | invalid
  deriving DecidableEq, Repr

/-- What the nonce stores throw. -/
inductive NonceError where
  | range (message : String)
  | nonceStoreUnavailable (cause : String)
  | authorizationQuarantine (reason : QuarantineReason) (quarantinedUntilMs : JsNumber)
  | continuityConfiguration (status : ScriptStatus)
  | evictionPolicy (policy : String)
  | error (message : String)
  deriving DecidableEq

/-- `positiveSafeInteger(value, label)`. -/
def positiveSafeInteger (value : ℤ) (label : String) :
    Except NonceError { n : ℤ // n = value ∧ 0 < n } :=
  if h : Js.isSafeInteger value = true ∧ 0 < value then .ok ⟨value, rfl, h.2⟩
  else .error (.range (label ++ " must be a positive safe integer"))

/-- `nonNegativeSafeInteger(value, label)`. -/
def nonNegativeSafeInteger (value : ℤ) (label : String) :
    Except NonceError { n : ℤ // n = value ∧ 0 ≤ n } :=
  if h : Js.isSafeInteger value = true ∧ 0 ≤ value then .ok ⟨value, rfl, h.2⟩
  else .error (.range (label ++ " must be a non-negative safe integer"))

/-- `validateEpoch(epoch, label)`. -/
def validateEpoch (epoch : JsString) (label : String) : Except NonceError JsString := do
  require (Js.classPattern (fun c => Js.isAlnum c || Js.oneOf "._-" c) 1 128 epoch = true)
    (NonceError.range
      (label ++ " must be 1-128 ASCII letters, digits, dot, underscore, or hyphen"))
  pure epoch

/-- `deriveNonceRetentionMs(sigWindowMs, safetyBufferMs)`. -/
def deriveNonceRetentionMs (sigWindowMs : ℤ) (safetyBufferMs : Option ℤ) :
    Except NonceError { n : ℤ // 0 < n } := do
  let window ← positiveSafeInteger sigWindowMs "sigWindowMs"
  let buffer ← nonNegativeSafeInteger (safetyBufferMs.getD 10000) "safetyBufferMs"
  require (Js.isSafeInteger (window.1 * 2 + buffer.1) = true)
    (NonceError.range "Derived nonce retention exceeds the safe integer range")
  pure ⟨window.1 * 2 + buffer.1, by have := window.2.2; have := buffer.2.2; omega⟩

/-- `GovernedRedisBackedNonceOptions`, as far as they are read here. -/
structure GovernedOptions where
  sigWindowMs : ℤ
  safetyBufferMs : Option ℤ
  continuitySafetyAllowanceMs : Option ℤ
  reconcileIntervalMs : Option ℤ
  commandTimeoutMs : Option ℤ
  expectedEpoch : Option JsString

/-- What a verifier derives from its options: how long a nonce is retained, and a quarantine that
    outlasts it. -/
structure GovernedConfig where
  retentionMs : ℤ
  quarantineMs : ℤ
  expectedEpoch : JsString
  retention_pos : 0 < retentionMs
  retention_le : retentionMs ≤ quarantineMs

/-- `continuityConfig`. -/
def GovernedConfig.continuityConfig (cfg : GovernedConfig) : JsString :=
  Js.decimal cfg.retentionMs ++ Js.lit ":" ++ Js.decimal cfg.quarantineMs

/-- The first part of `createGovernedRedisBackedNonceStore(redis, options)`. -/
def governedConfig (options : GovernedOptions) : Except NonceError GovernedConfig := do
  let retentionMs ← deriveNonceRetentionMs options.sigWindowMs options.safetyBufferMs
  let allowanceMs ← nonNegativeSafeInteger (options.continuitySafetyAllowanceMs.getD 30000)
    "continuitySafetyAllowanceMs"
  let quarantineMs ← positiveSafeInteger (retentionMs.1 + allowanceMs.1) "quarantineMs"
  let _ ← positiveSafeInteger (options.commandTimeoutMs.getD 2000) "commandTimeoutMs"
  let intervalMs ← positiveSafeInteger
    (options.reconcileIntervalMs.getD (min 5000 (max 1 (retentionMs.1 / 2)))) "reconcileIntervalMs"
  require (intervalMs.1 < retentionMs.1)
    (NonceError.range "reconcileIntervalMs must be shorter than nonce retentionMs")
  let expectedEpoch ← options.expectedEpoch.elim (pure []) fun epoch =>
    validateEpoch epoch "expectedEpoch"
  pure
    { retentionMs := retentionMs.1, quarantineMs := quarantineMs.1, expectedEpoch
      retention_pos := retentionMs.2
      retention_le := by have := quarantineMs.2.1; have := allowanceMs.2.2; omega }

/-! ## The Redis keys -/

/-- The keys of one namespace: the continuity marker, the quarantine and when it expires, the
    configuration, and when each nonce expires. -/
structure GovernedRedis where
  continuity : Option JsString
  quarantine : Option (JsString × ℤ)
  config : Option JsString
  nonces : JsString → Option ℤ

namespace GovernedRedis

def empty : GovernedRedis := ⟨none, none, none, fun _ => none⟩

variable (r : GovernedRedis) (now : ℤ)

/-- The quarantine key, unless it has expired. -/
def liveQuarantine : Option (JsString × ℤ) :=
  r.quarantine.filter fun q => now ≤ q.2

/-- `PTTL` of the quarantine key. -/
def quarantineTtl : ℤ :=
  match r.liveQuarantine now with
  | some q => q.2 - now
  | none => -2

/-- The nonce's key is there. -/
def hasNonce (nonce : JsString) : Bool :=
  (r.nonces nonce).any fun deadline => now ≤ deadline

/-- `quarantine_at_least(epoch, minimum_ms)`. -/
def quarantineAtLeast (epoch : JsString) (minimumMs : ℤ) : GovernedRedis :=
  let ttl := r.quarantineTtl now
  let duration := if minimumMs < ttl then ttl else minimumMs
  { r with quarantine := some (epoch, now + duration) }

end GovernedRedis

/-! ## The scripts -/

structure ScriptReply where
  status : ScriptStatus
  epoch : JsString
  ttlMs : ℤ
  deriving DecidableEq, Repr

/-- A quarantine of at least `minimumMs`, replied with its remaining time. -/
def quarantinedReply (r : GovernedRedis) (now : ℤ) (status : ScriptStatus) (epoch : JsString)
    (minimumMs : ℤ) : ScriptReply × GovernedRedis :=
  let r' := r.quarantineAtLeast now epoch minimumMs
  (⟨status, epoch, r'.quarantineTtl now⟩, r')

/-- `string.match(config, '^(%d+):(%d+)$')`, as numbers. -/
def matchConfig (config : JsString) : Option (ℕ × ℕ) :=
  let value (s : JsString) : ℕ := s.foldl (fun n c => 10 * n + (c.toNat - 48)) 0
  let retention := config.takeWhile Js.isDigit
  match config.dropWhile Js.isDigit with
  | colon :: quarantine =>
      if colon = 58 ∧ retention ≠ [] ∧ quarantine ≠ [] ∧ quarantine.all Js.isDigit = true then
        some (value retention, value quarantine)
      else none
  | [] => none

/-- What both scripts do about a stored configuration that is malformed or not the caller's. -/
def configFault (r : GovernedRedis) (now : ℤ) (stored config epoch : JsString) (quarantineMs : ℤ) :
    Option (ScriptReply × GovernedRedis) :=
  match (matchConfig stored).filter fun m => 0 < m.1 ∧ 0 < m.2 with
  | none => some (quarantinedReply r now .configInvalid epoch quarantineMs)
  | some (_, storedQuarantine) =>
      if stored ≠ config then
        some (quarantinedReply r now .configMismatch epoch
          (if quarantineMs < storedQuarantine then storedQuarantine else quarantineMs))
      else none

/-- The arguments of `RECONCILE_SCRIPT`. -/
structure ReconcileArgs where
  newEpoch : JsString
  quarantineMs : ℤ
  expectedEpoch : JsString
  config : JsString

/-- A missing configuration is established behind a quarantine. -/
def establishConfig (a : ReconcileArgs) (now : ℤ) (r : GovernedRedis) :
    ScriptStatus × JsString × GovernedRedis :=
  match r.config with
  | some stored => (.ok, stored, r)
  | none =>
      (.configEstablished, a.config,
        { r.quarantineAtLeast now (r.continuity.getD a.newEpoch) a.quarantineMs with
          config := some a.config })

/-- A missing marker is established behind a quarantine. The script's check that the marker it has
    just set is there never fails. -/
def establishMarker (a : ReconcileArgs) (now : ℤ) (status : ScriptStatus) (r : GovernedRedis) :
    ScriptStatus × JsString × GovernedRedis :=
  match r.continuity with
  | some epoch => (status, epoch, r)
  | none =>
      (.missing, a.newEpoch,
        { r.quarantineAtLeast now a.newEpoch a.quarantineMs with continuity := some a.newEpoch })

/-- A marker that is not the expected one is quarantined. -/
def checkExpected (a : ReconcileArgs) (now : ℤ) (status : ScriptStatus) (epoch : JsString)
    (r : GovernedRedis) : ScriptStatus × GovernedRedis :=
  if a.expectedEpoch ≠ [] ∧ epoch ≠ a.expectedEpoch then
    (.epochChanged, r.quarantineAtLeast now epoch a.quarantineMs)
  else (status, r)

/-- A quarantine of another epoch, or without time left, is renewed. -/
def renewQuarantine (quarantineMs now : ℤ) (epoch : JsString) (r : GovernedRedis) : GovernedRedis :=
  match r.liveQuarantine now with
  | some q =>
      if q.1 ≠ epoch ∨ r.quarantineTtl now ≤ 0 then r.quarantineAtLeast now epoch quarantineMs
      else r
  | none => r

/-- `RECONCILE_SCRIPT`. -/
def reconcileScript (a : ReconcileArgs) (now : ℤ) (r : GovernedRedis) :
    ScriptReply × GovernedRedis :=
  if a.quarantineMs ≤ 0 then (⟨.invalid, [], -2⟩, r)
  else
    let (status, stored, r₁) := establishConfig a now r
    match configFault r₁ now stored a.config (r.continuity.getD a.newEpoch) a.quarantineMs with
    | some fault => fault
    | none =>
        let (status, epoch, r₂) := establishMarker a now status r₁
        let (status, r₃) := checkExpected a now status epoch r₂
        let r₄ := renewQuarantine a.quarantineMs now epoch r₃
        (⟨status, epoch, r₄.quarantineTtl now⟩, r₄)

/-- The arguments of `CONSUME_SCRIPT`. -/
structure ConsumeArgs where
  nonce : JsString
  expectedEpoch : JsString
  newEpoch : JsString
  quarantineMs : ℤ
  ttlMs : ℤ
  config : JsString

/-- The `SET` of `CONSUME_SCRIPT`. -/
def setNonce (a : ConsumeArgs) (now : ℤ) (epoch : JsString) (r : GovernedRedis) :
    ScriptReply × GovernedRedis :=
  if r.hasNonce now a.nonce = true then (⟨.replay, epoch, -2⟩, r)
  else
    (⟨.fresh, epoch, -2⟩,
      { r with nonces := Function.update r.nonces a.nonce (some (now + a.ttlMs)) })

/-- `CONSUME_SCRIPT` once the marker is known to be the expected one. -/
def consumeUnlessQuarantined (a : ConsumeArgs) (now : ℤ) (epoch : JsString) (r : GovernedRedis) :
    ScriptReply × GovernedRedis :=
  match r.liveQuarantine now with
  | some q =>
      if q.1 ≠ epoch ∨ r.quarantineTtl now ≤ 0 then
        quarantinedReply r now .malformed epoch a.quarantineMs
      else (⟨.quarantined, epoch, r.quarantineTtl now⟩, r)
  | none => setNonce a now epoch r

/-- `CONSUME_SCRIPT` once the configuration is known to be the caller's. -/
def consumeConfigured (a : ConsumeArgs) (now : ℤ) (r : GovernedRedis) :
    ScriptReply × GovernedRedis :=
  match r.continuity with
  | none =>
      let r' :=
        { r.quarantineAtLeast now a.newEpoch a.quarantineMs with continuity := some a.newEpoch }
      (⟨.missing, a.newEpoch, r'.quarantineTtl now⟩, r')
  | some epoch =>
      if epoch ≠ a.expectedEpoch then quarantinedReply r now .epochChanged epoch a.quarantineMs
      else consumeUnlessQuarantined a now epoch r

/-- `CONSUME_SCRIPT`. -/
def consumeScript (a : ConsumeArgs) (now : ℤ) (r : GovernedRedis) : ScriptReply × GovernedRedis :=
  if a.quarantineMs ≤ 0 then (⟨.invalid, [], -2⟩, r)
  else
    match r.config with
    | none =>
        let (reply, r') := quarantinedReply r now .configMissing (r.continuity.getD a.newEpoch)
          a.quarantineMs
        (reply, { r' with config := some a.config })
    | some stored =>
        match configFault r now stored a.config (r.continuity.getD a.newEpoch) a.quarantineMs with
        | some fault => fault
        | none => consumeConfigured a now r

/-! ## What a script does -/

/-- The keys are as they were but for the marker, or a quarantine of at least `quarantineMs` is in
    force. No nonce has changed. -/
def Guarded (quarantineMs now : ℤ) (r r' : GovernedRedis) : Prop :=
  r'.nonces = r.nonces ∧
    (r'.quarantine = r.quarantine ∧ r'.config = r.config ∨
      ∃ epoch deadline, r'.quarantine = some (epoch, deadline) ∧ now + quarantineMs ≤ deadline)

theorem Guarded.refl (quarantineMs now : ℤ) (r : GovernedRedis) : Guarded quarantineMs now r r :=
  ⟨rfl, Or.inl ⟨rfl, rfl⟩⟩

theorem Guarded.trans {quarantineMs now : ℤ} {r r' r'' : GovernedRedis}
    (h : Guarded quarantineMs now r r') (h' : Guarded quarantineMs now r' r'') :
    Guarded quarantineMs now r r'' := by
  refine ⟨h'.1.trans h.1, ?_⟩
  rcases h'.2 with ⟨hq, hc⟩ | hnew
  · rw [hq, hc]
    exact h.2
  · exact Or.inr hnew

theorem guarded_quarantineAtLeast {quarantineMs now minimumMs : ℤ} {r r' : GovernedRedis}
    {epoch : JsString} (hmin : quarantineMs ≤ minimumMs) (hnonces : r'.nonces = r.nonces)
    (hq : r'.quarantine = (r.quarantineAtLeast now epoch minimumMs).quarantine) :
    Guarded quarantineMs now r r' := by
  refine ⟨hnonces, Or.inr ⟨epoch, _, hq, ?_⟩⟩
  split
  · omega
  · omega

theorem quarantinedReply_guarded {quarantineMs now minimumMs : ℤ} {r : GovernedRedis}
    {status : ScriptStatus} {epoch : JsString} (hmin : quarantineMs ≤ minimumMs) :
    Guarded quarantineMs now r (quarantinedReply r now status epoch minimumMs).2 :=
  guarded_quarantineAtLeast hmin rfl rfl

theorem configFault_guarded {r : GovernedRedis} {now quarantineMs : ℤ}
    {stored config epoch : JsString} {out : ScriptReply × GovernedRedis}
    (h : configFault r now stored config epoch quarantineMs = some out) :
    Guarded quarantineMs now r out.2 ∧ out.1.status ≠ .fresh := by
  unfold configFault at h
  split at h
  · obtain rfl := Option.some.inj h
    exact ⟨quarantinedReply_guarded (Int.le_refl _), by simp [quarantinedReply]⟩
  · split at h
    · obtain rfl := Option.some.inj h
      refine ⟨quarantinedReply_guarded ?_, by simp [quarantinedReply]⟩
      split
      · omega
      · omega
    · cases h

theorem configFault_eq_none {r : GovernedRedis} {now quarantineMs : ℤ}
    {stored config epoch : JsString}
    (h : configFault r now stored config epoch quarantineMs = none) : stored = config := by
  unfold configFault at h
  split at h
  · cases h
  · split at h
    · cases h
    · next heq => exact not_not.mp heq

theorem establishConfig_guarded (a : ReconcileArgs) (now : ℤ) (r : GovernedRedis) :
    Guarded a.quarantineMs now r (establishConfig a now r).2.2 := by
  unfold establishConfig
  split
  · exact Guarded.refl _ _ _
  · exact guarded_quarantineAtLeast (Int.le_refl _) rfl rfl

theorem establishMarker_guarded (a : ReconcileArgs) (now : ℤ) (status : ScriptStatus)
    (r : GovernedRedis) : Guarded a.quarantineMs now r (establishMarker a now status r).2.2 := by
  unfold establishMarker
  split
  · exact Guarded.refl _ _ _
  · exact guarded_quarantineAtLeast (Int.le_refl _) rfl rfl

theorem checkExpected_guarded (a : ReconcileArgs) (now : ℤ) (status : ScriptStatus)
    (epoch : JsString) (r : GovernedRedis) :
    Guarded a.quarantineMs now r (checkExpected a now status epoch r).2 := by
  unfold checkExpected
  split
  · exact guarded_quarantineAtLeast (Int.le_refl _) rfl rfl
  · exact Guarded.refl _ _ _

theorem renewQuarantine_guarded (quarantineMs now : ℤ) (epoch : JsString) (r : GovernedRedis) :
    Guarded quarantineMs now r (renewQuarantine quarantineMs now epoch r) := by
  unfold renewQuarantine
  split
  · split
    · exact guarded_quarantineAtLeast (Int.le_refl _) rfl rfl
    · exact Guarded.refl _ _ _
  · exact Guarded.refl _ _ _

/-- `RECONCILE` quarantines or leaves the keys alone. -/
theorem reconcileScript_guarded (a : ReconcileArgs) (now : ℤ) (r : GovernedRedis) :
    Guarded a.quarantineMs now r (reconcileScript a now r).2 := by
  unfold reconcileScript
  split
  · exact Guarded.refl _ _ _
  · have hconfig := establishConfig_guarded a now r
    dsimp only
    split
    · next out hfault => exact hconfig.trans (configFault_guarded hfault).1
    · exact ((hconfig.trans (establishMarker_guarded a now _ _)).trans
        (checkExpected_guarded a now _ _ _)).trans (renewQuarantine_guarded _ _ _ _)

/-- When `CONSUME` reports fresh: the marker carries the expected epoch, the configuration is the
    caller's, no quarantine is in force and the nonce is not there. It then is, for its time to
    live. -/
structure ConsumesFresh (a : ConsumeArgs) (now : ℤ) (r r' : GovernedRedis) : Prop where
  epoch : r.continuity = some a.expectedEpoch
  config : r.config = some a.config
  quarantine : r.liveQuarantine now = none
  absent : r.hasNonce now a.nonce = false
  next : r' = { r with nonces := Function.update r.nonces a.nonce (some (now + a.ttlMs)) }

theorem setNonce_spec (a : ConsumeArgs) (now : ℤ) (r : GovernedRedis) (epoch : JsString) :
    (setNonce a now epoch r).1.status = .fresh ∧ r.hasNonce now a.nonce = false ∧
        (setNonce a now epoch r).2 =
          { r with nonces := Function.update r.nonces a.nonce (some (now + a.ttlMs)) } ∨
      (setNonce a now epoch r).1.status ≠ .fresh ∧ (setNonce a now epoch r).2 = r := by
  unfold setNonce
  split
  · exact Or.inr ⟨by simp, rfl⟩
  · next habsent => exact Or.inl ⟨rfl, by simpa using habsent, rfl⟩

/-- `CONSUME` reports fresh, or it quarantines or leaves the keys alone. -/
theorem consumeScript_spec (a : ConsumeArgs) (now : ℤ) (r : GovernedRedis) :
    (consumeScript a now r).1.status = .fresh ∧
        ConsumesFresh a now r (consumeScript a now r).2 ∨
      (consumeScript a now r).1.status ≠ .fresh ∧
        Guarded a.quarantineMs now r (consumeScript a now r).2 := by
  unfold consumeScript
  split
  · exact Or.inr ⟨by simp, Guarded.refl _ _ _⟩
  split
  · exact Or.inr ⟨by simp [quarantinedReply],
      guarded_quarantineAtLeast (Int.le_refl _) rfl rfl⟩
  next stored hstored =>
  split
  · next out hfault =>
      obtain ⟨hguarded, hstatus⟩ := configFault_guarded hfault
      exact Or.inr ⟨hstatus, hguarded⟩
  next hfault =>
  obtain rfl := configFault_eq_none hfault
  unfold consumeConfigured
  split
  · exact Or.inr ⟨by simp, guarded_quarantineAtLeast (Int.le_refl _) rfl rfl⟩
  next epoch hepoch =>
  split
  · exact Or.inr ⟨by simp [quarantinedReply], quarantinedReply_guarded (Int.le_refl _)⟩
  next hsame =>
  obtain rfl := not_not.mp hsame
  unfold consumeUnlessQuarantined
  split
  · split
    · exact Or.inr ⟨by simp [quarantinedReply], quarantinedReply_guarded (Int.le_refl _)⟩
    · exact Or.inr ⟨by simp, Guarded.refl _ _ _⟩
  next hlive =>
  rcases setNonce_spec a now r a.expectedEpoch with
    ⟨hfresh, habsent, hnext⟩ | ⟨hother, hkept⟩
  · exact Or.inl ⟨hfresh, hepoch, hstored, hlive, habsent, hnext⟩
  · rw [hkept]
    exact Or.inr ⟨hother, Guarded.refl _ _ _⟩

/-! ## What a nonce is owed -/

/-- A nonce consumed at `t` is not fresh before `t + retentionMs`: that time has come, or its key
    is there, or a quarantine lasts until then, or the configuration is missing, which will first
    cause a quarantine. -/
def Remembered (retentionMs now : ℤ) (r : GovernedRedis) (nonce : JsString) (t : ℤ) : Prop :=
  t + retentionMs ≤ now ∨ (∃ deadline, r.nonces nonce = some deadline ∧ t + retentionMs ≤ deadline) ∨
    (∃ epoch deadline, r.quarantine = some (epoch, deadline) ∧ t + retentionMs ≤ deadline) ∨
    r.config = none

theorem Remembered.guarded {retentionMs quarantineMs now t : ℤ} {r r' : GovernedRedis}
    {nonce : JsString} (h : Remembered retentionMs now r nonce t) (hle : retentionMs ≤ quarantineMs)
    (ht : t ≤ now) (hguarded : Guarded quarantineMs now r r') :
    Remembered retentionMs now r' nonce t := by
  obtain ⟨hnonces, ⟨hq, hc⟩ | ⟨epoch, deadline, hq, hdeadline⟩⟩ := hguarded
  · unfold Remembered
    rw [hnonces, hq, hc]
    exact h
  · exact Or.inr (Or.inr (Or.inl ⟨epoch, deadline, hq, by omega⟩))

/-- Consuming another nonce, or the same one later, forgets nothing. -/
theorem Remembered.consume {retentionMs now t : ℤ} {a : ConsumeArgs} {r r' : GovernedRedis}
    {nonce : JsString} (h : Remembered retentionMs now r nonce t) (ht : t ≤ now)
    (httl : a.ttlMs = retentionMs) (hfresh : ConsumesFresh a now r r') :
    Remembered retentionMs now r' nonce t := by
  rw [hfresh.next]
  rcases h with hdone | ⟨deadline, hkey, hle⟩ | hq | hc
  · exact Or.inl hdone
  · refine Or.inr (Or.inl ?_)
    show ∃ deadline, Function.update r.nonces a.nonce _ nonce = some deadline ∧ _
    by_cases hn : nonce = a.nonce
    · subst hn
      rw [Function.update_self]
      exact ⟨_, rfl, by omega⟩
    · rw [Function.update_of_ne hn]
      exact ⟨deadline, hkey, hle⟩
  · exact Or.inr (Or.inr (Or.inl hq))
  · exact Or.inr (Or.inr (Or.inr hc))

/-- A nonce that is reported fresh again is owed nothing any more. -/
theorem Remembered.elapsed {retentionMs now t : ℤ} {a : ConsumeArgs} {r r' : GovernedRedis}
    (h : Remembered retentionMs now r a.nonce t) (hfresh : ConsumesFresh a now r r') :
    t + retentionMs ≤ now := by
  rcases h with hdone | ⟨deadline, hkey, hle⟩ | ⟨epoch, deadline, hq, hle⟩ | hc
  · exact hdone
  · have habsent := hfresh.absent
    simp only [GovernedRedis.hasNonce, hkey, Option.any_some, decide_eq_false_iff_not] at habsent
    omega
  · have hlive := hfresh.quarantine
    simp only [GovernedRedis.liveQuarantine, hq, Option.filter_some, decide_eq_true_eq,
      ite_eq_right_iff, reduceCtorEq, imp_false] at hlive
    omega
  · have hconfig := hfresh.config
    rw [hc] at hconfig
    cases hconfig

end Nonce
