/-
What a replay admits: its configuration and its range (`ReplayConfig` and `validate_capabilities_and_range` of
`historical_replay.rs`, `total_blocks` of `replay.rs`, the replay options of `config.rs` and `main.rs`).

Heights and limits are 64 bits wide here, since the length of a range is computed before anything bounds it. What the
arithmetic does on overflow depends on the build (`Overflow.Mode`): `none` is a panic. `usize` is 64 bits wide. The answer
of `inspect_capabilities` is an argument, and so are the environment variables.

A number of the configuration is whatever text parses as one, without a check of its value. It has one of three ways into
the engine: `ReplayConfig.fromEnv`, the application's own reading of the same variables (`AppReplayConfig`), and the
options of the replay command, which take precedence (`runReplayConfig`).

- `accepts_iff`: without overflow, a range is accepted exactly on the five conditions.
- `validation_exact_iff`: the range check is exact for every pair of heights but one, 0 and 2^64 - 1.
-/
import Mathlib.Tactic
import ObsChain.Core.Overflow
import ObsChain.Domain.Replay
import ObsChain.Ingest.BitcoinRpc

namespace ObsChain.Replay

open Overflow

abbrev U64 := BitVec 64

/-! ## Configuration -/

structure ReplayConfig where
  batchSize : U64
  concurrency : U64
  checkpointInterval : U64
  maxRange : U64
  txCacheLimit : U64
  dbConcurrency : U64
  sovereignOnly : Bool
  apiEnabled : Bool
deriving DecidableEq, Repr

/-- `str::parse::<u64>`: digits, after an optional plus sign, of a number that fits -/
def parseU64 (s : String) : Option U64 :=
  let digits := match s.toList with
    | '+' :: rest => rest
    | cs => cs
  if digits ≠ [] ∧ digits.all Char.isDigit ∧ Nat.ofDigitChars 10 digits 0 < 2 ^ 64 then
    some (BitVec.ofNat 64 (Nat.ofDigitChars 10 digits 0))
  else none

/-- the environment variables that are set -/
abbrev Environment := String → Option String

/-- `std::env::var(name).ok().and_then(|v| v.parse().ok()).unwrap_or(default)` -/
def numberVar (env : Environment) (name : String) (default : U64) : U64 := ((env name).bind parseU64).getD default

/-- `ReplayConfig::from_env` -/
def ReplayConfig.fromEnv (env : Environment) : ReplayConfig where
  batchSize := numberVar env "OBSCHAIN_REPLAY_BATCH_SIZE" 10
  concurrency := numberVar env "OBSCHAIN_REPLAY_CONCURRENCY" 2
  checkpointInterval := numberVar env "OBSCHAIN_REPLAY_CHECKPOINT_INTERVAL" 25
  maxRange := numberVar env "OBSCHAIN_REPLAY_MAX_RANGE" 100000
  txCacheLimit := numberVar env "OBSCHAIN_REPLAY_TX_CACHE_LIMIT" 100000
  dbConcurrency := numberVar env "OBSCHAIN_REPLAY_DB_CONCURRENCY" 2
  sovereignOnly := ((env "OBSCHAIN_SOVEREIGN_ONLY").map fun v => toLowercase v != "false").getD true
  apiEnabled := ((env "OBSCHAIN_REPLAY_API_ENABLED").map fun v => toLowercase v == "true").getD false

/-- the replay options of `AppConfig` -/
structure AppReplayConfig where
  replayBatchSize : U64
  replayConcurrency : U64
  replayCheckpointInterval : U64
  replayMaxRange : U64
  replayTxCacheLimit : U64
  replayDbConcurrency : U64
  sovereignOnly : Bool
  replayApiEnabled : Bool
deriving DecidableEq, Repr

/-- `v.eq_ignore_ascii_case("true") || v == "1"`, where the variable is set -/
def flagVar (env : Environment) (name : String) : Bool :=
  ((env name).map fun v => toLowercase v == "true" || v == "1").getD false

/-- `AppConfig::from_env` -/
def AppReplayConfig.fromEnv (env : Environment) : AppReplayConfig where
  replayBatchSize := numberVar env "OBSCHAIN_REPLAY_BATCH_SIZE" 10
  replayConcurrency := numberVar env "OBSCHAIN_REPLAY_CONCURRENCY" 2
  replayCheckpointInterval := numberVar env "OBSCHAIN_REPLAY_CHECKPOINT_INTERVAL" 25
  replayMaxRange := numberVar env "OBSCHAIN_REPLAY_MAX_RANGE" 100000
  replayTxCacheLimit := numberVar env "OBSCHAIN_REPLAY_TX_CACHE_LIMIT" 100000
  replayDbConcurrency := numberVar env "OBSCHAIN_REPLAY_DB_CONCURRENCY" 2
  sovereignOnly := flagVar env "OBSCHAIN_SOVEREIGN_ONLY"
  replayApiEnabled := flagVar env "OBSCHAIN_REPLAY_API_ENABLED"

/-- the configuration of the daemon's engine -/
def AppReplayConfig.daemonConfig (app : AppReplayConfig) : ReplayConfig where
  batchSize := app.replayBatchSize
  concurrency := app.replayConcurrency
  checkpointInterval := app.replayCheckpointInterval
  maxRange := app.replayMaxRange
  txCacheLimit := app.replayTxCacheLimit
  dbConcurrency := app.replayDbConcurrency
  sovereignOnly := app.sovereignOnly
  apiEnabled := app.replayApiEnabled

/-- the configuration of the replay command, with its two options -/
def AppReplayConfig.runReplayConfig (app : AppReplayConfig) (batchSize checkpointInterval : Option U64) : ReplayConfig :=
  { app.daemonConfig with
    batchSize := batchSize.getD app.replayBatchSize
    checkpointInterval := checkpointInterval.getD app.replayCheckpointInterval
    apiEnabled := true }

/-- the configurations an engine can be given -/
inductive Obtainable : ReplayConfig → Prop where
  | environment (env : Environment) : Obtainable (ReplayConfig.fromEnv env)
  | daemon (env : Environment) : Obtainable (AppReplayConfig.fromEnv env).daemonConfig
  | command (env : Environment) (batchSize checkpointInterval : Option U64) :
    Obtainable ((AppReplayConfig.fromEnv env).runReplayConfig batchSize checkpointInterval)

/-! ## Ranges -/

/-- the errors of the range check -/
inductive ReplayError where
  | validation (message : String)
  | prunedHistoryUnavailable (requested retainedFrom : ℕ)
  | initialBlockDownloadActive
  | heightBeyondTip (requested tip : ℕ)
  | rangeExceedsMaximum (requestedBlocks maxRange : ℕ)
  | rpc (error : BitcoinRpcError)
deriving DecidableEq, Repr

/-- `end_height - start_height + 1` -/
def requestedBlocks (mode : Mode) (startHeight endHeight : U64) : Option U64 :=
  (sub mode endHeight startHeight).bind fun span => add mode span 1

/-- `ReplayJob::total_blocks` at its width -/
def totalBlocks (mode : Mode) (startHeight endHeight : U64) : Option U64 :=
  if endHeight.toNat ≥ startHeight.toNat then requestedBlocks mode startHeight endHeight else some 0

/-- 3. the chain tip -/
def checkTip (capabilities : BitcoinNodeCapabilities) (endHeight : U64) : Except ReplayError BitcoinNodeCapabilities :=
  if endHeight.toNat > capabilities.blocks then .error (.heightBeyondTip endHeight.toNat capabilities.blocks)
  else .ok capabilities

/-- 2. a pruned node, where it says from where on it has history -/
def checkPruned (capabilities : BitcoinNodeCapabilities) (startHeight endHeight : U64) :
    Except ReplayError BitcoinNodeCapabilities :=
  if capabilities.pruned then
    match capabilities.pruneHeight with
    | some pruneHeight =>
      if startHeight.toNat < pruneHeight then .error (.prunedHistoryUnavailable startHeight.toNat pruneHeight)
      else checkTip capabilities endHeight
    | none => checkTip capabilities endHeight
  else checkTip capabilities endHeight

/-- 1. initial block download, which a regtest node is allowed -/
def checkCapabilities (capabilities : BitcoinNodeCapabilities) (startHeight endHeight : U64) :
    Except ReplayError BitcoinNodeCapabilities :=
  let isRegtest := toLowercase capabilities.network = "regtest"
  if capabilities.initialBlockDownload ∧ ¬ isRegtest then .error .initialBlockDownloadActive
  else checkPruned capabilities startHeight endHeight

/-- `none` is a panic -/
def validateCapabilitiesAndRange (mode : Mode) (config : ReplayConfig)
    (inspected : Except BitcoinRpcError BitcoinNodeCapabilities) (startHeight endHeight : U64) :
    Option (Except ReplayError BitcoinNodeCapabilities) :=
  if startHeight.toNat > endHeight.toNat then
    some (.error (.validation ("start_height (" ++ toString startHeight.toNat ++ ") must be <= end_height (" ++
      toString endHeight.toNat ++ ")")))
  else
    (requestedBlocks mode startHeight endHeight).map fun requested =>
      if requested.toNat > config.maxRange.toNat then
        .error (.rangeExceedsMaximum requested.toNat config.maxRange.toNat)
      else
        match inspected with
        | .error e => .error (.rpc e)
        | .ok capabilities => checkCapabilities capabilities startHeight endHeight

/-- `create_replay_job`: the job of an accepted range -/
def createReplayJob (mode : Mode) (config : ReplayConfig)
    (inspected : Except BitcoinRpcError BitcoinNodeCapabilities) (startHeight endHeight : U64) (id : Uuid)
    (now : DateTime) : Option (Except ReplayError ReplayJob) :=
  (validateCapabilitiesAndRange mode config inspected startHeight endHeight).map fun checked =>
    checked.map fun capabilities =>
      ReplayJob.new id capabilities.network startHeight.toNat endHeight.toNat
        ("bitcoin_core_rpc:" ++ capabilities.network) now

/-! ## The range check -/

/-- when a range is to be accepted -/
structure Admissible (config : ReplayConfig) (capabilities : BitcoinNodeCapabilities) (startHeight endHeight : U64) :
    Prop where
  ordered : startHeight.toNat ≤ endHeight.toNat
  length : endHeight.toNat - startHeight.toNat + 1 ≤ config.maxRange.toNat
  synced : capabilities.initialBlockDownload → toLowercase capabilities.network = "regtest"
  retained : capabilities.pruned → ∀ pruneHeight ∈ capabilities.pruneHeight, pruneHeight ≤ startHeight.toNat
  tip : endHeight.toNat ≤ capabilities.blocks

/-- the range is accepted -/
def Accepts (mode : Mode) (config : ReplayConfig) (capabilities : BitcoinNodeCapabilities)
    (startHeight endHeight : U64) : Prop :=
  validateCapabilitiesAndRange mode config (.ok capabilities) startHeight endHeight = some (.ok capabilities)

/-- nothing overflows, the admissible ranges are accepted, and an accepted range has its exact length -/
structure ExactValidation (config : ReplayConfig) (capabilities : BitcoinNodeCapabilities)
    (startHeight endHeight : U64) : Prop where
  fits : validateCapabilitiesAndRange .panics config (.ok capabilities) startHeight endHeight ≠ none
  accepts : ∀ mode, Accepts mode config capabilities startHeight endHeight ↔
    Admissible config capabilities startHeight endHeight
  total : ∀ mode, Accepts mode config capabilities startHeight endHeight →
    ∃ n, totalBlocks mode startHeight endHeight = some n ∧ n.toNat = endHeight.toNat - startHeight.toNat + 1

variable {mode : Mode} {config : ReplayConfig} {capabilities : BitcoinNodeCapabilities} {startHeight endHeight : U64}

/-- the length of a range, where it fits -/
theorem requestedBlocks_of_lt (mode : Mode) (hle : startHeight.toNat ≤ endHeight.toNat)
    (hlt : endHeight.toNat - startHeight.toNat + 1 < 2 ^ 64) :
    ∃ n, requestedBlocks mode startHeight endHeight = some n ∧ n.toNat = endHeight.toNat - startHeight.toNat + 1 := by
  obtain ⟨span, hspan, hvalue⟩ := sub_of_le mode hle
  obtain ⟨n, hn, hsum⟩ := add_of_lt mode (a := span) (b := 1) (by rw [hvalue]; exact hlt)
  refine ⟨n, ?_, by rw [hsum, hvalue]; rfl⟩
  rw [requestedBlocks, hspan, Option.bind_some, hn]

/-- the whole range of 64 bits has one height too many -/
theorem requestedBlocks_panics (hlength : endHeight.toNat - startHeight.toNat + 1 = 2 ^ 64) :
    requestedBlocks .panics startHeight endHeight = none := by
  obtain ⟨span, hspan, hvalue⟩ := sub_of_le .panics (a := endHeight) (b := startHeight) (by omega)
  rw [requestedBlocks, hspan, Option.bind_some]
  apply add_panics
  rw [hvalue]
  exact hlength.ge

theorem checkTip_iff : checkTip capabilities endHeight = .ok capabilities ↔ endHeight.toNat ≤ capabilities.blocks := by
  unfold checkTip
  split_ifs with hbeyond
  · simpa using hbeyond
  · simpa using hbeyond

theorem checkPruned_iff :
    checkPruned capabilities startHeight endHeight = .ok capabilities ↔
      (capabilities.pruned → ∀ pruneHeight ∈ capabilities.pruneHeight, pruneHeight ≤ startHeight.toNat) ∧
        endHeight.toNat ≤ capabilities.blocks := by
  unfold checkPruned
  cases capabilities.pruned with
  | false => simp [checkTip_iff]
  | true =>
    cases capabilities.pruneHeight with
    | none => simp [checkTip_iff]
    | some pruneHeight =>
      simp only [if_true]
      split_ifs with hbelow
      · simp [hbelow]
      · simp [checkTip_iff, not_lt.1 hbelow]

theorem checkCapabilities_iff :
    checkCapabilities capabilities startHeight endHeight = .ok capabilities ↔
      (capabilities.initialBlockDownload → toLowercase capabilities.network = "regtest") ∧
        (capabilities.pruned → ∀ pruneHeight ∈ capabilities.pruneHeight, pruneHeight ≤ startHeight.toNat) ∧
        endHeight.toNat ≤ capabilities.blocks := by
  unfold checkCapabilities
  dsimp only
  split_ifs with hibd
  · constructor
    · intro h
      cases h
    · intro h
      exact absurd (h.1 hibd.1) hibd.2
  · have hsynced : capabilities.initialBlockDownload → toLowercase capabilities.network = "regtest" := by
      intro hdownload
      by_contra hother
      exact hibd ⟨hdownload, hother⟩
    rw [checkPruned_iff]
    exact ⟨fun h => ⟨hsynced, h⟩, fun h => h.2⟩

/-- **The five conditions.** A range whose length fits is accepted exactly when it is admissible, in every build. -/
theorem accepts_iff (hlt : endHeight.toNat - startHeight.toNat + 1 < 2 ^ 64) :
    Accepts mode config capabilities startHeight endHeight ↔ Admissible config capabilities startHeight endHeight := by
  unfold Accepts validateCapabilitiesAndRange
  by_cases hle : startHeight.toNat ≤ endHeight.toNat
  · obtain ⟨n, hn, hvalue⟩ := requestedBlocks_of_lt mode hle hlt
    rw [if_neg (not_lt.2 hle), hn, Option.map_some, Option.some.injEq, hvalue]
    by_cases hmax : endHeight.toNat - startHeight.toNat + 1 > config.maxRange.toNat
    · rw [if_pos hmax]
      constructor
      · intro h
        cases h
      · intro h
        exact absurd h.length (not_le.2 hmax)
    · rw [if_neg hmax]
      dsimp only
      rw [checkCapabilities_iff]
      refine ⟨fun h => ⟨hle, not_lt.1 hmax, h.1, h.2.1, h.2.2⟩, fun h => ⟨h.synced, h.retained, h.tip⟩⟩
  · rw [if_pos (not_le.1 hle)]
    refine ⟨fun h => by simp at h, fun h => absurd h.ordered hle⟩

/-- **Range validation is exact but for one range.** For every configuration and report: nothing overflows, exactly the
admissible ranges are accepted, and `total_blocks` counts the heights, if and only if the range is not that of all
heights. -/
theorem validation_exact_iff (config : ReplayConfig) (capabilities : BitcoinNodeCapabilities)
    (startHeight endHeight : U64) :
    ExactValidation config capabilities startHeight endHeight ↔
      ¬ (startHeight.toNat = 0 ∧ endHeight.toNat = 2 ^ 64 - 1) := by
  have hend : endHeight.toNat < 2 ^ 64 := endHeight.isLt
  constructor
  · intro hexact hwhole
    obtain ⟨hzero, hmax⟩ := hwhole
    apply hexact.fits
    have hpanics : requestedBlocks .panics startHeight endHeight = none := requestedBlocks_panics (by omega)
    rw [validateCapabilitiesAndRange, if_neg (by omega), hpanics]
    rfl
  · intro hother
    by_cases hle : startHeight.toNat ≤ endHeight.toNat
    · have hlt : endHeight.toNat - startHeight.toNat + 1 < 2 ^ 64 := by omega
      have htotal : ∀ mode, ∃ n, requestedBlocks mode startHeight endHeight = some n ∧
          n.toNat = endHeight.toNat - startHeight.toNat + 1 := fun mode => requestedBlocks_of_lt mode hle hlt
      refine ⟨?_, fun mode => accepts_iff hlt, fun mode _ => ?_⟩
      · obtain ⟨n, hn, -⟩ := htotal .panics
        rw [validateCapabilitiesAndRange, if_neg (by omega), hn]
        simp
      · rw [totalBlocks, if_pos hle]
        exact htotal mode
    · have hlt : endHeight.toNat - startHeight.toNat + 1 < 2 ^ 64 := by omega
      refine ⟨?_, fun mode => accepts_iff hlt, fun mode haccepts => ?_⟩
      · rw [validateCapabilitiesAndRange, if_pos (by omega)]
        simp
      · exact absurd ((accepts_iff hlt).1 haccepts).ordered hle

/-! ## All heights -/

/-- a regtest node of two blocks -/
def regtestNode : BitcoinNodeCapabilities where
  network := "regtest"
  version := 270000
  subversion := "/Satoshi:27.0.0/"
  blocks := 2
  headers := 2
  verificationProgress := 1
  initialBlockDownload := true
  pruned := false
  pruneHeight := none
  txindexAvailable := false
  zmqRawtx := true
  zmqRawblock := true
  zmqSequence := true

/-- no variable is set -/
def defaultConfig : ReplayConfig := ReplayConfig.fromEnv fun _ => none

example : Accepts .panics defaultConfig regtestNode 1 2 := by unfold Accepts; decide +kernel

/-- **From 0 to the greatest height.** A build with overflow checks panics, and one without them takes the length of the
range for 0, which is within every limit. -/
theorem whole_range_overflows :
    validateCapabilitiesAndRange .panics defaultConfig (.ok regtestNode) 0 18446744073709551615 = none ∧
      requestedBlocks .wraps 0 18446744073709551615 = some 0 ∧
      ¬ ExactValidation defaultConfig regtestNode 0 18446744073709551615 := by
  have hpanics : validateCapabilitiesAndRange .panics defaultConfig (.ok regtestNode) 0 18446744073709551615 = none := by
    decide +kernel
  exact ⟨hpanics, by decide +kernel, fun hexact => hexact.fits hpanics⟩

end ObsChain.Replay
