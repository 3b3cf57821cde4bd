/-
The eight detectors (`large_tx.rs`, `long_interval.rs`, `dormant.rs`, `consolidation.rs`, `fan_out.rs`, `extreme_fee.rs`,
`rbf.rs`, `reorg.rs`).

A detector looks at one observation and reports at most one event. What a report draws from outside is its `Fresh`: the
random id and the clock reading of `ChainEvent::new`, and the later reading the detector stores as `detected_at`.
Conversions to u32 and unsigned sums wrap, as in a release build; amounts in BTC, rates and ratios are exact rationals, and
`{:.2}` rounds half to even. A slice that would cut a character panics: the engine catches it and the detector reports
nothing. The RFC 3339 text of a time is the parameter `rfc3339`.

- `Detector.detect` is the trait object; `historicallyReplayable` is what `availability` declares.
- `detect_drawn`: for a replayable detector, what is drawn shows in the id and the three times only.
- `eventTime_detect`: an event's `event_time` is the clock reading at its creation.
- `detect_block`: on a block only the long-interval detectors report.
Not modelled: names, descriptions and the other availability flags, which nothing reads.
-/
import Mathlib.Tactic
import ObsChain.Domain.Amount
import ObsChain.Domain.Baseline
import ObsChain.Ingest.BitcoinZmq

namespace ObsChain

/-- an amount in BTC -/
def btcOfSats (sats : ℕ) : ℚ := sats / satsPerBtc

/-- an f64 with a fixed count of decimals, `{:.d}` -/
def formatFixed (decimals : ℕ) (x : ℚ) : String :=
  let scaled := |x| * 10 ^ decimals
  let floor := ⌊scaled⌋.toNat
  let rest := scaled - floor
  let rounded := if rest < 1 / 2 ∨ (rest = 1 / 2 ∧ floor % 2 = 0) then floor else floor + 1
  (if x < 0 then "-" else "") ++ MetricValue.decimalString rounded decimals

/-- `&s[..n.min(s.len())]`, in bytes; `none` when that cuts a character -/
def slicePrefix (n : ℕ) : List Char → Option (List Char)
  | [] => some []
  | c :: cs =>
    if n = 0 then some []
    else if c.utf8Size ≤ n then (slicePrefix (n - c.utf8Size) cs).map (c :: ·)
    else none

/-- what one report draws: a random id and two clock readings -/
structure Fresh where
  id : Uuid
  created : DateTime
  detected : DateTime
deriving DecidableEq, Repr

/-- `ChainEvent::new` -/
def ChainEvent.new (fresh : Fresh) (eventType : EventType) (severity : EventSeverity) (confidence : ConfidenceLevel)
    (title description : String) : ChainEvent where
  id := fresh.id
  eventType := eventType
  severity := severity
  confidence := confidence
  title := title
  description := description
  eventTime := fresh.created
  firstObservedAt := fresh.created
  detectedAt := fresh.created
  blockHeight := none
  blockHash := none
  txid := none
  source := none
  witnesses := []
  observationMode := .live
  replayJobId := none
  metadata := .object []
  observations := []

/-! ## Transactions and blocks -/

structure LargeTransactionDetector where
  thresholdSats : ℕ
deriving DecidableEq, Repr

namespace LargeTransactionDetector

def default : LargeTransactionDetector := ⟨100 * satsPerBtc⟩

def severityOf (sats : ℕ) : EventSeverity :=
  if sats ≥ 10000 * satsPerBtc then .critical else if sats ≥ 1000 * satsPerBtc then .high else .medium

def report (fresh : Fresh) (tx : TransactionObservation) : ChainEvent :=
  let btcAmount := btcOfSats tx.totalOutputSats
  { ChainEvent.new fresh .largeTransfer (severityOf tx.totalOutputSats) .verifiedOnChain
      ("Large Transfer: " ++ formatFixed 2 btcAmount ++ " BTC")
      ("Transaction " ++ tx.txid ++ " transferred " ++ formatFixed 2 btcAmount ++ " BTC across " ++
        toString tx.outputCount ++ " outputs with fee " ++ toString tx.feeSats ++ " sats.") with
    txid := some tx.txid
    blockHash := tx.blockHash
    blockHeight := tx.blockHeight
    detectedAt := fresh.detected
    metadata := .object [
      ("total_output_sats", .nat tx.totalOutputSats),
      ("total_output_btc", .number (.float btcAmount)),
      ("fee_sats", .nat tx.feeSats),
      ("fee_rate_sat_vb", .optF64Value tx.feeRateSatVb),
      ("vsize", .nat tx.vsize),
      ("inputs_count", .nat tx.inputCount),
      ("outputs_count", .nat tx.outputCount)] }

def detect (d : LargeTransactionDetector) (fresh : Fresh) : Observation → List ChainEvent
  | .transaction tx => if tx.totalOutputSats < d.thresholdSats then [] else [report fresh tx]
  | _ => []

end LargeTransactionDetector

structure LongBlockIntervalDetector where
  thresholdSeconds : ℕ
deriving DecidableEq, Repr

namespace LongBlockIntervalDetector

def default : LongBlockIntervalDetector := ⟨3600⟩

/-- two hours, one and a half -/
def severityOf (interval : ℕ) : EventSeverity :=
  if interval ≥ 7200 then .critical else if interval ≥ 5400 then .high else .medium

/-- the event of a block that came `interval` seconds after the previous one -/
def report (fresh : Fresh) (block : BlockObservation) (interval : ℕ) : ChainEvent :=
  let minutes := interval / 60
  { ChainEvent.new fresh .longBlockInterval (severityOf interval) .verifiedOnChain
      ("Long Block Interval: " ++ toString minutes ++ " min at height " ++ toString block.height)
      ("Block " ++ block.blockHash ++ " at height " ++ toString block.height ++ " was mined " ++ toString minutes ++
        " minutes (" ++ toString interval ++ "s) after the previous block. Expected target is 10 minutes.") with
    blockHash := some block.blockHash
    blockHeight := some block.height
    detectedAt := fresh.detected
    metadata := .object [
      ("interval_seconds", .nat interval),
      ("interval_minutes", .nat minutes),
      ("tx_count", .nat block.txCount),
      ("miner_tag", .optString block.minerTag),
      ("size_bytes", .nat block.sizeBytes)] }

def detect (d : LongBlockIntervalDetector) (fresh : Fresh) : Observation → List ChainEvent
  | .block block =>
    match block.intervalSeconds with
    | none => []
    | some interval => if interval < d.thresholdSeconds then [] else [report fresh block interval]
  | _ => []

end LongBlockIntervalDetector

structure ConsolidationDetector where
  minInputs : ℕ
  maxOutputs : ℕ
  minValueSats : ℕ
deriving DecidableEq, Repr

namespace ConsolidationDetector

def default : ConsolidationDetector := ⟨20, 5, 0⟩

def severityOf (inputCount totalInputSats : ℕ) : EventSeverity :=
  if inputCount ≥ 100 ∨ totalInputSats ≥ 100 * satsPerBtc then .high else if inputCount ≥ 50 then .medium else .low

def report (fresh : Fresh) (tx : TransactionObservation) : ChainEvent :=
  let inputOutputRatio : ℚ := tx.inputCount / (max tx.outputCount 1 : ℕ)
  let totalInputBtc := btcOfSats tx.totalInputSats
  let metadata : ConsolidationMetadata :=
    { inputCount := tx.inputCount % 2 ^ 32
      outputCount := tx.outputCount % 2 ^ 32
      inputOutputRatio := inputOutputRatio
      totalInputSats := tx.totalInputSats
      totalOutputSats := tx.totalOutputSats
      feeSats := tx.feeSats }
  { (ChainEvent.new fresh .consolidation (severityOf tx.inputCount tx.totalInputSats) .verifiedOnChain
      ("UTXO Consolidation: " ++ toString tx.inputCount ++ " inputs -> " ++ toString tx.outputCount ++
        " outputs (" ++ formatFixed 2 totalInputBtc ++ " BTC)")
      ("Transaction " ++ tx.txid ++ " consolidated " ++ toString tx.inputCount ++ " inputs into " ++
        toString tx.outputCount ++ " outputs (ratio " ++ formatFixed 1 inputOutputRatio ++ ":1) moving " ++
        formatFixed 4 totalInputBtc ++ " BTC with fee " ++ toString tx.feeSats ++ " sats.")).withTypedMetadata
      (some metadata.toValue) with
    txid := some tx.txid
    blockHash := tx.blockHash
    blockHeight := tx.blockHeight
    detectedAt := fresh.detected }

def detect (d : ConsolidationDetector) (fresh : Fresh) : Observation → List ChainEvent
  | .transaction tx =>
    if tx.inputCount < d.minInputs ∨ tx.outputCount > d.maxOutputs then []
    else if tx.totalInputSats < d.minValueSats then []
    else [report fresh tx]
  | _ => []

end ConsolidationDetector

structure FanOutDetector where
  minOutputs : ℕ
  minValueSats : ℕ
deriving DecidableEq, Repr

namespace FanOutDetector

def default : FanOutDetector := ⟨50, 0⟩

def severityOf (outputCount totalDistributedSats : ℕ) : EventSeverity :=
  if outputCount ≥ 200 ∨ totalDistributedSats ≥ 100 * satsPerBtc then .high
  else if outputCount ≥ 100 then .medium
  else .low

/-- smallest, largest and median output; without the outputs all three are the average -/
def outputStats (tx : TransactionObservation) : ℕ × ℕ × ℕ :=
  if tx.outputs.isEmpty then
    let avg := tx.totalOutputSats / max tx.outputCount 1
    (avg, avg, avg)
  else
    let vals := (tx.outputs.map (·.valueSats)).insertionSort (· ≤ ·)
    let mid := vals.length / 2
    let median :=
      if vals.length % 2 = 0 ∧ vals.length ≥ 2 then (vals.getD (mid - 1) 0 + vals.getD mid 0) % 2 ^ 64 / 2
      else vals.getD mid 0
    (vals.head?.getD 0, vals.getLast?.getD 0, median)

def report (fresh : Fresh) (tx : TransactionObservation) : ChainEvent :=
  let outputInputRatio : ℚ := tx.outputCount / (max tx.inputCount 1 : ℕ)
  let totalDistributedBtc := btcOfSats tx.totalOutputSats
  let stats := outputStats tx
  let metadata : FanOutMetadata :=
    { inputCount := tx.inputCount % 2 ^ 32
      outputCount := tx.outputCount % 2 ^ 32
      outputInputRatio := outputInputRatio
      totalDistributedSats := tx.totalOutputSats
      totalDistributedBtc := totalDistributedBtc
      medianOutputSats := stats.2.2
      smallestOutputSats := stats.1
      largestOutputSats := stats.2.1 }
  { (ChainEvent.new fresh .fanOut (severityOf tx.outputCount tx.totalOutputSats) .verifiedOnChain
      ("High Fan-Out Transaction: " ++ toString tx.outputCount ++ " outputs (" ++
        formatFixed 2 totalDistributedBtc ++ " BTC)")
      ("Transaction " ++ tx.txid ++ " created " ++ toString tx.outputCount ++ " outputs across " ++
        toString tx.inputCount ++ " input(s) (ratio " ++ formatFixed 1 outputInputRatio ++ ":1) distributing " ++
        formatFixed 4 totalDistributedBtc ++ " BTC. Median output: " ++ toString stats.2.2 ++
        " sats.")).withTypedMetadata (some metadata.toValue) with
    txid := some tx.txid
    blockHash := tx.blockHash
    blockHeight := tx.blockHeight
    detectedAt := fresh.detected }

def detect (d : FanOutDetector) (fresh : Fresh) : Observation → List ChainEvent
  | .transaction tx =>
    if tx.outputCount < d.minOutputs ∨ tx.totalOutputSats < d.minValueSats then [] else [report fresh tx]
  | _ => []

end FanOutDetector

structure ExtremeFeeDetector where
  extremeFeeSats : ℕ
  extremeFeeRateSatVb : ℚ
deriving DecidableEq, Repr

namespace ExtremeFeeDetector

def default : ExtremeFeeDetector := ⟨10000000, 200⟩

/-- the given rate, or the fee over the size -/
def feeRate (tx : TransactionObservation) : ℚ :=
  tx.feeRateSatVb.getD (if tx.vsize > 0 then tx.feeSats / tx.vsize else 0)

def severityOf (feeSats : ℕ) (feeRate : ℚ) : EventSeverity :=
  if feeSats ≥ satsPerBtc ∨ feeRate ≥ 1000 then .critical
  else if feeSats ≥ 50000000 ∨ feeRate ≥ 500 then .high
  else .medium

def triggerOf (d : ExtremeFeeDetector) (tx : TransactionObservation) : Option ExtremeFeeTriggerType :=
  match decide (tx.feeSats ≥ d.extremeFeeSats), decide (feeRate tx ≥ d.extremeFeeRateSatVb) with
  | true, true => some .both
  | true, false => some .highAbsoluteFee
  | false, true => some .highFeeRate
  | false, false => none

def triggerDesc : ExtremeFeeTriggerType → String
  | .highAbsoluteFee => "High absolute fee"
  | .highFeeRate => "High fee rate"
  | .both => "High fee and fee rate"

def report (fresh : Fresh) (tx : TransactionObservation) (trigger : ExtremeFeeTriggerType) : ChainEvent :=
  let rate := feeRate tx
  let feeBtc := btcOfSats tx.feeSats
  let metadata : ExtremeFeeMetadata :=
    { feeSats := tx.feeSats
      feeBtc := feeBtc
      feeRateSatVb := some rate
      vsize := tx.vsize
      totalInputSats := tx.totalInputSats
      totalOutputSats := tx.totalOutputSats
      feeTriggerType := trigger }
  { (ChainEvent.new fresh .extremeFee (severityOf tx.feeSats rate) .verifiedOnChain
      ("Extreme Fee: " ++ formatFixed 4 feeBtc ++ " BTC (" ++ formatFixed 1 rate ++ " sat/vB) [" ++
        triggerDesc trigger ++ "]")
      ("Transaction " ++ tx.txid ++ " paid an extreme fee of " ++ toString tx.feeSats ++ " sats (" ++
        formatFixed 4 feeBtc ++ " BTC) at " ++ formatFixed 2 rate ++ " sat/vB (vsize " ++ toString tx.vsize ++
        " vB).")).withTypedMetadata (some metadata.toValue) with
    txid := some tx.txid
    blockHash := tx.blockHash
    blockHeight := tx.blockHeight
    detectedAt := fresh.detected }

def detect (d : ExtremeFeeDetector) (fresh : Fresh) : Observation → List ChainEvent
  | .transaction tx => ((triggerOf d tx).map (report fresh tx)).toList
  | _ => []

end ExtremeFeeDetector

/-! ## Dormant coins -/

structure DormantCoinDetector where
  minAgeDays : ℕ
  minValueSats : ℕ
deriving DecidableEq, Repr

namespace DormantCoinDetector

/-- five years, one BTC -/
def default : DormantCoinDetector := ⟨1825, satsPerBtc⟩

/-- 2011-01-01 00:00:00 UTC -/
def earlyBitcoinTimestampCutoffSecs : ℤ := 1293840000

def earlyBitcoinBlockHeightCutoff : ℕ := 100000

/-- `DateTime::timestamp`: whole seconds, rounded down -/
def timestampSecs (t : DateTime) : ℤ := t.fdiv 1000000000

def classify (oldestAgeDays : ℕ) (confirmedAt : Option DateTime) (confirmedHeight : Option ℕ) :
    DormantClassification :=
  if confirmedHeight.any (· ≤ earlyBitcoinBlockHeightCutoff) then .earlyBitcoin
  else if confirmedAt.any (timestampSecs · < earlyBitcoinTimestampCutoffSecs) then .earlyBitcoin
  else if oldestAgeDays ≥ 5475 then .ancient
  else if oldestAgeDays ≥ 3650 then .veryOld
  else .dormant

def determineSeverity (classification : DormantClassification) (totalDormantSats : ℕ) : EventSeverity :=
  let dormantBtc := btcOfSats totalDormantSats
  match classification with
  | .earlyBitcoin => if dormantBtc ≥ 50 then .critical else if dormantBtc ≥ 1 then .high else .medium
  | .ancient => if dormantBtc ≥ 100 then .critical else if dormantBtc ≥ 10 then .high else .medium
  | .veryOld =>
    if dormantBtc ≥ 200 then .critical
    else if dormantBtc ≥ 50 then .high
    else if dormantBtc ≥ 5 then .medium
    else .low
  | .dormant =>
    if dormantBtc ≥ 500 then .critical
    else if dormantBtc ≥ 100 then .high
    else if dormantBtc ≥ 10 then .medium
    else .low

def classLabel : DormantClassification → String
  | .earlyBitcoin => "Early Bitcoin Era"
  | .ancient => "Ancient (15+ Years)"
  | .veryOld => "Very Old (10+ Years)"
  | .dormant => "Dormant (5+ Years)"

/-- the age of a spent output, by its confirmation time, else ten minutes a block -/
def ageSecs (tx : TransactionObservation) (utxo : SpentOutputContext) : ℕ :=
  match utxo.confirmedAt, utxo.confirmedHeight, tx.blockHeight with
  | some confirmedAt, _, _ => (secondsSince tx.timestamp confirmedAt).toNat
  | none, some confirmedHeight, some txHeight =>
    if txHeight > confirmedHeight then (txHeight - confirmedHeight) * 600 % 2 ^ 64 else 0
  | none, _, _ => 0

/-- what the loop over the inputs accumulates -/
structure Tally where
  qualifyingInputsCount : ℕ
  totalDormantSats : ℕ
  oldestAgeSeconds : ℕ
  youngestQualifyingAgeSeconds : ℕ
  coinAgeDestroyedSatsDays : ℕ
  oldestConfirmedAt : Option DateTime
  oldestConfirmedHeight : Option ℕ
deriving DecidableEq, Repr

def Tally.start : Tally := ⟨0, 0, 0, 2 ^ 64 - 1, 0, none, none⟩

/-- one qualifying output -/
def Tally.add (t : Tally) (utxo : SpentOutputContext) (age : ℕ) : Tally :=
  let older := age > t.oldestAgeSeconds
  { qualifyingInputsCount := (t.qualifyingInputsCount + 1) % 2 ^ 32
    totalDormantSats := saturatingAdd t.totalDormantSats utxo.valueSats
    oldestAgeSeconds := if older then age else t.oldestAgeSeconds
    youngestQualifyingAgeSeconds := min age t.youngestQualifyingAgeSeconds
    coinAgeDestroyedSatsDays := min (t.coinAgeDestroyedSatsDays + utxo.valueSats * (age / 86400)) (2 ^ 128 - 1)
    oldestConfirmedAt := if older then utxo.confirmedAt else t.oldestConfirmedAt
    oldestConfirmedHeight := if older then utxo.confirmedHeight else t.oldestConfirmedHeight }

def tally (d : DormantCoinDetector) (tx : TransactionObservation) : Tally :=
  tx.inputs.foldl (fun t input =>
    match input.historicalUtxo with
    | none => t
    | some utxo => if ageSecs tx utxo / 86400 ≥ d.minAgeDays then t.add utxo (ageSecs tx utxo) else t) Tally.start

def report (fresh : Fresh) (tx : TransactionObservation) (t : Tally) : ChainEvent :=
  let oldestAgeDays := t.oldestAgeSeconds / 86400
  let classification := classify oldestAgeDays t.oldestConfirmedAt t.oldestConfirmedHeight
  let totalDormantBtc := btcOfSats t.totalDormantSats
  let coinAgeDestroyedBtcDays := btcOfSats t.coinAgeDestroyedSatsDays
  let coinAgeDestroyedBtcYears := coinAgeDestroyedBtcDays / (36525 / 100)
  let metadata : DormantCoinsMetadata :=
    { totalDormantSats := t.totalDormantSats
      totalDormantBtc := totalDormantBtc
      dormantInputCount := t.qualifyingInputsCount
      totalInputCount := tx.inputCount % 2 ^ 32
      oldestInputAgeDays := oldestAgeDays
      oldestInputAgeSeconds := t.oldestAgeSeconds
      youngestQualifyingAgeDays := t.youngestQualifyingAgeSeconds / 86400
      totalInputSats := tx.totalInputSats
      totalOutputSats := tx.totalOutputSats
      dormantRatio := if tx.totalInputSats > 0 then t.totalDormantSats / tx.totalInputSats else 1
      coinAgeDestroyedSatsDays := t.coinAgeDestroyedSatsDays
      coinAgeDestroyedBtcDays := coinAgeDestroyedBtcDays
      coinAgeDestroyedBtcYears := coinAgeDestroyedBtcYears
      classification := classification }
  { (ChainEvent.new fresh .dormantCoinsMoved (determineSeverity classification t.totalDormantSats) .verifiedOnChain
      ("Dormant Coins Moved: " ++ formatFixed 2 totalDormantBtc ++ " BTC (" ++ classLabel classification ++ ")")
      ("Transaction " ++ tx.txid ++ " moved " ++ formatFixed 4 totalDormantBtc ++ " BTC dormant for " ++
        toString oldestAgeDays ++ " days (oldest UTXO) across " ++ toString t.qualifyingInputsCount ++
        " input(s). Destroyed " ++ toString t.coinAgeDestroyedSatsDays ++ " satoshi-days (" ++
        formatFixed 2 coinAgeDestroyedBtcYears ++ " BTC-years).")).withTypedMetadata metadata.toValue with
    txid := some tx.txid
    blockHash := tx.blockHash
    blockHeight := tx.blockHeight
    detectedAt := fresh.detected }

def detect (d : DormantCoinDetector) (fresh : Fresh) : Observation → List ChainEvent
  | .transaction tx =>
    let t := tally d tx
    if t.qualifyingInputsCount = 0 ∨ t.totalDormantSats < d.minValueSats then [] else [report fresh tx t]
  | _ => []

end DormantCoinDetector

/-! ## Replacements and reorganisations -/

namespace RbfDetector

/-- `{:+}` -/
def signed (i : ℤ) : String := if 0 ≤ i then "+" ++ toString i else toString i

/-- `{:+.1}` -/
def signedFixed (x : ℚ) : String := if 0 ≤ x then "+" ++ formatFixed 1 x else formatFixed 1 x

/-- both fees as i64, and their wrapping difference -/
def feeDelta (repl : TransactionReplacement) : ℤ := ((repl.newFeeSats : ℤ) - repl.oldFeeSats).bmod (2 ^ 64)

def severityOf (feeDeltaSats : ℤ) (replacedCount : ℕ) : EventSeverity :=
  if feeDeltaSats ≥ 1000000 ∨ replacedCount ≥ 5 then .high
  else if feeDeltaSats ≥ 100000 ∨ replacedCount ≥ 2 then .medium
  else .low

/-- the event, given the start of the txid that its title shows -/
def report (fresh : Fresh) (repl : TransactionReplacement) (shown : List Char) : ChainEvent :=
  let replacedCount := repl.replacedTxids.length
  let feeDeltaSats := feeDelta repl
  let feeIncreasePercent : Option ℚ :=
    if repl.oldFeeSats > 0 then some (feeDeltaSats / repl.oldFeeSats * 100) else none
  let deltaDesc :=
    match feeIncreasePercent with
    | some pct => signed feeDeltaSats ++ " sats (" ++ signedFixed pct ++ "%)"
    | none => signed feeDeltaSats ++ " sats"
  let metadata : ReplacementMetadata :=
    { replacedTxids := repl.replacedTxids
      replacementTxid := repl.replacementTxid
      replacedCount := replacedCount
      oldFeeSats := repl.oldFeeSats
      newFeeSats := repl.newFeeSats
      feeDeltaSats := feeDeltaSats
      feeIncreasePercent := feeIncreasePercent
      oldFeeRateSatVb := repl.oldFeeRateSatVb
      newFeeRateSatVb := repl.newFeeRateSatVb }
  { (ChainEvent.new fresh .transactionReplacement (severityOf feeDeltaSats replacedCount) .verifiedOnChain
      ("Transaction replacement observed: " ++ String.ofList shown ++ " (" ++ toString replacedCount ++ " txs replaced)")
      ("Observed RBF replacement: transaction " ++ repl.replacementTxid ++ " replaced " ++ toString replacedCount ++
        " transaction(s). New fee: " ++ toString repl.newFeeSats ++ " sats (" ++
        formatFixed 4 (btcOfSats repl.newFeeSats) ++ " BTC), fee delta: " ++ deltaDesc ++ ".")).withTypedMetadata
      (some metadata.toValue) with
    txid := some repl.replacementTxid
    detectedAt := fresh.detected
    source := repl.source }

def detect (fresh : Fresh) : Observation → List ChainEvent
  | .replacement repl =>
    if repl.replacementTxid.isEmpty ∨ repl.replacedTxids.isEmpty then []
    else ((slicePrefix 12 repl.replacementTxid.toList).map (report fresh repl)).toList
  | _ => []

end RbfDetector

namespace ReorgDetector

def severityOf (depth : ℕ) : EventSeverity :=
  if depth ≤ 1 then .low else if depth = 2 then .medium else if depth ≤ 5 then .high else .critical

/-- the event, given the starts of the two tips that its description shows -/
def report (rfc3339 : DateTime → String) (fresh : Fresh) (reorg : ReorgObservation) (old new : List Char) :
    ChainEvent :=
  let title :=
    if reorg.depth ≤ 1 then "Single-Block Chain Reorganization (Stale Block)"
    else "Chain Reorganization Detected (Depth " ++ toString reorg.depth ++ ")"
  let description :=
    if reorg.depth ≤ 1 then
      "Competing block resolved at height " ++ toString reorg.oldTipHeight ++ ". Block " ++ String.ofList old ++
        " replaced by " ++ String.ofList new
    else
      "Chain reorganization of depth " ++ toString reorg.depth ++ " detected. Replaced tip " ++ String.ofList old ++
        " (height " ++ toString reorg.oldTipHeight ++ ") with " ++ String.ofList new ++ " (height " ++
        toString reorg.newTipHeight ++ ")"
  let event : ChainEvent :=
    { ChainEvent.new fresh .reorgDetected (severityOf reorg.depth) .verifiedOnChain title description with
      detectedAt := reorg.observedAt
      blockHeight := some reorg.newTipHeight
      blockHash := some reorg.newTipHash
      source := reorg.source
      metadata := .object [
        ("old_tip", .string reorg.oldTipHash),
        ("old_tip_height", .nat reorg.oldTipHeight),
        ("new_tip", .string reorg.newTipHash),
        ("new_tip_height", .nat reorg.newTipHeight),
        ("common_ancestor", .optString reorg.commonAncestorHash),
        ("depth", .nat reorg.depth),
        ("disconnected_blocks", .strings reorg.disconnectedBlocks),
        ("connected_blocks", .strings reorg.connectedBlocks),
        ("observed_at", .string (rfc3339 reorg.observedAt))] }
  match reorg.source with
  | some src => event.addWitness ⟨src, reorg.observedAt, none⟩
  | none => event

def detect (rfc3339 : DateTime → String) (fresh : Fresh) : Observation → List ChainEvent
  | .reorg reorg =>
    match slicePrefix 16 reorg.oldTipHash.toList, slicePrefix 16 reorg.newTipHash.toList with
    | some old, some new => [report rfc3339 fresh reorg old new]
    | _, _ => []
  | _ => []

end ReorgDetector

/-! ## The trait -/

inductive Detector where
  | largeTransaction (d : LargeTransactionDetector)
  | longBlockInterval (d : LongBlockIntervalDetector)
  | dormantCoin (d : DormantCoinDetector)
  | consolidation (d : ConsolidationDetector)
  | fanOut (d : FanOutDetector)
  | extremeFee (d : ExtremeFeeDetector)
  | rbf
  | reorg
deriving DecidableEq, Repr

namespace Detector

def detect (rfc3339 : DateTime → String) (fresh : Fresh) (observation : Observation) : Detector → List ChainEvent
  | .largeTransaction d => d.detect fresh observation
  | .longBlockInterval d => d.detect fresh observation
  | .dormantCoin d => d.detect fresh observation
  | .consolidation d => d.detect fresh observation
  | .fanOut d => d.detect fresh observation
  | .extremeFee d => d.detect fresh observation
  | .rbf => RbfDetector.detect fresh observation
  | .reorg => ReorgDetector.detect rfc3339 fresh observation

/-- mempool replacements and stale forks are not on the active chain -/
def historicallyReplayable : Detector → Bool
  | .rbf => false
  | .reorg => false
  | _ => true

end Detector

/-! ## What a report draws -/

/-- the event with what it draws set to `fresh` -/
def ChainEvent.drawn (fresh : Fresh) (event : ChainEvent) : ChainEvent :=
  { event with
    id := fresh.id
    eventTime := fresh.created
    firstObservedAt := fresh.created
    detectedAt := fresh.detected }

namespace Detector

/-- **What is drawn shows in the id and the three times only**, for a detector that replays. -/
theorem detect_drawn (rfc3339 : DateTime → String) {d : Detector} (hd : d.historicallyReplayable) (f g : Fresh)
    (observation : Observation) :
    d.detect rfc3339 f observation = (d.detect rfc3339 g observation).map (ChainEvent.drawn f) := by
  cases d with
  | rbf => simp [historicallyReplayable] at hd
  | reorg => simp [historicallyReplayable] at hd
  | largeTransaction d =>
    cases observation <;> simp only [detect, LargeTransactionDetector.detect]
    case transaction tx => split_ifs <;> rfl
    all_goals rfl
  | longBlockInterval d =>
    cases observation <;> simp only [detect, LongBlockIntervalDetector.detect]
    case block block =>
      cases block.intervalSeconds with
      | none => rfl
      | some interval => dsimp only; split_ifs <;> rfl
    all_goals rfl
  | dormantCoin d =>
    cases observation <;> simp only [detect, DormantCoinDetector.detect]
    case transaction tx => split_ifs <;> rfl
    all_goals rfl
  | consolidation d =>
    cases observation <;> simp only [detect, ConsolidationDetector.detect]
    case transaction tx => split_ifs <;> rfl
    all_goals rfl
  | fanOut d =>
    cases observation <;> simp only [detect, FanOutDetector.detect]
    case transaction tx => split_ifs <;> rfl
    all_goals rfl
  | extremeFee d =>
    cases observation <;> simp only [detect, ExtremeFeeDetector.detect]
    case transaction tx =>
      cases ExtremeFeeDetector.triggerOf d tx with
      | none => rfl
      | some trigger => rfl
    all_goals rfl

/-- an event's `event_time` is the clock reading at its creation -/
theorem eventTime_detect {rfc3339 : DateTime → String} {d : Detector} (hd : d.historicallyReplayable) {fresh : Fresh}
    {observation : Observation} {event : ChainEvent} (h : event ∈ d.detect rfc3339 fresh observation) :
    event.eventTime = fresh.created := by
  rw [detect_drawn rfc3339 hd fresh fresh] at h
  obtain ⟨report, -, rfl⟩ := List.mem_map.1 h
  rfl

/-- on a block only the long-interval detectors report, and only an interval at their threshold -/
theorem detect_block {rfc3339 : DateTime → String} {d : Detector} {fresh : Fresh} {block : BlockObservation}
    {event : ChainEvent} : event ∈ d.detect rfc3339 fresh (.block block) ↔
      ∃ l interval, d = .longBlockInterval l ∧ block.intervalSeconds = some interval ∧ l.thresholdSeconds ≤ interval ∧
        event = LongBlockIntervalDetector.report fresh block interval := by
  cases d with
  | longBlockInterval l =>
    simp only [detect, LongBlockIntervalDetector.detect]
    cases block.intervalSeconds with
    | none => simp
    | some interval =>
      dsimp only
      split_ifs with hlt
      · simp only [List.not_mem_nil, false_iff, not_exists]
        rintro l' i ⟨hl, hi, hle, -⟩
        cases hl
        cases hi
        omega
      · rw [List.mem_singleton]
        constructor
        · rintro rfl
          exact ⟨l, interval, rfl, rfl, not_lt.1 hlt, rfl⟩
        · rintro ⟨l', i, -, hi, -, rfl⟩
          cases hi
          rfl
  | _ =>
    simp [detect, LargeTransactionDetector.detect, DormantCoinDetector.detect, ConsolidationDetector.detect,
      FanOutDetector.detect, ExtremeFeeDetector.detect, RbfDetector.detect, ReorgDetector.detect]

/-- no event about a transaction is one about a block interval -/
theorem eventType_detect_transaction {rfc3339 : DateTime → String} {d : Detector} {fresh : Fresh}
    {tx : TransactionObservation} {event : ChainEvent} (h : event ∈ d.detect rfc3339 fresh (.transaction tx)) :
    event.eventType ≠ .longBlockInterval := by
  cases d with
  | longBlockInterval l => simp [detect, LongBlockIntervalDetector.detect] at h
  | rbf => simp [detect, RbfDetector.detect] at h
  | reorg => simp [detect, ReorgDetector.detect] at h
  | largeTransaction l =>
    obtain ⟨-, rfl⟩ : _ ∧ event = LargeTransactionDetector.report fresh tx := by
      simpa [detect, LargeTransactionDetector.detect] using h
    exact fun hne => by cases hne
  | dormantCoin l =>
    obtain ⟨-, rfl⟩ : _ ∧ event = DormantCoinDetector.report fresh tx (l.tally tx) := by
      simpa [detect, DormantCoinDetector.detect] using h
    exact fun hne => by cases hne
  | consolidation l =>
    obtain ⟨-, -, rfl⟩ : _ ∧ _ ∧ event = ConsolidationDetector.report fresh tx := by
      simpa [detect, ConsolidationDetector.detect] using h
    exact fun hne => by cases hne
  | fanOut l =>
    obtain ⟨-, rfl⟩ : _ ∧ event = FanOutDetector.report fresh tx := by
      simpa [detect, FanOutDetector.detect] using h
    exact fun hne => by cases hne
  | extremeFee l =>
    obtain ⟨trigger, -, rfl⟩ : ∃ trigger, _ ∧ ExtremeFeeDetector.report fresh tx trigger = event := by
      simpa [detect, ExtremeFeeDetector.detect] using h
    exact fun hne => by cases hne

/-- a detector reports at most one event on an observation -/
theorem length_detect_le (rfc3339 : DateTime → String) (fresh : Fresh) (observation : Observation) (d : Detector) :
    (d.detect rfc3339 fresh observation).length ≤ 1 := by
  cases d with
  | largeTransaction d =>
    simp only [detect, LargeTransactionDetector.detect]
    split <;> (try split_ifs) <;> simp
  | longBlockInterval d =>
    simp only [detect, LongBlockIntervalDetector.detect]
    split
    · split <;> (try split_ifs) <;> simp
    · simp
  | dormantCoin d =>
    simp only [detect, DormantCoinDetector.detect]
    split <;> (try split_ifs) <;> simp
  | consolidation d =>
    simp only [detect, ConsolidationDetector.detect]
    split <;> (try split_ifs) <;> simp
  | fanOut d =>
    simp only [detect, FanOutDetector.detect]
    split <;> (try split_ifs) <;> simp
  | extremeFee d =>
    simp only [detect, ExtremeFeeDetector.detect]
    split
    · exact Option.length_toList_le
    · simp
  | rbf =>
    simp only [detect, RbfDetector.detect]
    split
    · split <;> simp
    · simp
  | reorg =>
    simp only [detect, ReorgDetector.detect]
    split
    · split <;> simp
    · simp

end Detector

end ObsChain
