/-
Baseline metrics (`baseline.rs` of `obschain-core`): the registry of metrics, exact metric values, and the extractor that
reads them from events.

A `MetricValue` keeps its variant: the derived order compares the variant first, then the fields. Floats are exact
rationals, so `(x * 100.0).round() as u32` is the rounded product, cut off at zero and at the largest u32. The id and the
creation time of a metric record are drawn at extraction: they are the argument `stamps`, and everything else is the
record's `MetricContent`.

- `mem_registry_of_extract`: what the extractor finds is a registered metric of the event's type.
- `metricContents_at`: of the records of an event, those of one metric are the extracted value and nothing else.
The texts of a value are in `ValueText`, and its floating-point view in `Statistics/Distribution`. Not modelled: parsing of
metric names from text, which is the database's business.
-/
import Mathlib.Tactic
import Mathlib.Order.Lex
import Mathlib.Data.Prod.Lex
import ObsChain.Core.Text
import ObsChain.Domain.Metadata

namespace ObsChain

inductive BaselineMetric where
  | valueSats
  | inputCount
  | outputCount
  | vsize
  | dormantValueSats
  | oldestInputAgeDays
  | averageInputAgeDays
  | coinAgeDestroyedSatoshiDays
  | consolidationRatio
  | distributedValueSats
  | medianOutputSats
  | feeSats
  | feeRateSatVb
  | intervalSeconds
deriving DecidableEq, Repr

namespace BaselineMetric

def asStr : BaselineMetric → String
  | .valueSats => "value_sats"
  | .inputCount => "input_count"
  | .outputCount => "output_count"
  | .vsize => "vsize"
  | .dormantValueSats => "dormant_value_sats"
  | .oldestInputAgeDays => "oldest_input_age_days"
  | .averageInputAgeDays => "average_input_age_days"
  | .coinAgeDestroyedSatoshiDays => "coin_age_destroyed_satoshi_days"
  | .consolidationRatio => "consolidation_ratio"
  | .distributedValueSats => "distributed_value_sats"
  | .medianOutputSats => "median_output_sats"
  | .feeSats => "fee_sats"
  | .feeRateSatVb => "fee_rate_sat_vb"
  | .intervalSeconds => "interval_seconds"

def defaultDefinitionVersion : BaselineMetric → String
  | .valueSats => "transfer-amount-v1"
  | .inputCount => "input-count-v1"
  | .outputCount => "output-count-v1"
  | .vsize => "vsize-v1"
  | .dormantValueSats => "dormant-value-v1"
  | .oldestInputAgeDays => "oldest-input-age-v1"
  | .averageInputAgeDays => "average-input-age-v1"
  | .coinAgeDestroyedSatoshiDays => "coin-age-destroyed-v1"
  | .consolidationRatio => "consolidation-ratio-v1"
  | .distributedValueSats => "distributed-value-v1"
  | .medianOutputSats => "median-output-v1"
  | .feeSats => "fee-sats-v1"
  | .feeRateSatVb => "fee-rate-v1"
  | .intervalSeconds => "block-interval-v1"

end BaselineMetric

inductive MetricUnit where
  | satoshis
  | satoshiDays
  | count
  | seconds
  | days
  | satoshisPerVbyte
  | ratio
deriving DecidableEq, Repr

inductive RarityDirection where
  | higherIsRarer
  | lowerIsRarer
  | twoSided
deriving DecidableEq, Repr

structure BaselineMetricDefinition where
  eventType : EventType
  metric : BaselineMetric
  unit : MetricUnit
  direction : RarityDirection
  isPrimary : Bool
  metricDefinitionVersion : String
deriving DecidableEq, Repr

namespace MetricRegistry

def supportedEventTypes : List EventType :=
  [.largeTransfer, .longBlockInterval, .dormantCoinsMoved, .consolidation, .fanOut, .extremeFee]

/-- a definition under the metric's default version -/
def define (eventType : EventType) (metric : BaselineMetric) (unit : MetricUnit) (direction : RarityDirection)
    (isPrimary : Bool) : BaselineMetricDefinition :=
  ⟨eventType, metric, unit, direction, isPrimary, metric.defaultDefinitionVersion⟩

def metricsForEventType : EventType → List BaselineMetricDefinition
  | .largeTransfer => [
      define .largeTransfer .valueSats .satoshis .higherIsRarer true,
      define .largeTransfer .inputCount .count .higherIsRarer false,
      define .largeTransfer .outputCount .count .higherIsRarer false,
      define .largeTransfer .vsize .count .higherIsRarer false]
  | .dormantCoinsMoved => [
      define .dormantCoinsMoved .dormantValueSats .satoshis .higherIsRarer true,
      define .dormantCoinsMoved .oldestInputAgeDays .days .higherIsRarer false,
      define .dormantCoinsMoved .coinAgeDestroyedSatoshiDays .satoshiDays .higherIsRarer false,
      define .dormantCoinsMoved .inputCount .count .higherIsRarer false]
  | .consolidation => [
      define .consolidation .inputCount .count .higherIsRarer true,
      define .consolidation .outputCount .count .lowerIsRarer false,
      define .consolidation .valueSats .satoshis .higherIsRarer false,
      define .consolidation .consolidationRatio .ratio .higherIsRarer false]
  | .fanOut => [
      define .fanOut .outputCount .count .higherIsRarer true,
      define .fanOut .distributedValueSats .satoshis .higherIsRarer false,
      define .fanOut .medianOutputSats .satoshis .higherIsRarer false]
  | .extremeFee => [
      define .extremeFee .feeRateSatVb .satoshisPerVbyte .higherIsRarer true,
      define .extremeFee .feeSats .satoshis .higherIsRarer false]
  | .longBlockInterval => [define .longBlockInterval .intervalSeconds .seconds .higherIsRarer true]
  | _ => []

/-- no metric is registered twice for a type -/
theorem nodup_metrics (eventType : EventType) : ((metricsForEventType eventType).map (·.metric)).Nodup := by
  cases eventType <;> decide

end MetricRegistry

/-! ## Metric values -/

inductive MetricValue where
  | u64 (v : ℕ)
  | u128 (v : ℕ)
  | basisPoints (v : ℕ)
  | decimalScaled (value scale : ℕ)
deriving DecidableEq, Repr

namespace MetricValue

def scale : MetricValue → ℕ
  | .u64 _ | .u128 _ => 0
  | .basisPoints _ => 2
  | .decimalScaled _ scale => scale

/-- what the derived order compares: the variant's position, then its fields -/
def key : MetricValue → ℕ ×ₗ ℕ ×ₗ ℕ
  | .u64 v => toLex (0, toLex (v, 0))
  | .u128 v => toLex (1, toLex (v, 0))
  | .basisPoints v => toLex (2, toLex (v, 0))
  | .decimalScaled value scale => toLex (3, toLex (value, scale))

theorem key_injective : Function.Injective key := by
  intro a b h
  cases a <;> cases b <;> simp_all [key]

instance : LinearOrder MetricValue := LinearOrder.lift' key key_injective

/-- a number with a fixed count of decimals -/
def decimalString (value decimals : ℕ) : String :=
  let frac := toString (value % 10 ^ decimals)
  toString (value / 10 ^ decimals) ++ "." ++ String.ofList (List.replicate (decimals - frac.length) '0') ++ frac

def toNumericString : MetricValue → String
  | .u64 v => toString v
  | .u128 v => toString v
  | .basisPoints v => decimalString v 2
  | .decimalScaled value scale => if scale = 0 then toString value else decimalString value scale

end MetricValue

/-! ## The extractor -/

namespace EventMetricExtractor

/-- `(x * 100.0).round() as T` for an unsigned type with the given largest value -/
def hundredths (largest : ℕ) (x : ℚ) : ℕ := min (round (x * 100)).toNat largest

/-- a count from the typed record, or else from a field -/
def typedOr {α : Type} (typed : Option α) (f : α → ℕ) (field : Option Value) : Option MetricValue :=
  match typed with
  | some record => some (.u64 (f record))
  | none => (field.bind Value.asU64).map .u64

/-- `s.parse::<u128>().ok()` -/
def parseU128 (s : String) : Option ℕ := Text.parseUnsigned (2 ^ 128) s.toList

/-- a metric of an event's type, from its metadata -/
def extractFrom (eventType : EventType) (metadata : Value) (metric : BaselineMetric) : Option MetricValue :=
  let field := metadata.get
  let dormant := DormantCoinsMetadata.ofValue metadata
  let consolidation := ConsolidationMetadata.ofValue metadata
  let fanOut := FanOutMetadata.ofValue metadata
  let extremeFee := ExtremeFeeMetadata.ofValue metadata
  match eventType, metric with
  | .largeTransfer, .valueSats =>
    (((field "total_output_sats").or (field "value_sats")).bind Value.asU64).map .u64
  | .largeTransfer, .inputCount => (((field "inputs_count").or (field "input_count")).bind Value.asU64).map .u64
  | .largeTransfer, .outputCount => (((field "outputs_count").or (field "output_count")).bind Value.asU64).map .u64
  | .largeTransfer, .vsize => ((field "vsize").bind Value.asU64).map .u64
  | .dormantCoinsMoved, .dormantValueSats =>
    typedOr dormant (·.totalDormantSats) ((field "total_dormant_sats").or (field "dormant_value_sats"))
  | .dormantCoinsMoved, .oldestInputAgeDays =>
    typedOr dormant (·.oldestInputAgeDays) (field "oldest_input_age_days")
  | .dormantCoinsMoved, .coinAgeDestroyedSatoshiDays =>
    match dormant with
    | some d => some (.u128 d.coinAgeDestroyedSatsDays)
    | none =>
      (((field "coin_age_destroyed_sats_days").or (field "coin_age_destroyed_satoshi_days")).bind
        fun v => v.asU64.or (v.asStr.bind parseU128)).map .u128
  | .dormantCoinsMoved, .inputCount =>
    typedOr dormant (·.dormantInputCount) ((field "dormant_input_count").or (field "input_count"))
  | .consolidation, .inputCount => typedOr consolidation (·.inputCount) (field "input_count")
  | .consolidation, .outputCount => typedOr consolidation (·.outputCount) (field "output_count")
  | .consolidation, .valueSats =>
    typedOr consolidation (·.totalInputSats) ((field "total_input_sats").or (field "value_sats"))
  | .consolidation, .consolidationRatio =>
    match consolidation with
    | some c => some (.basisPoints (hundredths (2 ^ 32 - 1) c.inputOutputRatio))
    | none => ((field "input_output_ratio").bind Value.asF64).map fun r => .basisPoints (hundredths (2 ^ 32 - 1) r)
  | .fanOut, .outputCount => typedOr fanOut (·.outputCount) (field "output_count")
  | .fanOut, .distributedValueSats => typedOr fanOut (·.totalDistributedSats) (field "total_distributed_sats")
  | .fanOut, .medianOutputSats => typedOr fanOut (·.medianOutputSats) (field "median_output_sats")
  | .extremeFee, .feeRateSatVb =>
    match extremeFee with
    | some ef => ef.feeRateSatVb.map fun rate => .decimalScaled (hundredths (2 ^ 64 - 1) rate) 2
    | none =>
      ((field "fee_rate_sat_vb").bind Value.asF64).map fun rate => .decimalScaled (hundredths (2 ^ 64 - 1) rate) 2
  | .extremeFee, .feeSats => typedOr extremeFee (·.feeSats) (field "fee_sats")
  | .longBlockInterval, .intervalSeconds => ((field "interval_seconds").bind Value.asU64).map .u64
  | _, _ => none

def extractMetric (event : ChainEvent) (metric : BaselineMetric) : Option MetricValue :=
  extractFrom event.eventType event.metadata metric

def defaultMetricVersion : String := "v1"

end EventMetricExtractor

/-- a metric record without its id and its creation time -/
structure MetricContent where
  eventId : Uuid
  network : String
  eventType : EventType
  metric : BaselineMetric
  metricDefinitionVersion : String
  value : MetricValue
  metricScale : ℕ
  blockHeight : ℕ
  eventTime : DateTime
deriving DecidableEq, Repr

structure EventMetricValue extends MetricContent where
  id : Uuid
  createdAt : DateTime
deriving DecidableEq, Repr

namespace EventMetricExtractor

def versionOf (metric : BaselineMetric) (version : String) : String := metric.asStr ++ "-" ++ version

/-- the record of one extracted value -/
def contentOf (event : ChainEvent) (version : Option String) (metric : BaselineMetric) (val : MetricValue) :
    MetricContent :=
  { eventId := event.id
    network := event.network.getD "mainnet"
    eventType := event.eventType
    metric := metric
    metricDefinitionVersion := versionOf metric (version.getD defaultMetricVersion)
    value := val
    metricScale := val.scale
    blockHeight := event.blockHeight.getD 0
    eventTime := event.eventTime }

def metricContents (event : ChainEvent) (version : Option String) : List MetricContent :=
  (MetricRegistry.metricsForEventType event.eventType).filterMap fun d =>
    (extractMetric event d.metric).map fun val => contentOf event version d.metric val

def extractEventMetrics (stamps : ℕ → Uuid × DateTime) (event : ChainEvent) (version : Option String) :
    List EventMetricValue :=
  (metricContents event version).mapIdx fun i content =>
    { content with id := (stamps i).1, createdAt := (stamps i).2 }

@[simp] theorem extractEventMetrics_contents (stamps : ℕ → Uuid × DateTime) (event : ChainEvent)
    (version : Option String) :
    (extractEventMetrics stamps event version).map (·.toMetricContent) = metricContents event version := by
  apply List.ext_getElem?
  intro i
  simp [extractEventMetrics, Option.map_map, Function.comp_def]

theorem extractFrom_registered {eventType : EventType} {metadata : Value} {metric : BaselineMetric} {val : MetricValue}
    (h : extractFrom eventType metadata metric = some val) :
    metric ∈ (MetricRegistry.metricsForEventType eventType).map (·.metric) := by
  -- an unregistered pair falls through to the last branch
  cases eventType <;> cases metric <;> first | decide | simp [extractFrom] at h

/-- what the extractor finds is a registered metric of the event's type -/
theorem mem_registry_of_extract {event : ChainEvent} {metric : BaselineMetric} {val : MetricValue}
    (h : extractMetric event metric = some val) :
    metric ∈ (MetricRegistry.metricsForEventType event.eventType).map (·.metric) :=
  extractFrom_registered h

/-- records of distinct metrics, so at most one of them is of a given metric -/
theorem filter_metric_eq {defs : List BaselineMetricDefinition} (hnodup : (defs.map (·.metric)).Nodup)
    (event : ChainEvent) (version : Option String) (metric : BaselineMetric) :
    (defs.filterMap fun d => (extractMetric event d.metric).map fun val => contentOf event version d.metric val).filter
        (fun c => c.metric = metric) =
      if metric ∈ defs.map (·.metric) then
        ((extractMetric event metric).map fun val => contentOf event version metric val).toList
      else [] := by
  induction defs with
  | nil => rfl
  | cons d defs ih =>
    rw [List.map_cons, List.nodup_cons] at hnodup
    obtain ⟨hnotMem, hrest⟩ := hnodup
    have ih := ih hrest
    simp only [List.map_cons, List.mem_cons]
    by_cases hm : metric = d.metric
    · -- the others are of other metrics
      subst hm
      rw [if_neg hnotMem] at ih
      rw [if_pos (Or.inl rfl)]
      cases hval : extractMetric event d.metric with
      | none =>
        rw [List.filterMap_cons_none (by simp [hval]), ih]
        rfl
      | some val =>
        rw [List.filterMap_cons_some (by rw [hval]; rfl), List.filter_cons_of_pos (by simp [contentOf]), ih]
        rfl
    · simp only [hm, false_or]
      cases hval : extractMetric event d.metric with
      | none => rw [List.filterMap_cons_none (by simp [hval]), ih]
      | some val =>
        rw [List.filterMap_cons_some (by rw [hval]; rfl), List.filter_cons_of_neg (by simp [contentOf, Ne.symm hm]), ih]

/-- **The records of one metric.** They are the extracted value, if there is one, and nothing else. -/
theorem metricContents_at (event : ChainEvent) (version : Option String) (metric : BaselineMetric) :
    (metricContents event version).filter (fun c => c.metric = metric) =
      ((extractMetric event metric).map fun val => contentOf event version metric val).toList := by
  unfold metricContents
  rw [filter_metric_eq (MetricRegistry.nodup_metrics event.eventType)]
  split_ifs with hmem
  · rfl
  · cases hval : extractMetric event metric with
    | none => rfl
    | some val => exact absurd (mem_registry_of_extract hval) hmem

end EventMetricExtractor

end ObsChain
