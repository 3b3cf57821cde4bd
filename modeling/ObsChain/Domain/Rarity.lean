/-
Rarity results (`baseline.rs` of `obschain-core`): how rare a metric of an event is against a baseline, with the names
under which its enumerations are stored, and the reading of a stored number.

A metric value is stored as its number. `from_str_and_metric` reads it back from a decimal text, in the form of its metric:
the part before the point, and for rates and ratios the first two decimals. A text that is no number reads as zero. Sums
wrap at the width of the form. Percentiles are exact rationals.

- `parse_asStr` of each enumeration: a stored name is read back.
-/
import Mathlib.Tactic
import ObsChain.Core.Text
import ObsChain.Domain.Baseline

namespace ObsChain

inductive PercentileMethod where
  | exactEmpiricalCdf
  | quantileInterpolationEstimate
deriving DecidableEq, Repr

inductive RarityBand where
  | common
  | notable
  | unusual
  | rare
  | extreme
  | insufficientData
deriving DecidableEq, Repr

inductive EvaluationMode where
  | retrospective
  | pointInTime
deriving DecidableEq, Repr

structure EventRarityResult where
  eventId : Uuid
  baselineRunId : Uuid
  eventType : EventType
  metric : BaselineMetric
  value : MetricValue
  percentile : Option ℚ
  percentileMethod : PercentileMethod
  estimated : Bool
  rarityBand : RarityBand
  populationSize : ℕ
  tailCount : ℕ
  evaluationMode : EvaluationMode
deriving DecidableEq, Repr

/-! ## Names -/

def PercentileMethod.asStr : PercentileMethod → String
  | .exactEmpiricalCdf => "EXACT_EMPIRICAL_CDF"
  | .quantileInterpolationEstimate => "QUANTILE_INTERPOLATION_ESTIMATE"

def PercentileMethod.parse (s : String) : Option PercentileMethod :=
  match Text.toAsciiUppercase s with
  | "EXACT_EMPIRICAL_CDF" => some .exactEmpiricalCdf
  | "QUANTILE_INTERPOLATION_ESTIMATE" => some .quantileInterpolationEstimate
  | _ => none

def RarityBand.asStr : RarityBand → String
  | .common => "COMMON"
  | .notable => "NOTABLE"
  | .unusual => "UNUSUAL"
  | .rare => "RARE"
  | .extreme => "EXTREME"
  | .insufficientData => "INSUFFICIENT_DATA"

def RarityBand.parse (s : String) : Option RarityBand :=
  match Text.toAsciiUppercase s with
  | "COMMON" => some .common
  | "NOTABLE" => some .notable
  | "UNUSUAL" => some .unusual
  | "RARE" => some .rare
  | "EXTREME" => some .extreme
  | "INSUFFICIENT_DATA" => some .insufficientData
  | _ => none

/-- the band of a percentile, if the population is large enough to say -/
def RarityBand.fromPercentile (percentile : ℚ) (sampleCount minSampleSize : ℕ) : RarityBand :=
  if sampleCount < minSampleSize then .insufficientData
  else if percentile ≥ 999 / 10 then .extreme
  else if percentile ≥ 99 then .rare
  else if percentile ≥ 95 then .unusual
  else if percentile ≥ 90 then .notable
  else .common

def EvaluationMode.asStr : EvaluationMode → String
  | .retrospective => "RETROSPECTIVE"
  | .pointInTime => "POINT_IN_TIME"

def EvaluationMode.parse (s : String) : Option EvaluationMode :=
  match Text.toAsciiUppercase s with
  | "RETROSPECTIVE" => some .retrospective
  | "POINT_IN_TIME" => some .pointInTime
  | _ => none

/-- the name in JSON, which is that of `as_str` -/
def BaselineMetric.serdeName (metric : BaselineMetric) : String := metric.asStr

def BaselineMetric.parse (s : String) : Option BaselineMetric :=
  match Text.toAsciiLowercase (String.ofList (Text.trim s.toList)) with
  | "value_sats" | "total_output_sats" => some .valueSats
  | "input_count" | "inputs_count" => some .inputCount
  | "output_count" | "outputs_count" => some .outputCount
  | "vsize" => some .vsize
  | "dormant_value_sats" | "total_dormant_sats" => some .dormantValueSats
  | "oldest_input_age_days" => some .oldestInputAgeDays
  | "average_input_age_days" => some .averageInputAgeDays
  | "coin_age_destroyed_satoshi_days" | "coin_age_destroyed_sats_days" => some .coinAgeDestroyedSatoshiDays
  | "consolidation_ratio" | "input_output_ratio" => some .consolidationRatio
  | "distributed_value_sats" | "total_distributed_sats" => some .distributedValueSats
  | "median_output_sats" => some .medianOutputSats
  | "fee_sats" => some .feeSats
  | "fee_rate_sat_vb" => some .feeRateSatVb
  | "interval_seconds" => some .intervalSeconds
  | _ => none

@[simp] theorem PercentileMethod.parse_asStr (m : PercentileMethod) : parse m.asStr = some m := by
  cases m <;> decide +kernel

@[simp] theorem RarityBand.parse_asStr (band : RarityBand) : parse band.asStr = some band := by
  cases band <;> decide +kernel

@[simp] theorem EvaluationMode.parse_asStr (mode : EvaluationMode) : parse mode.asStr = some mode := by
  cases mode <;> decide +kernel

@[simp] theorem BaselineMetric.parse_serdeName (metric : BaselineMetric) : parse metric.serdeName = some metric := by
  cases metric <;> decide +kernel

/-- what is read back is told apart by its name -/
theorem BaselineMetric.serdeName_inj {a b : BaselineMetric} : a.serdeName = b.serdeName ↔ a = b := by
  constructor
  · intro h
    have hparse := congrArg BaselineMetric.parse h
    simpa using hparse
  · intro h
    rw [h]

/-! ## Numbers -/

namespace MetricValue

/-- the part before the point as an unsigned number, or else the whole text -/
def parseWhole (bound : ℕ) (clean : List Char) : ℕ :=
  ((Text.parseUnsigned bound (clean.takeWhile (· ≠ '.'))).or (Text.parseUnsigned bound clean)).getD 0

/-- hundredths of the number, from the part before the point and the first two decimals -/
def parseHundredths (bound : ℕ) (clean : List Char) : ℕ :=
  match Text.splitOnce '.' clean with
  | some (whole, frac) =>
    let taken := frac.take 2
    let padded := taken ++ List.replicate (2 - taken.length) '0'
    ((Text.parseUnsigned bound whole).getD 0 * 100 + (Text.parseUnsigned bound padded).getD 0) % bound
  | none => (Text.parseUnsigned bound clean).getD 0 * 100 % bound

def fromStrAndMetric (s : String) (metric : BaselineMetric) : MetricValue :=
  let clean := Text.trim s.toList
  match metric with
  | .coinAgeDestroyedSatoshiDays => .u128 (parseWhole (2 ^ 128) clean)
  | .feeRateSatVb => .decimalScaled (parseHundredths (2 ^ 64) clean) 2
  | .consolidationRatio => .basisPoints (parseHundredths (2 ^ 32) clean)
  | _ => .u64 (parseWhole (2 ^ 64) clean)

end MetricValue

end ObsChain
