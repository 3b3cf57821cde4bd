/-
Metrics read back from the events of the detectors (`with_typed_metadata` of `event.rs`, `extract_metric` of `baseline.rs`).

A detector writes its numbers into JSON, as fields or as a typed record; the engine may add the provenance of a replay; and
the extractor reads a metric from the result. `Detector.quantity` is what the detector computed for a metric, and
`ReadsMetric` says that the extractor finds it. Ratios and fee rates are stored in hundredths, which `resolved` rounds to.

- `metadata_stamp`: a replay leaves every field that the extractor looks at.
- `ofValue_of_says`, for each of the four records: an object that says what the record's JSON says decodes to the record.
- `metrics_read_back_iff`: every registered metric of an event is read back exactly when the record was `Recorded`: it was
  written at all, which a coin age of 2^64 prevents, and no count or ratio was cut to its type.
-/
import Mathlib.Tactic
import ObsChain.Domain.MetricForms
import ObsChain.Detect.DormantCoins
import ObsChain.Detect.Engine
import ObsChain.Detect.FanOutStats

namespace ObsChain

open DetectorEngine EventMetricExtractor OrderStatistics

/-! ## What a detector computed -/

/-- inputs for each output -/
def ConsolidationDetector.ratio (tx : TransactionObservation) : ℚ := tx.inputCount / (max tx.outputCount 1 : ℕ)

/-- satoshi-days of the outputs that are old enough -/
def DormantCoinDetector.coinAgeDestroyed (d : DormantCoinDetector) (tx : TransactionObservation) : ℕ :=
  ((d.counted tx).map fun u => u.valueSats * (ageSecs tx u / 86400)).sum

namespace Detector

/-- the number a detector computed for a metric of the event it reports -/
def quantity : Detector → Observation → BaselineMetric → ℚ
  | .largeTransaction _, .transaction tx, .valueSats => tx.totalOutputSats
  | .largeTransaction _, .transaction tx, .inputCount => tx.inputCount
  | .largeTransaction _, .transaction tx, .outputCount => tx.outputCount
  | .largeTransaction _, .transaction tx, .vsize => tx.vsize
  | .longBlockInterval _, .block block, .intervalSeconds => (block.intervalSeconds.getD 0 : ℕ)
  | .dormantCoin d, .transaction tx, .dormantValueSats => (d.tally tx).totalDormantSats
  | .dormantCoin d, .transaction tx, .oldestInputAgeDays => ((d.tally tx).oldestAgeSeconds / 86400 : ℕ)
  | .dormantCoin d, .transaction tx, .coinAgeDestroyedSatoshiDays => (d.tally tx).coinAgeDestroyedSatsDays
  | .dormantCoin d, .transaction tx, .inputCount => (d.tally tx).qualifyingInputsCount
  | .consolidation _, .transaction tx, .inputCount => tx.inputCount
  | .consolidation _, .transaction tx, .outputCount => tx.outputCount
  | .consolidation _, .transaction tx, .valueSats => tx.totalInputSats
  | .consolidation _, .transaction tx, .consolidationRatio => ConsolidationDetector.ratio tx
  | .fanOut _, .transaction tx, .outputCount => tx.outputCount
  | .fanOut _, .transaction tx, .distributedValueSats => tx.totalOutputSats
  | .fanOut _, .transaction tx, .medianOutputSats => (FanOutDetector.outputStats tx).2.2
  | .extremeFee _, .transaction tx, .feeRateSatVb => ExtremeFeeDetector.feeRate tx
  | .extremeFee _, .transaction tx, .feeSats => tx.feeSats
  | _, _, _ => 0

/-- the record is written, and its fields hold what was counted -/
def Recorded : Detector → Observation → Prop
  | .dormantCoin d, .transaction tx => d.coinAgeDestroyed tx < 2 ^ 64
  | .consolidation _, .transaction tx =>
    tx.inputCount < 2 ^ 32 ∧ tx.outputCount < 2 ^ 32 ∧ round (ConsolidationDetector.ratio tx * 100) < 2 ^ 32
  | .fanOut _, .transaction tx => tx.outputCount < 2 ^ 32
  | .extremeFee _, .transaction tx =>
    0 ≤ round (ExtremeFeeDetector.feeRate tx * 100) ∧ round (ExtremeFeeDetector.feeRate tx * 100) < 2 ^ 64
  | _, _ => True

/-- the ratio or the rate has at most two decimals -/
def TwoDecimals : Detector → Observation → Prop
  | .consolidation _, .transaction tx => ∃ n : ℤ, ConsolidationDetector.ratio tx * 100 = n
  | .extremeFee _, .transaction tx => ∃ n : ℤ, ExtremeFeeDetector.feeRate tx * 100 = n
  | _, _ => True

end Detector

/-- a number at the resolution of its metric -/
def resolved (metric : BaselineMetric) (q : ℚ) : ℚ :=
  match metric with
  | .consolidationRatio | .feeRateSatVb => round (q * 100) / 100
  | _ => q

/-- the extractor finds this number -/
def ReadsMetric (event : ChainEvent) (metric : BaselineMetric) (q : ℚ) : Prop :=
  ∃ v, extractMetric event metric = some v ∧ v.numeric = q

/-- the extractor finds the given number for every metric registered for the event -/
def ReadsBack (event : ChainEvent) (f : BaselineMetric → ℚ) : Prop :=
  ∀ metric ∈ (MetricRegistry.metricsForEventType event.eventType).map (·.metric), ReadsMetric event metric (f metric)

/-! ## JSON -/

namespace Value

theorem bind_asU64 {field : Option Value} {n : ℕ} (h : field = some (.nat n)) (hlt : n < 2 ^ 64) :
    field.bind asU64 = some n := by
  rw [h]
  simp only [Option.bind_some, nat, asU64, Number.asU64, if_pos hlt]

theorem bind_asU32 {field : Option Value} {n : ℕ} (h : field = some (.nat n)) (hlt : n < 2 ^ 32) :
    field.bind asU32 = some n := by
  have hread : (Value.nat n).asU64 = some n := bind_asU64 rfl (by omega)
  rw [h, Option.bind_some, asU32, hread]
  simpa using hlt

theorem bind_asF64 {field : Option Value} {q : ℚ} (h : field = some (.number (.float q))) :
    field.bind asF64 = some q := by
  rw [h]
  rfl

theorem optF64_float {field : Option Value} {q : ℚ} (h : field = some (.number (.float q))) :
    optF64 field = some (some q) := by
  rw [h]
  rfl

/-- the fields say what `w` says, provenance of a replay apart -/
def Says (fields : List (String × Value)) (w : Value) : Prop :=
  ∀ key ∉ provenanceFields, fields.lookup key = w.get key

end Value

section

variable (newV5 : String → Uuid) (rfc3339 : DateTime → String)

@[simp] theorem eventType_stamp (observation : Observation) (context : Option ObservationContext) (report : ChainEvent) :
    (stamp newV5 rfc3339 observation context report).eventType = report.eventType := by
  unfold stamp
  rcases context with _ | ctx
  · rfl
  · dsimp only
    split_ifs <;> rfl

/-- **The stamp keeps what was reported**: an object stays one, and only provenance is new. -/
theorem metadata_stamp (observation : Observation) (context : Option ObservationContext) {report : ChainEvent}
    {w : List (String × Value)} (hw : report.metadata = .object w) :
    ∃ fields, (stamp newV5 rfc3339 observation context report).metadata = .object fields ∧ Value.Says fields (.object w) := by
  have hplain : ∃ fields, report.metadata = .object fields ∧ Value.Says fields (.object w) :=
    ⟨w, hw, fun key _ => rfl⟩
  unfold stamp
  rcases context with _ | ctx
  · exact hplain
  · dsimp only
    split_ifs
    · rw [ChainEvent.withDeterministicId]
      dsimp only
      rw [hw]
      exact ⟨_, rfl, fun key hkey => get_replayMetadata rfc3339 ctx (.object w) hkey⟩
    · exact hplain

end

/-! ## The four records -/

/-- the numbers of the record fit their types -/
structure DormantCoinsMetadata.Fits (m : DormantCoinsMetadata) : Prop where
  totalDormantSats : m.totalDormantSats < 2 ^ 64
  dormantInputCount : m.dormantInputCount < 2 ^ 32
  totalInputCount : m.totalInputCount < 2 ^ 32
  oldestInputAgeDays : m.oldestInputAgeDays < 2 ^ 64
  oldestInputAgeSeconds : m.oldestInputAgeSeconds < 2 ^ 64
  youngestQualifyingAgeDays : m.youngestQualifyingAgeDays < 2 ^ 64
  totalInputSats : m.totalInputSats < 2 ^ 64
  totalOutputSats : m.totalOutputSats < 2 ^ 64

namespace DormantCoinDetector

variable {d : DormantCoinDetector} {tx : TransactionObservation}

theorem ageSecs_lt (htx : tx.Typed) {u : SpentOutputContext} (hu : u.Typed) : ageSecs tx u < 2 ^ 64 := by
  unfold ageSecs
  split
  next t hat =>
    have hlt := secondsSince_lt htx.timestamp (hu.confirmedAt t hat)
    omega
  next => split_ifs <;> omega
  next => norm_num

theorem fits_record (htx : tx.Typed) : (record tx (tally d tx)).Fits := by
  have hsums := sums_tally d tx
  have hcount := hsums.count
  have hsats : (tally d tx).totalDormantSats < 2 ^ 64 := by
    rw [hsums.sats, saturatingValue]
    omega
  have hold : (tally d tx).oldestAgeSeconds ≤ 2 ^ 64 - 1 := by
    rw [hsums.oldest]
    refine foldl_max_le (Nat.zero_le _) ?_
    intro x hx
    obtain ⟨u, hu, rfl⟩ := List.mem_map.1 hx
    obtain ⟨input, hinput, hu⟩ := List.mem_filterMap.1 (List.mem_of_mem_filter hu)
    have hlt := ageSecs_lt htx (htx.spent input hinput u hu)
    omega
  have hyoung : (tally d tx).youngestQualifyingAgeSeconds ≤ 2 ^ 64 - 1 := by
    rw [hsums.youngest]
    exact foldl_min_le _ _
  refine ⟨hsats, ?_, Nat.mod_lt _ (by norm_num), ?_, ?_, ?_, htx.totalInputSats, htx.totalOutputSats⟩
  · show (tally d tx).qualifyingInputsCount < _
    omega
  · show (tally d tx).oldestAgeSeconds / 86400 < _
    omega
  · show (tally d tx).oldestAgeSeconds < _
    omega
  · show (tally d tx).youngestQualifyingAgeSeconds / 86400 < _
    omega

end DormantCoinDetector

theorem DormantClassification.asVariant_asStr (c : DormantClassification) :
    Value.asVariant DormantClassification.variants (.string c.asStr) = some c := by
  cases c <;> rfl

theorem ExtremeFeeTriggerType.asVariant_asStr (t : ExtremeFeeTriggerType) :
    Value.asVariant ExtremeFeeTriggerType.variants (.string t.asStr) = some t := by
  cases t <;> rfl

theorem DormantCoinsMetadata.ofValue_of_says {m : DormantCoinsMetadata} (hm : m.Fits)
    (hage : m.coinAgeDestroyedSatsDays < 2 ^ 64) {v : Value} (hv : m.toValue = some v) {fields : List (String × Value)}
    (h : Value.Says fields v) : ofValue (.object fields) = some m := by
  rw [toValue, if_pos hage, Option.some.injEq] at hv
  subst hv
  have h1 : fields.lookup "total_dormant_sats" = some (.nat m.totalDormantSats) := h _ (by decide)
  have h2 : fields.lookup "total_dormant_btc" = some (.number (.float m.totalDormantBtc)) := h _ (by decide)
  have h3 : fields.lookup "dormant_input_count" = some (.nat m.dormantInputCount) := h _ (by decide)
  have h4 : fields.lookup "total_input_count" = some (.nat m.totalInputCount) := h _ (by decide)
  have h5 : fields.lookup "oldest_input_age_days" = some (.nat m.oldestInputAgeDays) := h _ (by decide)
  have h6 : fields.lookup "oldest_input_age_seconds" = some (.nat m.oldestInputAgeSeconds) := h _ (by decide)
  have h7 : fields.lookup "youngest_qualifying_age_days" = some (.nat m.youngestQualifyingAgeDays) := h _ (by decide)
  have h8 : fields.lookup "total_input_sats" = some (.nat m.totalInputSats) := h _ (by decide)
  have h9 : fields.lookup "total_output_sats" = some (.nat m.totalOutputSats) := h _ (by decide)
  have h10 : fields.lookup "dormant_ratio" = some (.number (.float m.dormantRatio)) := h _ (by decide)
  have h11 : fields.lookup "coin_age_destroyed_sats_days" = some (.nat m.coinAgeDestroyedSatsDays) := h _ (by decide)
  have h12 : fields.lookup "coin_age_destroyed_btc_days" = some (.number (.float m.coinAgeDestroyedBtcDays)) :=
    h _ (by decide)
  have h13 : fields.lookup "coin_age_destroyed_btc_years" = some (.number (.float m.coinAgeDestroyedBtcYears)) :=
    h _ (by decide)
  have h14 : fields.lookup "classification" = some (.string m.classification.asStr) := h _ (by decide)
  refine Option.bind_eq_some_iff.2 ⟨_, Value.bind_asU64 h1 hm.totalDormantSats, ?_⟩
  refine Option.bind_eq_some_iff.2 ⟨_, Value.bind_asF64 h2, ?_⟩
  refine Option.bind_eq_some_iff.2 ⟨_, Value.bind_asU32 h3 hm.dormantInputCount, ?_⟩
  refine Option.bind_eq_some_iff.2 ⟨_, Value.bind_asU32 h4 hm.totalInputCount, ?_⟩
  refine Option.bind_eq_some_iff.2 ⟨_, Value.bind_asU64 h5 hm.oldestInputAgeDays, ?_⟩
  refine Option.bind_eq_some_iff.2 ⟨_, Value.bind_asU64 h6 hm.oldestInputAgeSeconds, ?_⟩
  refine Option.bind_eq_some_iff.2 ⟨_, Value.bind_asU64 h7 hm.youngestQualifyingAgeDays, ?_⟩
  refine Option.bind_eq_some_iff.2 ⟨_, Value.bind_asU64 h8 hm.totalInputSats, ?_⟩
  refine Option.bind_eq_some_iff.2 ⟨_, Value.bind_asU64 h9 hm.totalOutputSats, ?_⟩
  refine Option.bind_eq_some_iff.2 ⟨_, Value.bind_asF64 h10, ?_⟩
  refine Option.bind_eq_some_iff.2 ⟨_, Value.bind_asU64 h11 hage, ?_⟩
  refine Option.bind_eq_some_iff.2 ⟨_, Value.bind_asF64 h12, ?_⟩
  refine Option.bind_eq_some_iff.2 ⟨_, Value.bind_asF64 h13, ?_⟩
  refine Option.bind_eq_some_iff.2 ⟨m.classification, ?_, rfl⟩
  dsimp only
  rw [h14]
  exact DormantClassification.asVariant_asStr m.classification

theorem ConsolidationMetadata.ofValue_of_says {m : ConsolidationMetadata} (hin : m.inputCount < 2 ^ 32)
    (hout : m.outputCount < 2 ^ 32) (hinSats : m.totalInputSats < 2 ^ 64) (houtSats : m.totalOutputSats < 2 ^ 64)
    (hfee : m.feeSats < 2 ^ 64) {fields : List (String × Value)} (h : Value.Says fields m.toValue) :
    ofValue (.object fields) = some m := by
  have h1 : fields.lookup "input_count" = some (.nat m.inputCount) := h _ (by decide)
  have h2 : fields.lookup "output_count" = some (.nat m.outputCount) := h _ (by decide)
  have h3 : fields.lookup "input_output_ratio" = some (.number (.float m.inputOutputRatio)) := h _ (by decide)
  have h4 : fields.lookup "total_input_sats" = some (.nat m.totalInputSats) := h _ (by decide)
  have h5 : fields.lookup "total_output_sats" = some (.nat m.totalOutputSats) := h _ (by decide)
  have h6 : fields.lookup "fee_sats" = some (.nat m.feeSats) := h _ (by decide)
  refine Option.bind_eq_some_iff.2 ⟨_, Value.bind_asU32 h1 hin, ?_⟩
  refine Option.bind_eq_some_iff.2 ⟨_, Value.bind_asU32 h2 hout, ?_⟩
  refine Option.bind_eq_some_iff.2 ⟨_, Value.bind_asF64 h3, ?_⟩
  refine Option.bind_eq_some_iff.2 ⟨_, Value.bind_asU64 h4 hinSats, ?_⟩
  refine Option.bind_eq_some_iff.2 ⟨_, Value.bind_asU64 h5 houtSats, ?_⟩
  exact Option.bind_eq_some_iff.2 ⟨_, Value.bind_asU64 h6 hfee, rfl⟩

theorem FanOutMetadata.ofValue_of_says {m : FanOutMetadata} (hin : m.inputCount < 2 ^ 32) (hout : m.outputCount < 2 ^ 32)
    (hsats : m.totalDistributedSats < 2 ^ 64) (hmedian : m.medianOutputSats < 2 ^ 64)
    (hsmallest : m.smallestOutputSats < 2 ^ 64) (hlargest : m.largestOutputSats < 2 ^ 64)
    {fields : List (String × Value)} (h : Value.Says fields m.toValue) : ofValue (.object fields) = some m := by
  have h1 : fields.lookup "input_count" = some (.nat m.inputCount) := h _ (by decide)
  have h2 : fields.lookup "output_count" = some (.nat m.outputCount) := h _ (by decide)
  have h3 : fields.lookup "output_input_ratio" = some (.number (.float m.outputInputRatio)) := h _ (by decide)
  have h4 : fields.lookup "total_distributed_sats" = some (.nat m.totalDistributedSats) := h _ (by decide)
  have h5 : fields.lookup "total_distributed_btc" = some (.number (.float m.totalDistributedBtc)) := h _ (by decide)
  have h6 : fields.lookup "median_output_sats" = some (.nat m.medianOutputSats) := h _ (by decide)
  have h7 : fields.lookup "smallest_output_sats" = some (.nat m.smallestOutputSats) := h _ (by decide)
  have h8 : fields.lookup "largest_output_sats" = some (.nat m.largestOutputSats) := h _ (by decide)
  refine Option.bind_eq_some_iff.2 ⟨_, Value.bind_asU32 h1 hin, ?_⟩
  refine Option.bind_eq_some_iff.2 ⟨_, Value.bind_asU32 h2 hout, ?_⟩
  refine Option.bind_eq_some_iff.2 ⟨_, Value.bind_asF64 h3, ?_⟩
  refine Option.bind_eq_some_iff.2 ⟨_, Value.bind_asU64 h4 hsats, ?_⟩
  refine Option.bind_eq_some_iff.2 ⟨_, Value.bind_asF64 h5, ?_⟩
  refine Option.bind_eq_some_iff.2 ⟨_, Value.bind_asU64 h6 hmedian, ?_⟩
  refine Option.bind_eq_some_iff.2 ⟨_, Value.bind_asU64 h7 hsmallest, ?_⟩
  exact Option.bind_eq_some_iff.2 ⟨_, Value.bind_asU64 h8 hlargest, rfl⟩

theorem ExtremeFeeMetadata.ofValue_of_says {m : ExtremeFeeMetadata} {rate : ℚ} (hrate : m.feeRateSatVb = some rate)
    (hfee : m.feeSats < 2 ^ 64) (hsize : m.vsize < 2 ^ 64) (hin : m.totalInputSats < 2 ^ 64)
    (hout : m.totalOutputSats < 2 ^ 64) {fields : List (String × Value)} (h : Value.Says fields m.toValue) :
    ofValue (.object fields) = some m := by
  obtain ⟨feeSats, feeBtc, feeRateSatVb, vsize, totalInputSats, totalOutputSats, feeTriggerType⟩ := m
  dsimp only at hrate hfee hsize hin hout
  subst hrate
  have h1 : fields.lookup "fee_sats" = some (.nat feeSats) := h _ (by decide)
  have h2 : fields.lookup "fee_btc" = some (.number (.float feeBtc)) := h _ (by decide)
  have h3 : fields.lookup "fee_rate_sat_vb" = some (.number (.float rate)) := h _ (by decide)
  have h4 : fields.lookup "vsize" = some (.nat vsize) := h _ (by decide)
  have h5 : fields.lookup "total_input_sats" = some (.nat totalInputSats) := h _ (by decide)
  have h6 : fields.lookup "total_output_sats" = some (.nat totalOutputSats) := h _ (by decide)
  have h7 : fields.lookup "fee_trigger_type" = some (.string feeTriggerType.asStr) := h _ (by decide)
  refine Option.bind_eq_some_iff.2 ⟨_, Value.bind_asU64 h1 hfee, ?_⟩
  refine Option.bind_eq_some_iff.2 ⟨_, Value.bind_asF64 h2, ?_⟩
  refine Option.bind_eq_some_iff.2 ⟨_, Value.optF64_float h3, ?_⟩
  refine Option.bind_eq_some_iff.2 ⟨_, Value.bind_asU64 h4 hsize, ?_⟩
  refine Option.bind_eq_some_iff.2 ⟨_, Value.bind_asU64 h5 hin, ?_⟩
  refine Option.bind_eq_some_iff.2 ⟨_, Value.bind_asU64 h6 hout, ?_⟩
  refine Option.bind_eq_some_iff.2 ⟨feeTriggerType, ?_, rfl⟩
  dsimp only
  rw [h7]
  exact ExtremeFeeTriggerType.asVariant_asStr feeTriggerType

/-- the record of a consolidation -/
def ConsolidationDetector.record (tx : TransactionObservation) : ConsolidationMetadata where
  inputCount := tx.inputCount % 2 ^ 32
  outputCount := tx.outputCount % 2 ^ 32
  inputOutputRatio := ratio tx
  totalInputSats := tx.totalInputSats
  totalOutputSats := tx.totalOutputSats
  feeSats := tx.feeSats

/-- the record of an extreme fee -/
def ExtremeFeeDetector.record (tx : TransactionObservation) (trigger : ExtremeFeeTriggerType) : ExtremeFeeMetadata where
  feeSats := tx.feeSats
  feeBtc := btcOfSats tx.feeSats
  feeRateSatVb := some (feeRate tx)
  vsize := tx.vsize
  totalInputSats := tx.totalInputSats
  totalOutputSats := tx.totalOutputSats
  feeTriggerType := trigger

/-! ## Reading a number -/

theorem reads_iff {event : ChainEvent} {metric : BaselineMetric} {v : MetricValue} (h : extractMetric event metric = some v)
    (q : ℚ) : ReadsMetric event metric q ↔ v.numeric = q := by
  simp [ReadsMetric, h]

/-- the registered metrics, one by one -/
theorem readsBack_iff {event : ChainEvent} {metrics : List BaselineMetric}
    (h : (MetricRegistry.metricsForEventType event.eventType).map (·.metric) = metrics) (f : BaselineMetric → ℚ) :
    ReadsBack event f ↔ ∀ metric ∈ metrics, ReadsMetric event metric (f metric) := by
  rw [ReadsBack, h]

theorem reads_u64 {event : ChainEvent} {metric : BaselineMetric} {n : ℕ} (h : extractMetric event metric = some (.u64 n))
    (m : ℕ) : ReadsMetric event metric m ↔ n = m := by
  rw [reads_iff h]
  exact Nat.cast_inj

theorem reads_u128 {event : ChainEvent} {metric : BaselineMetric} {n : ℕ}
    (h : extractMetric event metric = some (.u128 n)) (m : ℕ) : ReadsMetric event metric m ↔ n = m := by
  rw [reads_iff h]
  exact Nat.cast_inj

/-- hundredths are kept when they are not cut at zero or at the largest value -/
theorem hundredths_eq_iff (largest : ℕ) (x : ℚ) :
    (hundredths largest x : ℚ) / 10 ^ 2 = round (x * 100) / 100 ↔
      0 ≤ round (x * 100) ∧ round (x * 100) ≤ largest := by
  have hnum : (hundredths largest x : ℚ) / 10 ^ 2 = round (x * 100) / 100 ↔
      ((hundredths largest x : ℕ) : ℤ) = round (x * 100) := by
    rw [show (10 : ℚ) ^ 2 = 100 by norm_num, div_left_inj' (by norm_num)]
    exact_mod_cast Iff.rfl
  rw [hnum, hundredths]
  omega

theorem field_u64 {field : Option Value} {n : ℕ} (h : field = some (.nat n)) (hlt : n < 2 ^ 64) :
    (field.bind Value.asU64).map MetricValue.u64 = some (.u64 n) := by
  rw [Value.bind_asU64 h hlt, Option.map_some]

theorem field_or_u64 {field other : Option Value} {n : ℕ} (h : field = some (.nat n)) (hlt : n < 2 ^ 64) :
    ((field.or other).bind Value.asU64).map MetricValue.u64 = some (.u64 n) :=
  field_u64 (by rw [h, Option.some_or]) hlt

theorem typedOr_some {α : Type} {typed : Option α} {record : α} (h : typed = some record) (f : α → ℕ)
    (field : Option Value) : typedOr typed f field = some (.u64 (f record)) := by
  rw [h]
  rfl

/-! ## The six detectors -/

section

variable (newV5 : String → Uuid) (rfc3339 : DateTime → String) (observation : Observation)
  (context : Option ObservationContext) (fresh : Fresh)

theorem extract_stamp {report : ChainEvent} {fields : List (String × Value)}
    (hfields : (stamp newV5 rfc3339 observation context report).metadata = .object fields) (metric : BaselineMetric) :
    extractMetric (stamp newV5 rfc3339 observation context report) metric =
      extractFrom report.eventType (.object fields) metric := by
  rw [extractMetric, eventType_stamp, hfields]

theorem readsBack_largeTransaction (d : LargeTransactionDetector) {tx : TransactionObservation} (htx : tx.Typed) :
    ReadsBack (stamp newV5 rfc3339 observation context (LargeTransactionDetector.report fresh tx))
      (fun m => resolved m ((Detector.largeTransaction d).quantity (.transaction tx) m)) := by
  obtain ⟨fields, hfields, hsays⟩ := metadata_stamp newV5 rfc3339 observation context
    (show (LargeTransactionDetector.report fresh tx).metadata = .object _ from rfl)
  have hextract := extract_stamp newV5 rfc3339 observation context hfields
  have hvalue : fields.lookup "total_output_sats" = some (.nat tx.totalOutputSats) := hsays _ (by decide)
  have hin : fields.lookup "inputs_count" = some (.nat tx.inputCount) := hsays _ (by decide)
  have hout : fields.lookup "outputs_count" = some (.nat tx.outputCount) := hsays _ (by decide)
  have hsize : fields.lookup "vsize" = some (.nat tx.vsize) := hsays _ (by decide)
  intro metric hmetric
  rw [eventType_stamp] at hmetric
  change metric ∈ [.valueSats, .inputCount, .outputCount, .vsize] at hmetric
  simp only [List.mem_cons, List.not_mem_nil, or_false] at hmetric
  rcases hmetric with rfl | rfl | rfl | rfl
  · exact (reads_u64 ((hextract .valueSats).trans (field_or_u64 hvalue htx.totalOutputSats)) _).2 rfl
  · exact (reads_u64 ((hextract .inputCount).trans (field_or_u64 hin htx.inputCount)) _).2 rfl
  · exact (reads_u64 ((hextract .outputCount).trans (field_or_u64 hout htx.outputCount)) _).2 rfl
  · exact (reads_u64 ((hextract .vsize).trans (field_u64 hsize htx.vsize)) _).2 rfl

theorem readsBack_longBlockInterval (d : LongBlockIntervalDetector) {block : BlockObservation} {interval : ℕ}
    (hblock : block.Typed) (hinterval : block.intervalSeconds = some interval) :
    ReadsBack (stamp newV5 rfc3339 observation context (LongBlockIntervalDetector.report fresh block interval))
      (fun m => resolved m ((Detector.longBlockInterval d).quantity (.block block) m)) := by
  obtain ⟨fields, hfields, hsays⟩ := metadata_stamp newV5 rfc3339 observation context
    (show (LongBlockIntervalDetector.report fresh block interval).metadata = .object _ from rfl)
  have hextract := extract_stamp newV5 rfc3339 observation context hfields
  have hfield : fields.lookup "interval_seconds" = some (.nat interval) := hsays _ (by decide)
  intro metric hmetric
  rw [eventType_stamp] at hmetric
  change metric ∈ [.intervalSeconds] at hmetric
  rw [List.mem_singleton.1 hmetric]
  have hlt : interval < 2 ^ 64 := hblock.intervalSeconds interval hinterval
  refine (reads_u64 ((hextract .intervalSeconds).trans (field_u64 hfield hlt)) _).2 ?_
  rw [hinterval]
  rfl

theorem readsBack_consolidation_iff (d : ConsolidationDetector) {tx : TransactionObservation} (htx : tx.Typed) :
    ReadsBack (stamp newV5 rfc3339 observation context (ConsolidationDetector.report fresh tx))
      (fun m => resolved m ((Detector.consolidation d).quantity (.transaction tx) m)) ↔
        (Detector.consolidation d).Recorded (.transaction tx) := by
  set event := stamp newV5 rfc3339 observation context (ConsolidationDetector.report fresh tx) with hevent
  obtain ⟨fields, hfields, hsays⟩ := metadata_stamp newV5 rfc3339 observation context
    (show (ConsolidationDetector.report fresh tx).metadata = .object _ from rfl)
  have hextract := extract_stamp newV5 rfc3339 observation context hfields
  have hdecode : ConsolidationMetadata.ofValue (.object fields) = some (ConsolidationDetector.record tx) :=
    ConsolidationMetadata.ofValue_of_says (Nat.mod_lt _ (by norm_num)) (Nat.mod_lt _ (by norm_num)) htx.totalInputSats
      htx.totalOutputSats htx.feeSats hsays
  have hin : extractMetric event .inputCount = some (.u64 (tx.inputCount % 2 ^ 32)) :=
    (hextract .inputCount).trans (typedOr_some hdecode _ _)
  have hout : extractMetric event .outputCount = some (.u64 (tx.outputCount % 2 ^ 32)) :=
    (hextract .outputCount).trans (typedOr_some hdecode _ _)
  have hvalue : extractMetric event .valueSats = some (.u64 tx.totalInputSats) :=
    (hextract .valueSats).trans (typedOr_some hdecode _ _)
  have hratio : extractMetric event .consolidationRatio =
      some (.basisPoints (hundredths (2 ^ 32 - 1) (ConsolidationDetector.ratio tx))) := by
    rw [hextract .consolidationRatio]
    simp only [extractFrom, ConsolidationDetector.report, ChainEvent.withTypedMetadata, ChainEvent.new, hdecode]
    rfl
  have hreg : (MetricRegistry.metricsForEventType event.eventType).map (·.metric) =
      [.inputCount, .outputCount, .valueSats, .consolidationRatio] := by
    rw [hevent, eventType_stamp]
    rfl
  have hnonneg : 0 ≤ round (ConsolidationDetector.ratio tx * 100) := by
    rw [round_eq]
    apply Int.floor_nonneg.2
    unfold ConsolidationDetector.ratio
    positivity
  have h1 : ReadsMetric event .inputCount tx.inputCount ↔ tx.inputCount % 2 ^ 32 = tx.inputCount := reads_u64 hin _
  have h2 : ReadsMetric event .outputCount tx.outputCount ↔ tx.outputCount % 2 ^ 32 = tx.outputCount := reads_u64 hout _
  have h3 : ReadsMetric event .valueSats tx.totalInputSats ↔ tx.totalInputSats = tx.totalInputSats := reads_u64 hvalue _
  have h4 : ReadsMetric event .consolidationRatio (round (ConsolidationDetector.ratio tx * 100) / 100) ↔ _ :=
    (reads_iff hratio _).trans (hundredths_eq_iff _ _)
  rw [readsBack_iff hreg]
  simp only [List.mem_cons, List.not_mem_nil, or_false, forall_eq_or_imp, forall_eq, true_and, resolved, Detector.quantity,
    Detector.Recorded, h1, h2, h3, h4]
  omega

theorem readsBack_fanOut_iff (d : FanOutDetector) {tx : TransactionObservation} (htx : tx.Typed) :
    ReadsBack (stamp newV5 rfc3339 observation context (FanOutDetector.report fresh tx))
      (fun m => resolved m ((Detector.fanOut d).quantity (.transaction tx) m)) ↔
        (Detector.fanOut d).Recorded (.transaction tx) := by
  set event := stamp newV5 rfc3339 observation context (FanOutDetector.report fresh tx) with hevent
  obtain ⟨fields, hfields, hsays⟩ := metadata_stamp newV5 rfc3339 observation context
    (show (FanOutDetector.report fresh tx).metadata = .object _ from rfl)
  have hextract := extract_stamp newV5 rfc3339 observation context hfields
  obtain ⟨hsmallest, hlargest, hmiddle⟩ := FanOutDetector.outputStats_lt htx
  have hdecode : FanOutMetadata.ofValue (.object fields) = some (FanOutDetector.record tx) :=
    FanOutMetadata.ofValue_of_says (Nat.mod_lt _ (by norm_num)) (Nat.mod_lt _ (by norm_num)) htx.totalOutputSats
      hmiddle hsmallest hlargest hsays
  have hout : extractMetric event .outputCount = some (.u64 (tx.outputCount % 2 ^ 32)) :=
    (hextract .outputCount).trans (typedOr_some hdecode _ _)
  have hvalue : extractMetric event .distributedValueSats = some (.u64 tx.totalOutputSats) :=
    (hextract .distributedValueSats).trans (typedOr_some hdecode _ _)
  have hmedian : extractMetric event .medianOutputSats = some (.u64 (FanOutDetector.outputStats tx).2.2) :=
    (hextract .medianOutputSats).trans (typedOr_some hdecode _ _)
  have hreg : (MetricRegistry.metricsForEventType event.eventType).map (·.metric) =
      [.outputCount, .distributedValueSats, .medianOutputSats] := by
    rw [hevent, eventType_stamp]
    rfl
  have h1 : ReadsMetric event .outputCount tx.outputCount ↔ tx.outputCount % 2 ^ 32 = tx.outputCount := reads_u64 hout _
  have h2 : ReadsMetric event .distributedValueSats tx.totalOutputSats ↔ tx.totalOutputSats = tx.totalOutputSats :=
    reads_u64 hvalue _
  have h3 : ReadsMetric event .medianOutputSats ((FanOutDetector.outputStats tx).2.2 : ℕ) ↔
      (FanOutDetector.outputStats tx).2.2 = (FanOutDetector.outputStats tx).2.2 := reads_u64 hmedian _
  rw [readsBack_iff hreg]
  simp only [List.mem_cons, List.not_mem_nil, or_false, forall_eq_or_imp, forall_eq, and_true, resolved, Detector.quantity,
    Detector.Recorded, h1, h2, h3]
  omega

theorem readsBack_extremeFee_iff (d : ExtremeFeeDetector) {tx : TransactionObservation} (htx : tx.Typed)
    (trigger : ExtremeFeeTriggerType) :
    ReadsBack (stamp newV5 rfc3339 observation context (ExtremeFeeDetector.report fresh tx trigger))
      (fun m => resolved m ((Detector.extremeFee d).quantity (.transaction tx) m)) ↔
        (Detector.extremeFee d).Recorded (.transaction tx) := by
  set event := stamp newV5 rfc3339 observation context (ExtremeFeeDetector.report fresh tx trigger) with hevent
  obtain ⟨fields, hfields, hsays⟩ := metadata_stamp newV5 rfc3339 observation context
    (show (ExtremeFeeDetector.report fresh tx trigger).metadata = .object _ from rfl)
  have hextract := extract_stamp newV5 rfc3339 observation context hfields
  have hdecode : ExtremeFeeMetadata.ofValue (.object fields) = some (ExtremeFeeDetector.record tx trigger) :=
    ExtremeFeeMetadata.ofValue_of_says rfl htx.feeSats htx.vsize htx.totalInputSats htx.totalOutputSats hsays
  have hfee : extractMetric event .feeSats = some (.u64 tx.feeSats) :=
    (hextract .feeSats).trans (typedOr_some hdecode _ _)
  have hrate : extractMetric event .feeRateSatVb =
      some (.decimalScaled (hundredths (2 ^ 64 - 1) (ExtremeFeeDetector.feeRate tx)) 2) := by
    rw [hextract .feeRateSatVb]
    simp only [extractFrom, ExtremeFeeDetector.report, ChainEvent.withTypedMetadata, ChainEvent.new, hdecode]
    rfl
  have hreg : (MetricRegistry.metricsForEventType event.eventType).map (·.metric) = [.feeRateSatVb, .feeSats] := by
    rw [hevent, eventType_stamp]
    rfl
  have h1 : ReadsMetric event .feeRateSatVb (round (ExtremeFeeDetector.feeRate tx * 100) / 100) ↔ _ :=
    (reads_iff hrate _).trans (hundredths_eq_iff _ _)
  have h2 : ReadsMetric event .feeSats tx.feeSats ↔ tx.feeSats = tx.feeSats := reads_u64 hfee _
  rw [readsBack_iff hreg]
  simp only [List.mem_cons, List.not_mem_nil, or_false, forall_eq_or_imp, forall_eq, and_true, resolved, Detector.quantity,
    Detector.Recorded, h1, h2]
  omega

theorem readsBack_dormantCoin_iff (d : DormantCoinDetector) {tx : TransactionObservation} (htx : tx.Typed) :
    ReadsBack (stamp newV5 rfc3339 observation context (DormantCoinDetector.report fresh tx (d.tally tx)))
      (fun m => resolved m ((Detector.dormantCoin d).quantity (.transaction tx) m)) ↔
        (Detector.dormantCoin d).Recorded (.transaction tx) := by
  set t := d.tally tx with ht
  set event := stamp newV5 rfc3339 observation context (DormantCoinDetector.report fresh tx t) with hevent
  have hreg : (MetricRegistry.metricsForEventType event.eventType).map (·.metric) =
      [.dormantValueSats, .oldestInputAgeDays, .coinAgeDestroyedSatoshiDays, .inputCount] := by
    rw [hevent, eventType_stamp]
    rfl
  have hage : t.coinAgeDestroyedSatsDays < 2 ^ 64 ↔ d.coinAgeDestroyed tx < 2 ^ 64 := by
    rw [ht, (DormantCoinDetector.sums_tally d tx).coinAge, DormantCoinDetector.coinAgeDestroyed]
    omega
  rw [readsBack_iff hreg, Detector.Recorded, ← hage]
  constructor
  · intro hreads
    by_contra hbig
    -- the record was not written, and the extractor finds no field
    have hnone : (DormantCoinDetector.record tx t).toValue = none := if_neg hbig
    have hempty : (DormantCoinDetector.report fresh tx t).metadata = .object [] := by
      rw [DormantCoinDetector.metadata_report, hnone, Option.getD_none]
    obtain ⟨fields, hfields, hsays⟩ := metadata_stamp newV5 rfc3339 observation context hempty
    have h1 : fields.lookup "total_dormant_sats" = none := hsays _ (by decide)
    have h2 : fields.lookup "dormant_value_sats" = none := hsays _ (by decide)
    have hdecode : DormantCoinsMetadata.ofValue (.object fields) = none := by
      change ((fields.lookup "total_dormant_sats").bind Value.asU64).bind _ = none
      rw [h1]
      rfl
    obtain ⟨v, hv, -⟩ := hreads .dormantValueSats (by simp)
    rw [hevent, extract_stamp newV5 rfc3339 observation context hfields] at hv
    change typedOr (DormantCoinsMetadata.ofValue (.object fields)) _
      ((fields.lookup "total_dormant_sats").or (fields.lookup "dormant_value_sats")) = some v at hv
    rw [hdecode, h1, h2] at hv
    cases hv
  · intro hsmall
    obtain ⟨w, hw⟩ : ∃ w, (DormantCoinDetector.record tx t).toValue = some (.object w) := ⟨_, if_pos hsmall⟩
    have hmeta : (DormantCoinDetector.report fresh tx t).metadata = .object w := by
      rw [DormantCoinDetector.metadata_report, hw, Option.getD_some]
    obtain ⟨fields, hfields, hsays⟩ := metadata_stamp newV5 rfc3339 observation context hmeta
    have hextract := extract_stamp newV5 rfc3339 observation context hfields
    have hdecode : DormantCoinsMetadata.ofValue (.object fields) = some (DormantCoinDetector.record tx t) :=
      DormantCoinsMetadata.ofValue_of_says (DormantCoinDetector.fits_record htx) hsmall hw hsays
    have h1 : extractMetric event .dormantValueSats = some (.u64 t.totalDormantSats) :=
      (hextract .dormantValueSats).trans (typedOr_some hdecode _ _)
    have h2 : extractMetric event .oldestInputAgeDays = some (.u64 (t.oldestAgeSeconds / 86400)) :=
      (hextract .oldestInputAgeDays).trans (typedOr_some hdecode _ _)
    have h3 : extractMetric event .coinAgeDestroyedSatoshiDays = some (.u128 t.coinAgeDestroyedSatsDays) := by
      rw [hevent, hextract .coinAgeDestroyedSatoshiDays]
      simp only [extractFrom, DormantCoinDetector.report, ChainEvent.withTypedMetadata, ChainEvent.new, hdecode]
      rfl
    have h4 : extractMetric event .inputCount = some (.u64 t.qualifyingInputsCount) :=
      (hextract .inputCount).trans (typedOr_some hdecode _ _)
    simp only [List.mem_cons, List.not_mem_nil, or_false, forall_eq_or_imp, forall_eq, resolved, Detector.quantity]
    exact ⟨(reads_u64 h1 _).2 rfl, (reads_u64 h2 _).2 rfl, (reads_u128 h3 _).2 rfl, (reads_u64 h4 _).2 rfl⟩

/-- a report of one of the six, and what it was made from -/
theorem mem_detect {d : Detector} (hd : d.historicallyReplayable) {report : ChainEvent}
    (h : report ∈ d.detect rfc3339 fresh observation) :
    (∃ l tx, d = .largeTransaction l ∧ observation = .transaction tx ∧ report = LargeTransactionDetector.report fresh tx) ∨
    (∃ l block interval, d = .longBlockInterval l ∧ observation = .block block ∧ block.intervalSeconds = some interval ∧
      report = LongBlockIntervalDetector.report fresh block interval) ∨
    (∃ l tx, d = .dormantCoin l ∧ observation = .transaction tx ∧
      report = DormantCoinDetector.report fresh tx (l.tally tx)) ∨
    (∃ l tx, d = .consolidation l ∧ observation = .transaction tx ∧ report = ConsolidationDetector.report fresh tx) ∨
    (∃ l tx, d = .fanOut l ∧ observation = .transaction tx ∧ report = FanOutDetector.report fresh tx) ∨
    (∃ l tx trigger, d = .extremeFee l ∧ observation = .transaction tx ∧
      report = ExtremeFeeDetector.report fresh tx trigger) := by
  cases d with
  | largeTransaction l =>
    left
    cases observation <;> simp_all [Detector.detect, LargeTransactionDetector.detect]
  | longBlockInterval l =>
    right; left
    cases observation with
    | block block =>
      obtain ⟨l', interval, -, hinterval, -, heq⟩ := Detector.detect_block.1 h
      exact ⟨l, block, interval, rfl, rfl, hinterval, heq⟩
    | _ => simp [Detector.detect, LongBlockIntervalDetector.detect] at h
  | dormantCoin l =>
    right; right; left
    cases observation <;> simp_all [Detector.detect, DormantCoinDetector.detect]
  | consolidation l =>
    right; right; right; left
    cases observation <;> simp_all [Detector.detect, ConsolidationDetector.detect]
  | fanOut l =>
    right; right; right; right; left
    cases observation <;> simp_all [Detector.detect, FanOutDetector.detect]
  | extremeFee l =>
    right; right; right; right; right
    cases observation with
    | transaction tx =>
      obtain ⟨trigger, -, heq⟩ : ∃ trigger, _ ∧ ExtremeFeeDetector.report fresh tx trigger = report := by
        simpa [Detector.detect, ExtremeFeeDetector.detect] using h
      exact ⟨l, tx, trigger, rfl, rfl, heq.symm⟩
    | _ => simp [Detector.detect, ExtremeFeeDetector.detect] at h
  | rbf => cases hd
  | reorg => cases hd

/-- **At the resolution of each metric**, what is read back is what was computed when the record was `Recorded`. -/
theorem readsBack_resolved_iff {d : Detector} (hd : d.historicallyReplayable) (hobs : observation.Typed)
    {report : ChainEvent} (hreport : report ∈ d.detect rfc3339 fresh observation) :
    ReadsBack (stamp newV5 rfc3339 observation context report) (fun m => resolved m (d.quantity observation m)) ↔
      d.Recorded observation := by
  rcases mem_detect rfc3339 observation fresh hd hreport with ⟨l, tx, rfl, rfl, rfl⟩ |
    ⟨l, block, interval, rfl, rfl, hinterval, rfl⟩ | ⟨l, tx, rfl, rfl, rfl⟩ | ⟨l, tx, rfl, rfl, rfl⟩ |
    ⟨l, tx, rfl, rfl, rfl⟩ | ⟨l, tx, trigger, rfl, rfl, rfl⟩
  · exact iff_of_true (readsBack_largeTransaction newV5 rfc3339 _ context fresh l hobs) trivial
  · exact iff_of_true (readsBack_longBlockInterval newV5 rfc3339 _ context fresh l hobs hinterval) trivial
  · exact readsBack_dormantCoin_iff newV5 rfc3339 _ context fresh l hobs
  · exact readsBack_consolidation_iff newV5 rfc3339 _ context fresh l hobs
  · exact readsBack_fanOut_iff newV5 rfc3339 _ context fresh l hobs
  · exact readsBack_extremeFee_iff newV5 rfc3339 _ context fresh l hobs trigger

/-! ## Without rounding -/

theorem round_div_eq_iff (q : ℚ) : (round (q * 100) : ℚ) / 100 = q ↔ ∃ n : ℤ, q * 100 = n := by
  constructor
  · intro h
    exact ⟨round (q * 100), by linarith⟩
  · intro ⟨n, hn⟩
    rw [hn, round_intCast]
    linarith

/-- a value of a metric is at the metric's resolution -/
theorem resolved_numeric {metric : BaselineMetric} {v : MetricValue} (h : v.HasForm metric.form) :
    resolved metric v.numeric = v.numeric := by
  cases metric with
  | consolidationRatio =>
    cases v with
    | basisPoints n =>
      exact (round_div_eq_iff _).2 ⟨n, by simp only [MetricValue.numeric]; push_cast; ring⟩
    | _ => cases h
  | feeRateSatVb =>
    cases v with
    | decimalScaled n scale =>
      obtain ⟨-, rfl⟩ := h
      exact (round_div_eq_iff _).2 ⟨n, by simp only [MetricValue.numeric]; push_cast; ring⟩
    | _ => cases h
  | _ => rfl

/-- an unrounded number is read back when the rounded one is, and rounding changes nothing -/
theorem readsBack_exact_iff (event : ChainEvent) (f : BaselineMetric → ℚ) :
    ReadsBack event f ↔ ReadsBack event (fun m => resolved m (f m)) ∧
      ∀ metric ∈ (MetricRegistry.metricsForEventType event.eventType).map (·.metric),
        resolved metric (f metric) = f metric := by
  constructor
  · intro h
    have hresolved : ∀ metric ∈ (MetricRegistry.metricsForEventType event.eventType).map (·.metric),
        resolved metric (f metric) = f metric := by
      intro metric hmetric
      obtain ⟨v, hv, hnum⟩ := h metric hmetric
      rw [← hnum]
      exact resolved_numeric (extractFrom_hasForm hv)
    refine ⟨?_, hresolved⟩
    intro metric hmetric
    show ReadsMetric event metric (resolved metric (f metric))
    rw [hresolved metric hmetric]
    exact h metric hmetric
  · intro ⟨h, hresolved⟩ metric hmetric
    rw [← hresolved metric hmetric]
    exact h metric hmetric

/-- only a ratio and a rate are rounded -/
theorem resolved_plain (eventType : EventType)
    (hratio : .consolidationRatio ∉ (MetricRegistry.metricsForEventType eventType).map (·.metric))
    (hrate : .feeRateSatVb ∉ (MetricRegistry.metricsForEventType eventType).map (·.metric)) (f : BaselineMetric → ℚ) :
    ∀ metric ∈ (MetricRegistry.metricsForEventType eventType).map (·.metric), resolved metric (f metric) = f metric := by
  intro metric hmetric
  cases metric with
  | consolidationRatio => exact absurd hmetric hratio
  | feeRateSatVb => exact absurd hmetric hrate
  | _ => rfl

/-- rounding changes nothing when the ratio or the rate has two decimals -/
theorem resolved_quantity_iff {d : Detector} (hd : d.historicallyReplayable) {report : ChainEvent}
    (hreport : report ∈ d.detect rfc3339 fresh observation) :
    (∀ metric ∈ (MetricRegistry.metricsForEventType report.eventType).map (·.metric),
      resolved metric (d.quantity observation metric) = d.quantity observation metric) ↔ d.TwoDecimals observation := by
  rcases mem_detect rfc3339 observation fresh hd hreport with ⟨l, tx, rfl, rfl, rfl⟩ |
    ⟨l, block, interval, rfl, rfl, hinterval, rfl⟩ | ⟨l, tx, rfl, rfl, rfl⟩ | ⟨l, tx, rfl, rfl, rfl⟩ |
    ⟨l, tx, rfl, rfl, rfl⟩ | ⟨l, tx, trigger, rfl, rfl, rfl⟩
  · exact iff_of_true (resolved_plain .largeTransfer (by decide) (by decide) _) trivial
  · exact iff_of_true (resolved_plain .longBlockInterval (by decide) (by decide) _) trivial
  · exact iff_of_true (resolved_plain .dormantCoinsMoved (by decide) (by decide) _) trivial
  · rw [Detector.TwoDecimals, ← round_div_eq_iff]
    change (∀ metric ∈ [BaselineMetric.inputCount, .outputCount, .valueSats, .consolidationRatio], _) ↔ _
    simp [resolved, Detector.quantity]
  · exact iff_of_true (resolved_plain .fanOut (by decide) (by decide) _) trivial
  · rw [Detector.TwoDecimals, ← round_div_eq_iff]
    change (∀ metric ∈ [BaselineMetric.feeRateSatVb, .feeSats], _) ↔ _
    simp [resolved, Detector.quantity]

end

/-- **Metrics read back from an event.** At the resolution of the metrics this is when the record was written and nothing
was cut to its type; without rounding, when the ratio or the rate has two decimals as well. -/
theorem metrics_read_back_iff (newV5 : String → Uuid) (rfc3339 : DateTime → String) (d : Detector)
    (hd : d.historicallyReplayable) (fresh : Fresh) (observation : Observation) (hobs : observation.Typed)
    (context : Option ObservationContext) (report : ChainEvent) (hreport : report ∈ d.detect rfc3339 fresh observation) :
    (ReadsBack (stamp newV5 rfc3339 observation context report) (fun m => resolved m (d.quantity observation m)) ↔
      d.Recorded observation) ∧
    (ReadsBack (stamp newV5 rfc3339 observation context report) (d.quantity observation) ↔
      d.Recorded observation ∧ d.TwoDecimals observation) := by
  have hresolved := readsBack_resolved_iff newV5 rfc3339 observation context fresh hd hobs hreport
  refine ⟨hresolved, ?_⟩
  rw [readsBack_exact_iff, hresolved, eventType_stamp, resolved_quantity_iff rfc3339 observation fresh hd hreport]

open DormantCoinDetector in
theorem metrics_read_back_iff_mixed :
    report ⟨0, 0, 0⟩ mixedSpend (tally .default mixedSpend) ∈
      (Detector.dormantCoin .default).detect (fun _ => "") ⟨0, 0, 0⟩ (.transaction mixedSpend) ∧
    ReadsBack (stamp (fun _ => 0) (fun _ => "") (.transaction mixedSpend) none
      (report ⟨0, 0, 0⟩ mixedSpend (tally .default mixedSpend)))
      ((Detector.dormantCoin .default).quantity (.transaction mixedSpend)) := by
  have hreport : report ⟨0, 0, 0⟩ mixedSpend (tally .default mixedSpend) ∈
      (Detector.dormantCoin .default).detect (fun _ => "") ⟨0, 0, 0⟩ (.transaction mixedSpend) :=
    List.mem_singleton_self _
  refine ⟨hreport, ?_⟩
  have hiff := metrics_read_back_iff (fun _ => 0) (fun _ => "") (.dormantCoin .default) rfl ⟨0, 0, 0⟩
    (.transaction mixedSpend) typed_mixedSpend none _ hreport
  have hrecorded : coinAgeDestroyed .default mixedSpend < 2 ^ 64 := by decide
  exact hiff.2.2 ⟨hrecorded, trivial⟩

namespace DormantCoinDetector

/-- an output of 2^63, spent after 4629 days -/
def hugeSpend : TransactionObservation := spendAll [spending (2 ^ 63) none (some (fromTimestamp 1300000000))]

theorem typed_hugeSpend : hugeSpend.Typed := by
  refine typed_spendAll (by decide) ?_
  simp [spending, SpentOutputContext.typed_iff, Representable, Below, fromTimestamp]

/-- the coin age is a u128, its JSON is not: the event is reported with no metadata, and no metric is found -/
theorem coin_age_lost :
    hugeSpend.Typed ∧
    report ⟨0, 0, 0⟩ hugeSpend (tally .default hugeSpend) ∈
      (Detector.dormantCoin .default).detect (fun _ => "") ⟨0, 0, 0⟩ (.transaction hugeSpend) ∧
    (tally .default hugeSpend).coinAgeDestroyedSatsDays = 2 ^ 63 * 4629 ∧
    ∀ metric ∈ (MetricRegistry.metricsForEventType .dormantCoinsMoved).map (·.metric),
      extractMetric (stamp (fun _ => 0) (fun _ => "") (.transaction hugeSpend) none
        (report ⟨0, 0, 0⟩ hugeSpend (tally .default hugeSpend))) metric = none := by
  refine ⟨typed_hugeSpend, List.mem_singleton_self _, by decide, ?_⟩
  have hnone : (record hugeSpend (tally .default hugeSpend)).toValue = none := if_neg (by decide)
  have hempty : (stamp (fun _ => 0) (fun _ => "") (.transaction hugeSpend) none
      (report ⟨0, 0, 0⟩ hugeSpend (tally .default hugeSpend))).metadata = .object [] := by
    change (report ⟨0, 0, 0⟩ hugeSpend (tally .default hugeSpend)).metadata = _
    rw [metadata_report, hnone, Option.getD_none]
  intro metric _
  rw [extractMetric, eventType_stamp, hempty]
  cases metric <;> rfl

end DormantCoinDetector

end ObsChain
