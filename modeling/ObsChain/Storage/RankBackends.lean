/-
The two rank backends (`get_exact_empirical_rank` of `repository.rs` and of `postgres.rs`, the table
`event_metric_values` of `0007_statistical_correctness.sql`).

The in-memory store counts with the derived order of `MetricValue`, which compares the variant before the number.
Postgres counts with the order of `NUMERIC`: a row holds what `to_numeric_string` says, as a `NUMERIC(50, 4)`, and the
query value is cast from its own text. The counts coincide because the extractor gives every value of one metric in one
form, so that the variants never differ and the scale is fixed, and because no form has more decimals than the column or
more digits than fit before the point.

Model: `MetricRow` is a row of the table, `MetricRow.ofContent` the insert of one (`none` is a refusal), and
`postgresRank` the query; its outer `none` is an error. A percentile is the exact quotient of the counts on both sides.
The rows are those that the in-memory store holds when it counts, which are its own where one matches.

- `parse_toNumericString`, `fit_numeric`: the text and the column keep the number of every form.
- `rank_backends_agree`: for rows and a query value that the extractor made, both backends return the same percentile,
  tail count and population, in every direction.

Not modelled: column widths of the texts, and the upsert on event, metric and version, which the in-memory rows went
through already.
-/
import Mathlib.Tactic
import ObsChain.Core.Numeric
import ObsChain.Domain.MetricForms
import ObsChain.Storage.InMemory
import ObsChain.Storage.RankPopulation

namespace ObsChain

/-! ## The Postgres side -/

/-- a row of `event_metric_values` -/
structure MetricRow where
  eventId : Uuid
  network : String
  eventType : EventType
  metric : BaselineMetric
  metricDefinitionVersion : String
  valueNumeric : ℚ
  metricScale : ℕ
  blockHeight : ℕ
  eventTime : DateTime
deriving DecidableEq, Repr

/-- the insert of one metric: the height fits an i64, and the text a `NUMERIC(50, 4)` -/
def MetricRow.ofContent (m : MetricContent) : Option MetricRow :=
  if !fitsI64 (some m.blockHeight) then none
  else
    ((Numeric.parse m.value.toNumericString).bind (Numeric.fit 50 4)).map fun valueNumeric =>
      { eventId := m.eventId
        network := m.network
        eventType := m.eventType
        metric := m.metric
        metricDefinitionVersion := m.metricDefinitionVersion
        valueNumeric := valueNumeric
        metricScale := m.metricScale
        blockHeight := m.blockHeight
        eventTime := m.eventTime }

/-- the `WHERE` clause -/
def RankQuery.selectsRow (q : RankQuery) (row : MetricRow) : Bool :=
  row.network == q.network && row.eventType == q.eventType && row.metric == q.metric &&
    row.metricDefinitionVersion == q.metricDefinitionVersion && decide (row.blockHeight ≥ q.startHeight) &&
    decide (row.blockHeight ≤ q.endHeight)

/-- the rows that a table of metrics becomes -/
def metricRows (metrics : List EventMetricValue) : List MetricRow :=
  metrics.filterMap fun m => MetricRow.ofContent m.toMetricContent

/-- `get_exact_empirical_rank` of the Postgres store -/
def postgresRank (rows : List MetricRow) (q : RankQuery) (queryValue : MetricValue) (direction : RarityDirection) :
    Option (Option (ℚ × ℕ × ℕ)) :=
  if !(fitsI64 (some q.startHeight) && fitsI64 (some q.endHeight)) then none
  else
    (Numeric.parse queryValue.toNumericString).map fun x =>
      let selected := rows.filter q.selectsRow
      let countLe := (selected.filter fun row => decide (row.valueNumeric ≤ x)).length
      let countGe := (selected.filter fun row => decide (row.valueNumeric ≥ x)).length
      let totalCount := selected.length
      if totalCount = 0 then none
      else
        match direction with
        | .higherIsRarer | .twoSided => some ((countLe : ℚ) / totalCount * 100, countGe, totalCount)
        | .lowerIsRarer => some ((countGe : ℚ) / totalCount * 100, countLe, totalCount)

/-! ## The text and the column -/

namespace MetricValue

/-- **The text says the number.** -/
theorem parse_toNumericString (v : MetricValue) : Numeric.parse v.toNumericString = some v.numeric := by
  cases v with
  | u64 v => exact Numeric.parse_toString v
  | u128 v => exact Numeric.parse_toString v
  | basisPoints v => exact Numeric.parse_point (by omega)
  | decimalScaled value scale =>
    simp only [toNumericString, numeric]
    split_ifs with hscale
    · rw [hscale, Numeric.parse_toString]
      simp
    · exact Numeric.parse_point (by omega)

/-- **The column keeps the number** of every form. -/
theorem fit_numeric {form : MetricForm} {v : MetricValue} (h : v.HasForm form) :
    Numeric.fit 50 4 v.numeric = some v.numeric := by
  cases form <;> cases v <;> simp only [HasForm] at h
  case u64.u64 v =>
    have hfit := Numeric.fit_of_scaled (p := 50) (s := 4) (k := 0) (n := v) (by omega) (by omega)
    simpa [numeric] using hfit
  case u128.u128 v =>
    have hfit := Numeric.fit_of_scaled (p := 50) (s := 4) (k := 0) (n := v) (by omega) (by omega)
    simpa [numeric] using hfit
  case basisPoints.basisPoints v =>
    exact Numeric.fit_of_scaled (by omega) (by omega)
  case hundredths.decimalScaled value scale =>
    obtain ⟨hlt, rfl⟩ := h
    exact Numeric.fit_of_scaled (by omega) (by omega)

end MetricValue

/-! ## The rows both backends count -/

open EventMetricExtractor

/-- a metric in a form is inserted with its number, if the height fits -/
theorem MetricRow.ofContent_eq {m : MetricContent} {form : MetricForm} (hheight : fitsI64 (some m.blockHeight) = true)
    (hform : m.value.HasForm form) :
    ∃ row, MetricRow.ofContent m = some row ∧ row.valueNumeric = m.value.numeric := by
  unfold MetricRow.ofContent
  rw [if_neg (by simp [hheight]), MetricValue.parse_toNumericString, Option.bind_some,
    MetricValue.fit_numeric hform]
  exact ⟨_, rfl, rfl⟩

/-- the clause sees of a row what the in-memory filter sees of the metric -/
theorem RankQuery.selectsRow_ofContent (q : RankQuery) {m : MetricContent} {row : MetricRow}
    (h : MetricRow.ofContent m = some row) : q.selectsRow row = q.selects m := by
  unfold MetricRow.ofContent at h
  split_ifs at h with hheight
  obtain ⟨x, -, rfl⟩ := Option.map_eq_some_iff.1 h
  rfl

/-- **The same population.** The selected rows hold the numbers of the selected metrics, in order. -/
theorem map_valueNumeric_selected (q : RankQuery) (hend : q.endHeight < 2 ^ 63) {form : MetricForm}
    {metrics : List EventMetricValue}
    (hform : ∀ m ∈ metrics, q.selects m.toMetricContent = true → m.value.HasForm form) :
    ((metricRows metrics).filter q.selectsRow).map (fun row => row.valueNumeric) =
      (metrics.filter fun m => q.selects m.toMetricContent).map fun m => m.value.numeric := by
  induction metrics with
  | nil => rfl
  | cons m metrics ih =>
    have ih := ih fun m' hm' => hform m' (List.mem_cons_of_mem m hm')
    by_cases hsel : q.selects m.toMetricContent = true
    · -- a selected height is within the window, so it fits
      have hheight : fitsI64 (some m.blockHeight) = true := by
        obtain ⟨-, -, -, -, -, hle⟩ := (q.selects_iff m.toMetricContent).1 hsel
        simp only [fitsI64, Option.all_some, decide_eq_true_eq]
        omega
      obtain ⟨row, hrow, hvalue⟩ := MetricRow.ofContent_eq hheight (hform m List.mem_cons_self hsel)
      have hselRow : q.selectsRow row = true := by
        rw [q.selectsRow_ofContent hrow]
        exact hsel
      have hcons : metricRows (m :: metrics) = row :: metricRows metrics := by
        simp [metricRows, hrow]
      simp only [hcons, List.filter_cons, hselRow, hsel, if_true, List.map_cons, hvalue, ih]
    · simp only [List.filter_cons, hsel, if_false, Bool.false_eq_true]
      cases hrow : MetricRow.ofContent m.toMetricContent with
      | none =>
        have hcons : metricRows (m :: metrics) = metricRows metrics := by
          simp [metricRows, hrow]
        rw [hcons, ih]
      | some row =>
        have hcons : metricRows (m :: metrics) = row :: metricRows metrics := by
          simp [metricRows, hrow]
        have hselRow : ¬ q.selectsRow row = true := by
          rw [q.selectsRow_ofContent hrow]
          exact hsel
        rw [hcons, List.filter_cons_of_neg hselRow, ih]

/-- counting in the order of the numbers is counting in the derived order -/
theorem count_numeric {form : MetricForm} {values : List MetricValue} (hvalues : ∀ v ∈ values, v.HasForm form)
    {queryValue : MetricValue} (hquery : queryValue.HasForm form) :
    ((values.map MetricValue.numeric).filter fun x => decide (x ≤ queryValue.numeric)).length =
        (values.filter fun v => decide (v ≤ queryValue)).length ∧
      ((values.map MetricValue.numeric).filter fun x => decide (x ≥ queryValue.numeric)).length =
        (values.filter fun v => decide (v ≥ queryValue)).length := by
  rw [List.filter_map, List.filter_map, List.length_map, List.length_map]
  constructor
  · congr 1
    apply List.filter_congr
    intro v hv
    exact decide_eq_decide.2 (MetricValue.numeric_le_iff (hvalues v hv) hquery)
  · congr 1
    apply List.filter_congr
    intro v hv
    exact decide_eq_decide.2 (MetricValue.numeric_le_iff hquery (hvalues v hv))

/-- the query over numbers -/
theorem postgresRank_eq {rows : List MetricRow} {q : RankQuery} (hstart : q.startHeight < 2 ^ 63)
    (hend : q.endHeight < 2 ^ 63) {form : MetricForm} {values : List MetricValue}
    (hvalues : ∀ v ∈ values, v.HasForm form) {queryValue : MetricValue} (hquery : queryValue.HasForm form)
    (hrows : (rows.filter q.selectsRow).map (fun row => row.valueNumeric) = values.map MetricValue.numeric)
    (direction : RarityDirection) :
    postgresRank rows q queryValue direction = some (rankOf direction queryValue values) := by
  have hlength : (rows.filter q.selectsRow).length = values.length := by
    have hlen := congrArg List.length hrows
    rwa [List.length_map, List.length_map] at hlen
  obtain ⟨hle, hge⟩ := count_numeric hvalues hquery
  rw [← hrows, List.filter_map, List.length_map] at hle
  rw [← hrows, List.filter_map, List.length_map] at hge
  have hfits : fitsI64 (some q.startHeight) = true ∧ fitsI64 (some q.endHeight) = true := by
    simp only [fitsI64, Option.all_some, decide_eq_true_eq]
    exact ⟨hstart, hend⟩
  unfold postgresRank
  rw [if_neg (by simp [hfits.1, hfits.2]), MetricValue.parse_toNumericString, Option.map_some]
  simp only [Function.comp_def] at hle hge
  simp only [hle, hge, hlength]
  unfold rankOf
  cases values with
  | nil => rfl
  | cons v vs => cases direction <;> rfl

namespace InMemoryStorage

/-- the rows that a rank query counts were extracted for its metric, also those that the fallback adds -/
theorem extracted_of_selected {stamps : ℕ → ℕ → Uuid × DateTime} {st : InMemoryStorage} {q : RankQuery}
    (hrows : ∀ m ∈ st.eventMetrics, q.selects m.toMetricContent = true → Extracted q.eventType q.metric m.value)
    {m : EventMetricValue} (hm : m ∈ (st.withFallback stamps q).eventMetrics)
    (hsel : q.selects m.toMetricContent = true) : Extracted q.eventType q.metric m.value := by
  unfold withFallback at hm
  split_ifs at hm with hempty
  · rcases mem_materialize hm with hold | ⟨event, -, hcontent⟩
    · exact hrows m hold hsel
    · obtain ⟨val, hval, heq⟩ := mem_metricContents hcontent
      obtain ⟨-, htype, hmetric, -⟩ := (q.selects_iff m.toMetricContent).1 hsel
      have hvalue : m.value = val := congrArg MetricContent.value heq
      have htype' : m.eventType = event.eventType := congrArg MetricContent.eventType heq
      refine ⟨event, htype'.symm.trans htype, ?_⟩
      rw [← hmetric, hvalue]
      exact hval
  · exact hrows m hm hsel

/-- a store with a matching row counts what it has -/
theorem withFallback_of_match {stamps : ℕ → ℕ → Uuid × DateTime} {st : InMemoryStorage} {q : RankQuery}
    (h : ∃ m ∈ st.eventMetrics, q.selects m.toMetricContent = true) : st.withFallback stamps q = st := by
  obtain ⟨m, hm, hsel⟩ := h
  have hmem : m ∈ st.eventMetrics.filter fun m => q.selects m.toMetricContent := List.mem_filter.2 ⟨hm, hsel⟩
  unfold withFallback
  rw [if_neg]
  simpa using List.ne_nil_of_mem hmem

/-- **The rank backends agree.** For rows and a query value that the extractor made for one type and metric, over
heights that fit an i64, both return the same percentile, tail count and population. The rows are those the in-memory
store counts, its own where one matches. -/
theorem rank_backends_agree (stamps : ℕ → ℕ → Uuid × DateTime) (st : InMemoryStorage) (q : RankQuery)
    (queryValue : MetricValue) (direction : RarityDirection) (hstart : q.startHeight < 2 ^ 63)
    (hend : q.endHeight < 2 ^ 63)
    (hrows : ∀ m ∈ st.eventMetrics, q.selects m.toMetricContent = true → Extracted q.eventType q.metric m.value)
    (hquery : Extracted q.eventType q.metric queryValue) :
    postgresRank (metricRows (st.withFallback stamps q).eventMetrics) q queryValue direction =
        some (st.getExactEmpiricalRank stamps q queryValue direction).2 ∧
      ((∃ m ∈ st.eventMetrics, q.selects m.toMetricContent = true) →
        (st.withFallback stamps q).eventMetrics = st.eventMetrics) := by
  refine ⟨?_, fun hmatch => by rw [withFallback_of_match hmatch]⟩
  have hform : ∀ m ∈ (st.withFallback stamps q).eventMetrics, q.selects m.toMetricContent = true →
      m.value.HasForm q.metric.form := by
    intro m hm hsel
    exact (extracted_of_selected hrows hm hsel).hasForm
  have hvalues : ∀ v ∈ st.rankPopulation stamps q, v.HasForm q.metric.form := by
    intro v hv
    obtain ⟨m, hm, rfl⟩ := List.mem_map.1 hv
    obtain ⟨hmem, hsel⟩ := List.mem_filter.1 hm
    exact hform m hmem hsel
  apply postgresRank_eq hstart hend hvalues hquery.hasForm
  rw [map_valueNumeric_selected q hend hform]
  unfold rankPopulation
  rw [List.map_map]
  rfl

/-! ## Fee rates -/

/-- an extreme fee at height 5, with its rate -/
def feeEvent (id : Uuid) (rate : ℚ) : ChainEvent :=
  { transferEvent id "fee" 0 with
    eventType := .extremeFee
    metadata := .object [("fee_rate_sat_vb", .number (.float rate))] }

/-- three rates of two decimals -/
def feeStore : InMemoryStorage :=
  [feeEvent 1 (1234 / 100), feeEvent 2 (550 / 100), feeEvent 3 (1234 / 100)].foldl
    (fun st event => st.saveEvent (fun _ => (0, 0)) event) (empty 10)

def feeQuery : RankQuery := queryFor "mainnet" .extremeFee .feeRateSatVb 0 10

/-- a rate of 12.34 is at the top with two others: three values not above it, two not below -/
theorem rank_backends_agree_feeStore :
    (feeStore.getExactEmpiricalRank (fun _ _ => (0, 0)) feeQuery (.decimalScaled 1234 2) .higherIsRarer).2 =
        some (100, 2, 3) ∧
      postgresRank (metricRows (feeStore.withFallback (fun _ _ => (0, 0)) feeQuery).eventMetrics) feeQuery
        (.decimalScaled 1234 2) .higherIsRarer = some (some (100, 2, 3)) := by
  have htop : Extracted .extremeFee .feeRateSatVb (.decimalScaled 1234 2) :=
    ⟨feeEvent 1 (1234 / 100), rfl, by decide +kernel⟩
  have hlow : Extracted .extremeFee .feeRateSatVb (.decimalScaled 550 2) :=
    ⟨feeEvent 2 (550 / 100), rfl, by decide +kernel⟩
  have hvalues : ∀ m ∈ feeStore.eventMetrics, m.value = .decimalScaled 1234 2 ∨ m.value = .decimalScaled 550 2 := by
    decide +kernel
  have hrows : ∀ m ∈ feeStore.eventMetrics, feeQuery.selects m.toMetricContent = true →
      Extracted feeQuery.eventType feeQuery.metric m.value := by
    intro m hm _
    rcases hvalues m hm with hval | hval
    · exact hval ▸ htop
    · exact hval ▸ hlow
  have hmemory : (feeStore.getExactEmpiricalRank (fun _ _ => (0, 0)) feeQuery (.decimalScaled 1234 2)
      .higherIsRarer).2 = some (100, 2, 3) := by
    decide +kernel
  have hagree := (rank_backends_agree (fun _ _ => (0, 0)) feeStore feeQuery (.decimalScaled 1234 2) .higherIsRarer
    (by decide) (by decide) hrows htop).1
  rw [hmemory] at hagree
  exact ⟨hmemory, hagree⟩

end InMemoryStorage

end ObsChain
