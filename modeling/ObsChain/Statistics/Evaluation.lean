/-
Evaluation of an event's rarity (`evaluate_event_rarity_with_exact_ranks` of `baseline.rs`), from the ranking of its metrics
to the impact score, and on what populations a score is shown.

The configured minimum decides whether a metric has a percentile. The score goes by the default minimum instead, so below a
larger configured minimum a score is shown that counts a component without a percentile.

- `rate_percentile`: a metric has a percentile from the configured minimum on.
- `shown_resultsOf_iff`: when a score is shown, with the primary metric there.
- `score_on_evidence_iff`: when no shown score counts a metric without a percentile.
-/
import Mathlib.Tactic
import ObsChain.Statistics.ImpactCoverage
import ObsChain.Statistics.Percentiles

namespace ObsChain

/-- what is read of a baseline run -/
structure BaselineRun where
  id : Uuid
  endHeight : ℕ
  algorithmVersion : String
deriving DecidableEq, Repr

structure EventRarityContext where
  baselineId : Uuid
  baselineVersion : String
  evaluationMode : EvaluationMode
  primary : EventRarityResult
  secondary : List EventRarityResult
  impact : Option ImpactBreakdown
deriving DecidableEq, Repr

def MetricRegistry.primaryMetric (eventType : EventType) : Option BaselineMetricDefinition :=
  (metricsForEventType eventType).find? (·.isPrimary)

namespace BaselineEngine

open EventMetricExtractor MetricRegistry

/-- how rare one value is -/
structure Rating where
  percentile : Option ℚ
  method : PercentileMethod
  estimated : Bool
  tailCount : ℕ
  populationSize : ℕ
  band : RarityBand
deriving DecidableEq, Repr

section

variable (event : ChainEvent) (baselineRun : BaselineRun) (distributions : List BaselineDistribution)
  (exactRanks : BaselineMetric → Option (ℚ × ℕ × ℕ)) (minSampleSize : ℕ)

/-- the exact rank of a metric over a population that is large enough -/
def exactRank (metric : BaselineMetric) : Option (ℚ × ℕ × ℕ) :=
  (exactRanks metric).filter fun rank => decide (rank.2.2 ≥ minSampleSize)

/-- the first distribution of a metric for the event's type -/
def distributionOf (metric : BaselineMetric) : Option BaselineDistribution :=
  distributions.find? fun d => d.eventType = event.eventType ∧ d.metric = metric

/-- by the exact rank, or else by the distribution -/
def rate (d : BaselineMetricDefinition) (val : MetricValue) : Rating :=
  match exactRank exactRanks minSampleSize d.metric with
  | some (p, tail, pop) =>
    let b := RarityBand.fromPercentile p pop minSampleSize
    ⟨if b = .insufficientData then none else some p, .exactEmpiricalCdf, false, tail, pop, b⟩
  | none =>
    match distributionOf event distributions d.metric with
    | some dist =>
      let (p, tail) := BaselineCalculator.rankFromDistribution dist val d.direction
      let b := RarityBand.fromPercentile p dist.sampleCount minSampleSize
      ⟨if b = .insufficientData then none else some p, .quantileInterpolationEstimate, true, tail, dist.sampleCount, b⟩
    | none => ⟨none, .quantileInterpolationEstimate, true, 0, 0, .insufficientData⟩

def evaluationModeOf : EvaluationMode :=
  let isRetrospective := (event.blockHeight.map fun h => decide (h ≤ baselineRun.endHeight)).getD true
  if isRetrospective then .retrospective else .pointInTime

/-- the result of one metric -/
def resultOf (d : BaselineMetricDefinition) (val : MetricValue) : EventRarityResult :=
  let rating := rate event distributions exactRanks minSampleSize d val
  { eventId := event.id
    baselineRunId := baselineRun.id
    eventType := event.eventType
    metric := d.metric
    value := val
    percentile := rating.percentile
    percentileMethod := rating.method
    estimated := rating.estimated
    rarityBand := rating.band
    populationSize := rating.populationSize
    tailCount := rating.tailCount
    evaluationMode := evaluationModeOf event baselineRun }

/-- the results of the metrics that the event has, each with whether it is the primary one -/
def evaluated (defs : List BaselineMetricDefinition) : List (Bool × EventRarityResult) :=
  defs.filterMap fun d => (extractMetric event d.metric).map fun val =>
    (d.isPrimary, resultOf event baselineRun distributions exactRanks minSampleSize d val)

/-- what stands for the primary metric of an event that does not have it -/
def fallbackPrimary : EventRarityResult where
  eventId := event.id
  baselineRunId := baselineRun.id
  eventType := event.eventType
  metric := ((primaryMetric event.eventType).map (·.metric)).getD .valueSats
  value := .u64 0
  percentile := none
  percentileMethod := .exactEmpiricalCdf
  estimated := false
  rarityBand := .insufficientData
  populationSize := 0
  tailCount := 0
  evaluationMode := evaluationModeOf event baselineRun

def evaluateEventRarityWithExactRanks : EventRarityContext :=
  let results := evaluated event baselineRun distributions exactRanks minSampleSize (metricsForEventType event.eventType)
  let primary := ((results.find? (·.1)).map (·.2)).getD (fallbackPrimary event baselineRun)
  let secondary := (results.filter fun r => !r.1).map (·.2)
  { baselineId := baselineRun.id
    baselineVersion := baselineRun.algorithmVersion
    evaluationMode := evaluationModeOf event baselineRun
    primary := primary
    secondary := secondary
    impact := some (ImpactCalculator.calculateImpact event.eventType (primary :: secondary)
      (some baselineRun.algorithmVersion)) }

/-! ## Populations -/

/-- the population a metric is ranked in -/
def population (metric : BaselineMetric) : ℕ :=
  match exactRank exactRanks minSampleSize metric with
  | some (_, _, pop) => pop
  | none => ((distributionOf event distributions metric).map (·.sampleCount)).getD 0

variable {event distributions exactRanks minSampleSize}

theorem rate_populationSize (d : BaselineMetricDefinition) (val : MetricValue) :
    (rate event distributions exactRanks minSampleSize d val).populationSize =
      population event distributions exactRanks minSampleSize d.metric := by
  unfold rate population
  cases exactRank exactRanks minSampleSize d.metric with
  | some rank => rfl
  | none =>
    cases distributionOf event distributions d.metric with
    | some dist => rfl
    | none => rfl

/-- only a small population is insufficient -/
theorem fromPercentile_eq_insufficient (p : ℚ) (pop : ℕ) :
    RarityBand.fromPercentile p pop minSampleSize = .insufficientData ↔ pop < minSampleSize := by
  unfold RarityBand.fromPercentile
  split_ifs with hpop <;> simp [hpop]

theorem isSome_ite_insufficient (p : ℚ) (pop : ℕ) :
    (if RarityBand.fromPercentile p pop minSampleSize = .insufficientData then none else some p).isSome ↔
      minSampleSize ≤ pop := by
  rw [← not_lt, ← fromPercentile_eq_insufficient p pop]
  split_ifs with h <;> simp [h]

/-- **A metric has a percentile** from the configured minimum on. -/
theorem rate_percentile (d : BaselineMetricDefinition) (val : MetricValue)
    (h : 0 < population event distributions exactRanks minSampleSize d.metric) :
    (rate event distributions exactRanks minSampleSize d val).percentile.isSome ↔
      minSampleSize ≤ population event distributions exactRanks minSampleSize d.metric := by
  unfold rate population at *
  cases hrank : exactRank exactRanks minSampleSize d.metric with
  | some rank => exact isSome_ite_insufficient rank.1 rank.2.2
  | none =>
    rw [hrank] at h
    cases hdist : distributionOf event distributions d.metric with
    | some dist => exact isSome_ite_insufficient _ dist.sampleCount
    | none =>
      rw [hdist] at h
      exact absurd h (lt_irrefl 0)

/-! ## The results that are scored -/

variable {baselineRun : BaselineRun}

/-- the results of the metrics that the event has -/
def resultsOf (event : ChainEvent) (baselineRun : BaselineRun) (distributions : List BaselineDistribution)
    (exactRanks : BaselineMetric → Option (ℚ × ℕ × ℕ)) (minSampleSize : ℕ) (defs : List BaselineMetricDefinition) :
    List EventRarityResult :=
  defs.filterMap fun d => (extractMetric event d.metric).map (resultOf event baselineRun distributions exactRanks
    minSampleSize d)

/-- one type of result among all, and which it is -/
theorem evaluated_eq {defs : List BaselineMetricDefinition} {b : Bool} (h : ∀ d ∈ defs, d.isPrimary = b) :
    evaluated event baselineRun distributions exactRanks minSampleSize defs =
      (resultsOf event baselineRun distributions exactRanks minSampleSize defs).map fun r => (b, r) := by
  rw [evaluated, resultsOf, List.map_filterMap]
  apply List.filterMap_congr
  intro d hd
  rw [Option.map_map, h d hd]
  rfl

/-- a metric of its own is looked up as what it gives -/
theorem find_resultsOf {defs : List BaselineMetricDefinition} (hnodup : (defs.map (·.metric)).Nodup)
    {d : BaselineMetricDefinition} (hd : d ∈ defs) :
    (resultsOf event baselineRun distributions exactRanks minSampleSize defs).find? (fun r => r.metric = d.metric) =
      (extractMetric event d.metric).map (resultOf event baselineRun distributions exactRanks minSampleSize d) := by
  induction defs with
  | nil => cases hd
  | cons d' defs ih =>
    obtain ⟨hnot, hnodup⟩ := List.nodup_cons.1 hnodup
    rw [resultsOf]
    rcases List.mem_cons.1 hd with rfl | hd
    · cases hval : extractMetric event d.metric with
      | some val =>
        rw [List.filterMap_cons_some (by rw [hval]; rfl), List.find?_cons_of_pos (by simp [resultOf])]
        rfl
      | none =>
        rw [List.filterMap_cons_none (by rw [hval]; rfl), List.find?_eq_none.2 ?_]
        · rfl
        · intro r hr
          obtain ⟨d', hd', hr⟩ := List.mem_filterMap.1 hr
          obtain ⟨val, -, rfl⟩ := Option.map_eq_some_iff.1 hr
          rw [decide_eq_true_eq]
          exact fun heq => hnot (List.mem_map.2 ⟨d', hd', heq⟩)
    · have hne : d'.metric ≠ d.metric := fun heq => hnot (List.mem_map.2 ⟨d, hd, heq.symm⟩)
      cases hval : extractMetric event d'.metric with
      | some val =>
        rw [List.filterMap_cons_some (by rw [hval]; rfl), List.find?_cons_of_neg (by simp [resultOf, hne])]
        exact ih hnodup hd
      | none =>
        rw [List.filterMap_cons_none (by rw [hval]; rfl)]
        exact ih hnodup hd

end

end BaselineEngine

namespace MetricRegistry

/-- the primary metric is the first one registered -/
theorem primary_first (eventType : EventType) : metricsForEventType eventType = [] ∨
    ∃ d ds, metricsForEventType eventType = d :: ds ∧ d.isPrimary = true ∧ ∀ d' ∈ ds, d'.isPrimary = false := by
  cases eventType
  all_goals first
    | exact .inl rfl
    | exact .inr ⟨_, _, rfl, rfl, by decide⟩

/-- a model weighs the metrics registered for the type -/
theorem perm_modelOf (eventType : EventType) :
    ((ImpactCalculator.modelOf eventType).components.map (·.metric)).Perm
      ((metricsForEventType eventType).map (·.metric)) := by
  cases eventType <;> decide

/-- the component of a registered metric -/
theorem exists_component {eventType : EventType} {d : BaselineMetricDefinition} (hd : d ∈ metricsForEventType eventType) :
    ∃ cd ∈ (ImpactCalculator.modelOf eventType).components, cd.metric = d.metric :=
  List.mem_map.1 ((perm_modelOf eventType).mem_iff.2 (List.mem_map_of_mem hd))

end MetricRegistry

namespace BaselineEngine

open EventMetricExtractor MetricRegistry ImpactCalculator

/-! ## Evidence -/

section

variable (event : ChainEvent) (baselineRun : BaselineRun) (distributions : List BaselineDistribution)
  (exactRanks : BaselineMetric → Option (ℚ × ℕ × ℕ)) (minSampleSize : ℕ)

/-- what the score is computed from -/
def forImpact : List EventRarityResult :=
  let context := evaluateEventRarityWithExactRanks event baselineRun distributions exactRanks minSampleSize
  context.primary :: context.secondary

/-- an event with a score that counts a metric without a percentile: the primary metric and half of all are there, every
population reaches the default minimum, and one stays below the configured one -/
structure ShortOfMinimum : Prop where
  primary : ∃ d ∈ metricsForEventType event.eventType, d.isPrimary = true ∧ (extractMetric event d.metric).isSome
  half : (metricsForEventType event.eventType).length ≤
    2 * ((metricsForEventType event.eventType).filter fun d => (extractMetric event d.metric).isSome).length
  default : ∀ d ∈ metricsForEventType event.eventType, (extractMetric event d.metric).isSome →
    defaultMinSampleSize ≤ population event distributions exactRanks minSampleSize d.metric
  short : ∃ d ∈ metricsForEventType event.eventType, (extractMetric event d.metric).isSome ∧
    population event distributions exactRanks minSampleSize d.metric < minSampleSize

/-- a shown score counts only metrics of the event that have a percentile, and so the minimal population -/
def ScoredOnEvidence : Prop :=
  ∀ impact score,
    (evaluateEventRarityWithExactRanks event baselineRun distributions exactRanks minSampleSize).impact = some impact →
    impact.totalScore = some score →
    ∀ c ∈ impact.components,
      (extractMetric event c.metric).isSome ∧ c.percentile.isSome ∧ minSampleSize ≤ c.populationSize

/-- the same of the components that are counted -/
theorem scoredOnEvidence_iff :
    ScoredOnEvidence event baselineRun distributions exactRanks minSampleSize ↔
      (Shown event.eventType (forImpact event baselineRun distributions exactRanks minSampleSize) →
        ∀ c ∈ scored event.eventType (forImpact event baselineRun distributions exactRanks minSampleSize),
          (extractMetric event c.metric).isSome ∧ c.percentile.isSome ∧ minSampleSize ≤ c.populationSize) := by
  have himpact : (evaluateEventRarityWithExactRanks event baselineRun distributions exactRanks minSampleSize).impact =
      some (calculateImpact event.eventType (forImpact event baselineRun distributions exactRanks minSampleSize)
        (some baselineRun.algorithmVersion)) := rfl
  constructor
  · intro h hshown c hc
    have hscore : (calculateImpact event.eventType (forImpact event baselineRun distributions exactRanks minSampleSize)
        (some baselineRun.algorithmVersion)).totalScore = some (totalOf (scored event.eventType
          (forImpact event baselineRun distributions exactRanks minSampleSize))) := by
      rw [totalScore_calculateImpact, if_pos hshown]
    refine h _ _ himpact hscore c ?_
    rwa [components_calculateImpact]
  · intro h impact score hsome hscore
    obtain rfl := Option.some.inj (himpact.symm.trans hsome)
    rw [totalScore_calculateImpact] at hscore
    split_ifs at hscore with hshown
    rw [components_calculateImpact]
    exact h hshown

variable {event}

/-- with the primary metric there, every result is one of a metric of the event -/
theorem forImpact_of_primary {d : BaselineMetricDefinition} {ds : List BaselineMetricDefinition}
    (hdefs : metricsForEventType event.eventType = d :: ds) (hprimary : d.isPrimary = true)
    (hsecondary : ∀ d' ∈ ds, d'.isPrimary = false) {val : MetricValue} (hval : extractMetric event d.metric = some val) :
    forImpact event baselineRun distributions exactRanks minSampleSize =
      resultsOf event baselineRun distributions exactRanks minSampleSize (d :: ds) := by
  have hhead : evaluated event baselineRun distributions exactRanks minSampleSize (d :: ds) =
      (true, resultOf event baselineRun distributions exactRanks minSampleSize d val) ::
        evaluated event baselineRun distributions exactRanks minSampleSize ds := by
    rw [evaluated, List.filterMap_cons_some (by rw [hval, Option.map_some, hprimary]), evaluated]
  have hfilter : ∀ rs : List EventRarityResult,
      ((rs.map fun r => (false, r)).filter fun r => !r.1).map (·.2) = rs := by
    intro rs
    rw [List.filter_eq_self.2 (by simp), List.map_map, Function.comp_def, List.map_id']
  simp only [forImpact, evaluateEventRarityWithExactRanks, hdefs, hhead, List.find?_cons_of_pos, Option.map_some,
    Option.getD_some]
  rw [List.filter_cons_of_neg (by simp), evaluated_eq hsecondary, hfilter, resultsOf, resultsOf,
    List.filterMap_cons_some (by rw [hval]; rfl)]

/-- without it, a result without a population stands in its place -/
theorem forImpact_of_missing {d : BaselineMetricDefinition} {ds : List BaselineMetricDefinition}
    (hdefs : metricsForEventType event.eventType = d :: ds) (hprimary : d.isPrimary = true)
    (hsecondary : ∀ d' ∈ ds, d'.isPrimary = false) (hval : extractMetric event d.metric = none) :
    (forImpact event baselineRun distributions exactRanks minSampleSize).find? (fun r => r.metric = d.metric) =
      some (fallbackPrimary event baselineRun) := by
  have hmetric : (fallbackPrimary event baselineRun).metric = d.metric := by
    rw [fallbackPrimary, primaryMetric, hdefs, List.find?_cons_of_pos hprimary]
    rfl
  have hnone : (evaluated event baselineRun distributions exactRanks minSampleSize (d :: ds)).find? (·.1) = none := by
    rw [evaluated, List.filterMap_cons_none (by rw [hval]; rfl), ← evaluated, evaluated_eq hsecondary]
    simp
  simp only [forImpact, evaluateEventRarityWithExactRanks, hdefs, hnone, Option.map_none, Option.getD_none]
  rw [List.find?_cons_of_pos (by simpa using hmetric)]

/-- a score needs the primary metric -/
theorem not_shown_of_missing {d : BaselineMetricDefinition} {ds : List BaselineMetricDefinition}
    (hdefs : metricsForEventType event.eventType = d :: ds) (hprimary : d.isPrimary = true)
    (hsecondary : ∀ d' ∈ ds, d'.isPrimary = false) (hval : extractMetric event d.metric = none) :
    ¬ Shown event.eventType (forImpact event baselineRun distributions exactRanks minSampleSize) := by
  intro hshown
  have hmem : d ∈ metricsForEventType event.eventType := hdefs ▸ List.mem_cons_self
  obtain ⟨cd, hcd, hmetric⟩ := exists_component hmem
  have hfind := forImpact_of_missing baselineRun distributions exactRanks minSampleSize hdefs hprimary hsecondary hval
  have hcomponent : component cd (fallbackPrimary event baselineRun) ∈
      scored event.eventType (forImpact event baselineRun distributions exactRanks minSampleSize) :=
    List.mem_filterMap.2 ⟨cd, hcd, by rw [hmetric, hfind]; rfl⟩
  exact absurd (hshown.1 _ hcomponent) (by decide : ¬ defaultMinSampleSize ≤ 0)

/-- what is counted with the primary metric there -/
theorem mem_scored_resultsOf {c : ImpactComponent} :
    c ∈ scored event.eventType (resultsOf event baselineRun distributions exactRanks minSampleSize
        (metricsForEventType event.eventType)) ↔
      ∃ cd ∈ (modelOf event.eventType).components, ∃ d ∈ metricsForEventType event.eventType, ∃ val,
        d.metric = cd.metric ∧ extractMetric event d.metric = some val ∧
          c = component cd (resultOf event baselineRun distributions exactRanks minSampleSize d val) := by
  have hfind := fun d => @find_resultsOf event distributions exactRanks minSampleSize baselineRun
    (metricsForEventType event.eventType) (nodup_metrics event.eventType) d
  constructor
  · intro hc
    obtain ⟨cd, hcd, hc⟩ := List.mem_filterMap.1 hc
    have hmem : cd.metric ∈ (metricsForEventType event.eventType).map (·.metric) :=
      (perm_modelOf event.eventType).mem_iff.1 (List.mem_map_of_mem hcd)
    obtain ⟨d, hd, hmetric⟩ := List.mem_map.1 hmem
    rw [← hmetric, hfind d hd] at hc
    obtain ⟨res, hres, rfl⟩ := Option.map_eq_some_iff.1 hc
    obtain ⟨val, hval, rfl⟩ := Option.map_eq_some_iff.1 hres
    exact ⟨cd, hcd, d, hd, val, hmetric, hval, rfl⟩
  · rintro ⟨cd, hcd, d, hd, val, hmetric, hval, rfl⟩
    refine List.mem_filterMap.2 ⟨cd, hcd, ?_⟩
    rw [← hmetric, hfind d hd, hval]
    rfl

/-- how many are counted with the primary metric there -/
theorem length_scored_resultsOf :
    (scored event.eventType (resultsOf event baselineRun distributions exactRanks minSampleSize
        (metricsForEventType event.eventType))).length =
      ((metricsForEventType event.eventType).filter fun d => (extractMetric event d.metric).isSome).length := by
  set results := resultsOf event baselineRun distributions exactRanks minSampleSize (metricsForEventType event.eventType)
    with hresults
  have hmap := @map_available results BaselineMetric (·.metric) (·.metric) (fun _ _ => rfl)
    (modelOf event.eventType).components
  have hlength := congrArg List.length hmap
  rw [List.length_map, List.length_map] at hlength
  calc (scored event.eventType results).length
      = ((modelOf event.eventType).components.filter fun cd => has results cd.metric).length := hlength
    _ = ((modelOf event.eventType).components.map (·.metric)).countP (has results) := by
        rw [List.countP_map, List.countP_eq_length_filter, Function.comp_def]
    _ = ((metricsForEventType event.eventType).map (·.metric)).countP (has results) :=
        (perm_modelOf event.eventType).countP_eq _
    _ = (metricsForEventType event.eventType).countP fun d => (extractMetric event d.metric).isSome := by
        rw [List.countP_map]
        apply List.countP_congr
        intro d hd
        rw [Function.comp_apply, has, hresults, find_resultsOf (nodup_metrics event.eventType) hd, Option.isSome_map]
    _ = ((metricsForEventType event.eventType).filter fun d => (extractMetric event d.metric).isSome).length :=
        List.countP_eq_length_filter

/-- **When a score is shown** with the primary metric there: half of the metrics, all with the default minimum -/
theorem shown_resultsOf_iff (hne : metricsForEventType event.eventType ≠ []) :
    Shown event.eventType (resultsOf event baselineRun distributions exactRanks minSampleSize
        (metricsForEventType event.eventType)) ↔
      (metricsForEventType event.eventType).length ≤
        2 * ((metricsForEventType event.eventType).filter fun d => (extractMetric event d.metric).isSome).length ∧
      ∀ d ∈ metricsForEventType event.eventType, (extractMetric event d.metric).isSome →
        defaultMinSampleSize ≤ population event distributions exactRanks minSampleSize d.metric := by
  have hlength := @length_scored_resultsOf event baselineRun distributions exactRanks minSampleSize
  have hexpected : (modelOf event.eventType).components.length = (metricsForEventType event.eventType).length := by
    simpa using (perm_modelOf event.eventType).length_eq
  have hpos : 0 < (metricsForEventType event.eventType).length := List.length_pos_iff.2 hne
  have hhalf : ∀ a b : ℕ, 0 < b → ((50 : ℚ) / 100 ≤ (a : ℚ) / b ↔ b ≤ 2 * a) := by
    intro a b hb
    have hb : (0 : ℚ) < b := by exact_mod_cast hb
    rw [div_le_div_iff₀ (by norm_num) hb, ← Nat.cast_le (α := ℚ)]
    push_cast
    constructor <;> intro h <;> linarith
  rw [Shown, hlength, hexpected, hhalf _ _ hpos]
  constructor
  · rintro ⟨hpopulations, -, hle⟩
    refine ⟨hle, ?_⟩
    intro d hd hextracted
    obtain ⟨val, hval⟩ := Option.isSome_iff_exists.1 hextracted
    obtain ⟨cd, hcd, hmetric⟩ := exists_component hd
    have hpopulation := hpopulations _ (mem_scored_resultsOf baselineRun distributions exactRanks minSampleSize |>.2
      ⟨cd, hcd, d, hd, val, hmetric.symm, hval, rfl⟩)
    exact hpopulation.trans_eq (rate_populationSize d val)
  · rintro ⟨hle, hpopulations⟩
    refine ⟨?_, ?_, hle⟩
    · intro c hc
      obtain ⟨cd, -, d, hd, val, -, hval, rfl⟩ :=
        (mem_scored_resultsOf baselineRun distributions exactRanks minSampleSize).1 hc
      exact (hpopulations d hd (by rw [hval]; rfl)).trans_eq (rate_populationSize d val).symm
    · intro hnil
      rw [hnil, List.length_nil] at hlength
      omega

/-- **Evidence for a shown score**: no metric without a percentile is counted, except short of the minimum. -/
theorem score_on_evidence_iff (event : ChainEvent) :
    ScoredOnEvidence event baselineRun distributions exactRanks minSampleSize ↔
      ¬ ShortOfMinimum event distributions exactRanks minSampleSize := by
  rw [scoredOnEvidence_iff]
  rcases primary_first event.eventType with hnil | ⟨d, ds, hdefs, hprimary, hsecondary⟩
  · -- nothing is registered, so nothing is scored
    have hempty : (modelOf event.eventType).components = [] := by
      simpa [hnil] using perm_modelOf event.eventType
    constructor
    · intro _ hshort
      obtain ⟨d, hd, -⟩ := hshort.primary
      rw [hnil] at hd
      cases hd
    · intro _ _ c hc
      rw [scored, hempty] at hc
      cases hc
  · have honly : ∀ d' ∈ metricsForEventType event.eventType, d'.isPrimary = true → d' = d := by
      intro d' hd' hprimary'
      rw [hdefs] at hd'
      rcases List.mem_cons.1 hd' with rfl | hd'
      · rfl
      · rw [hsecondary d' hd'] at hprimary'
        cases hprimary'
    cases hval : extractMetric event d.metric with
    | none =>
      have hnot := not_shown_of_missing baselineRun distributions exactRanks minSampleSize hdefs hprimary hsecondary hval
      constructor
      · intro _ hshort
        obtain ⟨d', hd', hprimary', hextracted⟩ := hshort.primary
        rw [honly d' hd' hprimary', hval] at hextracted
        cases hextracted
      · intro _ hshown
        exact absurd hshown hnot
    | some val =>
      have hmem : d ∈ metricsForEventType event.eventType := hdefs ▸ List.mem_cons_self
      have hne : metricsForEventType event.eventType ≠ [] := List.ne_nil_of_mem hmem
      rw [forImpact_of_primary baselineRun distributions exactRanks minSampleSize hdefs hprimary hsecondary hval, ← hdefs,
        shown_resultsOf_iff baselineRun distributions exactRanks minSampleSize hne]
      constructor
      · intro h hshort
        obtain ⟨d', hd', hextracted, hlt⟩ := hshort.short
        obtain ⟨val', hval'⟩ := Option.isSome_iff_exists.1 hextracted
        obtain ⟨cd, hcd, hmetric⟩ := exists_component hd'
        have hpopulation := (h ⟨hshort.half, hshort.default⟩ _
          ((mem_scored_resultsOf baselineRun distributions exactRanks minSampleSize).2
            ⟨cd, hcd, d', hd', val', hmetric.symm, hval', rfl⟩)).2.2
        exact absurd (hpopulation.trans_eq (rate_populationSize d' val')) (Nat.not_le.2 hlt)
      · rintro hnot ⟨hhalf, hdefault⟩ c hc
        obtain ⟨cd, -, d', hd', val', hmetric, hval', rfl⟩ :=
          (mem_scored_resultsOf baselineRun distributions exactRanks minSampleSize).1 hc
        have hextracted : (extractMetric event d'.metric).isSome := by rw [hval']; rfl
        have hpopulation : minSampleSize ≤ population event distributions exactRanks minSampleSize d'.metric := by
          by_contra hlt
          exact hnot ⟨⟨d, hmem, hprimary, by rw [hval]; rfl⟩, hhalf, hdefault, d', hd', hextracted, Nat.not_le.1 hlt⟩
        have hpos : 0 < population event distributions exactRanks minSampleSize d'.metric :=
          (by decide : 0 < defaultMinSampleSize).trans_le (hdefault d' hd' hextracted)
        refine ⟨?_, (rate_percentile d' val' hpos).2 hpopulation, ?_⟩
        · rw [hmetric] at hextracted
          exact hextracted
        · exact hpopulation.trans_eq (rate_populationSize d' val').symm

/-- nothing is short of a minimum up to the default one -/
theorem not_shortOfMinimum (h : minSampleSize ≤ defaultMinSampleSize) :
    ¬ ShortOfMinimum event distributions exactRanks minSampleSize := by
  intro hshort
  obtain ⟨d, hd, hextracted, hlt⟩ := hshort.short
  exact absurd (hshort.default d hd hextracted) (Nat.not_le.2 (hlt.trans_le h))

end

/-- a block after two hours -/
def slowBlock : ChainEvent :=
  { id := 1, eventType := .longBlockInterval, severity := .medium, confidence := .verifiedOnChain, title := "slow block",
    description := "", eventTime := 0, firstObservedAt := 0, detectedAt := 0, blockHeight := some 5,
    blockHash := some "block5", txid := none, source := none, witnesses := [], observationMode := .live,
    replayJobId := none, metadata := .object [("interval_seconds", .nat 7200)], observations := [] }

/-- a run up to height 1000 -/
def firstRun : BaselineRun := ⟨7, 1000, "v1"⟩

/-- 150 intervals -/
def intervals : BaselineDistribution where
  eventType := .longBlockInterval
  metric := .intervalSeconds
  unit := .seconds
  sampleCount := 150
  candidateCount := 150
  missingCount := 0
  coverageRatio := 1
  minimum := .u64 3600
  maximum := .u64 9000
  mean := 5000
  p50 := .u64 5000
  p75 := .u64 6000
  p90 := .u64 7000
  p95 := .u64 7500
  p99 := .u64 8000
  p999 := .u64 9000
  quality := .moderate

/-- with 150 of the required 200 samples, a score of 0 is shown that counts a metric without a percentile -/
theorem score_without_percentile : ¬ ScoredOnEvidence slowBlock firstRun [intervals] (fun _ => none) 200 := by
  intro h
  have hcounted := h _ 0 rfl (by decide +kernel)
    { componentName := "Network interval rarity"
      metric := .intervalSeconds
      rawValue := "7200"
      percentile := none
      weight := 100
      pointsAwarded := 0
      populationSize := 150 } (by decide +kernel)
  exact absurd hcounted.2.1 (by decide)

end BaselineEngine

end ObsChain
