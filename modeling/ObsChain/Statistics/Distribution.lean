/-
Baseline distributions (`baseline.rs` of `obschain-intelligence`): discrete quantiles of the values a metric takes over a
set of canonical events.

A float is a rational. The conversion of a metric value rounds it as the code's casts do, and what is computed from floats
is exact. Left out: the ids, the run id and the creation time of a distribution, and `samples_json`, which is always absent.

`sampleCount_generateDistributions`: the sample count reported for a type and a metric is the number of events of the
type on which the extractor finds the metric.
-/
import Mathlib.Tactic
import ObsChain.Core.Binary64
import ObsChain.Domain.Baseline

namespace ObsChain

open EventMetricExtractor

inductive BaselineQuality where
  | high
  | moderate
  | degraded
  | insufficient
deriving DecidableEq, Repr

def BaselineQuality.evaluate (sampleCount : ℕ) (coverageRatio : ℚ) : BaselineQuality :=
  if sampleCount ≥ 500 ∧ coverageRatio ≥ 95 / 100 then .high
  else if sampleCount ≥ 100 ∧ coverageRatio ≥ 80 / 100 then .moderate
  else if sampleCount ≥ 30 ∧ coverageRatio ≥ 50 / 100 then .degraded
  else .insufficient

/-- the value as a float: the cast of the number is rounded, and so is the quotient -/
def MetricValue.toF64 : MetricValue → ℚ
  | .u64 v => Binary64.round v
  | .u128 v => Binary64.round v
  | .basisPoints v => Binary64.round (Binary64.round v / 100)
  | .decimalScaled value scale => Binary64.round (Binary64.round value / 10 ^ scale)

structure QuantileDistribution where
  sampleCount : ℕ
  candidateCount : ℕ
  missingCount : ℕ
  coverageRatio : ℚ
  minimum : MetricValue
  maximum : MetricValue
  mean : ℚ
  p50 : MetricValue
  p75 : MetricValue
  p90 : MetricValue
  p95 : MetricValue
  p99 : MetricValue
  p999 : MetricValue
  quality : BaselineQuality
deriving DecidableEq, Repr

namespace BaselineCalculator

/-- the sample at rank `ceil(q * n)`, kept within the list; `first` stands for an index that cannot occur -/
def quantileAt (sorted : List MetricValue) (first : MetricValue) (q : ℚ) : MetricValue :=
  let rank := ⌈q * sorted.length⌉.toNat
  let idx := if rank = 0 then 0 else min (rank - 1) (sorted.length - 1)
  (sorted[idx]?).getD first

def computeDistribution (values : List MetricValue) (candidateCount : ℕ) : Option QuantileDistribution :=
  match values.insertionSort (· ≤ ·) with
  | [] => none
  | first :: rest =>
    let sorted := first :: rest
    let n := sorted.length
    let coverageRatio : ℚ := if candidateCount > 0 then n / candidateCount else 1
    some {
      sampleCount := n
      candidateCount := candidateCount
      missingCount := candidateCount - n
      coverageRatio := coverageRatio
      minimum := first
      maximum := (sorted[n - 1]?).getD first
      mean := (sorted.map MetricValue.toF64).sum / n
      p50 := quantileAt sorted first (50 / 100)
      p75 := quantileAt sorted first (75 / 100)
      p90 := quantileAt sorted first (90 / 100)
      p95 := quantileAt sorted first (95 / 100)
      p99 := quantileAt sorted first (99 / 100)
      p999 := quantileAt sorted first (999 / 1000)
      quality := BaselineQuality.evaluate n coverageRatio }

/-- a distribution counts every value -/
theorem computeDistribution_sampleCount (values : List MetricValue) (candidateCount : ℕ) :
    (computeDistribution values candidateCount).elim 0 (·.sampleCount) = values.length := by
  have hlen := List.length_insertionSort (· ≤ ·) values
  unfold computeDistribution
  cases hs : values.insertionSort (· ≤ ·) with
  | nil =>
    rw [hs] at hlen
    exact hlen
  | cons first rest =>
    rw [hs] at hlen
    exact hlen

end BaselineCalculator

structure BaselineDistribution extends QuantileDistribution where
  eventType : EventType
  metric : BaselineMetric
  unit : MetricUnit
deriving DecidableEq, Repr

namespace BaselineEngine

/-- the values of a metric over the events of a type -/
def samples (events : List ChainEvent) (eventType : EventType) (metric : BaselineMetric) : List MetricValue :=
  (events.filter fun e => e.eventType = eventType).filterMap fun e => extractMetric e metric

def distributionsOfType (events : List ChainEvent) (eventType : EventType) : List BaselineDistribution :=
  let candidateCount := (events.filter fun e => e.eventType = eventType).length
  (MetricRegistry.metricsForEventType eventType).filterMap fun d =>
    (BaselineCalculator.computeDistribution (samples events eventType d.metric) candidateCount).map fun q =>
      { q with eventType := eventType, metric := d.metric, unit := d.unit }

def generateDistributions (events : List ChainEvent) (targetEventTypes : Option (List EventType)) :
    List BaselineDistribution :=
  (targetEventTypes.getD MetricRegistry.supportedEventTypes).flatMap (distributionsOfType events)

/-- the sample count reported for a type and a metric, 0 when there is no distribution -/
def sampleCount (distributions : List BaselineDistribution) (eventType : EventType) (metric : BaselineMetric) : ℕ :=
  (distributions.find? fun d => d.eventType = eventType ∧ d.metric = metric).elim 0 (·.sampleCount)

/-- of the distributions over definitions with distinct metrics, the one of a metric counts its samples -/
theorem elim_find_sampleCount {events : List ChainEvent} {eventType : EventType} {candidateCount : ℕ}
    {defs : List BaselineMetricDefinition} (hnodup : (defs.map (·.metric)).Nodup) (metric : BaselineMetric) :
    ((defs.filterMap fun d =>
        (BaselineCalculator.computeDistribution (samples events eventType d.metric) candidateCount).map fun q =>
          ({ q with eventType := eventType, metric := d.metric, unit := d.unit } : BaselineDistribution)).find?
      fun d => d.eventType = eventType ∧ d.metric = metric).elim 0 (·.sampleCount) =
      if metric ∈ defs.map (·.metric) then (samples events eventType metric).length else 0 := by
  induction defs with
  | nil => rfl
  | cons d defs ih =>
    rw [List.map_cons, List.nodup_cons] at hnodup
    obtain ⟨hnotMem, hrest⟩ := hnodup
    have ih := ih hrest
    have hcount := BaselineCalculator.computeDistribution_sampleCount (samples events eventType d.metric) candidateCount
    simp only [List.map_cons, List.mem_cons]
    by_cases hm : metric = d.metric
    · subst hm
      rw [if_neg hnotMem] at ih
      rw [if_pos (Or.inl rfl)]
      cases hq : BaselineCalculator.computeDistribution (samples events eventType d.metric) candidateCount with
      | none =>
        rw [List.filterMap_cons_none (by simp [hq]), ih, ← hcount, hq]
        rfl
      | some q =>
        rw [List.filterMap_cons_some (by rw [hq]; rfl), List.find?_cons_of_pos (by simp), ← hcount, hq]
        rfl
    · simp only [hm, false_or]
      cases hq : BaselineCalculator.computeDistribution (samples events eventType d.metric) candidateCount with
      | none => rw [List.filterMap_cons_none (by simp [hq]), ih]
      | some q =>
        rw [List.filterMap_cons_some (by rw [hq]; rfl), List.find?_cons_of_neg (by simp [Ne.symm hm]), ih]

/-- a type's own distributions count its samples -/
theorem sampleCount_distributionsOfType (events : List ChainEvent) (eventType : EventType) (metric : BaselineMetric) :
    sampleCount (distributionsOfType events eventType) eventType metric = (samples events eventType metric).length := by
  unfold sampleCount distributionsOfType
  rw [elim_find_sampleCount (MetricRegistry.nodup_metrics eventType)]
  split_ifs with hmem
  · rfl
  · -- a metric that is not registered is not extracted
    symm
    rw [List.length_eq_zero_iff, samples, List.filterMap_eq_nil_iff]
    intro e he
    have htype : e.eventType = eventType := by simpa using (List.mem_filter.1 he).2
    cases hval : extractMetric e metric with
    | none => rfl
    | some val => exact absurd (htype ▸ mem_registry_of_extract hval) hmem

/-- the distributions of another type do not answer for this one -/
theorem find_distributionsOfType_of_ne {events : List ChainEvent} {eventType other : EventType} (hne : other ≠ eventType)
    (metric : BaselineMetric) :
    (distributionsOfType events other).find? (fun d => d.eventType = eventType ∧ d.metric = metric) = none := by
  rw [List.find?_eq_none]
  intro d hd
  obtain ⟨m, -, hm⟩ := List.mem_filterMap.1 hd
  cases hq : BaselineCalculator.computeDistribution (samples events other m.metric)
      (events.filter fun e => e.eventType = other).length with
  | none => simp [hq] at hm
  | some q =>
    simp only [hq, Option.map_some, Option.some.injEq] at hm
    subst hm
    simp [hne]

/-- a list of distinct types: the distributions of one of them answer for it -/
theorem find_flatMap_distributions {events : List ChainEvent} {eventType : EventType} {types : List EventType}
    (hmem : eventType ∈ types) (metric : BaselineMetric) :
    (types.flatMap (distributionsOfType events)).find? (fun d => d.eventType = eventType ∧ d.metric = metric) =
      (distributionsOfType events eventType).find? (fun d => d.eventType = eventType ∧ d.metric = metric) := by
  induction types with
  | nil => exact absurd hmem List.not_mem_nil
  | cons t types ih =>
    rw [List.flatMap_cons, List.find?_append]
    by_cases ht : t = eventType
    · subst ht
      cases hfind : (distributionsOfType events t).find? (fun d => d.eventType = t ∧ d.metric = metric) with
      | some d => rfl
      | none =>
        by_cases hrest : t ∈ types
        · rw [ih hrest, hfind]
          rfl
        · rw [Option.none_or, List.find?_flatMap, List.findSome?_eq_none_iff]
          intro t' ht'
          apply find_distributionsOfType_of_ne
          intro heq
          exact hrest (heq ▸ ht')
    · rw [find_distributionsOfType_of_ne ht metric, Option.none_or]
      exact ih ((List.mem_cons.1 hmem).resolve_left (Ne.symm ht))

theorem metricsForEventType_eq_nil {eventType : EventType} (h : eventType ∉ MetricRegistry.supportedEventTypes) :
    MetricRegistry.metricsForEventType eventType = [] := by
  cases eventType <;> first | rfl | exact absurd (by decide) h

/-- **The reported sample count** of a type and a metric is the number of its samples. -/
theorem sampleCount_generateDistributions (events : List ChainEvent) (eventType : EventType) (metric : BaselineMetric) :
    sampleCount (generateDistributions events none) eventType metric = (samples events eventType metric).length := by
  rw [← sampleCount_distributionsOfType, sampleCount, sampleCount, generateDistributions, Option.getD_none]
  by_cases hsupported : eventType ∈ MetricRegistry.supportedEventTypes
  · rw [find_flatMap_distributions hsupported]
  · -- neither has a distribution of the type
    have hnone : (MetricRegistry.supportedEventTypes.flatMap (distributionsOfType events)).find?
        (fun d => d.eventType = eventType ∧ d.metric = metric) = none := by
      rw [List.find?_flatMap, List.findSome?_eq_none_iff]
      intro t ht
      apply find_distributionsOfType_of_ne
      intro heq
      exact hsupported (heq ▸ ht)
    rw [hnone, distributionsOfType, metricsForEventType_eq_nil hsupported]
    rfl

end BaselineEngine

end ObsChain
