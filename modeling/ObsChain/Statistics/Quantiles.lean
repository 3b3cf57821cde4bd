/-
Distributions as empirical quantiles (`compute_distribution` and `generate_distributions` of `baseline.rs`,
`HISTORICAL_BASELINES.md`).

Every stored quantile is the sample at rank `ceil(q * n)` of the sorted samples. `IsQuantile` is the same thing by counting:
at least `q * n` samples are not above it and fewer than `q * n` are below it, whatever the ties.

- `isQuantile_quantileAt`: the index arithmetic, for every rank in (0, 1] and every count of samples.
- `computeDistribution_perm`: a distribution is a function of the multiset of its samples.
- `distributions_are_quantiles`: what every distribution of a list of events is.
-/
import Mathlib.Tactic
import ObsChain.Core.OrderStatistics
import ObsChain.Statistics.Distribution

namespace ObsChain

open OrderStatistics EventMetricExtractor

namespace QuantileDistribution

/-- the ranks, and the value stored for each -/
def quantiles (d : QuantileDistribution) : List (ℚ × MetricValue) :=
  [(1 / 2, d.p50), (3 / 4, d.p75), (9 / 10, d.p90), (19 / 20, d.p95), (99 / 100, d.p99), (999 / 1000, d.p999)]

/-- the extremes, the quantiles and the counts of some samples -/
structure Describes (d : QuantileDistribution) (samples : List MetricValue) : Prop where
  minimum : IsLeast {v | v ∈ samples} d.minimum
  maximum : IsGreatest {v | v ∈ samples} d.maximum
  quantile : ∀ p ∈ d.quantiles, IsQuantile samples p.1 p.2
  sampleCount : d.sampleCount = samples.length
  missingCount : d.missingCount = d.candidateCount - samples.length

/-- the extremes and the quantiles in ascending order -/
def Ordered (d : QuantileDistribution) : Prop :=
  d.minimum ≤ d.p50 ∧ d.p50 ≤ d.p75 ∧ d.p75 ≤ d.p90 ∧ d.p90 ≤ d.p95 ∧ d.p95 ≤ d.p99 ∧ d.p99 ≤ d.p999 ∧
    d.p999 ≤ d.maximum

theorem Describes.ordered {d : QuantileDistribution} {samples : List MetricValue} (h : d.Describes samples) :
    d.Ordered := by
  have h50 : IsQuantile samples (1 / 2) d.p50 := h.quantile (_, d.p50) (by simp [quantiles])
  have h75 : IsQuantile samples (3 / 4) d.p75 := h.quantile (_, d.p75) (by simp [quantiles])
  have h90 : IsQuantile samples (9 / 10) d.p90 := h.quantile (_, d.p90) (by simp [quantiles])
  have h95 : IsQuantile samples (19 / 20) d.p95 := h.quantile (_, d.p95) (by simp [quantiles])
  have h99 : IsQuantile samples (99 / 100) d.p99 := h.quantile (_, d.p99) (by simp [quantiles])
  have h999 : IsQuantile samples (999 / 1000) d.p999 := h.quantile (_, d.p999) (by simp [quantiles])
  exact ⟨h.minimum.2 h50.mem, h50.mono h75 (by norm_num), h75.mono h90 (by norm_num), h90.mono h95 (by norm_num),
    h95.mono h99 (by norm_num), h99.mono h999 (by norm_num), h.maximum.2 h999.mem⟩

end QuantileDistribution

namespace BaselineCalculator

/-- **The index of a quantile.** -/
theorem isQuantile_quantileAt {sorted : List MetricValue} (hs : sorted.SortedLE) (hne : 0 < sorted.length)
    (first : MetricValue) {q : ℚ} (hpos : 0 < q) (hle : q ≤ 1) : IsQuantile sorted q (quantileAt sorted first q) := by
  have hn : (0 : ℚ) < sorted.length := by exact_mod_cast hne
  have hceil : 0 < ⌈q * sorted.length⌉ := Int.ceil_pos.2 (mul_pos hpos hn)
  have hcap : ⌈q * sorted.length⌉ ≤ sorted.length := by
    rw [Int.ceil_le]
    push_cast
    nlinarith
  -- neither the clamp at zero nor the one at the end changes the index
  have hidx : quantileAt sorted first q = sorted.getD (⌈q * sorted.length⌉.toNat - 1) first := by
    unfold quantileAt
    dsimp only
    rw [if_neg (by omega), Nat.min_eq_left (by omega), List.getD_eq_getElem?_getD]
  rw [hidx, List.getD_eq_getElem?_getD, List.getElem?_eq_getElem (by omega), Option.getD_some]
  exact isQuantile_getElem hs (by omega) (by omega)

/-- **A computed distribution describes its samples.** -/
theorem describes_computeDistribution {values : List MetricValue} {candidateCount : ℕ} {d : QuantileDistribution}
    (h : computeDistribution values candidateCount = some d) : d.Describes values := by
  have hsorted := sortedLE_insertionSort values
  have hperm := List.perm_insertionSort (· ≤ ·) values
  unfold computeDistribution at h
  cases hs : values.insertionSort (· ≤ ·) with
  | nil =>
    rw [hs] at h
    cases h
  | cons first rest =>
    rw [hs] at h hsorted hperm
    cases h
    have hset : {v | v ∈ values} = {v | v ∈ first :: rest} := by
      ext v
      exact hperm.mem_iff.symm
    have hquantile : ∀ q : ℚ, 0 < q → q ≤ 1 → IsQuantile values q (quantileAt (first :: rest) first q) :=
      fun q hpos hle => (isQuantile_quantileAt hsorted (by simp) first hpos hle).perm hperm
    refine ⟨?_, ?_, ?_, hperm.length_eq, ?_⟩
    · rw [hset]
      exact isLeast_getElem_zero hsorted (by simp)
    · rw [hset]
      have hlast : (first :: rest).length - 1 < (first :: rest).length := by simp
      show IsGreatest _ (((first :: rest)[(first :: rest).length - 1]?).getD first)
      rw [List.getElem?_eq_getElem hlast, Option.getD_some]
      exact isGreatest_getElem_last hsorted hlast
    · intro p hp
      simp only [QuantileDistribution.quantiles, List.mem_cons, List.not_mem_nil, or_false] at hp
      rcases hp with rfl | rfl | rfl | rfl | rfl | rfl
      · convert hquantile (50 / 100) (by norm_num) (by norm_num) using 1; norm_num
      · convert hquantile (75 / 100) (by norm_num) (by norm_num) using 1; norm_num
      · convert hquantile (90 / 100) (by norm_num) (by norm_num) using 1; norm_num
      · convert hquantile (95 / 100) (by norm_num) (by norm_num) using 1; norm_num
      · exact hquantile (99 / 100) (by norm_num) (by norm_num)
      · exact hquantile (999 / 1000) (by norm_num) (by norm_num)
    · show candidateCount - (first :: rest).length = candidateCount - values.length
      rw [hperm.length_eq]

theorem computeDistribution_perm {values values' : List MetricValue} (h : values.Perm values') (candidateCount : ℕ) :
    computeDistribution values candidateCount = computeDistribution values' candidateCount := by
  unfold computeDistribution
  rw [insertionSort_perm h]

theorem candidateCount_computeDistribution {values : List MetricValue} {candidateCount : ℕ} {d : QuantileDistribution}
    (h : computeDistribution values candidateCount = some d) : d.candidateCount = candidateCount := by
  unfold computeDistribution at h
  cases hs : values.insertionSort (· ≤ ·) with
  | nil =>
    rw [hs] at h
    cases h
  | cons first rest =>
    rw [hs] at h
    cases h
    rfl

end BaselineCalculator

namespace BaselineEngine

/-- the events of a type -/
def candidates (events : List ChainEvent) (eventType : EventType) : ℕ :=
  (events.filter fun e => e.eventType = eventType).length

/-- a distribution is that of one type and metric -/
theorem mem_generateDistributions {events : List ChainEvent} {types : Option (List EventType)} {d : BaselineDistribution}
    (h : d ∈ generateDistributions events types) :
    BaselineCalculator.computeDistribution (samples events d.eventType d.metric) (candidates events d.eventType) =
      some d.toQuantileDistribution := by
  obtain ⟨eventType, -, hd⟩ := List.mem_flatMap.1 h
  obtain ⟨definition, -, hdef⟩ := List.mem_filterMap.1 hd
  obtain ⟨q, hq, rfl⟩ := Option.map_eq_some_iff.1 hdef
  exact hq

theorem length_samples_le (events : List ChainEvent) (eventType : EventType) (metric : BaselineMetric) :
    (samples events eventType metric).length ≤ candidates events eventType := List.length_filterMap_le _ _

theorem samples_perm {events events' : List ChainEvent} (h : events.Perm events') (eventType : EventType)
    (metric : BaselineMetric) : (samples events eventType metric).Perm (samples events' eventType metric) :=
  (h.filter _).filterMap _

/-- the order of the events does not matter -/
theorem generateDistributions_perm {events events' : List ChainEvent} (h : events.Perm events')
    (types : Option (List EventType)) : generateDistributions events types = generateDistributions events' types := by
  have htype : distributionsOfType events = distributionsOfType events' := by
    funext eventType
    unfold distributionsOfType
    rw [(h.filter _).length_eq]
    dsimp only
    congr 1
    funext definition
    rw [BaselineCalculator.computeDistribution_perm (samples_perm h eventType definition.metric)]
  rw [generateDistributions, generateDistributions, htype]

/-- **Distributions are discrete empirical quantiles.** -/
theorem distributions_are_quantiles (events : List ChainEvent) (types : Option (List EventType)) :
    (∀ events' : List ChainEvent, events.Perm events' →
      generateDistributions events' types = generateDistributions events types) ∧
    ∀ d ∈ generateDistributions events types,
      (∀ p ∈ d.quantiles, p.2 ∈ samples events d.eventType d.metric ∧
        p.1 * (samples events d.eventType d.metric).length ≤ (samples events d.eventType d.metric).countP (· ≤ p.2) ∧
        ((samples events d.eventType d.metric).countP (· < p.2) : ℚ) <
          p.1 * (samples events d.eventType d.metric).length) ∧
      d.Ordered ∧ IsLeast {v | v ∈ samples events d.eventType d.metric} d.minimum ∧
      IsGreatest {v | v ∈ samples events d.eventType d.metric} d.maximum ∧
      d.sampleCount = (samples events d.eventType d.metric).length ∧
      d.sampleCount + d.missingCount = d.candidateCount ∧
      d.candidateCount = (events.filter fun e => e.eventType = d.eventType).length := by
  refine ⟨fun events' h => (generateDistributions_perm h types).symm, ?_⟩
  intro d hd
  have hcompute := mem_generateDistributions hd
  have hdescribes := BaselineCalculator.describes_computeDistribution hcompute
  have hcandidates := BaselineCalculator.candidateCount_computeDistribution hcompute
  refine ⟨?_, hdescribes.ordered, hdescribes.minimum, hdescribes.maximum, hdescribes.sampleCount, ?_, hcandidates⟩
  · intro p hp
    obtain ⟨hmem, hle, hlt⟩ := hdescribes.quantile p hp
    exact ⟨hmem, hle, hlt⟩
  · have hle := length_samples_le events d.eventType d.metric
    rw [hdescribes.sampleCount, hdescribes.missingCount, hcandidates]
    omega

end BaselineEngine

end ObsChain
