/-
Component coverage of impact scores (`calculate_impact` of `baseline.rs`, `HISTORICAL_BASELINES.md`).

The documented coverage weighs the components that have a result; the code counts them, as its tests expect. The documented
score is the points divided by the coverage; the code gives the points as they are. `CoverageSpec` is what is documented,
`CountedSpec` what the code does.

Counting and weighing agree for some parts of a model only: none or all of it, a part of a quarter of the weight
(`lightParts`), and the parts of half the weight or three quarters (`heavyParts`), which are shown without being divided.

- `counted_spec`: coverage, suppression and score of the code, for every event type and all results.
- `weighing`: for which parts counting and weighing agree, over every part of every model.
- `coverage_spec_iff`: when a score is the documented one.
-/
import Mathlib.Tactic
import ObsChain.Statistics.ImpactBounds

namespace ObsChain

namespace ImpactCalculator

/-! ## What is documented -/

section

variable (eventType : EventType) (rarityResults : List EventRarityResult) (modelVersion : Option String)

/-- the weight of the components that have a result -/
def coveredWeight : ℚ := ((scored eventType rarityResults).map (·.weight)).sum

/-- coverage by weight, no score below one half, and else the points over the coverage -/
structure CoverageSpec : Prop where
  coverage : (calculateImpact eventType rarityResults modelVersion).modelCoverage =
    coveredWeight eventType rarityResults / 100
  suppressed : (calculateImpact eventType rarityResults modelVersion).totalScore = none ↔
    coveredWeight eventType rarityResults / 100 < 1 / 2
  normalized : 1 / 2 ≤ coveredWeight eventType rarityResults / 100 →
    (calculateImpact eventType rarityResults modelVersion).totalScore =
      some (((calculateImpact eventType rarityResults modelVersion).components.map (·.pointsAwarded)).sum /
        (coveredWeight eventType rarityResults / 100))

end

/-! ## Parts of a model -/

/-- whether a metric has a result -/
def has (rarityResults : List EventRarityResult) (metric : BaselineMetric) : Bool :=
  (rarityResults.find? fun r => r.metric = metric).isSome

/-- the share of the components that have a result -/
def countedCoverage (model : ImpactModelDefinition) (rarityResults : List EventRarityResult) : ℚ :=
  (model.components.countP fun d => has rarityResults d.metric : ℚ) / model.components.length

/-- the metrics of the model that have a result, in its order -/
def part (eventType : EventType) (rarityResults : List EventRarityResult) : List BaselineMetric :=
  ((modelOf eventType).components.filter fun d => has rarityResults d.metric).map (·.metric)

/-- all metrics of the model -/
def whole (eventType : EventType) : List BaselineMetric := (modelOf eventType).components.map (·.metric)

/-- one component of a quarter of the weight -/
def lightParts : EventType → List (List BaselineMetric)
  | .dormantCoinsMoved => [[.coinAgeDestroyedSatoshiDays]]
  | _ => []

/-- as many components as make up half the weight, or three quarters -/
def heavyParts : EventType → List (List BaselineMetric)
  | .dormantCoinsMoved => [[.dormantValueSats, .oldestInputAgeDays, .inputCount]]
  | .consolidation => [[.inputCount, .outputCount], [.consolidationRatio, .valueSats]]
  | _ => []

/-- the percentile of the first result of a metric -/
def percentileOf (rarityResults : List EventRarityResult) (metric : BaselineMetric) : Option ℚ :=
  (rarityResults.find? fun r => r.metric = metric).bind (·.percentile)

/-- the points of a model, as documented for the percentiles of the results -/
def documentedPoints (eventType : EventType) (rarityResults : List EventRarityResult) : ℚ :=
  ((modelOf eventType).components.map fun d => roundCents (points d.weight (percentileOf rarityResults d.metric))).sum

/-- coverage by count, no score below one half, and else the points as they are, cut at 100 -/
structure CountedSpec (eventType : EventType) (model : ImpactModelDefinition) (rarityResults : List EventRarityResult)
    (modelVersion : Option String) : Prop where
  coverage : (calculateImpact eventType rarityResults modelVersion).modelCoverage = countedCoverage model rarityResults
  suppressed : (calculateImpact eventType rarityResults modelVersion).totalScore = none ↔
    countedCoverage model rarityResults < 1 / 2
  awarded : ((calculateImpact eventType rarityResults modelVersion).components.map (·.pointsAwarded)).sum =
    documentedPoints eventType rarityResults
  points : 1 / 2 ≤ countedCoverage model rarityResults →
    (calculateImpact eventType rarityResults modelVersion).totalScore =
      some (min ((calculateImpact eventType rarityResults modelVersion).components.map (·.pointsAwarded)).sum 100)

/-- when the score is the documented one: by the part that has results, and the percentiles where it is shown -/
def Fits (eventType : EventType) (rarityResults : List EventRarityResult) : Prop :=
  part eventType rarityResults = [] ∨ part eventType rarityResults ∈ lightParts eventType ∨
    (part eventType rarityResults = whole eventType ∧ documentedPoints eventType rarityResults ≤ 100) ∨
    (part eventType rarityResults ∈ heavyParts eventType ∧ ∀ d ∈ (modelOf eventType).components,
      ∀ p, percentileOf rarityResults d.metric = some p → p < 50 + 1 / (4 * d.weight))

/-- what the parts weigh, and what part of the components they are -/
structure Weighing (eventType : EventType) (metrics : List BaselineMetric) (weight ratio : ℚ) : Prop where
  none : metrics = [] → weight = 0 ∧ ratio = 0
  light : metrics ∈ lightParts eventType → weight = 25 ∧ ratio = 1 / 4
  heavy : metrics ∈ heavyParts eventType → (weight = 50 ∨ weight = 75) ∧ ratio = weight / 100
  whole : metrics = whole eventType → weight = 100 ∧ ratio = 1
  agree : ratio = weight / 100 → metrics = [] ∨ metrics ∈ lightParts eventType ∨ metrics ∈ heavyParts eventType ∨
    metrics = ImpactCalculator.whole eventType

instance (eventType : EventType) (metrics : List BaselineMetric) (weight ratio : ℚ) :
    Decidable (Weighing eventType metrics weight ratio) :=
  decidable_of_iff
    ((metrics = [] → weight = 0 ∧ ratio = 0) ∧ (metrics ∈ lightParts eventType → weight = 25 ∧ ratio = 1 / 4) ∧
      (metrics ∈ heavyParts eventType → (weight = 50 ∨ weight = 75) ∧ ratio = weight / 100) ∧
      (metrics = whole eventType → weight = 100 ∧ ratio = 1) ∧
      (ratio = weight / 100 → metrics = [] ∨ metrics ∈ lightParts eventType ∨ metrics ∈ heavyParts eventType ∨
        metrics = whole eventType))
    ⟨fun ⟨hnone, hlight, hheavy, hwhole, hagree⟩ => ⟨hnone, hlight, hheavy, hwhole, hagree⟩,
      fun h => ⟨h.none, h.light, h.heavy, h.whole, h.agree⟩⟩

/-- **Every part of every model**, weighed and counted. -/
theorem weighing (eventType : EventType) (holds : BaselineMetric → Bool) {model : ImpactModelDefinition}
    (h : modelForEventType eventType = some model) :
    Weighing eventType ((model.components.filter fun d => holds d.metric).map (·.metric))
      ((model.components.filter fun d => holds d.metric).map (·.weight)).sum
      (((model.components.filter fun d => holds d.metric).length : ℚ) / model.components.length) := by
  -- only the metrics of the model matter, and each is there or not
  cases eventType <;> cases h
  case largeTransfer =>
    cases h1 : holds .valueSats <;> cases h2 : holds .inputCount <;> cases h3 : holds .outputCount <;>
      cases h4 : holds .vsize <;> simp only [List.filter_cons, List.filter_nil, h1, h2, h3, h4] <;> decide +kernel
  case dormantCoinsMoved =>
    cases h1 : holds .dormantValueSats <;> cases h2 : holds .oldestInputAgeDays <;>
      cases h3 : holds .coinAgeDestroyedSatoshiDays <;> cases h4 : holds .inputCount <;>
      simp only [List.filter_cons, List.filter_nil, h1, h2, h3, h4] <;> decide +kernel
  case longBlockInterval =>
    cases h1 : holds .intervalSeconds <;> simp only [List.filter_cons, List.filter_nil, h1] <;> decide +kernel
  case consolidation =>
    cases h1 : holds .inputCount <;> cases h2 : holds .consolidationRatio <;> cases h3 : holds .valueSats <;>
      cases h4 : holds .outputCount <;> simp only [List.filter_cons, List.filter_nil, h1, h2, h3, h4] <;> decide +kernel
  case fanOut =>
    cases h1 : holds .outputCount <;> cases h2 : holds .distributedValueSats <;> cases h3 : holds .medianOutputSats <;>
      simp only [List.filter_cons, List.filter_nil, h1, h2, h3] <;> decide +kernel
  case extremeFee =>
    cases h1 : holds .feeRateSatVb <;> cases h2 : holds .feeSats <;>
      simp only [List.filter_cons, List.filter_nil, h1, h2] <;> decide +kernel

/-! ## The components that have a result -/

variable {eventType : EventType} {rarityResults : List EventRarityResult}

/-- what a component takes over from its definition -/
theorem map_available {β : Type} {f : ImpactComponent → β} {g : ImpactComponentDefinition → β}
    (hfg : ∀ d res, f (component d res) = g d) (defs : List ImpactComponentDefinition) :
    (available rarityResults defs).map f = (defs.filter fun d => has rarityResults d.metric).map g := by
  induction defs with
  | nil => rfl
  | cons d defs ih =>
    rw [available]
    cases hfind : rarityResults.find? fun r => r.metric = d.metric with
    | none =>
      rw [List.filterMap_cons_none (by rw [hfind]; rfl), List.filter_cons_of_neg (by simp [has, hfind])]
      exact ih
    | some res =>
      rw [List.filterMap_cons_some (by rw [hfind]; rfl), List.filter_cons_of_pos (by simp [has, hfind]), List.map_cons,
        List.map_cons, hfg]
      exact congrArg _ ih

/-- the points awarded are those documented -/
theorem sum_points_available (rarityResults : List EventRarityResult) (defs : List ImpactComponentDefinition) :
    ((available rarityResults defs).map (·.pointsAwarded)).sum =
      (defs.map fun d => roundCents (points d.weight (percentileOf rarityResults d.metric))).sum := by
  induction defs with
  | nil => rfl
  | cons d defs ih =>
    rw [available, List.map_cons, List.sum_cons]
    cases hfind : rarityResults.find? fun r => r.metric = d.metric with
    | none =>
      have hzero : roundCents (points d.weight (percentileOf rarityResults d.metric)) = 0 := by
        rw [percentileOf, hfind]
        exact roundCents_natCast 0
      rw [List.filterMap_cons_none (by rw [hfind]; rfl), hzero, zero_add]
      exact ih
    | some res =>
      rw [List.filterMap_cons_some (by rw [hfind]; rfl), List.map_cons, List.sum_cons, percentileOf, hfind]
      exact congrArg _ ih

theorem sum_points_scored (eventType : EventType) (rarityResults : List EventRarityResult) :
    ((scored eventType rarityResults).map (·.pointsAwarded)).sum = documentedPoints eventType rarityResults :=
  sum_points_available rarityResults _

/-! ## Hundredths -/

theorem sum_roundCents (l : List ℚ) : ∃ k : ℤ, (l.map roundCents).sum = k / 100 := by
  induction l with
  | nil => exact ⟨0, by simp⟩
  | cons x l ih =>
    obtain ⟨k, hk⟩ := ih
    refine ⟨round (x * 100) + k, ?_⟩
    rw [List.map_cons, List.sum_cons, hk, roundCents]
    push_cast
    ring

theorem roundCents_div (k : ℤ) : roundCents (k / 100) = k / 100 := by
  have hcancel : (k : ℚ) / 100 * 100 = k := by ring
  rw [roundCents, hcancel, round_intCast]

/-- **The score** is the points, cut at 100. -/
theorem totalOf_scored (eventType : EventType) (rarityResults : List EventRarityResult) :
    totalOf (scored eventType rarityResults) =
      if documentedPoints eventType rarityResults ≤ 100 then documentedPoints eventType rarityResults else 100 := by
  obtain ⟨k, hk⟩ : ∃ k : ℤ, documentedPoints eventType rarityResults = k / 100 := by
    rw [documentedPoints, ← Function.comp_def roundCents, ← List.map_map]
    exact sum_roundCents _
  rw [totalOf, sum_points_scored, hk]
  have hcut : (k : ℚ) / 100 > 10000000001 / 100000000 ↔ ¬ (k : ℚ) / 100 ≤ 100 := by
    constructor
    · intro hgt hle
      linarith
    · intro hnot
      rw [not_le, lt_div_iff₀ (by norm_num)] at hnot
      have hint : (10000 : ℤ) < k := by
        have hcast : ((10000 : ℤ) : ℚ) < k := by
          push_cast
          linarith
        exact_mod_cast hcast
      have hcast : ((10001 : ℤ) : ℚ) ≤ k := by exact_mod_cast hint
      push_cast at hcast
      rw [gt_iff_lt, lt_div_iff₀ (by norm_num)]
      linarith
  by_cases hle : (k : ℚ) / 100 ≤ 100
  · rw [if_pos hle, if_neg (fun h => hcut.1 h hle), roundCents_div]
  · rw [if_neg hle, if_pos (hcut.2 hle)]
    exact roundCents_natCast 100

/-! ## No points -/

theorem weight_pos (eventType : EventType) : ∀ d ∈ (modelOf eventType).components, 0 < d.weight := by
  intro d hd
  cases eventType <;> simp [modelOf, modelForEventType] at hd
  all_goals rcases hd with rfl | rfl | rfl | rfl
  all_goals norm_num

theorem roundCents_eq_zero_iff {x : ℚ} (h : 0 ≤ x) : roundCents x = 0 ↔ x < 1 / 200 := by
  have hround : roundCents x = 0 ↔ round (x * 100) = 0 := by
    rw [roundCents, div_eq_zero_iff]
    norm_num
  rw [hround, round_eq, Int.floor_eq_iff]
  push_cast
  constructor
  · rintro ⟨-, hlt⟩
    linarith
  · intro hlt
    constructor <;> linarith

/-- a percentile this close to 50 has no points -/
theorem roundCents_points_eq_zero_iff {weight : ℚ} (hweight : 0 < weight) (percentile : Option ℚ) :
    roundCents (points weight percentile) = 0 ↔ ∀ p, percentile = some p → p < 50 + 1 / (4 * weight) := by
  rw [roundCents_eq_zero_iff (points_nonneg hweight.le percentile)]
  have hmargin : 0 < 1 / (4 * weight) := by positivity
  cases percentile with
  | none => simp [points]
  | some p =>
    simp only [points, Option.some.injEq, forall_eq']
    by_cases hp : p ≥ 50
    · have hscale : weight * ((p - 50) / 50) < 1 / 200 ↔ p - 50 < 1 / (4 * weight) := by
        have hpoints : weight * ((p - 50) / 50) = (p - 50) * (4 * weight) / 200 := by ring
        have hright : p - 50 < 1 / (4 * weight) ↔ (p - 50) * (4 * weight) < 1 := lt_div_iff₀ (by positivity)
        rw [hpoints, hright]
        constructor <;> intro hlt <;> linarith
      rw [if_pos hp, hscale]
      constructor <;> intro hlt <;> linarith
    · rw [if_neg hp]
      rw [ge_iff_le, not_le] at hp
      constructor
      · intro _
        linarith
      · intro _
        norm_num

theorem sum_eq_zero_iff {α : Type} {f : α → ℚ} {l : List α} (h : ∀ x ∈ l, 0 ≤ f x) :
    (l.map f).sum = 0 ↔ ∀ x ∈ l, f x = 0 := by
  induction l with
  | nil => simp
  | cons x l ih =>
    have hrest : ∀ y ∈ l, 0 ≤ f y := fun y hy => h y (List.mem_cons_of_mem x hy)
    have hsum : 0 ≤ (l.map f).sum := by
      apply List.sum_nonneg
      intro y hy
      obtain ⟨z, hz, rfl⟩ := List.mem_map.1 hy
      exact hrest z hz
    rw [List.map_cons, List.sum_cons, add_eq_zero_iff_of_nonneg (h x List.mem_cons_self) hsum, ih hrest,
      List.forall_mem_cons]

/-- **No points at all**, exactly when every percentile is that close to 50, or below. -/
theorem documentedPoints_eq_zero_iff (eventType : EventType) (rarityResults : List EventRarityResult) :
    documentedPoints eventType rarityResults = 0 ↔ ∀ d ∈ (modelOf eventType).components,
      ∀ p, percentileOf rarityResults d.metric = some p → p < 50 + 1 / (4 * d.weight) := by
  rw [documentedPoints, sum_eq_zero_iff fun d hd => roundCents_nonneg (points_nonneg (weight_nonneg eventType d hd) _)]
  constructor
  · intro h d hd
    exact (roundCents_points_eq_zero_iff (weight_pos eventType d hd) _).1 (h d hd)
  · intro h d hd
    exact (roundCents_points_eq_zero_iff (weight_pos eventType d hd) _).2 (h d hd)

/-! ## The specification -/

theorem documentedPoints_nonneg (eventType : EventType) (rarityResults : List EventRarityResult) :
    0 ≤ documentedPoints eventType rarityResults := by
  apply List.sum_nonneg
  intro x hx
  obtain ⟨d, hd, rfl⟩ := List.mem_map.1 hx
  exact roundCents_nonneg (points_nonneg (weight_nonneg eventType d hd) _)

/-- with sufficient populations a score is shown from half of the components on -/
theorem shown_iff (hpopulations : ∀ r ∈ rarityResults, defaultMinSampleSize ≤ r.populationSize) :
    Shown eventType rarityResults ↔
      (1 : ℚ) / 2 ≤ ((scored eventType rarityResults).length : ℚ) / (modelOf eventType).components.length := by
  have hhalf : (50 : ℚ) / 100 = 1 / 2 := by norm_num
  rw [Shown, hhalf]
  constructor
  · exact fun h => h.2.2
  · intro h
    refine ⟨?_, ?_, h⟩
    · intro c hc
      obtain ⟨d, -, res, hres, -, rfl⟩ := mem_scored hc
      exact hpopulations res hres
    · intro hnil
      rw [hnil, List.length_nil, Nat.cast_zero, zero_div] at h
      norm_num at h

/-- percentages never have more points than that -/
theorem documentedPoints_le (eventType : EventType) {rarityResults : List EventRarityResult} (h : Percentages rarityResults) :
    documentedPoints eventType rarityResults ≤ 100 := by
  rw [← sum_points_scored]
  exact (sum_points_bounds h).2

/-- a scored component is one that has a result -/
theorem length_scored (eventType : EventType) (rarityResults : List EventRarityResult) {model : ImpactModelDefinition}
    (hmodel : modelForEventType eventType = some model) :
    (scored eventType rarityResults).length = model.components.countP fun d => has rarityResults d.metric := by
  have hof : modelOf eventType = model := by rw [modelOf, hmodel, Option.getD_some]
  have hmap := @map_available rarityResults ℚ (·.weight) (·.weight) (fun _ _ => rfl) model.components
  have hlength := congrArg List.length hmap
  rw [List.length_map, List.length_map] at hlength
  rw [scored, hof, hlength, List.countP_eq_length_filter]

/-- the part that has results, weighed and counted -/
theorem weighing_scored (eventType : EventType) (rarityResults : List EventRarityResult) {model : ImpactModelDefinition}
    (hmodel : modelForEventType eventType = some model) :
    Weighing eventType (part eventType rarityResults) (coveredWeight eventType rarityResults)
      (((scored eventType rarityResults).length : ℚ) / (modelOf eventType).components.length) := by
  have hof : modelOf eventType = model := by rw [modelOf, hmodel, Option.getD_some]
  have hmap := @map_available rarityResults ℚ (·.weight) (·.weight) (fun _ _ => rfl) model.components
  rw [length_scored eventType rarityResults hmodel, List.countP_eq_length_filter, coveredWeight, part, scored, hof, hmap]
  exact weighing eventType (has rarityResults) hmodel

/-- the score as it is shown -/
theorem totalScore_eq (eventType : EventType) {rarityResults : List EventRarityResult} (modelVersion : Option String)
    (hpopulations : ∀ r ∈ rarityResults, defaultMinSampleSize ≤ r.populationSize) :
    (calculateImpact eventType rarityResults modelVersion).totalScore =
      if (1 : ℚ) / 2 ≤ ((scored eventType rarityResults).length : ℚ) / (modelOf eventType).components.length then
        some (if documentedPoints eventType rarityResults ≤ 100 then documentedPoints eventType rarityResults else 100)
      else none := by
  rw [totalScore_calculateImpact, totalOf_scored]
  by_cases h : Shown eventType rarityResults
  · rw [if_pos h, if_pos ((shown_iff hpopulations).1 h)]
  · rw [if_neg h, if_neg fun hhalf => h ((shown_iff hpopulations).2 hhalf)]

/-- no score below one half -/
theorem totalScore_eq_none_iff (eventType : EventType) {rarityResults : List EventRarityResult} (modelVersion : Option String)
    (hpopulations : ∀ r ∈ rarityResults, defaultMinSampleSize ≤ r.populationSize) :
    (calculateImpact eventType rarityResults modelVersion).totalScore = none ↔
      ((scored eventType rarityResults).length : ℚ) / (modelOf eventType).components.length < 1 / 2 := by
  rw [totalScore_eq eventType modelVersion hpopulations, ite_eq_right_iff, ← not_le]
  exact ⟨fun hnone hhalf => Option.some_ne_none _ (hnone hhalf), fun hnot hhalf => absurd hhalf hnot⟩

/-- **Components are counted, and points are not divided.** -/
theorem counted_spec (eventType : EventType) (model : ImpactModelDefinition) (rarityResults : List EventRarityResult)
    (modelVersion : Option String) (hmodel : modelForEventType eventType = some model)
    (hpopulations : ∀ r ∈ rarityResults, defaultMinSampleSize ≤ r.populationSize) :
    CountedSpec eventType model rarityResults modelVersion := by
  have hof : modelOf eventType = model := by rw [modelOf, hmodel, Option.getD_some]
  have hcoverage : ((scored eventType rarityResults).length : ℚ) / (modelOf eventType).components.length =
      countedCoverage model rarityResults := by
    rw [length_scored eventType rarityResults hmodel, hof, countedCoverage]
  constructor
  · rw [modelCoverage_calculateImpact, hcoverage]
  · rw [totalScore_eq_none_iff eventType modelVersion hpopulations, hcoverage]
  · rw [components_calculateImpact, sum_points_scored]
  · intro hhalf
    rw [totalScore_eq eventType modelVersion hpopulations, hcoverage, if_pos hhalf, components_calculateImpact,
      sum_points_scored, min_def]

/-- counting must agree with weighing, and dividing must change nothing -/
theorem coverage_spec_iff_agree (eventType : EventType) {rarityResults : List EventRarityResult}
    (modelVersion : Option String) (hpopulations : ∀ r ∈ rarityResults, defaultMinSampleSize ≤ r.populationSize) :
    CoverageSpec eventType rarityResults modelVersion ↔
      ((scored eventType rarityResults).length : ℚ) / (modelOf eventType).components.length =
        coveredWeight eventType rarityResults / 100 ∧
      (1 / 2 ≤ coveredWeight eventType rarityResults / 100 →
        (if documentedPoints eventType rarityResults ≤ 100 then documentedPoints eventType rarityResults else 100) =
          documentedPoints eventType rarityResults / (coveredWeight eventType rarityResults / 100)) := by
  have hscore := totalScore_eq eventType modelVersion hpopulations
  constructor
  · intro ⟨hcoverage, _, hnormalized⟩
    rw [modelCoverage_calculateImpact] at hcoverage
    refine ⟨hcoverage, ?_⟩
    intro hhalf
    have hnormalized := hnormalized hhalf
    rw [hscore, hcoverage, if_pos hhalf, components_calculateImpact, sum_points_scored] at hnormalized
    exact Option.some.inj hnormalized
  · intro ⟨hcoverage, hnormalized⟩
    constructor
    · rw [modelCoverage_calculateImpact, hcoverage]
    · rw [totalScore_eq_none_iff eventType modelVersion hpopulations, hcoverage]
    · intro hhalf
      rw [hscore, hcoverage, if_pos hhalf, components_calculateImpact, sum_points_scored, hnormalized hhalf]

/-- **The documented score, exactly when** the covered part and its percentiles fit. -/
theorem coverage_spec_iff (eventType : EventType) (model : ImpactModelDefinition) (rarityResults : List EventRarityResult)
    (modelVersion : Option String) (hmodel : modelForEventType eventType = some model)
    (hpopulations : ∀ r ∈ rarityResults, defaultMinSampleSize ≤ r.populationSize) :
    CoverageSpec eventType rarityResults modelVersion ↔ Fits eventType rarityResults := by
  have hweighing := weighing_scored eventType rarityResults hmodel
  have hnonneg := documentedPoints_nonneg eventType rarityResults
  have hzero := documentedPoints_eq_zero_iff eventType rarityResults
  rw [coverage_spec_iff_agree eventType modelVersion hpopulations]
  constructor
  · intro ⟨hagree, hnormalized⟩
    rcases hweighing.agree hagree with hnone | hlight | hheavy | hwhole
    · exact .inl hnone
    · exact .inr (.inl hlight)
    · -- the points over one half or three quarters are the points only when there are none
      refine .inr (.inr (.inr ⟨hheavy, hzero.1 ?_⟩))
      rcases (hweighing.heavy hheavy).1 with hweight | hweight
      all_goals
        rw [hweight] at hnormalized
        have hnormalized := hnormalized (by norm_num)
        split_ifs at hnormalized with hcut <;> linarith
    · refine .inr (.inr (.inl ⟨hwhole, ?_⟩))
      rw [(hweighing.whole hwhole).1] at hnormalized
      have hnormalized := hnormalized (by norm_num)
      split_ifs at hnormalized with hcut
      · exact hcut
      · linarith
  · rintro (hnone | hlight | ⟨hwhole, hcut⟩ | ⟨hheavy, hnopoints⟩)
    · obtain ⟨hweight, hratio⟩ := hweighing.none hnone
      rw [hweight, hratio]
      norm_num
    · obtain ⟨hweight, hratio⟩ := hweighing.light hlight
      rw [hweight, hratio]
      norm_num
    · obtain ⟨hweight, hratio⟩ := hweighing.whole hwhole
      rw [hweight, hratio, if_pos hcut]
      norm_num
    · obtain ⟨-, hratio⟩ := hweighing.heavy hheavy
      rw [hzero.2 hnopoints, hratio, zero_div, if_pos (by norm_num)]
      exact ⟨rfl, fun _ => rfl⟩

/-- the largest value ever, and no other metric -/
def valueOnly : List EventRarityResult := [
  ⟨0, 0, .largeTransfer, .valueSats, .u64 100000000000, some 100, .exactEmpiricalCdf, false, .extreme, 1000, 1,
    .retrospective⟩]

/-- one of four components is a coverage of a quarter, and no score; and both of two are the points as they are -/
theorem counted_spec_value_only :
    (calculateImpact .largeTransfer valueOnly none).modelCoverage = 1 / 4 ∧
      (calculateImpact .largeTransfer valueOnly none).totalScore = none ∧
      (calculateImpact .extremeFee rareFee none).totalScore = some (documentedPoints .extremeFee rareFee) := by
  have hvalue := counted_spec .largeTransfer _ valueOnly none rfl (by decide)
  have hfee := counted_spec .extremeFee _ rareFee none rfl (by decide)
  refine ⟨?_, hvalue.suppressed.2 (by decide +kernel), ?_⟩
  · rw [hvalue.coverage]
    decide +kernel
  · rw [hfee.points (by decide +kernel), hfee.awarded, min_eq_left (by decide +kernel)]

/-- a component of 60 out of 100 counts as a quarter of the model, and no score is shown -/
theorem value_only_suppressed : ¬ ∀ (eventType : EventType) (model : ImpactModelDefinition)
    (rarityResults : List EventRarityResult) (modelVersion : Option String),
    modelForEventType eventType = some model → (∀ r ∈ rarityResults, defaultMinSampleSize ≤ r.populationSize) →
    CoverageSpec eventType rarityResults modelVersion := by
  intro h
  have hcoverage := (h .largeTransfer _ valueOnly none rfl (by decide)).coverage
  have hcounted : (calculateImpact .largeTransfer valueOnly none).modelCoverage = 1 / 4 := by decide +kernel
  have hweighed : coveredWeight .largeTransfer valueOnly = 60 := by decide +kernel
  rw [hcounted, hweighed] at hcoverage
  norm_num at hcoverage

end ImpactCalculator

end ObsChain
