/-
Impact scores (`ImpactCalculator` of `baseline.rs`): what the rarity of an event's metrics adds up to.

A model weighs some metrics of an event type. Each metric with a result becomes a component with points for the part of its
percentile above 50, rounded to hundredths, and the points are added up. A score is withheld when a population is below the
default minimum, or when fewer than half of the components are there. Floats are exact rationals.

- `foldl_scoreStep`: what the loop over the components has collected.
- `totalScore_calculateImpact`: the score, over the collected components.
- `sum_weights`: the weights of every model are whole numbers and add up to 100.
-/
import Mathlib.Tactic
import ObsChain.Domain.Rarity

namespace ObsChain

structure ImpactComponentDefinition where
  name : String
  metric : BaselineMetric
  weight : ℚ
deriving DecidableEq, Repr

structure ImpactModelDefinition where
  id : String
  eventType : EventType
  version : String
  components : List ImpactComponentDefinition
deriving DecidableEq, Repr

structure ImpactComponent where
  componentName : String
  metric : BaselineMetric
  rawValue : String
  percentile : Option ℚ
  weight : ℚ
  pointsAwarded : ℚ
  populationSize : ℕ
deriving DecidableEq, Repr

structure ImpactBreakdown where
  modelId : String
  modelVersion : String
  eventType : EventType
  status : String
  totalScore : Option ℚ
  maxPossiblePoints : ℚ
  modelCoverage : ℚ
  coverageRatio : ℚ
  components : List ImpactComponent
deriving DecidableEq, Repr

/-- `DEFAULT_MIN_SAMPLE_SIZE` -/
def defaultMinSampleSize : ℕ := 100

/-- `(x * 100.0).round() / 100.0` -/
def roundCents (x : ℚ) : ℚ := round (x * 100) / 100

namespace ImpactCalculator

def modelForEventType (eventType : EventType) : Option ImpactModelDefinition :=
  match eventType with
  | .largeTransfer => some {
      id := "obschain-impact-large-transfer-v1"
      eventType := eventType
      version := "v1"
      components := [
        ⟨"Value rarity", .valueSats, 60⟩,
        ⟨"Input count structure", .inputCount, 15⟩,
        ⟨"Output count structure", .outputCount, 15⟩,
        ⟨"Transaction size anomaly", .vsize, 10⟩] }
  | .dormantCoinsMoved => some {
      id := "obschain-impact-dormant-coins-v1"
      eventType := eventType
      version := "v1"
      components := [
        ⟨"Dormant value rarity", .dormantValueSats, 35⟩,
        ⟨"Coin-age rarity", .oldestInputAgeDays, 30⟩,
        ⟨"Coin-age-destroyed rarity", .coinAgeDestroyedSatoshiDays, 25⟩,
        ⟨"Input count structure", .inputCount, 10⟩] }
  | .longBlockInterval => some {
      id := "obschain-impact-long-block-interval-v1"
      eventType := eventType
      version := "v1"
      components := [⟨"Network interval rarity", .intervalSeconds, 100⟩] }
  | .consolidation => some {
      id := "obschain-impact-consolidation-v1"
      eventType := eventType
      version := "v1"
      components := [
        ⟨"Input count structure", .inputCount, 40⟩,
        ⟨"Consolidation ratio rarity", .consolidationRatio, 30⟩,
        ⟨"Consolidation value rarity", .valueSats, 20⟩,
        ⟨"Output count structure", .outputCount, 10⟩] }
  | .fanOut => some {
      id := "obschain-impact-fan-out-v1"
      eventType := eventType
      version := "v1"
      components := [
        ⟨"Output count structure", .outputCount, 40⟩,
        ⟨"Distributed volume rarity", .distributedValueSats, 35⟩,
        ⟨"Median output size anomaly", .medianOutputSats, 25⟩] }
  | .extremeFee => some {
      id := "obschain-impact-extreme-fee-v1"
      eventType := eventType
      version := "v1"
      components := [
        ⟨"Fee rate rarity", .feeRateSatVb, 60⟩,
        ⟨"Absolute fee rarity", .feeSats, 40⟩] }
  | _ => none

/-- the model of an event type, or else one without components -/
def modelOf (eventType : EventType) : ImpactModelDefinition :=
  (modelForEventType eventType).getD ⟨"obschain-impact-generic-v1", eventType, "v1", []⟩

/-- the points of a percentile, before rounding -/
def points (weight : ℚ) (percentile : Option ℚ) : ℚ :=
  match percentile with
  | some p => if p ≥ 50 then weight * ((p - 50) / 50) else 0
  | none => 0

/-- the component of a definition and its result -/
def component (d : ImpactComponentDefinition) (res : EventRarityResult) : ImpactComponent where
  componentName := d.name
  metric := d.metric
  rawValue := res.value.toNumericString
  percentile := res.percentile
  weight := d.weight
  pointsAwarded := roundCents (points d.weight res.percentile)
  populationSize := res.populationSize

/-- what the loop over the components collects -/
structure Scoring where
  components : List ImpactComponent
  availableCount : ℕ
  hasInsufficientSamples : Bool
deriving DecidableEq, Repr

/-- one definition: the first result of its metric counts -/
def scoreStep (rarityResults : List EventRarityResult) (s : Scoring) (d : ImpactComponentDefinition) : Scoring :=
  match rarityResults.find? fun r => r.metric = d.metric with
  | some res =>
    { components := s.components ++ [component d res]
      availableCount := s.availableCount + 1
      hasInsufficientSamples := s.hasInsufficientSamples || decide (res.populationSize < defaultMinSampleSize) }
  | none => s

def calculateImpact (eventType : EventType) (rarityResults : List EventRarityResult) (modelVersion : Option String) :
    ImpactBreakdown :=
  let model := modelOf eventType
  let version := modelVersion.getD model.version
  let expectedCount := model.components.length
  let s := model.components.foldl (scoreStep rarityResults) ⟨[], 0, false⟩
  let modelCoverage : ℚ := if expectedCount > 0 then s.availableCount / expectedCount else 0
  let totalScore :=
    if s.hasInsufficientSamples ∨ s.availableCount = 0 ∨ modelCoverage < 50 / 100 then none
    else
      let rawPoints : ℚ := (s.components.map (·.pointsAwarded)).sum
      let clamped : ℚ := if rawPoints > 10000000001 / 100000000 then 100 else rawPoints
      some (roundCents clamped)
  { modelId := model.id
    modelVersion := version
    eventType := eventType
    status := "EXPERIMENTAL"
    totalScore := totalScore
    maxPossiblePoints := 100
    modelCoverage := modelCoverage
    coverageRatio := modelCoverage
    components := s.components }

/-! ## What the loop collects -/

/-- the definitions that have a result, with the first one of their metric -/
def available (rarityResults : List EventRarityResult) (defs : List ImpactComponentDefinition) : List ImpactComponent :=
  defs.filterMap fun d => (rarityResults.find? fun r => r.metric = d.metric).map (component d)

theorem foldl_scoreStep (rarityResults : List EventRarityResult) (defs : List ImpactComponentDefinition) (s : Scoring) :
    defs.foldl (scoreStep rarityResults) s =
      ⟨s.components ++ available rarityResults defs, s.availableCount + (available rarityResults defs).length,
        s.hasInsufficientSamples || (available rarityResults defs).any fun c => c.populationSize < defaultMinSampleSize⟩ := by
  induction defs generalizing s with
  | nil => simp [available]
  | cons d defs ih =>
    rw [List.foldl_cons, ih, scoreStep]
    cases hfind : rarityResults.find? fun r => r.metric = d.metric with
    | none =>
      rw [available, available, List.filterMap_cons_none (by rw [hfind]; rfl)]
    | some res =>
      rw [available, available, List.filterMap_cons_some (by rw [hfind]; rfl)]
      simp only [List.append_assoc, List.singleton_append, List.length_cons, List.any_cons, Scoring.mk.injEq, true_and]
      refine ⟨by omega, ?_⟩
      rw [Bool.or_assoc]
      rfl

section

variable (eventType : EventType) (rarityResults : List EventRarityResult) (modelVersion : Option String)

/-- the components of the model that have a result -/
def scored : List ImpactComponent := available rarityResults (modelOf eventType).components

theorem foldl_model :
    (modelOf eventType).components.foldl (scoreStep rarityResults) ⟨[], 0, false⟩ =
      ⟨scored eventType rarityResults, (scored eventType rarityResults).length,
        (scored eventType rarityResults).any fun c => c.populationSize < defaultMinSampleSize⟩ := by
  rw [foldl_scoreStep, Nat.zero_add, Bool.false_or, List.nil_append, scored]

@[simp] theorem components_calculateImpact :
    (calculateImpact eventType rarityResults modelVersion).components = scored eventType rarityResults := by
  simp only [calculateImpact, foldl_model]

theorem modelCoverage_calculateImpact :
    (calculateImpact eventType rarityResults modelVersion).modelCoverage =
      ((scored eventType rarityResults).length : ℚ) / (modelOf eventType).components.length := by
  simp only [calculateImpact, foldl_model]
  split_ifs with hpos
  · rfl
  · have hnil : (modelOf eventType).components.length = 0 := by omega
    rw [hnil, Nat.cast_zero, div_zero]

/-- the sum of the points, cut at 100 and rounded -/
def totalOf (components : List ImpactComponent) : ℚ :=
  let rawPoints : ℚ := (components.map (·.pointsAwarded)).sum
  roundCents (if rawPoints > 10000000001 / 100000000 then 100 else rawPoints)

/-- when a score is shown -/
def Shown : Prop :=
  (∀ c ∈ scored eventType rarityResults, defaultMinSampleSize ≤ c.populationSize) ∧ scored eventType rarityResults ≠ [] ∧
    (50 : ℚ) / 100 ≤ ((scored eventType rarityResults).length : ℚ) / (modelOf eventType).components.length

instance : Decidable (Shown eventType rarityResults) :=
  inferInstanceAs (Decidable (_ ∧ _ ∧ _))

/-- **The score.** -/
theorem totalScore_calculateImpact :
    (calculateImpact eventType rarityResults modelVersion).totalScore =
      if Shown eventType rarityResults then some (totalOf (scored eventType rarityResults)) else none := by
  have hcoverage := modelCoverage_calculateImpact eventType rarityResults modelVersion
  simp only [calculateImpact, foldl_model] at hcoverage ⊢
  rw [hcoverage]
  have hshown : Shown eventType rarityResults ↔
      ¬ (((scored eventType rarityResults).any fun c => c.populationSize < defaultMinSampleSize) = true ∨
        (scored eventType rarityResults).length = 0 ∨
        ((scored eventType rarityResults).length : ℚ) / (modelOf eventType).components.length < 50 / 100) := by
    simp only [Shown, not_or, List.any_eq_true, decide_eq_true_eq, not_exists, not_and, not_lt, List.length_eq_zero_iff,
      ne_eq]
  by_cases h : Shown eventType rarityResults
  · rw [if_pos h, if_neg (hshown.1 h)]
    rfl
  · rw [if_neg h, if_pos (not_not.1 fun hnot => h (hshown.2 hnot))]

end

/-! ## The weights -/

theorem weight_natCast (eventType : EventType) :
    ∀ d ∈ (modelOf eventType).components, ∃ n : ℕ, d.weight = n := by
  intro d hd
  cases eventType <;> simp [modelOf, modelForEventType] at hd
  all_goals rcases hd with rfl | rfl | rfl | rfl
  all_goals exact ⟨_, (Nat.cast_ofNat).symm⟩

theorem weight_nonneg (eventType : EventType) : ∀ d ∈ (modelOf eventType).components, 0 ≤ d.weight := by
  intro d hd
  obtain ⟨n, hn⟩ := weight_natCast eventType d hd
  rw [hn]
  exact Nat.cast_nonneg n

/-- **The weights of a model add up to 100.** -/
theorem sum_weights {eventType : EventType} {model : ImpactModelDefinition} (h : modelForEventType eventType = some model) :
    (model.components.map (·.weight)).sum = 100 := by
  cases eventType <;> cases h <;> norm_num

end ImpactCalculator

end ObsChain
