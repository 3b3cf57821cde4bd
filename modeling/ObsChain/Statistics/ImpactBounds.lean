/-
Bounds and monotonicity of impact scores (`calculate_impact` of `baseline.rs`, `HISTORICAL_BASELINES.md`).

Points are a share of the weight, and a weight is a whole number, so rounding to hundredths leaves points within it. The
weights of a model add up to 100, hence so do the points of any part of it at most, and the cut at 100 is never taken.

- `pointsAwarded_bounds`: the points of a component are between 0 and its weight.
- `Raised.points_le`: a higher percentile gives no fewer points.
- `impact_bounded_and_monotone`: the scores of every list of results.
-/
import Mathlib.Tactic
import ObsChain.Statistics.Impact

namespace ObsChain

/-! ## Rounding -/

theorem roundCents_mono {x y : ℚ} (h : x ≤ y) : roundCents x ≤ roundCents y := by
  have hround : round (x * 100) ≤ round (y * 100) := by
    rw [round_eq, round_eq]
    exact Int.floor_le_floor (by linarith)
  unfold roundCents
  have hcast : (round (x * 100) : ℚ) ≤ round (y * 100) := by exact_mod_cast hround
  linarith

/-- a whole number is rounded to itself -/
theorem roundCents_natCast (n : ℕ) : roundCents n = n := by
  have hround : round ((n : ℚ) * 100) = (n * 100 : ℕ) := by
    rw [← round_natCast (α := ℚ) (n * 100)]
    push_cast
    rfl
  rw [roundCents, hround]
  push_cast
  ring

theorem roundCents_nonneg {x : ℚ} (h : 0 ≤ x) : 0 ≤ roundCents x := by
  have hzero := roundCents_natCast 0
  rw [Nat.cast_zero] at hzero
  rw [← hzero]
  exact roundCents_mono h

namespace ImpactCalculator

/-! ## Points -/

theorem points_nonneg {weight : ℚ} (hweight : 0 ≤ weight) (percentile : Option ℚ) : 0 ≤ points weight percentile := by
  unfold points
  split
  · split_ifs with hp
    · exact mul_nonneg hweight (div_nonneg (by linarith) (by norm_num))
    · exact le_rfl
  · exact le_rfl

theorem points_le {weight : ℚ} (hweight : 0 ≤ weight) {percentile : Option ℚ} (hp : ∀ p, percentile = some p → p ≤ 100) :
    points weight percentile ≤ weight := by
  unfold points
  split
  next p =>
    have hp := hp p rfl
    split_ifs with hp'
    · have hshare : (p - 50) / 50 ≤ 1 := by
        rw [div_le_one (by norm_num)]
        linarith
      calc weight * ((p - 50) / 50) ≤ weight * 1 := mul_le_mul_of_nonneg_left hshare hweight
        _ = weight := mul_one weight
    · exact hweight
  next => exact hweight

theorem points_mono {weight : ℚ} (hweight : 0 ≤ weight) {p q : ℚ} (h : p ≤ q) :
    points weight (some p) ≤ points weight (some q) := by
  simp only [points]
  split_ifs with hp hq
  · have hshare : (p - 50) / 50 ≤ (q - 50) / 50 := by
      rw [div_le_div_iff_of_pos_right (by norm_num)]
      linarith
    exact mul_le_mul_of_nonneg_left hshare hweight
  · linarith
  · exact mul_nonneg hweight (div_nonneg (by linarith) (by norm_num))
  · exact le_rfl

/-- percentiles at most 100 -/
def Percentages (rarityResults : List EventRarityResult) : Prop :=
  ∀ r ∈ rarityResults, ∀ p, r.percentile = some p → 0 ≤ p ∧ p ≤ 100

variable {eventType : EventType} {rarityResults : List EventRarityResult}

/-- what a component comes from -/
theorem mem_scored {c : ImpactComponent} (h : c ∈ scored eventType rarityResults) :
    ∃ d ∈ (modelOf eventType).components, ∃ res ∈ rarityResults, res.metric = d.metric ∧ c = component d res := by
  obtain ⟨d, hd, hc⟩ := List.mem_filterMap.1 h
  obtain ⟨res, hres, rfl⟩ := Option.map_eq_some_iff.1 hc
  refine ⟨d, hd, res, List.mem_of_find?_eq_some hres, ?_, rfl⟩
  simpa using List.find?_some hres

/-- **The points of a component** are between 0 and its weight. -/
theorem pointsAwarded_bounds (h : Percentages rarityResults) :
    ∀ c ∈ scored eventType rarityResults, 0 ≤ c.pointsAwarded ∧ c.pointsAwarded ≤ c.weight := by
  intro c hc
  obtain ⟨d, hd, res, hres, -, rfl⟩ := mem_scored hc
  obtain ⟨n, hn⟩ := weight_natCast eventType d hd
  have hweight := weight_nonneg eventType d hd
  refine ⟨roundCents_nonneg (points_nonneg hweight _), ?_⟩
  calc roundCents (points d.weight res.percentile)
      ≤ roundCents d.weight := roundCents_mono (points_le hweight fun p hp => (h res hres p hp).2)
    _ = d.weight := by rw [hn, roundCents_natCast]

/-! ## The total -/

/-- the weights of a part of the definitions -/
theorem sum_weight_available_le (rarityResults : List EventRarityResult) {defs : List ImpactComponentDefinition}
    (hdefs : ∀ d ∈ defs, 0 ≤ d.weight) :
    ((available rarityResults defs).map (·.weight)).sum ≤ (defs.map (·.weight)).sum := by
  induction defs with
  | nil => exact le_rfl
  | cons d defs ih =>
    have hd := hdefs d List.mem_cons_self
    have ih := ih fun d' hd' => hdefs d' (List.mem_cons_of_mem d hd')
    rw [available]
    cases hfind : rarityResults.find? fun r => r.metric = d.metric with
    | none =>
      rw [List.filterMap_cons_none (by rw [hfind]; rfl), List.map_cons, List.sum_cons]
      exact le_add_of_nonneg_of_le hd ih
    | some res =>
      rw [List.filterMap_cons_some (by rw [hfind]; rfl), List.map_cons, List.map_cons, List.sum_cons, List.sum_cons]
      exact add_le_add (le_refl d.weight) ih

theorem sum_weights_le (eventType : EventType) : ((modelOf eventType).components.map (·.weight)).sum ≤ 100 := by
  unfold modelOf
  cases hmodel : modelForEventType eventType with
  | none => norm_num
  | some model => exact (sum_weights hmodel).le

/-- the points of the components are percentages of the whole -/
theorem sum_points_bounds (h : Percentages rarityResults) :
    0 ≤ ((scored eventType rarityResults).map (·.pointsAwarded)).sum ∧
      ((scored eventType rarityResults).map (·.pointsAwarded)).sum ≤ 100 := by
  have hpoints : ∀ c ∈ scored eventType rarityResults, 0 ≤ c.pointsAwarded ∧ c.pointsAwarded ≤ c.weight :=
    pointsAwarded_bounds h
  constructor
  · apply List.sum_nonneg
    intro x hx
    obtain ⟨c, hc, rfl⟩ := List.mem_map.1 hx
    exact (hpoints c hc).1
  · calc ((scored eventType rarityResults).map (·.pointsAwarded)).sum
        ≤ ((scored eventType rarityResults).map (·.weight)).sum := List.sum_le_sum fun c hc => (hpoints c hc).2
      _ ≤ ((modelOf eventType).components.map (·.weight)).sum := sum_weight_available_le rarityResults (weight_nonneg eventType)
      _ ≤ 100 := sum_weights_le eventType

/-- a score that cannot pass 100 is not cut -/
theorem totalOf_eq {components : List ImpactComponent} (h : (components.map (·.pointsAwarded)).sum ≤ 100) :
    totalOf components = roundCents (components.map (·.pointsAwarded)).sum := by
  have hle : ¬ (components.map (·.pointsAwarded)).sum > 10000000001 / 100000000 := by
    rw [gt_iff_lt, not_lt]
    exact h.trans (by norm_num)
  simp only [totalOf, if_neg hle]

theorem totalOf_bounds (h : Percentages rarityResults) :
    0 ≤ totalOf (scored eventType rarityResults) ∧ totalOf (scored eventType rarityResults) ≤ 100 := by
  obtain ⟨hnonneg, hle⟩ := @sum_points_bounds eventType rarityResults h
  rw [totalOf_eq hle]
  refine ⟨roundCents_nonneg hnonneg, ?_⟩
  have hhundred : roundCents 100 = 100 := roundCents_natCast 100
  exact hhundred ▸ roundCents_mono hle

/-! ## Raising a percentile -/

/-- the same result with a percentile that is no lower; from none, any percentile is a raise -/
def Raised (r r' : EventRarityResult) : Prop :=
  r' = { r with percentile := r'.percentile } ∧
    ∀ p, r.percentile = some p → ∃ p', r'.percentile = some p' ∧ p ≤ p'

theorem Raised.refl (r : EventRarityResult) : Raised r r := ⟨rfl, fun p hp => ⟨p, hp, le_rfl⟩⟩

theorem Raised.metric_eq {r r' : EventRarityResult} (h : Raised r r') : r'.metric = r.metric := by
  rw [h.1]

/-- a higher percentile gives no fewer points -/
theorem Raised.points_le {r r' : EventRarityResult} (h : Raised r r') {weight : ℚ} (hweight : 0 ≤ weight) :
    points weight r.percentile ≤ points weight r'.percentile := by
  cases hp : r.percentile with
  | none => exact points_nonneg hweight r'.percentile
  | some p =>
    obtain ⟨p', hp', hle⟩ := h.2 p hp
    rw [hp']
    exact points_mono hweight hle

/-- one component against the same with a higher percentile -/
def NoLower (c c' : ImpactComponent) : Prop :=
  c'.metric = c.metric ∧ c'.populationSize = c.populationSize ∧ c.pointsAwarded ≤ c'.pointsAwarded

theorem Raised.component {r r' : EventRarityResult} (h : Raised r r') {d : ImpactComponentDefinition}
    (hweight : 0 ≤ d.weight) : NoLower (component d r) (component d r') := by
  refine ⟨rfl, ?_, roundCents_mono (h.points_le hweight)⟩
  show r'.populationSize = r.populationSize
  rw [h.1]

/-- the first result of a metric is raised with the list -/
theorem find_raised {results results' : List EventRarityResult} (h : List.Forall₂ Raised results results')
    (metric : BaselineMetric) :
    Option.Rel Raised (results.find? fun r => r.metric = metric) (results'.find? fun r => r.metric = metric) := by
  induction h with
  | nil => exact .none
  | @cons r r' results results' hr _ ih =>
    by_cases hm : r.metric = metric
    · rw [List.find?_cons_of_pos (by simpa using hm), List.find?_cons_of_pos (by simpa [hr.metric_eq] using hm)]
      exact .some hr
    · rw [List.find?_cons_of_neg (by simpa using hm), List.find?_cons_of_neg (by simpa [hr.metric_eq] using hm)]
      exact ih

/-- **Component by component** the points are no lower. -/
theorem available_raised {results results' : List EventRarityResult} (h : List.Forall₂ Raised results results')
    {defs : List ImpactComponentDefinition} (hdefs : ∀ d ∈ defs, 0 ≤ d.weight) :
    List.Forall₂ NoLower (available results defs) (available results' defs) := by
  induction defs with
  | nil => exact .nil
  | cons d defs ih =>
    have ih := ih fun d' hd' => hdefs d' (List.mem_cons_of_mem d hd')
    have hfind := find_raised h d.metric
    rw [available, available]
    cases hr : results.find? fun r => r.metric = d.metric with
    | none =>
      rw [hr] at hfind
      cases hr' : results'.find? fun r => r.metric = d.metric with
      | none =>
        rw [List.filterMap_cons_none (by rw [hr]; rfl), List.filterMap_cons_none (by rw [hr']; rfl)]
        exact ih
      | some r' =>
        rw [hr'] at hfind
        cases hfind
    | some r =>
      rw [hr] at hfind
      cases hr' : results'.find? fun r => r.metric = d.metric with
      | none =>
        rw [hr'] at hfind
        cases hfind
      | some r' =>
        rw [hr'] at hfind
        cases hfind with
        | some hraised =>
          rw [List.filterMap_cons_some (by rw [hr]; rfl), List.filterMap_cons_some (by rw [hr']; rfl)]
          exact .cons (hraised.component (hdefs d List.mem_cons_self)) ih

/-- one element is replaced by a related one -/
theorem forall₂_set {α : Type} {R : α → α → Prop} (hrefl : ∀ x, R x x) {l : List α} {i : ℕ} {x y : α} (hx : l[i]? = some x)
    (hxy : R x y) : List.Forall₂ R l (l.set i y) := by
  induction l generalizing i with
  | nil => cases hx
  | cons z l ih =>
    cases i with
    | zero =>
      cases hx
      exact .cons hxy (List.forall₂_same.2 fun z _ => hrefl z)
    | succ i => exact .cons (hrefl z) (ih hx)

theorem sum_points_le {components components' : List ImpactComponent} (h : List.Forall₂ NoLower components components') :
    (components.map (·.pointsAwarded)).sum ≤ (components'.map (·.pointsAwarded)).sum := by
  induction h with
  | nil => exact le_rfl
  | cons hc _ ih =>
    rw [List.map_cons, List.map_cons, List.sum_cons, List.sum_cons]
    exact add_le_add hc.2.2 ih

/-- the same components with the same populations are there -/
theorem shown_of_noLower {results results' : List EventRarityResult}
    (h : List.Forall₂ NoLower (scored eventType results) (scored eventType results')) (hshown : Shown eventType results) :
    Shown eventType results' := by
  obtain ⟨hpopulations, hne, hcoverage⟩ := hshown
  have hlength := h.length_eq
  refine ⟨?_, ?_, hlength ▸ hcoverage⟩
  · intro c' hc'
    obtain ⟨i, hi, rfl⟩ := List.mem_iff_getElem.1 hc'
    have hpair := (List.forall₂_iff_get.1 h).2 i (hlength ▸ hi) hi
    rw [List.get_eq_getElem, List.get_eq_getElem] at hpair
    rw [hpair.2.1]
    exact hpopulations _ (List.getElem_mem _)
  · intro hnil
    rw [hnil, List.length_nil, List.length_eq_zero_iff] at hlength
    exact hne hlength

/-- **Bounded and monotone.** -/
theorem impact_bounded_and_monotone (eventType : EventType) (rarityResults : List EventRarityResult)
    (modelVersion : Option String) (h : Percentages rarityResults) :
    (∀ c ∈ (calculateImpact eventType rarityResults modelVersion).components,
      0 ≤ c.pointsAwarded ∧ c.pointsAwarded ≤ c.weight) ∧
    (∀ score, (calculateImpact eventType rarityResults modelVersion).totalScore = some score → 0 ≤ score ∧ score ≤ 100) ∧
    ∀ i r p', rarityResults[i]? = some r → (∀ p, r.percentile = some p → p ≤ p') → 0 ≤ p' → p' ≤ 100 →
      List.Forall₂ NoLower (calculateImpact eventType rarityResults modelVersion).components
        (calculateImpact eventType (rarityResults.set i { r with percentile := some p' }) modelVersion).components ∧
      ∀ score, (calculateImpact eventType rarityResults modelVersion).totalScore = some score →
        ∃ score', (calculateImpact eventType (rarityResults.set i { r with percentile := some p' })
          modelVersion).totalScore = some score' ∧ score ≤ score' := by
  refine ⟨?_, ?_, ?_⟩
  · rw [components_calculateImpact]
    exact pointsAwarded_bounds h
  · intro score hscore
    rw [totalScore_calculateImpact] at hscore
    split_ifs at hscore
    obtain rfl := Option.some.inj hscore
    exact totalOf_bounds h
  · intro i r p' hr hp' hnonneg hle
    set raised := rarityResults.set i { r with percentile := some p' } with hraised
    have hlist : List.Forall₂ Raised rarityResults raised :=
      forall₂_set Raised.refl hr ⟨rfl, fun p hp => ⟨p', rfl, hp' p hp⟩⟩
    have hpercentages : Percentages raised := by
      intro r' hr' q hq
      rcases List.mem_or_eq_of_mem_set hr' with hmem | rfl
      · exact h r' hmem q hq
      · obtain rfl := Option.some.inj hq
        exact ⟨hnonneg, hle⟩
    have hcomponents : List.Forall₂ NoLower (scored eventType rarityResults) (scored eventType raised) :=
      available_raised hlist (weight_nonneg eventType)
    rw [components_calculateImpact, components_calculateImpact]
    refine ⟨hcomponents, ?_⟩
    intro score hscore
    rw [totalScore_calculateImpact] at hscore ⊢
    split_ifs at hscore with hshown
    obtain rfl := Option.some.inj hscore
    rw [if_pos (shown_of_noLower hcomponents hshown)]
    refine ⟨_, rfl, ?_⟩
    rw [totalOf_eq (sum_points_bounds h).2, totalOf_eq (sum_points_bounds hpercentages).2]
    exact roundCents_mono (sum_points_le hcomponents)

/-- a fee rate among the rarest and an ordinary fee -/
def rareFee : List EventRarityResult := [
  ⟨0, 0, .extremeFee, .feeRateSatVb, .decimalScaled 12345 2, some (999 / 10), .exactEmpiricalCdf, false, .extreme, 1000, 1,
    .retrospective⟩,
  ⟨0, 0, .extremeFee, .feeSats, .u64 500, some 60, .exactEmpiricalCdf, false, .common, 1000, 400, .retrospective⟩]

theorem impact_bounded_and_monotone_fee :
    (calculateImpact .extremeFee rareFee none).totalScore = some (6788 / 100) ∧
    ∀ score, (calculateImpact .extremeFee rareFee none).totalScore = some score → 0 ≤ score ∧ score ≤ 100 := by
  have hpercentages : Percentages rareFee := by
    intro r hr p hp
    simp only [rareFee, List.mem_cons, List.not_mem_nil, or_false] at hr
    rcases hr with rfl | rfl <;> cases hp <;> norm_num
  exact ⟨by decide +kernel, (impact_bounded_and_monotone .extremeFee rareFee none hpercentages).2.1⟩

end ImpactCalculator

end ObsChain
