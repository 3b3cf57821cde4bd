/-
Exact and estimated percentiles (`rank_value` and `rank_from_distribution` of `baseline.rs`).

The exact percentile counts the samples; the estimate interpolates between the stored quantiles, when the samples are not at
hand. `rankFrom` reads the values through any view of them as numbers. The code's view is `MetricValue.toF64`, which rounds
from 2^53 on; `MetricValue.numeric` is the exact one. Both are a `FloatView`: they keep the order, and values they tell apart
are `f64::EPSILON` apart, so that the loop collapses no two of them. The percentages themselves are exact rationals.

`Bracketed` is the argument: a knot (rank, value) below the value has a rank that the exact percentile reaches, and a knot
above it one that it does not pass. For the extremes this is plain, for the quantiles it is `IsQuantile`. The loop of the
estimate finds the two knots around the value (`interpolate_bracket`).

- `floatView_toF64`, `floatView_numeric`: the two views.
- `percentiles_in_one_bracket`: with the exact view, the two percentiles lie between the same two ranks.
-/
import Mathlib.Tactic
import ObsChain.Domain.MetricForms
import ObsChain.Statistics.Quantiles

namespace ObsChain

open OrderStatistics

namespace BaselineCalculator

/-! ## The two ranks -/

/-- percentile and tail count of a value among samples -/
def rankValue (sortedSamples : List MetricValue) (value : MetricValue) (direction : RarityDirection) : ℚ × ℕ :=
  if sortedSamples.isEmpty then (0, 0)
  else
    let n := sortedSamples.length
    let countLe := (sortedSamples.filter fun v => decide (v ≤ value)).length
    let countGe := (sortedSamples.filter fun v => decide (v ≥ value)).length
    match direction with
    | .higherIsRarer | .twoSided => ((countLe : ℚ) / n * 100, countGe)
    | .lowerIsRarer => ((countGe : ℚ) / n * 100, countLe)

/-- `f64::EPSILON` -/
def epsilon : ℚ := 1 / 2 ^ 52

/-- the loop over consecutive knots (rank, value): the first pair around the value is interpolated -/
def interpolate (val : ℚ) : List (ℚ × ℚ) → ℚ
  | (qLow, vLow) :: (qHigh, vHigh) :: rest =>
    if val ≥ vLow ∧ val ≤ vHigh then
      if |vHigh - vLow| < epsilon then qHigh
      else
        let fraction := (val - vLow) / (vHigh - vLow)
        qLow + fraction * (qHigh - qLow)
    else interpolate val ((qHigh, vHigh) :: rest)
  | _ => 50

/-- the extremes and the stored quantiles, with their ranks -/
def knots (view : MetricValue → ℚ) (dist : BaselineDistribution) : List (ℚ × ℚ) :=
  [(0, view dist.minimum), (50, view dist.p50), (75, view dist.p75), (90, view dist.p90), (95, view dist.p95),
    (99, view dist.p99), (999 / 10, view dist.p999), (100, view dist.maximum)]

/-- percentile and tail count of a value, estimated from a distribution whose values are read through a view -/
def rankFrom (view : MetricValue → ℚ) (dist : BaselineDistribution) (value : MetricValue) (direction : RarityDirection) :
    ℚ × ℕ :=
  let n := dist.sampleCount
  if n = 0 then (0, 0)
  else if view value ≤ view dist.minimum then (if direction = .lowerIsRarer then 100 else 0, n)
  else if view value ≥ view dist.maximum then (if direction = .lowerIsRarer then 0 else 100, 1)
  else
    let percentile := interpolate (view value) (knots view dist)
    (percentile, (max ⌈(100 - percentile) / 100 * n⌉ 1).toNat)

/-- percentile and tail count of a value, estimated from a distribution -/
def rankFromDistribution (dist : BaselineDistribution) (value : MetricValue) (direction : RarityDirection) : ℚ × ℕ :=
  rankFrom MetricValue.toF64 dist value direction

/-- the ranks between which both percentiles are compared -/
def ranks : List ℚ := [0, 50, 75, 90, 95, 99, 999 / 10, 100]

theorem map_knots (view : MetricValue → ℚ) (dist : BaselineDistribution) : (knots view dist).map (·.1) = ranks := rfl

end BaselineCalculator

/-! ## Numbers of one metric -/

namespace MetricValue

/-- values of one form are hundredths apart -/
theorem hundredth_le_of_lt {form : MetricForm} {a b : MetricValue} (ha : a.HasForm form) (hb : b.HasForm form)
    (h : a.numeric < b.numeric) : a.numeric + 1 / 100 ≤ b.numeric := by
  have hstep : ∀ {v w : ℕ}, v < w → (v : ℚ) + 1 ≤ w := fun hlt => by exact_mod_cast hlt
  cases form <;> cases a <;> simp only [HasForm] at ha <;> cases b <;> simp only [HasForm] at hb
  case u64.u64.u64 v w =>
    have hle := hstep (Nat.cast_lt.1 h)
    simp only [numeric]
    linarith
  case u128.u128.u128 v w =>
    have hle := hstep (Nat.cast_lt.1 h)
    simp only [numeric]
    linarith
  case basisPoints.basisPoints.basisPoints v w =>
    simp only [numeric] at h ⊢
    rw [div_lt_div_iff_of_pos_right (by norm_num), Nat.cast_lt] at h
    have hle := hstep h
    linarith
  case hundredths.decimalScaled.decimalScaled v s w s' =>
    obtain ⟨-, rfl⟩ := ha
    obtain ⟨-, rfl⟩ := hb
    simp only [numeric] at h ⊢
    rw [div_lt_div_iff_of_pos_right (by norm_num), Nat.cast_lt] at h
    have hle := hstep h
    linarith

end MetricValue

namespace BaselineCalculator

/-- a view of a form's values as numbers: it keeps the order, and what it tells apart is `epsilon` apart -/
structure FloatView (form : MetricForm) (view : MetricValue → ℚ) : Prop where
  mono : ∀ {a b : MetricValue}, a.HasForm form → b.HasForm form → a ≤ b → view a ≤ view b
  gap : ∀ {a b : MetricValue}, a.HasForm form → b.HasForm form → view a < view b → view a + epsilon ≤ view b

/-- what a view puts below is below -/
theorem FloatView.lt {form : MetricForm} {view : MetricValue → ℚ} {a b : MetricValue} (hview : FloatView form view)
    (ha : a.HasForm form) (hb : b.HasForm form) (h : view a < view b) : a < b := by
  by_contra hle
  exact absurd h (not_lt.2 (hview.mono hb ha (not_lt.1 hle)))

/-- the exact numbers -/
theorem floatView_numeric (form : MetricForm) : FloatView form MetricValue.numeric where
  mono ha hb hle := (MetricValue.numeric_le_iff ha hb).2 hle
  gap ha hb hlt := by
    have hle := MetricValue.hundredth_le_of_lt ha hb hlt
    rw [epsilon]
    linarith

/-- rounded numbers are whole, up to the last binary digit of 1 -/
theorem round_gap {v w : ℕ} (h : Binary64.round v < Binary64.round w) :
    Binary64.round v + epsilon ≤ Binary64.round w := by
  have hlt : v < w := by
    by_contra hle
    exact absurd h (not_lt.2 (Binary64.round_le_round (Nat.cast_nonneg w) (Nat.cast_le.2 (not_lt.1 hle))))
  have hw : (1 : ℚ) ≤ w := by exact_mod_cast Nat.one_le_iff_ne_zero.2 (Nat.ne_zero_of_lt hlt)
  rcases Nat.eq_zero_or_pos v with rfl | hpos
  · have hone : Binary64.round 1 ≤ Binary64.round w := Binary64.round_le_round zero_le_one hw
    have heq : Binary64.round 1 = 1 := by exact_mod_cast Binary64.round_natCast (k := 1) (by norm_num)
    rw [Nat.cast_zero, Binary64.round_zero, epsilon]
    linarith
  · exact Binary64.add_le_of_round_lt (by exact_mod_cast hpos) hw h

/-- the cast of a number of hundredths and its quotient keep the order -/
theorem round_hundredths_mono {v w : ℕ} (h : v ≤ w) :
    Binary64.round (Binary64.round v / 100) ≤ Binary64.round (Binary64.round w / 100) := by
  have hcast := Binary64.round_le_round (Nat.cast_nonneg v) (Nat.cast_le (α := ℚ).2 h)
  have hnonneg := Binary64.round_nonneg (Nat.cast_nonneg (α := ℚ) v)
  exact Binary64.round_le_round (by positivity) (by linarith)

/-- below 1 hundredths fall apart on a grid of 1/512, and above the rounded quotients are multiples of `epsilon` -/
theorem round_hundredths_gap {v w : ℕ}
    (h : Binary64.round (Binary64.round v / 100) < Binary64.round (Binary64.round w / 100)) :
    Binary64.round (Binary64.round v / 100) + epsilon ≤ Binary64.round (Binary64.round w / 100) := by
  have hlt : v < w := by
    by_contra hle
    exact absurd h (not_lt.2 (round_hundredths_mono (not_lt.1 hle)))
  have hhundred : ∀ u : ℕ, 100 ≤ u → (1 : ℚ) ≤ Binary64.round u / 100 := by
    intro u hu
    have hround := Binary64.round_le_round (by norm_num : (0 : ℚ) ≤ (100 : ℕ)) (Nat.cast_le.2 hu)
    rw [Binary64.round_natCast (by norm_num)] at hround
    push_cast at hround
    linarith
  by_cases hv : 100 ≤ v
  · exact Binary64.add_le_of_round_lt (hhundred v hv) (hhundred w (by omega)) h
  -- the grid is finer than half a hundredth
  have hgrid : ∀ u : ℕ, v < u → u ≤ 100 →
      Binary64.round (Binary64.round v / 100) + 1 / 512 ≤ Binary64.round (Binary64.round u / 100) := by
    intro u hvu hu
    rw [Binary64.round_natCast (k := v) (by omega), Binary64.round_natCast (k := u) (by omega)]
    obtain ⟨k, hlow, hhigh⟩ : ∃ k, 512 * v ≤ 100 * k ∧ 100 * (k + 1) ≤ 512 * u := ⟨(512 * v + 99) / 100, by omega, by omega⟩
    have hlow' : (512 : ℚ) * v ≤ 100 * k := by exact_mod_cast hlow
    have hhigh' : (100 : ℚ) * ((k + 1 : ℕ) : ℚ) ≤ 512 * u := by exact_mod_cast hhigh
    exact Binary64.add_le_of_grid (k := k) (by positivity) (by omega) (by linarith) (by linarith)
  rw [epsilon]
  rcases Nat.le_total w 100 with hw | hw
  · have hstep := hgrid w hlt hw
    linarith
  · have hstep := hgrid 100 (by omega) le_rfl
    have hrest := round_hundredths_mono hw
    linarith

theorem toF64_hundredths (v : ℕ) :
    (MetricValue.decimalScaled v 2).toF64 = Binary64.round (Binary64.round v / 100) := by
  norm_num [MetricValue.toF64]

/-- **The code's floats.** -/
theorem floatView_toF64 (form : MetricForm) : FloatView form MetricValue.toF64 where
  mono := by
    intro a b ha hb hle
    have hunits := (MetricValue.payload_le_iff ha hb).2 hle
    cases form <;> cases a <;> simp only [MetricValue.HasForm] at ha <;> cases b <;> simp only [MetricValue.HasForm] at hb
    case u64.u64.u64 v w => exact Binary64.round_le_round (Nat.cast_nonneg v) (Nat.cast_le.2 hunits)
    case u128.u128.u128 v w => exact Binary64.round_le_round (Nat.cast_nonneg v) (Nat.cast_le.2 hunits)
    case basisPoints.basisPoints.basisPoints v w => exact round_hundredths_mono hunits
    case hundredths.decimalScaled.decimalScaled v s w s' =>
      obtain ⟨-, rfl⟩ := ha
      obtain ⟨-, rfl⟩ := hb
      rw [toF64_hundredths, toF64_hundredths]
      exact round_hundredths_mono hunits
  gap := by
    intro a b ha hb hlt
    cases form <;> cases a <;> simp only [MetricValue.HasForm] at ha <;> cases b <;> simp only [MetricValue.HasForm] at hb
    case u64.u64.u64 v w => exact round_gap hlt
    case u128.u128.u128 v w => exact round_gap hlt
    case basisPoints.basisPoints.basisPoints v w => exact round_hundredths_gap hlt
    case hundredths.decimalScaled.decimalScaled v s w s' =>
      obtain ⟨-, rfl⟩ := ha
      obtain ⟨-, rfl⟩ := hb
      rw [toF64_hundredths, toF64_hundredths] at hlt ⊢
      exact round_hundredths_gap hlt

/-! ## The loop of the estimate -/

/-- a value below a knot is interpolated between it and the one before -/
theorem interpolate_of_le {val : ℚ} {first next : ℚ × ℚ} {rest : List (ℚ × ℚ)} (hfirst : first.2 < val) (hle : val ≤ next.2)
    (hfar : epsilon ≤ next.2 - first.2) :
    interpolate val (first :: next :: rest) = first.1 + (val - first.2) / (next.2 - first.2) * (next.1 - first.1) := by
  have hopen : ¬ |next.2 - first.2| < epsilon := by
    rw [abs_of_pos (by linarith), not_lt]
    exact hfar
  rw [interpolate, if_pos ⟨hfirst.le, hle⟩, if_neg hopen]

/-- a knot below the value is passed -/
theorem interpolate_of_lt {val : ℚ} {next : ℚ × ℚ} (first : ℚ × ℚ) (rest : List (ℚ × ℚ)) (hlt : next.2 < val) :
    interpolate val (first :: next :: rest) = interpolate val (next :: rest) := by
  rw [interpolate, if_neg fun h => not_le.2 hlt h.2]

/-- **The first pair of knots around the value** is interpolated. Between knots that are `epsilon` apart nothing collapses. -/
theorem interpolate_bracket {val : ℚ} {first : ℚ × ℚ} {rest : List (ℚ × ℚ)} (hfirst : first.2 < val)
    (hne : ∀ k ∈ rest, val ≠ k.2) (hstep : ∀ k ∈ rest, val < k.2 → val + epsilon ≤ k.2) (habove : ∃ k ∈ rest, val < k.2) :
    ∃ i low high, (first :: rest)[i]? = some low ∧ (first :: rest)[i + 1]? = some high ∧ low.2 < val ∧ val < high.2 ∧
      interpolate val (first :: rest) = low.1 + (val - low.2) / (high.2 - low.2) * (high.1 - low.1) := by
  induction rest generalizing first with
  | nil =>
    obtain ⟨k, hk, -⟩ := habove
    cases hk
  | cons next rest ih =>
    by_cases hnext : val < next.2
    · refine ⟨0, first, next, rfl, rfl, hfirst, hnext, ?_⟩
      have hgap := hstep next List.mem_cons_self hnext
      exact interpolate_of_le hfirst hnext.le (by linarith)
    · -- the next knot is below the value too
      have hbelow : next.2 < val := lt_of_le_of_ne (not_lt.1 hnext) (Ne.symm (hne next List.mem_cons_self))
      have habove' : ∃ k ∈ rest, val < k.2 := by
        obtain ⟨k, hk, hlt⟩ := habove
        rcases List.mem_cons.1 hk with heq | hmem
        · exact absurd (heq ▸ hlt) hnext
        · exact ⟨k, hmem, hlt⟩
      obtain ⟨i, low, high, hlow, hhigh, hlt, hgt, heq⟩ := ih hbelow (fun k hk => hne k (List.mem_cons_of_mem _ hk))
        (fun k hk => hstep k (List.mem_cons_of_mem _ hk)) habove'
      refine ⟨i + 1, low, high, hlow, hhigh, hlt, hgt, ?_⟩
      rw [interpolate_of_lt first rest hbelow]
      exact heq

/-- an interpolated rank is strictly between the two -/
theorem between_of_fraction {low high val v w : ℚ} (hrank : low < high) (hv : v < val) (hw : val < w) :
    low < low + (val - v) / (w - v) * (high - low) ∧ low + (val - v) / (w - v) * (high - low) < high := by
  have hpos : 0 < (val - v) / (w - v) := div_pos (by linarith) (by linarith)
  have hlt : (val - v) / (w - v) < 1 := by
    rw [div_lt_one (by linarith)]
    linarith
  constructor
  · nlinarith
  · nlinarith

/-- consecutive ranks grow -/
theorem ranks_lt {i : ℕ} {low high : ℚ} (hlow : ranks[i]? = some low) (hhigh : ranks[i + 1]? = some high) : low < high := by
  obtain ⟨hi, rfl⟩ := List.getElem?_eq_some_iff.1 hlow
  obtain ⟨hj, rfl⟩ := List.getElem?_eq_some_iff.1 hhigh
  have hsorted : ranks.Pairwise (· < ·) := by
    norm_num [ranks]
  exact List.pairwise_iff_getElem.1 hsorted i (i + 1) hi hj (Nat.lt_succ_self i)

/-! ## The exact percentile at the knots -/

/-- a knot below the value has a rank the percentile reaches, and one above it a rank it does not pass -/
def Bracketed (percentile val : ℚ) (knot : ℚ × ℚ) : Prop :=
  (knot.2 < val → knot.1 ≤ percentile) ∧ (val < knot.2 → percentile ≤ knot.1)

theorem rankValue_higher {samples : List MetricValue} (hne : samples ≠ []) (value : MetricValue) :
    (rankValue samples value .higherIsRarer).1 = (samples.countP (· ≤ value) : ℚ) / samples.length * 100 := by
  have hempty : samples.isEmpty = false := by simpa using hne
  rw [rankValue, hempty, List.countP_eq_length_filter]
  rfl

/-- the count does not depend on the order -/
theorem rankValue_perm {samples samples' : List MetricValue} (h : samples.Perm samples') (value : MetricValue)
    (direction : RarityDirection) : rankValue samples value direction = rankValue samples' value direction := by
  have hempty : samples.isEmpty = samples'.isEmpty := by
    rw [Bool.eq_iff_iff, List.isEmpty_iff_length_eq_zero, List.isEmpty_iff_length_eq_zero, h.length_eq]
  simp only [rankValue, hempty, h.length_eq, (h.filter _).length_eq]

variable {form : MetricForm} {samples : List MetricValue} {value : MetricValue}

theorem numeric_lt_iff {a b : MetricValue} (ha : a.HasForm form) (hb : b.HasForm form) : a.numeric < b.numeric ↔ a < b := by
  rw [← not_le, ← not_le, MetricValue.numeric_le_iff hb ha]

theorem numeric_ne {a b : MetricValue} (ha : a.HasForm form) (hb : b.HasForm form) (h : a ≠ b) : a.numeric ≠ b.numeric := by
  rcases lt_or_gt_of_ne h with hlt | hgt
  · exact ((numeric_lt_iff ha hb).2 hlt).ne
  · exact ((numeric_lt_iff hb ha).2 hgt).ne'

/-- **A quantile brackets the percentile.** -/
theorem bracketed_of_isQuantile (hne : samples ≠ []) (hvalue : value.HasForm form) {q : ℚ} {x : MetricValue}
    (hx : x.HasForm form) (h : IsQuantile samples q x) :
    Bracketed (rankValue samples value .higherIsRarer).1 value.numeric (q * 100, x.numeric) := by
  have hn : (0 : ℚ) < samples.length := by exact_mod_cast List.length_pos_of_ne_nil hne
  rw [rankValue_higher hne]
  constructor
  · intro hlt
    have hcount := h.le_countP ((numeric_lt_iff hx hvalue).1 hlt).le
    have hle : q ≤ (samples.countP (· ≤ value) : ℚ) / samples.length := (le_div_iff₀ hn).2 hcount
    show q * 100 ≤ _
    linarith
  · intro hgt
    have hcount := h.countP_lt ((numeric_lt_iff hvalue hx).1 hgt)
    have hle : (samples.countP (· ≤ value) : ℚ) / samples.length ≤ q := (div_le_iff₀ hn).2 hcount.le
    show _ ≤ q * 100
    linarith

/-- the percentile is a percentage -/
theorem rankValue_bounds (hne : samples ≠ []) (value : MetricValue) :
    0 ≤ (rankValue samples value .higherIsRarer).1 ∧ (rankValue samples value .higherIsRarer).1 ≤ 100 := by
  have hn : (0 : ℚ) < samples.length := by exact_mod_cast List.length_pos_of_ne_nil hne
  have hcount : (samples.countP (· ≤ value) : ℚ) ≤ samples.length := by exact_mod_cast List.countP_le_length
  have hle : (samples.countP (· ≤ value) : ℚ) / samples.length ≤ 1 := (div_le_one hn).2 hcount
  have hnonneg : 0 ≤ (samples.countP (· ≤ value) : ℚ) / samples.length := by positivity
  rw [rankValue_higher hne]
  constructor <;> linarith

variable {dist : BaselineDistribution}

theorem sampleCount_ne_zero (h : dist.Describes samples) : dist.sampleCount ≠ 0 := by
  rw [h.sampleCount, Ne, List.length_eq_zero_iff]
  exact List.ne_nil_of_mem h.minimum.1

theorem knots_eq (view : MetricValue → ℚ) (dist : BaselineDistribution) :
    knots view dist = (0, view dist.minimum) ::
      (dist.quantiles.map (fun r => (r.1 * 100, view r.2)) ++ [(100, view dist.maximum)]) := by
  simp only [knots, QuantileDistribution.quantiles, List.map_cons, List.map_nil, List.cons_append, List.nil_append]
  norm_num

/-- the knots are the two ends and the stored quantiles -/
theorem mem_knots {view : MetricValue → ℚ} {k : ℚ × ℚ} (hk : k ∈ knots view dist) :
    k = (0, view dist.minimum) ∨ (∃ p ∈ dist.quantiles, k = (p.1 * 100, view p.2)) ∨ k = (100, view dist.maximum) := by
  rw [knots_eq, List.mem_cons, List.mem_append, List.mem_map, List.mem_singleton] at hk
  rcases hk with hmin | ⟨p, hp, hpk⟩ | hmax
  · exact .inl hmin
  · exact .inr (.inl ⟨p, hp, hpk.symm⟩)
  · exact .inr (.inr hmax)

/-- every knot is at a sample -/
theorem knot_mem (h : dist.Describes samples) (view : MetricValue → ℚ) :
    ∀ k ∈ knots view dist, ∃ x ∈ samples, k.2 = view x := by
  intro k hk
  rcases mem_knots hk with rfl | ⟨p, hp, rfl⟩ | rfl
  · exact ⟨_, h.minimum.1, rfl⟩
  · exact ⟨_, (h.quantile p hp).mem, rfl⟩
  · exact ⟨_, h.maximum.1, rfl⟩

/-- every knot brackets the percentile of a value strictly between the extremes -/
theorem knot_bracketed (hform : ∀ v ∈ samples, v.HasForm form) (h : dist.Describes samples)
    (hvalue : value.HasForm form) (hmin : dist.minimum < value) (hmax : value < dist.maximum) :
    ∀ k ∈ knots MetricValue.numeric dist, Bracketed (rankValue samples value .higherIsRarer).1 value.numeric k := by
  have hne : samples ≠ [] := List.ne_nil_of_mem h.minimum.1
  have hbounds := rankValue_bounds hne value
  have hlow := (numeric_lt_iff (hform _ h.minimum.1) hvalue).2 hmin
  have hhigh := (numeric_lt_iff hvalue (hform _ h.maximum.1)).2 hmax
  intro k hk
  rcases mem_knots hk with rfl | ⟨p, hp, rfl⟩ | rfl
  · exact ⟨fun _ => hbounds.1, fun hlt => absurd hlt hlow.not_gt⟩
  · exact bracketed_of_isQuantile hne hvalue (hform _ (h.quantile p hp).mem) (h.quantile p hp)
  · exact ⟨fun hlt => absurd hlt hhigh.not_gt, fun _ => hbounds.2⟩

/-- **The exact and the estimated percentile lie between the same two ranks.** -/
theorem percentiles_in_one_bracket (metric : BaselineMetric) (samples sortedSamples : List MetricValue)
    (candidateCount : ℕ) (dist : BaselineDistribution) (value : MetricValue)
    (hform : ∀ v ∈ samples, v.HasForm metric.form)
    (hdist : computeDistribution samples candidateCount = some dist.toQuantileDistribution)
    (hsorted : sortedSamples.Perm samples) (hvalue : value.HasForm metric.form) (hmin : dist.minimum < value)
    (hmax : value < dist.maximum) (hne : ∀ p ∈ dist.quantiles, value ≠ p.2) :
    ∃ i low high, ranks[i]? = some low ∧ ranks[i + 1]? = some high ∧
      low < (rankFrom MetricValue.numeric dist value .higherIsRarer).1 ∧
      (rankFrom MetricValue.numeric dist value .higherIsRarer).1 < high ∧
      low ≤ (rankValue sortedSamples value .higherIsRarer).1 ∧ (rankValue sortedSamples value .higherIsRarer).1 ≤ high := by
  have hdescribes := describes_computeDistribution hdist
  have hlow : dist.minimum.numeric < value.numeric := (numeric_lt_iff (hform _ hdescribes.minimum.1) hvalue).2 hmin
  have hhigh : value.numeric < dist.maximum.numeric := (numeric_lt_iff hvalue (hform _ hdescribes.maximum.1)).2 hmax
  have hother : ∀ k ∈ (knots MetricValue.numeric dist).tail, value.numeric ≠ k.2 := by
    intro k hk
    rcases mem_knots (List.mem_of_mem_tail hk) with rfl | ⟨p, hp, rfl⟩ | rfl
    · exact hlow.ne'
    · exact numeric_ne hvalue (hform _ (hdescribes.quantile p hp).mem) (hne p hp)
    · exact hhigh.ne
  have hstep : ∀ k ∈ (knots MetricValue.numeric dist).tail, value.numeric < k.2 → value.numeric + epsilon ≤ k.2 := by
    intro k hk hlt
    obtain ⟨x, hx, heq⟩ := knot_mem hdescribes _ k (List.mem_of_mem_tail hk)
    rw [heq] at hlt ⊢
    exact (floatView_numeric metric.form).gap hvalue (hform x hx) hlt
  have habove : ∃ k ∈ (knots MetricValue.numeric dist).tail, value.numeric < k.2 :=
    ⟨(100, dist.maximum.numeric), by simp [knots], hhigh⟩
  have hfirst : ((0 : ℚ), dist.minimum.numeric).2 < value.numeric := hlow
  obtain ⟨i, low, high, hi, hj, hbelow, habove, hinterp⟩ := interpolate_bracket hfirst hother hstep habove
  have hlowRank : ranks[i]? = some low.1 := by
    rw [← map_knots MetricValue.numeric dist, List.getElem?_map, knots]
    exact congrArg (Option.map _) hi
  have hhighRank : ranks[i + 1]? = some high.1 := by
    rw [← map_knots MetricValue.numeric dist, List.getElem?_map, knots]
    exact congrArg (Option.map _) hj
  have hestimate : (rankFrom MetricValue.numeric dist value .higherIsRarer).1 =
      interpolate value.numeric (knots MetricValue.numeric dist) := by
    rw [rankFrom, if_neg (sampleCount_ne_zero hdescribes), if_neg (not_le.2 hlow), if_neg (not_le.2 hhigh)]
  have hbracketed := knot_bracketed hform hdescribes hvalue hmin hmax
  obtain ⟨hgt, hlt⟩ := between_of_fraction (ranks_lt hlowRank hhighRank) hbelow habove
  refine ⟨i, low.1, high.1, hlowRank, hhighRank, ?_, ?_, ?_, ?_⟩
  · rw [hestimate]
    exact hinterp ▸ hgt
  · rw [hestimate]
    exact hinterp ▸ hlt
  · rw [rankValue_perm hsorted]
    exact (hbracketed low (List.mem_of_getElem? hi)).1 hbelow
  · rw [rankValue_perm hsorted]
    exact (hbracketed high (List.mem_of_getElem? hj)).2 habove

/-- four transfers, in the order they came -/
def fourSamples : List MetricValue := [.u64 40, .u64 10, .u64 80, .u64 20]

def fourDistribution : BaselineDistribution where
  eventType := .largeTransfer
  metric := .valueSats
  unit := .satoshis
  sampleCount := 4
  candidateCount := 4
  missingCount := 0
  coverageRatio := 1
  minimum := .u64 10
  maximum := .u64 80
  mean := 75 / 2
  p50 := .u64 20
  p75 := .u64 40
  p90 := .u64 80
  p95 := .u64 80
  p99 := .u64 80
  p999 := .u64 80
  quality := .insufficient

theorem percentiles_in_one_bracket_four :
    computeDistribution fourSamples 4 = some fourDistribution.toQuantileDistribution ∧
    ∃ i low high, ranks[i]? = some low ∧ ranks[i + 1]? = some high ∧
      low < (rankFrom MetricValue.numeric fourDistribution (.u64 30) .higherIsRarer).1 ∧
      (rankFrom MetricValue.numeric fourDistribution (.u64 30) .higherIsRarer).1 < high ∧
      low ≤ (rankValue fourSamples (.u64 30) .higherIsRarer).1 ∧
      (rankValue fourSamples (.u64 30) .higherIsRarer).1 ≤ high := by
  have hdist : computeDistribution fourSamples 4 = some fourDistribution.toQuantileDistribution := by decide +kernel
  have hform : ∀ v ∈ fourSamples, v.HasForm BaselineMetric.valueSats.form := by
    simp [fourSamples, BaselineMetric.form, MetricValue.HasForm]
  have hvalue : (MetricValue.u64 30).HasForm BaselineMetric.valueSats.form := by
    simp [BaselineMetric.form, MetricValue.HasForm]
  exact ⟨hdist, percentiles_in_one_bracket .valueSats fourSamples fourSamples 4 fourDistribution (.u64 30) hform hdist
    (List.Perm.refl _) hvalue (by decide) (by decide) (by simp [QuantileDistribution.quantiles, fourDistribution])⟩

end BaselineCalculator

end ObsChain
