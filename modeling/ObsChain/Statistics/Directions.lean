/-
The estimate where lower values are rarer (`rank_from_distribution` of `baseline.rs`).

The direction is consulted at the two ends only. Between them the estimate interpolates upwards, strictly from float to
float (`interpolate_lt_interpolate`), so where lower is rarer it falls from 100 to what it is at the first float above the
minimum and rises from there. It is non-increasing exactly when there are no two floats on the way. In units of the metric
(`MetricValue.payload`), that is so when the maximum is at most two above the minimum, and with the exact whole numbers up
to 2^53 only then (`atMostOneBetween_iff`).

- `estimate_antitone_iff`: when the estimate is non-increasing, over all values of the metric.
-/
import Mathlib.Tactic
import ObsChain.Statistics.EndsAndTies

namespace ObsChain

open OrderStatistics

namespace BaselineCalculator

/-! ## The interpolation -/

theorem epsilon_pos : 0 < epsilon := by norm_num [epsilon]

/-- a knot above a value that the next one is below comes later -/
theorem exists_above_of_lt {val : ℚ} {next : ℚ × ℚ} {rest : List (ℚ × ℚ)} (hnext : next.2 < val)
    (habove : ∃ k ∈ next :: rest, val ≤ k.2) : ∃ k ∈ rest, val ≤ k.2 := by
  obtain ⟨k, hk, hle⟩ := habove
  rcases List.mem_cons.1 hk with rfl | hmem
  · exact absurd hle (not_le.2 hnext)
  · exact ⟨k, hmem, hle⟩

/-- a value above the first knot is estimated above its rank, and not above the last rank -/
theorem interpolate_bounds {val last : ℚ} {first : ℚ × ℚ} {rest : List (ℚ × ℚ)} (hfirst : first.2 + epsilon ≤ val)
    (hranks : (first :: rest).Pairwise fun k k' => k.1 < k'.1) (hlast : ∀ k ∈ rest, k.1 ≤ last)
    (hstep : ∀ k ∈ rest, k.2 < val → k.2 + epsilon ≤ val) (habove : ∃ k ∈ rest, val ≤ k.2) :
    first.1 < interpolate val (first :: rest) ∧ interpolate val (first :: rest) ≤ last := by
  induction rest generalizing first with
  | nil =>
    obtain ⟨k, hk, -⟩ := habove
    cases hk
  | cons next rest ih =>
    rw [List.pairwise_cons] at hranks
    have hrank : first.1 < next.1 := hranks.1 next List.mem_cons_self
    by_cases hnext : val ≤ next.2
    · have hpositive : 0 < epsilon := epsilon_pos
      have hfar : epsilon ≤ next.2 - first.2 := by linarith
      have hpos : 0 < (val - first.2) / (next.2 - first.2) := div_pos (by linarith) (by linarith)
      have hle : (val - first.2) / (next.2 - first.2) ≤ 1 := by
        rw [div_le_one (by linarith)]
        linarith
      rw [interpolate_of_le (by linarith) hnext hfar]
      constructor
      · nlinarith
      · have hnextLast := hlast next List.mem_cons_self
        nlinarith
    · rw [not_le] at hnext
      obtain ⟨hgt, hle⟩ := ih (hstep next List.mem_cons_self hnext) hranks.2 (List.forall_mem_of_forall_mem_cons hlast)
        (List.forall_mem_of_forall_mem_cons hstep) (exists_above_of_lt hnext habove)
      rw [interpolate_of_lt first rest hnext]
      exact ⟨hrank.trans hgt, hle⟩

/-- **The interpolation grows strictly** above the first knot. -/
theorem interpolate_lt_interpolate {a b last : ℚ} {first : ℚ × ℚ} {rest : List (ℚ × ℚ)} (hab : a < b)
    (hfirst : first.2 + epsilon ≤ a) (hranks : (first :: rest).Pairwise fun k k' => k.1 < k'.1)
    (hlast : ∀ k ∈ rest, k.1 ≤ last) (ha : ∀ k ∈ rest, k.2 < a → k.2 + epsilon ≤ a)
    (hb : ∀ k ∈ rest, k.2 < b → k.2 + epsilon ≤ b)
    (habove : ∃ k ∈ rest, b ≤ k.2) : interpolate a (first :: rest) < interpolate b (first :: rest) := by
  induction rest generalizing first with
  | nil =>
    obtain ⟨k, hk, -⟩ := habove
    cases hk
  | cons next rest ih =>
    rw [List.pairwise_cons] at hranks
    have hrank : first.1 < next.1 := hranks.1 next List.mem_cons_self
    by_cases hnext : a ≤ next.2
    · have hpositive : 0 < epsilon := epsilon_pos
      have hfar : epsilon ≤ next.2 - first.2 := by linarith
      have hwidth : 0 < next.2 - first.2 := by linarith
      rw [interpolate_of_le (by linarith) hnext hfar]
      by_cases hnextB : b ≤ next.2
      · -- both are interpolated between the same two knots
        rw [interpolate_of_le (by linarith) hnextB hfar]
        have hfraction : (a - first.2) / (next.2 - first.2) < (b - first.2) / (next.2 - first.2) := by
          rw [div_lt_div_iff_of_pos_right hwidth]
          linarith
        nlinarith
      · rw [not_le] at hnextB
        have hle : (a - first.2) / (next.2 - first.2) ≤ 1 := by
          rw [div_le_one hwidth]
          linarith
        have hgt := (interpolate_bounds (hb next List.mem_cons_self hnextB) hranks.2
          (List.forall_mem_of_forall_mem_cons hlast) (List.forall_mem_of_forall_mem_cons hb)
          (exists_above_of_lt hnextB habove)).1
        rw [interpolate_of_lt first rest hnextB]
        nlinarith
    · rw [not_le] at hnext
      rw [interpolate_of_lt first rest hnext, interpolate_of_lt first rest (hnext.trans hab)]
      exact ih (ha next List.mem_cons_self hnext) hranks.2 (List.forall_mem_of_forall_mem_cons hlast)
        (List.forall_mem_of_forall_mem_cons ha) (List.forall_mem_of_forall_mem_cons hb)
        (exists_above_of_lt (hnext.trans hab) habove)

/-! ## The direction -/

/-- no two floats of the form strictly between those of the extremes -/
def AtMostOneBetween (form : MetricForm) (dist : BaselineDistribution) : Prop :=
  ∀ a b : MetricValue, a.HasForm form → b.HasForm form → dist.minimum.toF64 < a.toF64 → a.toF64 < b.toF64 →
    dist.maximum.toF64 ≤ b.toF64

section

variable {form : MetricForm} {samples : List MetricValue} {dist : BaselineDistribution} {a b : MetricValue}

/-- the knots below a value are `epsilon` below it -/
theorem knot_step {view : MetricValue → ℚ} (hview : FloatView form view) (hform : ∀ v ∈ samples, v.HasForm form)
    (h : dist.Describes samples) (hvalue : a.HasForm form) :
    ∀ k ∈ knots view dist, k.2 < view a → k.2 + epsilon ≤ view a := by
  intro k hk hlt
  obtain ⟨x, hx, heq⟩ := knot_mem h view k hk
  rw [heq] at hlt ⊢
  exact hview.gap (hform x hx) hvalue hlt

theorem pairwise_knots (view : MetricValue → ℚ) (dist : BaselineDistribution) :
    (knots view dist).Pairwise fun k k' => k.1 < k'.1 := by
  norm_num [knots]

theorem knots_le (view : MetricValue → ℚ) (dist : BaselineDistribution) : ∀ k ∈ knots view dist, k.1 ≤ 100 := by
  norm_num [knots]

variable (hform : ∀ v ∈ samples, v.HasForm form) (h : dist.Describes samples)
include hform h

/-- between the ends the estimate is a percentage above 0 -/
theorem estimate_bounds {view : MetricValue → ℚ} (hview : FloatView form view) (ha : a.HasForm form)
    (hlow : view dist.minimum < view a) (hhigh : view a < view dist.maximum) :
    0 < interpolate (view a) (knots view dist) ∧ interpolate (view a) (knots view dist) ≤ 100 := by
  have hstep := knot_step hview hform h ha
  exact interpolate_bounds (hstep (0, view dist.minimum) List.mem_cons_self hlow) (pairwise_knots view dist)
    (List.forall_mem_of_forall_mem_cons (knots_le view dist)) (List.forall_mem_of_forall_mem_cons hstep)
    ⟨(100, view dist.maximum), by simp, hhigh.le⟩

theorem estimate_strictMono {view : MetricValue → ℚ} (hview : FloatView form view) (ha : a.HasForm form)
    (hb : b.HasForm form) (hlow : view dist.minimum < view a) (hab : view a < view b) (hhigh : view b < view dist.maximum) :
    interpolate (view a) (knots view dist) < interpolate (view b) (knots view dist) := by
  have hstepA := knot_step hview hform h ha
  have hstepB := knot_step hview hform h hb
  exact interpolate_lt_interpolate hab (hstepA (0, view dist.minimum) List.mem_cons_self hlow) (pairwise_knots view dist)
    (List.forall_mem_of_forall_mem_cons (knots_le view dist)) (List.forall_mem_of_forall_mem_cons hstepA)
    (List.forall_mem_of_forall_mem_cons hstepB) ⟨(100, view dist.maximum), by simp, hhigh.le⟩

theorem percentile_bounds (ha : a.HasForm form) (direction : RarityDirection) :
    0 ≤ (rankFromDistribution dist a direction).1 ∧ (rankFromDistribution dist a direction).1 ≤ 100 := by
  by_cases hlow : a.toF64 ≤ dist.minimum.toF64
  · rw [estimate_low h hlow]
    split_ifs <;> norm_num
  rw [not_le] at hlow
  by_cases hhigh : dist.maximum.toF64 ≤ a.toF64
  · rw [estimate_high h hlow hhigh]
    split_ifs <;> norm_num
  rw [not_le] at hhigh
  rw [estimate_between h hlow hhigh]
  obtain ⟨hpos, hle⟩ := estimate_bounds hform h (floatView_toF64 form) ha hlow hhigh
  exact ⟨hpos.le, hle⟩

end

/-- **Non-increasing, exactly when** there is at most one float between those of the extremes. -/
theorem estimate_antitone_iff (metric : BaselineMetric) (samples : List MetricValue) (candidateCount : ℕ)
    (dist : BaselineDistribution) (hform : ∀ v ∈ samples, v.HasForm metric.form)
    (hdist : computeDistribution samples candidateCount = some dist.toQuantileDistribution) :
    (∀ a b : MetricValue, a.HasForm metric.form → b.HasForm metric.form → a ≤ b →
      (rankFromDistribution dist b .lowerIsRarer).1 ≤ (rankFromDistribution dist a .lowerIsRarer).1) ↔
      AtMostOneBetween metric.form dist := by
  have h := describes_computeDistribution hdist
  have hview := floatView_toF64 metric.form
  constructor
  · intro hantitone a b ha hb hlow hab
    by_contra hhigh
    rw [not_le] at hhigh
    have hle := hantitone a b ha hb (hview.lt ha hb hab).le
    rw [estimate_between h hlow (hab.trans hhigh), estimate_between h (hlow.trans hab) hhigh] at hle
    exact absurd (estimate_strictMono hform h hview ha hb hlow hab hhigh) (not_lt.2 hle)
  · intro hone a b ha hb hab
    have hfloat := hview.mono ha hb hab
    by_cases hlow : a.toF64 ≤ dist.minimum.toF64
    · rw [estimate_low h hlow]
      exact (percentile_bounds hform h hb .lowerIsRarer).2
    rw [not_le] at hlow
    by_cases hhigh : dist.maximum.toF64 ≤ b.toF64
    · rw [estimate_high h (hlow.trans_le hfloat) hhigh]
      exact (percentile_bounds hform h ha .lowerIsRarer).1
    rw [not_le] at hhigh
    -- both have the one float between the extremes
    have heq : a.toF64 = b.toF64 := by
      refine hfloat.eq_of_not_lt ?_
      intro hlt
      exact absurd (hone a b ha hb hlow hlt) (not_le.2 hhigh)
    rw [estimate_between h hlow (heq ▸ hhigh), estimate_between h (heq ▸ hlow) hhigh, heq]

/-- two units are always few enough -/
theorem atMostOneBetween_of_le {form : MetricForm} {dist : BaselineDistribution} (hmin : dist.minimum.HasForm form)
    (hmax : dist.maximum.HasForm form) (hle : dist.maximum.payload ≤ dist.minimum.payload + 2) :
    AtMostOneBetween form dist := by
  intro a b ha hb hlow hab
  have hview := floatView_toF64 form
  have hone := (MetricValue.payload_lt_iff hmin ha).2 (hview.lt hmin ha hlow)
  have htwo := (MetricValue.payload_lt_iff ha hb).2 (hview.lt ha hb hab)
  exact hview.mono hmax hb ((MetricValue.payload_le_iff hmax hb).1 (by omega))

/-- **For whole numbers up to 2^53**, whose floats are exact, more than two units are too many. -/
theorem atMostOneBetween_iff {dist : BaselineDistribution} {low high : ℕ} (hmin : dist.minimum = .u64 low)
    (hmax : dist.maximum = .u64 high) (hends : low ≤ high) (hexact : high ≤ 2 ^ 53) :
    AtMostOneBetween .u64 dist ↔ high ≤ low + 2 := by
  have hform : ∀ v ≤ high, (MetricValue.u64 v).HasForm .u64 := by
    intro v hv
    exact lt_of_le_of_lt (hv.trans hexact) (by norm_num)
  have hfloat : ∀ v ≤ high, (MetricValue.u64 v).toF64 = v := fun v hv => Binary64.round_natCast (hv.trans hexact)
  constructor
  · intro hone
    by_contra hwide
    have hnext := hone (.u64 (low + 1)) (.u64 (low + 2)) (hform _ (by omega)) (hform _ (by omega))
    rw [hmin, hmax, hfloat _ hends, hfloat (low + 1) (by omega), hfloat (low + 2) (by omega), hfloat _ le_rfl] at hnext
    have hle : high ≤ low + 2 := by exact_mod_cast hnext (by push_cast; linarith) (by push_cast; linarith)
    exact hwide hle
  · intro hle
    refine atMostOneBetween_of_le ?_ ?_ ?_
    · rw [hmin]
      exact hform _ hends
    · rw [hmax]
      exact hform _ le_rfl
    · rw [hmin, hmax]
      exact hle

/-- consolidations into one, two and three outputs -/
def fewOutputs : List MetricValue := [.u64 1, .u64 2, .u64 3]

def fewOutputsDistribution : BaselineDistribution where
  eventType := .consolidation
  metric := .outputCount
  unit := .count
  sampleCount := 3
  candidateCount := 3
  missingCount := 0
  coverageRatio := 1
  minimum := .u64 1
  maximum := .u64 3
  mean := 2
  p50 := .u64 2
  p75 := .u64 3
  p90 := .u64 3
  p95 := .u64 3
  p99 := .u64 3
  p999 := .u64 3
  quality := .insufficient

theorem estimate_antitone_iff_few :
    computeDistribution fewOutputs 3 = some fewOutputsDistribution.toQuantileDistribution ∧
      ∀ a b : MetricValue, a.HasForm BaselineMetric.outputCount.form → b.HasForm BaselineMetric.outputCount.form → a ≤ b →
        (rankFromDistribution fewOutputsDistribution b .lowerIsRarer).1 ≤
          (rankFromDistribution fewOutputsDistribution a .lowerIsRarer).1 := by
  have hdist : computeDistribution fewOutputs 3 = some fewOutputsDistribution.toQuantileDistribution := by decide +kernel
  have hform : ∀ v ∈ fewOutputs, v.HasForm BaselineMetric.outputCount.form := by
    simp [fewOutputs, BaselineMetric.form, MetricValue.HasForm]
  have hmin : fewOutputsDistribution.minimum = .u64 1 := rfl
  have hmax : fewOutputsDistribution.maximum = .u64 3 := rfl
  have hone : AtMostOneBetween .u64 fewOutputsDistribution :=
    (atMostOneBetween_iff hmin hmax (by norm_num) (by norm_num)).2 (by norm_num)
  exact ⟨hdist, (estimate_antitone_iff .outputCount fewOutputs 3 fewOutputsDistribution hform hdist).2 hone⟩

/-- consolidations into one to four outputs -/
def fourOutputs : List MetricValue := [.u64 1, .u64 2, .u64 3, .u64 4]

def fourOutputsDistribution : BaselineDistribution :=
  { fewOutputsDistribution with
    sampleCount := 4
    candidateCount := 4
    maximum := .u64 4
    mean := 5 / 2
    p90 := .u64 4
    p95 := .u64 4
    p99 := .u64 4
    p999 := .u64 4 }

/-- **Two outputs rated less rare than three**, where the exact percentiles say the opposite. -/
theorem fewer_outputs_less_rare :
    computeDistribution fourOutputs 4 = some fourOutputsDistribution.toQuantileDistribution ∧
      (rankFromDistribution fourOutputsDistribution (.u64 2) .lowerIsRarer).1 <
        (rankFromDistribution fourOutputsDistribution (.u64 3) .lowerIsRarer).1 ∧
      (rankValue fourOutputs (.u64 3) .lowerIsRarer).1 < (rankValue fourOutputs (.u64 2) .lowerIsRarer).1 := by
  decide +kernel

end BaselineCalculator

end ObsChain
