/-
The estimate at the ends and at ties (`rank_from_distribution` against `rank_value` of `baseline.rs`).

Among samples that tie with a value the exact rank can be read with them or without them, so an estimate that respects
ties lies between the two readings. `RespectsTies` asks for that of percentile and tail count, and for the two consequences
that a reader sees: one band for a constant population, and the right tail at the rare end.

The estimate knows a stored quantile's rank, of which `IsQuantile` says what the counts are. At the ends it returns fixed
numbers, and between them it interpolates upwards for both directions. It decides by the floats of the values, which large
values may share, while the exact rank decides by the values; so the conditions name the branch by the floats and what
must hold in it of the values.

- `interpolate_stored`: at a stored quantile the estimate is the lowest rank stored for its float.
- `higherFits_iff_of_exact`: where no other sample has the float of the value, what is asked when higher is rarer.
- `respects_ties_iff`: in which places the estimate respects ties, for both directions.
-/
import Mathlib.Tactic
import ObsChain.Domain.Rarity
import ObsChain.Statistics.Percentiles

namespace ObsChain

open OrderStatistics

namespace BaselineCalculator

/-! ## What is meant -/

/-- the exact rank without the samples that tie with the value -/
def rankExcludingTies (samples : List MetricValue) (value : MetricValue) (direction : RarityDirection) : ℚ × ℕ :=
  let n := samples.length
  let countLt := samples.countP (· < value)
  let countGt := samples.countP (value < ·)
  match direction with
  | .higherIsRarer | .twoSided => ((countLt : ℚ) / n * 100, countGt)
  | .lowerIsRarer => ((countGt : ℚ) / n * 100, countLt)

theorem rankExcludingTies_higher (samples : List MetricValue) (value : MetricValue) :
    rankExcludingTies samples value .higherIsRarer =
      ((samples.countP (· < value) : ℚ) / samples.length * 100, samples.countP (value < ·)) := rfl

theorem rankExcludingTies_lower (samples : List MetricValue) (value : MetricValue) :
    rankExcludingTies samples value .lowerIsRarer =
      ((samples.countP (value < ·) : ℚ) / samples.length * 100, samples.countP (· < value)) := rfl

/-- the extreme value of the rare side -/
def rareEnd (dist : BaselineDistribution) : RarityDirection → MetricValue
  | .higherIsRarer | .twoSided => dist.maximum
  | .lowerIsRarer => dist.minimum

/-- the estimate is between the exact ranks without and with ties, and agrees with them where ties decide -/
structure RespectsTies (samples sortedSamples : List MetricValue) (dist : BaselineDistribution) (value : MetricValue)
    (direction : RarityDirection) : Prop where
  percentile : (rankExcludingTies samples value direction).1 ≤ (rankFromDistribution dist value direction).1 ∧
    (rankFromDistribution dist value direction).1 ≤ (rankValue sortedSamples value direction).1
  tail : (rankExcludingTies samples value direction).2 ≤ (rankFromDistribution dist value direction).2 ∧
    (rankFromDistribution dist value direction).2 ≤ (rankValue sortedSamples value direction).2
  constant : (∀ v ∈ samples, v = value) → ∀ minSampleSize,
    ¬ (RarityBand.fromPercentile (rankFromDistribution dist value direction).1 dist.sampleCount minSampleSize = .common ∧
      RarityBand.fromPercentile (rankValue sortedSamples value direction).1 samples.length minSampleSize = .extreme)
  rareEnd : value = rareEnd dist direction → (rankFromDistribution dist value direction).2 = samples.countP (· = value)

/-- at or beyond an end, or at a stored quantile -/
def AtEndOrQuantile (dist : BaselineDistribution) (value : MetricValue) : Prop :=
  value ≤ dist.minimum ∨ dist.maximum ≤ value ∨ ∃ p ∈ dist.quantiles, p.2 = value

/-- the lowest rank stored for the float of a value -/
def storedRank (dist : BaselineDistribution) (value : MetricValue) : ℚ :=
  ((dist.quantiles.find? fun p => p.2.toF64 = value.toF64).map (·.1)).getD 0

/-- at the low end not above it and not all samples, at the high end exactly the one largest sample, and between them few
enough below -/
def HigherFits (samples : List MetricValue) (dist : BaselineDistribution) (value : MetricValue) : Prop :=
  if value.toF64 ≤ dist.minimum.toF64 then value ≤ dist.minimum ∧ value ≠ dist.maximum
  else if dist.maximum.toF64 ≤ value.toF64 then value = dist.maximum ∧ samples.countP (· = value) = 1
  else (samples.countP (· < value) : ℚ) ≤ storedRank dist value * samples.length

/-- at the low end all samples, at the high end not below it and at most one sample below, and between them few enough -/
def LowerFits (samples : List MetricValue) (dist : BaselineDistribution) (value : MetricValue) : Prop :=
  if value.toF64 ≤ dist.minimum.toF64 then value = dist.minimum ∧ value = dist.maximum
  else if dist.maximum.toF64 ≤ value.toF64 then dist.maximum ≤ value ∧ samples.countP (· < value) ≤ 1
  else (samples.countP (· < value) : ℚ) ≤ (1 - storedRank dist value) * samples.length

/-! ## The estimate at a stored quantile -/

variable {form : MetricForm} {samples sortedSamples : List MetricValue} {dist : BaselineDistribution} {value : MetricValue}

/-- **At a stored quantile** above the first knot the loop ends with the lowest rank stored for its float. -/
theorem interpolate_stored {view : MetricValue → ℚ} (hview : FloatView form view) {first : ℚ × ℚ}
    {quantiles : List (ℚ × MetricValue)} {rest : List (ℚ × ℚ)} {p : ℚ × MetricValue}
    (hfirst : first.2 + epsilon ≤ view value) (hvalue : value.HasForm form) (hform : ∀ r ∈ quantiles, r.2.HasForm form)
    (hsorted : quantiles.Pairwise fun r s => r.2 ≤ s.2)
    (hfind : quantiles.find? (fun r => view r.2 = view value) = some p) :
    interpolate (view value) (first :: (quantiles.map (fun r => (r.1 * 100, view r.2)) ++ rest)) = p.1 * 100 := by
  induction quantiles generalizing first with
  | nil => cases hfind
  | cons r quantiles ih =>
    rw [List.pairwise_cons] at hsorted
    rw [List.map_cons, List.cons_append]
    by_cases hr : view r.2 = view value
    · rw [List.find?_cons_of_pos (by simpa using hr), Option.some.injEq] at hfind
      subst hfind
      have hlt : first.2 < view value := by
        rw [epsilon] at hfirst
        linarith
      have hinterp : interpolate (view value)
          (first :: (r.1 * 100, view value) :: (quantiles.map (fun r => (r.1 * 100, view r.2)) ++ rest)) =
          first.1 + (view value - first.2) / (view value - first.2) * (r.1 * 100 - first.1) :=
        interpolate_of_le hlt (le_refl _) (by linarith)
      rw [hr, hinterp, div_self (sub_ne_zero.2 hlt.ne')]
      ring
    · rw [List.find?_cons_of_neg (by simpa using hr)] at hfind
      have hmem := List.mem_of_find?_eq_some hfind
      have hfloat : view p.2 = view value := by simpa using List.find?_some hfind
      have hrform := hform r List.mem_cons_self
      have hle : view r.2 ≤ view value := by
        rw [← hfloat]
        exact hview.mono hrform (hform p (List.mem_cons_of_mem r hmem)) (hsorted.1 p hmem)
      have hlt : view r.2 < view value := lt_of_le_of_ne hle hr
      have hpassed : interpolate (view value)
          (first :: (r.1 * 100, view r.2) :: (quantiles.map (fun r => (r.1 * 100, view r.2)) ++ rest)) =
          interpolate (view value) ((r.1 * 100, view r.2) :: (quantiles.map (fun r => (r.1 * 100, view r.2)) ++ rest)) :=
        interpolate_of_lt first _ hlt
      rw [hpassed]
      exact ih (hview.gap hrform hvalue hlt) (fun s hs => hform s (List.mem_cons_of_mem r hs)) hsorted.2 hfind

theorem pairwise_quantiles (h : dist.Describes samples) : dist.quantiles.Pairwise fun r s => r.2 ≤ s.2 := by
  have hranks : dist.quantiles.Pairwise fun r s => r.1 ≤ s.1 := by
    norm_num [QuantileDistribution.quantiles]
  refine hranks.imp_of_mem ?_
  intro r s hr hs hle
  exact (h.quantile r hr).mono (h.quantile s hs) hle

/-- what is found first in a sorted list is not above anything else that qualifies -/
theorem le_of_find? {quantiles : List (ℚ × MetricValue)} {P : ℚ × MetricValue → Bool} {p r : ℚ × MetricValue}
    (hsorted : quantiles.Pairwise fun r s => r.2 ≤ s.2) (hfind : quantiles.find? P = some p) (hr : r ∈ quantiles)
    (hP : P r = true) : p.2 ≤ r.2 := by
  obtain ⟨-, before, after, rfl, hbefore⟩ := List.find?_eq_some_iff_append.1 hfind
  rcases List.mem_append.1 hr with hmem | hmem
  · have hnot := hbefore r hmem
    rw [hP] at hnot
    cases hnot
  · rcases List.mem_cons.1 hmem with rfl | hlater
    · exact le_refl _
    · exact (List.pairwise_cons.1 (List.pairwise_append.1 hsorted).2.1).1 r hlater

/-! ## The three places -/

section

variable (h : dist.Describes samples)
include h

theorem estimate_low (hlow : value.toF64 ≤ dist.minimum.toF64) (direction : RarityDirection) :
    rankFromDistribution dist value direction = (if direction = .lowerIsRarer then 100 else 0, samples.length) := by
  rw [rankFromDistribution, rankFrom, if_neg (sampleCount_ne_zero h), if_pos hlow, h.sampleCount]

theorem estimate_high (hlow : dist.minimum.toF64 < value.toF64) (hhigh : dist.maximum.toF64 ≤ value.toF64)
    (direction : RarityDirection) :
    rankFromDistribution dist value direction = (if direction = .lowerIsRarer then 0 else 100, 1) := by
  rw [rankFromDistribution, rankFrom, if_neg (sampleCount_ne_zero h), if_neg (not_le.2 hlow), if_pos hhigh]

theorem estimate_between (hlow : dist.minimum.toF64 < value.toF64) (hhigh : value.toF64 < dist.maximum.toF64)
    (direction : RarityDirection) :
    rankFromDistribution dist value direction = (interpolate value.toF64 (knots MetricValue.toF64 dist),
      (max ⌈(100 - interpolate value.toF64 (knots MetricValue.toF64 dist)) / 100 * samples.length⌉ 1).toNat) := by
  rw [rankFromDistribution, rankFrom, if_neg (sampleCount_ne_zero h), if_neg (not_le.2 hlow), if_neg (not_le.2 hhigh),
    h.sampleCount]

/-- at a stored quantile between the ends, its rank and what is left above it; the rank is that of a quantile with the same
float, which is not above the value -/
theorem estimate_stored (hform : ∀ v ∈ samples, v.HasForm form) (hvalue : value.HasForm form)
    (hlow : dist.minimum.toF64 < value.toF64) (hhigh : value.toF64 < dist.maximum.toF64)
    (hstored : ∃ p ∈ dist.quantiles, p.2 = value) (direction : RarityDirection) :
    (∃ x ≤ value, x.toF64 = value.toF64 ∧ IsQuantile samples (storedRank dist value) x) ∧ 1 / 2 ≤ storedRank dist value ∧
      rankFromDistribution dist value direction = (storedRank dist value * 100,
        (max ⌈(1 - storedRank dist value) * samples.length⌉ 1).toNat) := by
  obtain ⟨r, hr, hrvalue⟩ := hstored
  have hsome : (dist.quantiles.find? fun p => p.2.toF64 = value.toF64).isSome = true := by
    rw [List.find?_isSome]
    exact ⟨r, hr, by simp [hrvalue]⟩
  obtain ⟨p, hp⟩ := Option.isSome_iff_exists.1 hsome
  have hmem := List.mem_of_find?_eq_some hp
  have hfloat : p.2.toF64 = value.toF64 := by simpa using List.find?_some hp
  have hle : p.2 ≤ value := by
    rw [← hrvalue]
    exact le_of_find? (pairwise_quantiles h) hp hr (by simp [hrvalue])
  have hrank : storedRank dist value = p.1 := by
    rw [storedRank, hp]
    rfl
  have hhalf : ∀ r ∈ dist.quantiles, (1 / 2 : ℚ) ≤ r.1 := by
    norm_num [QuantileDistribution.quantiles]
  have hgap : dist.minimum.toF64 + epsilon ≤ value.toF64 :=
    (floatView_toF64 form).gap (hform _ h.minimum.1) hvalue hlow
  have hinterp : interpolate value.toF64 (knots MetricValue.toF64 dist) = p.1 * 100 := by
    rw [knots_eq]
    exact interpolate_stored (floatView_toF64 form) hgap hvalue (fun r hr => hform _ (h.quantile r hr).mem)
      (pairwise_quantiles h) hp
  rw [hrank, estimate_between h hlow hhigh, hinterp]
  refine ⟨⟨p.2, hle, hfloat, h.quantile p hmem⟩, hhalf p hmem, ?_⟩
  have htail : (100 - p.1 * 100) / 100 * (samples.length : ℚ) = (1 - p.1) * samples.length := by ring
  rw [htail]

end

/-! ## The exact ranks -/

theorem rankValue_higher_snd (hne : samples ≠ []) (value : MetricValue) :
    (rankValue samples value .higherIsRarer).2 = samples.countP (value ≤ ·) := by
  have hempty : samples.isEmpty = false := by simpa using hne
  rw [rankValue, hempty, List.countP_eq_length_filter]
  rfl

theorem rankValue_lower (hne : samples ≠ []) (value : MetricValue) :
    rankValue samples value .lowerIsRarer =
      ((samples.countP (value ≤ ·) : ℚ) / samples.length * 100, samples.countP (· ≤ value)) := by
  have hempty : samples.isEmpty = false := by simpa using hne
  rw [rankValue, hempty, List.countP_eq_length_filter, List.countP_eq_length_filter]
  rfl

/-- a percentage of the samples, against a percentage -/
theorem percent_le_iff {n : ℕ} (hn : 0 < n) (count : ℕ) (q : ℚ) : (count : ℚ) / n * 100 ≤ q * 100 ↔ (count : ℚ) ≤ q * n := by
  have hpos : (0 : ℚ) < n := by exact_mod_cast hn
  rw [mul_le_mul_iff_left₀ (by norm_num), div_le_iff₀ hpos]

theorem le_percent_iff {n : ℕ} (hn : 0 < n) (count : ℕ) (q : ℚ) : q * 100 ≤ (count : ℚ) / n * 100 ↔ q * n ≤ (count : ℚ) := by
  have hpos : (0 : ℚ) < n := by exact_mod_cast hn
  rw [mul_le_mul_iff_left₀ (by norm_num), le_div_iff₀ hpos]

theorem percent_all {n : ℕ} (hn : 0 < n) : (n : ℚ) / n * 100 = 100 := by
  have hpos : (n : ℚ) ≠ 0 := by exact_mod_cast hn.ne'
  rw [div_self hpos, one_mul]

theorem hundred_le_percent_iff {n : ℕ} (hn : 0 < n) (count : ℕ) : 100 ≤ (count : ℚ) / n * 100 ↔ n ≤ count := by
  have hiff := le_percent_iff hn count 1
  rw [one_mul, one_mul] at hiff
  exact hiff.trans Nat.cast_le

/-- a tail is at most a count when the fraction is -/
theorem ceil_tail_le_iff {x : ℚ} {count : ℕ} (hcount : 1 ≤ count) : (max ⌈x⌉ 1).toNat ≤ count ↔ x ≤ count := by
  have hceil : ⌈x⌉ ≤ (count : ℤ) ↔ x ≤ count := by
    rw [Int.ceil_le, Int.cast_natCast]
  rw [← hceil]
  omega

theorem le_ceil_tail {x : ℚ} {count : ℕ} (h : (count : ℚ) ≤ x) : count ≤ (max ⌈x⌉ 1).toNat := by
  have hceil : (count : ℤ) ≤ ⌈x⌉ := by
    have hle : ((count : ℤ) : ℚ) ≤ (⌈x⌉ : ℚ) := le_trans (by exact_mod_cast h) (Int.le_ceil x)
    exact_mod_cast hle
  omega

theorem fromPercentile_zero_common {n : ℕ} : RarityBand.fromPercentile 0 n 0 = .common := by
  norm_num [RarityBand.fromPercentile]

theorem fromPercentile_hundred_extreme {n : ℕ} : RarityBand.fromPercentile 100 n 0 = .extreme := by
  norm_num [RarityBand.fromPercentile]

theorem fromPercentile_hundred_ne_common (n m : ℕ) : RarityBand.fromPercentile 100 n m ≠ .common := by
  unfold RarityBand.fromPercentile
  split_ifs <;> first | decide | norm_num at *

theorem respectsTies_perm (hsorted : sortedSamples.Perm samples) (direction : RarityDirection) :
    RespectsTies samples sortedSamples dist value direction ↔ RespectsTies samples samples dist value direction := by
  constructor
  · intro ⟨hpercentile, htail, hconstant, hrare⟩
    rw [rankValue_perm hsorted] at hpercentile htail hconstant
    exact ⟨hpercentile, htail, hconstant, hrare⟩
  · intro ⟨hpercentile, htail, hconstant, hrare⟩
    rw [← rankValue_perm hsorted] at hpercentile htail hconstant
    exact ⟨hpercentile, htail, hconstant, hrare⟩

/-! ## Counts at the ends -/

theorem countP_lt_low (h : dist.Describes samples) (hlow : value ≤ dist.minimum) : samples.countP (· < value) = 0 := by
  rw [List.countP_eq_zero]
  intro v hv
  rw [decide_eq_true_eq, not_lt]
  exact hlow.trans (h.minimum.2 hv)

theorem countP_gt_high (h : dist.Describes samples) (hhigh : dist.maximum ≤ value) : samples.countP (value < ·) = 0 := by
  rw [List.countP_eq_zero]
  intro v hv
  rw [decide_eq_true_eq, not_lt]
  exact (h.maximum.2 hv).trans hhigh

/-- at the low end, a value that is also the maximum is every sample -/
theorem all_eq_iff (h : dist.Describes samples) (hlow : value ≤ dist.minimum) :
    (∀ v ∈ samples, v = value) ↔ value = dist.maximum := by
  constructor
  · intro hall
    exact (hall _ h.maximum.1).symm
  · intro heq v hv
    exact le_antisymm (heq ▸ h.maximum.2 hv) (hlow.trans (h.minimum.2 hv))

/-- a population with a smaller float is not constant -/
theorem not_all_eq (h : dist.Describes samples) (hlow : dist.minimum.toF64 < value.toF64) : ¬ ∀ v ∈ samples, v = value := by
  intro hall
  rw [hall _ h.minimum.1] at hlow
  exact lt_irrefl _ hlow

/-- all samples are at or above a value exactly when the minimum is -/
theorem countP_ge_eq_length (h : dist.Describes samples) :
    samples.countP (value ≤ ·) = samples.length ↔ value ≤ dist.minimum := by
  rw [List.countP_eq_length]
  constructor
  · intro hall
    exact of_decide_eq_true (hall _ h.minimum.1)
  · intro hle v hv
    exact decide_eq_true (hle.trans (h.minimum.2 hv))

/-- all samples are at or below a value exactly when the maximum is -/
theorem countP_le_eq_length (h : dist.Describes samples) :
    samples.countP (· ≤ value) = samples.length ↔ dist.maximum ≤ value := by
  rw [List.countP_eq_length]
  constructor
  · intro hall
    exact of_decide_eq_true (hall _ h.maximum.1)
  · intro hle v hv
    exact decide_eq_true ((h.maximum.2 hv).trans hle)

/-- what is below and what is not, and what is above and what is not, in the fractions that percentages are of -/
theorem cast_countP_add (samples : List MetricValue) (value : MetricValue) :
    (samples.countP (· < value) : ℚ) + samples.countP (value ≤ ·) = samples.length ∧
      (samples.countP (· ≤ value) : ℚ) + samples.countP (value < ·) = samples.length := by
  constructor
  · exact_mod_cast countP_lt_add_countP_ge samples value
  · exact_mod_cast countP_le_add_countP_gt samples value

/-! ## Higher is rarer -/

section

variable (h : dist.Describes samples)
include h

theorem higher_low (hlow : value.toF64 ≤ dist.minimum.toF64) :
    RespectsTies samples samples dist value .higherIsRarer ↔ HigherFits samples dist value := by
  have hne : samples ≠ [] := List.ne_nil_of_mem h.minimum.1
  have hn : 0 < samples.length := List.length_pos_of_ne_nil hne
  have hestimate : rankFromDistribution dist value .higherIsRarer = (0, samples.length) :=
    estimate_low h hlow .higherIsRarer
  rw [HigherFits, if_pos hlow]
  constructor
  · intro ⟨_, htail, hconstant, _⟩
    -- the tail of all samples asks that none is below the value
    rw [hestimate, rankValue_higher_snd hne] at htail
    have hmin : value ≤ dist.minimum := (countP_ge_eq_length h).1 (le_antisymm List.countP_le_length htail.2)
    refine ⟨hmin, ?_⟩
    intro heq
    -- every sample is the value: the estimate is 0 and the exact percentile is 100
    refine absurd ⟨?_, ?_⟩ (hconstant ((all_eq_iff h hmin).2 heq) 0)
    · rw [hestimate]
      exact fromPercentile_zero_common
    · rw [rankValue_higher hne, (countP_le_eq_length h).2 heq.ge, percent_all hn]
      exact fromPercentile_hundred_extreme
  · intro ⟨hmin, hnot⟩
    have hzero := countP_lt_low h hmin
    have hgt := countP_le_add_countP_gt samples value
    refine ⟨⟨?_, ?_⟩, ⟨?_, ?_⟩, ?_, fun heq => absurd heq hnot⟩
    · rw [hestimate, rankExcludingTies_higher, hzero]
      norm_num
    · rw [hestimate]
      exact (rankValue_bounds hne value).1
    · rw [hestimate, rankExcludingTies_higher]
      dsimp only
      omega
    · rw [hestimate, rankValue_higher_snd hne, (countP_ge_eq_length h).2 hmin]
    · intro hall
      exact absurd ((all_eq_iff h hmin).1 hall) hnot

theorem higher_high (hlow : dist.minimum.toF64 < value.toF64) (hhigh : dist.maximum.toF64 ≤ value.toF64) :
    RespectsTies samples samples dist value .higherIsRarer ↔ HigherFits samples dist value := by
  have hne : samples ≠ [] := List.ne_nil_of_mem h.minimum.1
  have hn : 0 < samples.length := List.length_pos_of_ne_nil hne
  have hestimate : rankFromDistribution dist value .higherIsRarer = (100, 1) :=
    estimate_high h hlow hhigh .higherIsRarer
  rw [HigherFits, if_neg (not_le.2 hlow), if_pos hhigh]
  constructor
  · intro ⟨hpercentile, htail, _, hrare⟩
    -- a percentage of 100 asks that no sample is above the value
    rw [hestimate, rankValue_higher hne] at hpercentile
    have hcount : samples.length ≤ samples.countP (· ≤ value) := (hundred_le_percent_iff hn _).1 hpercentile.2
    have hmax : dist.maximum ≤ value := (countP_le_eq_length h).1 (le_antisymm List.countP_le_length hcount)
    -- and the tail of 1 for a sample that is not below it
    rw [hestimate, rankValue_higher_snd hne] at htail
    obtain ⟨v, hv, hle⟩ := List.countP_pos_iff.1 (show 0 < samples.countP (value ≤ ·) from htail.2)
    have heq : value = dist.maximum := le_antisymm ((of_decide_eq_true hle).trans (h.maximum.2 hv)) hmax
    refine ⟨heq, ?_⟩
    rw [← hrare heq, hestimate]
  · intro ⟨heq, hone⟩
    have hzero := countP_gt_high h heq.ge
    have hat : samples.countP (value ≤ ·) = samples.countP (· = value) := by
      apply List.countP_congr
      intro v hv
      simp only [decide_eq_true_eq]
      exact ⟨fun hv' => le_antisymm ((h.maximum.2 hv).trans heq.ge) hv', fun hv' => hv'.ge⟩
    refine ⟨⟨?_, ?_⟩, ⟨?_, ?_⟩, fun hall => absurd hall (not_all_eq h hlow), fun _ => ?_⟩
    · have hcount : ((samples.countP (· < value) : ℕ) : ℚ) ≤ 1 * samples.length := by
        rw [one_mul]
        exact_mod_cast List.countP_le_length
      rw [hestimate, rankExcludingTies_higher]
      simpa using (percent_le_iff hn _ 1).2 hcount
    · rw [hestimate, rankValue_higher hne, (countP_le_eq_length h).2 heq.ge, percent_all hn]
    · rw [hestimate, rankExcludingTies_higher]
      dsimp only
      omega
    · rw [hestimate, rankValue_higher_snd hne, hat]
      exact hone.ge
    · rw [hestimate]
      exact hone.symm

theorem higher_between (hform : ∀ v ∈ samples, v.HasForm form) (hvalue : value.HasForm form)
    (hlow : dist.minimum.toF64 < value.toF64) (hhigh : value.toF64 < dist.maximum.toF64)
    (hstored : ∃ p ∈ dist.quantiles, p.2 = value) :
    RespectsTies samples samples dist value .higherIsRarer ↔ HigherFits samples dist value := by
  have hne : samples ≠ [] := List.ne_nil_of_mem h.minimum.1
  have hn : 0 < samples.length := List.length_pos_of_ne_nil hne
  obtain ⟨⟨x, hx, -, hquantile⟩, -, hestimate⟩ := estimate_stored h hform hvalue hlow hhigh hstored .higherIsRarer
  obtain ⟨hge, hgt⟩ := cast_countP_add samples value
  have hpos : 1 ≤ samples.countP (value ≤ ·) := by
    obtain ⟨p, hp, hpvalue⟩ := hstored
    exact List.countP_pos_iff.2 ⟨value, hpvalue ▸ (h.quantile p hp).mem, by simp⟩
  have hle := hquantile.le_countP hx
  have hnever : value ≠ dist.maximum := by
    rintro rfl
    exact lt_irrefl _ hhigh
  rw [HigherFits, if_neg (not_le.2 hlow), if_neg (not_le.2 hhigh)]
  constructor
  · intro ⟨hpercentile, _, _, _⟩
    rw [hestimate, rankExcludingTies_higher] at hpercentile
    exact (percent_le_iff hn _ _).1 hpercentile.1
  · intro hfew
    refine ⟨⟨?_, ?_⟩, ⟨?_, ?_⟩, fun hall => absurd hall (not_all_eq h hlow), fun heq => absurd heq hnever⟩
    · rw [hestimate, rankExcludingTies_higher]
      exact (percent_le_iff hn _ _).2 hfew
    · rw [hestimate, rankValue_higher hne]
      exact (le_percent_iff hn _ _).2 hle
    · rw [hestimate, rankExcludingTies_higher]
      apply le_ceil_tail
      linarith
    · rw [hestimate, rankValue_higher_snd hne]
      apply (ceil_tail_le_iff hpos).2
      linarith

/-- **Where floats are exact**: when no other sample has the float of the value, it must not be above the maximum, and at
the maximum it must be above the minimum and the only sample there. -/
theorem higherFits_iff_of_exact (hform : ∀ v ∈ samples, v.HasForm form) (hvalue : value.HasForm form)
    (hplace : AtEndOrQuantile dist value) (hexact : ∀ v ∈ samples, v.toF64 = value.toF64 → v = value) :
    HigherFits samples dist value ↔
      value ≤ dist.maximum ∧ (value = dist.maximum → dist.minimum < value ∧ samples.countP (· = value) = 1) := by
  have hview := floatView_toF64 form
  have hminForm := hform _ h.minimum.1
  have hmaxForm := hform _ h.maximum.1
  have hends : dist.minimum ≤ dist.maximum := h.maximum.2 h.minimum.1
  by_cases hlow : value.toF64 ≤ dist.minimum.toF64
  · have hmin : value ≤ dist.minimum := by
      by_contra hgt
      have hfloat := le_antisymm (hview.mono hminForm hvalue (not_le.1 hgt).le) hlow
      exact hgt (hexact _ h.minimum.1 hfloat).ge
    rw [HigherFits, if_pos hlow]
    constructor
    · intro ⟨_, hnot⟩
      exact ⟨hmin.trans hends, fun heq => absurd heq hnot⟩
    · intro ⟨_, hmax⟩
      exact ⟨hmin, fun heq => absurd (hmax heq).1 (not_lt.2 hmin)⟩
  rw [not_le] at hlow
  have hminLt := hview.lt hminForm hvalue hlow
  by_cases hhigh : dist.maximum.toF64 ≤ value.toF64
  · have hmax : dist.maximum ≤ value := by
      by_contra hgt
      have hfloat := le_antisymm hhigh (hview.mono hvalue hmaxForm (not_le.1 hgt).le)
      exact hgt (hexact _ h.maximum.1 hfloat).le
    rw [HigherFits, if_neg (not_le.2 hlow), if_pos hhigh]
    constructor
    · intro ⟨heq, hone⟩
      exact ⟨heq.le, fun _ => ⟨hminLt, hone⟩⟩
    · intro ⟨hle, hone⟩
      have heq := le_antisymm hle hmax
      exact ⟨heq, (hone heq).2⟩
  rw [not_le] at hhigh
  have hmaxLt := hview.lt hvalue hmaxForm hhigh
  have hstored : ∃ p ∈ dist.quantiles, p.2 = value := by
    rcases hplace with hle | hge | hstored
    · exact absurd hle (not_le.2 hminLt)
    · exact absurd hge (not_le.2 hmaxLt)
    · exact hstored
  obtain ⟨⟨x, -, hfloat, hquantile⟩, -⟩ := estimate_stored h hform hvalue hlow hhigh hstored .higherIsRarer
  rw [HigherFits, if_neg (not_le.2 hlow), if_neg (not_le.2 hhigh)]
  constructor
  · intro _
    exact ⟨hmaxLt.le, fun heq => absurd heq hmaxLt.ne⟩
  · intro _
    have heq := hexact x hquantile.mem hfloat
    exact (heq ▸ hquantile.lt).le

end

/-! ## Lower is rarer -/

section

variable (h : dist.Describes samples)
include h

theorem lower_low (hlow : value.toF64 ≤ dist.minimum.toF64) :
    RespectsTies samples samples dist value .lowerIsRarer ↔ LowerFits samples dist value := by
  have hne : samples ≠ [] := List.ne_nil_of_mem h.minimum.1
  have hn : 0 < samples.length := List.length_pos_of_ne_nil hne
  have hestimate : rankFromDistribution dist value .lowerIsRarer = (100, samples.length) :=
    estimate_low h hlow .lowerIsRarer
  have hends : dist.minimum ≤ dist.maximum := h.maximum.2 h.minimum.1
  rw [LowerFits, if_pos hlow]
  constructor
  · intro ⟨hpercentile, htail, _, _⟩
    -- a percentage of 100 asks that no sample is below the value
    rw [hestimate, rankValue_lower hne] at hpercentile htail
    have hcount : samples.length ≤ samples.countP (value ≤ ·) := (hundred_le_percent_iff hn _).1 hpercentile.2
    have hmin : value ≤ dist.minimum := (countP_ge_eq_length h).1 (le_antisymm List.countP_le_length hcount)
    -- and the tail of all samples that none is above it
    have hmax : dist.maximum ≤ value := (countP_le_eq_length h).1 (le_antisymm List.countP_le_length htail.2)
    exact ⟨le_antisymm hmin (hends.trans hmax), le_antisymm (hmin.trans hends) hmax⟩
  · intro ⟨hmin, hmax⟩
    have hall := (all_eq_iff h hmin.le).2 hmax
    have hnone := countP_gt_high h hmax.ge
    have hzero := countP_lt_low h hmin.le
    have heq : samples.countP (· = value) = samples.length :=
      List.countP_eq_length.2 fun v hv => decide_eq_true (hall v hv)
    refine ⟨⟨?_, ?_⟩, ⟨?_, ?_⟩, fun _ m hband => ?_, fun _ => ?_⟩
    · rw [hestimate, rankExcludingTies_lower, hnone]
      norm_num
    · rw [hestimate, rankValue_lower hne, (countP_ge_eq_length h).2 hmin.le, percent_all hn]
    · rw [hestimate, rankExcludingTies_lower]
      dsimp only
      omega
    · rw [hestimate, rankValue_lower hne, (countP_le_eq_length h).2 hmax.ge]
    · rw [hestimate] at hband
      exact fromPercentile_hundred_ne_common _ _ hband.1
    · rw [hestimate, heq]

theorem lower_high (hlow : dist.minimum.toF64 < value.toF64) (hhigh : dist.maximum.toF64 ≤ value.toF64) :
    RespectsTies samples samples dist value .lowerIsRarer ↔ LowerFits samples dist value := by
  have hne : samples ≠ [] := List.ne_nil_of_mem h.minimum.1
  have hn : 0 < samples.length := List.length_pos_of_ne_nil hne
  have hestimate : rankFromDistribution dist value .lowerIsRarer = (0, 1) :=
    estimate_high h hlow hhigh .lowerIsRarer
  have hgt := countP_le_add_countP_gt samples value
  have hnotMin : value ≠ dist.minimum := by
    rintro rfl
    exact lt_irrefl _ hlow
  rw [LowerFits, if_neg (not_le.2 hlow), if_pos hhigh]
  constructor
  · intro ⟨hpercentile, htail, _, _⟩
    rw [hestimate, rankExcludingTies_lower] at hpercentile htail
    -- a percentage of 0 asks that no sample is above the value
    have hnone : (samples.countP (value < ·) : ℚ) ≤ 0 * samples.length :=
      (percent_le_iff hn _ 0).1 (by simpa using hpercentile.1)
    have hzero : samples.countP (value < ·) = 0 := by
      rw [zero_mul] at hnone
      exact_mod_cast le_antisymm hnone (Nat.cast_nonneg _)
    exact ⟨(countP_le_eq_length h).1 (by omega), htail.1⟩
  · intro ⟨hmax, hfew⟩
    have hzero := countP_gt_high h hmax
    refine ⟨⟨?_, ?_⟩, ⟨?_, ?_⟩, fun hall => absurd hall (not_all_eq h hlow), fun heq => absurd heq hnotMin⟩
    · rw [hestimate, rankExcludingTies_lower, hzero]
      norm_num
    · rw [hestimate, rankValue_lower hne]
      positivity
    · rw [hestimate, rankExcludingTies_lower]
      exact hfew
    · rw [hestimate, rankValue_lower hne]
      dsimp only
      omega

theorem lower_between (hform : ∀ v ∈ samples, v.HasForm form) (hvalue : value.HasForm form)
    (hlow : dist.minimum.toF64 < value.toF64) (hhigh : value.toF64 < dist.maximum.toF64)
    (hstored : ∃ p ∈ dist.quantiles, p.2 = value) :
    RespectsTies samples samples dist value .lowerIsRarer ↔ LowerFits samples dist value := by
  have hne : samples ≠ [] := List.ne_nil_of_mem h.minimum.1
  have hn : 0 < samples.length := List.length_pos_of_ne_nil hne
  obtain ⟨⟨x, hx, -, hquantile⟩, hhalf, hestimate⟩ := estimate_stored h hform hvalue hlow hhigh hstored .lowerIsRarer
  obtain ⟨hge, hgt⟩ := cast_countP_add samples value
  have hpos : 1 ≤ samples.countP (· ≤ value) := List.countP_pos_iff.2 ⟨x, hquantile.mem, by simpa using hx⟩
  have hle := hquantile.le_countP hx
  have hnotMin : value ≠ dist.minimum := by
    rintro rfl
    exact lt_irrefl _ hlow
  -- from the median on, what a rank leaves above is no more than the rank itself
  have hupper : (1 - storedRank dist value) * samples.length ≤ storedRank dist value * samples.length :=
    mul_le_mul_of_nonneg_right (by linarith) (Nat.cast_nonneg _)
  rw [LowerFits, if_neg (not_le.2 hlow), if_neg (not_le.2 hhigh)]
  constructor
  · intro ⟨hpercentile, _, _, _⟩
    rw [hestimate, rankValue_lower hne] at hpercentile
    have hmany := (le_percent_iff hn _ _).1 hpercentile.2
    linarith
  · intro hfew
    refine ⟨⟨?_, ?_⟩, ⟨?_, ?_⟩, fun hall => absurd hall (not_all_eq h hlow), fun heq => absurd heq hnotMin⟩
    · rw [hestimate, rankExcludingTies_lower]
      apply (percent_le_iff hn _ _).2
      linarith
    · rw [hestimate, rankValue_lower hne]
      apply (le_percent_iff hn _ _).2
      linarith
    · rw [hestimate, rankExcludingTies_lower]
      exact le_ceil_tail hfew
    · rw [hestimate, rankValue_lower hne]
      exact (ceil_tail_le_iff hpos).2 (hupper.trans hle)

end

/-- **Where the estimate respects ties**, at the ends and at the stored quantiles, for both directions. -/
theorem respects_ties_iff (metric : BaselineMetric) (samples sortedSamples : List MetricValue) (candidateCount : ℕ)
    (dist : BaselineDistribution) (value : MetricValue) (hform : ∀ v ∈ samples, v.HasForm metric.form)
    (hdist : computeDistribution samples candidateCount = some dist.toQuantileDistribution)
    (hsorted : sortedSamples.Perm samples) (hvalue : value.HasForm metric.form) (hplace : AtEndOrQuantile dist value) :
    (RespectsTies samples sortedSamples dist value .higherIsRarer ↔ HigherFits samples dist value) ∧
      (RespectsTies samples sortedSamples dist value .lowerIsRarer ↔ LowerFits samples dist value) := by
  have h := describes_computeDistribution hdist
  rw [respectsTies_perm hsorted, respectsTies_perm hsorted]
  by_cases hlow : value.toF64 ≤ dist.minimum.toF64
  · exact ⟨higher_low h hlow, lower_low h hlow⟩
  rw [not_le] at hlow
  by_cases hhigh : dist.maximum.toF64 ≤ value.toF64
  · exact ⟨higher_high h hlow hhigh, lower_high h hlow hhigh⟩
  rw [not_le] at hhigh
  have hstored : ∃ p ∈ dist.quantiles, p.2 = value := by
    rcases hplace with hle | hge | hstored
    · exact absurd hle (not_le.2 ((floatView_toF64 metric.form).lt (hform _ h.minimum.1) hvalue hlow))
    · exact absurd hge (not_le.2 ((floatView_toF64 metric.form).lt hvalue (hform _ h.maximum.1) hhigh))
    · exact hstored
  exact ⟨higher_between h hform hvalue hlow hhigh hstored, lower_between h hform hvalue hlow hhigh hstored⟩

/-- at the median of four, both directions respect ties -/
theorem respects_ties_iff_median :
    RespectsTies fourSamples fourSamples fourDistribution (.u64 20) .higherIsRarer ∧
      RespectsTies fourSamples fourSamples fourDistribution (.u64 20) .lowerIsRarer := by
  have hdist : computeDistribution fourSamples 4 = some fourDistribution.toQuantileDistribution := by decide +kernel
  have hform : ∀ v ∈ fourSamples, v.HasForm BaselineMetric.valueSats.form := by
    simp [fourSamples, BaselineMetric.form, MetricValue.HasForm]
  have hvalue : (MetricValue.u64 20).HasForm BaselineMetric.valueSats.form := by
    simp [BaselineMetric.form, MetricValue.HasForm]
  obtain ⟨hhigher, hlower⟩ := respects_ties_iff .valueSats fourSamples fourSamples 4 fourDistribution (.u64 20) hform hdist
    (List.Perm.refl _) hvalue (Or.inr (Or.inr ⟨(1 / 2, .u64 20), List.mem_cons_self, rfl⟩))
  have hlow : ¬ (MetricValue.u64 20).toF64 ≤ fourDistribution.minimum.toF64 := by decide +kernel
  have hhigh : ¬ fourDistribution.maximum.toF64 ≤ (MetricValue.u64 20).toF64 := by decide +kernel
  have hrank : storedRank fourDistribution (.u64 20) = 1 / 2 := by decide +kernel
  have hcount : fourSamples.countP (· < .u64 20) = 1 := by decide
  refine ⟨hhigher.2 ?_, hlower.2 ?_⟩
  · rw [HigherFits, if_neg hlow, if_neg hhigh, hrank, hcount]
    norm_num [fourSamples]
  · rw [LowerFits, if_neg hlow, if_neg hhigh, hrank, hcount]
    norm_num [fourSamples]

/-- three samples of one value -/
def constantSamples : List MetricValue := [.u64 5, .u64 5, .u64 5]

def constantDistribution : BaselineDistribution where
  eventType := .consolidation
  metric := .outputCount
  unit := .count
  sampleCount := 3
  candidateCount := 3
  missingCount := 0
  coverageRatio := 1
  minimum := .u64 5
  maximum := .u64 5
  mean := 5
  p50 := .u64 5
  p75 := .u64 5
  p90 := .u64 5
  p95 := .u64 5
  p99 := .u64 5
  p999 := .u64 5
  quality := .insufficient

/-- **Common and extreme at once**: the one value of a constant population is estimated at percentile 0 and exactly at 100;
and of four samples the lowest has a tail of four where lower is rarer. -/
theorem constant_common_and_extreme :
    computeDistribution constantSamples 3 = some constantDistribution.toQuantileDistribution ∧
      RarityBand.fromPercentile (rankFromDistribution constantDistribution (.u64 5) .higherIsRarer).1 3 3 = .common ∧
      RarityBand.fromPercentile (rankValue constantSamples (.u64 5) .higherIsRarer).1 3 3 = .extreme ∧
      computeDistribution fourSamples 4 = some fourDistribution.toQuantileDistribution ∧
      (rankFromDistribution fourDistribution (.u64 10) .lowerIsRarer).2 = 4 ∧
      (rankValue fourSamples (.u64 10) .lowerIsRarer).2 = 1 := by
  decide +kernel

end BaselineCalculator

end ObsChain
