/-
Rounding to double precision: to the nearest number with 53 binary digits, to the even one of two that are equally near.
Nothing here mentions the program.

The exponent is unbounded, so that neither overflow nor subnormal numbers occur: `round` is what a conversion or a division
in double precision gives for zero and for numbers between 2^-1022 and 2^1024.

- `round_le_round`: rounding keeps the order.
- `round_of_multiple`: a number with at most 53 binary digits is kept (`round_mul_zpow`, `round_natCast`).
- `add_le_of_round_lt`: above 1, numbers rounded apart are 2^-52 apart.
-/
import Mathlib.Tactic
import Mathlib.Data.Int.Log

namespace ObsChain.Binary64

/-- the nearest integer, the even one of two -/
def nearestEven (x : ℚ) : ℤ :=
  if Int.fract x < 1 / 2 then ⌊x⌋
  else if 1 / 2 < Int.fract x then ⌊x⌋ + 1
  else if Even ⌊x⌋ then ⌊x⌋ else ⌊x⌋ + 1

/-- the distance of neighbouring numbers at `x` -/
def ulp (x : ℚ) : ℚ := 2 ^ (Int.log 2 x - 52)

/-- the nearest number of 53 binary digits -/
def round (x : ℚ) : ℚ := nearestEven (x / ulp x) * ulp x

/-! ## The nearest integer -/

theorem floor_le_nearestEven (x : ℚ) : ⌊x⌋ ≤ nearestEven x := by
  unfold nearestEven
  split_ifs <;> omega

theorem nearestEven_le (x : ℚ) : nearestEven x ≤ ⌊x⌋ + 1 := by
  unfold nearestEven
  split_ifs <;> omega

theorem nearestEven_intCast (n : ℤ) : nearestEven (n : ℚ) = n := by
  rw [nearestEven, Int.fract_intCast, if_pos (by norm_num), Int.floor_intCast]

theorem nearestEven_mono {x y : ℚ} (h : x ≤ y) : nearestEven x ≤ nearestEven y := by
  have hfloor : ⌊x⌋ ≤ ⌊y⌋ := Int.floor_mono h
  rcases hfloor.lt_or_eq with hlt | heq
  · have hx := nearestEven_le x
    have hy := floor_le_nearestEven y
    omega
  · -- between the same two integers the fractions decide
    have hfract : Int.fract x ≤ Int.fract y := by
      rw [Int.fract, Int.fract, heq]
      linarith
    unfold nearestEven
    rw [heq]
    split_ifs <;> first | omega | linarith

/-! ## Rounding -/

theorem ulp_pos (x : ℚ) : 0 < ulp x := zpow_pos (by norm_num) _

theorem round_zero : round 0 = 0 := by
  have hzero : nearestEven 0 = 0 := by exact_mod_cast nearestEven_intCast 0
  rw [round, zero_div, hzero, Int.cast_zero, zero_mul]

/-- **A multiple of its own unit is kept.** -/
theorem round_of_multiple {x : ℚ} {m : ℤ} (h : x = m * ulp x) : round x = x := by
  have hdiv : x / ulp x = m := (div_eq_iff (ulp_pos x).ne').2 h
  rw [round, hdiv, nearestEven_intCast]
  exact h.symm

/-- a whole number of at most 53 binary digits, at any exponent -/
theorem round_mul_zpow {k : ℕ} (hk : k ≤ 2 ^ 53) (j : ℤ) : round (k * 2 ^ j) = k * 2 ^ j := by
  rcases Nat.eq_zero_or_pos k with hzero | hpos
  · rw [hzero, Nat.cast_zero, zero_mul, round_zero]
  have hpos' : (0 : ℚ) < k * 2 ^ j := mul_pos (by exact_mod_cast hpos) (zpow_pos (by norm_num) _)
  rcases hk.lt_or_eq with hlt | heq
  · -- the unit is not above `2 ^ j`
    have hlog : Int.log 2 ((k : ℚ) * 2 ^ j) < 53 + j := by
      apply (Int.lt_zpow_iff_log_lt (by norm_num) hpos').1
      rw [Nat.cast_ofNat, zpow_add₀ (by norm_num)]
      apply mul_lt_mul_of_pos_right _ (zpow_pos (by norm_num) _)
      exact_mod_cast hlt
    obtain ⟨d, hd⟩ := Int.eq_ofNat_of_zero_le (show 0 ≤ j - (Int.log 2 ((k : ℚ) * 2 ^ j) - 52) by omega)
    apply round_of_multiple (m := k * 2 ^ d)
    have hsplit : (2 : ℚ) ^ j = 2 ^ d * ulp (k * 2 ^ j) := by
      rw [ulp, ← zpow_natCast, ← zpow_add₀ (by norm_num)]
      congr 1
      omega
    calc (k : ℚ) * 2 ^ j = k * (2 ^ d * ulp (k * 2 ^ j)) := by rw [← hsplit]
      _ = ((k * 2 ^ d : ℤ) : ℚ) * ulp (k * 2 ^ j) := by push_cast; ring
  · have hvalue : (k : ℚ) * 2 ^ j = 2 ^ (53 + j) := by
      rw [heq, zpow_add₀ (by norm_num)]
      norm_cast
    have hlog : Int.log 2 ((2 : ℚ) ^ (53 + j)) = 53 + j := by
      exact_mod_cast Int.log_zpow (R := ℚ) (b := 2) (by norm_num) (53 + j)
    rw [hvalue]
    apply round_of_multiple (m := 2 ^ 52)
    have hunits : (((2 : ℤ) ^ 52 : ℤ) : ℚ) = 2 ^ (52 : ℤ) := by norm_cast
    rw [ulp, hlog, hunits, ← zpow_add₀ (by norm_num)]
    congr 1
    omega

/-- whole numbers up to 2^53 are kept -/
theorem round_natCast {k : ℕ} (hk : k ≤ 2 ^ 53) : round k = k := by
  simpa using round_mul_zpow hk 0

theorem round_nonneg {x : ℚ} (hx : 0 ≤ x) : 0 ≤ round x := by
  have hfloor : 0 ≤ ⌊x / ulp x⌋ := Int.floor_nonneg.2 (div_nonneg hx (ulp_pos x).le)
  have hnearest : (0 : ℚ) ≤ nearestEven (x / ulp x) := by exact_mod_cast hfloor.trans (floor_le_nearestEven _)
  exact mul_nonneg hnearest (ulp_pos x).le

/-- a number is rounded within its binade -/
theorem round_binade {x : ℚ} (hx : 0 < x) : (2 : ℚ) ^ Int.log 2 x ≤ round x ∧ round x ≤ 2 ^ (Int.log 2 x + 1) := by
  have hlow : (2 : ℚ) ^ Int.log 2 x ≤ x := by exact_mod_cast Int.zpow_log_le_self (b := 2) (by norm_num) hx
  have hhigh : x < (2 : ℚ) ^ (Int.log 2 x + 1) := by exact_mod_cast Int.lt_zpow_succ_log_self (b := 2) (by norm_num) x
  have hscale : ∀ e : ℕ, ((2 : ℤ) ^ e : ℤ) * ulp x = (2 : ℚ) ^ (Int.log 2 x - 52 + e) := by
    intro e
    rw [ulp, zpow_add₀ (by norm_num), zpow_natCast]
    push_cast
    ring
  have hfirst : (2 : ℚ) ^ Int.log 2 x = ((2 : ℤ) ^ 52 : ℤ) * ulp x := by
    rw [hscale]
    congr 1
    omega
  have hlast : (2 : ℚ) ^ (Int.log 2 x + 1) = ((2 : ℤ) ^ 53 : ℤ) * ulp x := by
    rw [hscale]
    congr 1
    omega
  have hge : ((2 : ℤ) ^ 52 : ℤ) ≤ nearestEven (x / ulp x) := by
    rw [← nearestEven_intCast (2 ^ 52)]
    exact nearestEven_mono ((le_div_iff₀ (ulp_pos x)).2 (hfirst ▸ hlow))
  have hle : nearestEven (x / ulp x) ≤ ((2 : ℤ) ^ 53 : ℤ) := by
    rw [← nearestEven_intCast (2 ^ 53)]
    exact nearestEven_mono ((div_le_iff₀ (ulp_pos x)).2 (hlast ▸ hhigh.le))
  rw [hfirst, hlast]
  exact ⟨mul_le_mul_of_nonneg_right (by exact_mod_cast hge) (ulp_pos x).le,
    mul_le_mul_of_nonneg_right (by exact_mod_cast hle) (ulp_pos x).le⟩

/-- **Rounding keeps the order.** -/
theorem round_le_round {x y : ℚ} (hx : 0 ≤ x) (h : x ≤ y) : round x ≤ round y := by
  rcases hx.eq_or_lt with hzero | hpos
  · rw [← hzero, round_zero]
    exact round_nonneg (hx.trans h)
  rcases (Int.log_mono_right (b := 2) hpos h).lt_or_eq with hlt | heq
  · -- a binade lies between them
    calc round x ≤ 2 ^ (Int.log 2 x + 1) := (round_binade hpos).2
      _ ≤ 2 ^ Int.log 2 y := zpow_le_zpow_right₀ (by norm_num) (by omega)
      _ ≤ round y := (round_binade (hpos.trans_le h)).1
  · have hulp : ulp x = ulp y := by rw [ulp, ulp, heq]
    have hnearest := nearestEven_mono (div_le_div_of_nonneg_right h (ulp_pos y).le)
    rw [round, round, hulp]
    exact mul_le_mul_of_nonneg_right (by exact_mod_cast hnearest) (ulp_pos y).le

/-! ## Distances -/

/-- from 1 on, rounded numbers are multiples of 2^-52 -/
theorem round_multiple {x : ℚ} (hx : 1 ≤ x) : ∃ m : ℤ, round x = m * (1 / 2 ^ 52) := by
  have hlog : 0 ≤ Int.log 2 x := by
    rw [Int.log_of_one_le_right 2 hx]
    exact Int.natCast_nonneg _
  obtain ⟨e, he⟩ := Int.eq_ofNat_of_zero_le hlog
  refine ⟨nearestEven (x / ulp x) * 2 ^ e, ?_⟩
  have hulp : ulp x = 2 ^ e * (1 / 2 ^ 52) := by
    rw [ulp, he, zpow_sub₀ (by norm_num), div_eq_mul_one_div]
    norm_cast
  rw [round]
  push_cast
  rw [mul_assoc, ← hulp]

/-- **From 1 on, numbers rounded apart are 2^-52 apart.** -/
theorem add_le_of_round_lt {x y : ℚ} (hx : 1 ≤ x) (hy : 1 ≤ y) (h : round x < round y) : round x + 1 / 2 ^ 52 ≤ round y := by
  obtain ⟨m, hm⟩ := round_multiple hx
  obtain ⟨n, hn⟩ := round_multiple hy
  rw [hm, hn] at h ⊢
  have hlt : m < n := by exact_mod_cast lt_of_mul_lt_mul_right h (by norm_num)
  have hle : (m : ℚ) + 1 ≤ n := by exact_mod_cast hlt
  calc (m : ℚ) * (1 / 2 ^ 52) + 1 / 2 ^ 52 = ((m : ℚ) + 1) * (1 / 2 ^ 52) := by ring
    _ ≤ (n : ℚ) * (1 / 2 ^ 52) := mul_le_mul_of_nonneg_right hle (by norm_num)

/-- numbers with two multiples of 1/512 between them stay 1/512 apart -/
theorem add_le_of_grid {x y : ℚ} {k : ℕ} (hx : 0 ≤ x) (hk : k + 1 ≤ 2 ^ 53) (hlow : x ≤ k / 512)
    (hhigh : ((k + 1 : ℕ) : ℚ) / 512 ≤ y) : round x + 1 / 512 ≤ round y := by
  have hgrid : ∀ i : ℕ, i ≤ 2 ^ 53 → round ((i : ℚ) / 512) = i / 512 := by
    intro i hi
    have hscale : (i : ℚ) / 512 = i * 2 ^ (-9 : ℤ) := by norm_num [div_eq_mul_inv, zpow_neg]
    rw [hscale]
    exact round_mul_zpow hi (-9)
  have hlow' := round_le_round hx hlow
  have hhigh' := round_le_round (by positivity) hhigh
  rw [hgrid k (by omega)] at hlow'
  rw [hgrid (k + 1) hk] at hhigh'
  push_cast at hhigh'
  linarith

/-- above 2^53 an odd number is halfway between two, and goes to the one with the even significand -/
example : round (2 ^ 53 + 1) = 2 ^ 53 ∧ round (2 ^ 53 + 3) = 2 ^ 53 + 4 := by decide +kernel

end ObsChain.Binary64
