/-
Delays that grow by a factor up to a cap. Nothing here mentions the program.

- `grow`: the next delay.
- `delay_succ_eq`: the delay after n failures, in closed form.
- `delay_le`, `le_delay`: every delay of such a sequence lies between its first one and the cap.
-/
import Mathlib.Tactic

namespace ObsChain.Backoff

/-- the next delay -/
def grow (factor cap delay : ℕ) : ℕ := min (delay * factor) cap

/-- the delay after `n` failures in a row -/
def delay (factor cap first n : ℕ) : ℕ := (grow factor cap)^[n] first

variable {factor cap first : ℕ}

@[simp] theorem delay_zero : delay factor cap first 0 = first := rfl

theorem delay_succ (n : ℕ) : delay factor cap first (n + 1) = grow factor cap (delay factor cap first n) :=
  Function.iterate_succ_apply' _ _ _

/-- the cap binds from the first growth on -/
theorem delay_succ_le (n : ℕ) : delay factor cap first (n + 1) ≤ cap := by
  rw [delay_succ]
  exact min_le_right _ _

/-- **Closed form**: a power of the factor, cut off at the cap. -/
theorem delay_succ_eq (hfactor : 0 < factor) (n : ℕ) :
    delay factor cap first (n + 1) = min (first * factor ^ (n + 1)) cap := by
  induction n with
  | zero => simp [delay_succ, grow]
  | succ n ih =>
    have hcap : cap ≤ cap * factor := Nat.le_mul_of_pos_right cap hfactor
    have hmul : min (first * factor ^ (n + 1)) cap * factor = min (first * factor ^ (n + 2)) (cap * factor) := by
      rw [← Nat.mul_min_mul_right, mul_assoc, ← pow_succ]
    rw [delay_succ, ih, grow, hmul, min_assoc, min_eq_right hcap]

theorem delay_le (n : ℕ) : delay factor cap first n ≤ max first cap := by
  cases n with
  | zero => exact le_max_left _ _
  | succ n => exact (delay_succ_le n).trans (le_max_right _ _)

theorem le_delay (hfactor : 0 < factor) (n : ℕ) : min first cap ≤ delay factor cap first n := by
  cases n with
  | zero => exact min_le_left _ _
  | succ n =>
    rw [delay_succ_eq hfactor]
    have hpow : first ≤ first * factor ^ (n + 1) := Nat.le_mul_of_pos_right first (Nat.pow_pos hfactor)
    exact min_le_min_right cap hpow

end ObsChain.Backoff
