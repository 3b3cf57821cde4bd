/-
Retrying an operation that may fail, over arbitrary states, errors and values. Nothing here mentions the program.

- `retry`: attempts until one succeeds, an error is final, or the retries are used up.
- `retry_view`: where a failing attempt writes nothing, the attempts write once, when one succeeds.
- `retry_atomic`: where failing attempts change nothing, the state is the first one, or what the last attempt made of it.
- `pause_total`: the pauses between attempts, each twice the one before.
-/
import Mathlib.Tactic

namespace ObsChain.Retry

structure Outcome (σ ε α : Type*) where
  state : σ
  result : Except ε α
  attempts : ℕ

section

variable {σ ε α : Type*} (transient : ε → Bool) (attempt : ℕ → σ → σ × Except ε α)

/-- the attempts from the i-th one on, with `left` retries after it; only a transient error is followed by one -/
def retry : ℕ → ℕ → σ → Outcome σ ε α
  | 0, i, s => ⟨(attempt i s).1, (attempt i s).2, i + 1⟩
  | left + 1, i, s =>
    match (attempt i s).2 with
    | .ok a => ⟨(attempt i s).1, .ok a, i + 1⟩
    | .error e => if transient e then retry left (i + 1) (attempt i s).1 else ⟨(attempt i s).1, .error e, i + 1⟩

variable {transient attempt}

/-- **What the attempts show.** If an attempt writes when it succeeds and leaves what is seen alone when it fails, all of them
together write once, when one succeeds. -/
theorem retry_view {τ : Type*} {view : σ → τ} {write : τ → τ}
    (hattempt : ∀ i s, view (attempt i s).1 = if (attempt i s).2.isOk then write (view s) else view s) (left i : ℕ) (s : σ) :
    view (retry transient attempt left i s).state =
      if (retry transient attempt left i s).result.isOk then write (view s) else view s := by
  induction left generalizing i s with
  | zero => exact hattempt i s
  | succ left ih =>
    have hfirst := hattempt i s
    rw [retry]
    cases hres : (attempt i s).2 with
    | ok a => simpa [hres] using hfirst
    | error e =>
      rw [hres, Except.isOk, Except.toBool, if_neg Bool.false_ne_true] at hfirst
      cases htransient : transient e with
      | true =>
        simp only [htransient, if_true]
        rw [ih, hfirst]
      | false =>
        simp only [htransient, Bool.false_eq_true, if_false]
        exact hfirst

/-- **Failing attempts that change nothing.** The outcome is that of one attempt at the state the retries began in, all
before it failed there with transient errors, and it is the last one possible if it failed with another. -/
theorem retry_atomic (hatomic : ∀ i s e, (attempt i s).2 = .error e → (attempt i s).1 = s) (left i : ℕ) (s : σ) :
    ∃ k ≤ left, retry transient attempt left i s = ⟨(attempt (i + k) s).1, (attempt (i + k) s).2, i + k + 1⟩ ∧
      (∀ j < k, ∃ e, (attempt (i + j) s).2 = .error e ∧ transient e = true) ∧
      ∀ e, (attempt (i + k) s).2 = .error e → transient e = true → k = left := by
  induction left generalizing i with
  | zero => exact ⟨0, le_rfl, rfl, fun j hj => absurd hj (Nat.not_lt_zero j), fun _ _ _ => rfl⟩
  | succ left ih =>
    cases hres : (attempt i s).2 with
    | ok a =>
      refine ⟨0, Nat.zero_le _, ?_, fun j hj => absurd hj (Nat.not_lt_zero j), fun e he => ?_⟩
      · simp only [retry, hres, Nat.add_zero]
      · rw [Nat.add_zero, hres] at he
        cases he
    | error e =>
      cases htransient : transient e with
      | true =>
        obtain ⟨k, hk, heq, hbefore, hlast⟩ := ih (i + 1)
        refine ⟨k + 1, Nat.succ_le_succ hk, ?_, fun j hj => ?_, fun e' he' ht' => ?_⟩
        · rw [retry, hres]
          simp only [htransient, if_true]
          rw [hatomic i s e hres, heq, Nat.add_assoc, Nat.add_comm 1 k]
        · cases j with
          | zero => exact ⟨e, hres, htransient⟩
          | succ j =>
            have := hbefore j (Nat.lt_of_succ_lt_succ hj)
            rwa [Nat.add_assoc, Nat.add_comm 1 j] at this
        · rw [Nat.add_comm k 1, ← Nat.add_assoc] at he'
          rw [hlast e' he' ht']
      | false =>
        refine ⟨0, Nat.zero_le _, ?_, fun j hj => absurd hj (Nat.not_lt_zero j), fun e' he' ht' => ?_⟩
        · simp only [retry, hres, htransient, Nat.add_zero, Bool.false_eq_true, if_false]
        · rw [Nat.add_zero, hres] at he'
          obtain rfl := Except.error.inj he'
          rw [htransient] at ht'
          cases ht'

end

/-! ## Pauses -/

/-- the pauses before the attempts after the first, each twice the one before -/
def pauses (first attempts : ℕ) : List ℕ := (List.range (attempts - 1)).map fun i => first * 2 ^ i

/-- together they are one short of the next one -/
theorem pause_total (first attempts : ℕ) : (pauses first attempts).sum + first = first * 2 ^ (attempts - 1) := by
  unfold pauses
  induction attempts - 1 with
  | zero => simp
  | succ n ih =>
    rw [List.range_succ, List.map_append, List.sum_append, List.map_singleton, List.sum_singleton, Nat.add_right_comm, ih,
      pow_succ]
    ring

end ObsChain.Retry
