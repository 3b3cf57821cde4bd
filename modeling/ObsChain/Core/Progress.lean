/-
Progress of a step function under a stream of inputs, over arbitrary states and inputs.

- `stream`: the state after n steps.
- `Eventually A P s`: whatever stream of inputs in `A` is given, some number of steps leads from `s` to `P`.

`eventually_now` and `eventually_step` execute a program symbolically, one step at a time; `eventually_trans` puts two
pieces together, which is how a loop is unrolled under an induction. `stream_inv` is the invariant rule, for programs
that never get there.
-/
import Mathlib.Tactic

namespace ObsChain.Progress

variable {σ α : Type*} (step : σ → α → σ)

/-- the state after n steps -/
def stream (inputs : ℕ → α) : ℕ → σ → σ
  | 0, s => s
  | n + 1, s => stream (fun i => inputs (i + 1)) n (step s (inputs 0))

/-- `P` is reached on every stream of inputs in `A` -/
def Eventually (A : α → Prop) (P : σ → Prop) (s : σ) : Prop :=
  ∀ inputs : ℕ → α, (∀ i, A (inputs i)) → ∃ n, P (stream step inputs n s)

variable {step} {A : α → Prop} {P Q : σ → Prop} {s : σ}

theorem eventually_now (h : P s) : Eventually step A P s := fun _ _ => ⟨0, h⟩

theorem eventually_step (h : ∀ a, A a → Eventually step A P (step s a)) : Eventually step A P s := by
  intro inputs hA
  obtain ⟨n, hn⟩ := h (inputs 0) (hA 0) (fun i => inputs (i + 1)) (fun i => hA (i + 1))
  exact ⟨n + 1, hn⟩

theorem stream_add (inputs : ℕ → α) (n m : ℕ) (s : σ) :
    stream step inputs (n + m) s = stream step (fun i => inputs (i + n)) m (stream step inputs n s) := by
  induction n generalizing inputs s with
  | zero => simp [stream]
  | succ n ih =>
    rw [Nat.succ_add]
    simp only [stream]
    rw [ih]
    simp only [Nat.add_assoc]

theorem eventually_trans (h : Eventually step A Q s) (hQ : ∀ t, Q t → Eventually step A P t) :
    Eventually step A P s := by
  intro inputs hA
  obtain ⟨n, hn⟩ := h inputs hA
  obtain ⟨m, hm⟩ := hQ _ hn (fun i => inputs (i + n)) (fun i => hA (i + n))
  exact ⟨n + m, by rw [stream_add]; exact hm⟩

/-- what every step on an input in `A` preserves holds along the whole stream -/
theorem stream_inv {I : σ → Prop} (hstep : ∀ s a, A a → I s → I (step s a)) {inputs : ℕ → α}
    (hA : ∀ i, A (inputs i)) (n : ℕ) (hs : I s) : I (stream step inputs n s) := by
  induction n generalizing inputs s with
  | zero => exact hs
  | succ n ih => exact ih (fun i => hA (i + 1)) (hstep s (inputs 0) (hA 0) hs)

end ObsChain.Progress
