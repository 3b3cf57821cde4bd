/-
Runs of a deterministic step function, over arbitrary states and operations. Nothing here mentions the program.

- `run`: the state after a list of operations.
- `Always P`: `P` holds in every state the run reaches, the first one included.
- `Steps C`: every step of the run meets `C`, a condition on the state before the step and the operation.

The rules the developments use:
- `run_inv`: a property that steps meeting `C` preserve survives every run whose steps meet `C`;
- `always_iff_steps_kept`, `always_iff_steps_inv`, `always_iff_steps`: if, at states satisfying `P`, a step keeps `P`
  exactly when it meets `C`, then a run stays in `P` exactly when all of its steps meet `C`;
- `steps_imp`: a step condition that implies another at the invariant states it keeps implies it along every run;
- `steps_iff_kept`, `steps_iff_inv`: step conditions that agree at the states of an invariant agree along every run;
- `outputs_filter`: hidden operations that leave the state alone do not show in the outputs of the seen ones.
-/
import Mathlib.Tactic

namespace ObsChain.Trace

variable {σ α : Type*} (step : σ → α → σ)

def run (s : σ) (ops : List α) : σ := ops.foldl step s

/-- `P` holds in every state reached -/
def Always (P : σ → Prop) : σ → List α → Prop
  | s, [] => P s
  | s, o :: ops => P s ∧ Always P (step s o) ops

/-- every step meets `C`, judged at the state before it -/
def Steps (C : σ → α → Prop) : σ → List α → Prop
  | _, [] => True
  | s, o :: ops => C s o ∧ Steps C (step s o) ops

instance Steps.decidable (C : σ → α → Prop) [∀ s o, Decidable (C s o)] : ∀ s ops, Decidable (Steps step C s ops)
  | _, [] => inferInstanceAs (Decidable True)
  | s, o :: ops => have := Steps.decidable C (step s o) ops; inferInstanceAs (Decidable (_ ∧ _))

variable {step}

theorem run_append (s : σ) (a b : List α) : run step s (a ++ b) = run step (run step s a) b := by
  simp [run, List.foldl_append]

theorem always_last {P : σ → Prop} {s : σ} {ops : List α} (h : Always step P s ops) : P (run step s ops) := by
  induction ops generalizing s with
  | nil => exact h
  | cons o ops ih => exact ih h.2

/-- **Invariant rule.** What every step meeting `C` preserves, every run of such steps preserves. -/
theorem run_inv {I : σ → Prop} {C : σ → α → Prop} (hstep : ∀ s o, I s → C s o → I (step s o)) {s : σ} {ops : List α}
    (hs : I s) (hops : Steps step C s ops) : I (run step s ops) := by
  induction ops generalizing s with
  | nil => exact hs
  | cons o ops ih => exact ih (hstep s o hs hops.1) hops.2

/-- what operations in `A` preserve, a run of such operations preserves -/
theorem run_inv_mem {I : σ → Prop} {A : α → Prop} (hstep : ∀ s o, I s → A o → I (step s o)) {s : σ} {ops : List α}
    (hA : ∀ o ∈ ops, A o) (hs : I s) : I (run step s ops) := by
  induction ops generalizing s with
  | nil => exact hs
  | cons o ops ih =>
    apply ih
    · exact fun o' ho' => hA o' (List.mem_cons_of_mem o ho')
    · exact hstep s o hs (hA o List.mem_cons_self)

/-- an invariant of every step needs no condition on the run -/
theorem run_inv_all {I : σ → Prop} (hstep : ∀ s o, I s → I (step s o)) {s : σ} (ops : List α) (hs : I s) :
    I (run step s ops) :=
  run_inv_mem (A := fun _ => True) (fun s o h _ => hstep s o h) (fun _ _ => trivial) hs

/-- what the invariant implies, it implies in every state such a run reaches -/
theorem always_inv {I P : σ → Prop} {C : σ → α → Prop} (hstep : ∀ s o, I s → C s o → I (step s o))
    (hP : ∀ s, I s → P s) {s : σ} {ops : List α} (hs : I s) (hops : Steps step C s ops) : Always step P s ops := by
  induction ops generalizing s with
  | nil => exact hP s hs
  | cons o ops ih => exact ⟨hP s hs, ih (hstep s o hs hops.1) hops.2⟩

theorem always_first {P : σ → Prop} {s : σ} {ops : List α} (h : Always step P s ops) : P s := by
  cases ops with
  | nil => exact h
  | cons o ops => exact h.1

/-- what holds in every state reached holds after every step -/
theorem steps_of_always {P : σ → Prop} {s : σ} {ops : List α} (h : Always step P s ops) :
    Steps step (fun s o => P (step s o)) s ops := by
  induction ops generalizing s with
  | nil => trivial
  | cons o ops ih => exact ⟨always_first h.2, ih h.2⟩

/-- a condition on the operations alone holds at every step -/
theorem steps_of_mem {A : α → Prop} {s : σ} {ops : List α} (h : ∀ o ∈ ops, A o) : Steps step (fun _ o => A o) s ops := by
  induction ops generalizing s with
  | nil => trivial
  | cons o ops ih => exact ⟨h o List.mem_cons_self, ih fun o' ho' => h o' (List.mem_cons_of_mem o ho')⟩

theorem steps_and {C D : σ → α → Prop} {s : σ} {ops : List α} (hC : Steps step C s ops) (hD : Steps step D s ops) :
    Steps step (fun s o => C s o ∧ D s o) s ops := by
  induction ops generalizing s with
  | nil => trivial
  | cons o ops ih => exact ⟨⟨hC.1, hD.1⟩, ih hC.2 hD.2⟩

/-- **Exact condition rule.** When, from a state in `P`, a step that meets `E` stays in `P` exactly when it meets `C`, a
run of steps meeting `E` stays in `P` exactly when all of them meet `C`. `J` is what the steps meeting `C` keep. -/
theorem always_iff_steps_kept {J P : σ → Prop} {E C : σ → α → Prop}
    (hJ : ∀ s o, J s → E s o → P s → C s o → J (step s o))
    (hP : ∀ s o, J s → E s o → P s → (P (step s o) ↔ C s o)) {s : σ} {ops : List α} (hE : Steps step E s ops)
    (hj : J s) (hp : P s) : Always step P s ops ↔ Steps step C s ops := by
  induction ops generalizing s with
  | nil => exact ⟨fun _ => trivial, fun _ => hp⟩
  | cons o ops ih =>
    obtain ⟨he, hE'⟩ := hE
    have ho := hP s o hj he hp
    constructor
    · intro halways
      obtain ⟨-, hrest⟩ := halways
      have hp' : P (step s o) := by
        cases ops with
        | nil => exact hrest
        | cons _ _ => exact hrest.1
      have hc := ho.1 hp'
      exact ⟨hc, (ih hE' (hJ s o hj he hp hc) hp').1 hrest⟩
    · intro hsteps
      obtain ⟨hc, hrest⟩ := hsteps
      exact ⟨hp, (ih hE' (hJ s o hj he hp hc) (ho.2 hc)).2 hrest⟩

/-- the rule with what every step keeps -/
theorem always_iff_steps_inv {J P : σ → Prop} {E C : σ → α → Prop} (hJ : ∀ s o, J s → J (step s o))
    (hP : ∀ s o, J s → E s o → P s → (P (step s o) ↔ C s o)) {s : σ} {ops : List α} (hE : Steps step E s ops)
    (hj : J s) (hp : P s) : Always step P s ops ↔ Steps step C s ops :=
  always_iff_steps_kept (fun s o hs _ _ _ => hJ s o hs) hP hE hj hp

/-- the rule for a condition on the operations alone -/
theorem always_iff_steps {P : σ → Prop} {A : α → Prop} {C : σ → α → Prop}
    (hP : ∀ s o, A o → P s → (P (step s o) ↔ C s o)) {s : σ} {ops : List α} (hA : ∀ o ∈ ops, A o) (hp : P s) :
    Always step P s ops ↔ Steps step C s ops := by
  have hsteps : Steps step (fun _ o => A o) s ops := steps_of_mem hA
  exact always_iff_steps_inv (J := fun _ => True) (fun _ _ _ => trivial) (fun s o _ => hP s o) hsteps trivial hp

/-- **Strengthening rule.** Where steps meeting `C` keep the invariant and, at invariant states, also meet `D`, a run
of steps meeting `C` is a run of steps meeting `D`. -/
theorem steps_imp {I : σ → Prop} {C D : σ → α → Prop} (hI : ∀ s o, I s → C s o → I (step s o))
    (hCD : ∀ s o, I s → C s o → D s o) {s : σ} {ops : List α} (hs : I s) (hops : Steps step C s ops) :
    Steps step D s ops := by
  induction ops generalizing s with
  | nil => exact trivial
  | cons o ops ih => exact ⟨hCD s o hs hops.1, ih (hI s o hs hops.1) hops.2⟩

/-- conditions that agree at invariant states, and keep the invariant where they hold, agree along every run -/
theorem steps_iff_kept {I : σ → Prop} {C D : σ → α → Prop} (hI : ∀ s o, I s → C s o → I (step s o))
    (hCD : ∀ s o, I s → (C s o ↔ D s o)) {s : σ} {ops : List α} (hs : I s) :
    Steps step C s ops ↔ Steps step D s ops := by
  induction ops generalizing s with
  | nil => exact Iff.rfl
  | cons o ops ih =>
    have ho := hCD s o hs
    constructor
    · intro h
      exact ⟨ho.1 h.1, (ih (hI s o hs h.1)).1 h.2⟩
    · intro h
      have hc := ho.2 h.1
      exact ⟨hc, (ih (hI s o hs hc)).2 h.2⟩

/-- the rule with what every step keeps -/
theorem steps_iff_inv {I : σ → Prop} {C D : σ → α → Prop} (hI : ∀ s o, I s → I (step s o))
    (hCD : ∀ s o, I s → (C s o ↔ D s o)) {s : σ} {ops : List α} (hs : I s) :
    Steps step C s ops ↔ Steps step D s ops :=
  steps_iff_kept (fun s o hI' _ => hI s o hI') hCD hs

/-- a run in two parts -/
theorem steps_append {C : σ → α → Prop} {s : σ} {a b : List α} :
    Steps step C s (a ++ b) ↔ Steps step C s a ∧ Steps step C (run step s a) b := by
  induction a generalizing s with
  | nil => exact (and_iff_right trivial).symm
  | cons o a ih =>
    constructor
    · intro h
      obtain ⟨ha, hb⟩ := ih.1 h.2
      exact ⟨⟨h.1, ha⟩, hb⟩
    · intro h
      exact ⟨h.1.1, ih.2 ⟨h.1.2, h.2⟩⟩

/-- the last step of a run is judged at the state before it -/
theorem steps_last {C : σ → α → Prop} {s : σ} {ops : List α} {o : α} (h : Steps step C s (ops ++ [o])) :
    C (run step s ops) o :=
  (steps_append.1 h).2.1

/-! ## Outputs -/

section Outputs

variable {β : Type*} (step : σ → α → σ) (out : σ → α → β) (seen : α → Bool)

/-- what the seen operations of a run return, in order -/
def outputs : σ → List α → List β
  | _, [] => []
  | s, o :: ops => if seen o then out s o :: outputs (step s o) ops else outputs (step s o) ops

variable {step out seen}

/-- **Hidden operations.** Where those meeting `C` leave the state alone, a run of them returns what the seen operations
return on their own. -/
theorem outputs_filter {C : σ → α → Prop} (hidden : ∀ s o, seen o = false → C s o → step s o = s) {s : σ} {ops : List α}
    (hops : Steps step C s ops) : outputs step out seen s ops = outputs step out seen s (ops.filter seen) := by
  induction ops generalizing s with
  | nil => rfl
  | cons o ops ih =>
    cases ho : seen o with
    | true =>
      rw [List.filter_cons_of_pos ho]
      simp only [outputs, ho, if_true]
      rw [ih hops.2]
    | false =>
      have hstep := hidden s o ho hops.1
      rw [List.filter_cons_of_neg (by simp [ho])]
      rw [outputs, if_neg (by simp [ho]), ih hops.2, hstep]

/-- seen operations that step alike and return alike give the same outputs -/
theorem outputs_congr {γ : Type*} {f : α → γ} (hstep : ∀ s o o', f o = f o' → step s o = step s o')
    (hout : ∀ s o o', f o = f o' → out s o = out s o') {ops ops' : List α} (hseen : ∀ o ∈ ops, seen o = true)
    (hseen' : ∀ o ∈ ops', seen o = true) (h : ops.map f = ops'.map f) (s : σ) :
    outputs step out seen s ops = outputs step out seen s ops' := by
  induction ops generalizing s ops' with
  | nil =>
    cases ops' with
    | nil => rfl
    | cons o' ops' => simp at h
  | cons o ops ih =>
    cases ops' with
    | nil => simp at h
    | cons o' ops' =>
      obtain ⟨ho, hrest⟩ := List.cons_eq_cons.1 h
      simp only [outputs, hseen o List.mem_cons_self, hseen' o' List.mem_cons_self, if_true]
      rw [hout s o o' ho, hstep s o o' ho]
      congr 1
      exact ih (fun p hp => hseen p (List.mem_cons_of_mem o hp)) (fun p hp => hseen' p (List.mem_cons_of_mem o' hp)) hrest _

end Outputs

end ObsChain.Trace
