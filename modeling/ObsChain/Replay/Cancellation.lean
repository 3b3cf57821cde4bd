/-
Is a terminal status final?

`cancel_replay` and `run_job` both read the whole job, change their copy and write it back, and neither looks at the row
again before it writes. `cancel_replay` checks the status it has read; `run_job` checks its cancel token, once for each
block, and nothing before its first write.

- `runnerStep_status`, `step_status`: which status each step can write.
- `cancellation_final_iff`: a terminal status is never overwritten within a run exactly when the interleaving stays out
  of three windows: `run_job` is started on a row that is already terminal; `run_job` writes a checkpoint, a pause, a
  failure or its completion after `cancel_replay` has written; `cancel_replay` writes after the run it read has
  completed or failed.
- `cancelled_job_overwritten`: a job cancelled before it is scheduled runs, and one cancelled during its last block is
  stored as completed.
-/
import Mathlib.Tactic
import ObsChain.Core.Trace
import ObsChain.Replay.Machine

namespace ObsChain.Replay

open Trace

variable {M : Type}

/-! ## Which status a step writes -/

/-- the status of the runner's private copy wherever it is written back -/
def StatusOk : Runner → Prop
  | .resumeWrite job | .startWrite job | .cancelCheck job _ _ | .pauseCheck job _ _ | .processBlock job _ _
  | .saveCheckpoint job _ _ | .updateJob job _ _ => job.status = .running
  | .cancelWrite job => job.status = .cancelled
  | .pauseWrite job => job.status = .paused
  | .failWrite job => job.status = .failed
  | .completeWrite job => job.status = .completed
  | _ => True

/-- the status this step writes to the row, when it writes -/
def writtenStatus (s : St M) : Op M → Option ReplayJobStatus
  | .runner _ =>
    match s.runner with
    | .resumeWrite _ | .startWrite _ | .updateJob _ _ _ => some .running
    | .cancelWrite _ => some .cancelled
    | .pauseWrite _ => some .paused
    | .failWrite _ => some .failed
    | .completeWrite _ => some .completed
    | _ => none
  | .cancelWrite i _ =>
    match s.cancels[i]? with
    | some (.read _) => some .cancelled
    | _ => none
  | _ => none

theorem processStep_status (interval : ℕ) (chain : Chain M) {s : St M} {job : ReplayJob} (hj : job.status = .running)
    (height : ℕ) (prev : Option DateTime) (inp : Input) :
    StatusOk (processStep interval chain s job height prev inp).runner ∧
      (processStep interval chain s job height prev inp).job = s.job := by
  unfold processStep
  split
  · exact ⟨rfl, rfl⟩
  · exact ⟨rfl, rfl⟩
  · dsimp only
    split_ifs
    · exact ⟨trivial, rfl⟩
    · exact ⟨hj, rfl⟩
    · exact ⟨hj, rfl⟩

theorem runnerStep_status {interval : ℕ} {chain : Chain M} {s : St M} (h : StatusOk s.runner) (inp : Input) :
    StatusOk (runnerStep interval chain s inp).runner ∧
      (runnerStep interval chain s inp).job.status = (writtenStatus s (.runner inp)).getD s.job.status := by
  unfold runnerStep writtenStatus
  cases hr : s.runner with
  | idle => exact ⟨by rw [hr]; trivial, rfl⟩
  | resumeCheckpoint job => exact ⟨rfl, rfl⟩
  | resumeWrite job => rw [hr] at h; exact ⟨trivial, h⟩
  | getJob => exact ⟨trivial, rfl⟩
  | registerCancel job => exact ⟨trivial, rfl⟩
  | registerPause job => exact ⟨rfl, rfl⟩
  | startWrite job => rw [hr] at h; exact ⟨h, h⟩
  | cancelCheck job height prev =>
    rw [hr] at h
    dsimp only
    split_ifs
    · exact ⟨rfl, rfl⟩
    · exact ⟨h, rfl⟩
    · exact ⟨trivial, rfl⟩
  | pauseCheck job height prev =>
    rw [hr] at h
    dsimp only
    split_ifs
    · exact ⟨rfl, rfl⟩
    · exact ⟨h, rfl⟩
  | processBlock job height prev =>
    rw [hr] at h
    obtain ⟨h1, h2⟩ := processStep_status interval chain h height prev inp
    exact ⟨h1, by rw [h2]; rfl⟩
  | saveCheckpoint job height prev => rw [hr] at h; exact ⟨h, rfl⟩
  | updateJob job height prev => rw [hr] at h; exact ⟨h, h⟩
  | cancelWrite job => rw [hr] at h; exact ⟨trivial, h⟩
  | pauseWrite job => rw [hr] at h; exact ⟨trivial, h⟩
  | failWrite job => rw [hr] at h; exact ⟨trivial, h⟩
  | completion job =>
    dsimp only
    split_ifs
    · exact ⟨rfl, rfl⟩
    · exact ⟨trivial, rfl⟩
  | completeWrite job => rw [hr] at h; exact ⟨trivial, h⟩
  | removeCancel => exact ⟨trivial, rfl⟩
  | removePause => exact ⟨trivial, rfl⟩

/-- **What a step does to the stored status**: it writes the status of the table above, or leaves the row's. -/
theorem step_status {interval : ℕ} {chain : Chain M} {s : St M} (h : StatusOk s.runner) (o : Op M) :
    StatusOk (step interval chain s o).runner ∧
      (step interval chain s o).job.status = (writtenStatus s o).getD s.job.status := by
  cases o with
  | start =>
    simp only [step]
    split_ifs
    · exact ⟨trivial, rfl⟩
    · exact ⟨h, rfl⟩
  | resume =>
    simp only [step]
    split_ifs
    · exact ⟨trivial, rfl⟩
    · exact ⟨h, rfl⟩
  | runner inp => exact runnerStep_status h inp
  | storageError =>
    simp only [step]
    split_ifs
    · exact ⟨trivial, rfl⟩
    · exact ⟨h, rfl⟩
  | pause => exact ⟨h, rfl⟩
  | cancelSignal => exact ⟨h, rfl⟩
  | cancelRead i =>
    simp only [step]
    split
    · split_ifs <;> exact ⟨h, rfl⟩
    · exact ⟨h, rfl⟩
  | cancelWrite i now =>
    simp only [step, writtenStatus]
    cases s.cancels[i]? with
    | none => exact ⟨h, rfl⟩
    | some c => cases c <;> exact ⟨h, rfl⟩
  | live ids => exact ⟨h, rfl⟩
  | crash mem => exact ⟨trivial, rfl⟩

/-! ## The property and the three windows -/

/-- the runner's next step is the status write of `resume_replay`, with which a new run begins -/
def BeginsRun (s : St M) : Op M → Prop
  | .runner _ => ∃ job, s.runner = .resumeWrite job
  | _ => False

/-- a terminal status survives the step -/
def KeepsTerminal (interval : ℕ) (chain : Chain M) (s : St M) (o : Op M) : Prop :=
  s.job.status.isTerminal = true → ¬ BeginsRun s o → (step interval chain s o).job.status = s.job.status

/-- the step is in none of the three windows -/
def OutsideWindows (s : St M) : Op M → Prop
  | .runner _ =>
    match s.runner with
    -- `run_job` starts on a row that is already terminal
    | .startWrite _ => s.job.status.isTerminal = false
    -- `run_job` writes its copy back after `cancel_replay` has written
    | .updateJob _ _ _ | .pauseWrite _ | .failWrite _ | .completeWrite _ => s.job.status ≠ .cancelled
    | _ => True
  | .cancelWrite i _ =>
    match s.cancels[i]? with
    -- `cancel_replay` writes after the run has completed or failed
    | some (.read _) => s.job.status ≠ .completed ∧ s.job.status ≠ .failed
    | _ => True
  | _ => True

/-- the runner is between its first write and its last -/
def Active : Runner → Prop
  | .cancelCheck _ _ _ | .pauseCheck _ _ _ | .processBlock _ _ _ | .saveCheckpoint _ _ _ | .updateJob _ _ _
  | .cancelWrite _ | .pauseWrite _ | .failWrite _ | .completeWrite _ => True
  | .completion job => job.status = .running
  | _ => False

/-- while the runner is active the row is neither completed nor failed -/
structure Unfinished (s : St M) : Prop where
  status : StatusOk s.runner
  row : Active s.runner → s.job.status ≠ .completed ∧ s.job.status ≠ .failed

theorem isTerminal_iff (st : ReplayJobStatus) :
    st.isTerminal = true ↔ st = .completed ∨ st = .failed ∨ st = .cancelled := by
  cases st <;> simp [ReplayJobStatus.isTerminal]

/-- an active runner's row is terminal only if it has been cancelled -/
theorem Unfinished.not_terminal {s : St M} (h : Unfinished s) (ha : Active s.runner)
    (hc : s.job.status ≠ .cancelled) : ¬ s.job.status.isTerminal = true := by
  rw [isTerminal_iff]
  intro hterminal
  rcases hterminal with h1 | h1 | h1
  · exact (h.row ha).1 h1
  · exact (h.row ha).2 h1
  · exact hc h1

/-- a runner that is active after its step has just written "running", or was active and wrote nothing -/
theorem runnerStep_active {interval : ℕ} {chain : Chain M} {s : St M} {inp : Input}
    (ha : Active (runnerStep interval chain s inp).runner) (hs : StatusOk s.runner) :
    writtenStatus s (.runner inp) = some .running ∨ writtenStatus s (.runner inp) = none ∧ Active s.runner := by
  unfold runnerStep at ha
  unfold writtenStatus
  cases hr : s.runner with
  | idle => rw [hr] at ha; exact Or.inr ⟨rfl, by rw [hr] at ha; exact ha⟩
  | startWrite job => exact Or.inl rfl
  | updateJob job height prev => exact Or.inl rfl
  | cancelCheck job height prev => exact Or.inr ⟨rfl, trivial⟩
  | pauseCheck job height prev => exact Or.inr ⟨rfl, trivial⟩
  | processBlock job height prev => exact Or.inr ⟨rfl, trivial⟩
  | saveCheckpoint job height prev => exact Or.inr ⟨rfl, trivial⟩
  | cancelWrite job =>
    rw [hr] at ha hs
    exact absurd (ha.symm.trans hs) (by decide)
  | pauseWrite job =>
    rw [hr] at ha hs
    exact absurd (ha.symm.trans hs) (by decide)
  | completion job =>
    rw [hr] at ha
    dsimp only at ha
    split_ifs at ha with hc
    · exact Or.inr ⟨rfl, hc.1⟩
    · exact ha.elim
  | resumeCheckpoint job => rw [hr] at ha; exact ha.elim
  | resumeWrite job => exact Or.inl rfl
  | getJob => rw [hr] at ha; exact ha.elim
  | registerCancel job => rw [hr] at ha; exact ha.elim
  | registerPause job => rw [hr] at ha; exact ha.elim
  | failWrite job => rw [hr] at ha; exact ha.elim
  | completeWrite job => rw [hr] at ha; exact ha.elim
  | removeCancel => rw [hr] at ha; exact ha.elim
  | removePause => rw [hr] at ha; exact ha.elim

theorem unfinished_step {interval : ℕ} {chain : Chain M} (s : St M) (o : Op M) (h : Unfinished s)
    (ho : OutsideWindows s o) : Unfinished (step interval chain s o) := by
  obtain ⟨hst, hrow⟩ := step_status h.status o
  refine ⟨hst, fun ha => ?_⟩
  rw [hrow]
  cases o with
  | runner inp =>
    rcases runnerStep_active ha h.status with hw | ⟨hw, hact⟩
    · rw [hw, Option.getD_some]; exact ⟨by decide, by decide⟩
    · rw [hw]; exact h.row hact
  | cancelWrite i now =>
    simp only [step] at ha
    simp only [writtenStatus]
    cases hc : s.cancels[i]? with
    | none => rw [hc] at ha; exact h.row ha
    | some c =>
      rw [hc] at ha
      cases c with
      | signalled => exact h.row ha
      | read job => exact ⟨ReplayJobStatus.noConfusion, ReplayJobStatus.noConfusion⟩
  | start =>
    simp only [step] at ha
    split_ifs at ha
    · exact ha.elim
    · exact h.row ha
  | resume =>
    simp only [step] at ha
    split_ifs at ha
    · exact ha.elim
    · exact h.row ha
  | storageError =>
    simp only [step] at ha
    split_ifs at ha
    · exact ha.elim
    · exact h.row ha
  | cancelRead i =>
    refine h.row ?_
    simp only [step] at ha
    split at ha
    · split_ifs at ha <;> exact ha
    · exact ha
  | pause => exact h.row ha
  | cancelSignal => exact h.row ha
  | live ids => exact h.row ha
  | crash mem => exact ha.elim

/-- outside the windows a terminal status survives -/
theorem keeps_of_outside {interval : ℕ} {chain : Chain M} (s : St M) (o : Op M) (h : Unfinished s)
    (ho : OutsideWindows s o) : KeepsTerminal interval chain s o := by
  intro ht hb
  rw [(step_status h.status o).2]
  cases o with
  | runner inp =>
    simp only [OutsideWindows] at ho
    simp only [writtenStatus]
    cases hr : s.runner with
    | resumeWrite job => exact absurd ⟨job, hr⟩ hb
    | startWrite job =>
      rw [hr] at ho
      exact absurd ht (by simp only [ho]; decide)
    | updateJob job height prev =>
      rw [hr] at ho
      exact absurd ht (h.not_terminal (by rw [hr]; trivial) ho)
    | pauseWrite job | failWrite job | completeWrite job =>
      rw [hr] at ho
      exact absurd ht (h.not_terminal (by rw [hr]; trivial) ho)
    | cancelWrite job =>
      by_contra hne
      exact h.not_terminal (by rw [hr]; trivial) (fun hc => hne hc.symm) ht
    | _ => rfl
  | cancelWrite i now =>
    simp only [OutsideWindows] at ho
    simp only [writtenStatus]
    cases hc : s.cancels[i]? with
    | none => rfl
    | some c =>
      rw [hc] at ho
      cases c with
      | signalled => rfl
      | read job =>
        rcases (isTerminal_iff s.job.status).1 ht with hst | hst | hst
        · exact absurd hst ho.1
        · exact absurd hst ho.2
        · exact hst.symm
  | _ => rfl

/-- inside a window it does not -/
theorem outside_of_keeps {interval : ℕ} {chain : Chain M} (s : St M) (o : Op M) (h : StatusOk s.runner)
    (hk : KeepsTerminal interval chain s o) : OutsideWindows s o := by
  unfold KeepsTerminal at hk
  rw [(step_status h o).2] at hk
  cases o with
  | runner inp =>
    simp only [writtenStatus, BeginsRun] at hk
    simp only [OutsideWindows]
    cases hr : s.runner with
    | startWrite job =>
      rw [hr] at hk
      by_contra ht
      have hst := hk (by simpa using ht) (by simp)
      rw [← hst] at ht
      exact ht rfl
    | updateJob job height prev =>
      rw [hr] at hk
      intro hc
      rw [hc] at hk
      cases hk rfl (by simp)
    | pauseWrite job | failWrite job | completeWrite job =>
      rw [hr] at hk
      intro hc
      rw [hc] at hk
      cases hk rfl (by simp)
    | _ => trivial
  | cancelWrite i now =>
    simp only [writtenStatus, BeginsRun] at hk
    simp only [OutsideWindows]
    cases hc : s.cancels[i]? with
    | none => trivial
    | some c =>
      rw [hc] at hk
      cases c with
      | signalled => trivial
      | read job =>
        refine ⟨fun hst => ?_, fun hst => ?_⟩
        · rw [hst] at hk
          cases hk rfl id
        · rw [hst] at hk
          cases hk rfl id
  | _ => trivial

/-! ## Every run -/

/-- **Cancellation is final, exactly when.** In any interleaving from the creation of a job, terminal statuses survive
every step of the run if and only if no step falls into one of the three windows. -/
theorem cancellation_final_iff (interval : ℕ) (chain : Chain M) (id : Uuid) (network : String) (a e : ℕ)
    (sourceType : String) (now : DateTime) (events : List Uuid) (mem : M) (ops : List (Op M)) :
    Steps (step interval chain) (KeepsTerminal interval chain)
        (created (ReplayJob.new id network a e sourceType now) events mem) ops ↔
      Steps (step interval chain) OutsideWindows
        (created (ReplayJob.new id network a e sourceType now) events mem) ops := by
  constructor
  · exact steps_imp (fun s o hs _ => (step_status hs o).1) outside_of_keeps trivial
  · exact steps_imp unfinished_step keeps_of_outside ⟨trivial, fun ha => ha.elim⟩

/-! ## Lost cancellations -/

/-- `cancel_replay` runs to its end before the spawned `run_job` is scheduled -/
def cancelBeforeRun : List (Op Unit) := [.cancelSignal, .cancelRead 0, .cancelWrite 0 0, .start, tick, tick, tick]

/-- `cancel_replay` arrives while the last block is processed -/
def cancelDuringLastBlock : List (Op Unit) :=
  [.start] ++ List.replicate 9 tick ++ [.cancelSignal, .cancelRead 0, .cancelWrite 0 0]

/-- **A cancelled job runs, and a cancelled job completes.** The next step of the runner writes "running" over the first
cancellation, and six steps lead from the second to "completed". -/
theorem cancelled_job_overwritten :
    let s := created twoBlockJob [] ()
    (run (step 25 smallChain) s cancelBeforeRun).job.status = .cancelled ∧
    (run (step 25 smallChain) s (cancelBeforeRun ++ [tick])).job.status = .running ∧
    (run (step 25 smallChain) s cancelDuringLastBlock).job.status = .cancelled ∧
    (run (step 25 smallChain) s (cancelDuringLastBlock ++ List.replicate 6 tick)).job.status = .completed ∧
    ¬ Steps (step 25 smallChain) (KeepsTerminal 25 smallChain) s (cancelBeforeRun ++ [tick]) := by
  intro s
  have h1 : (run (step 25 smallChain) s cancelBeforeRun).job.status = .cancelled := by decide
  have h2 : (run (step 25 smallChain) s (cancelBeforeRun ++ [tick])).job.status = .running := by decide
  refine ⟨h1, h2, by decide, by decide, fun h => ?_⟩
  have hlast := steps_last h
  have hkeep := hlast (by rw [h1]; rfl) (by rintro ⟨job, hjob⟩; cases hjob)
  rw [h1] at hkeep
  rw [run_append] at h2
  exact absurd (h2.symm.trans hkeep) (by decide)

end ObsChain.Replay
