/-
Does an undisturbed resume complete the job?

`resume_replay` continues one above the newest checkpoint. The loop then runs from there to the end, and the job is
completed only if its current height, which the loop sets, equals the end height. A run that stopped between its last
checkpoint and the completion write leaves a checkpoint at the end height itself: the loop that follows is empty, the
current height is one too high, and nothing is written.

- `step_bounds`: in every reachable state, checkpoints are within the range, and a job without checkpoints is too.
- `loop_completes`, `resumed_at_head`: progress, block by block.
- `recovery_completes_iff`: from every reachable state in which the job can be resumed, the resume completes it exactly
  when the checkpoint interval is not 0 and the newest checkpoint is not at the end height.
- `recovery_stuck`: a crash right after the last checkpoint is saved.
-/
import Mathlib.Tactic
import ObsChain.Core.Progress
import ObsChain.Core.Trace
import ObsChain.Replay.Machine

namespace ObsChain.Replay

open Trace Progress

variable {M : Type}

/-- the block is fetched and persisted -/
def Succeeds (inp : Input) : Prop := ∃ header, inp.block = .persisted header

/-- the run has ended with the job completed -/
def Finished (s : St M) : Prop := s.runner = .idle ∧ s.job.status = .completed

/-! ## The loop makes progress -/

/-- at the head of the loop, with fresh tokens -/
structure AtHead (e : ℕ) (s : St M) (job : ReplayJob) (height : ℕ) (prev : Option DateTime) : Prop where
  runner : s.runner = .cancelCheck job height prev
  stop : job.endHeight = e
  status : job.status = .running
  cancel : s.cancelToken = some false
  pause : s.pauseToken = some false

/-- one block further; the last one leaves a checkpoint -/
theorem block_processed {interval : ℕ} {chain : Chain M} {e : ℕ} (hi : interval ≠ 0) {s : St M} {job : ReplayJob}
    {height : ℕ} {prev : Option DateTime} (h : AtHead e s job height prev) (hle : height ≤ e) :
    Eventually (runnerStep interval chain) Succeeds
      (fun t => ∃ job' prev', AtHead e t job' (height + 1) prev' ∧ job'.currentHeight = height ∧
        (height = e → ∃ cp ∈ t.checkpoints, cp.completedHeight = e)) s := by
  obtain ⟨hr, hstop, hst, hc, hp⟩ := h
  -- the two token checks
  refine eventually_step fun inp₁ _ => ?_
  have h1 : runnerStep interval chain s inp₁ = { s with runner := .pauseCheck job height prev } := by
    simp [runnerStep, hr, hstop, hle, hc]
  rw [h1]
  refine eventually_step fun inp₂ _ => ?_
  have h2 : runnerStep interval chain { s with runner := .pauseCheck job height prev } inp₂ =
      { s with runner := .processBlock job height prev } := by
    simp [runnerStep, hp]
  rw [h2]
  -- the block itself
  refine eventually_step fun inp₃ hok => ?_
  obtain ⟨header, hok⟩ := hok
  set ids := detected chain s.mem height prev header with hids
  set job' := countBlock chain job height ids.length (persist s.events ids) with hjob'
  have h3 : runnerStep interval chain { s with runner := .processBlock job height prev } inp₃ =
      { s with
        mem := remembered chain s.mem height prev header
        events := (persist s.events ids).events
        processed := s.processed ++ [height]
        runner := if isCheckpoint interval job' height then .saveCheckpoint job' height (some (chain.blockTime height))
          else .cancelCheck job' (height + 1) (some (chain.blockTime height)) } := by
    simp [runnerStep, processStep, hok, hi, hids, hjob']
  rw [h3]
  split_ifs with hcp
  · refine eventually_step fun inp₄ _ => eventually_step fun inp₅ _ => eventually_now ?_
    refine ⟨job', some (chain.blockTime height), ⟨rfl, hstop, hst, hc, hp⟩, rfl, fun hlast => ?_⟩
    exact ⟨checkpointOf job' height inp₄.uuid inp₄.now, List.mem_append_right _ (List.mem_singleton.2 rfl), hlast⟩
  · refine eventually_now ⟨job', some (chain.blockTime height), ⟨rfl, hstop, hst, hc, hp⟩, rfl, fun hlast => ?_⟩
    -- the last block is always one
    have hend : height = job'.endHeight := hlast.trans hstop.symm
    simp [isCheckpoint, ← hend] at hcp

/-- past the end, with the current height at it, the job is completed -/
theorem end_completes {interval : ℕ} {chain : Chain M} {e : ℕ} {s : St M} {job : ReplayJob} {prev : Option DateTime}
    (h : AtHead e s job (e + 1) prev) (hcur : job.currentHeight = e) :
    Eventually (runnerStep interval chain) Succeeds Finished s := by
  obtain ⟨hr, hstop, hst, hc, hp⟩ := h
  refine eventually_step fun inp₁ _ => ?_
  have h1 : runnerStep interval chain s inp₁ = { s with runner := .completion job } := by
    simp [runnerStep, hr, hstop]
  rw [h1]
  refine eventually_step fun inp₂ _ => ?_
  have h2 : runnerStep interval chain { s with runner := .completion job } inp₂ =
      { s with runner := .completeWrite { job with status := .completed, completedAt := some inp₂.now } } := by
    simp [runnerStep, hst, hstop, hcur]
  rw [h2]
  -- the completion write and the two tokens
  refine eventually_step fun inp₃ _ => eventually_step fun inp₄ _ => eventually_step fun inp₅ _ => ?_
  exact eventually_now ⟨rfl, rfl⟩

/-- **The loop completes the job** from any height of the range. -/
theorem loop_completes {interval : ℕ} {chain : Chain M} {e : ℕ} (hi : interval ≠ 0) (n : ℕ) {s : St M}
    {job : ReplayJob} {height : ℕ} {prev : Option DateTime} (h : AtHead e s job height prev) (hn : height + n = e) :
    Eventually (runnerStep interval chain) Succeeds Finished s := by
  induction n generalizing s job height prev with
  | zero =>
    refine eventually_trans (block_processed hi h (by omega)) ?_
    intro t hhead
    obtain ⟨job', prev', ht, hcur, -⟩ := hhead
    obtain rfl : height = e := hn
    exact end_completes ht hcur
  | succ n ih =>
    refine eventually_trans (block_processed hi h (by omega)) ?_
    intro t hhead
    obtain ⟨job', prev', ht, -⟩ := hhead
    exact ih ht (by omega)

/-- **The loop leaves a checkpoint at the end.** -/
theorem loop_checkpoints {interval : ℕ} {chain : Chain M} {e : ℕ} (hi : interval ≠ 0) (n : ℕ) {s : St M}
    {job : ReplayJob} {height : ℕ} {prev : Option DateTime} (h : AtHead e s job height prev) (hn : height + n = e) :
    Eventually (runnerStep interval chain) Succeeds (fun t => ∃ cp ∈ t.checkpoints, cp.completedHeight = e) s := by
  induction n generalizing s job height prev with
  | zero =>
    refine eventually_trans (block_processed hi h (by omega)) ?_
    intro t hhead
    obtain ⟨-, -, -, -, hlast⟩ := hhead
    exact eventually_now (hlast hn)
  | succ n ih =>
    refine eventually_trans (block_processed hi h (by omega)) ?_
    intro t hhead
    obtain ⟨job', prev', ht, -⟩ := hhead
    exact ih ht (by omega)

/-- from the call of `run_job` to the head of the loop: get_job, the two tokens and the start write -/
theorem started_at_head {interval : ℕ} {chain : Chain M} {s : St M} (hr : s.runner = .getJob) :
    Eventually (runnerStep interval chain) Succeeds
      (fun t => ∃ job', AtHead s.job.endHeight t job' s.job.currentHeight none) s := by
  refine eventually_step fun inp₁ _ => ?_
  have h1 : runnerStep interval chain s inp₁ = { s with runner := .registerCancel s.job } := by simp [runnerStep, hr]
  rw [h1]
  refine eventually_step fun inp₂ _ => eventually_step fun inp₃ _ => eventually_step fun inp₄ _ => eventually_now ?_
  exact ⟨_, rfl, rfl, rfl, rfl, rfl⟩

/-- from the status write of `resume_replay` to the head of the loop -/
theorem resumed_at_head {interval : ℕ} {chain : Chain M} {s : St M} {job : ReplayJob}
    (hr : s.runner = .resumeWrite job) :
    Eventually (runnerStep interval chain) Succeeds
      (fun t => ∃ job', AtHead job.endHeight t job' job.currentHeight none) s := by
  refine eventually_step fun inp₁ _ => ?_
  have h1 : runnerStep interval chain s inp₁ = { s with job := job, runner := .getJob } := by simp [runnerStep, hr]
  rw [h1]
  exact started_at_head (s := { s with job := job, runner := .getJob }) rfl

/-! ## Reachable jobs are within their range -/

/-- until a checkpoint is saved, a copy of the job is at a height of the range -/
structure JobBound (e : ℕ) (checkpoints : List ReplayCheckpoint) (job : ReplayJob) : Prop where
  stop : job.endHeight = e
  bound : checkpoints = [] → job.currentHeight ≤ e

def RunnerBound (e : ℕ) (checkpoints : List ReplayCheckpoint) : Runner → Prop
  | .idle | .getJob | .removeCancel | .removePause => True
  | .resumeCheckpoint job | .resumeWrite job | .registerCancel job | .registerPause job | .startWrite job
  | .cancelCheck job _ _ | .cancelWrite job | .pauseWrite job | .failWrite job | .completion job
  | .completeWrite job => JobBound e checkpoints job
  | .pauseCheck job height _ | .processBlock job height _ | .saveCheckpoint job height _
  | .updateJob job height _ => JobBound e checkpoints job ∧ height ≤ e

structure Bounds (e : ℕ) (s : St M) : Prop extends
    Copies (JobBound e s.checkpoints) (RunnerBound e s.checkpoints) s where
  checkpoints : ∀ cp ∈ s.checkpoints, cp.completedHeight ≤ e

/-- a saved checkpoint lifts the bound on the copies -/
theorem JobBound.saved {e : ℕ} {checkpoints : List ReplayCheckpoint} {job : ReplayJob}
    (h : JobBound e checkpoints job) (cp : ReplayCheckpoint) : JobBound e (checkpoints ++ [cp]) job :=
  ⟨h.stop, fun hnil => by simp at hnil⟩

theorem restore_bound {e : ℕ} {checkpoints : List ReplayCheckpoint} {job : ReplayJob}
    (h : JobBound e checkpoints job) :
    JobBound e checkpoints { restore job (latestCheckpoint checkpoints) with status := .running } := by
  cases hl : latestCheckpoint checkpoints with
  | none => exact ⟨h.stop, h.bound⟩
  | some cp =>
    refine ⟨h.stop, fun hnil => ?_⟩
    have hmem := latestCheckpoint_mem hl
    rw [hnil] at hmem
    cases hmem

theorem processStep_bounds {interval : ℕ} {chain : Chain M} {e : ℕ} {s : St M} (h : Bounds e s) {job : ReplayJob}
    {height : ℕ} (hj : JobBound e s.checkpoints job) (hle : height ≤ e) (prev : Option DateTime) (inp : Input) :
    Bounds e (processStep interval chain s job height prev inp) := by
  unfold processStep
  split
  · exact { h with runner := ⟨hj.stop, hj.bound⟩ }
  · exact ⟨⟨h.row, ⟨hj.stop, hj.bound⟩, h.cancels⟩, h.checkpoints⟩
  · refine ⟨⟨h.row, ?_, h.cancels⟩, h.checkpoints⟩
    dsimp only
    split_ifs
    · exact trivial
    · exact ⟨⟨hj.stop, fun _ => hle⟩, hle⟩
    · exact ⟨hj.stop, fun _ => hle⟩

theorem runnerStep_bounds {interval : ℕ} {chain : Chain M} {e : ℕ} {s : St M} (h : Bounds e s) (inp : Input) :
    Bounds e (runnerStep interval chain s inp) := by
  have hr := h.runner
  unfold runnerStep
  generalize s.runner = r at hr ⊢
  cases r with
  | idle => exact h
  | resumeCheckpoint job => exact { h with runner := restore_bound hr }
  | resumeWrite job => exact { h with row := hr, runner := trivial }
  | getJob => exact { h with runner := h.row }
  | registerCancel job => exact ⟨⟨h.row, hr, h.cancels⟩, h.checkpoints⟩
  | registerPause job => exact ⟨⟨h.row, ⟨hr.stop, hr.bound⟩, h.cancels⟩, h.checkpoints⟩
  | startWrite job => exact { h with row := hr, runner := hr }
  | cancelCheck job height prev =>
    dsimp only
    split_ifs with hle hc
    · exact { h with runner := ⟨hr.stop, hr.bound⟩ }
    · rw [JobBound.stop hr] at hle
      exact { h with runner := ⟨hr, hle⟩ }
    · exact { h with runner := hr }
  | pauseCheck job height prev =>
    dsimp only
    split_ifs with hp
    · exact { h with runner := ⟨hr.1.stop, hr.1.bound⟩ }
    · exact { h with runner := hr }
  | processBlock job height prev => exact processStep_bounds h hr.1 hr.2 prev inp
  | saveCheckpoint job height prev =>
    refine ⟨⟨h.row.saved _, ⟨hr.1.saved _, hr.2⟩, fun j hj => (h.cancels j hj).saved _⟩, fun cp hcp => ?_⟩
    rcases List.mem_append.1 hcp with hcp | hcp
    · exact h.checkpoints cp hcp
    · rw [List.mem_singleton.1 hcp]
      exact hr.2
  | updateJob job height prev => exact { h with row := hr.1, runner := hr.1 }
  | cancelWrite job | pauseWrite job => exact { h with row := hr, runner := hr }
  | failWrite job => exact { h with row := hr, runner := trivial }
  | completion job =>
    dsimp only
    split_ifs with hc
    · exact { h with runner := ⟨hr.stop, hr.bound⟩ }
    · exact { h with runner := trivial }
  | completeWrite job => exact { h with row := hr, runner := trivial }
  | removeCancel | removePause => exact ⟨⟨h.row, trivial, h.cancels⟩, h.checkpoints⟩

theorem step_bounds {interval : ℕ} {chain : Chain M} {e : ℕ} (s : St M) (o : Op M) (h : Bounds e s) :
    Bounds e (step interval chain s o) := by
  by_cases ho : ∃ inp, o = .runner inp
  · obtain ⟨inp, rfl⟩ := ho
    exact runnerStep_bounds h inp
  · have ho' : ∀ inp, o ≠ .runner inp := fun inp hinp => ho ⟨inp, hinp⟩
    have rules : CopyRules (JobBound e s.checkpoints) (RunnerBound e s.checkpoints) :=
      ⟨trivial, trivial, fun job hj => hj, fun job now hj => ⟨hj.stop, hj.bound⟩⟩
    obtain ⟨-, hcp⟩ : _ ∧ (step interval chain s o).checkpoints = s.checkpoints := step_log ho'
    refine ⟨?_, ?_⟩
    · rw [hcp]
      exact h.toCopies.step rules ho'
    · rw [hcp]
      exact h.checkpoints

/-! ## When nothing is left to do, nothing is done -/

/-- the copy the loop starts from: the remainder will panic, or the range is already behind it -/
structure Stops (interval e : ℕ) (job : ReplayJob) : Prop where
  stop : job.endHeight = e
  cause : interval = 0 ∨ job.currentHeight = e + 1

def RunnerStops (interval e : ℕ) (row : ReplayJob) : Runner → Prop
  | .idle | .removeCancel | .removePause => True
  | .getJob => Stops interval e row
  | .resumeWrite job | .startWrite job => Stops interval e job ∧ job.status ≠ .completed
  | .registerCancel job | .registerPause job => Stops interval e job
  | .cancelCheck job height _ => Stops interval e job ∧ height = job.currentHeight
  | .pauseCheck _ _ _ | .processBlock _ _ _ => interval = 0
  | .cancelWrite job | .pauseWrite job => job.status ≠ .completed ∧ job.status ≠ .running
  | .completion job => ¬ (job.status = .running ∧ job.currentHeight = job.endHeight)
  | _ => False

structure Stuck (interval e : ℕ) (s : St M) : Prop where
  row : s.job.status ≠ .completed
  runner : RunnerStops interval e s.job s.runner

theorem stuck_step {interval : ℕ} {chain : Chain M} {e : ℕ} (s : St M) (inp : Input) (hok : Succeeds inp)
    (h : Stuck interval e s) : Stuck interval e (runnerStep interval chain s inp) := by
  have hr := h.runner
  unfold runnerStep
  generalize s.runner = r at hr ⊢
  cases r with
  | idle => exact h
  | resumeWrite job => exact ⟨hr.2, hr.1⟩
  | getJob => exact { h with runner := hr }
  | registerCancel job => exact ⟨h.row, hr⟩
  | registerPause job => exact ⟨h.row, ⟨hr.stop, hr.cause⟩, by simp⟩
  | startWrite job => exact ⟨hr.2, hr.1, rfl⟩
  | cancelCheck job height prev =>
    obtain ⟨⟨hstop, hcause⟩, rfl⟩ := hr
    dsimp only
    split_ifs with hle hc
    · exact ⟨h.row, by simp, by simp⟩
    · refine ⟨h.row, ?_⟩
      rcases hcause with hzero | hpast
      · exact hzero
      · omega
    · refine ⟨h.row, ?_⟩
      intro hboth
      obtain ⟨-, hcur⟩ := hboth
      omega
  | pauseCheck job height prev =>
    dsimp only
    split_ifs with hp
    · exact ⟨h.row, by simp, by simp⟩
    · exact ⟨h.row, hr⟩
  | processBlock job height prev =>
    obtain ⟨header, hok⟩ := hok
    obtain rfl : interval = 0 := hr
    simp only [processStep, hok]
    exact ⟨h.row, trivial⟩
  | cancelWrite job | pauseWrite job => exact ⟨hr.1, fun hc => hr.2 hc.1⟩
  | completion job =>
    dsimp only
    rw [if_neg hr]
    exact ⟨h.row, trivial⟩
  | removeCancel | removePause => exact ⟨h.row, trivial⟩
  | resumeCheckpoint job | saveCheckpoint job height prev | updateJob job height prev | failWrite job
  | completeWrite job => exact hr.elim

/-- a job that can be resumed is -/
theorem step_resume (interval : ℕ) (chain : Chain M) {s : St M} (hidle : s.runner = .idle)
    (hres : s.job.status ≠ .completed ∧ s.job.status ≠ .cancelled) :
    step interval chain s .resume = { s with runner := .resumeCheckpoint s.job } := by
  simp only [step]
  rw [if_pos ⟨hidle, hres.1, hres.2⟩]

/-- a resume that continues nowhere never finishes -/
theorem resume_stuck {interval : ℕ} {chain : Chain M} {e : ℕ} {s : St M} (hidle : s.runner = .idle)
    (hres : s.job.status ≠ .completed ∧ s.job.status ≠ .cancelled)
    (hstops : Stops interval e (restore s.job (latestCheckpoint s.checkpoints))) {inputs : ℕ → Input}
    (hok : ∀ i, Succeeds (inputs i)) (n : ℕ) :
    ¬ Finished (stream (runnerStep interval chain) inputs n (step interval chain s .resume)) := by
  rw [step_resume interval chain hidle hres]
  cases n with
  | zero =>
    intro hfin
    obtain ⟨hrun, -⟩ := hfin
    cases hrun
  | succ n =>
    -- the checkpoint is read in the first step
    set t := runnerStep interval chain { s with runner := .resumeCheckpoint s.job } (inputs 0)
    have hstuck : Stuck interval e t := ⟨hres.1, ⟨hstops.stop, hstops.cause⟩, by simp⟩
    have hn : Stuck interval e (stream (runnerStep interval chain) (fun i => inputs (i + 1)) n t) :=
      stream_inv stuck_step (fun i => hok (i + 1)) n hstuck
    exact fun hfin => hn.row hfin.2

/-! ## Recovery, exactly -/

/-- **Recovery completes, exactly when.** From every reachable state whose job can be resumed, a resume in which every
block succeeds ends with the job completed if and only if the checkpoint interval is not 0 and the newest checkpoint, if
there is one, is below the end height. -/
theorem recovery_completes_iff (interval : ℕ) (chain : Chain M) (id : Uuid) (network : String) (a e : ℕ)
    (sourceType : String) (now : DateTime) (events : List Uuid) (mem : M) (ops : List (Op M)) (s : St M)
    (inputs : ℕ → Input) (hrange : a ≤ e)
    (hs : s = run (step interval chain) (created (ReplayJob.new id network a e sourceType now) events mem) ops)
    (hidle : s.runner = .idle) (hres : s.job.status ≠ .completed ∧ s.job.status ≠ .cancelled)
    (hok : ∀ i, Succeeds (inputs i)) :
    (∃ n, Finished (stream (runnerStep interval chain) inputs n (step interval chain s .resume))) ↔
      interval ≠ 0 ∧ ∀ cp, latestCheckpoint s.checkpoints = some cp → cp.completedHeight ≠ e := by
  have hinit : Bounds e (created (ReplayJob.new id network a e sourceType now) events mem) :=
    ⟨⟨⟨rfl, fun _ => hrange⟩, trivial, fun job hjob => by cases hjob⟩, fun cp hcp => by cases hcp⟩
  have hb : Bounds e s := by
    rw [hs]
    exact run_inv_all step_bounds ops hinit
  have hstop : (restore s.job (latestCheckpoint s.checkpoints)).endHeight = e := by
    cases latestCheckpoint s.checkpoints <;> exact hb.row.stop
  constructor
  · intro hfinished
    obtain ⟨n, hfin⟩ := hfinished
    refine ⟨fun hzero => ?_, fun cp hcp hend => ?_⟩
    · exact resume_stuck hidle hres ⟨hstop, Or.inl hzero⟩ hok n hfin
    · refine resume_stuck hidle hres ⟨hstop, Or.inr ?_⟩ hok n hfin
      rw [hcp, ← hend]
      rfl
  · intro hcond
    obtain ⟨hi, hcp⟩ := hcond
    -- the loop starts within the range
    have hle : (restore s.job (latestCheckpoint s.checkpoints)).currentHeight ≤ e := by
      have hspec := latestCheckpoint_spec s.checkpoints
      cases hl : latestCheckpoint s.checkpoints with
      | none =>
        rw [hl] at hspec
        exact hb.row.bound hspec
      | some cp =>
        have h1 := hb.checkpoints cp (latestCheckpoint_mem hl)
        have h2 := hcp cp hl
        show cp.completedHeight + 1 ≤ e
        omega
    rw [step_resume interval chain hidle hres]
    have hprogress : Eventually (runnerStep interval chain) Succeeds Finished
        { s with runner := .resumeCheckpoint s.job } := by
      refine eventually_step fun inp _ => ?_
      refine eventually_trans (resumed_at_head rfl) ?_
      intro t hhead
      obtain ⟨job', ht⟩ := hhead
      dsimp only at ht
      rw [hstop] at ht
      exact loop_completes hi (e - (restore s.job (latestCheckpoint s.checkpoints)).currentHeight) ht (by omega)
    exact hprogress inputs hok

/-! ## A crash in the middle, and a crash at the end -/

/-- a crash after the first of two blocks -/
theorem recovery_completes_iff_midway :
    ∃ n, Finished (stream (runnerStep 25 smallChain) (fun _ => calm) n
      (step 25 smallChain
        (run (step 25 smallChain) (created twoBlockJob [] ()) ([.start] ++ List.replicate 8 tick ++ [.crash ()]))
        .resume)) := by
  refine (recovery_completes_iff 25 smallChain 1 "regtest" 1 2 "bitcoin_core_rpc:regtest" 0 [] () _ _ (fun _ => calm)
    (by decide) rfl (by decide) (by decide) (fun _ => ⟨some 0, rfl⟩)).2 ⟨by decide, fun cp hcp => ?_⟩
  have hnone : latestCheckpoint (run (step 25 smallChain) (created twoBlockJob [] ())
      ([.start] ++ List.replicate 8 tick ++ [.crash ()])).checkpoints = none := by decide
  cases hnone.symm.trans hcp

/-- the last checkpoint is saved, and the process stops before the row is written -/
def crashAfterLastCheckpoint : List (Op Unit) := [.start] ++ List.replicate 11 tick ++ [.crash ()]

/-- **A resume that never completes.** Both blocks are processed, the row still says "running", and no number of
undisturbed steps after `resume_replay` completes the job. -/
theorem recovery_stuck :
    let s := run (step 25 smallChain) (created twoBlockJob [] ()) crashAfterLastCheckpoint
    s.processed = [1, 2] ∧ s.runner = .idle ∧ s.job.status = .running ∧
      ∀ n, ¬ Finished (stream (runnerStep 25 smallChain) (fun _ => calm) n (step 25 smallChain s .resume)) := by
  intro s
  have hstatus : s.job.status = .running := by decide
  refine ⟨by decide, by decide, hstatus, fun n => ?_⟩
  have hstops : Stops 25 2 (restore s.job (latestCheckpoint s.checkpoints)) := ⟨by decide, Or.inr (by decide)⟩
  exact resume_stuck (by decide) (by rw [hstatus]; decide) hstops (fun _ => ⟨some 0, rfl⟩) n

end ObsChain.Replay
