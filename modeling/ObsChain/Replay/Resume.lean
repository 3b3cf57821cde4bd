/-
Is an interrupted replay the same as an uninterrupted one?

The counters live in the job row and in the checkpoints. `resume_replay` takes blocks, transactions and generated events
from the newest checkpoint and everything else from the row; without a checkpoint it takes all of it from the row, whose
current height is the last block processed, and processes that block again.

- `expected`: the counters of a range with each block counted once.
- `counts_step`: a step that counts nothing twice keeps every copy of the job, and every checkpoint, at the expected
  counters of some prefix of the range.
- `resume_transparent`: a run of such steps that ends with the job completed ends with the counters of an uninterrupted
  run, and with as many blocks as the range has.
- `paused_job_counts_twice`: a pause after the first of two blocks, and a resume, count three.
-/
import Mathlib.Tactic
import ObsChain.Core.Trace
import ObsChain.Replay.Machine

namespace ObsChain.Replay

open Trace

variable {M : Type}

/-! ## Counters -/

/-- the counters a run ends with; created and existing events are one number -/
structure Totals where
  blocks : ℕ
  transactions : ℕ
  generated : ℕ
  persisted : ℕ
  observations : ℕ
deriving DecidableEq, Repr

def jobTotals (job : ReplayJob) : Totals :=
  ⟨job.blocksProcessed, job.transactionsProcessed, job.eventsGenerated, job.eventsCreated + job.eventsExisting,
    job.observationsRecorded⟩

def checkpointTotals (cp : ReplayCheckpoint) : Totals :=
  ⟨cp.blocksProcessed, cp.transactionsProcessed, cp.eventsGenerated, cp.eventsCreated + cp.eventsExisting,
    cp.observationsRecorded⟩

/-- the first `n` blocks from height `a`, each counted once; `ev h` events are found at height `h` -/
def expected (chain : Chain M) (ev : ℕ → ℕ) (a n : ℕ) : Totals :=
  let events := ∑ i ∈ Finset.range n, ev (a + i)
  ⟨n, ∑ i ∈ Finset.range n, chain.txCount (a + i), events, events, events⟩

/-- counting the next block of the range -/
theorem countBlock_totals {chain : Chain M} {ev : ℕ → ℕ} {a n : ℕ} {job : ReplayJob}
    (h : jobTotals job = expected chain ev a n) {stored ids : List Uuid} (hids : ids.length = ev (a + n)) :
    jobTotals (countBlock chain job (a + n) ids.length (persist stored ids)) = expected chain ev a (n + 1) := by
  obtain ⟨hp, ho⟩ := persist_counts stored ids
  simp only [jobTotals, expected, Totals.mk.injEq] at h
  obtain ⟨h1, h2, h3, h4, h5⟩ := h
  simp only [jobTotals, countBlock, expected, Finset.sum_range_succ, Totals.mk.injEq]
  refine ⟨by omega, by omega, by omega, by omega, by omega⟩

/-! ## Steps that count nothing twice -/

/-- a block that is persisted yields `ev` events: on a fixed chain, with the same interval and previous outputs -/
def detectsAs (chain : Chain M) (ev : ℕ → ℕ) (s : St M) : Op M → Bool
  | .runner inp =>
    match s.runner, inp.block with
    | .processBlock _ height prev, .persisted header => (detected chain s.mem height prev header).length == ev height
    | _, _ => true
  | _ => true

/-- the counters that `resume_replay` leaves to the row are the checkpoint's; and the height `run_job` starts at is the
first one the row has not counted -/
def countsOnce (s : St M) : Op M → Bool
  | .runner _ =>
    match s.runner with
    | .resumeCheckpoint job =>
      match latestCheckpoint s.checkpoints with
      | some cp =>
        job.eventsCreated + job.eventsExisting == cp.eventsCreated + cp.eventsExisting &&
          job.observationsRecorded == cp.observationsRecorded
      | none => true
    | .getJob => s.job.startHeight + s.job.blocksProcessed == s.job.currentHeight
    | _ => true
  | _ => true

/-! ## The invariant -/

/-- a copy of the job over `a..e` whose counters are those of the blocks it has counted -/
structure JobCounts (chain : Chain M) (ev : ℕ → ℕ) (a e : ℕ) (job : ReplayJob) : Prop where
  start : job.startHeight = a
  stop : job.endHeight = e
  totals : jobTotals job = expected chain ev a job.blocksProcessed
  whole : job.status = .completed → a + job.blocksProcessed = e + 1

/-- the copy the loop works on: `height` is the next block to count -/
structure Looping (chain : Chain M) (ev : ℕ → ℕ) (a e : ℕ) (job : ReplayJob) (height : ℕ) : Prop extends
    JobCounts chain ev a e job where
  next : a + job.blocksProcessed = height
  status : job.status ≠ .completed

def RunnerCounts (chain : Chain M) (ev : ℕ → ℕ) (a e : ℕ) : Runner → Prop
  | .idle | .getJob | .removeCancel | .removePause => True
  | .resumeCheckpoint job | .resumeWrite job | .failWrite job | .completeWrite job => JobCounts chain ev a e job
  | .registerCancel job | .registerPause job =>
    JobCounts chain ev a e job ∧ a + job.blocksProcessed = job.currentHeight
  | .startWrite job => Looping chain ev a e job job.currentHeight
  -- the loop is at its first height, or one past the last block counted
  | .cancelCheck job height _ | .pauseCheck job height _ | .processBlock job height _ =>
    Looping chain ev a e job height ∧ (job.currentHeight = height ∨ job.currentHeight + 1 = height)
  | .saveCheckpoint job height _ | .updateJob job height _ =>
    Looping chain ev a e job (height + 1) ∧ job.currentHeight = height
  | .cancelWrite job | .pauseWrite job => JobCounts chain ev a e job ∧ job.status ≠ .running
  | .completion job => JobCounts chain ev a e job ∧
      (job.status = .running → job.currentHeight = e → a + job.blocksProcessed = e + 1)

structure Counts (chain : Chain M) (ev : ℕ → ℕ) (a e : ℕ) (s : St M) : Prop extends
    Copies (JobCounts chain ev a e) (RunnerCounts chain ev a e) s where
  checkpoints : ∀ cp ∈ s.checkpoints,
    checkpointTotals cp = expected chain ev a cp.blocksProcessed ∧ a + cp.blocksProcessed = cp.completedHeight + 1

/-- a change of status, to anything but completed, keeps the counters -/
theorem JobCounts.restatus {chain : Chain M} {ev : ℕ → ℕ} {a e : ℕ} {job job' : ReplayJob}
    (h : JobCounts chain ev a e job) (hs : job'.startHeight = job.startHeight) (he : job'.endHeight = job.endHeight)
    (ht : jobTotals job' = jobTotals job) (hst : job'.status ≠ .completed) : JobCounts chain ev a e job' where
  start := hs.trans h.start
  stop := he.trans h.stop
  totals := by
    have hb : job'.blocksProcessed = job.blocksProcessed := congrArg Totals.blocks ht
    rw [ht, hb, h.totals]
  whole hd := absurd hd hst

/-! ## One step -/

/-- continuing from the checkpoint, with the row's remaining counters equal to it -/
theorem restore_counts {chain : Chain M} {ev : ℕ → ℕ} {a e : ℕ} {s : St M} (h : Counts chain ev a e s)
    {job : ReplayJob} (hj : JobCounts chain ev a e job) {inp : Input} (hr : s.runner = .resumeCheckpoint job)
    (hc : countsOnce s (.runner inp) = true) :
    JobCounts chain ev a e { restore job (latestCheckpoint s.checkpoints) with status := .running } := by
  simp only [countsOnce, hr] at hc
  cases hl : latestCheckpoint s.checkpoints with
  | none => exact hj.restatus rfl rfl rfl (by simp)
  | some cp =>
    rw [hl] at hc
    simp only [Bool.and_eq_true, beq_iff_eq] at hc
    obtain ⟨htot, -⟩ := h.checkpoints cp (latestCheckpoint_mem hl)
    refine ⟨hj.start, hj.stop, ?_, by simp⟩
    simp only [restore, ← htot, jobTotals, checkpointTotals, hc.1, hc.2]

theorem processStep_counts {interval : ℕ} {chain : Chain M} {ev : ℕ → ℕ} {a e : ℕ} {s : St M}
    (h : Counts chain ev a e s) {job : ReplayJob} {height : ℕ} {prev : Option DateTime} {inp : Input}
    (hr : s.runner = .processBlock job height prev) (hj : Looping chain ev a e job height)
    (hd : detectsAs chain ev s (.runner inp) = true) :
    Counts chain ev a e (processStep interval chain s job height prev inp) := by
  unfold processStep
  cases hb : inp.block with
  | unavailable err => exact ⟨⟨h.row, hj.restatus rfl rfl rfl (by simp [failJob]), h.cancels⟩, h.checkpoints⟩
  | notPersisted header saved err =>
    exact ⟨⟨h.row, hj.restatus rfl rfl rfl (by simp [failJob]), h.cancels⟩, h.checkpoints⟩
  | persisted header =>
    simp only [detectsAs, hr, hb, beq_iff_eq] at hd
    dsimp only
    set ids := detected chain s.mem height prev header
    set job' := countBlock chain job height ids.length (persist s.events ids) with hjob'
    have hnext := hj.next
    have hj' : Looping chain ev a e job' (height + 1) := by
      refine ⟨⟨hj.start, hj.stop, ?_, fun hst => absurd hst hj.status⟩, ?_, hj.status⟩
      · subst hnext
        exact countBlock_totals hj.totals hd
      · simp only [hjob', countBlock]
        omega
    refine ⟨⟨h.row, ?_, h.cancels⟩, h.checkpoints⟩
    dsimp only
    split_ifs
    · exact trivial
    · exact ⟨hj', rfl⟩
    · exact ⟨hj', Or.inr rfl⟩

theorem runnerStep_counts {interval : ℕ} {chain : Chain M} {ev : ℕ → ℕ} {a e : ℕ} {s : St M}
    (h : Counts chain ev a e s) (inp : Input) (hd : detectsAs chain ev s (.runner inp) = true)
    (hc : countsOnce s (.runner inp) = true) : Counts chain ev a e (runnerStep interval chain s inp) := by
  have hr := h.runner
  unfold runnerStep
  cases hrun : s.runner with
  | idle => exact h
  | resumeCheckpoint job =>
    rw [hrun] at hr
    exact { h with runner := restore_counts h hr hrun hc }
  | resumeWrite job =>
    rw [hrun] at hr
    exact { h with row := hr, runner := trivial }
  | getJob =>
    simp only [countsOnce, hrun, beq_iff_eq] at hc
    exact { h with runner := ⟨h.row, by rw [← hc, h.row.start]⟩ }
  | registerCancel job =>
    rw [hrun] at hr
    exact ⟨⟨h.row, hr, h.cancels⟩, h.checkpoints⟩
  | registerPause job =>
    rw [hrun] at hr
    exact ⟨⟨h.row, ⟨hr.1.restatus rfl rfl rfl (by simp), hr.2, by simp⟩, h.cancels⟩, h.checkpoints⟩
  | startWrite job =>
    rw [hrun] at hr
    exact { h with row := hr.toJobCounts, runner := ⟨hr, Or.inl rfl⟩ }
  | cancelCheck job height prev =>
    rw [hrun] at hr
    obtain ⟨hj, hcur⟩ := hr
    dsimp only
    split_ifs with hle hcancel
    · exact { h with runner := ⟨hj.restatus rfl rfl rfl (by simp), by simp⟩ }
    · exact { h with runner := ⟨hj, hcur⟩ }
    · -- past the end with the current height at it: the last block has just been counted
      refine { h with runner := ⟨hj.toJobCounts, fun _ hend => ?_⟩ }
      have hnext := hj.next
      have hstop := hj.stop
      omega
  | pauseCheck job height prev =>
    rw [hrun] at hr
    dsimp only
    split_ifs with hpause
    · exact { h with runner := ⟨hr.1.restatus rfl rfl rfl (by simp), by simp⟩ }
    · exact { h with runner := hr }
  | processBlock job height prev =>
    rw [hrun] at hr
    exact processStep_counts h hrun hr.1 hd
  | saveCheckpoint job height prev =>
    rw [hrun] at hr
    refine ⟨⟨h.row, hr, h.cancels⟩, fun cp hcp => ?_⟩
    rcases List.mem_append.1 hcp with hcp | hcp
    · exact h.checkpoints cp hcp
    · rw [List.mem_singleton.1 hcp]
      exact ⟨hr.1.totals, hr.1.next⟩
  | updateJob job height prev =>
    rw [hrun] at hr
    exact { h with row := hr.1.toJobCounts, runner := ⟨hr.1, Or.inr (by rw [hr.2])⟩ }
  | cancelWrite job | pauseWrite job =>
    rw [hrun] at hr
    exact { h with row := hr.1, runner := ⟨hr.1, fun hst => absurd hst hr.2⟩ }
  | failWrite job =>
    rw [hrun] at hr
    exact { h with row := hr, runner := trivial }
  | completion job =>
    rw [hrun] at hr
    obtain ⟨hj, hend⟩ := hr
    dsimp only
    split_ifs with hdone
    · exact { h with runner := ⟨hj.start, hj.stop, hj.totals, fun _ => hend hdone.1 (hdone.2.trans hj.stop)⟩ }
    · exact { h with runner := trivial }
  | completeWrite job =>
    rw [hrun] at hr
    exact { h with row := hr, runner := trivial }
  | removeCancel | removePause => exact ⟨⟨h.row, trivial, h.cancels⟩, h.checkpoints⟩

/-- the condition on one step -/
def Transparent (chain : Chain M) (ev : ℕ → ℕ) (s : St M) (o : Op M) : Prop :=
  detectsAs chain ev s o = true ∧ countsOnce s o = true

instance (chain : Chain M) (ev : ℕ → ℕ) (s : St M) (o : Op M) : Decidable (Transparent chain ev s o) :=
  inferInstanceAs (Decidable (_ ∧ _))

/-- **One step that counts nothing twice** keeps all counters at the expected ones. -/
theorem counts_step {interval : ℕ} {chain : Chain M} {ev : ℕ → ℕ} {a e : ℕ} (s : St M) (o : Op M)
    (h : Counts chain ev a e s) (hc : Transparent chain ev s o) : Counts chain ev a e (step interval chain s o) := by
  by_cases ho : ∃ inp, o = .runner inp
  · obtain ⟨inp, rfl⟩ := ho
    exact runnerStep_counts h inp hc.1 hc.2
  · have ho' : ∀ inp, o ≠ .runner inp := fun inp hinp => ho ⟨inp, hinp⟩
    have rules : CopyRules (JobCounts chain ev a e) (RunnerCounts chain ev a e) :=
      ⟨trivial, trivial, fun job hj => hj, fun job now hj => hj.restatus rfl rfl rfl (by simp [cancelJob])⟩
    obtain ⟨-, hcp⟩ : _ ∧ (step interval chain s o).checkpoints = s.checkpoints := step_log ho'
    refine ⟨h.toCopies.step rules ho', ?_⟩
    rw [hcp]
    exact h.checkpoints

theorem counts_created (chain : Chain M) (ev : ℕ → ℕ) (id : Uuid) (network : String) (a e : ℕ) (sourceType : String)
    (now : DateTime) (events : List Uuid) (mem : M) :
    Counts chain ev a e (created (ReplayJob.new id network a e sourceType now) events mem) where
  row := ⟨rfl, rfl, rfl, fun hst => by cases hst⟩
  runner := trivial
  cancels job hjob := by cases hjob
  checkpoints cp hcp := by cases hcp

/-! ## Every run -/

/-- a completed job has counted its whole range -/
theorem completed_totals {chain : Chain M} {ev : ℕ → ℕ} {a e : ℕ} {s : St M} (h : Counts chain ev a e s)
    (hst : s.job.status = .completed) :
    s.job.blocksProcessed = s.job.totalBlocks ∧ jobTotals s.job = expected chain ev a (e + 1 - a) := by
  have hwhole := h.row.whole hst
  have hblocks : s.job.blocksProcessed = e + 1 - a := by omega
  refine ⟨?_, by rw [h.row.totals, hblocks]⟩
  unfold ReplayJob.totalBlocks
  rw [h.row.start, h.row.stop]
  split_ifs <;> omega

/-- `run_job` is called once and left alone -/
def uninterrupted (inputs : List Input) : List (Op M) := .start :: inputs.map .runner

/-- `run_job` has read the job: from here on it neither resumes nor reads it again -/
def PastGetJob : Runner → Prop
  | .resumeCheckpoint _ | .resumeWrite _ | .getJob => False
  | _ => True

theorem runnerStep_pastGetJob {interval : ℕ} {chain : Chain M} {s : St M} (h : PastGetJob s.runner) (inp : Input) :
    PastGetJob (runnerStep interval chain s inp).runner := by
  unfold runnerStep
  cases hrun : s.runner with
  | idle => exact h
  | resumeCheckpoint job | resumeWrite job => rw [hrun] at h; exact h.elim
  | getJob => exact trivial
  | cancelCheck job height prev => dsimp only; split_ifs <;> exact trivial
  | pauseCheck job height prev => dsimp only; split_ifs <;> exact trivial
  | processBlock job height prev =>
    simp only [processStep]
    split
    · exact trivial
    · exact trivial
    · dsimp only; split_ifs <;> exact trivial
  | completion job => dsimp only; split_ifs <;> exact trivial
  | _ => exact trivial

/-- nothing is resumed in the rest of an uninterrupted run, so nothing is counted twice -/
theorem transparent_pastGetJob {interval : ℕ} {chain : Chain M} {ev : ℕ → ℕ} {inputs : List Input} {s : St M}
    (h : PastGetJob s.runner)
    (hd : Steps (step interval chain) (fun s o => detectsAs chain ev s o = true) s (inputs.map .runner)) :
    Steps (step interval chain) (Transparent chain ev) s (inputs.map .runner) := by
  induction inputs generalizing s with
  | nil => exact trivial
  | cons inp inputs ih =>
    obtain ⟨hd1, hd2⟩ := hd
    refine ⟨⟨hd1, ?_⟩, ih (runnerStep_pastGetJob h inp) hd2⟩
    unfold countsOnce
    cases hrun : s.runner with
    | resumeCheckpoint job | getJob => rw [hrun] at h; exact h.elim
    | _ => rfl

theorem transparent_uninterrupted {interval : ℕ} {chain : Chain M} {ev : ℕ → ℕ} {id : Uuid} {network : String}
    {a e : ℕ} {sourceType : String} {now : DateTime} {events : List Uuid} {mem : M} {inputs : List Input}
    (hd : Steps (step interval chain) (fun s o => detectsAs chain ev s o = true)
      (created (ReplayJob.new id network a e sourceType now) events mem) (uninterrupted inputs)) :
    Steps (step interval chain) (Transparent chain ev)
      (created (ReplayJob.new id network a e sourceType now) events mem) (uninterrupted inputs) := by
  obtain ⟨-, hd⟩ := hd
  refine ⟨⟨rfl, rfl⟩, ?_⟩
  cases inputs with
  | nil => exact trivial
  | cons inp inputs =>
    -- the row read here is the one just created
    refine ⟨⟨rfl, ?_⟩, transparent_pastGetJob trivial hd.2⟩
    show (a + 0 == a) = true
    simp

/-- **Resume transparency.** A run that ends with the job completed, and whose steps count nothing twice, ends with as
many blocks as the range has and with the counters of an uninterrupted run over the same chain. -/
theorem resume_transparent (interval : ℕ) (chain : Chain M) (ev : ℕ → ℕ) (id : Uuid) (network : String) (a e : ℕ)
    (sourceType : String) (now : DateTime) (events : List Uuid) (mem : M) (ops : List (Op M)) (inputs : List Input)
    (hops : Steps (step interval chain) (Transparent chain ev)
      (created (ReplayJob.new id network a e sourceType now) events mem) ops)
    (href : Steps (step interval chain) (fun s o => detectsAs chain ev s o = true)
      (created (ReplayJob.new id network a e sourceType now) events mem) (uninterrupted inputs))
    (hdone : (run (step interval chain) (created (ReplayJob.new id network a e sourceType now) events mem) ops).job.status
      = .completed)
    (hrefdone : (run (step interval chain) (created (ReplayJob.new id network a e sourceType now) events mem)
      (uninterrupted inputs)).job.status = .completed) :
    let job := (run (step interval chain) (created (ReplayJob.new id network a e sourceType now) events mem) ops).job
    let reference := (run (step interval chain) (created (ReplayJob.new id network a e sourceType now) events mem)
      (uninterrupted inputs)).job
    job.blocksProcessed = job.totalBlocks ∧ jobTotals job = jobTotals reference := by
  have hinit := counts_created chain ev id network a e sourceType now events mem
  obtain ⟨hblocks, htotals⟩ := completed_totals (run_inv counts_step hinit hops) hdone
  obtain ⟨-, hrtotals⟩ := completed_totals (run_inv counts_step hinit (transparent_uninterrupted href)) hrefdone
  exact ⟨hblocks, htotals.trans hrtotals.symm⟩

/-! ## A pause with a checkpoint behind it, and one without -/

/-- the job paused after its first block and resumed; a checkpoint is written after every block -/
def pausedAtCheckpoint : List (Op Unit) :=
  [.start] ++ List.replicate 9 tick ++ [.pause] ++ List.replicate 6 tick ++ [.resume] ++ List.replicate 14 tick

/-- the same with no checkpoint before the end -/
def pausedBetweenCheckpoints : List (Op Unit) :=
  [.start] ++ List.replicate 7 tick ++ [.pause] ++ List.replicate 6 tick ++ [.resume] ++ List.replicate 17 tick

theorem resume_transparent_at_checkpoint :
    jobTotals (run (step 1 smallChain) (created twoBlockJob [] ()) pausedAtCheckpoint).job =
      jobTotals (run (step 1 smallChain) (created twoBlockJob [] ()) (uninterrupted (List.replicate 17 calm))).job :=
  (resume_transparent 1 smallChain (fun _ => 1) 1 "regtest" 1 2 "bitcoin_core_rpc:regtest" 0 [] () pausedAtCheckpoint
    (List.replicate 17 calm) (by decide) (by decide) (by decide) (by decide)).2

/-- **Three blocks of two.** The job is paused after its first block, before any checkpoint, and resumed. It completes
with the first block counted twice. -/
theorem paused_job_counts_twice :
    let job := (run (step 25 smallChain) (created twoBlockJob [] ()) pausedBetweenCheckpoints).job
    let reference := (run (step 25 smallChain) (created twoBlockJob [] ()) (uninterrupted (List.replicate 15 calm))).job
    job.status = .completed ∧ reference.status = .completed ∧ job.totalBlocks = 2 ∧
      jobTotals job = ⟨3, 3, 3, 3, 3⟩ ∧ jobTotals reference = ⟨2, 2, 2, 2, 2⟩ := by
  decide

end ObsChain.Replay
