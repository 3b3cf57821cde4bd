/-
No block is skipped by a replay.

The job row's current height means "last processed" when the runner writes it and "next to process" when `resume_replay`
does, so the invariant says the weaker of the two: everything below it is processed. It has to hold of every copy of the
job that can still be written back (the runner's, and the one each `cancel_replay` call has read), since a crash may
leave any of them behind in the row.

- `step_inv`, `run_inv`: one step and every run keep the invariant.
- `no_block_skipped`: whatever is run, paused, failed, cancelled, crashed and resumed in whatever order, a stored
  checkpoint has every height up to its own processed, and a job stored as completed has its whole range processed.
-/
import Mathlib.Tactic
import ObsChain.Core.Trace
import ObsChain.Replay.Machine

namespace ObsChain.Replay

open Trace

variable {M : Type}

/-- the heights from `a` up to, and without, `b` are processed -/
def Done (processed : List ℕ) (a b : ℕ) : Prop := ∀ h, a ≤ h → h < b → h ∈ processed

theorem Done.mono {processed : List ℕ} {a b c : ℕ} (h : Done processed a b) (hcb : c ≤ b) : Done processed a c :=
  fun x hx hc => h x hx (lt_of_lt_of_le hc hcb)

theorem Done.grow {processed : List ℕ} {a b : ℕ} (h : Done processed a b) (x : ℕ) : Done (processed ++ [x]) a b :=
  fun y hy hb => List.mem_append_left _ (h y hy hb)

/-- processing the next height extends the processed range by one -/
theorem Done.snoc {processed : List ℕ} {a b : ℕ} (h : Done processed a b) : Done (processed ++ [b]) a (b + 1) := by
  intro x hx hb
  rcases Nat.lt_succ_iff_lt_or_eq.1 hb with hlt | rfl
  · exact h.grow b x hx hlt
  · simp

/-! ## The invariant -/

/-- a copy of the job over the range `a..e`, everything below its current height processed -/
structure JobOk (a e : ℕ) (processed : List ℕ) (job : ReplayJob) : Prop where
  start : job.startHeight = a
  stop : job.endHeight = e
  below : Done processed a job.currentHeight
  whole : job.status = .completed → Done processed a (e + 1)

/-- what the runner knows at each of its steps -/
def RunnerOk (a e : ℕ) (processed : List ℕ) : Runner → Prop
  | .idle | .getJob | .removeCancel | .removePause => True
  | .resumeCheckpoint job | .resumeWrite job | .registerCancel job | .registerPause job | .startWrite job
  | .failWrite job | .completeWrite job => JobOk a e processed job
  | .cancelWrite job | .pauseWrite job => JobOk a e processed job ∧ job.status ≠ .running
  | .cancelCheck job height _ | .pauseCheck job height _ | .processBlock job height _ =>
    JobOk a e processed job ∧ Done processed a height
  | .saveCheckpoint job height _ | .updateJob job height _ =>
    JobOk a e processed job ∧ Done processed a (height + 1)
  -- only a loop that ran to its end leaves the status running
  | .completion job => JobOk a e processed job ∧ (job.status = .running → Done processed a (e + 1))

structure Inv (a e : ℕ) (s : St M) : Prop extends Copies (JobOk a e s.processed) (RunnerOk a e s.processed) s where
  checkpoints : ∀ cp ∈ s.checkpoints, Done s.processed a (cp.completedHeight + 1)

/-- a change of status, to anything but completed, and of the timestamps keeps a copy good -/
theorem JobOk.restatus {a e : ℕ} {processed : List ℕ} {job job' : ReplayJob} (h : JobOk a e processed job)
    (hs : job'.startHeight = job.startHeight) (he : job'.endHeight = job.endHeight)
    (hc : job'.currentHeight = job.currentHeight) (hst : job'.status ≠ .completed) : JobOk a e processed job' where
  start := hs.trans h.start
  stop := he.trans h.stop
  below := hc ▸ h.below
  whole hd := absurd hd hst

theorem JobOk.grow {a e : ℕ} {processed : List ℕ} {job : ReplayJob} (h : JobOk a e processed job) (x : ℕ) :
    JobOk a e (processed ++ [x]) job where
  start := h.start
  stop := h.stop
  below := h.below.grow x
  whole hd := (h.whole hd).grow x

theorem inv_created (id : Uuid) (network : String) (a e : ℕ) (sourceType : String) (now : DateTime)
    (events : List Uuid) (mem : M) : Inv a e (created (ReplayJob.new id network a e sourceType now) events mem) where
  row := ⟨rfl, rfl, fun h h1 h2 => absurd h2 (not_lt.2 h1), fun h => by cases h⟩
  checkpoints cp hcp := by cases hcp
  runner := trivial
  cancels job hjob := by cases hjob

/-! ## One step -/

/-- continuing from a checkpoint: everything up to its height is processed -/
theorem restore_ok {a e : ℕ} {s : St M} (h : Inv a e s) {job : ReplayJob} (hj : JobOk a e s.processed job) :
    JobOk a e s.processed { restore job (latestCheckpoint s.checkpoints) with status := .running } := by
  cases hl : latestCheckpoint s.checkpoints with
  | none => exact hj.restatus rfl rfl rfl (by simp)
  | some cp =>
    exact ⟨hj.start, hj.stop, h.checkpoints cp (latestCheckpoint_mem hl), fun hd => by simp at hd⟩

/-- `process_block` and the counters: on success the height is processed, otherwise the job fails as it was -/
theorem processStep_inv {interval : ℕ} {chain : Chain M} {a e : ℕ} {s : St M} (h : Inv a e s) {job : ReplayJob}
    {height : ℕ} (hj : JobOk a e s.processed job) (hd : Done s.processed a height) (prev : Option DateTime)
    (inp : Input) : Inv a e (processStep interval chain s job height prev inp) := by
  unfold processStep
  split
  · exact { h with runner := hj.restatus rfl rfl rfl (by simp [failJob]) }
  · exact ⟨⟨h.row, hj.restatus rfl rfl rfl (by simp [failJob]), h.cancels⟩, h.checkpoints⟩
  · rename_i header _
    dsimp only
    set job' := countBlock chain job height (detected chain s.mem height prev header).length
      (persist s.events (detected chain s.mem height prev header)) with hjob'
    have hdone : Done (s.processed ++ [height]) a (height + 1) := hd.snoc
    have hj' : JobOk a e (s.processed ++ [height]) job' :=
      ⟨hj.start, hj.stop, hd.grow height, fun hst => (hj.whole hst).grow height⟩
    refine ⟨⟨h.row.grow height, ?_, fun j hjm => (h.cancels j hjm).grow height⟩,
      fun cp hcp => (h.checkpoints cp hcp).grow height⟩
    dsimp only
    split_ifs
    · exact trivial
    · exact ⟨hj', hdone⟩
    · exact ⟨hj', hdone⟩

theorem runnerStep_inv {interval : ℕ} {chain : Chain M} {a e : ℕ} {s : St M} (h : Inv a e s) (inp : Input) :
    Inv a e (runnerStep interval chain s inp) := by
  have hr := h.runner
  unfold runnerStep
  generalize s.runner = r at hr ⊢
  cases r with
  | idle => exact h
  | resumeCheckpoint job => exact { h with runner := restore_ok h hr }
  | resumeWrite job => exact { h with row := hr, runner := trivial }
  | getJob => exact { h with runner := h.row }
  | registerCancel job => exact ⟨⟨h.row, hr, h.cancels⟩, h.checkpoints⟩
  | registerPause job => exact ⟨⟨h.row, JobOk.restatus hr rfl rfl rfl (by simp), h.cancels⟩, h.checkpoints⟩
  | startWrite job => exact { h with row := hr, runner := ⟨hr, JobOk.below hr⟩ }
  | cancelCheck job height prev =>
    dsimp only
    split_ifs with hle hc
    · exact { h with runner := ⟨hr.1.restatus rfl rfl rfl (by simp), by simp⟩ }
    · exact { h with runner := hr }
    · -- past the last height: the whole range is processed
      refine { h with runner := ⟨hr.1, fun _ => hr.2.mono ?_⟩ }
      rw [hr.1.stop] at hle
      omega
  | pauseCheck job height prev =>
    dsimp only
    split_ifs with hp
    · exact { h with runner := ⟨hr.1.restatus rfl rfl rfl (by simp), by simp⟩ }
    · exact { h with runner := hr }
  | processBlock job height prev => exact processStep_inv h hr.1 hr.2 prev inp
  | saveCheckpoint job height prev =>
    refine ⟨⟨h.row, hr, h.cancels⟩, fun cp hcp => ?_⟩
    rcases List.mem_append.1 hcp with hcp | hcp
    · exact h.checkpoints cp hcp
    · rw [List.mem_singleton.1 hcp]
      exact hr.2
  | updateJob job height prev => exact { h with row := hr.1, runner := hr }
  | cancelWrite job => exact { h with row := hr.1, runner := ⟨hr.1, fun hst => absurd hst hr.2⟩ }
  | pauseWrite job => exact { h with row := hr.1, runner := ⟨hr.1, fun hst => absurd hst hr.2⟩ }
  | failWrite job => exact { h with row := hr, runner := trivial }
  | completion job =>
    dsimp only
    split_ifs with hc
    · exact { h with runner := ⟨hr.1.start, hr.1.stop, hr.1.below, fun _ => hr.2 hc.1⟩ }
    · exact { h with runner := trivial }
  | completeWrite job => exact { h with row := hr, runner := trivial }
  | removeCancel | removePause => exact ⟨⟨h.row, trivial, h.cancels⟩, h.checkpoints⟩

/-- **One step keeps the invariant**, whichever it is. -/
theorem step_inv {interval : ℕ} {chain : Chain M} {a e : ℕ} (s : St M) (o : Op M) (h : Inv a e s) :
    Inv a e (step interval chain s o) := by
  by_cases ho : ∃ inp, o = .runner inp
  · obtain ⟨inp, rfl⟩ := ho
    exact runnerStep_inv h inp
  · have ho' : ∀ inp, o ≠ .runner inp := fun inp hinp => ho ⟨inp, hinp⟩
    have rules : CopyRules (JobOk a e s.processed) (RunnerOk a e s.processed) :=
      ⟨trivial, trivial, fun job hj => hj, fun job now hj => hj.restatus rfl rfl rfl (by simp [cancelJob])⟩
    obtain ⟨hp, hcp⟩ : (step interval chain s o).processed = s.processed ∧ _ := step_log ho'
    refine ⟨?_, ?_⟩
    · rw [hp]
      exact h.toCopies.step rules ho'
    · rw [hp, hcp]
      exact h.checkpoints

/-! ## Every run -/

/-- stored checkpoints and a stored completion are backed by processed blocks -/
def Covered (a e : ℕ) (s : St M) : Prop :=
  (∀ cp ∈ s.checkpoints, ∀ h, a ≤ h → h ≤ cp.completedHeight → h ∈ s.processed) ∧
    (s.job.status = .completed → ∀ h, a ≤ h → h ≤ e → h ∈ s.processed)

/-- **No block is skipped.** From the creation of a job over any range, after any sequence of steps. -/
theorem no_block_skipped (interval : ℕ) (chain : Chain M) (id : Uuid) (network : String) (a e : ℕ)
    (sourceType : String) (now : DateTime) (events : List Uuid) (mem : M) (ops : List (Op M)) :
    Covered a e (run (step interval chain) (created (ReplayJob.new id network a e sourceType now) events mem) ops) := by
  have h : Inv a e (run (step interval chain) _ ops) :=
    run_inv_all step_inv ops (inv_created id network a e sourceType now events mem)
  exact ⟨fun cp hcp x hx hle => h.checkpoints cp hcp x hx (Nat.lt_succ_of_le hle),
    fun hst x hx hle => h.row.whole hst x hx (Nat.lt_succ_of_le hle)⟩

end ObsChain.Replay
