/-
The historical replay engine (`historical_replay.rs`) as a state machine over one job.

MODEL. Every storage call, token access and block of `run_job`, `resume_replay`, `cancel_replay` and `pause_replay` is a
step of its own, so a run is any interleaving of them. The state is what is stored (the job row, its checkpoints, the
event ids), what the process holds (the token of each map under the job's id, the engine's memory) and where each call
stands: the runner, with its private copy of the job, and any number of `cancel_replay` calls. There is one runner at a
time; `run_job` starts when a job is created, and through `resume_replay`.

- `storageError`: the runner's storage call fails, and `run_job` returns without cleaning up its tokens.
- `crash`: the process stops. Stored data stay; calls, tokens and memory are gone.
- `live`: the live pipeline stores events of its own.
- A checkpoint interval of 0 makes the remainder panic after the first block, which ends the runner.

The chain is fixed (`Chain`). Enrichment and detection are a function of the engine's memory (the transaction cache and
the detectors' last block), the height and the block interval: `detect`, any function. The ids of the events it finds
are persisted one at a time, and counted as created or existing by what is stored at that moment. Not modelled: the
replayed events' other fields and the watch stage, which no counter reads.

`processed` is a ghost: the heights `process_block` has returned `Ok` for.

`ProcessBlock` puts enrichment and detection in place of `detect`. Results live in `Coverage`, `Recovery`, `Resume`,
`Cancellation` and `Faults`.
-/
import Mathlib.Tactic
import ObsChain.Core.Trace
import ObsChain.Domain.Replay

namespace ObsChain.Replay

variable {M : Type}

/-! ## The chain and the engine's surroundings -/

structure Chain (M : Type) where
  blockTime : ℕ → DateTime
  txCount : ℕ → ℕ
  /-- the ids of the events of a block, from the memory, its height and the interval before it -/
  detect : M → ℕ → Option ℕ → List Uuid × M

/-- what happens to one `process_block` call; `header` is the answer for the previous block's header -/
inductive BlockAnswer where
  /-- the hash or the raw block cannot be had, or does not decode -/
  | unavailable (error : String)
  /-- the storage fails once `saved` of the block's events are persisted -/
  | notPersisted (header : Option DateTime) (saved : ℕ) (error : String)
  | persisted (header : Option DateTime)
deriving DecidableEq, Repr

/-- what one step of the runner gets from outside -/
structure Input where
  now : DateTime
  uuid : Uuid
  block : BlockAnswer
deriving DecidableEq, Repr

/-- the next step of the runner, with its private copy of the job -/
inductive Runner where
  | idle
  | resumeCheckpoint (job : ReplayJob)
  | resumeWrite (job : ReplayJob)
  | getJob
  | registerCancel (job : ReplayJob)
  | registerPause (job : ReplayJob)
  | startWrite (job : ReplayJob)
  | cancelCheck (job : ReplayJob) (height : ℕ) (prev : Option DateTime)
  | pauseCheck (job : ReplayJob) (height : ℕ) (prev : Option DateTime)
  | processBlock (job : ReplayJob) (height : ℕ) (prev : Option DateTime)
  | saveCheckpoint (job : ReplayJob) (height : ℕ) (prev : Option DateTime)
  | updateJob (job : ReplayJob) (height : ℕ) (prev : Option DateTime)
  | cancelWrite (job : ReplayJob)
  | pauseWrite (job : ReplayJob)
  | failWrite (job : ReplayJob)
  | completion (job : ReplayJob)
  | completeWrite (job : ReplayJob)
  | removeCancel
  | removePause
deriving DecidableEq, Repr

/-- a `cancel_replay` call: its token step is done, or it has read the job as well -/
inductive Cancel where
  | signalled
  | read (job : ReplayJob)
deriving DecidableEq, Repr

structure St (M : Type) where
  job : ReplayJob
  checkpoints : List ReplayCheckpoint
  events : List Uuid
  mem : M
  cancelToken : Option Bool
  pauseToken : Option Bool
  runner : Runner
  cancels : List Cancel
  processed : List ℕ
deriving DecidableEq, Repr

/-- a job has just been created -/
def created (job : ReplayJob) (events : List Uuid) (mem : M) : St M :=
  ⟨job, [], events, mem, none, none, .idle, [], []⟩

/-! ## `process_block` -/

/-- the seconds since the previous block: known from the loop, or asked for at the first block of a run -/
def intervalSeconds (chain : Chain M) (height : ℕ) (prev header : Option DateTime) : Option ℕ :=
  match prev with
  | some p => some (secondsSince (chain.blockTime height) p).toNat
  | none => if height > 0 then header.map fun p => (secondsSince (chain.blockTime height) p).toNat else none

structure Persisted where
  created : ℕ
  existing : ℕ
  observations : ℕ
  events : List Uuid
deriving DecidableEq, Repr

/-- one event of the persist loop -/
def persistEvent (p : Persisted) (id : Uuid) : Persisted :=
  if id ∈ p.events then { p with existing := p.existing + 1, observations := p.observations + 1 }
  else { p with created := p.created + 1, observations := p.observations + 1, events := p.events ++ [id] }

def persist (stored ids : List Uuid) : Persisted := ids.foldl persistEvent ⟨0, 0, 0, stored⟩

/-- the event ids `process_block` finds at this height -/
def detected (chain : Chain M) (mem : M) (height : ℕ) (prev header : Option DateTime) : List Uuid :=
  (chain.detect mem height (intervalSeconds chain height prev header)).1

/-- the engine's memory after the block -/
def remembered (chain : Chain M) (mem : M) (height : ℕ) (prev header : Option DateTime) : M :=
  (chain.detect mem height (intervalSeconds chain height prev header)).2

/-- the job's counters after a block -/
def countBlock (chain : Chain M) (job : ReplayJob) (height : ℕ) (events : ℕ) (p : Persisted) : ReplayJob :=
  { job with
    currentHeight := height
    blocksProcessed := job.blocksProcessed + 1
    transactionsProcessed := job.transactionsProcessed + chain.txCount height
    eventsGenerated := job.eventsGenerated + events
    eventsCreated := job.eventsCreated + p.created
    eventsExisting := job.eventsExisting + p.existing
    observationsRecorded := job.observationsRecorded + p.observations }

/-- the job of a run that a block has failed -/
def failJob (job : ReplayJob) (now : DateTime) (error : String) : ReplayJob :=
  { job with
    errorCount := job.errorCount + 1
    lastError := some error
    status := .failed
    completedAt := some now }

def isCheckpoint (checkpointInterval : ℕ) (job : ReplayJob) (height : ℕ) : Bool :=
  job.blocksProcessed % checkpointInterval == 0 || height == job.endHeight

/-- the loop body from `process_block` to the checkpoint test -/
def processStep (checkpointInterval : ℕ) (chain : Chain M) (s : St M) (job : ReplayJob) (height : ℕ)
    (prev : Option DateTime) (inp : Input) : St M :=
  match inp.block with
  | .unavailable e => { s with runner := .failWrite (failJob job inp.now e) }
  | .notPersisted header saved e =>
    let p := persist s.events ((detected chain s.mem height prev header).take saved)
    { s with
      mem := remembered chain s.mem height prev header
      events := p.events
      runner := .failWrite (failJob job inp.now e) }
  | .persisted header =>
    let ids := detected chain s.mem height prev header
    let p := persist s.events ids
    let job := countBlock chain job height ids.length p
    let time := some (chain.blockTime height)
    { s with
      mem := remembered chain s.mem height prev header
      events := p.events
      processed := s.processed ++ [height]
      runner :=
        -- the remainder by zero panics, and the task is gone
        if checkpointInterval = 0 then .idle
        else if isCheckpoint checkpointInterval job height then .saveCheckpoint job height time
        else .cancelCheck job (height + 1) time }

/-! ## `run_job` and `resume_replay` -/

/-- the job `resume_replay` continues with -/
def restore (job : ReplayJob) (checkpoint : Option ReplayCheckpoint) : ReplayJob :=
  match checkpoint with
  | none => job
  | some cp =>
    { job with
      currentHeight := cp.completedHeight + 1
      blocksProcessed := cp.blocksProcessed
      transactionsProcessed := cp.transactionsProcessed
      eventsGenerated := cp.eventsGenerated }

def checkpointOf (job : ReplayJob) (height : ℕ) (uuid : Uuid) (now : DateTime) : ReplayCheckpoint :=
  (ReplayCheckpoint.new uuid job.id height job.blocksProcessed job.transactionsProcessed job.eventsGenerated
    now).withProvenanceCounts job.eventsCreated job.eventsExisting job.observationsRecorded

/-- one step of the runner -/
def runnerStep (checkpointInterval : ℕ) (chain : Chain M) (s : St M) (inp : Input) : St M :=
  match s.runner with
  | .idle => s
  | .resumeCheckpoint job =>
    { s with runner := .resumeWrite { restore job (latestCheckpoint s.checkpoints) with status := .running } }
  | .resumeWrite job => { s with job := job, runner := .getJob }
  | .getJob => { s with runner := .registerCancel s.job }
  | .registerCancel job => { s with cancelToken := some false, runner := .registerPause job }
  | .registerPause job =>
    { s with
      pauseToken := some false
      runner := .startWrite { job with status := .running, startedAt := job.startedAt.or (some inp.now) } }
  | .startWrite job => { s with job := job, runner := .cancelCheck job job.currentHeight none }
  | .cancelCheck job height prev =>
    if height ≤ job.endHeight then
      if s.cancelToken = some true then
        { s with runner := .cancelWrite { job with status := .cancelled, completedAt := some inp.now } }
      else { s with runner := .pauseCheck job height prev }
    else { s with runner := .completion job }
  | .pauseCheck job height prev =>
    if s.pauseToken = some true then { s with runner := .pauseWrite { job with status := .paused } }
    else { s with runner := .processBlock job height prev }
  | .processBlock job height prev => processStep checkpointInterval chain s job height prev inp
  | .saveCheckpoint job height prev =>
    { s with
      checkpoints := s.checkpoints ++ [checkpointOf job height inp.uuid inp.now]
      runner := .updateJob job height prev }
  | .updateJob job height prev => { s with job := job, runner := .cancelCheck job (height + 1) prev }
  | .cancelWrite job => { s with job := job, runner := .completion job }
  | .pauseWrite job => { s with job := job, runner := .completion job }
  -- a failed run returns here and leaves its tokens registered
  | .failWrite job => { s with job := job, runner := .idle }
  | .completion job =>
    if job.status = .running ∧ job.currentHeight = job.endHeight then
      { s with runner := .completeWrite { job with status := .completed, completedAt := some inp.now } }
    else { s with runner := .removeCancel }
  | .completeWrite job => { s with job := job, runner := .removeCancel }
  | .removeCancel => { s with cancelToken := none, runner := .removePause }
  | .removePause => { s with pauseToken := none, runner := .idle }

/-- the runner's next step is a storage call -/
def Runner.atStorage : Runner → Bool
  | .resumeCheckpoint _ | .resumeWrite _ | .getJob | .startWrite _ | .saveCheckpoint .. | .updateJob ..
  | .cancelWrite _ | .pauseWrite _ | .failWrite _ | .completeWrite _ => true
  | _ => false

/-! ## The machine -/

inductive Op (M : Type) where
  /-- `run_job` is called -/
  | start
  /-- `resume_replay` is called; it reads the job and checks its status -/
  | resume
  | runner (inp : Input)
  | storageError
  /-- `pause_replay` -/
  | pause
  /-- `cancel_replay` is called; it sets the token -/
  | cancelSignal
  /-- the i-th `cancel_replay` call in flight reads the job -/
  | cancelRead (i : ℕ)
  /-- and writes it -/
  | cancelWrite (i : ℕ) (now : DateTime)
  | live (ids : List Uuid)
  /-- the process stops, and starts again with this memory -/
  | crash (mem : M)

/-- a token that is registered is set -/
def signal (token : Option Bool) : Option Bool := token.map fun _ => true

def cancelJob (job : ReplayJob) (now : DateTime) : ReplayJob :=
  { job with status := .cancelled, completedAt := some now }

def step (checkpointInterval : ℕ) (chain : Chain M) (s : St M) : Op M → St M
  | .start => if s.runner = .idle then { s with runner := .getJob } else s
  | .resume =>
    if s.runner = .idle ∧ s.job.status ≠ .completed ∧ s.job.status ≠ .cancelled then
      { s with runner := .resumeCheckpoint s.job }
    else s
  | .runner inp => runnerStep checkpointInterval chain s inp
  | .storageError => if s.runner.atStorage then { s with runner := .idle } else s
  | .pause => { s with pauseToken := signal s.pauseToken }
  | .cancelSignal => { s with cancelToken := signal s.cancelToken, cancels := s.cancels ++ [.signalled] }
  | .cancelRead i =>
    match s.cancels[i]? with
    | some .signalled =>
      if s.job.status.isTerminal then { s with cancels := s.cancels.eraseIdx i }
      else { s with cancels := s.cancels.set i (.read s.job) }
    | _ => s
  | .cancelWrite i now =>
    match s.cancels[i]? with
    | some (.read job) => { s with job := cancelJob job now, cancels := s.cancels.eraseIdx i }
    | _ => s
  | .live ids => { s with events := s.events ++ ids }
  | .crash mem => { s with mem := mem, cancelToken := none, pauseToken := none, runner := .idle, cancels := [] }

/-! ## Copies of the job

The job exists in several copies: the row, the runner's, and one for each `cancel_replay` call that has read it. Any of
them can end up in the row, so an invariant of the row is an invariant of all of them. -/

/-- `P` holds of the row and of the copies `cancel_replay` holds, `R` of the runner with its copy -/
structure Copies (P : ReplayJob → Prop) (R : Runner → Prop) (s : St M) : Prop where
  row : P s.job
  runner : R s.runner
  cancels : ∀ job, Cancel.read job ∈ s.cancels → P job

/-- what the steps other than the runner's ask of `P` and `R` -/
structure CopyRules (P : ReplayJob → Prop) (R : Runner → Prop) : Prop where
  idle : R .idle
  getJob : R .getJob
  resume : ∀ job, P job → R (.resumeCheckpoint job)
  cancel : ∀ job now, P job → P (cancelJob job now)

/-- only the runner processes blocks and saves checkpoints -/
theorem step_log {interval : ℕ} {chain : Chain M} {s : St M} {o : Op M} (ho : ∀ inp, o ≠ .runner inp) :
    (step interval chain s o).processed = s.processed ∧ (step interval chain s o).checkpoints = s.checkpoints := by
  cases o with
  | runner inp => exact absurd rfl (ho inp)
  | start | resume | storageError => simp only [step]; split_ifs <;> exact ⟨rfl, rfl⟩
  | cancelRead i =>
    simp only [step]
    split
    · split_ifs <;> exact ⟨rfl, rfl⟩
    · exact ⟨rfl, rfl⟩
  | cancelWrite i now => simp only [step]; split <;> exact ⟨rfl, rfl⟩
  | pause | cancelSignal | live | crash => exact ⟨rfl, rfl⟩

/-- **Steps other than the runner's** move copies around, and keep what holds of all of them. -/
theorem Copies.step {interval : ℕ} {chain : Chain M} {P : ReplayJob → Prop} {R : Runner → Prop} {s : St M}
    (h : Copies P R s) (rules : CopyRules P R) {o : Op M} (ho : ∀ inp, o ≠ .runner inp) :
    Copies P R (step interval chain s o) := by
  cases o with
  | runner inp => exact absurd rfl (ho inp)
  | start =>
    simp only [Replay.step]
    split_ifs
    · exact { h with runner := rules.getJob }
    · exact h
  | resume =>
    simp only [Replay.step]
    split_ifs
    · exact { h with runner := rules.resume _ h.row }
    · exact h
  | storageError =>
    simp only [Replay.step]
    split_ifs
    · exact { h with runner := rules.idle }
    · exact h
  | pause | live => exact ⟨h.row, h.runner, h.cancels⟩
  | cancelSignal =>
    refine ⟨h.row, h.runner, fun job hjob => h.cancels job ?_⟩
    simpa [Replay.step] using hjob
  | cancelRead i =>
    simp only [Replay.step]
    split
    · split_ifs
      · exact { h with cancels := fun job hjob => h.cancels job (List.mem_of_mem_eraseIdx hjob) }
      · refine { h with cancels := fun job hjob => ?_ }
        rcases List.mem_or_eq_of_mem_set hjob with hjob | hjob
        · exact h.cancels job hjob
        · cases hjob
          exact h.row
    · exact h
  | cancelWrite i now =>
    simp only [Replay.step]
    split
    · rename_i job hjob
      have hj := h.cancels job (List.mem_of_getElem? hjob)
      exact { h with
        row := rules.cancel job now hj
        cancels := fun j hjm => h.cancels j (List.mem_of_mem_eraseIdx hjm) }
    · exact h
  | crash mem => exact ⟨h.row, rules.idle, fun job hjob => by cases hjob⟩

/-- every event of a block is counted once as created or existing, and once as an observation -/
theorem persist_counts (stored ids : List Uuid) :
    (persist stored ids).created + (persist stored ids).existing = ids.length ∧
      (persist stored ids).observations = ids.length := by
  have hfold : ∀ p : Persisted, (ids.foldl persistEvent p).created + (ids.foldl persistEvent p).existing =
      p.created + p.existing + ids.length ∧
      (ids.foldl persistEvent p).observations = p.observations + ids.length := by
    induction ids with
    | nil => intro p; exact ⟨rfl, rfl⟩
    | cons id ids ih =>
      intro p
      obtain ⟨h1, h2⟩ := ih (persistEvent p id)
      rw [List.foldl_cons, h1, h2, List.length_cons]
      unfold persistEvent
      split_ifs <;> constructor <;> dsimp only <;> omega
  simpa [persist] using hfold ⟨0, 0, 0, stored⟩

/-! ## A small job, for concrete traces -/

/-- a chain of one-transaction blocks with one event each -/
def smallChain : Chain Unit := ⟨fun h => fromTimestamp (600 * h), fun _ => 1, fun _ h _ => ([BitVec.ofNat 128 h], ())⟩

/-- a job over the blocks 1 and 2 -/
def twoBlockJob : ReplayJob := ReplayJob.new 1 "regtest" 1 2 "bitcoin_core_rpc:regtest" 0

/-- nothing goes wrong in this step of the runner -/
def calm : Input := ⟨0, 2, .persisted (some 0)⟩

def tick : Op Unit := .runner calm

end ObsChain.Replay
