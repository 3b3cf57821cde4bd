/-
Replay jobs and checkpoints in the two storages (`ReplayRepository` of `repository.rs` and of `postgres.rs`, the tables
`replay_jobs` and `replay_checkpoints` of `0003_historical_replay.sql` and `0004_event_observation_provenance.sql`).

In memory a save of a known id replaces the job, and `update_job` refuses an unknown one. In Postgres both are one upsert
that leaves five columns as they were: network, range, source type and creation time. A checkpoint is appended in memory;
in Postgres one of a known id is ignored, and one of an unknown job refused. Postgres orders by one column and breaks no
tie, so its answers are relations (`LatestCheckpoint`, `ListJobs`).

Model: `ReplayBackends` is the two storages under the same writes (`Write`); `stored` is a record with its times in whole
microseconds, which is how Postgres returns it.

- `job_answers_agree_iff` (**main result**): along writes that succeed in both, `get_job` answers alike in every state
  exactly when no write changes one of the five columns of a stored job.
- `resume_height_agrees` (**main result**): along writes of new checkpoints that succeed in both, every latest checkpoint
  that Postgres may answer has the height of the in-memory one, and is that one where the heights are distinct.
- `list_jobs_agree` (**main result**): the pages are the same, in order, where the creation times differ by microseconds.

Not modelled: column widths and the text of an error.
-/
import Mathlib.Tactic
import ObsChain.Core.Sql
import ObsChain.Core.Table
import ObsChain.Core.Trace
import ObsChain.Domain.Replay
import ObsChain.Storage.InMemory

namespace ObsChain

def ReplayJobStatus.asStr : ReplayJobStatus → String
  | .pending => "pending"
  | .running => "running"
  | .paused => "paused"
  | .completed => "completed"
  | .failed => "failed"
  | .cancelled => "cancelled"

/-- the status of a row; a text that is no status is read as a failed job -/
def ReplayJobStatus.ofStr (s : String) : ReplayJobStatus :=
  match toLowercase s with
  | "pending" => .pending
  | "running" => .running
  | "paused" => .paused
  | "completed" => .completed
  | "cancelled" => .cancelled
  | "failed" => .failed
  | _ => .failed

@[simp] theorem ReplayJobStatus.ofStr_asStr (status : ReplayJobStatus) : ofStr status.asStr = status := by
  cases status <;> decide

/-- `i64_to_u64_checked` -/
def i64ToU64 (val : ℤ) : Option ℕ := if val < 0 then none else some val.toNat

@[simp] theorem i64ToU64_natCast (n : ℕ) : i64ToU64 n = some n := by
  simp [i64ToU64]

theorem i64ToU64_eq_some {val : ℤ} {n : ℕ} : i64ToU64 val = some n ↔ val = n := by
  unfold i64ToU64
  split_ifs with h
  · simp only [false_iff]
    omega
  · rw [Option.some.injEq]
    omega

/-! ## The in-memory repository -/

structure ReplayMemory where
  jobs : List ReplayJob
  checkpoints : List ReplayCheckpoint
deriving DecidableEq, Repr

namespace ReplayMemory

def createJob (mem : ReplayMemory) (job : ReplayJob) : Option ReplayMemory :=
  some { mem with jobs := upsert (fun j => decide (j.id = job.id)) job mem.jobs }

/-- refused for an unknown job -/
def updateJob (mem : ReplayMemory) (job : ReplayJob) : Option ReplayMemory :=
  if mem.jobs.any fun j => decide (j.id = job.id) then mem.createJob job else none

def getJob (mem : ReplayMemory) (id : Uuid) : Option ReplayJob := Table.lookup (·.id) id mem.jobs

/-- newest first; jobs of one creation time keep their order -/
def listJobs (mem : ReplayMemory) (limit offset : ℕ) : List ReplayJob :=
  ((mem.jobs.mergeSort fun a b => decide (b.createdAt ≤ a.createdAt)).drop offset).take limit

def saveCheckpoint (mem : ReplayMemory) (checkpoint : ReplayCheckpoint) : Option ReplayMemory :=
  some { mem with checkpoints := mem.checkpoints ++ [checkpoint] }

def getLatestCheckpoint (mem : ReplayMemory) (jobId : Uuid) : Option ReplayCheckpoint :=
  latestCheckpoint (mem.checkpoints.filter fun c => decide (c.jobId = jobId))

end ReplayMemory

/-! ## The Postgres repository -/

/-- a row of `replay_jobs` -/
structure ReplayJobRow where
  id : Uuid
  network : String
  startHeight : ℤ
  endHeight : ℤ
  currentHeight : ℤ
  status : String
  sourceType : String
  createdAt : ℤ
  startedAt : Option ℤ
  completedAt : Option ℤ
  blocksProcessed : ℤ
  transactionsProcessed : ℤ
  eventsGenerated : ℤ
  eventsCreated : ℤ
  eventsExisting : ℤ
  observationsRecorded : ℤ
  errorCount : ℤ
  lastError : Option String
deriving DecidableEq, Repr

namespace ReplayJobRow

/-- the values of the insert -/
def ofJob (job : ReplayJob) : ReplayJobRow where
  id := job.id
  network := job.network
  startHeight := job.startHeight
  endHeight := job.endHeight
  currentHeight := job.currentHeight
  status := job.status.asStr
  sourceType := job.sourceType
  createdAt := Sql.toMicros job.createdAt
  startedAt := job.startedAt.map Sql.toMicros
  completedAt := job.completedAt.map Sql.toMicros
  blocksProcessed := job.blocksProcessed
  transactionsProcessed := job.transactionsProcessed
  eventsGenerated := job.eventsGenerated
  eventsCreated := job.eventsCreated
  eventsExisting := job.eventsExisting
  observationsRecorded := job.observationsRecorded
  errorCount := job.errorCount
  lastError := job.lastError

/-- what the insert passes: the counts are `BIGINT`, the range is one (`CHECK`), and the times and texts are of their types -/
def accepts (job : ReplayJob) : Bool :=
  ([job.startHeight, job.endHeight, job.currentHeight, job.blocksProcessed, job.transactionsProcessed,
      job.eventsGenerated, job.eventsCreated, job.eventsExisting, job.observationsRecorded, job.errorCount].all
    fun n => fitsI64 (some n)) &&
  decide (job.startHeight ≤ job.endHeight) && Sql.inRange (Sql.toMicros job.createdAt) &&
  (job.startedAt.all fun t => Sql.inRange (Sql.toMicros t)) &&
  (job.completedAt.all fun t => Sql.inRange (Sql.toMicros t)) && Sql.isText job.network && Sql.isText job.sourceType &&
  job.lastError.all Sql.isText

/-- `ON CONFLICT (id) DO UPDATE` -/
def update (row excluded : ReplayJobRow) : ReplayJobRow :=
  { row with
    currentHeight := excluded.currentHeight
    status := excluded.status
    startedAt := excluded.startedAt
    completedAt := excluded.completedAt
    blocksProcessed := excluded.blocksProcessed
    transactionsProcessed := excluded.transactionsProcessed
    eventsGenerated := excluded.eventsGenerated
    eventsCreated := excluded.eventsCreated
    eventsExisting := excluded.eventsExisting
    observationsRecorded := excluded.observationsRecorded
    errorCount := excluded.errorCount
    lastError := excluded.lastError }

/-- how a row is read; a negative count is an error -/
def toJob (row : ReplayJobRow) : Option ReplayJob := do
  let startHeight ← i64ToU64 row.startHeight
  let endHeight ← i64ToU64 row.endHeight
  let currentHeight ← i64ToU64 row.currentHeight
  let blocksProcessed ← i64ToU64 row.blocksProcessed
  let transactionsProcessed ← i64ToU64 row.transactionsProcessed
  let eventsGenerated ← i64ToU64 row.eventsGenerated
  let eventsCreated ← i64ToU64 row.eventsCreated
  let eventsExisting ← i64ToU64 row.eventsExisting
  let observationsRecorded ← i64ToU64 row.observationsRecorded
  let errorCount ← i64ToU64 row.errorCount
  return {
    id := row.id
    network := row.network
    startHeight := startHeight
    endHeight := endHeight
    currentHeight := currentHeight
    status := ReplayJobStatus.ofStr row.status
    sourceType := row.sourceType
    createdAt := Sql.ofMicros row.createdAt
    startedAt := row.startedAt.map Sql.ofMicros
    completedAt := row.completedAt.map Sql.ofMicros
    blocksProcessed := blocksProcessed
    transactionsProcessed := transactionsProcessed
    eventsGenerated := eventsGenerated
    eventsCreated := eventsCreated
    eventsExisting := eventsExisting
    observationsRecorded := observationsRecorded
    errorCount := errorCount
    lastError := row.lastError }

end ReplayJobRow

/-- a row of `replay_checkpoints` -/
structure CheckpointRow where
  id : Uuid
  jobId : Uuid
  completedHeight : ℤ
  blocksProcessed : ℤ
  transactionsProcessed : ℤ
  eventsGenerated : ℤ
  eventsCreated : ℤ
  eventsExisting : ℤ
  observationsRecorded : ℤ
  checkpointedAt : ℤ
deriving DecidableEq, Repr

namespace CheckpointRow

def ofCheckpoint (checkpoint : ReplayCheckpoint) : CheckpointRow where
  id := checkpoint.id
  jobId := checkpoint.jobId
  completedHeight := checkpoint.completedHeight
  blocksProcessed := checkpoint.blocksProcessed
  transactionsProcessed := checkpoint.transactionsProcessed
  eventsGenerated := checkpoint.eventsGenerated
  eventsCreated := checkpoint.eventsCreated
  eventsExisting := checkpoint.eventsExisting
  observationsRecorded := checkpoint.observationsRecorded
  checkpointedAt := Sql.toMicros checkpoint.checkpointedAt

def accepts (checkpoint : ReplayCheckpoint) : Bool :=
  ([checkpoint.completedHeight, checkpoint.blocksProcessed, checkpoint.transactionsProcessed, checkpoint.eventsGenerated,
      checkpoint.eventsCreated, checkpoint.eventsExisting, checkpoint.observationsRecorded].all
    fun n => fitsI64 (some n)) &&
  Sql.inRange (Sql.toMicros checkpoint.checkpointedAt)

def toCheckpoint (row : CheckpointRow) : Option ReplayCheckpoint := do
  let completedHeight ← i64ToU64 row.completedHeight
  let blocksProcessed ← i64ToU64 row.blocksProcessed
  let transactionsProcessed ← i64ToU64 row.transactionsProcessed
  let eventsGenerated ← i64ToU64 row.eventsGenerated
  let eventsCreated ← i64ToU64 row.eventsCreated
  let eventsExisting ← i64ToU64 row.eventsExisting
  let observationsRecorded ← i64ToU64 row.observationsRecorded
  return {
    id := row.id
    jobId := row.jobId
    completedHeight := completedHeight
    blocksProcessed := blocksProcessed
    transactionsProcessed := transactionsProcessed
    eventsGenerated := eventsGenerated
    eventsCreated := eventsCreated
    eventsExisting := eventsExisting
    observationsRecorded := observationsRecorded
    checkpointedAt := Sql.ofMicros row.checkpointedAt }

end CheckpointRow

structure ReplayTables where
  jobs : List ReplayJobRow
  checkpoints : List CheckpointRow
deriving DecidableEq, Repr

namespace ReplayTables

def createJob (tables : ReplayTables) (job : ReplayJob) : Option ReplayTables :=
  if ReplayJobRow.accepts job then
    some { tables with jobs := Table.insert (·.id) ReplayJobRow.update (ReplayJobRow.ofJob job) tables.jobs }
  else none

def updateJob (tables : ReplayTables) (job : ReplayJob) : Option ReplayTables := tables.createJob job

/-- the first `none` is an error, the second a job that is not there -/
def getJob (tables : ReplayTables) (id : Uuid) : Option (Option ReplayJob) :=
  match Table.lookup (·.id) id tables.jobs with
  | none => some none
  | some row => row.toJob.map some

/-- the job must be there (a foreign key), and a known id is left alone (`ON CONFLICT (id) DO NOTHING`) -/
def saveCheckpoint (tables : ReplayTables) (checkpoint : ReplayCheckpoint) : Option ReplayTables :=
  if CheckpointRow.accepts checkpoint then
    if tables.checkpoints.any fun c => decide (c.id = checkpoint.id) then some tables
    else if tables.jobs.any fun j => decide (j.id = checkpoint.jobId) then
      some { tables with checkpoints := tables.checkpoints ++ [CheckpointRow.ofCheckpoint checkpoint] }
    else none
  else none

/-- `WHERE job_id = $1 ORDER BY completed_height DESC LIMIT 1`: any row of the greatest height -/
def LatestCheckpoint (tables : ReplayTables) (jobId : Uuid) (answer : Option CheckpointRow) : Prop :=
  match answer with
  | none => ∀ c ∈ tables.checkpoints, c.jobId ≠ jobId
  | some row =>
    row ∈ tables.checkpoints ∧ row.jobId = jobId ∧
      ∀ c ∈ tables.checkpoints, c.jobId = jobId → c.completedHeight ≤ row.completedHeight

/-- `ORDER BY created_at DESC LIMIT $1 OFFSET $2`: a page of any such order -/
def ListJobs (tables : ReplayTables) (limit offset : ℕ) (page : List ReplayJobRow) : Prop :=
  ∃ ordered : List ReplayJobRow, ordered.Perm tables.jobs ∧ ordered.Pairwise (fun a b => b.createdAt ≤ a.createdAt) ∧
    page = (ordered.drop offset).take (max 1 (min limit 100))

end ReplayTables

/-! ## The two under the same writes -/

inductive ReplayWrite where
  | createJob (job : ReplayJob)
  | updateJob (job : ReplayJob)
  | saveCheckpoint (checkpoint : ReplayCheckpoint)
deriving DecidableEq, Repr

def ReplayMemory.write (mem : ReplayMemory) : ReplayWrite → Option ReplayMemory
  | .createJob job => mem.createJob job
  | .updateJob job => mem.updateJob job
  | .saveCheckpoint checkpoint => mem.saveCheckpoint checkpoint

def ReplayTables.write (tables : ReplayTables) : ReplayWrite → Option ReplayTables
  | .createJob job => tables.createJob job
  | .updateJob job => tables.updateJob job
  | .saveCheckpoint checkpoint => tables.saveCheckpoint checkpoint

structure ReplayBackends where
  mem : ReplayMemory
  tables : ReplayTables
deriving DecidableEq, Repr

/-- a record as Postgres returns it -/
def ReplayJob.stored (job : ReplayJob) : ReplayJob :=
  { job with
    createdAt := Sql.ofMicros (Sql.toMicros job.createdAt)
    startedAt := job.startedAt.map fun t => Sql.ofMicros (Sql.toMicros t)
    completedAt := job.completedAt.map fun t => Sql.ofMicros (Sql.toMicros t) }

def ReplayCheckpoint.stored (checkpoint : ReplayCheckpoint) : ReplayCheckpoint :=
  { checkpoint with checkpointedAt := Sql.ofMicros (Sql.toMicros checkpoint.checkpointedAt) }

/-- the columns that an upsert leaves alone -/
structure ReplayJob.SameIdentity (old job : ReplayJob) : Prop where
  network : old.network = job.network
  startHeight : old.startHeight = job.startHeight
  endHeight : old.endHeight = job.endHeight
  sourceType : old.sourceType = job.sourceType
  createdAt : Sql.toMicros old.createdAt = Sql.toMicros job.createdAt

namespace ReplayBackends

def start : ReplayBackends := ⟨⟨[], []⟩, ⟨[], []⟩⟩

/-- one write to both; a storage that refuses it stays as it was -/
def write (b : ReplayBackends) (w : ReplayWrite) : ReplayBackends :=
  ⟨(b.mem.write w).getD b.mem, (b.tables.write w).getD b.tables⟩

def WrittenToBoth (b : ReplayBackends) (w : ReplayWrite) : Prop :=
  (b.mem.write w).isSome ∧ (b.tables.write w).isSome

instance (b : ReplayBackends) (w : ReplayWrite) : Decidable (b.WrittenToBoth w) := inferInstanceAs (Decidable (_ ∧ _))

/-- `get_job` answers alike, for every id -/
def JobAnswersAgree (b : ReplayBackends) : Prop :=
  ∀ id, b.tables.getJob id = some ((b.mem.getJob id).map ReplayJob.stored)

/-- a job that is written again has the columns of the stored one -/
def KeepsIdentity (b : ReplayBackends) : ReplayWrite → Prop
  | .createJob job | .updateJob job => ∀ old, b.mem.getJob job.id = some old → old.SameIdentity job
  | .saveCheckpoint _ => True

/-- a checkpoint has an id of its own -/
def NewCheckpoint (b : ReplayBackends) : ReplayWrite → Prop
  | .createJob _ | .updateJob _ => True
  | .saveCheckpoint checkpoint => ∀ c ∈ b.mem.checkpoints, c.id ≠ checkpoint.id

/-- the jobs have the same ids, in the same order, and each has one row -/
structure Aligned (b : ReplayBackends) : Prop where
  ids : b.tables.jobs.map (·.id) = b.mem.jobs.map (·.id)
  nodup : (b.mem.jobs.map (·.id)).Nodup

end ReplayBackends

/-! ## Jobs -/

theorem ReplayJobRow.toJob_ofJob (job : ReplayJob) : (ofJob job).toJob = some job.stored := by
  simp [toJob, ofJob, ReplayJob.stored, Function.comp_def]

/-- what is read of the columns that stay -/
theorem ReplayJobRow.identity_of_toJob {row : ReplayJobRow} {job : ReplayJob} (h : row.toJob = some job) :
    row.id = job.id ∧ row.network = job.network ∧ row.startHeight = job.startHeight ∧
      row.endHeight = job.endHeight ∧ row.sourceType = job.sourceType ∧ Sql.ofMicros row.createdAt = job.createdAt := by
  simp only [toJob, Option.bind_eq_bind, Option.bind_eq_some_iff, i64ToU64_eq_some] at h
  obtain ⟨startHeight, hstart, endHeight, hend, _, _, _, _, _, _, _, _, _, _, _, _, _, _, _, _, hjob⟩ := h
  rw [← Option.some.inj hjob]
  exact ⟨rfl, rfl, hstart, hend, rfl, rfl⟩

/-- an upsert is read as the new job with the columns that stayed -/
theorem ReplayJobRow.toJob_update {row : ReplayJobRow} {old : ReplayJob} (h : row.toJob = some old) (job : ReplayJob) :
    (row.update (ofJob job)).toJob = some
      { job.stored with
        id := old.id
        network := old.network
        startHeight := old.startHeight
        endHeight := old.endHeight
        sourceType := old.sourceType
        createdAt := old.createdAt } := by
  obtain ⟨hid, hnetwork, hstart, hend, hsource, hcreated⟩ := identity_of_toJob h
  simp [toJob, update, ofJob, ReplayJob.stored, Function.comp_def, hid, hnetwork, hstart, hend, hsource, hcreated]

namespace ReplayBackends

/-- the writes that both storages make of a job -/
theorem written_job {b : ReplayBackends} {w : ReplayWrite} {job : ReplayJob} (hw : w = .createJob job ∨ w = .updateJob job)
    (h : b.WrittenToBoth w) :
    b.write w =
      ⟨{ b.mem with jobs := upsert (fun j => decide (j.id = job.id)) job b.mem.jobs },
        { b.tables with
          jobs := Table.insert (·.id) ReplayJobRow.update (ReplayJobRow.ofJob job) b.tables.jobs }⟩ := by
  have haccepts : ReplayJobRow.accepts job = true := by
    by_contra hno
    rcases hw with rfl | rfl <;>
      simp [WrittenToBoth, ReplayTables.write, ReplayTables.createJob, ReplayTables.updateJob, hno] at h
  have htables : (b.tables.write w).getD b.tables =
      { b.tables with jobs := Table.insert (·.id) ReplayJobRow.update (ReplayJobRow.ofJob job) b.tables.jobs } := by
    rcases hw with rfl | rfl <;>
      simp [ReplayTables.write, ReplayTables.createJob, ReplayTables.updateJob, haccepts]
  have hmem : (b.mem.write w).getD b.mem =
      { b.mem with jobs := upsert (fun j => decide (j.id = job.id)) job b.mem.jobs } := by
    rcases hw with rfl | rfl
    · rfl
    · have hknown := h.1
      simp only [ReplayMemory.write, ReplayMemory.updateJob] at hknown ⊢
      split_ifs at hknown ⊢ with hany
      · rfl
      · cases hknown
  rw [write, htables, hmem]

/-- and of a checkpoint with an id of its own -/
theorem written_checkpoint {b : ReplayBackends} {checkpoint : ReplayCheckpoint}
    (hpaired : b.tables.checkpoints = b.mem.checkpoints.map CheckpointRow.ofCheckpoint)
    (h : b.WrittenToBoth (.saveCheckpoint checkpoint)) (hnew : b.NewCheckpoint (.saveCheckpoint checkpoint)) :
    b.write (.saveCheckpoint checkpoint) =
      ⟨{ b.mem with checkpoints := b.mem.checkpoints ++ [checkpoint] },
        { b.tables with checkpoints := b.tables.checkpoints ++ [CheckpointRow.ofCheckpoint checkpoint] }⟩ := by
  have hnone : (b.tables.checkpoints.any fun c => decide (c.id = checkpoint.id)) = false := by
    rw [hpaired, List.any_map, List.any_eq_false]
    intro c hc
    exact mt of_decide_eq_true (hnew c hc)
  have hpg := h.2
  simp only [write, ReplayMemory.write, ReplayMemory.saveCheckpoint, ReplayTables.write, ReplayTables.saveCheckpoint,
    hnone, Bool.false_eq_true, if_false, Option.getD_some] at hpg ⊢
  split_ifs at hpg ⊢ with hok hjob
  · rfl
  · cases hpg
  · cases hpg

/-- a checkpoint leaves the jobs alone -/
theorem jobs_of_checkpoint (b : ReplayBackends) (checkpoint : ReplayCheckpoint) :
    (b.write (.saveCheckpoint checkpoint)).mem.jobs = b.mem.jobs ∧
      (b.write (.saveCheckpoint checkpoint)).tables.jobs = b.tables.jobs := by
  refine ⟨rfl, ?_⟩
  simp only [write, ReplayTables.write, ReplayTables.saveCheckpoint]
  split_ifs <;> rfl

theorem Aligned.write {b : ReplayBackends} (h : b.Aligned) {w : ReplayWrite} (hw : b.WrittenToBoth w) :
    (b.write w).Aligned := by
  have hjob : ∀ job, (w = .createJob job ∨ w = .updateJob job) → (b.write w).Aligned := by
    intro job hcase
    rw [written_job hcase hw]
    constructor
    · have hrows : ((Table.insert (·.id) ReplayJobRow.update (ReplayJobRow.ofJob job) b.tables.jobs).map (·.id)) =
          upsert (fun id => decide (id = job.id)) job.id (b.tables.jobs.map (·.id)) :=
        @Table.map_key_insert _ _ _ ReplayJobRow.id ReplayJobRow.update (fun _ _ => rfl) (ReplayJobRow.ofJob job)
          b.tables.jobs
      have hmem : (upsert (fun j => decide (j.id = job.id)) job b.mem.jobs).map (·.id) =
          upsert (fun id => decide (id = job.id)) job.id (b.mem.jobs.map (·.id)) :=
        map_upsert_view ReplayJob.id fun _ _ => rfl
      exact hrows.trans (by rw [h.ids, hmem])
    · exact nodup_upsert ReplayJob.id (fun _ _ => decide_eq_true_iff) h.nodup
  cases w with
  | createJob job => exact hjob job (Or.inl rfl)
  | updateJob job => exact hjob job (Or.inr rfl)
  | saveCheckpoint checkpoint =>
    obtain ⟨hmem, htables⟩ := jobs_of_checkpoint b checkpoint
    constructor
    · rw [hmem, htables]
      exact h.ids
    · rw [hmem]
      exact h.nodup

/-! ## Job answers -/

theorem Aligned.nodup_rows {b : ReplayBackends} (h : b.Aligned) : (b.tables.jobs.map (·.id)).Nodup := by
  rw [h.ids]
  exact h.nodup

/-- a write of a job shows under its id and no other -/
theorem getJob_write {b : ReplayBackends} (h : b.Aligned) {w : ReplayWrite} {job : ReplayJob}
    (hcase : w = .createJob job ∨ w = .updateJob job) (hw : b.WrittenToBoth w) (id : Uuid) :
    (b.write w).mem.getJob id = (if job.id = id then some job else b.mem.getJob id) ∧
      (b.write w).tables.getJob id =
        if job.id = id then
          (Table.merged (·.id) ReplayJobRow.update (ReplayJobRow.ofJob job) b.tables.jobs).toJob.map some
        else b.tables.getJob id := by
  rw [written_job hcase hw]
  have hmem := @Table.lookup_upsert _ _ _ ReplayJob.id _ h.nodup job id
  have hrow := @Table.lookup_insert _ _ _ ReplayJobRow.id ReplayJobRow.update (fun _ _ => rfl) _ h.nodup_rows
    (ReplayJobRow.ofJob job) id
  constructor
  · exact hmem
  · simp only [ReplayTables.getJob]
    rw [hrow]
    have hid : (ReplayJobRow.ofJob job).id = job.id := rfl
    rw [hid]
    split_ifs <;> rfl

/-- **One write of a job**, where the answers agreed before it. -/
theorem agree_write_job_iff {b : ReplayBackends} (h : b.Aligned) (hagree : b.JobAnswersAgree) {w : ReplayWrite}
    {job : ReplayJob} (hcase : w = .createJob job ∨ w = .updateJob job) (hw : b.WrittenToBoth w) :
    (b.write w).JobAnswersAgree ↔ ∀ old, b.mem.getJob job.id = some old → old.SameIdentity job := by
  have hother : (b.write w).JobAnswersAgree ↔
      (Table.merged (·.id) ReplayJobRow.update (ReplayJobRow.ofJob job) b.tables.jobs).toJob = some job.stored := by
    constructor
    · intro hall
      have hself := hall job.id
      obtain ⟨hmem, hrow⟩ := getJob_write h hcase hw job.id
      rw [hmem, hrow, if_pos rfl, if_pos rfl] at hself
      simpa using hself
    · intro hmerged id
      obtain ⟨hmem, hrow⟩ := getJob_write h hcase hw id
      rw [hmem, hrow]
      split_ifs
      · rw [hmerged]
        rfl
      · exact hagree id
  rw [hother]
  have hbefore := hagree job.id
  have hid : (ReplayJobRow.ofJob job).id = job.id := rfl
  unfold ReplayTables.getJob at hbefore
  simp only [Table.merged]
  rw [hid]
  cases hl : Table.lookup (fun r : ReplayJobRow => r.id) job.id b.tables.jobs with
  | none =>
    rw [hl] at hbefore
    have hnone : b.mem.getJob job.id = none := by simpa using hbefore
    simp [hnone, ReplayJobRow.toJob_ofJob]
  | some row =>
    rw [hl] at hbefore
    cases hold : b.mem.getJob job.id with
    | none => simp [hold] at hbefore
    | some old =>
      have hread : row.toJob = some old.stored := by simpa [hold] using hbefore
      have hsame : old.id = job.id := by simpa using List.find?_some hold
      dsimp only
      rw [ReplayJobRow.toJob_update hread job, Option.some.injEq]
      constructor
      · intro heq old' hold'
        obtain rfl := Option.some.inj hold'
        rw [ReplayJob.mk.injEq] at heq
        obtain ⟨-, hnetwork, hstart, hend, -, -, hsource, hcreated, -⟩ := heq
        exact ⟨hnetwork, hstart, hend, hsource, Sql.ofMicros_inj.1 hcreated⟩
      · intro hkeeps
        obtain ⟨hnetwork, hstart, hend, hsource, hcreated⟩ := hkeeps old rfl
        simp [ReplayJob.stored, hsame, hnetwork, hstart, hend, hsource, hcreated]

theorem agree_write_iff {b : ReplayBackends} (h : b.Aligned) (hagree : b.JobAnswersAgree) {w : ReplayWrite}
    (hw : b.WrittenToBoth w) : (b.write w).JobAnswersAgree ↔ b.KeepsIdentity w := by
  cases w with
  | createJob job => exact agree_write_job_iff h hagree (Or.inl rfl) hw
  | updateJob job => exact agree_write_job_iff h hagree (Or.inr rfl) hw
  | saveCheckpoint checkpoint =>
    obtain ⟨hmem, htables⟩ := jobs_of_checkpoint b checkpoint
    refine iff_of_true (fun id => ?_) trivial
    have hbefore := hagree id
    unfold ReplayTables.getJob ReplayMemory.getJob at hbefore ⊢
    rw [hmem, htables]
    exact hbefore

theorem aligned_start : start.Aligned := ⟨rfl, List.nodup_nil⟩

/-- **Jobs read alike in both storages exactly while their identity is kept.** Along any writes that succeed in both, the
two answer `get_job` alike for every id in every state reached if and only if every write of a stored job has the network,
range, source type and creation time of the job that is stored. -/
theorem job_answers_agree_iff (writes : List ReplayWrite) (h : Trace.Steps write WrittenToBoth start writes) :
    Trace.Always write JobAnswersAgree start writes ↔ Trace.Steps write KeepsIdentity start writes := by
  refine Trace.always_iff_steps_kept (J := Aligned) ?_ ?_ h aligned_start ?_
  · exact fun b w hb hw _ _ => hb.write hw
  · exact fun b w hb hw hagree => agree_write_iff hb hagree hw
  · intro id
    rfl

/-- a job over the blocks 100 to 102, created at the given nanosecond -/
def threeBlocks (id : Uuid) (createdAt : ℤ) : ReplayJob := ReplayJob.new id "mainnet" 100 102 "bitcoin_core" createdAt

def progressed (job : ReplayJob) (height : ℕ) : ReplayJob :=
  { job with status := .running, currentHeight := height, blocksProcessed := height - 99, startedAt := some 5001 }

/-- two jobs, of which the first is started and makes a checkpoint -/
def firstStarted : List ReplayWrite :=
  [.createJob (threeBlocks 1 1000), .createJob (threeBlocks 2 7500), .updateJob (progressed (threeBlocks 1 1000) 100),
    .saveCheckpoint (ReplayCheckpoint.new 7 1 100 1 3 0 6000)]

theorem firstStarted_keeps : Trace.Steps write KeepsIdentity start firstStarted := by
  refine ⟨?_, ?_, ?_, trivial, trivial⟩
  · intro old hold
    cases hold
  · intro old hold
    cases hold
  · intro old hold
    obtain rfl : threeBlocks 1 1000 = old := Option.some.inj hold
    exact ⟨rfl, rfl, rfl, rfl, rfl⟩

theorem job_answers_agree_iff_started : Trace.Always write JobAnswersAgree start firstStarted :=
  (job_answers_agree_iff firstStarted (by decide +kernel)).2 firstStarted_keeps

/-! ## The point to resume at -/

theorem decoded_ofCheckpoint (c : ReplayCheckpoint) : (CheckpointRow.ofCheckpoint c).toCheckpoint = some c.stored := by
  simp [CheckpointRow.toCheckpoint, CheckpointRow.ofCheckpoint, ReplayCheckpoint.stored]

/-- new checkpoints are appended to both -/
theorem checkpoints_write {b : ReplayBackends} (h : b.tables.checkpoints = b.mem.checkpoints.map CheckpointRow.ofCheckpoint)
    {w : ReplayWrite} (hw : b.WrittenToBoth w) (hnew : b.NewCheckpoint w) :
    (b.write w).tables.checkpoints = (b.write w).mem.checkpoints.map CheckpointRow.ofCheckpoint := by
  cases w with
  | createJob job =>
    rw [written_job (Or.inl rfl) hw]
    exact h
  | updateJob job =>
    rw [written_job (Or.inr rfl) hw]
    exact h
  | saveCheckpoint checkpoint =>
    rw [written_checkpoint h hw hnew, h]
    simp

/-- what Postgres may answer, over the checkpoints in memory -/
theorem latest_answer {b : ReplayBackends} (h : b.tables.checkpoints = b.mem.checkpoints.map CheckpointRow.ofCheckpoint)
    {jobId : Uuid} {answer : Option CheckpointRow} :
    b.tables.LatestCheckpoint jobId answer ↔
      match answer with
      | none => ∀ c ∈ b.mem.checkpoints, c.jobId ≠ jobId
      | some row => ∃ c ∈ b.mem.checkpoints, c.jobId = jobId ∧ row = CheckpointRow.ofCheckpoint c ∧
          ∀ c' ∈ b.mem.checkpoints, c'.jobId = jobId → c'.completedHeight ≤ c.completedHeight := by
  cases answer with
  | none => simp [ReplayTables.LatestCheckpoint, h, CheckpointRow.ofCheckpoint]
  | some row =>
    simp only [ReplayTables.LatestCheckpoint, h, List.mem_map]
    constructor
    · rintro ⟨⟨c, hc, rfl⟩, hjob, hmax⟩
      refine ⟨c, hc, hjob, rfl, fun c' hc' hjob' => ?_⟩
      exact Int.ofNat_le.1 (hmax _ ⟨c', hc', rfl⟩ hjob')
    · rintro ⟨c, hc, hjob, rfl, hmax⟩
      refine ⟨⟨c, hc, rfl⟩, hjob, ?_⟩
      rintro row ⟨c', hc', rfl⟩ hjob'
      exact Int.ofNat_le.2 (hmax c' hc' hjob')

/-- the in-memory answer is a checkpoint of the job, and none is above it -/
theorem latest_mem (b : ReplayBackends) (jobId : Uuid) :
    match b.mem.getLatestCheckpoint jobId with
    | none => ∀ c ∈ b.mem.checkpoints, c.jobId ≠ jobId
    | some c => c ∈ b.mem.checkpoints ∧ c.jobId = jobId ∧
        ∀ c' ∈ b.mem.checkpoints, c'.jobId = jobId → c'.completedHeight ≤ c.completedHeight := by
  have hspec := latestCheckpoint_spec (b.mem.checkpoints.filter fun c => decide (c.jobId = jobId))
  unfold ReplayMemory.getLatestCheckpoint
  cases hl : latestCheckpoint (b.mem.checkpoints.filter fun c => decide (c.jobId = jobId)) with
  | none =>
    rw [hl] at hspec
    simpa [List.filter_eq_nil_iff] using hspec
  | some c =>
    rw [hl] at hspec
    simpa [and_assoc] using hspec

end ReplayBackends

/-- how the answer of the query is read -/
def ReplayTables.readCheckpoint : Option CheckpointRow → Option (Option ReplayCheckpoint)
  | none => some none
  | some row => row.toCheckpoint.map some

namespace ReplayBackends

/-- **A job resumes at the same height on both storages.** After any writes that succeed in both and save new checkpoints,
Postgres has an answer for every job, and every answer it may give is read without an error, has the height of the in-memory
answer, and is that answer where no two checkpoints of the job have the same height. -/
theorem resume_height_agrees (writes : List ReplayWrite) (jobId : Uuid)
    (h : Trace.Steps write (fun b w => b.WrittenToBoth w ∧ b.NewCheckpoint w) start writes) :
    (∃ answer, (Trace.run write start writes).tables.LatestCheckpoint jobId answer) ∧
      ∀ answer, (Trace.run write start writes).tables.LatestCheckpoint jobId answer →
        ∃ checkpoint, ReplayTables.readCheckpoint answer = some checkpoint ∧
          checkpoint.map (·.completedHeight) =
            ((Trace.run write start writes).mem.getLatestCheckpoint jobId).map (·.completedHeight) ∧
          ((∀ c ∈ (Trace.run write start writes).mem.checkpoints, ∀ c' ∈ (Trace.run write start writes).mem.checkpoints,
              c.jobId = jobId → c'.jobId = jobId → c.completedHeight = c'.completedHeight → c = c') →
            checkpoint = ((Trace.run write start writes).mem.getLatestCheckpoint jobId).map ReplayCheckpoint.stored) := by
  have hpaired := Trace.run_inv
    (I := fun b : ReplayBackends => b.tables.checkpoints = b.mem.checkpoints.map CheckpointRow.ofCheckpoint)
    (fun b w hb hw => checkpoints_write hb hw.1 hw.2) rfl h
  generalize Trace.run write start writes = b at hpaired ⊢
  have hmem := latest_mem b jobId
  cases hl : b.mem.getLatestCheckpoint jobId with
  | none =>
    rw [hl] at hmem
    refine ⟨⟨none, (latest_answer hpaired).2 hmem⟩, fun answer hanswer => ?_⟩
    rw [latest_answer hpaired] at hanswer
    cases answer with
    | none => exact ⟨none, rfl, rfl, fun _ => rfl⟩
    | some row =>
      obtain ⟨c, hc, hjob, -⟩ := hanswer
      exact absurd hjob (hmem c hc)
  | some last =>
    rw [hl] at hmem
    obtain ⟨hlast, hjob, hmax⟩ := hmem
    refine ⟨⟨some (CheckpointRow.ofCheckpoint last), (latest_answer hpaired).2 ⟨last, hlast, hjob, rfl, hmax⟩⟩, ?_⟩
    intro answer hanswer
    rw [latest_answer hpaired] at hanswer
    cases answer with
    | none => exact absurd hjob (hanswer last hlast)
    | some row =>
      obtain ⟨c, hc, hcjob, rfl, hcmax⟩ := hanswer
      have hheight : c.completedHeight = last.completedHeight :=
        le_antisymm (hmax c hc hcjob) (hcmax last hlast hjob)
      refine ⟨some c.stored, ?_, ?_, ?_⟩
      · simp [ReplayTables.readCheckpoint, decoded_ofCheckpoint]
      · exact congrArg some hheight
      · intro hdistinct
        rw [hdistinct c hc last hlast hcjob hjob hheight]
        rfl

theorem resume_height_agrees_started :
    ∃ answer checkpoint, (Trace.run write start firstStarted).tables.LatestCheckpoint 1 answer ∧
      ReplayTables.readCheckpoint answer = some checkpoint ∧ checkpoint.map (·.completedHeight) = some 100 := by
  have hnew : Trace.Steps write (fun b w => b.WrittenToBoth w ∧ b.NewCheckpoint w) start firstStarted := by
    refine Trace.steps_and (by decide +kernel) ⟨trivial, trivial, trivial, ?_, trivial⟩
    exact fun c hc => absurd hc List.not_mem_nil
  obtain ⟨⟨answer, hanswer⟩, hread⟩ := resume_height_agrees firstStarted 1 hnew
  obtain ⟨checkpoint, hcheckpoint, hheight, -⟩ := hread answer hanswer
  exact ⟨answer, checkpoint, hanswer, hcheckpoint, hheight⟩

/-! ## Lists of jobs -/

/-- the rows are read as the jobs, in order -/
theorem rows_read {b : ReplayBackends} (h : b.Aligned) (hagree : b.JobAnswersAgree) :
    b.tables.jobs.map ReplayJobRow.toJob = b.mem.jobs.map fun job => some job.stored := by
  have hlength : b.tables.jobs.length = b.mem.jobs.length := by simpa using congrArg List.length h.ids
  refine List.ext_getElem (by simpa using hlength) fun i hi hi' => ?_
  rw [List.length_map] at hi hi'
  rw [List.getElem_map, List.getElem_map]
  have hid : b.tables.jobs[i].id = b.mem.jobs[i].id := by
    have hget := List.getElem_of_eq h.ids (i := i) (by simpa using hi)
    simpa using hget
  have hrow : Table.lookup (fun r : ReplayJobRow => r.id) b.mem.jobs[i].id b.tables.jobs = some b.tables.jobs[i] :=
    (Table.lookup_eq_some h.nodup_rows).2 ⟨List.getElem_mem hi, hid⟩
  have hjob : Table.lookup (fun j : ReplayJob => j.id) b.mem.jobs[i].id b.mem.jobs = some b.mem.jobs[i] :=
    (Table.lookup_eq_some h.nodup).2 ⟨List.getElem_mem hi', rfl⟩
  have hanswer := hagree b.mem.jobs[i].id
  unfold ReplayTables.getJob ReplayMemory.getJob at hanswer
  rw [hrow, hjob] at hanswer
  simpa using hanswer

/-- the order of a list, over what is read -/
def Newest (a b : Option ReplayJob) : Prop := ∀ x ∈ a, ∀ y ∈ b, y.createdAt ≤ x.createdAt

theorem newest_rows {rows : List ReplayJobRow} (h : rows.Pairwise fun a b => b.createdAt ≤ a.createdAt) :
    (rows.map ReplayJobRow.toJob).Pairwise Newest := by
  rw [List.pairwise_map]
  refine h.imp fun {a b} hle x hx y hy => ?_
  obtain ⟨-, -, -, -, -, ha⟩ := ReplayJobRow.identity_of_toJob hx
  obtain ⟨-, -, -, -, -, hb⟩ := ReplayJobRow.identity_of_toJob hy
  rw [← ha, ← hb]
  exact Sql.ofMicros_mono hle

theorem newest_jobs (jobs : List ReplayJob) :
    ((jobs.mergeSort fun a b => decide (b.createdAt ≤ a.createdAt)).map fun job => some job.stored).Pairwise Newest := by
  rw [List.pairwise_map]
  have hsorted := @List.pairwise_mergeSort ReplayJob (fun a b => decide (b.createdAt ≤ a.createdAt))
    (fun a b c hab hbc => by simp only [decide_eq_true_eq] at hab hbc ⊢; exact hbc.trans hab)
    (fun a b => by simpa using le_total b.createdAt a.createdAt) jobs
  refine hsorted.imp fun {a b} hle x hx y hy => ?_
  obtain rfl := Option.some.inj hx
  obtain rfl := Option.some.inj hy
  exact Sql.ofMicros_mono (Sql.toMicros_mono (of_decide_eq_true hle))

/-- **The lists of jobs are the same, in order.** After any writes that succeed in both and keep the identity of stored
jobs, where the creation times differ by microseconds, every page that Postgres may answer is read as the in-memory page of
the limit it takes: between 1 and 100. -/
theorem list_jobs_agree (writes : List ReplayWrite) (limit offset : ℕ) (page : List ReplayJobRow)
    (h : Trace.Steps write (fun b w => b.WrittenToBoth w ∧ b.KeepsIdentity w) start writes)
    (hdistinct : ((Trace.run write start writes).mem.jobs.map fun job => Sql.toMicros job.createdAt).Nodup)
    (hpage : (Trace.run write start writes).tables.ListJobs limit offset page) :
    page.map ReplayJobRow.toJob =
      ((Trace.run write start writes).mem.listJobs (max 1 (min limit 100)) offset).map fun job => some job.stored := by
  have hinv := Trace.run_inv (I := fun b : ReplayBackends => b.Aligned ∧ b.JobAnswersAgree)
    (fun b w hb hw => ⟨hb.1.write hw.1, (agree_write_iff hb.1 hb.2 hw.1).2 hw.2⟩) ⟨aligned_start, fun _ => rfl⟩ h
  generalize Trace.run write start writes = b at hinv hdistinct hpage ⊢
  have hread := rows_read hinv.1 hinv.2
  obtain ⟨ordered, hperm, hsorted, rfl⟩ := hpage
  have hmem := List.mergeSort_perm b.mem.jobs fun a b => decide (b.createdAt ≤ a.createdAt)
  have hreads : (ordered.map ReplayJobRow.toJob).Perm (b.mem.jobs.map fun job => some job.stored) := by
    rw [← hread]
    exact hperm.map _
  have hsame : ordered.map ReplayJobRow.toJob =
      (b.mem.jobs.mergeSort fun a b => decide (b.createdAt ≤ a.createdAt)).map fun job => some job.stored := by
    refine List.Perm.eq_of_pairwise ?_ (newest_rows hsorted) (newest_jobs b.mem.jobs) (hreads.trans (hmem.map _).symm)
    -- no two jobs are of one time
    intro x y hx hy hxy hyx
    obtain ⟨job, hjob, rfl⟩ := List.mem_map.1 (hreads.subset hx)
    obtain ⟨job', hjob', rfl⟩ := List.mem_map.1 ((hmem.map _).subset hy)
    have htime := le_antisymm (hyx _ rfl _ rfl) (hxy _ rfl _ rfl)
    rw [List.inj_on_of_nodup_map hdistinct hjob hjob' (Sql.ofMicros_inj.1 htime)]
  unfold ReplayMemory.listJobs
  rw [List.map_take, List.map_drop, hsame, List.map_take, List.map_drop]

/-- the second of the two jobs is the newer one -/
theorem list_jobs_agree_started :
    [ReplayJobRow.ofJob (threeBlocks 2 7500), ReplayJobRow.ofJob (progressed (threeBlocks 1 1000) 100)].map
        ReplayJobRow.toJob =
      ((Trace.run write start firstStarted).mem.listJobs 2 0).map fun job => some job.stored := by
  have hkeeps := Trace.steps_and (by decide +kernel : Trace.Steps write WrittenToBoth start firstStarted)
    firstStarted_keeps
  have hrows : (Trace.run write start firstStarted).tables.jobs =
      [ReplayJobRow.ofJob (progressed (threeBlocks 1 1000) 100), ReplayJobRow.ofJob (threeBlocks 2 7500)] := by
    decide +kernel
  refine list_jobs_agree firstStarted 2 0 _ hkeeps (by decide +kernel)
    ⟨[ReplayJobRow.ofJob (threeBlocks 2 7500), ReplayJobRow.ofJob (progressed (threeBlocks 1 1000) 100)], ?_, ?_, rfl⟩
  · rw [hrows]
    exact List.Perm.swap _ _ _
  · simp only [List.pairwise_cons, List.mem_singleton, forall_eq, List.not_mem_nil, false_imp_iff, implies_true,
      List.Pairwise.nil, and_true]
    decide +kernel

end ReplayBackends

end ObsChain
