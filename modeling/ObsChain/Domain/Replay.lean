/-
Replay jobs, their checkpoints and the context of an observation (`replay.rs` of `obschain-core`).

Counters and heights are u64 in the source and naturals here. `ReplayJob::new` and `ReplayCheckpoint::new` draw a random
id and read the clock; both are arguments. Not modelled: `progress_percentage`, which only the log reads.
-/
import Mathlib.Tactic
import ObsChain.Domain.Observation

namespace ObsChain

inductive ReplayJobStatus where
  | pending
  | running
  | paused
  | completed
  | failed
  | cancelled
deriving DecidableEq, Repr

def ReplayJobStatus.isTerminal : ReplayJobStatus → Bool
  | .completed | .failed | .cancelled => true
  | _ => false

/-- live observation, or replay of history -/
inductive ObservationMode where
  | live
  | historicalReplay
deriving DecidableEq, Repr

def ObservationMode.asStr : ObservationMode → String
  | .live => "live"
  | .historicalReplay => "historical_replay"

/-- where and when an observation is made -/
structure ObservationContext where
  mode : ObservationMode
  replayJobId : Option Uuid
  historicalHeight : Option ℕ
  historicalBlockHash : Option String
  historicalTimestamp : Option DateTime
  network : String
deriving DecidableEq, Repr

namespace ObservationContext

def live (network : String) : ObservationContext := ⟨.live, none, none, none, none, network⟩

def historicalReplay (jobId : Uuid) (height : ℕ) (blockHash : String) (timestamp : DateTime) (network : String) :
    ObservationContext :=
  ⟨.historicalReplay, some jobId, some height, some blockHash, some timestamp, network⟩

end ObservationContext

structure ReplayJob where
  id : Uuid
  network : String
  startHeight : ℕ
  endHeight : ℕ
  currentHeight : ℕ
  status : ReplayJobStatus
  sourceType : String
  createdAt : DateTime
  startedAt : Option DateTime
  completedAt : Option DateTime
  blocksProcessed : ℕ
  transactionsProcessed : ℕ
  eventsGenerated : ℕ
  eventsCreated : ℕ
  eventsExisting : ℕ
  observationsRecorded : ℕ
  errorCount : ℕ
  lastError : Option String
deriving DecidableEq, Repr

namespace ReplayJob

def new (id : Uuid) (network : String) (startHeight endHeight : ℕ) (sourceType : String) (now : DateTime) :
    ReplayJob where
  id := id
  network := network
  startHeight := startHeight
  endHeight := endHeight
  currentHeight := startHeight
  status := .pending
  sourceType := sourceType
  createdAt := now
  startedAt := none
  completedAt := none
  blocksProcessed := 0
  transactionsProcessed := 0
  eventsGenerated := 0
  eventsCreated := 0
  eventsExisting := 0
  observationsRecorded := 0
  errorCount := 0
  lastError := none

def totalBlocks (job : ReplayJob) : ℕ :=
  if job.endHeight ≥ job.startHeight then job.endHeight - job.startHeight + 1 else 0

end ReplayJob

structure ReplayCheckpoint where
  id : Uuid
  jobId : Uuid
  completedHeight : ℕ
  blocksProcessed : ℕ
  transactionsProcessed : ℕ
  eventsGenerated : ℕ
  eventsCreated : ℕ
  eventsExisting : ℕ
  observationsRecorded : ℕ
  checkpointedAt : DateTime
deriving DecidableEq, Repr

namespace ReplayCheckpoint

def new (id jobId : Uuid) (completedHeight blocksProcessed transactionsProcessed eventsGenerated : ℕ)
    (now : DateTime) : ReplayCheckpoint where
  id := id
  jobId := jobId
  completedHeight := completedHeight
  blocksProcessed := blocksProcessed
  transactionsProcessed := transactionsProcessed
  eventsGenerated := eventsGenerated
  eventsCreated := 0
  eventsExisting := 0
  observationsRecorded := eventsGenerated
  checkpointedAt := now

def withProvenanceCounts (cp : ReplayCheckpoint) (eventsCreated eventsExisting observationsRecorded : ℕ) :
    ReplayCheckpoint :=
  { cp with
    eventsCreated := eventsCreated
    eventsExisting := eventsExisting
    observationsRecorded := observationsRecorded }

end ReplayCheckpoint

/-- the checkpoint with the greatest completed height, the last saved one among equals (`max_by_key`) -/
def latestCheckpoint (checkpoints : List ReplayCheckpoint) : Option ReplayCheckpoint :=
  checkpoints.foldl (fun best cp => match best with
    | none => some cp
    | some b => if b.completedHeight ≤ cp.completedHeight then some cp else some b) none

/-- the latest checkpoint is a checkpoint, none is above it, and there is one as soon as the list is not empty -/
theorem latestCheckpoint_spec (checkpoints : List ReplayCheckpoint) :
    match latestCheckpoint checkpoints with
    | none => checkpoints = []
    | some b => b ∈ checkpoints ∧ ∀ cp ∈ checkpoints, cp.completedHeight ≤ b.completedHeight := by
  induction checkpoints using List.reverseRecOn with
  | nil => rfl
  | append_singleton l cp ih =>
    have hfold : latestCheckpoint (l ++ [cp]) = match latestCheckpoint l with
        | none => some cp
        | some b => if b.completedHeight ≤ cp.completedHeight then some cp else some b := by
      simp only [latestCheckpoint, List.foldl_append, List.foldl_cons, List.foldl_nil]
    rw [hfold]
    cases hl : latestCheckpoint l with
    | none =>
      rw [hl] at ih
      subst ih
      simp
    | some b =>
      rw [hl] at ih
      obtain ⟨hb, hmax⟩ := ih
      dsimp only
      split_ifs with hle
      · refine ⟨by simp, fun c hc => ?_⟩
        rcases List.mem_append.1 hc with hc | hc
        · exact (hmax c hc).trans hle
        · rw [List.mem_singleton.1 hc]
      · refine ⟨List.mem_append_left _ hb, fun c hc => ?_⟩
        rcases List.mem_append.1 hc with hc | hc
        · exact hmax c hc
        · rw [List.mem_singleton.1 hc]; omega

theorem latestCheckpoint_mem {checkpoints : List ReplayCheckpoint} {cp : ReplayCheckpoint}
    (h : latestCheckpoint checkpoints = some cp) : cp ∈ checkpoints := by
  have hs := latestCheckpoint_spec checkpoints
  rw [h] at hs
  exact hs.1

end ObsChain
