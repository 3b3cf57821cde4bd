/-
The detector engine (`engine.rs` of `obschain-detectors`).

The engine holds its detectors and the last block it saw. An observation is first settled: a block without an interval
gets the one since the last block, when it is positive. Then every detector looks at it (in a replay only the
historically replayable ones), and each reported event is stamped with its source, its replay provenance and its
deterministic id. `draws i` is what the detector at position `i` draws (`Fresh`); the UUID function and the RFC 3339 text
of a time are the parameters `newV5` and `rfc3339`.

- `mem_events`: the events, detector by detector, as stamped reports.
- `stamp_replay`: what a replay leaves of the reading of the clock, which is the event time and the first observation.
- `replayBlock`: the detection step of the replay worker's `process_block`: the block, then its transactions.
- `length_replayBlock_le`: how many events that can be.
-/
import Mathlib.Tactic
import ObsChain.Detect.Detectors
import ObsChain.Domain.Watch

namespace ObsChain

structure DetectorEngine where
  detectors : List Detector
  lastBlock : Option BlockObservation
deriving DecidableEq, Repr

namespace DetectorEngine

def new (detectors : List Detector) : DetectorEngine := ⟨detectors, none⟩

/-- the interval of a block that comes without one -/
def deriveInterval (last : Option BlockObservation) (block : BlockObservation) : Option ℕ :=
  match last with
  | none => none
  | some prev =>
    if block.height > prev.height ∨ block.blockHash ≠ prev.blockHash then
      let diffSecs := secondsSince block.timestamp prev.timestamp
      -- non-monotonic or negative intervals are ignored
      if diffSecs > 0 then some diffSecs.toNat else none
    else none

def settleBlock (last : Option BlockObservation) (block : BlockObservation) : BlockObservation :=
  match block.intervalSeconds with
  | some _ => block
  | none => { block with intervalSeconds := deriveInterval last block }

/-- settle the observation and remember a block -/
def observe (engine : DetectorEngine) : Observation → DetectorEngine × Observation
  | .block block =>
    let settled := settleBlock engine.lastBlock block
    ({ engine with lastBlock := some settled }, .block settled)
  | observation => (engine, observation)

/-- provenance of a replay in the metadata, when that is an object -/
def replayMetadata (rfc3339 : DateTime → String) (ctx : ObservationContext) : Value → Value
  | .object fields =>
    let fields := Value.insertField "observation_mode" (.string "historical_replay") fields
    let fields := match ctx.replayJobId with
      | some jobId => Value.insertField "replay_job_id" (.string (hyphenated jobId)) fields
      | none => fields
    let fields := match ctx.historicalHeight with
      | some height => Value.insertField "historical_height" (.nat height) fields
      | none => fields
    let fields := match ctx.historicalBlockHash with
      | some hash => Value.insertField "historical_block_hash" (.string hash) fields
      | none => fields
    let fields := match ctx.historicalTimestamp with
      | some ts => Value.insertField "historical_timestamp" (.string (rfc3339 ts)) fields
      | none => fields
    .object fields
  | metadata => metadata

section

variable (newV5 : String → Uuid) (rfc3339 : DateTime → String)

/-- what the engine writes on a reported event -/
def stamp (observation : Observation) (context : Option ObservationContext) (event : ChainEvent) : ChainEvent :=
  let event : ChainEvent := { event with source := event.source.or observation.source }
  let event : ChainEvent := match context with
    | some ctx =>
      if ctx.mode = ObservationMode.historicalReplay then
        { event with
          detectedAt := ctx.historicalTimestamp.getD observation.timestamp
          observationMode := .historicalReplay
          replayJobId := ctx.replayJobId
          metadata := replayMetadata rfc3339 ctx event.metadata }
      else event
    | none => event
  event.withDeterministicId newV5

/-- in a replay, detectors that need live data are skipped -/
def skips (context : Option ObservationContext) (detector : Detector) : Bool :=
  context.any (·.mode == .historicalReplay) && !detector.historicallyReplayable

/-- the stamped reports of every detector on a settled observation -/
def events (detectors : List Detector) (draws : ℕ → Fresh) (settled : Observation)
    (context : Option ObservationContext) : List ChainEvent :=
  detectors.zipIdx.flatMap fun (detector, i) =>
    if skips context detector then []
    else (detector.detect rfc3339 (draws i) settled).map (stamp newV5 rfc3339 settled context)

def processObservationWithContext (engine : DetectorEngine) (draws : ℕ → Fresh) (observation : Observation)
    (context : Option ObservationContext) : DetectorEngine × List ChainEvent :=
  let (engine, settled) := engine.observe observation
  (engine, events newV5 rfc3339 engine.detectors draws settled context)

/-- the live entry point -/
def processObservation (engine : DetectorEngine) (draws : ℕ → Fresh) (observation : Observation) :
    DetectorEngine × List ChainEvent :=
  processObservationWithContext newV5 rfc3339 engine draws observation none

/-- every observation of a list, in order; `draws n` is for the observation at position `n` -/
def processAll (context : Option ObservationContext) :
    DetectorEngine → (ℕ → ℕ → Fresh) → List Observation → DetectorEngine × List ChainEvent
  | engine, _, [] => (engine, [])
  | engine, draws, observation :: rest =>
    let (engine, first) := processObservationWithContext newV5 rfc3339 engine (draws 0) observation context
    let (engine, later) := processAll context engine (fun n => draws (n + 1)) rest
    (engine, first ++ later)

/-- the detection step of `process_block`: the block, then its transactions -/
def replayBlock (engine : DetectorEngine) (draws : ℕ → ℕ → Fresh) (ctx : ObservationContext)
    (block : BlockObservation) (txs : List TransactionObservation) : DetectorEngine × List ChainEvent :=
  processAll newV5 rfc3339 (some ctx) engine draws (.block block :: txs.map .transaction)

/-- the fields a replay writes -/
def provenanceFields : List String :=
  ["observation_mode", "replay_job_id", "historical_height", "historical_block_hash", "historical_timestamp"]

/-- every other field survives the provenance that a replay adds to the metadata -/
theorem get_replayMetadata (ctx : ObservationContext) (metadata : Value) {key : String} (hkey : key ∉ provenanceFields) :
    (replayMetadata rfc3339 ctx metadata).get key = metadata.get key := by
  simp only [provenanceFields, List.mem_cons, List.not_mem_nil, or_false, not_or] at hkey
  obtain ⟨hmode, hjob, hheight, hhash, htime⟩ := hkey
  cases metadata with
  | object fields =>
    simp only [replayMetadata, Value.get]
    rcases ctx.historicalTimestamp with _ | ts <;> rcases ctx.historicalBlockHash with _ | hash <;>
      rcases ctx.historicalHeight with _ | height <;> rcases ctx.replayJobId with _ | job <;>
      simp only [Value.lookup_insertField_of_ne _ _ htime, Value.lookup_insertField_of_ne _ _ hhash,
        Value.lookup_insertField_of_ne _ _ hheight, Value.lookup_insertField_of_ne _ _ hjob,
        Value.lookup_insertField_of_ne _ _ hmode]
  | _ => rfl

/-! ## Events, one observation at a time -/

variable {newV5 rfc3339}

/-- **Every event is a stamped report** of a detector that was not skipped, on what that detector drew. -/
theorem mem_events {detectors : List Detector} {draws : ℕ → Fresh} {settled : Observation}
    {context : Option ObservationContext} {event : ChainEvent} :
    event ∈ events newV5 rfc3339 detectors draws settled context ↔
      ∃ i d report, detectors[i]? = some d ∧ skips context d = false ∧ report ∈ d.detect rfc3339 (draws i) settled ∧
        event = stamp newV5 rfc3339 settled context report := by
  simp only [events, List.mem_flatMap, Prod.exists, List.mem_zipIdx_iff_getElem?]
  constructor
  · rintro ⟨d, i, hi, hmem⟩
    split_ifs at hmem with hskip
    · simp at hmem
    · obtain ⟨report, hreport, rfl⟩ := List.mem_map.1 hmem
      exact ⟨i, d, report, hi, by simpa using hskip, hreport, rfl⟩
  · rintro ⟨i, d, report, hi, hskip, hreport, rfl⟩
    refine ⟨d, i, hi, ?_⟩
    rw [if_neg (by simp [hskip])]
    exact List.mem_map_of_mem hreport

/-- a transaction leaves the engine as it was -/
theorem processAll_transactions (context : Option ObservationContext) (engine : DetectorEngine)
    (draws : ℕ → ℕ → Fresh) (txs : List TransactionObservation) :
    processAll newV5 rfc3339 context engine draws (txs.map .transaction) =
      (engine, txs.zipIdx.flatMap fun (tx, n) =>
        events newV5 rfc3339 engine.detectors (draws n) (.transaction tx) context) := by
  induction txs generalizing draws with
  | nil => rfl
  | cons tx txs ih =>
    have hstep : processAll newV5 rfc3339 context engine draws ((tx :: txs).map .transaction) =
        (engine, events newV5 rfc3339 engine.detectors (draws 0) (.transaction tx) context ++
          (processAll newV5 rfc3339 context engine (fun n => draws (n + 1)) (txs.map .transaction)).2) := by
      rw [List.map_cons, processAll, processObservationWithContext]
      simp [observe, ih]
    rw [hstep, ih, List.zipIdx_cons', List.flatMap_cons, List.flatMap_map]
    rfl

/-- the events of a block: those of the settled block, then those of its transactions -/
theorem replayBlock_events (engine : DetectorEngine) (draws : ℕ → ℕ → Fresh) (ctx : ObservationContext)
    (block : BlockObservation) (txs : List TransactionObservation) :
    (replayBlock newV5 rfc3339 engine draws ctx block txs).2 =
      events newV5 rfc3339 engine.detectors (draws 0) (.block (settleBlock engine.lastBlock block)) (some ctx) ++
        txs.zipIdx.flatMap fun (tx, n) =>
          events newV5 rfc3339 engine.detectors (draws (n + 1)) (.transaction tx) (some ctx) := by
  rw [replayBlock, processAll, processObservationWithContext]
  simp [observe, processAll_transactions]

/-- the engine keeps its detectors -/
theorem detectors_replayBlock (engine : DetectorEngine) (draws : ℕ → ℕ → Fresh) (ctx : ObservationContext)
    (block : BlockObservation) (txs : List TransactionObservation) :
    (replayBlock newV5 rfc3339 engine draws ctx block txs).1.detectors = engine.detectors := by
  rw [replayBlock, processAll, processObservationWithContext]
  simp [observe, processAll_transactions]

/-! ## How many events there are -/

theorem length_flatMap_le {α β : Type*} {l : List α} {f : α → List β} {k : ℕ} (h : ∀ x ∈ l, (f x).length ≤ k) :
    (l.flatMap f).length ≤ l.length * k := by
  rw [List.length_flatMap, ← smul_eq_mul]
  have hsum := List.sum_le_card_nsmul (l.map fun x => (f x).length) k (by simpa using h)
  simpa using hsum

/-- at most one for each detector -/
theorem length_events_le (detectors : List Detector) (draws : ℕ → Fresh) (settled : Observation)
    (context : Option ObservationContext) :
    (events newV5 rfc3339 detectors draws settled context).length ≤ detectors.length := by
  have hone : (events newV5 rfc3339 detectors draws settled context).length ≤ detectors.zipIdx.length * 1 := by
    apply length_flatMap_le
    intro p _
    dsimp only
    split_ifs
    · simp
    · rw [List.length_map]
      exact Detector.length_detect_le rfc3339 _ settled p.1
  simpa using hone

/-- **The events of a block**: at most one for each detector on the block and on each of its transactions. -/
theorem length_replayBlock_le (engine : DetectorEngine) (draws : ℕ → ℕ → Fresh) (ctx : ObservationContext)
    (block : BlockObservation) (txs : List TransactionObservation) :
    (replayBlock newV5 rfc3339 engine draws ctx block txs).2.length ≤ (txs.length + 1) * engine.detectors.length := by
  rw [replayBlock_events, List.length_append, Nat.add_one_mul, Nat.add_comm]
  apply Nat.add_le_add
  · have htxs : (txs.zipIdx.flatMap fun p =>
        events newV5 rfc3339 engine.detectors (draws (p.2 + 1)) (.transaction p.1) (some ctx)).length ≤
        txs.zipIdx.length * engine.detectors.length :=
      length_flatMap_le fun p _ => length_events_le _ _ _ _
    simpa using htxs
  · exact length_events_le _ _ _ _

end

end DetectorEngine

end ObsChain
