/-
Block intervals, live and replayed (`engine.rs` of `obschain-detectors`, `process_block` of `historical_replay.rs`).

The live feed delivers a block without an interval, and the engine takes the one since the last block it saw, when it is
positive. The replay worker keeps the time of the previous block itself and hands the engine a block with its interval,
clamped at zero. So after an equal or an earlier timestamp the live block has no interval and the replayed one has zero,
and the engine of the replay, which would derive one too, finds one there.

Model: one chain, observed twice. `liveEvents` feeds the blocks to an engine; `replayEvents` is the block loop of the
worker, each block with its transactions (`replayBlock`), the time that the node's header call gives for the block before
the first one, and the previous block time. What the two observations of a block share is its header (`SameHeader`);
counts, sizes and sources may differ, and so may everything the detectors draw.

`intervalAlert` is what is compared of an event: id, `interval_seconds` and severity of a long-interval event.

- `intervalAlerts_block`: the alerts of a block follow from its hash and its interval.
- `alerts_clamped`: no interval and a zero one alert alike for positive thresholds.
- `live_replay_intervals_agree`: along every chain of increasing heights, whatever the timestamps, live and replay raise
  the same alerts at every block after the first.
-/
import Mathlib.Tactic
import ObsChain.Detect.ReplayDeterminism

namespace ObsChain

/-- id, interval and severity of a long-interval event -/
structure IntervalAlert where
  id : Uuid
  intervalSeconds : Option Value
  severity : EventSeverity

/-- what is compared of an event -/
def ChainEvent.intervalAlert (event : ChainEvent) : Option IntervalAlert :=
  if event.eventType = .longBlockInterval then
    some ⟨event.id, event.metadata.get "interval_seconds", event.severity⟩
  else none

/-- two observations of one block -/
def SameHeader (b b' : BlockObservation) : Prop :=
  b.blockHash = b'.blockHash ∧ b.height = b'.height ∧ b.timestamp = b'.timestamp

/-- a block as the replay worker gets it from the node -/
structure FetchedBlock where
  observation : BlockObservation
  transactions : List TransactionObservation
  /-- the time of the previous block's header, where the call for it succeeds -/
  prevHeaderTime : Option DateTime

/-- seconds since the previous block, clamped at zero -/
def clampedInterval (blockTime prevTime : DateTime) : ℕ := (max (secondsSince blockTime prevTime) 0).toNat

/-- `interval_seconds` in `process_block` -/
def replayInterval (prevBlockTime prevHeaderTime : Option DateTime) (height : ℕ) (blockTime : DateTime) : Option ℕ :=
  match prevBlockTime with
  | some prevTime => some (clampedInterval blockTime prevTime)
  | none => if height > 0 then prevHeaderTime.map (clampedInterval blockTime) else none

/-- the `block_obs` of `process_block` -/
def FetchedBlock.block (fetched : FetchedBlock) (prevBlockTime : Option DateTime) : BlockObservation :=
  { fetched.observation with
    intervalSeconds := replayInterval prevBlockTime fetched.prevHeaderTime fetched.observation.height
      fetched.observation.timestamp }

/-- the `obs_context` of `process_block` -/
def FetchedBlock.context (fetched : FetchedBlock) (job : Uuid) (network : String) : ObservationContext :=
  .historicalReplay job fetched.observation.height fetched.observation.blockHash fetched.observation.timestamp network

namespace DetectorEngine

section

variable (newV5 : String → Uuid) (rfc3339 : DateTime → String)

/-- the events of each block that the live feed delivers; `draws n` is for the block at position `n` -/
def liveEvents : DetectorEngine → (ℕ → ℕ → Fresh) → List BlockObservation → List (List ChainEvent)
  | _, _, [] => []
  | engine, draws, block :: rest =>
    let (engine, first) := processObservation newV5 rfc3339 engine (draws 0) (.block block)
    first :: liveEvents engine (fun n => draws (n + 1)) rest

/-- the events of each block of a replay job -/
def replayEvents (job : Uuid) (network : String) : DetectorEngine → (ℕ → ℕ → ℕ → Fresh) → Option DateTime →
    List FetchedBlock → List (List ChainEvent)
  | _, _, _, [] => []
  | engine, draws, prevBlockTime, fetched :: rest =>
    let (engine, first) := replayBlock newV5 rfc3339 engine (draws 0) (fetched.context job network)
      (fetched.block prevBlockTime) fetched.transactions
    first :: replayEvents job network engine (fun n => draws (n + 1)) (some fetched.observation.timestamp) rest

/-! ## The alerts of one block -/

/-- what a detector says of a block: its hash in the id, and an interval at the threshold -/
def alertOf (blockHash : String) (interval : Option ℕ) : Detector → List IntervalAlert
  | .longBlockInterval l =>
    match interval with
    | none => []
    | some i =>
      if i < l.thresholdSeconds then []
      else [⟨newV5 (EventType.longBlockInterval.debug ++ ":block:" ++ blockHash), some (.nat i),
        LongBlockIntervalDetector.severityOf i⟩]
  | _ => []

variable {newV5 rfc3339}

/-- the stamp sets the id and leaves the rest of the alert -/
theorem intervalAlert_stamp (observation : Observation) (context : Option ObservationContext) (report : ChainEvent) :
    (stamp newV5 rfc3339 observation context report).intervalAlert =
      ({ report with id := newV5 report.identityKey } : ChainEvent).intervalAlert := by
  unfold stamp
  rcases context with _ | ctx
  · rfl
  · dsimp only
    split_ifs
    · have hget := get_replayMetadata rfc3339 ctx report.metadata (show "interval_seconds" ∉ provenanceFields by decide)
      simp only [ChainEvent.intervalAlert, ChainEvent.withDeterministicId, hget]
      rfl
    · rfl

/-- only the long-interval detectors look at a block, and a replay does not skip them -/
theorem alerts_detector (d : Detector) (fresh : Fresh) (block : BlockObservation)
    (context : Option ObservationContext) :
    (if skips context d then []
      else (d.detect rfc3339 fresh (.block block)).map (stamp newV5 rfc3339 (.block block) context)).filterMap
        ChainEvent.intervalAlert = alertOf newV5 block.blockHash block.intervalSeconds d := by
  cases d with
  | longBlockInterval l =>
    have hskip : skips context (.longBlockInterval l) = false := by
      simp [skips, Detector.historicallyReplayable]
    simp only [hskip, Detector.detect, LongBlockIntervalDetector.detect, alertOf]
    cases block.intervalSeconds with
    | none => rfl
    | some i =>
      dsimp only
      by_cases hlt : i < l.thresholdSeconds
      · simp [hlt]
      · simp only [hlt, if_false, Bool.false_eq_true, List.map_cons, List.map_nil, List.filterMap_cons,
          List.filterMap_nil, intervalAlert_stamp]
        rfl
  | _ =>
    simp [alertOf, Detector.detect, LargeTransactionDetector.detect, DormantCoinDetector.detect,
      ConsolidationDetector.detect, FanOutDetector.detect, ExtremeFeeDetector.detect, RbfDetector.detect,
      ReorgDetector.detect]

/-- **The alerts of a block** follow from its hash and its interval. -/
theorem intervalAlerts_block (detectors : List Detector) (draws : ℕ → Fresh) (block : BlockObservation)
    (context : Option ObservationContext) :
    (events newV5 rfc3339 detectors draws (.block block) context).filterMap ChainEvent.intervalAlert =
      detectors.flatMap (alertOf newV5 block.blockHash block.intervalSeconds) := by
  unfold events
  rw [List.filterMap_flatMap]
  simp only [alerts_detector]
  conv_rhs => rw [← List.zipIdx_map_fst 0 detectors, List.flatMap_map]

/-- a transaction raises none -/
theorem intervalAlerts_transaction (detectors : List Detector) (draws : ℕ → Fresh) (tx : TransactionObservation)
    (context : Option ObservationContext) :
    (events newV5 rfc3339 detectors draws (.transaction tx) context).filterMap ChainEvent.intervalAlert = [] := by
  rw [List.filterMap_eq_nil_iff]
  intro event hevent
  obtain ⟨i, d, report, -, -, hreport, rfl⟩ := mem_events.1 hevent
  rw [intervalAlert_stamp]
  exact if_neg (Detector.eventType_detect_transaction hreport)

/-! ## Intervals -/

/-- every long-interval detector has a positive threshold -/
def PositiveThresholds (detectors : List Detector) : Prop :=
  ∀ l, Detector.longBlockInterval l ∈ detectors → 0 < l.thresholdSeconds

/-- **No interval and a zero one alert alike**, and a positive one is the same on both sides. -/
theorem alerts_clamped {detectors : List Detector} (hpos : PositiveThresholds detectors) (blockHash : String)
    {prev block : BlockObservation} (hheight : prev.height < block.height) :
    detectors.flatMap (alertOf newV5 blockHash (deriveInterval (some prev) block)) =
      detectors.flatMap (alertOf newV5 blockHash (some (clampedInterval block.timestamp prev.timestamp))) := by
  have hderive : deriveInterval (some prev) block =
      if secondsSince block.timestamp prev.timestamp > 0 then
        some (secondsSince block.timestamp prev.timestamp).toNat else none := by
    simp only [deriveInterval]
    rw [if_pos (Or.inl hheight)]
  rw [hderive]
  unfold clampedInterval
  split_ifs with hsecs
  · rw [max_eq_left hsecs.le]
  · -- an equal or an earlier timestamp
    rw [max_eq_right (not_lt.1 hsecs)]
    apply List.flatMap_congr
    intro d hd
    cases d with
    | longBlockInterval l =>
      have hzero : (0 : ℤ).toNat < l.thresholdSeconds := hpos l hd
      simp only [alertOf, if_pos hzero]
    | _ => rfl

/-! ## Chains -/

/-- the alerts of each block -/
def alerts (perBlock : List (List ChainEvent)) : List (List IntervalAlert) :=
  perBlock.map fun events => events.filterMap ChainEvent.intervalAlert

/-- a live block takes its interval from the last one -/
theorem alerts_liveEvents_cons (engine : DetectorEngine) (draws : ℕ → ℕ → Fresh) {block : BlockObservation}
    (hnone : block.intervalSeconds = none) (rest : List BlockObservation) :
    alerts (liveEvents newV5 rfc3339 engine draws (block :: rest)) =
      engine.detectors.flatMap (alertOf newV5 block.blockHash (deriveInterval engine.lastBlock block)) ::
        alerts (liveEvents newV5 rfc3339 ⟨engine.detectors, some (settleBlock engine.lastBlock block)⟩
          (fun n => draws (n + 1)) rest) := by
  have hhash : (settleBlock engine.lastBlock block).blockHash = block.blockHash := by
    simp only [settleBlock, hnone]
  have hinterval : (settleBlock engine.lastBlock block).intervalSeconds = deriveInterval engine.lastBlock block := by
    simp only [settleBlock, hnone]
  simp only [liveEvents, processObservation, processObservationWithContext, observe, alerts, List.map_cons,
    intervalAlerts_block, hhash, hinterval]

/-- a block that comes with its interval keeps it, whatever the engine saw before -/
theorem intervalAlerts_replayBlock (engine : DetectorEngine) (draws : ℕ → ℕ → Fresh) (ctx : ObservationContext)
    {block : BlockObservation} {interval : ℕ} (hsome : block.intervalSeconds = some interval)
    (txs : List TransactionObservation) :
    (replayBlock newV5 rfc3339 engine draws ctx block txs).2.filterMap ChainEvent.intervalAlert =
      engine.detectors.flatMap (alertOf newV5 block.blockHash (some interval)) := by
  have hsettled : settleBlock engine.lastBlock block = block := by
    simp only [settleBlock, hsome]
  -- the transactions of the block raise no interval alert
  rw [replayBlock_events, List.filterMap_append, hsettled, intervalAlerts_block, hsome, List.filterMap_flatMap]
  simp only [intervalAlerts_transaction]
  rw [List.flatMap_eq_nil_iff.2 fun _ _ => rfl, List.append_nil]

theorem alerts_replayEvents_cons (job : Uuid) (network : String) (engine : DetectorEngine)
    (draws : ℕ → ℕ → ℕ → Fresh) (prevTime : DateTime) (f : FetchedBlock) (rest : List FetchedBlock) :
    alerts (replayEvents newV5 rfc3339 job network engine draws (some prevTime) (f :: rest)) =
      engine.detectors.flatMap (alertOf newV5 f.observation.blockHash
        (some (clampedInterval f.observation.timestamp prevTime))) ::
      alerts (replayEvents newV5 rfc3339 job network
        (replayBlock newV5 rfc3339 engine (draws 0) (f.context job network) (f.block (some prevTime))
          f.transactions).1
        (fun n => draws (n + 1)) (some f.observation.timestamp) rest) := by
  have hsome : (f.block (some prevTime)).intervalSeconds =
      some (clampedInterval f.observation.timestamp prevTime) := rfl
  simp only [replayEvents, alerts, List.map_cons]
  rw [intervalAlerts_replayBlock engine (draws 0) (f.context job network) hsome f.transactions]
  rfl

/-- **After one block both paths go alike.** The live engine remembers the block whose time the worker keeps. -/
theorem alerts_agree_after {detectors : List Detector} (hpos : PositiveThresholds detectors) (job : Uuid)
    (network : String) {blocks : List BlockObservation} {fetched : List FetchedBlock}
    (hsame : List.Forall₂ (fun b f => SameHeader b f.observation) blocks fetched) :
    ∀ {engine engine' : DetectorEngine} {prev : BlockObservation} (draws : ℕ → ℕ → Fresh)
      (draws' : ℕ → ℕ → ℕ → Fresh), engine.detectors = detectors → engine'.detectors = detectors →
      engine.lastBlock = some prev → (∀ b ∈ blocks, b.intervalSeconds = none) →
      (prev.height :: blocks.map fun b => b.height).IsChain (· < ·) →
      alerts (liveEvents newV5 rfc3339 engine draws blocks) =
        alerts (replayEvents newV5 rfc3339 job network engine' draws' (some prev.timestamp) fetched) := by
  induction hsame with
  | nil =>
    intro engine engine' prev draws draws' _ _ _ _ _
    rfl
  | @cons b f blocks fetched hheader _ ih =>
    intro engine engine' prev draws draws' hengine hengine' hlast hnone hchain
    obtain ⟨hhash, -, htime⟩ := hheader
    obtain ⟨hlt, hrest⟩ := List.isChain_cons_cons.1 hchain
    have hb : b.intervalSeconds = none := hnone b List.mem_cons_self
    obtain ⟨hheight, htimestamp⟩ : (settleBlock engine.lastBlock b).height = b.height ∧
        (settleBlock engine.lastBlock b).timestamp = b.timestamp := by
      simp [settleBlock, hb]
    rw [alerts_liveEvents_cons engine draws hb, alerts_replayEvents_cons, hlast, hengine, hengine',
      alerts_clamped hpos b.blockHash hlt, ← hhash, ← htime]
    congr 1
    rw [← htimestamp, ← hlast]
    apply ih
    · rfl
    · rw [detectors_replayBlock]
      exact hengine'
    · rfl
    · intro b' hb'
      exact hnone b' (List.mem_cons_of_mem b hb')
    · rw [hheight]
      exact hrest

/-- **Live and replayed intervals agree.** At every block after the first, whatever the timestamps. -/
theorem live_replay_intervals_agree (newV5 : String → Uuid) (rfc3339 : DateTime → String) (job : Uuid)
    (network : String) (engine engine' : DetectorEngine) (draws : ℕ → ℕ → Fresh) (draws' : ℕ → ℕ → ℕ → Fresh)
    (blocks : List BlockObservation) (fetched : List FetchedBlock) (hdetectors : engine'.detectors = engine.detectors)
    (hpos : PositiveThresholds engine.detectors) (hnone : ∀ b ∈ blocks, b.intervalSeconds = none)
    (hheights : (blocks.map fun b => b.height).IsChain (· < ·))
    (hsame : List.Forall₂ (fun b f => SameHeader b f.observation) blocks fetched) :
    (alerts (liveEvents newV5 rfc3339 engine draws blocks)).tail =
      (alerts (replayEvents newV5 rfc3339 job network engine' draws' none fetched)).tail := by
  cases hsame with
  | nil => rfl
  | @cons b f blocks fetched hheader hrest =>
    have hb : b.intervalSeconds = none := hnone b List.mem_cons_self
    obtain ⟨hheight, htimestamp⟩ : (settleBlock engine.lastBlock b).height = b.height ∧
        (settleBlock engine.lastBlock b).timestamp = b.timestamp := by
      simp [settleBlock, hb]
    rw [alerts_liveEvents_cons engine draws hb, List.tail_cons]
    simp only [replayEvents, alerts, List.map_cons, List.tail_cons]
    rw [← hheader.2.2, ← htimestamp]
    apply alerts_agree_after hpos job network hrest
    · rfl
    · rw [detectors_replayBlock]
      exact hdetectors
    · rfl
    · intro b' hb'
      exact hnone b' (List.mem_cons_of_mem b hb')
    · rw [hheight]
      exact hheights

end

/-! ## A late block and an early timestamp -/

/-- a block as the live feed delivers it, `seconds` after the epoch; the detectors do not look inside a hash -/
def feedBlock (height : ℕ) (blockHash : String) (seconds : ℤ) : BlockObservation where
  blockHash := blockHash
  height := height
  timestamp := seconds * 1000000000
  previousBlockHash := ""
  txCount := 2450
  sizeBytes := 1500000
  weight := 3990000
  minerTag := none
  intervalSeconds := none
  source := some (.mempoolWs "wss://mempool.space/api/v1/ws")

/-- the same block from the node -/
def nodeBlock (block : BlockObservation) : FetchedBlock :=
  ⟨{ block with source := some (.bitcoinCoreRpc "http://127.0.0.1:8332") }, [], none⟩

/-- the second block comes two and a half hours after the first, the third one bears an earlier time -/
def lateBlocks : List BlockObservation := [feedBlock 100 "aa" 0, feedBlock 101 "bb" 9000, feedBlock 102 "cc" 8400]

def intervalEngine : DetectorEngine := new [.longBlockInterval LongBlockIntervalDetector.default]

def noDraw : Fresh := ⟨0, 0, 0⟩

/-- one alert for the late block, none for the early timestamp, on both paths -/
theorem live_replay_intervals_agree_lateBlocks :
    (alerts (liveEvents (fun _ => 7) (fun _ => "") intervalEngine (fun _ _ => noDraw) lateBlocks)).tail.map
        (fun as => as.map fun a => a.severity) = [[.critical], []] ∧
      (alerts (liveEvents (fun _ => 7) (fun _ => "") intervalEngine (fun _ _ => noDraw) lateBlocks)).tail =
        (alerts (replayEvents (fun _ => 7) (fun _ => "") 1 "mainnet" intervalEngine (fun _ _ _ => noDraw) none
          (lateBlocks.map nodeBlock))).tail := by
  have hpos : PositiveThresholds intervalEngine.detectors := by
    intro l hl
    cases List.mem_singleton.1 hl
    decide
  have hsame : List.Forall₂ (fun b f => SameHeader b f.observation) lateBlocks (lateBlocks.map nodeBlock) := by
    rw [List.forall₂_map_right_iff, List.forall₂_same]
    exact fun _ _ => ⟨rfl, rfl, rfl⟩
  exact ⟨by decide +kernel, live_replay_intervals_agree _ _ _ _ _ _ _ _ _ _ rfl hpos (by decide) (by decide) hsame⟩

end DetectorEngine

end ObsChain
