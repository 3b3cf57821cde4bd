/-
`process_block` put together (`historical_replay.rs`): the machine of `Machine` with the enrichment of `Enrichment` and
the detection of `DetectorEngine`, on the detectors `main.rs` registers.

Outside the program are the node (`Node`: its blocks, its answers to `getrawtransaction`, and two limits of Bitcoin: a
height is a 32-bit signed number, and a block weighs at most 4,000,000 units) and the process (`Host`: random ids, clock
readings, the walk of a `HashMap`). Both may differ from one `process_block` call to the next, so the engine's memory
counts the calls.

- `replayChain`: the node's chain, as the machine reads it.
- `length_detectBlock_le`: how many events a block can have.
-/
import Mathlib.Tactic
import ObsChain.Detect.Engine
import ObsChain.Replay.Enrichment
import ObsChain.Replay.Machine

namespace ObsChain.Replay

/-- the node behind the RPC client -/
structure Node where
  capabilities : BitcoinNodeCapabilities
  block : ℕ → BtcBlock
  /-- the number of bytes of the raw block -/
  rawSize : ℕ → ℕ
  rpcUrl : String
  /-- the answers during the n-th `process_block` call -/
  rpc : ℕ → ℕ → String → Except BitcoinRpcError GetRawTransactionVerboseResult
  blocks_lt : capabilities.blocks < 2 ^ 31
  txdata_le : ∀ height, (block height).txdata.length ≤ 4000000

/-- the process the engine runs in, during its n-th `process_block` call -/
structure Host where
  draws : ℕ → ℕ → ℕ → Fresh
  walk : ℕ → List CachedTx → List CachedTx
  walk_perm : ∀ n txs, (walk n txs).Perm txs
  newV5 : String → Uuid
  rfc3339 : DateTime → String

/-- what the replay engine keeps from block to block -/
structure EngineMemory where
  txCache : HistoricalTxCache
  detectorEngine : DetectorEngine
  calls : ℕ

/-- the detectors of the daemon and of the replay command, in their order -/
def registeredDetectors (largeTx : LargeTransactionDetector) (longInterval : LongBlockIntervalDetector)
    (dormant : DormantCoinDetector) (consolidation : ConsolidationDetector) (fanout : FanOutDetector)
    (extremeFee : ExtremeFeeDetector) : List Detector :=
  [.largeTransaction largeTx, .longBlockInterval longInterval, .dormantCoin dormant, .consolidation consolidation,
    .fanOut fanout, .extremeFee extremeFee, .rbf, .reorg]

section

variable (node : Node) (host : Host) (job : ReplayJob)

def blockCall (calls height : ℕ) : BlockCall where
  height := height
  block := node.block height
  rpcUrl := node.rpcUrl
  rpc := node.rpc calls
  walk := host.walk calls
  walk_perm := host.walk_perm calls

def blockObservation (height : ℕ) (intervalSeconds : Option ℕ) : BlockObservation where
  blockHash := (node.block height).blockHash
  height := height
  timestamp := fromTimestamp (node.block height).time
  previousBlockHash := (node.block height).prevBlockhash
  txCount := (node.block height).txdata.length
  sizeBytes := node.rawSize height
  weight := (node.block height).weight
  minerTag := none
  intervalSeconds := intervalSeconds
  source := some (ObservationSource.bitcoinCoreRpc node.rpcUrl)

/-- steps 4 to 8 of `process_block`: the ids of the events, and the memory afterwards -/
def detectBlock (mem : EngineMemory) (height : ℕ) (intervalSeconds : Option ℕ) : List Uuid × EngineMemory :=
  let enriched := (blockCall node host mem.calls height).enrichBlock mem.txCache
  let obsContext := ObservationContext.historicalReplay job.id height (node.block height).blockHash
    (fromTimestamp (node.block height).time) job.network
  let found := DetectorEngine.replayBlock host.newV5 host.rfc3339 mem.detectorEngine (host.draws mem.calls) obsContext
    (blockObservation node height intervalSeconds) enriched.2
  (found.2.map (·.id), ⟨enriched.1, found.1, mem.calls + 1⟩)

/-- the node's chain, as a job reads it -/
def replayChain : Chain EngineMemory where
  blockTime height := fromTimestamp (node.block height).time
  txCount height := (node.block height).txdata.length
  detect := detectBlock node host job

end

theorem length_enrichTxs (call : BlockCall) (n : ℕ) (cache : HistoricalTxCache) (txs : List BtcTx) :
    (call.enrichTxs n cache txs).2.length = txs.length := by
  induction txs generalizing n cache with
  | nil => rfl
  | cons tx rest ih => simp [BlockCall.enrichTxs, ih]

/-- **The events of a block.** Each detector reports at most once on the block and once on each transaction. -/
theorem length_detectBlock_le (node : Node) (host : Host) (job : ReplayJob) (mem : EngineMemory) (height : ℕ)
    (intervalSeconds : Option ℕ) :
    (detectBlock node host job mem height intervalSeconds).1.length ≤
      ((node.block height).txdata.length + 1) * mem.detectorEngine.detectors.length := by
  have htxs : ((blockCall node host mem.calls height).enrichBlock mem.txCache).2.length =
      (node.block height).txdata.length := length_enrichTxs _ _ _ _
  simp only [detectBlock, List.length_map]
  refine (DetectorEngine.length_replayBlock_le _ _ _ _ _).trans ?_
  rw [htxs]

/-- the detectors stay the same -/
theorem detectors_detectBlock (node : Node) (host : Host) (job : ReplayJob) (mem : EngineMemory) (height : ℕ)
    (intervalSeconds : Option ℕ) :
    (detectBlock node host job mem height intervalSeconds).2.detectorEngine.detectors = mem.detectorEngine.detectors :=
  DetectorEngine.detectors_replayBlock _ _ _ _ _

end ObsChain.Replay
