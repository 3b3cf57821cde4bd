/-
The Bitcoin Core coordinator (`bitcoin_coordinator.rs`): tip tracking, reorganization detection and gap reconciliation.

MODEL. The state is the coordinator's: the tip hash and tip height (two separately written cells), the published status
and the telemetry counters. Each method is a function of the state and of what the operation gets from outside (`Env`:
the node's answers, the clock, the block deserializer), and returns the new state with the observations it sent, in
order. Sending ignores its result in the source, so a closed channel changes no state.

Operations (`Op`): `initializeCoordinator`, a raw block from the ZMQ subscriber (`rawBlock`, which parses and then runs
`processZmqBlock`), `investigateChainTips` (a disconnect notification), `handleSequenceGap`, and the periodic
`reconcileTipAndGap`. `run` executes any list of them.

Results live in `ReorgSoundness`, `GapReconciliation` and `TipCoherence`.
-/
import Mathlib.Tactic
import ObsChain.Core.Trace
import ObsChain.Ingest.BitcoinRpc
import ObsChain.Ingest.BitcoinZmq

namespace ObsChain.Coordinator

/-! ## State -/

structure Config where
  reconcileMaxBlocks : ℕ
  /-- the RPC client's expected network -/
  expectedNetwork : Option String
  /-- the ZMQ subscriber's block endpoint and frame limit -/
  rawblockEndpoint : String
  maxMessageSize : ℕ
deriving DecidableEq, Repr

structure EndpointsStatus where
  rawtx : SourceHealthState
  rawblock : SourceHealthState
  sequence : SourceHealthState
deriving DecidableEq, Repr

structure Status where
  enabled : Bool
  rpcHealth : SourceHealthState
  capabilities : Option BitcoinNodeCapabilities
  zmqStatus : EndpointsStatus
deriving DecidableEq, Repr

structure St where
  lastTipHash : Option String
  lastTipHeight : ℕ
  status : Status
  /-- the subscriber's own topic states -/
  zmq : EndpointsStatus
  reorgsDetected : ℕ
  gapBlocksReconciled : ℕ
  zmqBlocksReceived : ℕ
  zmqSequenceGapsTotal : ℕ
  zmqNotificationsMissedEstimate : ℕ
  rpcRequestsTotal : ℕ
  rpcErrorsTotal : ℕ
deriving DecidableEq, Repr

/-- what one operation gets from outside the program -/
structure Env where
  rpc : Rpc
  now : DateTime
  deserialize : List UInt8 → Except String BtcBlock

def connecting : EndpointsStatus := ⟨.connecting, .connecting, .connecting⟩

/-- `BitcoinCoordinator::new` -/
def new : St where
  lastTipHash := none
  lastTipHeight := 0
  status := ⟨true, .connecting, none, connecting⟩
  zmq := connecting
  reorgsDetected := 0
  gapBlocksReconciled := 0
  zmqBlocksReceived := 0
  zmqSequenceGapsTotal := 0
  zmqNotificationsMissedEstimate := 0
  rpcRequestsTotal := 0
  rpcErrorsTotal := 0

/-! ## Initialization -/

/-- `BitcoinCoordinator::initialize` -/
def initializeCoordinator (cfg : Config) (env : Env) (c : St) :
    St × Except BitcoinRpcError BitcoinNodeCapabilities :=
  let c := { c with rpcRequestsTotal := c.rpcRequestsTotal + 1 }
  match inspectCapabilities cfg.expectedNetwork env.rpc with
  | .error e =>
    ({ c with rpcErrorsTotal := c.rpcErrorsTotal + 1, status := { c.status with rpcHealth := .disconnected } },
      .error e)
  | .ok caps =>
    let rpcHealth := if caps.initialBlockDownload then .syncing else .connected
    -- the height is written before the hash is asked for
    let c := { c with status := { c.status with rpcHealth := rpcHealth, capabilities := some caps },
                      lastTipHeight := caps.blocks }
    match env.rpc.getBlockHash caps.blocks with
    | .ok hash => ({ c with lastTipHash := some hash }, .ok caps)
    | .error _ => (c, .ok caps)

/-! ## Reorganizations -/

/-- the walk of `handle_potential_reorg` down both branches -/
structure Walk where
  currentOld : String
  currentNew : String
  disconnected : List String
  connected : List String
  commonAncestor : Option String
  depth : ℕ
deriving DecidableEq, Repr

/-- the bounded search for a common ancestor; the first argument is the number of iterations left -/
def traceAncestor (rpc : Rpc) : ℕ → Walk → Walk
  | 0, w => w
  | n + 1, w =>
    if w.currentOld = w.currentNew then { w with commonAncestor := some w.currentOld }
    else
      let w := { w with disconnected := w.disconnected ++ [w.currentOld], connected := w.connected ++ [w.currentNew] }
      match rpc.getBlockHeader n w.currentOld, rpc.getBlockHeader n w.currentNew with
      | .ok o, .ok m =>
        match o.previousblockhash, m.previousblockhash with
        | some op, some np => traceAncestor rpc n { w with currentOld := op, currentNew := np, depth := w.depth + 1 }
        | _, _ => w
      | _, _ => w

def handlePotentialReorg (env : Env) (c : St) (oldTipHash newTipHash : String) (newTipHeight : ℕ)
    (newPrevHash : String) : St × Observation :=
  let w := traceAncestor env.rpc 100 {
    currentOld := oldTipHash
    currentNew := newPrevHash
    disconnected := []
    connected := [newTipHash]
    commonAncestor := none
    depth := 1 }
  -- whatever the walk found, the observation is sent
  ({ c with rpcRequestsTotal := c.rpcRequestsTotal + 1, reorgsDetected := c.reorgsDetected + 1 },
    .reorg {
      oldTipHash := oldTipHash
      oldTipHeight := c.lastTipHeight
      newTipHash := newTipHash
      newTipHeight := newTipHeight
      commonAncestorHash := w.commonAncestor
      depth := w.depth
      disconnectedBlocks := w.disconnected
      connectedBlocks := w.connected
      observedAt := env.now
      source := some (ObservationSource.bitcoinCoreZmq "zmq:sequence") })

/-- the tip moves to `block`, which is sent with its transactions -/
def acceptBlock (c : St) (block : BlockObservation) (transactions : List TransactionObservation) :
    St × List Observation :=
  ({ c with lastTipHash := some block.blockHash, lastTipHeight := block.height },
    .block block :: transactions.map .transaction)

def processZmqBlock (env : Env) (c : St) (block : BlockObservation) (transactions : List TransactionObservation) :
    St × List Observation :=
  match c.lastTipHash with
  | some expectedPrev =>
    if block.previousBlockHash = expectedPrev then acceptBlock c block transactions
    else
      let r := handlePotentialReorg env c expectedPrev block.blockHash block.height block.previousBlockHash
      let a := acceptBlock r.1 block transactions
      (a.1, r.2 :: a.2)
  | none => acceptBlock c block transactions

/-- a `rawblock` notification: the subscriber parses it and the coordinator processes what it accepts -/
def rawBlock (cfg : Config) (env : Env) (c : St) (payload : List UInt8) : St × List Observation :=
  match parseRawBlock env.deserialize payload (some cfg.rawblockEndpoint) cfg.maxMessageSize with
  | .error _ => (c, [])
  | .ok (block, transactions) =>
    processZmqBlock env { c with zmqBlocksReceived := c.zmqBlocksReceived + 1 } block transactions

def investigateChainTips (env : Env) (c : St) : St × List Observation :=
  let c := { c with rpcRequestsTotal := c.rpcRequestsTotal + 1 }
  match env.rpc.getChainTips with
  | .error _ => ({ c with rpcErrorsTotal := c.rpcErrorsTotal + 1 }, [])
  | .ok tips =>
    match tips.find? (fun t => t.status == "active"), c.lastTipHash with
    | some active, some last =>
      if last ≠ active.hash then
        let r := handlePotentialReorg env c last active.hash active.height ""
        ({ r.1 with lastTipHash := some active.hash, lastTipHeight := active.height }, [r.2])
      else (c, [])
    | _, _ => (c, [])

/-! ## Gap reconciliation -/

/-- the raw block at a height, fetched, hex-decoded and parsed -/
def fetchBlock (env : Env) (height : ℕ) (hash : String) : Option (BlockObservation × List TransactionObservation) :=
  match env.rpc.getBlockRawHex height hash with
  | .error _ => none
  | .ok hexStr =>
    match fromHex hexStr with
    | none => none
    | some bytes =>
      match parseRawBlock env.deserialize bytes (some "rpc:gap_reconciliation") (16 * 1024 * 1024) with
      | .error _ => none
      | .ok r => some r

/-- one height of the reconciliation loop: the tip moves as soon as the hash is known -/
def reconcileHeight (env : Env) (acc : St × List Observation) (height : ℕ) : St × List Observation :=
  let c := { acc.1 with rpcRequestsTotal := acc.1.rpcRequestsTotal + 1 }
  match env.rpc.getBlockHash height with
  | .error _ => (c, acc.2)
  | .ok hash =>
    let r : St × List Observation := match fetchBlock env height hash with
      | none => (c, [])
      | some (blockObs, txs) =>
        ({ c with gapBlocksReconciled := c.gapBlocksReconciled + 1 },
          .block { blockObs with height := height } ::
            txs.map fun tx => .transaction { tx with blockHeight := some height, blockHash := some hash })
    ({ r.1 with lastTipHash := some hash, lastTipHeight := height }, acc.2 ++ r.2)

/-- the node's progress, published in the status -/
def pollStatus (st : Status) (info : GetBlockchainInfoResult) : Status :=
  { st with
    rpcHealth := if info.initialblockdownload then .syncing else .connected
    capabilities := st.capabilities.map fun caps =>
      { caps with
        blocks := info.blocks
        headers := info.headers
        verificationProgress := info.verificationprogress
        initialBlockDownload := info.initialblockdownload } }

def reconcileTipAndGap (cfg : Config) (env : Env) (c : St) : St × List Observation :=
  let c := { c with rpcRequestsTotal := c.rpcRequestsTotal + 1 }
  match env.rpc.getBlockchainInfo with
  | .error _ =>
    ({ c with rpcErrorsTotal := c.rpcErrorsTotal + 1, status := { c.status with rpcHealth := .disconnected } }, [])
  | .ok info =>
    let c := { c with status := pollStatus c.status info }
    if info.blocks > c.lastTipHeight ∧ c.lastTipHeight > 0 then
      let gap := info.blocks - c.lastTipHeight
      if gap ≤ cfg.reconcileMaxBlocks then
        (List.range' (c.lastTipHeight + 1) gap).foldl (reconcileHeight env) (c, [])
      else
        -- large gap: the height is written before the hash is asked for
        let c := { c with lastTipHeight := info.blocks }
        match env.rpc.getBlockHash info.blocks with
        | .ok hash => ({ c with lastTipHash := some hash }, [])
        | .error _ => (c, [])
    else (c, [])

def EndpointsStatus.set (st : EndpointsStatus) (topic : BitcoinZmqTopic) (state : SourceHealthState) :
    EndpointsStatus :=
  match topic with
  | .rawTx => { st with rawtx := state }
  | .rawBlock => { st with rawblock := state }
  | .sequence => { st with sequence := state }

def handleSequenceGap (cfg : Config) (env : Env) (c : St) (topic : BitcoinZmqTopic) (missed : ℕ) :
    St × List Observation :=
  let c := { c with
    zmqSequenceGapsTotal := c.zmqSequenceGapsTotal + 1
    zmqNotificationsMissedEstimate := c.zmqNotificationsMissedEstimate + missed
    zmq := c.zmq.set topic .degraded
    status := { c.status with zmqStatus := c.status.zmqStatus.set topic .degraded } }
  match topic with
  | .rawBlock | .sequence => reconcileTipAndGap cfg env c
  -- the mempool is only refreshed in the log
  | .rawTx => (c, [])

/-! ## Runs -/

inductive Op where
  | initializeCoordinator (env : Env)
  | rawBlock (env : Env) (payload : List UInt8)
  | investigateChainTips (env : Env)
  | handleSequenceGap (env : Env) (topic : BitcoinZmqTopic) (missed : ℕ)
  | reconcileTipAndGap (env : Env)

def Op.env : Op → Env
  | .initializeCoordinator env | .rawBlock env _ | .investigateChainTips env | .handleSequenceGap env _ _
  | .reconcileTipAndGap env => env

def step (cfg : Config) (c : St) : Op → St
  | .initializeCoordinator env => (initializeCoordinator cfg env c).1
  | .rawBlock env payload => (rawBlock cfg env c payload).1
  | .investigateChainTips env => (investigateChainTips env c).1
  | .handleSequenceGap env topic missed => (handleSequenceGap cfg env c topic missed).1
  | .reconcileTipAndGap env => (reconcileTipAndGap cfg env c).1

end ObsChain.Coordinator
