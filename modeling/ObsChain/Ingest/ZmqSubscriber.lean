/-
The ZMQ subscriber and its consumer (`run_topic_loop` of `bitcoin_zmq.rs`, the message loop of `start` in
`bitcoin_coordinator.rs`).

MODEL. Up to three topic loops run beside the coordinator. Each loop connects, subscribes, and then receives multipart
messages until the socket fails; it sleeps before it connects again. What it parses it sends over one bounded channel, from
which the coordinator takes. The tasks share two things, the channel and the subscriber's topic states, and each task touches
one of them at a time. So a step (`Ev`) is one turn of one task between two such accesses, and a run is any list of them.

The socket, the clock and the node's answers come with the step. The coordinator handles a message in one step: while it does,
the other tasks see only the topic state it writes.

`History` is kept beside the state and read by no step: what each loop received in each connection, and what the coordinator
took.

Results live in `ZmqDelivery`, `ZmqLosses` and `ZmqHealth`.
-/
import Mathlib.Tactic
import ObsChain.Core.Backoff
import ObsChain.Core.Trace
import ObsChain.Ingest.BitcoinCoordinator
import ObsChain.Ingest.SequenceTracker
import ObsChain.Ingest.SequenceWire

namespace ObsChain

/-! ## Configuration and messages -/

structure BitcoinZmqConfig where
  rawtxEndpoint : Option String
  rawblockEndpoint : Option String
  sequenceEndpoint : Option String
  maxMessageSize : ℕ
  initialReconnectMs : ℕ
  maxReconnectMs : ℕ
deriving DecidableEq, Repr

namespace BitcoinZmqConfig

def endpoint (cfg : BitcoinZmqConfig) : BitcoinZmqTopic → Option String
  | .rawTx => cfg.rawtxEndpoint
  | .rawBlock => cfg.rawblockEndpoint
  | .sequence => cfg.sequenceEndpoint

/-- `BitcoinZmqConfig::default` -/
def default : BitcoinZmqConfig where
  rawtxEndpoint := some "tcp://127.0.0.1:28332"
  rawblockEndpoint := some "tcp://127.0.0.1:28333"
  sequenceEndpoint := some "tcp://127.0.0.1:28334"
  maxMessageSize := 16 * 1024 * 1024
  initialReconnectMs := 500
  maxReconnectMs := 10000

end BitcoinZmqConfig

inductive BitcoinZmqMessage where
  | rawBlock (block : BlockObservation) (transactions : List TransactionObservation) (zmqSequence : UInt32)
  | rawTx (transaction : TransactionObservation) (zmqSequence : UInt32)
  | sequence (event : BitcoinSequenceEvent)
  | sequenceGap (topic : BitcoinZmqTopic) (previous current missed : UInt32)

namespace BitcoinZmqMessage

/-- the topic it came in on -/
def topic : BitcoinZmqMessage → BitcoinZmqTopic
  | rawBlock _ _ _ => .rawBlock
  | rawTx _ _ => .rawTx
  | sequence _ => .sequence
  | sequenceGap topic _ _ _ => topic

def isGap : BitcoinZmqMessage → Bool
  | sequenceGap _ _ _ _ => true
  | _ => false

def isRawTx : BitcoinZmqMessage → Bool
  | rawTx _ _ => true
  | _ => false

/-- the notifications it reports as missed -/
def missedCount : BitcoinZmqMessage → ℕ
  | sequenceGap _ _ _ missed => missed.toNat
  | _ => 0

end BitcoinZmqMessage

/-- the two deserializers of the `bitcoin` crate -/
structure BitcoinCrate where
  deserializeTx : List UInt8 → Except String BtcTx
  deserializeBlock : List UInt8 → Except String BtcBlock

/-- an unconfirmed transaction: no block, and the size of the payload -/
def parseRawTx (deserialize : List UInt8 → Except String BtcTx) (now : DateTime) (payload : List UInt8)
    (sourceEndpoint : Option String) (maxSize : ℕ) : Except BitcoinZmqError TransactionObservation :=
  if payload.length > maxSize then .error (.payloadTooLarge payload.length maxSize)
  else
    match deserialize payload with
    | .error e => .error (.deserialization e)
    | .ok tx =>
      let source := ObservationSource.bitcoinCoreZmq (sourceEndpoint.getD "zmq:rawtx")
      .ok { tx.observe now "" 0 source with
        blockHash := none
        blockHeight := none
        size := payload.length
        confirmed := false }

namespace ZmqSubscriber

open SequenceWire

/-! ## One multipart message -/

/-- the frames of a multipart message, and the clock when it is handled -/
structure Received where
  frames : List (List UInt8)
  now : DateTime
deriving DecidableEq, Repr

/-- what a loop knows: its topic and endpoint, the frame limit and the deserializers -/
structure LoopCfg where
  topic : BitcoinZmqTopic
  endpoint : String
  maxMessageSize : ℕ
  crate : BitcoinCrate

/-- the message of a gap -/
def gapMessage (topic : BitcoinZmqTopic) : SequenceCheckResult → List BitcoinZmqMessage
  | .gap previous current missed => [.sequenceGap topic previous current missed]
  | _ => []

/-- the parsed payload, nothing if it is rejected -/
def payloadMessage (cfg : LoopCfg) (now : DateTime) (payload : List UInt8) (zmqSequence : UInt32) : List BitcoinZmqMessage :=
  match cfg.topic with
  | .rawTx =>
    match parseRawTx cfg.crate.deserializeTx now payload (some cfg.endpoint) cfg.maxMessageSize with
    | .ok txObs => [.rawTx txObs zmqSequence]
    | .error _ => []
  | .rawBlock =>
    match parseRawBlock cfg.crate.deserializeBlock payload (some cfg.endpoint) cfg.maxMessageSize with
    | .ok (blockObs, txs) => [.rawBlock blockObs txs zmqSequence]
    | .error _ => []
  | .sequence =>
    match parseSequenceEvent payload zmqSequence with
    | .ok seqEvent => [.sequence seqEvent]
    | .error _ => []

/-- the number and the payload of a well-formed multipart message -/
def extract (cfg : LoopCfg) (received : Received) : Option (List UInt8 × UInt32) :=
  match validateAndExtractMultipart received.frames cfg.topic with
  | .ok res => some res
  | .error _ => none

/-- the tracker after a multipart message, what it says of its number, and the messages to send in order -/
def receive (cfg : LoopCfg) (tracker : ZmqSequenceTracker) (received : Received) :
    ZmqSequenceTracker × List BitcoinZmqMessage :=
  match extract cfg received with
  -- malformed: dropped before its number is looked at
  | none => (tracker, [])
  | some (payload, zmqSeq) =>
    let (tracker, result) := tracker.observe zmqSeq
    (tracker, gapMessage cfg.topic result ++ payloadMessage cfg received.now payload zmqSeq)

/-! ## State -/

/-- where a topic loop stands -/
inductive Phase where
  /-- spawned, not yet run -/
  | starting
  /-- in `connect` or `subscribe` -/
  | connecting
  /-- in `recv` -/
  | receiving (tracker : ZmqSequenceTracker)
  /-- in `send`, with what is left to send of the last multipart message -/
  | sending (tracker : ZmqSequenceTracker) (pending : List BitcoinZmqMessage)
  | sleeping (delay : ℕ)
  /-- the channel was closed and the task has returned -/
  | stopped

structure Loop where
  phase : Phase
  backoff : ℕ

/-- what happened to a topic: its connections but the last one, the last one, and the sleeps since it was made -/
structure History where
  earlier : List (List Received)
  session : List Received
  failures : ℕ

structure Sys where
  /-- the loops of the configured topics -/
  loops : BitcoinZmqTopic → Option Loop
  /-- sent and not yet taken -/
  channel : List BitcoinZmqMessage
  /-- the message loop runs -/
  receiving : Bool
  /-- the polling task runs -/
  polling : Bool
  /-- the coordinator, with the subscriber's topic states in `zmq` -/
  coord : Coordinator.St
  zmqTransactionsReceived : ℕ
  /-- observations sent downstream -/
  observations : List Observation
  history : BitcoinZmqTopic → History
  taken : List BitcoinZmqMessage

/-- the capacity of the channel -/
def channelCapacity : ℕ := 2048

structure SysCfg where
  zmq : BitcoinZmqConfig
  coordinator : Coordinator.Config
  crate : BitcoinCrate

def SysCfg.loop (cfg : SysCfg) (topic : BitcoinZmqTopic) (endpoint : String) : LoopCfg :=
  ⟨topic, endpoint, cfg.zmq.maxMessageSize, cfg.crate⟩

/-- `BitcoinZmqSubscriber::new`, the state of one topic -/
def newStatus : Option String → SourceHealthState
  | some _ => .disconnected
  | none => .notConfigured

/-- `BitcoinCoordinator::new` and `start`: the tasks are spawned, none has run -/
def init (cfg : SysCfg) : Sys where
  loops topic := (cfg.zmq.endpoint topic).map fun _ => ⟨.starting, cfg.zmq.initialReconnectMs⟩
  channel := []
  receiving := true
  polling := true
  coord := { Coordinator.new with
    zmq := ⟨newStatus cfg.zmq.rawtxEndpoint, newStatus cfg.zmq.rawblockEndpoint, newStatus cfg.zmq.sequenceEndpoint⟩ }
  zmqTransactionsReceived := 0
  observations := []
  history _ := ⟨[], [], 0⟩
  taken := []

/-! ## The topic loops -/

inductive ConnectOutcome where
  | refused
  | notSubscribed
  | subscribed
deriving DecidableEq, Repr

def Sys.setLoop (s : Sys) (topic : BitcoinZmqTopic) (loop : Loop) : Sys :=
  { s with loops := Function.update s.loops topic (some loop) }

def Sys.setHistory (s : Sys) (topic : BitcoinZmqTopic) (h : History) : Sys :=
  { s with history := Function.update s.history topic h }

/-- `set_topic_status` -/
def Sys.setTopicStatus (s : Sys) (topic : BitcoinZmqTopic) (state : SourceHealthState) : Sys :=
  { s with coord := { s.coord with zmq := s.coord.zmq.set topic state } }

/-- the top of the loop -/
def wake (s : Sys) (topic : BitcoinZmqTopic) (loop : Loop) : Sys :=
  (s.setTopicStatus topic .connecting).setLoop topic { loop with phase := .connecting }

/-- the connection failed or was interrupted: sleep, and double the backoff up to its maximum -/
def disconnect (cfg : SysCfg) (s : Sys) (topic : BitcoinZmqTopic) (backoff : ℕ) : Sys :=
  let h := s.history topic
  ((s.setTopicStatus topic .disconnected).setLoop topic
    ⟨.sleeping backoff, Backoff.grow 2 cfg.zmq.maxReconnectMs backoff⟩).setHistory topic
      { h with failures := h.failures + 1 }

def connect (cfg : SysCfg) (s : Sys) (topic : BitcoinZmqTopic) (loop : Loop) : ConnectOutcome → Sys
  | .refused | .notSubscribed => disconnect cfg s topic loop.backoff
  | .subscribed =>
    let h := s.history topic
    ((s.setTopicStatus topic .connected).setLoop topic ⟨.receiving .new, cfg.zmq.initialReconnectMs⟩).setHistory topic
      ⟨h.earlier ++ [h.session], [], 0⟩

/-- the phase once a multipart message is handled down to the messages left to send -/
def Phase.after (tracker : ZmqSequenceTracker) : List BitcoinZmqMessage → Phase
  | [] => .receiving tracker
  | m :: pending => .sending tracker (m :: pending)

/-- a multipart message; on a gap the topic is marked before the first message is sent -/
def recv (cfg : SysCfg) (s : Sys) (topic : BitcoinZmqTopic) (endpoint : String) (loop : Loop) (tracker : ZmqSequenceTracker)
    (received : Received) : Sys :=
  let (tracker, messages) := receive (cfg.loop topic endpoint) tracker received
  let h := s.history topic
  let s := if messages.any (·.isGap) then s.setTopicStatus topic .degraded else s
  (s.setLoop topic { loop with phase := .after tracker messages }).setHistory topic
    { h with session := h.session ++ [received] }

/-- one message: an error once the receiver is gone, a wait while the channel is full -/
def send (s : Sys) (topic : BitcoinZmqTopic) (loop : Loop) (tracker : ZmqSequenceTracker) (m : BitcoinZmqMessage)
    (pending : List BitcoinZmqMessage) : Sys :=
  if ¬ s.receiving then s.setLoop topic { loop with phase := .stopped }
  else if s.channel.length < channelCapacity then
    { s with channel := s.channel ++ [m] }.setLoop topic { loop with phase := .after tracker pending }
  else s

/-! ## The coordinator's tasks -/

/-- one message of the coordinator's loop -/
def handleMessage (cfg : Coordinator.Config) (env : Coordinator.Env) (c : Coordinator.St) :
    BitcoinZmqMessage → Coordinator.St × List Observation
  | .rawTx transaction _ => (c, [.transaction transaction])
  | .rawBlock block transactions _ =>
    Coordinator.processZmqBlock env { c with zmqBlocksReceived := c.zmqBlocksReceived + 1 } block transactions
  | .sequence (.blockDisconnected _ _) => Coordinator.investigateChainTips env c
  | .sequence _ => (c, [])
  | .sequenceGap topic _ _ missed => Coordinator.handleSequenceGap cfg env c topic missed.toNat

/-- the next message; `downstream` says whether the observation channel is open. A transaction that cannot be sent on ends
the loop, the other results of sending are ignored -/
def take (cfg : SysCfg) (env : Coordinator.Env) (downstream : Bool) (s : Sys) : Sys :=
  match s.channel with
  | [] =>
    -- every sender is gone only where no topic is configured
    if [BitcoinZmqTopic.rawTx, .rawBlock, .sequence].all (fun t => (s.loops t).isNone) then { s with receiving := false } else s
  | m :: rest =>
    let r := handleMessage cfg.coordinator env s.coord m
    { s with
      channel := rest
      receiving := downstream || !m.isRawTx
      coord := r.1
      zmqTransactionsReceived := s.zmqTransactionsReceived + if m.isRawTx then 1 else 0
      observations := if downstream then s.observations ++ r.2 else s.observations
      taken := s.taken ++ [m] }

/-- the periodic reconciliation -/
def poll (cfg : SysCfg) (env : Coordinator.Env) (s : Sys) : Sys :=
  let r := Coordinator.reconcileTipAndGap cfg.coordinator env s.coord
  { s with coord := r.1, observations := s.observations ++ r.2 }

/-! ## Runs -/

inductive Ev where
  | wake (topic : BitcoinZmqTopic)
  | connect (topic : BitcoinZmqTopic) (outcome : ConnectOutcome)
  | recv (topic : BitcoinZmqTopic) (received : Received)
  | recvError (topic : BitcoinZmqTopic)
  | send (topic : BitcoinZmqTopic)
  | take (env : Coordinator.Env) (downstream : Bool)
  | poll (env : Coordinator.Env)
  | shutdown

/-- a turn of the loop of one topic; a turn that the loop is not at changes nothing -/
def topicStep (cfg : SysCfg) (s : Sys) (topic : BitcoinZmqTopic) (ev : Ev) : Sys :=
  match s.loops topic, cfg.zmq.endpoint topic with
  | some loop, some endpoint =>
    match loop.phase, ev with
    | .starting, .wake _ | .sleeping _, .wake _ => wake s topic loop
    | .connecting, .connect _ outcome => connect cfg s topic loop outcome
    | .receiving tracker, .recv _ received => recv cfg s topic endpoint loop tracker received
    | .receiving _, .recvError _ => disconnect cfg s topic loop.backoff
    | .sending tracker (m :: pending), .send _ => send s topic loop tracker m pending
    | _, _ => s
  | _, _ => s

def step (cfg : SysCfg) (s : Sys) (ev : Ev) : Sys :=
  match ev with
  | .wake topic | .connect topic _ | .recv topic _ | .recvError topic | .send topic => topicStep cfg s topic ev
  | .take env downstream => if s.receiving then take cfg env downstream s else s
  | .poll env => if s.polling then poll cfg env s else s
  | .shutdown => { s with receiving := false, polling := false }

/-- the state after any turns of the tasks, from the start -/
def run (cfg : SysCfg) (evs : List Ev) : Sys := Trace.run (step cfg) (init cfg) evs

end ZmqSubscriber

end ObsChain
