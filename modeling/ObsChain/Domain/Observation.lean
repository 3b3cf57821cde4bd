/-
Observations, as `obschain-core` defines them (`source.rs`, `observation.rs`), and the plain values they carry.

Conventions, used in every module:
- satoshis, heights, counters and sizes are naturals; the Rust types are u64, u32 and usize;
- a `DateTime` is a count of nanoseconds since the Unix epoch; wall-clock readings (`Utc::now`) are inputs;
- a `Uuid` is its 128 bits; random ids (`Uuid::new_v4`) are inputs;
- an f64 is an exact rational;
- txids and scripts are hex text, so `toLowercase` lowers the ASCII letters.
Not modelled: `BlockObservation.difficulty`, which nothing reads.
-/
import Mathlib.Tactic

namespace ObsChain

abbrev Uuid := BitVec 128

/-- nanoseconds since the Unix epoch -/
abbrev DateTime := ℤ

/-- `DateTime::from_timestamp(secs, 0)` -/
def fromTimestamp (secs : ℤ) : DateTime := secs * 1000000000

/-- `signed_duration_since(..).num_seconds()`: whole seconds, truncated toward zero -/
def secondsSince (t p : DateTime) : ℤ := (t - p).tdiv 1000000000

/-- `str::to_lowercase` on hex text -/
def toLowercase (s : String) : String := String.ofList (s.toList.map Char.toLower)

/-- `str::starts_with` -/
def hasPrefix (p s : String) : Bool := p.toList.isPrefixOf s.toList

/-- a `serde_json::Number` -/
inductive Number where
  | posInt (n : ℕ)
  | negInt (i : ℤ)
  | float (q : ℚ)
deriving DecidableEq, Repr

/-- a `serde_json::Value` -/
inductive Value where
  | null
  | bool (b : Bool)
  | number (n : Number)
  | string (s : String)
  | array (l : List Value)
  | object (fields : List (String × Value))
deriving Repr

/-- the JSON of an unsigned integer -/
def Value.nat (n : ℕ) : Value := .number (.posInt n)

/-- the JSON of an optional unsigned integer -/
def Value.optNat : Option ℕ → Value
  | none => .null
  | some n => .nat n

/-! ## `source.rs` -/

structure ObservationSource where
  provider : String
  transport : String
  endpoint : Option String
deriving DecidableEq, Repr

namespace ObservationSource

def mempoolWs (endpoint : String) : ObservationSource := ⟨"mempool.space", "websocket", some endpoint⟩

def bitcoinCoreRpc (endpoint : String) : ObservationSource := ⟨"bitcoin_core", "rpc", some endpoint⟩

def bitcoinCoreZmq (endpoint : String) : ObservationSource := ⟨"bitcoin_core", "zmq", some endpoint⟩

end ObservationSource

inductive SourceHealthState where
  | connected
  | connecting
  | syncing
  | degraded
  | disconnected
  | notConfigured
deriving DecidableEq, Repr

structure ObservationWitness where
  source : ObservationSource
  observedAt : DateTime
  metadata : Option Value
deriving Repr

/-! ## `observation.rs` -/

structure BlockObservation where
  blockHash : String
  height : ℕ
  timestamp : DateTime
  previousBlockHash : String
  txCount : ℕ
  sizeBytes : ℕ
  weight : ℕ
  minerTag : Option String
  intervalSeconds : Option ℕ
  source : Option ObservationSource
deriving DecidableEq, Repr

structure SpentOutputContext where
  txid : String
  vout : ℕ
  valueSats : ℕ
  confirmedHeight : Option ℕ
  confirmedAt : Option DateTime
deriving DecidableEq, Repr

structure TxInputObservation where
  txid : String
  vout : ℕ
  sequence : ℕ
  prevOutValueSats : Option ℕ
  prevOutAddress : Option String
  isCoinbase : Bool
  historicalUtxo : Option SpentOutputContext
deriving DecidableEq, Repr

structure TxOutputObservation where
  valueSats : ℕ
  n : ℕ
  scriptPubkeyType : Option String
  address : Option String
  scriptpubkeyHex : Option String
deriving DecidableEq, Repr

def TxOutputObservation.isOpReturn (out : TxOutputObservation) : Bool :=
  out.scriptPubkeyType == some "op_return" ||
    match out.scriptpubkeyHex with
    | none => false
    | some s => hasPrefix "6a" s || hasPrefix "6A" s

structure TransactionObservation where
  txid : String
  timestamp : DateTime
  blockHash : Option String
  blockHeight : Option ℕ
  feeSats : ℕ
  size : ℕ
  weight : ℕ
  vsize : ℕ
  feeRateSatVb : Option ℚ
  totalInputSats : ℕ
  totalOutputSats : ℕ
  inputCount : ℕ
  outputCount : ℕ
  inputs : List TxInputObservation
  outputs : List TxOutputObservation
  isRbf : Bool
  confirmed : Bool
  source : Option ObservationSource
deriving DecidableEq, Repr

structure MempoolObservation where
  count : ℕ
  vsizeBytes : ℕ
  totalFeeSats : ℕ
  minFeeRateSatVb : Option ℚ
  timestamp : DateTime
  source : Option ObservationSource
deriving DecidableEq, Repr

structure TransactionReplacement where
  replacedTxids : List String
  replacementTxid : String
  oldFeeSats : ℕ
  newFeeSats : ℕ
  feeDeltaSats : ℤ
  oldVsize : Option ℕ
  newVsize : Option ℕ
  oldFeeRateSatVb : Option ℚ
  newFeeRateSatVb : Option ℚ
  observedAt : DateTime
  source : Option ObservationSource
deriving DecidableEq, Repr

structure ReorgObservation where
  oldTipHash : String
  oldTipHeight : ℕ
  newTipHash : String
  newTipHeight : ℕ
  commonAncestorHash : Option String
  depth : ℕ
  disconnectedBlocks : List String
  connectedBlocks : List String
  observedAt : DateTime
  source : Option ObservationSource
deriving DecidableEq, Repr

/-- what the ingest sources send to the detectors -/
inductive Observation where
  | block (b : BlockObservation)
  | transaction (t : TransactionObservation)
  | mempool (m : MempoolObservation)
  | replacement (r : TransactionReplacement)
  | reorg (r : ReorgObservation)
deriving DecidableEq, Repr

namespace Observation

def source : Observation → Option ObservationSource
  | .block b => b.source
  | .transaction t => t.source
  | .mempool m => m.source
  | .replacement r => r.source
  | .reorg r => r.source

def timestamp : Observation → DateTime
  | .block b => b.timestamp
  | .transaction t => t.timestamp
  | .mempool m => m.timestamp
  | .replacement r => r.observedAt
  | .reorg r => r.observedAt

end Observation

end ObsChain
