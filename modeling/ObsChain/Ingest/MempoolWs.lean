/-
The mempool.space WebSocket feed (`mempool_ws.rs`, the transaction of `mempool_types.rs`).

A text frame is JSON for an envelope of optional parts; `parse_ws_frame` turns the parts into observations, in a fixed
order. The JSON text is read by serde_json, which is the parameter `fromStr`; the envelope decodes from its value as
derived `Deserialize` does, from an object by field name or from an array by position, where fields with a default may be
missing. Arithmetic on u64 and casts to i64 wrap, as in a release build. `clock i` is the reading of the clock for the
part at position `i`.

Not modelled: a repeated field, which serde refuses; the connection and its supervisor.
-/
import Mathlib.Tactic
import ObsChain.Detect.Detectors
import ObsChain.Domain.Amount
import ObsChain.Ingest.Enricher

namespace ObsChain

/-! ## serde -/

namespace Value

def asBool : Value → Option Bool
  | .bool b => some b
  | _ => none

/-- an i64 -/
def asI64 : Value → Option ℤ
  | .number (.posInt n) => if n < 2 ^ 63 then some n else none
  | .number (.negInt i) => if -2 ^ 63 ≤ i then some i else none
  | _ => none

/-- an i32 -/
def asI32 (v : Value) : Option ℤ := v.asI64.filter fun i => -2 ^ 31 ≤ i ∧ i < 2 ^ 31

/-- a sequence -/
def asVec {α : Type} (f : Value → Option α) : Value → Option (List α)
  | .array values => values.mapM f
  | _ => none

/-- an optional field: absent or null is `None` -/
def optional {α : Type} (f : Value → Option α) : Option Value → Option (Option α)
  | none => some none
  | some .null => some none
  | some v => (f v).map some

/-- a field with `#[serde(default)]` -/
def defaulted {α : Type} (default : α) (f : Value → Option α) : Option Value → Option α
  | none => some default
  | some v => f v

/-- the fields of a record whose first `least` are not defaulted at the end: an array may stop after them -/
def recordOf (least : ℕ) (names : List String) : Value → Option (String → Option Value)
  | .object fields => some fun name => fields.lookup name
  | .array values =>
    if least ≤ values.length ∧ values.length ≤ names.length then some fun name => values[names.idxOf name]? else none
  | _ => none

end Value

namespace ObservationSource

def mempoolRest (endpoint : String) : ObservationSource := ⟨"mempool.space", "rest", some endpoint⟩

end ObservationSource

namespace MempoolWs

/-! ## The envelope -/

structure MempoolWsBlock where
  id : String
  height : ℕ
  version : Option ℕ
  timestamp : ℤ
  txCount : ℕ
  size : ℕ
  weight : ℕ
  difficulty : Option ℚ
deriving DecidableEq, Repr

def MempoolWsBlock.ofValue (v : Value) : Option MempoolWsBlock := do
  let field ← v.recordOf 8 ["id", "height", "version", "timestamp", "tx_count", "size", "weight", "difficulty"]
  let id ← (field "id").bind Value.asStr
  let height ← (field "height").bind Value.asU64
  let version ← Value.optional Value.asU32 (field "version")
  let timestamp ← (field "timestamp").bind Value.asI64
  let txCount ← (field "tx_count").bind Value.asU64
  let size ← (field "size").bind Value.asU64
  let weight ← Value.defaulted 0 Value.asU64 (field "weight")
  let difficulty ← Value.optional Value.asF64 (field "difficulty")
  return { id, height, version, timestamp, txCount, size, weight, difficulty }

structure MempoolWsInfo where
  size : ℕ
  bytes : ℕ
  totalFee : Option ℚ
deriving DecidableEq, Repr

def MempoolWsInfo.ofValue (v : Value) : Option MempoolWsInfo := do
  let field ← v.recordOf 2 ["size", "bytes", "total_fee"]
  let size ← (field "size").bind Value.asU64
  let bytes ← (field "bytes").bind Value.asU64
  let totalFee ← Value.optional Value.asF64 (field "total_fee")
  return { size, bytes, totalFee }

structure MempoolWsRbfTx where
  txid : String
  replaces : List String
  replacedTxid : Option String
  fee : Option ℕ
  oldFee : Option ℕ
  vsize : Option ℕ
  oldVsize : Option ℕ
  value : Option ℕ
deriving DecidableEq, Repr

def MempoolWsRbfTx.ofValue (v : Value) : Option MempoolWsRbfTx := do
  let field ← v.recordOf 1 ["txid", "replaces", "replaced_txid", "fee", "old_fee", "vsize", "old_vsize", "value"]
  let txid ← (field "txid").bind Value.asStr
  let replaces ← Value.defaulted [] (Value.asVec Value.asStr) (field "replaces")
  let replacedTxid ← Value.optional Value.asStr (field "replaced_txid")
  let fee ← Value.optional Value.asU64 (field "fee")
  let oldFee ← Value.optional Value.asU64 (field "old_fee")
  let vsize ← Value.optional Value.asU64 (field "vsize")
  let oldVsize ← Value.optional Value.asU64 (field "old_vsize")
  let value ← Value.optional Value.asU64 (field "value")
  return { txid, replaces, replacedTxid, fee, oldFee, vsize, oldVsize, value }

structure MempoolTxStatus where
  confirmed : Bool
  blockHeight : Option ℕ
  blockHash : Option String
  blockTime : Option ℤ
deriving DecidableEq, Repr

def MempoolTxStatus.ofValue (v : Value) : Option MempoolTxStatus := do
  let field ← v.recordOf 4 ["confirmed", "block_height", "block_hash", "block_time"]
  let confirmed ← (field "confirmed").bind Value.asBool
  let blockHeight ← Value.optional Value.asU64 (field "block_height")
  let blockHash ← Value.optional Value.asStr (field "block_hash")
  let blockTime ← Value.optional Value.asI64 (field "block_time")
  return { confirmed, blockHeight, blockHash, blockTime }

structure MempoolTxPrevout where
  scriptpubkey : Option String
  scriptpubkeyAsm : Option String
  scriptpubkeyType : Option String
  scriptpubkeyAddress : Option String
  value : ℕ
deriving DecidableEq, Repr

def MempoolTxPrevout.ofValue (v : Value) : Option MempoolTxPrevout := do
  let field ← v.recordOf 4 ["scriptpubkey", "scriptpubkey_asm", "scriptpubkey_type", "scriptpubkey_address", "value"]
  let scriptpubkey ← Value.optional Value.asStr (field "scriptpubkey")
  let scriptpubkeyAsm ← Value.optional Value.asStr (field "scriptpubkey_asm")
  let scriptpubkeyType ← Value.optional Value.asStr (field "scriptpubkey_type")
  let scriptpubkeyAddress ← Value.optional Value.asStr (field "scriptpubkey_address")
  let value ← Value.defaulted 0 Value.asU64 (field "value")
  return { scriptpubkey, scriptpubkeyAsm, scriptpubkeyType, scriptpubkeyAddress, value }

structure MempoolTxVin where
  txid : String
  vout : ℕ
  prevout : Option MempoolTxPrevout
  scriptsig : Option String
  scriptsigAsm : Option String
  witness : Option (List String)
  isCoinbase : Bool
  sequence : ℕ
deriving DecidableEq, Repr

def MempoolTxVin.ofValue (v : Value) : Option MempoolTxVin := do
  let field ← v.recordOf 8 ["txid", "vout", "prevout", "scriptsig", "scriptsig_asm", "witness", "is_coinbase", "sequence"]
  let txid ← (field "txid").bind Value.asStr
  let vout ← (field "vout").bind Value.asU32
  let prevout ← Value.optional MempoolTxPrevout.ofValue (field "prevout")
  let scriptsig ← Value.optional Value.asStr (field "scriptsig")
  let scriptsigAsm ← Value.optional Value.asStr (field "scriptsig_asm")
  let witness ← Value.optional (Value.asVec Value.asStr) (field "witness")
  let isCoinbase ← Value.defaulted false Value.asBool (field "is_coinbase")
  let sequence ← (field "sequence").bind Value.asU32
  return { txid, vout, prevout, scriptsig, scriptsigAsm, witness, isCoinbase, sequence }

structure MempoolTxVout where
  scriptpubkey : Option String
  scriptpubkeyAsm : Option String
  scriptpubkeyType : Option String
  scriptpubkeyAddress : Option String
  value : ℕ
deriving DecidableEq, Repr

def MempoolTxVout.ofValue (v : Value) : Option MempoolTxVout := do
  let field ← v.recordOf 5 ["scriptpubkey", "scriptpubkey_asm", "scriptpubkey_type", "scriptpubkey_address", "value"]
  let scriptpubkey ← Value.optional Value.asStr (field "scriptpubkey")
  let scriptpubkeyAsm ← Value.optional Value.asStr (field "scriptpubkey_asm")
  let scriptpubkeyType ← Value.optional Value.asStr (field "scriptpubkey_type")
  let scriptpubkeyAddress ← Value.optional Value.asStr (field "scriptpubkey_address")
  let value ← (field "value").bind Value.asU64
  return { scriptpubkey, scriptpubkeyAsm, scriptpubkeyType, scriptpubkeyAddress, value }

structure MempoolTx where
  txid : String
  version : ℤ
  locktime : ℕ
  vin : List MempoolTxVin
  vout : List MempoolTxVout
  size : ℕ
  weight : ℕ
  fee : Option ℕ
  status : MempoolTxStatus
deriving DecidableEq, Repr

def MempoolTx.ofValue (v : Value) : Option MempoolTx := do
  let field ← v.recordOf 8 ["txid", "version", "locktime", "vin", "vout", "size", "weight", "fee", "status"]
  let txid ← (field "txid").bind Value.asStr
  let version ← Value.defaulted 0 Value.asI32 (field "version")
  let locktime ← Value.defaulted 0 Value.asU32 (field "locktime")
  let vin ← Value.defaulted [] (Value.asVec MempoolTxVin.ofValue) (field "vin")
  let vout ← Value.defaulted [] (Value.asVec MempoolTxVout.ofValue) (field "vout")
  let size ← Value.defaulted 0 Value.asU64 (field "size")
  let weight ← Value.defaulted 0 Value.asU64 (field "weight")
  let fee ← Value.optional Value.asU64 (field "fee")
  let status ← Value.defaulted ⟨false, none, none, none⟩ MempoolTxStatus.ofValue (field "status")
  return { txid, version, locktime, vin, vout, size, weight, fee, status }

structure MempoolWsEnvelope where
  block : Option MempoolWsBlock
  blocks : Option (List MempoolWsBlock)
  mempoolInfo : Option MempoolWsInfo
  tx : Option MempoolTx
  transactions : Option (List MempoolTx)
  rbfTransaction : Option MempoolWsRbfTx
  rbfTransactions : Option (List MempoolWsRbfTx)
deriving DecidableEq, Repr

def MempoolWsEnvelope.ofValue (v : Value) : Option MempoolWsEnvelope := do
  let field ← v.recordOf 7 ["block", "blocks", "mempoolInfo", "tx", "transactions", "rbfTransaction", "rbfTransactions"]
  let block ← Value.optional MempoolWsBlock.ofValue (field "block")
  let blocks ← Value.optional (Value.asVec MempoolWsBlock.ofValue) (field "blocks")
  let mempoolInfo ← Value.optional MempoolWsInfo.ofValue (field "mempoolInfo")
  let tx ← Value.optional MempoolTx.ofValue (field "tx")
  let transactions ← Value.optional (Value.asVec MempoolTx.ofValue) (field "transactions")
  let rbfTransaction ← Value.optional MempoolWsRbfTx.ofValue (field "rbfTransaction")
  let rbfTransactions ← Value.optional (Value.asVec MempoolWsRbfTx.ofValue) (field "rbfTransactions")
  return { block, blocks, mempoolInfo, tx, transactions, rbfTransaction, rbfTransactions }

/-! ## Amounts and times -/

/-- `safe_btc_f64_to_sats` -/
def safeBtcF64ToSats (btc : ℚ) : Option ℕ :=
  if btc < 0 ∨ btc > 21000000 then none else (btcStrToSats (formatFixed 8 btc)).toOption

/-- `calculate_vsize_from_weight` -/
def calculateVsizeFromWeight (weight : ℕ) : ℕ := (weight + 3) / 4

/-- `as i64` of a u64 -/
def castI64 (n : ℕ) : ℤ := (n : ℤ).bmod (2 ^ 64)

/-- i64 subtraction, wrapping -/
def subI64 (a b : ℤ) : ℤ := (a - b).bmod (2 ^ 64)

/-! ## Observations -/

def MempoolWsBlock.intoObservation (block : MempoolWsBlock) (now : DateTime) (endpoint : String) : BlockObservation where
  blockHash := block.id
  height := block.height
  timestamp := (TransactionEnricher.timestamp block.timestamp).getD now
  previousBlockHash := ""
  txCount := block.txCount
  sizeBytes := block.size
  weight := if block.weight > 0 then block.weight else block.size * 4 % 2 ^ 64
  minerTag := none
  intervalSeconds := none
  source := some (ObservationSource.mempoolWs endpoint)

def MempoolWsInfo.intoObservation (info : MempoolWsInfo) (now : DateTime) (endpoint : String) : MempoolObservation where
  count := info.size
  vsizeBytes := info.bytes
  totalFeeSats := (info.totalFee.bind safeBtcF64ToSats).getD 0
  minFeeRateSatVb := none
  timestamp := now
  source := some (ObservationSource.mempoolWs endpoint)

namespace MempoolWsRbfTx

/-- the list of replaced transactions, or else the single one -/
def replaced (rbf : MempoolWsRbfTx) : List String :=
  if rbf.replaces.isEmpty then rbf.replacedTxid.toList else rbf.replaces

def newFeeSats (rbf : MempoolWsRbfTx) : ℕ := rbf.fee.getD 0

def oldFeeSats (rbf : MempoolWsRbfTx) : ℕ := rbf.oldFee.getD 0

def intoObservation (rbf : MempoolWsRbfTx) (now : DateTime) (endpoint : String) : TransactionReplacement where
  replacedTxids := rbf.replaced
  replacementTxid := rbf.txid
  oldFeeSats := rbf.oldFeeSats
  newFeeSats := rbf.newFeeSats
  feeDeltaSats := subI64 (castI64 rbf.newFeeSats) (castI64 rbf.oldFeeSats)
  oldVsize := rbf.oldVsize
  newVsize := rbf.vsize
  oldFeeRateSatVb := rbf.oldVsize.bind (calculateFeeRateSatVb rbf.oldFeeSats)
  newFeeRateSatVb := rbf.vsize.bind (calculateFeeRateSatVb rbf.newFeeSats)
  observedAt := now
  source := some (ObservationSource.mempoolWs endpoint)

end MempoolWsRbfTx

def MempoolTx.intoObservation (tx : MempoolTx) (now : DateTime) (endpoint : String) : TransactionObservation :=
  let feeSats := tx.fee.getD 0
  let vsize := calculateVsizeFromWeight tx.weight
  let inputs := tx.vin.map fun vin =>
    { txid := vin.txid, vout := vin.vout, sequence := vin.sequence, prevOutValueSats := vin.prevout.map (·.value),
      prevOutAddress := vin.prevout.bind (·.scriptpubkeyAddress), isCoinbase := vin.isCoinbase,
      historicalUtxo := none : TxInputObservation }
  let outputs := tx.vout.mapIdx fun n vout =>
    { valueSats := vout.value, n := n % 2 ^ 32, scriptPubkeyType := vout.scriptpubkeyType,
      address := vout.scriptpubkeyAddress, scriptpubkeyHex := vout.scriptpubkey : TxOutputObservation }
  { txid := tx.txid
    timestamp := (tx.status.blockTime.bind TransactionEnricher.timestamp).getD now
    blockHash := tx.status.blockHash
    blockHeight := tx.status.blockHeight
    feeSats := feeSats
    size := tx.size
    weight := tx.weight
    vsize := vsize
    feeRateSatVb := calculateFeeRateSatVb feeSats vsize
    totalInputSats := (tx.vin.filterMap fun vin => vin.prevout.map (·.value)).foldl saturatingAdd 0
    totalOutputSats := tx.vout.foldl (fun acc vout => saturatingAdd acc vout.value) 0
    inputCount := inputs.length
    outputCount := outputs.length
    inputs := inputs
    outputs := outputs
    isRbf := inputs.any fun inp => decide (inp.sequence < 0xFFFFFFFE)
    confirmed := tx.status.confirmed
    source := some (ObservationSource.mempoolRest endpoint) }

/-- one part of a frame -/
inductive FeedItem where
  | block (b : MempoolWsBlock)
  | info (i : MempoolWsInfo)
  | tx (t : MempoolTx)
  | rbf (r : MempoolWsRbfTx)
deriving DecidableEq, Repr

def FeedItem.intoObservation (now : DateTime) (endpoint : String) : FeedItem → Observation
  | .block b => .block (b.intoObservation now endpoint)
  | .info i => .mempool (i.intoObservation now endpoint)
  | .tx t => .transaction (t.intoObservation now endpoint)
  | .rbf r => .replacement (r.intoObservation now endpoint)

/-- the parts of a frame, in the order they are observed -/
def MempoolWsEnvelope.items (envelope : MempoolWsEnvelope) : List FeedItem :=
  envelope.block.toList.map .block ++ (envelope.blocks.getD []).map .block ++ envelope.mempoolInfo.toList.map .info ++
    envelope.tx.toList.map .tx ++ (envelope.transactions.getD []).map .tx ++ envelope.rbfTransaction.toList.map .rbf ++
    (envelope.rbfTransactions.getD []).map .rbf

section

variable (fromStr : String → Option Value)

/-- `serde_json::from_str` into an envelope -/
def decodeFrame (text : String) : Option MempoolWsEnvelope := (fromStr text).bind MempoolWsEnvelope.ofValue

def parseWsFrame (clock : ℕ → DateTime) (text endpoint : String) : Option (List Observation) :=
  (decodeFrame fromStr text).map fun envelope =>
    envelope.items.mapIdx fun i item => item.intoObservation (clock i) endpoint

end

end MempoolWs

end ObsChain
