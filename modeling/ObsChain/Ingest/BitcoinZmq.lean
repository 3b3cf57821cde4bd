/-
Raw blocks (`bitcoin_zmq.rs`): `parseRawBlock` turns the bytes of a block into the observations the coordinator sends.

`bitcoin::consensus::deserialize` is outside the program. It is the parameter `deserialize`, and `BtcBlock` is what the
code reads off its result. The height is the coinbase's BIP34 height, 0 when there is none.
-/
import Mathlib.Tactic
import ObsChain.Domain.Observation

namespace ObsChain

inductive BitcoinZmqError where
  | payloadTooLarge (size limit : ℕ)
  | malformedMessage (message : String)
  | deserialization (message : String)
  | invalidSequenceTag (tag : ℕ)
  | transport (message : String)
deriving DecidableEq, Repr

inductive BitcoinZmqTopic where
  | rawBlock
  | rawTx
  | sequence
deriving DecidableEq, Repr

/-- an input of a deserialized transaction -/
structure BtcTxIn where
  txid : String
  vout : ℕ
  isNull : Bool
  sequence : ℕ
deriving DecidableEq, Repr

/-- an output of a deserialized transaction, its script classified by the `bitcoin` crate -/
structure BtcTxOut where
  value : ℕ
  scriptHex : String
  scriptType : Option String
  address : Option String
deriving DecidableEq, Repr

structure BtcTx where
  txid : String
  weight : ℕ
  vsize : ℕ
  totalSize : ℕ
  input : List BtcTxIn
  output : List BtcTxOut
deriving DecidableEq, Repr

/-- a deserialized block: its hash, header fields, BIP34 height and transactions -/
structure BtcBlock where
  blockHash : String
  prevBlockhash : String
  time : ℕ
  bip34BlockHeight : Option ℕ
  weight : ℕ
  txdata : List BtcTx
deriving DecidableEq, Repr

/-- u64 `saturating_add` -/
def saturatingAdd (a b : ℕ) : ℕ := min (a + b) (2 ^ 64 - 1)

/-- `calculate_fee_rate_sat_vb` -/
def calculateFeeRateSatVb (feeSats vsize : ℕ) : Option ℚ :=
  if vsize = 0 then none else some (feeSats / (vsize : ℚ))

/-- the observation of one transaction of a raw block -/
def BtcTx.observe (tx : BtcTx) (timestamp : DateTime) (blockHash : String) (height : ℕ)
    (source : ObservationSource) : TransactionObservation :=
  let inputs := tx.input.map fun i =>
    { txid := i.txid, vout := i.vout, sequence := i.sequence, prevOutValueSats := none, prevOutAddress := none,
      isCoinbase := i.isNull, historicalUtxo := none : TxInputObservation }
  let outputs := tx.output.mapIdx fun idx out =>
    { valueSats := out.value, n := idx, scriptPubkeyType := out.scriptType, address := out.address,
      scriptpubkeyHex := some out.scriptHex : TxOutputObservation }
  { txid := tx.txid
    timestamp := timestamp
    blockHash := some blockHash
    blockHeight := some height
    feeSats := 0
    size := tx.totalSize
    weight := tx.weight
    vsize := tx.vsize
    feeRateSatVb := none
    totalInputSats := 0
    totalOutputSats := tx.output.foldl (fun acc out => saturatingAdd acc out.value) 0
    inputCount := inputs.length
    outputCount := outputs.length
    inputs := inputs
    outputs := outputs
    isRbf := tx.input.any fun i => decide (i.sequence < 0xFFFFFFFE)
    confirmed := true
    source := some source }

def parseRawBlock (deserialize : List UInt8 → Except String BtcBlock) (payload : List UInt8)
    (sourceEndpoint : Option String) (maxSize : ℕ) :
    Except BitcoinZmqError (BlockObservation × List TransactionObservation) :=
  if payload.length > maxSize then .error (.payloadTooLarge payload.length maxSize)
  else
    match deserialize payload with
    | .error e => .error (.deserialization e)
    | .ok block =>
      let timestamp := fromTimestamp block.time
      let height := block.bip34BlockHeight.getD 0
      let source := ObservationSource.bitcoinCoreZmq (sourceEndpoint.getD "zmq:rawblock")
      .ok ({ blockHash := block.blockHash
             height := height
             timestamp := timestamp
             previousBlockHash := block.prevBlockhash
             txCount := block.txdata.length
             sizeBytes := payload.length
             weight := block.weight
             minerTag := none
             intervalSeconds := none
             source := some source },
        block.txdata.map fun tx => tx.observe timestamp block.blockHash height source)

/-- what an accepted payload yields: the deserialized block's hash, previous hash and BIP34 height -/
theorem parseRawBlock_ok {deserialize : List UInt8 → Except String BtcBlock} {payload : List UInt8}
    {endpoint : Option String} {maxSize : ℕ} {obs : BlockObservation} {txs : List TransactionObservation}
    (h : parseRawBlock deserialize payload endpoint maxSize = .ok (obs, txs)) :
    ∃ block, deserialize payload = .ok block ∧ obs.blockHash = block.blockHash ∧
      obs.previousBlockHash = block.prevBlockhash ∧ obs.height = block.bip34BlockHeight.getD 0 := by
  unfold parseRawBlock at h
  split_ifs at h with hsize
  cases hd : deserialize payload with
  | error e => simp [hd] at h
  | ok block =>
    simp only [hd, Except.ok.injEq, Prod.mk.injEq] at h
    obtain ⟨rfl, -⟩ := h
    exact ⟨block, rfl, rfl, rfl, rfl⟩

/-- one hex digit, either case -/
def hexDigit (c : Char) : Option ℕ :=
  if '0' ≤ c ∧ c ≤ '9' then some (c.toNat - '0'.toNat)
  else if 'a' ≤ c ∧ c ≤ 'f' then some (c.toNat - 'a'.toNat + 10)
  else if 'A' ≤ c ∧ c ≤ 'F' then some (c.toNat - 'A'.toNat + 10)
  else none

/-- pairs of hex digits, high one first; an odd number of digits is refused -/
def hexPairs : List Char → Option (List UInt8)
  | [] => some []
  | [_] => none
  | a :: b :: rest =>
    match hexDigit a, hexDigit b, hexPairs rest with
    | some x, some y, some bytes => some (UInt8.ofNat (16 * x + y) :: bytes)
    | _, _, _ => none

/-- `Vec::<u8>::from_hex` -/
def fromHex (s : String) : Option (List UInt8) := hexPairs s.toList

example : fromHex "0aFf" = some [10, 255] ∧ fromHex "0" = none ∧ fromHex "0g" = none := by decide

end ObsChain
