/-
Enrichment in the replay (`historical_replay.rs`): the transaction cache, and the steps of `process_block` that build the
block-local map, resolve the inputs of every transaction and store the block in the cache.

An input is looked up in three layers, in this order: the transactions of its own block, the cache, and Bitcoin Core. An
answer of Bitcoin Core is stored in the cache. `HashMap` is a finite map (`AList`) and a poisoned lock is not modelled.

Outside the program are the answers of Bitcoin Core and the order in which a `HashMap` is walked. They are fields of a
`BlockCall`: `rpc n` is the answer to the call made for the n-th input of the block, counted over all of its transactions.

- `lookup_insert`, `lookup_insertAll`: what insertions add, whatever they evict.
- `lookup_blockMap`, `mem_blockMap`: the block-local map holds the transactions of the block.
-/
import Mathlib.Tactic
import Mathlib.Data.List.AList
import ObsChain.Core.Eviction
import ObsChain.Ingest.BitcoinZmq
import ObsChain.Ingest.Enricher

namespace ObsChain.Replay

/-! ## `HistoricalTxCache` -/

structure CachedTxOutput where
  valueSats : ℕ
  address : Option String
  confirmedHeight : ℕ
  confirmedTime : DateTime
deriving DecidableEq, Repr

structure CachedTx where
  txid : String
  confirmedHeight : ℕ
  confirmedTime : DateTime
  outputs : List CachedTxOutput
deriving DecidableEq, Repr

/-- the context of an output, under the txid it was asked for -/
def CachedTx.context (tx : CachedTx) (txid : String) (vout : ℕ) : Option SpentOutputContext :=
  tx.outputs[vout]?.map fun out => ⟨txid, vout, out.valueSats, some out.confirmedHeight, some out.confirmedTime⟩

structure HistoricalTxCache where
  capacity : ℕ
  entries : AList (fun _ : String => CachedTx)
  order : List String
  hits : ℕ
  misses : ℕ
  rpcLookups : ℕ
  evictions : ℕ

namespace HistoricalTxCache

def new (capacity : ℕ) : HistoricalTxCache := ⟨max capacity 1, ∅, [], 0, 0, 0, 0⟩

def get (c : HistoricalTxCache) (txid : String) (vout : ℕ) : HistoricalTxCache × Option SpentOutputContext :=
  match (c.entries.lookup txid).bind fun tx => tx.context txid vout with
  | some ctx => ({ c with hits := c.hits + 1 }, some ctx)
  | none => ({ c with misses := c.misses + 1 }, none)

/-- the eviction loop: while the map is full the oldest txid of the queue goes, and an empty queue ends it -/
def evict (c : HistoricalTxCache) : List String → HistoricalTxCache
  | [] => { c with order := [] }
  | old :: rest =>
    if c.entries.keys.length ≥ c.capacity then
      evict { c with entries := c.entries.erase old, evictions := c.evictions + 1 } rest
    else { c with order := old :: rest }

/-- the loop over the entries and the queue -/
theorem evict_eq_evict (c : HistoricalTxCache) (queue : List String) :
    (c.evict queue).entries = (Eviction.evict c.capacity c.entries queue).1 ∧
      (c.evict queue).order = (Eviction.evict c.capacity c.entries queue).2 ∧
      (c.evict queue).capacity = c.capacity ∧ (c.evict queue).hits = c.hits ∧ (c.evict queue).misses = c.misses := by
  induction queue generalizing c with
  | nil => exact ⟨rfl, rfl, rfl, rfl, rfl⟩
  | cons old rest ih =>
    rw [evict, Eviction.evict]
    split_ifs
    · exact ih { c with entries := c.entries.erase old, evictions := c.evictions + 1 }
    · exact ⟨rfl, rfl, rfl, rfl, rfl⟩

def insert (c : HistoricalTxCache) (tx : CachedTx) : HistoricalTxCache :=
  -- a txid that is there is overwritten in place
  if tx.txid ∈ c.entries then { c with entries := c.entries.insert tx.txid tx }
  else
    let c := c.evict c.order
    { c with order := c.order ++ [tx.txid], entries := c.entries.insert tx.txid tx }

def recordRpcLookup (c : HistoricalTxCache) : HistoricalTxCache := { c with rpcLookups := c.rpcLookups + 1 }

@[simp] theorem entries_get (c : HistoricalTxCache) (txid : String) (vout : ℕ) :
    (c.get txid vout).1.entries = c.entries := by
  unfold get
  split <;> rfl

@[simp] theorem get_snd (c : HistoricalTxCache) (txid : String) (vout : ℕ) :
    (c.get txid vout).2 = (c.entries.lookup txid).bind fun tx => tx.context txid vout := by
  unfold get
  split
  · rename_i ctx hctx
    exact hctx.symm
  · rename_i hnone
    exact hnone.symm

/-- an eviction adds nothing -/
theorem lookup_evict {c : HistoricalTxCache} {queue : List String} {txid : String} {tx : CachedTx}
    (h : (c.evict queue).entries.lookup txid = some tx) : c.entries.lookup txid = some tx := by
  rw [(c.evict_eq_evict queue).1] at h
  exact Eviction.lookup_of_evict h

/-- **What an insertion adds.** An entry that is there afterwards is the inserted one, or was there before. -/
theorem lookup_insert {c : HistoricalTxCache} {new tx : CachedTx} {txid : String}
    (h : (c.insert new).entries.lookup txid = some tx) :
    (txid = new.txid ∧ tx = new) ∨ c.entries.lookup txid = some tx := by
  by_cases hself : txid = new.txid
  · left
    subst hself
    unfold insert at h
    split_ifs at h <;> rw [AList.lookup_insert] at h <;> exact ⟨rfl, (Option.some.inj h).symm⟩
  · right
    unfold insert at h
    split_ifs at h with hpresent
    · rwa [AList.lookup_insert_ne hself] at h
    · rw [AList.lookup_insert_ne hself] at h
      exact lookup_evict h

theorem lookup_insertAll {txs : List CachedTx} {c : HistoricalTxCache} {tx : CachedTx} {txid : String}
    (h : (txs.foldl insert c).entries.lookup txid = some tx) :
    (tx ∈ txs ∧ tx.txid = txid) ∨ c.entries.lookup txid = some tx := by
  induction txs generalizing c with
  | nil => exact Or.inr h
  | cons new txs ih =>
    rcases ih h with ⟨hmem, htxid⟩ | hbefore
    · exact Or.inl ⟨List.mem_cons_of_mem new hmem, htxid⟩
    · rcases lookup_insert hbefore with ⟨htxid, rfl⟩ | hold
      · exact Or.inl ⟨List.mem_cons_self, htxid.symm⟩
      · exact Or.inr hold

end HistoricalTxCache

/-! ## `process_block`: the layers -/

/-- an output of a `getrawtransaction` answer, with the fields the replay reads -/
structure GetRawTransactionVout where
  value : ℚ
  address : Option String
deriving DecidableEq, Repr

/-- a verbose `getrawtransaction` answer, with the fields the replay reads -/
structure GetRawTransactionVerboseResult where
  confirmations : Option ℕ
  time : Option ℤ
  blocktime : Option ℤ
  vout : List GetRawTransactionVout
deriving DecidableEq, Repr

/-- what the enrichment of one block is given -/
structure BlockCall where
  height : ℕ
  block : BtcBlock
  rpcUrl : String
  rpc : ℕ → String → Except BitcoinRpcError GetRawTransactionVerboseResult
  /-- the order in which the block-local map is walked -/
  walk : List CachedTx → List CachedTx
  walk_perm : ∀ txs, (walk txs).Perm txs

namespace BlockCall

variable (call : BlockCall)

def blockTime : DateTime := fromTimestamp call.block.time

/-- a transaction of the block, as the maps hold it -/
def cachedTx (tx : BtcTx) : CachedTx :=
  { txid := tx.txid
    confirmedHeight := call.height
    confirmedTime := call.blockTime
    outputs := tx.output.map fun out => ⟨out.value, out.address, call.height, call.blockTime⟩ }

def blockMap : AList (fun _ : String => CachedTx) :=
  call.block.txdata.foldl (fun map tx => map.insert tx.txid (call.cachedTx tx)) ∅

/-- the previous transaction, as an answer of Bitcoin Core describes it -/
def fromVerbose (txid : String) (prev : GetRawTransactionVerboseResult) : CachedTx :=
  let prevTime := ((prev.blocktime.or prev.time).bind TransactionEnricher.timestamp).getD call.blockTime
  -- the confirmations are counted from the tip, and taken off the replayed height
  let confirmedHeight := call.height - prev.confirmations.getD 1
  { txid := txid
    confirmedHeight := confirmedHeight
    confirmedTime := prevTime
    outputs := prev.vout.map fun vo =>
      ⟨TransactionEnricher.satsOfBtc vo.value, vo.address, confirmedHeight, prevTime⟩ }

/-- the context of the n-th input of the block -/
def resolveInput (n : ℕ) (cache : HistoricalTxCache) (inp : BtcTxIn) : HistoricalTxCache × Option SpentOutputContext :=
  if inp.isNull then (cache, none)
  else
    match (call.blockMap.lookup inp.txid).bind fun tx => tx.context inp.txid inp.vout with
    | some ctx => (cache, some ctx)
    | none =>
      let got := cache.get inp.txid inp.vout
      match got.2 with
      | some ctx => (got.1, some ctx)
      | none =>
        match call.rpc n inp.txid with
        | .error _ => (got.1, none)
        | .ok prev =>
          let tx := call.fromVerbose inp.txid prev
          (got.1.recordRpcLookup.insert tx, tx.context inp.txid inp.vout)

def observeInput (inp : BtcTxIn) (utxoCtx : Option SpentOutputContext) : TxInputObservation :=
  { txid := inp.txid
    vout := inp.vout
    sequence := inp.sequence
    prevOutValueSats := utxoCtx.map (·.valueSats)
    prevOutAddress := none
    isCoinbase := inp.isNull
    historicalUtxo := utxoCtx }

def resolveInputs : ℕ → HistoricalTxCache → List BtcTxIn → HistoricalTxCache × List TxInputObservation
  | _, cache, [] => (cache, [])
  | n, cache, inp :: rest =>
    let first := call.resolveInput n cache inp
    let others := resolveInputs (n + 1) first.1 rest
    (others.1, observeInput inp first.2 :: others.2)

/-- the observation of a transaction: that of a raw block, with the resolved inputs and the fee they give -/
def observeTx (tx : BtcTx) (inputs : List TxInputObservation) : TransactionObservation :=
  let raw := tx.observe call.blockTime call.block.blockHash call.height (ObservationSource.bitcoinCoreRpc call.rpcUrl)
  let totalInputSats := inputs.foldl (fun acc i =>
    match i.historicalUtxo with
    | some ctx => saturatingAdd acc ctx.valueSats
    | none => acc) 0
  let allInputsResolved := inputs.all fun i => i.historicalUtxo.isSome || i.isCoinbase
  let feeSats :=
    if allInputsResolved ∧ totalInputSats ≥ raw.totalOutputSats then totalInputSats - raw.totalOutputSats else 0
  { raw with
    feeSats := feeSats
    feeRateSatVb := calculateFeeRateSatVb feeSats tx.vsize
    totalInputSats := totalInputSats
    inputCount := inputs.length
    inputs := inputs }

def enrichTxs : ℕ → HistoricalTxCache → List BtcTx → HistoricalTxCache × List TransactionObservation
  | _, cache, [] => (cache, [])
  | n, cache, tx :: rest =>
    let first := call.resolveInputs n cache tx.input
    let others := enrichTxs (n + tx.input.length) first.1 rest
    (others.1, call.observeTx tx first.2 :: others.2)

/-- the block's transactions, as the block-local map holds them -/
def blockTxs : List CachedTx := call.blockMap.entries.map (·.2)

/-- the enrichment of a block: its transactions, which are stored afterwards -/
def enrichBlock (cache : HistoricalTxCache) : HistoricalTxCache × List TransactionObservation :=
  let enriched := call.enrichTxs 0 cache call.block.txdata
  ((call.walk call.blockTxs).foldl HistoricalTxCache.insert enriched.1, enriched.2)

/-! ## The block-local map -/

variable {call}

theorem lookup_blockMap {txid : String} {entry : CachedTx} (h : call.blockMap.lookup txid = some entry) :
    ∃ tx ∈ call.block.txdata, tx.txid = txid ∧ entry = call.cachedTx tx := by
  have hfold : ∀ (txs : List BtcTx) (map : AList (fun _ : String => CachedTx)),
      (txs.foldl (fun map tx => map.insert tx.txid (call.cachedTx tx)) map).lookup txid = some entry →
      (∃ tx ∈ txs, tx.txid = txid ∧ entry = call.cachedTx tx) ∨ map.lookup txid = some entry := by
    intro txs
    induction txs with
    | nil => exact fun map hmap => Or.inr hmap
    | cons tx txs ih =>
      intro map hmap
      rcases ih _ hmap with ⟨tx', htx', heq⟩ | hinserted
      · exact Or.inl ⟨tx', List.mem_cons_of_mem tx htx', heq⟩
      · by_cases htxid : txid = tx.txid
        · subst htxid
          rw [AList.lookup_insert] at hinserted
          exact Or.inl ⟨tx, List.mem_cons_self, rfl, (Option.some.inj hinserted).symm⟩
        · rw [AList.lookup_insert_ne htxid] at hinserted
          exact Or.inr hinserted
  rcases hfold _ _ h with hfound | hempty
  · exact hfound
  · simp at hempty

theorem mem_blockMap {tx : BtcTx} (h : tx ∈ call.block.txdata) : tx.txid ∈ call.blockMap := by
  have hfold : ∀ (txs : List BtcTx) (map : AList (fun _ : String => CachedTx)), (tx ∈ txs ∨ tx.txid ∈ map) →
      tx.txid ∈ txs.foldl (fun map tx => map.insert tx.txid (call.cachedTx tx)) map := by
    intro txs
    induction txs with
    | nil => exact fun map hmap => hmap.resolve_left (by simp)
    | cons tx' txs ih =>
      intro map hmap
      apply ih
      rcases hmap with hmem | hold
      · rcases List.mem_cons.1 hmem with rfl | hlater
        · exact Or.inr (by simp)
        · exact Or.inl hlater
      · exact Or.inr (by simp [hold])
  exact hfold _ _ (Or.inl h)

/-- what is stored after the block -/
theorem mem_walk {entry : CachedTx} (h : entry ∈ call.walk call.blockTxs) :
    ∃ tx ∈ call.block.txdata, entry = call.cachedTx tx := by
  have hmem : entry ∈ call.blockTxs := (call.walk_perm _).mem_iff.1 h
  obtain ⟨⟨txid, entry'⟩, hentry, rfl⟩ := List.mem_map.1 hmem
  have hlookup : call.blockMap.lookup txid = some entry' := AList.mem_lookup_iff.2 hentry
  obtain ⟨tx, htx, -, heq⟩ := lookup_blockMap hlookup
  exact ⟨tx, htx, heq⟩

end BlockCall

end ObsChain.Replay
