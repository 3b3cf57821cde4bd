/-
Which layer resolves an input does not matter, except for Bitcoin Core's (`process_block`).

TRUTH. A `Ledger` is the chain the node has validated: every input that is not a coinbase refers to an output of one
transaction at its own height or below. Only a txid that is spent has to be unique, so the two coinbases of the main
chain that repeat an earlier txid are no exception. A tip is a bound on the heights asked for; blocks above it are
arbitrary. `Reports` is what Bitcoin Core answers at a tip: the confirmations counted from there, the time of the
block, the values in bitcoin; it does not serve the genesis transaction.

PROPERTY (`LayerIndependent`). Every context attached is that of the chain, with the height at which the previous
transaction was confirmed, and an input stays without one only where the call to Bitcoin Core fails.

DEFECT. `fromVerbose` takes the confirmations, counted from the tip, off the replayed height, and forgets the block
itself. The value and the time are right (`answer_context`), the height is below the true one at every tip
(`answer_not_right`), and the cache keeps it for the next lookup.

RESULT (`input_layers_iff`). From an empty cache of any capacity, over any sequence of blocks: the property holds in
every block exactly when no input is resolved by an answer of Bitcoin Core. The cache then holds true copies only
(`Truthful`), whatever it has evicted.
-/
import Mathlib.Tactic
import ObsChain.Core.Trace
import ObsChain.Replay.Enrichment

namespace ObsChain.Replay.InputLayers

/-! ## The chain, and what Bitcoin Core says about it -/

structure Ledger where
  block : ℕ → BtcBlock
  time_lt : ∀ h, (block h).time < 2 ^ 32
  value_lt : ∀ h, ∀ tx ∈ (block h).txdata, ∀ out ∈ tx.output, out.value < 2 ^ 64
  /-- an input spends an output of a transaction that is confirmed by then -/
  spends : ∀ h, ∀ tx ∈ (block h).txdata, ∀ inp ∈ tx.input, inp.isNull = false →
    ∃ h' ≤ h, ∃ prev ∈ (block h').txdata, prev.txid = inp.txid ∧ inp.vout < prev.output.length
  /-- and of no other transaction -/
  unique : ∀ h, ∀ tx ∈ (block h).txdata, ∀ inp ∈ tx.input, inp.isNull = false →
    ∀ h₁, ∀ prev₁ ∈ (block h₁).txdata, ∀ h₂, ∀ prev₂ ∈ (block h₂).txdata,
      prev₁.txid = inp.txid → prev₂.txid = inp.txid → h₁ = h₂ ∧ prev₁ = prev₂

variable {ledger : Ledger}

/-- the context of an output of a transaction confirmed at height `h` -/
def Ledger.context (ledger : Ledger) (h : ℕ) (tx : BtcTx) (vout : ℕ) : Option SpentOutputContext :=
  tx.output[vout]?.map fun out => ⟨tx.txid, vout, out.value, some h, some (fromTimestamp (ledger.block h).time)⟩

/-- an answer to a verbose `getrawtransaction`, given with this tip -/
structure Ledger.Reports (ledger : Ledger) (tip : ℕ) (txid : String) (prev : GetRawTransactionVerboseResult)
    (h : ℕ) (tx : BtcTx) : Prop where
  confirmed : tx ∈ (ledger.block h).txdata
  txid_eq : tx.txid = txid
  not_genesis : h ≠ 0
  height_le : h ≤ tip
  confirmations : prev.confirmations = some (tip - h + 1)
  blocktime : prev.blocktime = some ((ledger.block h).time : ℤ)
  vout : prev.vout.map (·.value) = tx.output.map fun out => (out.value : ℚ) / 100000000

/-- the replay of one block of the chain, at tips that have reached it -/
structure BlockReplay (ledger : Ledger) extends BlockCall where
  block_eq : block = ledger.block height
  tip : ℕ → ℕ
  height_le_tip : ∀ n, height ≤ tip n
  reports : ∀ n txid prev, rpc n txid = .ok prev → ∃ h tx, ledger.Reports (tip n) txid prev h tx

def replayStep (cache : HistoricalTxCache) (r : BlockReplay ledger) : HistoricalTxCache := (r.enrichBlock cache).1

/-! ## The property and the condition -/

/-- the context is that of the output in the chain -/
def Right (ledger : Ledger) (txid : String) (vout : ℕ) (ctx : SpentOutputContext) : Prop :=
  ∀ h, ∀ tx ∈ (ledger.block h).txdata, tx.txid = txid → ledger.context h tx vout = some ctx

/-- what the n-th input of the block should look like -/
def Resolved (r : BlockReplay ledger) (n : ℕ) (i : TxInputObservation) : Prop :=
  match i.historicalUtxo with
  | some ctx => Right ledger i.txid i.vout ctx
  | none => i.isCoinbase = true ∨ ∃ e, r.rpc n i.txid = .error e

def LayerIndependent (cache : HistoricalTxCache) (r : BlockReplay ledger) : Prop :=
  ∀ p ∈ ((r.enrichBlock cache).2.flatMap (·.inputs)).zipIdx, Resolved r p.2 p.1

/-- the n-th input is not resolved by an answer of Bitcoin Core -/
def Unasked (cache : HistoricalTxCache) (r : BlockReplay ledger) (n : ℕ) (inp : BtcTxIn) : Prop :=
  inp.isNull = true ∨ (∃ tx ∈ r.block.txdata, tx.txid = inp.txid) ∨ inp.txid ∈ cache.entries ∨
    ∃ e, r.rpc n inp.txid = .error e

def NoAnswerUsed (cache : HistoricalTxCache) (r : BlockReplay ledger) : Prop :=
  ∀ p ∈ (r.block.txdata.flatMap (·.input)).zipIdx, Unasked cache r p.2 p.1

/-! ## True copies -/

/-- the outputs of a transaction of the chain, at its own height and time -/
def IsCopy (ledger : Ledger) (txid : String) (entry : CachedTx) : Prop :=
  ∃ h, ∃ tx ∈ (ledger.block h).txdata, tx.txid = txid ∧
    entry.outputs = tx.output.map fun out => ⟨out.value, out.address, h, fromTimestamp (ledger.block h).time⟩

/-- the cache holds true copies only -/
def Truthful (ledger : Ledger) (cache : HistoricalTxCache) : Prop :=
  ∀ txid entry, cache.entries.lookup txid = some entry → IsCopy ledger txid entry

/-- an input of the chain that is not a coinbase -/
def IsSpend (ledger : Ledger) (inp : BtcTxIn) : Prop :=
  inp.isNull = false ∧ ∃ h, ∃ tx ∈ (ledger.block h).txdata, inp ∈ tx.input

theorem isCopy_cachedTx (r : BlockReplay ledger) {tx : BtcTx} (h : tx ∈ r.block.txdata) :
    IsCopy ledger tx.txid (r.cachedTx tx) := by
  refine ⟨r.height, tx, ?_, rfl, ?_⟩
  · rw [← r.block_eq]
    exact h
  · rw [← r.block_eq]
    rfl

/-- **A copy gives the context of the chain.** -/
theorem IsCopy.context {inp : BtcTxIn} {entry : CachedTx} (hcopy : IsCopy ledger inp.txid entry)
    (hinp : IsSpend ledger inp) :
    ∃ ctx, entry.context inp.txid inp.vout = some ctx ∧ Right ledger inp.txid inp.vout ctx := by
  obtain ⟨h, tx, htx, htxid, houtputs⟩ := hcopy
  obtain ⟨hnull, hspend, spender, hspender, hmem⟩ := hinp
  obtain ⟨h', -, prev, hprev, hprevid, hvout⟩ := ledger.spends hspend spender hspender inp hmem hnull
  have hunique := ledger.unique hspend spender hspender inp hmem hnull h tx htx
  obtain ⟨-, rfl⟩ := hunique h' prev hprev htxid hprevid
  refine ⟨⟨inp.txid, inp.vout, (tx.output.get ⟨inp.vout, hvout⟩).value, some h,
    some (fromTimestamp (ledger.block h).time)⟩, ?_, ?_⟩
  · simp [CachedTx.context, houtputs, hvout]
  · intro h₁ tx₁ htx₁ htxid₁
    obtain ⟨rfl, rfl⟩ := hunique h₁ tx₁ htx₁ htxid htxid₁
    simp [Ledger.context, hvout, htxid]

/-! ## The answers of Bitcoin Core -/

/-- an amount survives its decimal form -/
theorem satsOfBtc_exact {value : ℕ} (h : value < 2 ^ 64) :
    TransactionEnricher.satsOfBtc ((value : ℚ) / 100000000) = value := by
  have hscaled : (value : ℚ) / 100000000 * 100000000 = ((value : ℤ) : ℚ) := by
    push_cast
    ring
  unfold TransactionEnricher.satsOfBtc
  rw [hscaled, round_intCast, Int.toNat_natCast]
  omega

/-- a header's time is one chrono can represent -/
theorem timestamp_header {time : ℕ} (h : time < 2 ^ 32) :
    TransactionEnricher.timestamp time = some (fromTimestamp time) := by
  unfold TransactionEnricher.timestamp
  rw [if_pos]
  omega

section Answer

variable {r : BlockReplay ledger} {n h : ℕ} {prev : GetRawTransactionVerboseResult} {tx : BtcTx} {inp : BtcTxIn}

/-- **An answer gives the value and the time of the chain**, and the replayed height less the confirmations. -/
theorem answer_context (hinp : IsSpend ledger inp) (hreports : ledger.Reports (r.tip n) inp.txid prev h tx) :
    ∃ ctx, ledger.context h tx inp.vout = some ctx ∧ (r.fromVerbose inp.txid prev).context inp.txid inp.vout =
      some { ctx with confirmedHeight := some (r.height - (r.tip n - h + 1)) } := by
  obtain ⟨hnull, hspend, spender, hspender, hmem⟩ := hinp
  obtain ⟨h', -, prev', hprev, hprevid, hvout⟩ := ledger.spends hspend spender hspender inp hmem hnull
  obtain ⟨-, rfl⟩ := ledger.unique hspend spender hspender inp hmem hnull h tx hreports.confirmed h' prev' hprev
    hreports.txid_eq hprevid
  have hvalue : (prev.vout[inp.vout]?).map (·.value) = some ((tx.output[inp.vout].value : ℚ) / 100000000) := by
    rw [← List.getElem?_map, hreports.vout]
    simp [hvout]
  obtain ⟨vo, hvo, hvalue⟩ := Option.map_eq_some_iff.1 hvalue
  have hsats := satsOfBtc_exact (ledger.value_lt h tx hreports.confirmed _ (List.getElem_mem hvout))
  have htime := timestamp_header (ledger.time_lt h)
  refine ⟨⟨tx.txid, inp.vout, tx.output[inp.vout].value, some h, some (fromTimestamp (ledger.block h).time)⟩, ?_, ?_⟩
  · simp [Ledger.context, hvout]
  · simp [CachedTx.context, BlockCall.fromVerbose, hvo, hvalue, hsats, hreports.confirmations, hreports.blocktime, htime,
      hreports.txid_eq]

/-- **Never its height**, at whatever tip the answer is given. -/
theorem answer_not_right (hinp : IsSpend ledger inp) (hanswer : r.rpc n inp.txid = .ok prev) :
    ∃ ctx, (r.fromVerbose inp.txid prev).context inp.txid inp.vout = some ctx ∧ ¬ Right ledger inp.txid inp.vout ctx := by
  obtain ⟨h, tx, hreports⟩ := r.reports n inp.txid prev hanswer
  obtain ⟨ctx, hctx, hanswered⟩ := answer_context hinp hreports
  refine ⟨_, hanswered, fun hright => ?_⟩
  have htrue := hright h tx hreports.confirmed hreports.txid_eq
  obtain ⟨out, -, rfl⟩ := Option.map_eq_some_iff.1 hctx
  rw [hctx] at htrue
  have hheight : some h = some (r.height - (r.tip n - h + 1)) :=
    congrArg SpentOutputContext.confirmedHeight (Option.some.inj htrue)
  have htip := r.height_le_tip n
  have hgenesis := hreports.not_genesis
  have hle := hreports.height_le
  have hsame := Option.some.inj hheight
  omega

end Answer

/-! ## One input -/

/-- **One input.** It is resolved as it should be exactly when no answer is used, and then the entries of the cache stay. -/
theorem resolveInput_iff {cache : HistoricalTxCache} (hcache : Truthful ledger cache) (r : BlockReplay ledger) (n : ℕ)
    {inp : BtcTxIn} (hmem : ∃ h, ∃ tx ∈ (ledger.block h).txdata, inp ∈ tx.input) :
    (Resolved r n (BlockCall.observeInput inp (r.resolveInput n cache inp).2) ↔ Unasked cache r n inp) ∧
      (Unasked cache r n inp → (r.resolveInput n cache inp).1.entries = cache.entries) := by
  unfold BlockCall.resolveInput
  by_cases hnull : inp.isNull = true
  · simp [hnull, Resolved, BlockCall.observeInput, Unasked]
  rw [if_neg hnull]
  have hinp : IsSpend ledger inp := ⟨by simpa using hnull, hmem⟩
  cases hlocal : r.blockMap.lookup inp.txid with
  | some entry =>
    obtain ⟨tx, htx, htxid, rfl⟩ := BlockCall.lookup_blockMap hlocal
    have hcopy := isCopy_cachedTx r htx
    rw [htxid] at hcopy
    obtain ⟨ctx, hctx, hright⟩ := hcopy.context hinp
    have hunasked : Unasked cache r n inp := Or.inr (Or.inl ⟨tx, htx, htxid⟩)
    simp [hctx, hunasked, Resolved, BlockCall.observeInput, hright]
  | none =>
    have hnotlocal : ¬ ∃ tx ∈ r.block.txdata, tx.txid = inp.txid := by
      intro hexists
      obtain ⟨tx, htx, htxid⟩ := hexists
      have hin := BlockCall.mem_blockMap htx
      rw [htxid] at hin
      exact AList.lookup_eq_none.1 hlocal hin
    cases hcached : cache.entries.lookup inp.txid with
    | some entry =>
      obtain ⟨ctx, hctx, hright⟩ := (hcache inp.txid entry hcached).context hinp
      have hin : inp.txid ∈ cache.entries := AList.lookup_isSome.1 (by rw [hcached]; rfl)
      have hunasked : Unasked cache r n inp := Or.inr (Or.inr (Or.inl hin))
      simp [hcached, hctx, hunasked, Resolved, BlockCall.observeInput, hright]
    | none =>
      have hnotcached : inp.txid ∉ cache.entries := AList.lookup_eq_none.1 hcached
      cases hanswer : r.rpc n inp.txid with
      | error e =>
        have hunasked : Unasked cache r n inp := Or.inr (Or.inr (Or.inr ⟨e, hanswer⟩))
        simp [hcached, hunasked, Resolved, BlockCall.observeInput, hanswer]
      | ok prev =>
        have hasked : ¬ Unasked cache r n inp := by
          intro hunasked
          rcases hunasked with hcoinbase | hin | hin | ⟨e, he⟩
          · exact hnull hcoinbase
          · exact hnotlocal hin
          · exact hnotcached hin
          · rw [hanswer] at he
            cases he
        obtain ⟨ctx, hctx, hwrong⟩ := answer_not_right hinp hanswer
        simp [hcached, hctx, hasked, Resolved, BlockCall.observeInput, hwrong]

theorem unasked_congr {cache cache' : HistoricalTxCache} (h : cache'.entries = cache.entries) {r : BlockReplay ledger}
    {n : ℕ} {inp : BtcTxIn} : Unasked cache' r n inp ↔ Unasked cache r n inp := by
  unfold Unasked
  rw [h]

theorem truthful_congr {cache cache' : HistoricalTxCache} (h : cache'.entries = cache.entries)
    (hcache : Truthful ledger cache) : Truthful ledger cache' := by
  unfold Truthful
  rw [h]
  exact hcache

/-! ## The inputs of a transaction, the transactions of a block -/

/-- the inputs from the n-th on: the first one that an answer resolves is wrong, and before it the entries stay -/
theorem resolveInputs_iff (r : BlockReplay ledger) {inputs : List BtcTxIn}
    (hmem : ∀ inp ∈ inputs, ∃ h, ∃ tx ∈ (ledger.block h).txdata, inp ∈ tx.input) {cache : HistoricalTxCache}
    (hcache : Truthful ledger cache) (n : ℕ) :
    ((∀ p ∈ (r.resolveInputs n cache inputs).2.zipIdx n, Resolved r p.2 p.1) ↔
        ∀ p ∈ inputs.zipIdx n, Unasked cache r p.2 p.1) ∧
      ((∀ p ∈ inputs.zipIdx n, Unasked cache r p.2 p.1) →
        (r.resolveInputs n cache inputs).1.entries = cache.entries) := by
  induction inputs generalizing cache n with
  | nil => simp [BlockCall.resolveInputs]
  | cons inp rest ih =>
    obtain ⟨hfirst, hentries⟩ := resolveInput_iff hcache r n (hmem inp List.mem_cons_self)
    simp only [BlockCall.resolveInputs, List.zipIdx_cons, List.forall_mem_cons]
    by_cases hunasked : Unasked cache r n inp
    · have hsame := hentries hunasked
      obtain ⟨hrest, hkept⟩ := ih (fun i hi => hmem i (List.mem_cons_of_mem inp hi)) (truthful_congr hsame hcache) (n + 1)
      simp only [unasked_congr hsame] at hrest hkept
      exact ⟨and_congr hfirst hrest, fun h => (hkept h.2).trans hsame⟩
    · have hwrong := mt hfirst.1 hunasked
      exact ⟨⟨fun h => absurd h.1 hwrong, fun h => absurd h.1 hunasked⟩, fun h => absurd h.1 hunasked⟩

theorem length_resolveInputs (r : BlockReplay ledger) (n : ℕ) (cache : HistoricalTxCache) (inputs : List BtcTxIn) :
    (r.resolveInputs n cache inputs).2.length = inputs.length := by
  induction inputs generalizing n cache with
  | nil => rfl
  | cons inp rest ih => simp [BlockCall.resolveInputs, ih]

theorem enrichTxs_iff (r : BlockReplay ledger) {txs : List BtcTx}
    (hmem : ∀ tx ∈ txs, ∃ h, tx ∈ (ledger.block h).txdata) {cache : HistoricalTxCache}
    (hcache : Truthful ledger cache) (n : ℕ) :
    ((∀ p ∈ ((r.enrichTxs n cache txs).2.flatMap (·.inputs)).zipIdx n, Resolved r p.2 p.1) ↔
        ∀ p ∈ (txs.flatMap (·.input)).zipIdx n, Unasked cache r p.2 p.1) ∧
      ((∀ p ∈ (txs.flatMap (·.input)).zipIdx n, Unasked cache r p.2 p.1) →
        (r.enrichTxs n cache txs).1.entries = cache.entries) := by
  induction txs generalizing cache n with
  | nil => simp [BlockCall.enrichTxs]
  | cons tx rest ih =>
    obtain ⟨h, htx⟩ := hmem tx List.mem_cons_self
    obtain ⟨hfirst, hentries⟩ := resolveInputs_iff r (fun inp hinp => ⟨h, tx, htx, hinp⟩) hcache n
    have hinputs : (r.observeTx tx (r.resolveInputs n cache tx.input).2).inputs = (r.resolveInputs n cache tx.input).2 :=
      rfl
    simp only [BlockCall.enrichTxs, List.flatMap_cons, List.zipIdx_append, List.forall_mem_append, hinputs,
      length_resolveInputs]
    by_cases hunasked : ∀ p ∈ tx.input.zipIdx n, Unasked cache r p.2 p.1
    · have hsame := hentries hunasked
      obtain ⟨hrest, hkept⟩ := ih (fun t ht => hmem t (List.mem_cons_of_mem tx ht)) (truthful_congr hsame hcache)
        (n + tx.input.length)
      simp only [unasked_congr hsame] at hrest hkept
      exact ⟨and_congr hfirst hrest, fun h => (hkept h.2).trans hsame⟩
    · have hwrong := mt hfirst.1 hunasked
      exact ⟨⟨fun h => absurd h.1 hwrong, fun h => absurd h.1 hunasked⟩, fun h => absurd h.1 hunasked⟩

/-! ## Whole blocks -/

/-- storing the block keeps the copies true, whatever it evicts -/
theorem Truthful.stored {cache : HistoricalTxCache} (hcache : Truthful ledger cache) (r : BlockReplay ledger) :
    Truthful ledger ((r.walk r.blockTxs).foldl HistoricalTxCache.insert cache) := by
  intro txid entry hentry
  rcases HistoricalTxCache.lookup_insertAll hentry with ⟨hmem, rfl⟩ | hbefore
  · obtain ⟨tx, htx, rfl⟩ := BlockCall.mem_walk hmem
    exact isCopy_cachedTx r htx
  · exact hcache txid entry hbefore

theorem mem_ledger (r : BlockReplay ledger) {tx : BtcTx} (h : tx ∈ r.block.txdata) :
    ∃ h, tx ∈ (ledger.block h).txdata :=
  ⟨r.height, by rw [← r.block_eq]; exact h⟩

theorem layerIndependent_iff {cache : HistoricalTxCache} (hcache : Truthful ledger cache) (r : BlockReplay ledger) :
    LayerIndependent cache r ↔ NoAnswerUsed cache r :=
  (enrichTxs_iff r (fun _ => mem_ledger r) hcache 0).1

theorem Truthful.replayStep {cache : HistoricalTxCache} (hcache : Truthful ledger cache) (r : BlockReplay ledger)
    (h : LayerIndependent cache r) : Truthful ledger (replayStep cache r) := by
  have hunasked := (layerIndependent_iff hcache r).1 h
  have hsame := (enrichTxs_iff r (fun _ => mem_ledger r) hcache 0).2 hunasked
  exact (truthful_congr hsame hcache).stored r

theorem truthful_new {capacity : ℕ} : Truthful ledger (HistoricalTxCache.new capacity) := by
  intro txid entry hentry
  simp [HistoricalTxCache.new] at hentry

/-- **The layers agree except for the answers.** From an empty cache, every block of a replay gets the contexts of the
chain exactly when no input of it is resolved by an answer of Bitcoin Core. -/
theorem input_layers_iff (ledger : Ledger) (capacity : ℕ) (replays : List (BlockReplay ledger)) :
    Trace.Steps replayStep LayerIndependent (HistoricalTxCache.new capacity) replays ↔
      Trace.Steps replayStep NoAnswerUsed (HistoricalTxCache.new capacity) replays := by
  apply Trace.steps_iff_kept (I := Truthful ledger)
  · exact fun cache r hcache h => hcache.replayStep r h
  · exact fun cache r hcache => layerIndependent_iff hcache r
  · exact truthful_new

/-! ## A coin of block 1, spent in block 101 -/

def coinbaseId (h : ℕ) : String := String.ofList ('c' :: List.replicate h '0')

theorem coinbaseId_inj {h h' : ℕ} (heq : coinbaseId h = coinbaseId h') : h = h' := by
  have hchars := congrArg (fun s => s.toList.length) heq
  simpa [coinbaseId] using hchars

def coinbaseTx (h : ℕ) : BtcTx :=
  ⟨coinbaseId h, 400, 100, 100, [⟨"0", 4294967295, true, 4294967295⟩], [⟨5000000000, "51", none, none⟩]⟩

/-- spends the coinbase of block 1 -/
def spendTx : BtcTx := ⟨"b", 400, 100, 100, [⟨coinbaseId 1, 0, false, 4294967295⟩], [⟨4999990000, "51", none, none⟩]⟩

def smallBlock (h : ℕ) : BtcBlock :=
  { blockHash := "hash"
    prevBlockhash := "prev"
    time := 600 * h % 2 ^ 32
    bip34BlockHeight := some h
    weight := 1000
    txdata := if h = 101 then [coinbaseTx h, spendTx] else [coinbaseTx h] }

theorem mem_smallBlock {h : ℕ} {tx : BtcTx} : tx ∈ (smallBlock h).txdata ↔ tx = coinbaseTx h ∨ (h = 101 ∧ tx = spendTx) := by
  unfold smallBlock
  by_cases hspend : h = 101
  · simp [hspend]
  · simp [hspend]

/-- the coinbase of block 1 is the only transaction with its txid -/
theorem smallBlock_coinbaseId {h : ℕ} {tx : BtcTx} (htx : tx ∈ (smallBlock h).txdata) (htxid : tx.txid = coinbaseId 1) :
    h = 1 ∧ tx = coinbaseTx 1 := by
  rcases mem_smallBlock.1 htx with rfl | ⟨-, rfl⟩
  · have hone : h = 1 := coinbaseId_inj htxid
    exact ⟨hone, by rw [hone]⟩
  · exact absurd htxid (by decide)

/-- the only input that is not a coinbase -/
theorem smallBlock_input {h : ℕ} {tx : BtcTx} {inp : BtcTxIn} (htx : tx ∈ (smallBlock h).txdata) (hinp : inp ∈ tx.input)
    (hnull : inp.isNull = false) : h = 101 ∧ inp = ⟨coinbaseId 1, 0, false, 4294967295⟩ := by
  rcases mem_smallBlock.1 htx with rfl | ⟨hspend, rfl⟩
  · have hcoinbase := List.mem_singleton.1 hinp
    rw [hcoinbase] at hnull
    cases hnull
  · exact ⟨hspend, List.mem_singleton.1 hinp⟩

def smallLedger : Ledger where
  block := smallBlock
  time_lt h := Nat.mod_lt _ (by decide)
  value_lt h tx htx out hout := by
    rcases mem_smallBlock.1 htx with rfl | ⟨-, rfl⟩
    · rw [List.mem_singleton.1 hout]
      decide
    · rw [List.mem_singleton.1 hout]
      decide
  spends h tx htx inp hinp hnull := by
    obtain ⟨rfl, rfl⟩ := smallBlock_input htx hinp hnull
    exact ⟨1, by decide, coinbaseTx 1, mem_smallBlock.2 (Or.inl rfl), rfl, by decide⟩
  unique h tx htx inp hinp hnull h₁ prev₁ hprev₁ h₂ prev₂ hprev₂ htxid₁ htxid₂ := by
    obtain ⟨rfl, rfl⟩ := smallBlock_input htx hinp hnull
    obtain ⟨rfl, rfl⟩ := smallBlock_coinbaseId hprev₁ htxid₁
    obtain ⟨rfl, rfl⟩ := smallBlock_coinbaseId hprev₂ htxid₂
    exact ⟨rfl, rfl⟩

/-- Bitcoin Core at tip 200, asked for the coinbase of block 1 -/
def answer : GetRawTransactionVerboseResult := ⟨some 200, some 600, some 600, [⟨50, none⟩]⟩

theorem smallLedger_reports : smallLedger.Reports 200 (coinbaseId 1) answer 1 (coinbaseTx 1) where
  confirmed := mem_smallBlock.2 (Or.inl rfl)
  txid_eq := rfl
  not_genesis := by decide
  height_le := by decide
  confirmations := rfl
  blocktime := rfl
  vout := by norm_num [answer, coinbaseTx]

/-- the replay of a block at tip 200 -/
def replayAt (h : ℕ) (hle : h ≤ 200) : BlockReplay smallLedger where
  height := h
  block := smallBlock h
  rpcUrl := "http://127.0.0.1:8332"
  rpc _ txid := if txid = coinbaseId 1 then .ok answer else .error .txIndexUnavailable
  walk txs := txs
  walk_perm _ := List.Perm.refl _
  block_eq := rfl
  tip _ := 200
  height_le_tip _ := hle
  reports n txid prev h := by
    split_ifs at h with htxid
    cases h
    exact ⟨1, coinbaseTx 1, by rw [htxid]; exact smallLedger_reports⟩

/-- the contexts a block's inputs get -/
def contexts (cache : HistoricalTxCache) (r : BlockReplay smallLedger) : List (Option SpentOutputContext) :=
  ((r.enrichBlock cache).2.flatMap (·.inputs)).map (·.historicalUtxo)

/-- **The height depends on the layer.** With block 1 replayed before it, block 101 finds the coin in the cache,
confirmed at height 1. On its own it asks Bitcoin Core at tip 200 and is told 200 confirmations: height 0. -/
theorem answer_height_below :
    contexts (replayStep (HistoricalTxCache.new 10) (replayAt 1 (by decide))) (replayAt 101 (by decide)) =
        [none, some ⟨coinbaseId 1, 0, 5000000000, some 1, some 600000000000⟩] ∧
      contexts (HistoricalTxCache.new 10) (replayAt 101 (by decide)) =
        [none, some ⟨coinbaseId 1, 0, 5000000000, some 0, some 600000000000⟩] ∧
      ¬ Trace.Steps replayStep LayerIndependent (HistoricalTxCache.new 10) [replayAt 101 (by decide)] := by
  refine ⟨rfl, by decide +kernel, fun hsteps => ?_⟩
  have hunasked := (layerIndependent_iff truthful_new _).1 hsteps.1
  rcases hunasked (⟨coinbaseId 1, 0, false, 4294967295⟩, 1) (by decide) with hnull | ⟨tx, htx, htxid⟩ | hin | ⟨e, he⟩
  · cases hnull
  · exact absurd (smallBlock_coinbaseId htx htxid).1 (by decide)
  · exact absurd hin (by decide)
  · cases he

end ObsChain.Replay.InputLayers
