/-
Enrichment of a transaction with the outputs it spends (`enricher.rs`).

`enrich_transaction` works in three passes: the inputs the cache knows get their context and the other txids are noted,
up to a limit; the noted transactions are looked up, Bitcoin Core first and mempool.space unless the node is
sovereign-only, and stored; then every input is looked at again, the values are filled in and, when they are complete,
the fee is computed.

The two services are outside the program: they are the answers they give, an error for a call that fails. What else a
call meets is its `Call`: the n-th moment it reads the clock at (the three passes read it at most `n` times each for `n`
inputs) and the order in which the concurrent lookups come back. The number of lookups in flight and the request
timeout act through these two only, and a lookup task that panics is not modelled.

`Shows view i c`: from the i-th moment on the cache shows `view`. Each pass is described by the view it finds:
- `firstPass_spec`, `peek_storeAll`, `thirdPass_eq`: one lemma per pass.
-/
import Mathlib.Tactic
import ObsChain.Ingest.BitcoinRpc
import ObsChain.Ingest.UtxoCache

namespace ObsChain

structure GetRawTransactionVout where
  value : ℚ
  n : ℕ
deriving DecidableEq, Repr

structure GetRawTransactionVerboseResult where
  confirmations : Option ℕ
  blocktime : Option ℤ
  vout : List GetRawTransactionVout
deriving DecidableEq, Repr

structure MempoolTxStatus where
  confirmed : Bool
  blockHeight : Option ℕ
  blockTime : Option ℤ
deriving DecidableEq, Repr

structure MempoolTx where
  /-- the values of the outputs, in order -/
  vout : List ℕ
  status : MempoolTxStatus
deriving DecidableEq, Repr

structure EnricherConfig where
  maxInputEnrichment : ℕ
deriving DecidableEq, Repr

structure TransactionEnricher where
  bitcoinRpc : Option (String → Except BitcoinRpcError GetRawTransactionVerboseResult)
  restClient : Option (String → Option MempoolTx)
  sovereignOnly : Bool
  cache : UtxoCache
  config : EnricherConfig
  transactionsEnriched : ℕ
  lookupFailures : ℕ

namespace TransactionEnricher

/-- what one call meets: its clock readings, and the order in which concurrent lookups finish -/
structure Call where
  clock : ℕ → ℕ
  clock_mono : Monotone clock
  arrive : List String → List String
  arrive_perm : ∀ txids, (arrive txids).Perm txids

/-- `(btc * 100_000_000.0).round() as u64` -/
def satsOfBtc (value : ℚ) : ℕ := min (round (value * 100000000)).toNat (2 ^ 64 - 1)

/-- `DateTime::from_timestamp(secs, 0)`, nothing outside the years chrono can represent -/
def timestamp (secs : ℤ) : Option DateTime :=
  if -8334601228800 ≤ secs ∧ secs ≤ 8210266876799 then some (fromTimestamp secs) else none

def fromRpc (tx : GetRawTransactionVerboseResult) : CachedTxOutputs :=
  { confirmed := decide (tx.confirmations.getD 0 > 0)
    blockHeight := none
    confirmedAt := tx.blocktime.bind timestamp
    outputs := tx.vout.map fun v => (v.n, satsOfBtc v.value) }

def fromRest (tx : MempoolTx) : CachedTxOutputs :=
  { confirmed := tx.status.confirmed
    blockHeight := tx.status.blockHeight
    confirmedAt := tx.status.blockTime.bind timestamp
    outputs := tx.vout.mapIdx fun i value => (i, value) }

/-- mempool.space, unless the node is sovereign-only -/
def fetchRest (e : TransactionEnricher) (txid : String) : Option CachedTxOutputs :=
  if e.sovereignOnly then none
  else match e.restClient with
    | some client => (client txid).map fromRest
    | none => none

/-- one lookup task -/
def fetch (e : TransactionEnricher) (txid : String) : Option CachedTxOutputs :=
  match e.bitcoinRpc with
  | some rpc =>
    match rpc txid with
    | .ok tx => some (fromRpc tx)
    | .error _ => e.fetchRest txid
  | none => e.fetchRest txid

/-- inputs the first pass does not look at -/
def skipped (input : TxInputObservation) : Bool := input.isCoinbase || input.txid == ""

/-- `missing_txids.insert` under the limit -/
def noteMissing (limit : ℕ) (missing : List String) (txid : String) : List String :=
  if missing.length < limit then missing.insert txid else missing

def firstPass (clock : ℕ → ℕ) (limit : ℕ) :
    ℕ → UtxoCache → List String → List TxInputObservation → UtxoCache × List String × List TxInputObservation
  | _, c, missing, [] => (c, missing, [])
  | i, c, missing, input :: inputs =>
    if skipped input then
      let r := firstPass clock limit (i + 1) c missing inputs
      (r.1, r.2.1, input :: r.2.2)
    else
      let g := c.get (clock i) input.txid input.vout
      match g.2 with
      | some ctx =>
        let r := firstPass clock limit (i + 1) g.1 missing inputs
        (r.1, r.2.1, { input with historicalUtxo := some ctx } :: r.2.2)
      | none =>
        let r := firstPass clock limit (i + 1) g.1 (noteMissing limit missing input.txid) inputs
        (r.1, r.2.1, input :: r.2.2)

/-- store what the lookups brought back -/
def storeAll (clock : ℕ → ℕ) : ℕ → UtxoCache → List (String × CachedTxOutputs) → UtxoCache
  | _, c, [] => c
  | i, c, (txid, info) :: rest => storeAll clock (i + 1) (c.insert (clock i) txid info) rest

/-- the context, and the value unless the input has one -/
def fill (input : TxInputObservation) (ctx : SpentOutputContext) : TxInputObservation :=
  { input with
    historicalUtxo := some ctx
    prevOutValueSats := some (input.prevOutValueSats.getD ctx.valueSats) }

def thirdPass (clock : ℕ → ℕ) : ℕ → UtxoCache → List TxInputObservation → UtxoCache × List TxInputObservation
  | _, c, [] => (c, [])
  | i, c, input :: inputs =>
    if input.isCoinbase then
      let r := thirdPass clock (i + 1) c inputs
      (r.1, input :: r.2)
    else
      let g := c.get (clock i) input.txid input.vout
      let r := thirdPass clock (i + 1) g.1 inputs
      (r.1, (match g.2 with
        | some ctx => fill input ctx
        | none => input) :: r.2)

/-- every input has a value or is the coinbase -/
def valuesComplete (tx : TransactionObservation) : Bool :=
  tx.inputs.all fun i => i.prevOutValueSats.isSome || i.isCoinbase

/-- the `u64` sum of the known values, which wraps in a release build -/
def totalIn (tx : TransactionObservation) : ℕ := (tx.inputs.filterMap (·.prevOutValueSats)).sum % 2 ^ 64

/-- the fee and its rate, when the inputs give the complete value -/
def computeFees (tx : TransactionObservation) : TransactionObservation :=
  if tx.totalInputSats = 0 ∧ valuesComplete tx then
    if totalIn tx ≥ tx.totalOutputSats then
      { tx with
        totalInputSats := totalIn tx
        feeSats := totalIn tx - tx.totalOutputSats
        feeRateSatVb :=
          if tx.vsize > 0 ∧ tx.feeRateSatVb.isNone then some ((totalIn tx - tx.totalOutputSats : ℕ) / (tx.vsize : ℚ))
          else tx.feeRateSatVb }
    else { tx with totalInputSats := totalIn tx }
  else tx

def enrichTransaction (call : Call) (e : TransactionEnricher) (tx : TransactionObservation) :
    TransactionEnricher × TransactionObservation :=
  if tx.inputs.isEmpty then (e, tx)
  else
    let n := tx.inputs.length
    let first := firstPass call.clock e.config.maxInputEnrichment 0 e.cache [] tx.inputs
    if first.2.1.isEmpty then
      ({ e with cache := first.1, transactionsEnriched := e.transactionsEnriched + 1 }, { tx with inputs := first.2.2 })
    else
      let arrived := call.arrive first.2.1
      let found := arrived.filterMap fun txid => (e.fetch txid).map fun info => (txid, info)
      let third := thirdPass call.clock (2 * n) (storeAll call.clock n first.1 found) first.2.2
      ({ e with
          cache := third.1
          transactionsEnriched := e.transactionsEnriched + 1
          lookupFailures := e.lookupFailures + (arrived.filter fun txid => (e.fetch txid).isNone).length },
        computeFees { tx with inputs := third.2 })

/-! ## The passes, by what the cache shows -/

/-- from the i-th moment on the cache shows the view of that moment -/
def Shows (clock : ℕ → ℕ) (view : ℕ → String → Option CachedTxOutputs) (i : ℕ) (c : UtxoCache) : Prop :=
  ∀ n, i ≤ n → ∀ txid, c.peek (clock n) txid = view n txid

/-- the context an input has in a view -/
def contextIn (view : String → Option CachedTxOutputs) (input : TxInputObservation) : Option SpentOutputContext :=
  (view input.txid).bind fun data => data.context input.txid input.vout

/-- the first pass leaves the input unresolved -/
def unresolved (view : String → Option CachedTxOutputs) (input : TxInputObservation) : Bool :=
  !skipped input && (contextIn view input).isNone

/-- the txids of the inputs that are unresolved when they are looked at, from the i-th moment on -/
def unresolvedFrom (view : ℕ → String → Option CachedTxOutputs) (i : ℕ) (inputs : List TxInputObservation) :
    List String :=
  ((inputs.zipIdx i).filter fun p => unresolved (view p.2) p.1).map fun p => p.1.txid

/-- what the first pass does to an input -/
def resolve (view : String → Option CachedTxOutputs) (input : TxInputObservation) : TxInputObservation :=
  if skipped input then input
  else match contextIn view input with
    | some ctx => { input with historicalUtxo := some ctx }
    | none => input

/-- what the third pass does to an input -/
def refill (view : String → Option CachedTxOutputs) (input : TxInputObservation) : TxInputObservation :=
  if input.isCoinbase then input
  else match contextIn view input with
    | some ctx => fill input ctx
    | none => input

variable {clock : ℕ → ℕ} {view : ℕ → String → Option CachedTxOutputs}

theorem shows_peek (clock : ℕ → ℕ) (i : ℕ) (c : UtxoCache) : Shows clock (fun n => c.peek (clock n)) i c :=
  fun _ _ _ => rfl

theorem Shows.get {i : ℕ} {c : UtxoCache} (hclock : Monotone clock) (h : Shows clock view i c) (txid : String)
    (vout : ℕ) : Shows clock view (i + 1) (c.get (clock i) txid vout).1 := by
  intro n hn k
  rw [UtxoCache.peek_get c txid vout (hclock (by omega : i ≤ n)) k]
  exact h n (by omega) k

theorem Shows.get_snd {i : ℕ} {c : UtxoCache} (h : Shows clock view i c) (input : TxInputObservation) :
    (c.get (clock i) input.txid input.vout).2 = contextIn (view i) input := by
  have hview : c.peek (clock i) input.txid = view i input.txid := h i (le_refl i) input.txid
  rw [UtxoCache.get_snd, hview]
  rfl

theorem Shows.mono {i j : ℕ} {c : UtxoCache} (h : Shows clock view i c) (hij : i ≤ j) : Shows clock view j c :=
  fun n hn => h n (le_trans hij hn)

/-- **First pass.** It resolves the inputs it is shown, notes the txids of the others, and leaves the view alone. -/
theorem firstPass_spec (hclock : Monotone clock) (limit : ℕ) (inputs : List TxInputObservation) (i : ℕ) (c : UtxoCache)
    (missing : List String) (h : Shows clock view i c) :
    Shows clock view (i + inputs.length) (firstPass clock limit i c missing inputs).1 ∧
      (firstPass clock limit i c missing inputs).2.1 =
        (unresolvedFrom view i inputs).foldl (noteMissing limit) missing ∧
      (firstPass clock limit i c missing inputs).2.2 = inputs.mapIdx fun j input => resolve (view (i + j)) input := by
  induction inputs generalizing i c missing with
  | nil => exact ⟨h, rfl, rfl⟩
  | cons input inputs ih =>
    have hlen : i + (input :: inputs).length = i + 1 + inputs.length := by simp; omega
    have htail : (inputs.mapIdx fun j input => resolve (view (i + 1 + j)) input) =
        inputs.mapIdx fun j input => resolve (view (i + (j + 1))) input := by
      simp only [Nat.add_assoc, Nat.add_comm 1]
    rw [hlen, List.mapIdx_cons, ← htail]
    by_cases hs : skipped input = true
    · obtain ⟨hshows, hmissing, hinputs⟩ := ih (i + 1) c missing (h.mono (by omega))
      simp only [firstPass, hs, if_true]
      refine ⟨hshows, ?_, ?_⟩
      · rw [hmissing]
        simp [unresolvedFrom, unresolved, hs]
      · rw [hinputs]
        simp [resolve, hs]
    · have hget := h.get_snd input
      have hnext := h.get hclock input.txid input.vout
      cases hctx : contextIn (view i) input with
      | some ctx =>
        obtain ⟨hshows, hmissing, hinputs⟩ := ih (i + 1) _ missing hnext
        rw [hctx] at hget
        simp only [firstPass, hs, hget, if_false, Bool.false_eq_true]
        refine ⟨hshows, ?_, ?_⟩
        · rw [hmissing]
          simp [unresolvedFrom, unresolved, hctx]
        · rw [hinputs]
          simp [resolve, hs, hctx]
      | none =>
        obtain ⟨hshows, hmissing, hinputs⟩ := ih (i + 1) _ (noteMissing limit missing input.txid) hnext
        rw [hctx] at hget
        simp only [firstPass, hs, hget, if_false, Bool.false_eq_true]
        refine ⟨hshows, ?_, ?_⟩
        · rw [hmissing]
          simp [unresolvedFrom, unresolved, hs, hctx]
        · rw [hinputs]
          simp [resolve, hs, hctx]

/-- what every `get` keeps, the first pass keeps -/
theorem firstPass_inv {P : UtxoCache → Prop} (hget : ∀ now c txid vout, P c → P (UtxoCache.get now c txid vout).1)
    (limit : ℕ) (inputs : List TxInputObservation) (i : ℕ) (c : UtxoCache) (missing : List String) (h : P c) :
    P (firstPass clock limit i c missing inputs).1 := by
  induction inputs generalizing i c missing with
  | nil => exact h
  | cons input inputs ih =>
    have hnext := hget (clock i) c input.txid input.vout h
    by_cases hs : skipped input = true
    · simp only [firstPass, hs, if_true]
      exact ih (i + 1) c missing h
    · cases hctx : (c.get (clock i) input.txid input.vout).2 with
      | some ctx =>
        simp only [firstPass, hs, hctx, if_false, Bool.false_eq_true]
        exact ih (i + 1) _ missing hnext
      | none =>
        simp only [firstPass, hs, hctx, if_false, Bool.false_eq_true]
        exact ih (i + 1) _ (noteMissing limit missing input.txid) hnext

/-- the first pass keeps the bounds and never adds an entry -/
theorem firstPass_size (clock : ℕ → ℕ) (limit : ℕ) (inputs : List TxInputObservation) (i : ℕ) (c : UtxoCache)
    (missing : List String) :
    (firstPass clock limit i c missing inputs).1.ttl = c.ttl ∧
      (firstPass clock limit i c missing inputs).1.maxCapacity = c.maxCapacity ∧
      (firstPass clock limit i c missing inputs).1.map.keys.length ≤ c.map.keys.length := by
  apply firstPass_inv (P := fun c' =>
    c'.ttl = c.ttl ∧ c'.maxCapacity = c.maxCapacity ∧ c'.map.keys.length ≤ c.map.keys.length)
  · intro now c' txid vout h
    obtain ⟨httl, hcap, hsize⟩ := h
    obtain ⟨httl', hcap', hsize'⟩ := UtxoCache.get_size now c' txid vout
    exact ⟨httl'.trans httl, hcap'.trans hcap, hsize'.trans hsize⟩
  · exact ⟨rfl, rfl, le_refl _⟩

/-- **Third pass.** It fills every input that it is shown. -/
theorem thirdPass_eq (hclock : Monotone clock) (inputs : List TxInputObservation) (i : ℕ) (c : UtxoCache)
    (h : Shows clock view i c) :
    (thirdPass clock i c inputs).2 = inputs.mapIdx fun j input => refill (view (i + j)) input := by
  induction inputs generalizing i c with
  | nil => rfl
  | cons input inputs ih =>
    have htail : (inputs.mapIdx fun j input => refill (view (i + 1 + j)) input) =
        inputs.mapIdx fun j input => refill (view (i + (j + 1))) input := by
      simp only [Nat.add_assoc, Nat.add_comm 1]
    rw [List.mapIdx_cons, ← htail]
    by_cases hc : input.isCoinbase = true
    · have hrest := ih (i + 1) c (h.mono (by omega))
      simp [thirdPass, refill, hc, hrest]
    · have hrest := ih (i + 1) _ (h.get hclock input.txid input.vout)
      simp only [thirdPass, hc, h.get_snd input, if_false, Bool.false_eq_true]
      rw [hrest]
      congr 1
      simp only [refill, hc, if_false, Bool.false_eq_true, Nat.add_zero]

/-- **Second pass.** With room for what is stored, and within the TTL, the cache gains it. -/
theorem peek_storeAll {later : ℕ} (found : List (String × CachedTxOutputs)) (i : ℕ) (c : UtxoCache)
    (hroom : c.map.keys.length + found.length ≤ c.maxCapacity) (hbrief : ∀ n, later - clock n < c.ttl)
    (txid : String) :
    (storeAll clock i c found).peek later txid = (found.reverse.lookup txid).or (c.peek later txid) := by
  induction found generalizing i c with
  | nil => simp [storeAll]
  | cons p found ih =>
    obtain ⟨stored, info⟩ := p
    have hlt : c.map.keys.length < c.maxCapacity := by simp at hroom; omega
    obtain ⟨httl, hcap, hsize⟩ := UtxoCache.insert_size (clock i) stored info hlt
    have hrest := ih (i + 1) (c.insert (clock i) stored info) (by simp at hroom; rw [hcap]; omega)
      (by rw [httl]; exact hbrief)
    rw [storeAll, hrest, UtxoCache.peek_insert (clock i) later stored info hlt (hbrief i), List.reverse_cons,
      List.lookup_append]
    by_cases hk : txid = stored
    · cases List.lookup txid found.reverse with
      | none => simp [hk]
      | some v => simp
    · have hne : (txid == stored) = false := by simpa using hk
      simp [hk, List.lookup_cons, hne]

end TransactionEnricher

end ObsChain
