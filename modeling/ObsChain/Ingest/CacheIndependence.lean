/-
Does what an enricher's cache happens to hold show in the transactions it enriches?

`PrevTxs` is the truth about previous transactions: at most one record per txid, and no transaction has the empty txid.
A cache `Agrees` with it when every entry is that record. Two calls on the same transaction are compared by what they
fill in (`enrichment`): each input's context and value, the total, the fee and its rate.

- `enriched_eq`: what a call does to each input. It gets its context if the cache has its output at the first look or
  at the second, its value only at the second, and there is a second look only when something is looked up
  (`looksUp`); only then is the fee computed. Between the two looks an entry can expire, or be evicted by what is stored.
- `enrichment_agrees_iff`: so two calls give the same enrichment exactly when they serve the inputs alike, as far as
  the transaction does not carry the missing part already (`ServedAlike`). For calls that meet none of the limits
  (`Undisturbed`: the txids to look up are within the configured number and fit into the cache beside what is there, and
  nothing goes stale meanwhile) this is when both caches hold every input, or neither does, or there is nothing to fill in.
- `warm_cache_without_values`: the same transaction through an empty cache and through a warm one.
-/
import Mathlib.Tactic
import ObsChain.Ingest.Enricher

namespace ObsChain.TransactionEnricher

/-- the truth about previous transactions -/
structure PrevTxs where
  outputs : String → Option CachedTxOutputs
  no_empty : outputs "" = none

/-- every entry is the previous transaction's own record -/
def Agrees (truth : PrevTxs) (c : UtxoCache) : Prop :=
  ∀ txid entry, c.map.lookup txid = some entry → truth.outputs txid = some entry.data

/-- every lookup the transaction can need finds its previous transaction -/
def LookupsSucceed (truth : PrevTxs) (e : TransactionEnricher) (tx : TransactionObservation) : Prop :=
  ∀ input ∈ tx.inputs, skipped input = false →
    (truth.outputs input.txid).isSome ∧ e.fetch input.txid = truth.outputs input.txid

/-- what an enrichment fills in -/
def enrichment (tx : TransactionObservation) :
    List (Option SpentOutputContext × Option ℕ) × ℕ × ℕ × Option ℚ :=
  (tx.inputs.map fun i => (i.historicalUtxo, i.prevOutValueSats), tx.totalInputSats, tx.feeSats, tx.feeRateSatVb)

/-- computing the fee would change nothing -/
def FeesSettled (tx : TransactionObservation) : Prop :=
  tx.totalInputSats ≠ 0 ∨ valuesComplete tx = false ∨
    (totalIn tx = 0 ∧ (tx.totalOutputSats = 0 → tx.feeSats = 0 ∧ (tx.vsize = 0 ∨ tx.feeRateSatVb.isSome)))

/-- the transaction already carries what the fill would add -/
def Filled (tx : TransactionObservation) : Prop :=
  (∀ input ∈ tx.inputs, skipped input = false → input.prevOutValueSats.isSome) ∧ FeesSettled tx

/-! ## The two looks at an input -/

/-- the view has the output the input spends -/
def seen (view : String → Option CachedTxOutputs) (input : TxInputObservation) : Bool :=
  !input.isCoinbase && (contextIn view input).isSome

/-- some input is not in the cache when it is looked at, and the limit leaves room for a lookup -/
def looksUp (call : Call) (e : TransactionEnricher) (tx : TransactionObservation) : Bool :=
  decide (0 < e.config.maxInputEnrichment) &&
    !(unresolvedFrom (fun n => e.cache.peek (call.clock n)) 0 tx.inputs).isEmpty

/-- what the lookups bring back, in the order they finish -/
def found (call : Call) (e : TransactionEnricher) (missing : List String) : List (String × CachedTxOutputs) :=
  (call.arrive missing).filterMap fun txid => (e.fetch txid).map fun info => (txid, info)

/-- the cache once the looked-up transactions are stored -/
def stocked (call : Call) (e : TransactionEnricher) (tx : TransactionObservation) : UtxoCache :=
  let first := firstPass call.clock e.config.maxInputEnrichment 0 e.cache [] tx.inputs
  storeAll call.clock tx.inputs.length first.1 (found call e first.2.1)

/-- the j-th input is seen at the second look -/
def seenAgain (call : Call) (e : TransactionEnricher) (tx : TransactionObservation) (j : ℕ)
    (input : TxInputObservation) : Bool :=
  looksUp call e tx && seen ((stocked call e tx).peek (call.clock (2 * tx.inputs.length + j))) input

/-- the j-th input is seen at one of the looks -/
def seenEver (call : Call) (e : TransactionEnricher) (tx : TransactionObservation) (j : ℕ)
    (input : TxInputObservation) : Bool :=
  seen (e.cache.peek (call.clock j)) input || seenAgain call e tx j input

/-- the j-th input as the call leaves it -/
def served (truth : PrevTxs) (call : Call) (e : TransactionEnricher) (tx : TransactionObservation) (j : ℕ)
    (input : TxInputObservation) : TxInputObservation :=
  { input with
    historicalUtxo := if seenEver call e tx j input then contextIn truth.outputs input else input.historicalUtxo
    prevOutValueSats :=
      if seenAgain call e tx j input then
        input.prevOutValueSats.or ((contextIn truth.outputs input).map (·.valueSats))
      else input.prevOutValueSats }

/-- two calls see the same inputs, as far as the transaction does not carry what one of them adds -/
structure ServedAlike (truth : PrevTxs) (callA : Call) (eA : TransactionEnricher) (callB : Call)
    (eB : TransactionEnricher) (tx : TransactionObservation) : Prop where
  contexts : ∀ j (h : j < tx.inputs.length),
    seenEver callA eA tx j tx.inputs[j] = seenEver callB eB tx j tx.inputs[j] ∨
      tx.inputs[j].historicalUtxo = contextIn truth.outputs tx.inputs[j]
  values : ∀ j (h : j < tx.inputs.length),
    seenAgain callA eA tx j tx.inputs[j] = seenAgain callB eB tx j tx.inputs[j] ∨
      tx.inputs[j].prevOutValueSats.isSome
  fees : looksUp callA eA tx = looksUp callB eB tx ∨ FeesSettled tx

/-! ## The txids that are looked up -/

section Missing

variable {limit : ℕ} {missing txids all : List String}

/-- within the limit no txid is turned away -/
theorem noteMissing_eq_insert {t : String} (hnodup : missing.Nodup) (hsub : missing ⊆ all) (ht : t ∈ all)
    (hlim : all.dedup.length ≤ limit) : noteMissing limit missing t = missing.insert t := by
  unfold noteMissing
  split_ifs with hlt
  · rfl
  · -- a full set has every txid already
    have hsubperm : missing.Subperm all.dedup :=
      List.subperm_of_subset hnodup (fun u hu => List.mem_dedup.2 (hsub hu))
    have hperm : missing.Perm all.dedup := hsubperm.perm_of_length_le (by omega)
    have hmem : t ∈ missing := hperm.mem_iff.2 (List.mem_dedup.2 ht)
    exact (List.insert_of_mem hmem).symm

/-- the noted txids are each noted once -/
theorem noteMissing_spec (hlim : all.dedup.length ≤ limit) (hnodup : missing.Nodup) (hsub : missing ⊆ all)
    (htxids : txids ⊆ all) :
    (txids.foldl (noteMissing limit) missing).Nodup ∧
      ∀ t, t ∈ txids.foldl (noteMissing limit) missing ↔ t ∈ missing ∨ t ∈ txids := by
  induction txids generalizing missing with
  | nil => exact ⟨hnodup, fun t => by simp⟩
  | cons u txids ih =>
    rw [List.cons_subset] at htxids
    obtain ⟨hu, hrest⟩ := htxids
    have hsub' : missing.insert u ⊆ all := by
      intro t ht
      rcases List.mem_insert_iff.1 ht with heq | hold
      · exact heq ▸ hu
      · exact hsub hold
    obtain ⟨hnd, hmem⟩ := ih hnodup.insert hsub' hrest
    rw [List.foldl_cons, noteMissing_eq_insert hnodup hsub hu hlim]
    refine ⟨hnd, ?_⟩
    intro t
    rw [hmem t, List.mem_insert_iff, List.mem_cons]
    tauto

/-- only noted txids are looked up -/
theorem mem_noted {limit : ℕ} {missing txids : List String} {t : String}
    (ht : t ∈ txids.foldl (noteMissing limit) missing) : t ∈ missing ∨ t ∈ txids := by
  induction txids generalizing missing with
  | nil => exact Or.inl ht
  | cons u txids ih =>
    rcases ih ht with hm | hrest
    · unfold noteMissing at hm
      split_ifs at hm
      · rcases List.mem_insert_iff.1 hm with heq | hold
        · exact Or.inr (heq ▸ List.mem_cons_self)
        · exact Or.inl hold
      · exact Or.inl hm
    · exact Or.inr (List.mem_cons_of_mem u hrest)

theorem noted_ne_nil {limit : ℕ} {missing : List String} (h : missing ≠ []) (txids : List String) :
    txids.foldl (noteMissing limit) missing ≠ [] := by
  induction txids generalizing missing with
  | nil => exact h
  | cons u txids ih =>
    apply ih
    unfold noteMissing
    split_ifs
    · exact List.ne_nil_of_mem List.mem_insert_self
    · exact h

/-- nothing is noted exactly when nothing is unresolved or the limit is zero -/
theorem noted_eq_nil_iff (limit : ℕ) (txids : List String) :
    txids.foldl (noteMissing limit) [] = [] ↔ ¬ (0 < limit ∧ txids ≠ []) := by
  cases txids with
  | nil => simp
  | cons u txids =>
    rcases Nat.eq_zero_or_pos limit with hzero | hpos
    · have hstay : ∀ us : List String, us.foldl (noteMissing limit) [] = [] := by
        intro us
        induction us with
        | nil => rfl
        | cons v us ih => simpa [noteMissing, hzero] using ih
      rw [hstay]
      simp [hzero]
    · have hne : noteMissing limit [] u ≠ [] := by simp [noteMissing, hpos]
      simp [hpos, noted_ne_nil hne txids]

end Missing

/-! ## One call -/

section OneCall

variable {truth : PrevTxs} {call : Call} {e : TransactionEnricher} {tx : TransactionObservation}

theorem Agrees.get {c : UtxoCache} (h : Agrees truth c) (now : ℕ) (txid : String) (vout : ℕ) :
    Agrees truth (c.get now txid vout).1 :=
  fun k entry hl => h k entry (UtxoCache.lookup_of_get hl)

theorem Agrees.storeAll {stored : List (String × CachedTxOutputs)}
    (hstored : ∀ p ∈ stored, truth.outputs p.1 = some p.2) (clock : ℕ → ℕ) {i : ℕ} {c : UtxoCache}
    (h : Agrees truth c) : Agrees truth (storeAll clock i c stored) := by
  induction stored generalizing i c with
  | nil => exact h
  | cons p stored ih =>
    obtain ⟨txid, info⟩ := p
    apply ih (fun q hq => hstored q (List.mem_cons_of_mem _ hq))
    intro k entry hl
    rcases UtxoCache.lookup_of_insert hl with ⟨rfl, rfl⟩ | hold
    · exact hstored (k, info) List.mem_cons_self
    · exact h k entry hold

/-- a context that an agreeing cache shows is the true one -/
theorem contextIn_of_agrees {c : UtxoCache} (hagrees : Agrees truth c) {now : ℕ} {input : TxInputObservation}
    {ctx : SpentOutputContext} (hctx : contextIn (c.peek now) input = some ctx) :
    contextIn truth.outputs input = some ctx := by
  unfold contextIn at *
  cases hp : c.peek now input.txid with
  | none => simp [hp] at hctx
  | some data =>
    obtain ⟨entry, hl, hdata⟩ := UtxoCache.lookup_of_peek hp
    rw [hagrees input.txid entry hl, hdata]
    rwa [hp] at hctx

theorem contextIn_eq_none_of_empty {input : TxInputObservation} (h : input.txid = "") :
    contextIn truth.outputs input = none := by
  simp [contextIn, h, truth.no_empty]

theorem contextIn_of_seen {c : UtxoCache} (hagrees : Agrees truth c) {now : ℕ} {input : TxInputObservation}
    (h : seen (c.peek now) input = true) : contextIn (c.peek now) input = contextIn truth.outputs input := by
  obtain ⟨-, hsome⟩ := by simpa only [seen, Bool.and_eq_true] using h
  obtain ⟨ctx, hctx⟩ := Option.isSome_iff_exists.1 hsome
  rw [hctx, contextIn_of_agrees hagrees hctx]

/-- an input that an agreeing cache shows is one the first pass looks at -/
theorem resolve_eq {c : UtxoCache} (hagrees : Agrees truth c) (now : ℕ) (input : TxInputObservation) :
    resolve (c.peek now) input =
      if seen (c.peek now) input then { input with historicalUtxo := contextIn truth.outputs input } else input := by
  by_cases hseen : seen (c.peek now) input = true
  · have htrue := contextIn_of_seen hagrees hseen
    obtain ⟨hcoinbase, hsome⟩ := by simpa only [seen, Bool.and_eq_true, Bool.not_eq_true'] using hseen
    obtain ⟨ctx, hctx⟩ := Option.isSome_iff_exists.1 hsome
    have hne : input.txid ≠ "" := by
      intro hempty
      rw [hctx, contextIn_eq_none_of_empty hempty] at htrue
      cases htrue
    simp [resolve, skipped, hcoinbase, hne, hseen, ← htrue, hctx]
  · rw [if_neg hseen]
    unfold resolve
    split_ifs with hs
    · rfl
    · have hnone : contextIn (c.peek now) input = none := by
        simp only [skipped, Bool.or_eq_true, not_or] at hs
        simpa [seen, hs.1] using hseen
      rw [hnone]

theorem refill_eq {c : UtxoCache} (hagrees : Agrees truth c) (now : ℕ) (input : TxInputObservation) :
    refill (c.peek now) input =
      if seen (c.peek now) input then
        { input with
          historicalUtxo := contextIn truth.outputs input
          prevOutValueSats := input.prevOutValueSats.or ((contextIn truth.outputs input).map (·.valueSats)) }
      else input := by
  by_cases hseen : seen (c.peek now) input = true
  · have htrue := contextIn_of_seen hagrees hseen
    obtain ⟨hcoinbase, hsome⟩ := by simpa only [seen, Bool.and_eq_true, Bool.not_eq_true'] using hseen
    obtain ⟨ctx, hctx⟩ := Option.isSome_iff_exists.1 hsome
    rw [if_pos hseen, ← htrue, hctx]
    unfold refill
    rw [if_neg (by simp [hcoinbase]), hctx]
    cases hv : input.prevOutValueSats <;> simp [fill, hv]
  · rw [if_neg hseen]
    unfold refill
    split_ifs with hcoinbase
    · rfl
    · have hnone : contextIn (c.peek now) input = none := by simpa [seen, hcoinbase] using hseen
      rw [hnone]

/-- the txids that are looked up are those of inputs whose lookup succeeds -/
theorem fetch_of_mem_unresolvedFrom (hlookups : LookupsSucceed truth e tx)
    {view : ℕ → String → Option CachedTxOutputs} {t : String} (ht : t ∈ unresolvedFrom view 0 tx.inputs) :
    (truth.outputs t).isSome ∧ e.fetch t = truth.outputs t := by
  rw [unresolvedFrom, List.mem_map] at ht
  obtain ⟨p, hp, rfl⟩ := ht
  rw [List.mem_filter] at hp
  obtain ⟨hmem, hun⟩ := hp
  have hinput : p.1 ∈ tx.inputs := (List.mem_zipIdx' hmem).2 ▸ List.getElem_mem _
  exact hlookups p.1 hinput (by simp_all [unresolved])

/-- what the lookups bring back is true -/
theorem found_true (hlookups : LookupsSucceed truth e tx) {view : ℕ → String → Option CachedTxOutputs}
    {missing : List String} (hmissing : ∀ t ∈ missing, t ∈ unresolvedFrom view 0 tx.inputs) :
    ∀ p ∈ found call e missing, truth.outputs p.1 = some p.2 := by
  intro p hp
  obtain ⟨t, ht, hfetched⟩ := List.mem_filterMap.1 hp
  obtain ⟨info, hinfo, rfl⟩ := Option.map_eq_some_iff.1 hfetched
  have hmem : t ∈ missing := (call.arrive_perm missing).mem_iff.1 ht
  obtain ⟨-, hfetch⟩ := fetch_of_mem_unresolvedFrom hlookups (hmissing t hmem)
  rw [← hfetch, hinfo]

/-- the stocked cache agrees with the truth -/
theorem agrees_stocked (hlookups : LookupsSucceed truth e tx) (hagrees : Agrees truth e.cache) :
    Agrees truth (stocked call e tx) := by
  obtain ⟨-, hmissing, -⟩ := firstPass_spec call.clock_mono e.config.maxInputEnrichment tx.inputs 0 e.cache []
    (shows_peek call.clock 0 e.cache)
  apply Agrees.storeAll
  · apply found_true hlookups
    intro t ht
    rw [hmissing] at ht
    exact (mem_noted ht).resolve_left List.not_mem_nil
  · exact firstPass_inv (fun now c txid vout h => h.get now txid vout) _ _ _ _ _ hagrees

/-- without lookups an input is served by the first pass -/
theorem served_of_resolve (hagrees : Agrees truth e.cache) (hup : looksUp call e tx = false) (j : ℕ)
    (input : TxInputObservation) : resolve (e.cache.peek (call.clock j)) input = served truth call e tx j input := by
  have hagain : seenAgain call e tx j input = false := by simp [seenAgain, hup]
  rw [resolve_eq hagrees, served, seenEver, hagain, Bool.or_false, if_neg Bool.false_ne_true]
  split_ifs <;> rfl

/-- after lookups it is served by the first and the third -/
theorem served_of_refill (hlookups : LookupsSucceed truth e tx) (hagrees : Agrees truth e.cache)
    (hup : looksUp call e tx = true) (j : ℕ) (input : TxInputObservation) :
    refill ((stocked call e tx).peek (call.clock (2 * tx.inputs.length + j)))
        (resolve (e.cache.peek (call.clock j)) input) = served truth call e tx j input := by
  have hagain : seenAgain call e tx j input =
      seen ((stocked call e tx).peek (call.clock (2 * tx.inputs.length + j))) input := by
    rw [seenAgain, hup, Bool.true_and]
  rw [refill_eq (agrees_stocked hlookups hagrees), resolve_eq hagrees, served, seenEver, hagain]
  by_cases hfirst : seen (e.cache.peek (call.clock j)) input = true
  · rw [if_pos hfirst, hfirst, Bool.true_or, if_pos rfl]
    -- attaching a context does not change what is looked for
    show (if seen _ input then _ else _) = _
    split_ifs <;> rfl
  · rw [if_neg hfirst, Bool.eq_false_of_not_eq_true hfirst, Bool.false_or]
    split_ifs <;> rfl

/-- **What a call does.** Every input is left as it is served, and after lookups the fee is computed. -/
theorem enriched_eq (hlookups : LookupsSucceed truth e tx) (hagrees : Agrees truth e.cache) :
    (enrichTransaction call e tx).2 =
      if looksUp call e tx then computeFees { tx with inputs := tx.inputs.mapIdx (served truth call e tx) }
      else { tx with inputs := tx.inputs.mapIdx (served truth call e tx) } := by
  obtain ⟨-, hmissing, hinputs⟩ := firstPass_spec call.clock_mono e.config.maxInputEnrichment tx.inputs 0 e.cache []
    (shows_peek call.clock 0 e.cache)
  have hlooks : (firstPass call.clock e.config.maxInputEnrichment 0 e.cache [] tx.inputs).2.1.isEmpty =
      !looksUp call e tx := by
    rw [hmissing, Bool.eq_iff_iff, List.isEmpty_iff, noted_eq_nil_iff]
    by_cases hpos : 0 < e.config.maxInputEnrichment <;> simp [looksUp, hpos]
  simp only [Nat.zero_add] at hinputs
  unfold enrichTransaction
  by_cases hempty : tx.inputs.isEmpty = true
  · have hnil : tx.inputs = [] := by simpa using hempty
    have hno : looksUp call e tx = false := by simp [looksUp, hnil, unresolvedFrom]
    rw [if_pos hempty, if_neg (by simp [hno]), hnil, List.mapIdx_nil, ← hnil]
  · rw [if_neg hempty]
    dsimp only
    rw [hlooks]
    cases hup : looksUp call e tx with
    | false =>
      have hserved : tx.inputs.mapIdx (fun j input => resolve (e.cache.peek (call.clock j)) input) =
          tx.inputs.mapIdx (served truth call e tx) :=
        List.mapIdx_eq_mapIdx_iff.2 fun j _ => served_of_resolve hagrees hup j _
      simp [hinputs, hserved]
    | true =>
      have hserved : (thirdPass call.clock (2 * tx.inputs.length) (stocked call e tx)
          (firstPass call.clock e.config.maxInputEnrichment 0 e.cache [] tx.inputs).2.2).2 =
          tx.inputs.mapIdx (served truth call e tx) := by
        rw [thirdPass_eq call.clock_mono _ _ _ (shows_peek call.clock _ _), hinputs, List.mapIdx_mapIdx]
        exact List.mapIdx_eq_mapIdx_iff.2 fun j _ => served_of_refill hlookups hagrees hup j _
      exact congrArg (fun inputs => computeFees { tx with inputs := inputs }) hserved

end OneCall

/-! ## Two calls -/

section TwoCalls

variable {truth : PrevTxs} {tx : TransactionObservation}

/-- the total, the fee and its rate -/
def fees (tx : TransactionObservation) : ℕ × ℕ × Option ℚ := (tx.totalInputSats, tx.feeSats, tx.feeRateSatVb)

theorem fees_inputs (tx : TransactionObservation) (inputs : List TxInputObservation) :
    fees { tx with inputs := inputs } = fees tx := rfl

/-- what the fee is computed from -/
def worth (input : TxInputObservation) : Bool × Option ℕ := (input.isCoinbase, input.prevOutValueSats)

/-- computing the fee changes nothing exactly when it is settled -/
theorem fees_computeFees_iff (tx : TransactionObservation) : fees (computeFees tx) = fees tx ↔ FeesSettled tx := by
  unfold computeFees FeesSettled fees
  by_cases hz : tx.totalInputSats = 0 ∧ valuesComplete tx = true
  · rw [if_pos hz]
    obtain ⟨hzero, hcomplete⟩ := hz
    by_cases hge : totalIn tx ≥ tx.totalOutputSats
    · rw [if_pos hge]
      constructor
      · intro hsame
        obtain ⟨htotal, hfee, hrate⟩ := by simpa only [Prod.mk.injEq] using hsame
        refine Or.inr (Or.inr ⟨by omega, fun hout => ⟨by omega, ?_⟩⟩)
        by_cases hv : tx.vsize = 0
        · exact Or.inl hv
        · right
          by_contra hnone
          rw [if_pos ⟨by omega, by simpa using hnone⟩] at hrate
          simp [← hrate] at hnone
      · intro hsettled
        rcases hsettled with hne | hincomplete | ⟨htotal, hout⟩
        · exact absurd hzero hne
        · simp [hcomplete] at hincomplete
        · obtain ⟨hfee, hrate⟩ := hout (by omega)
          have hkeep : ¬ (tx.vsize > 0 ∧ tx.feeRateSatVb.isNone = true) := by
            rintro ⟨hpos, hnone⟩
            rcases hrate with hv | hsome
            · omega
            · simp_all
          rw [if_neg hkeep]
          simp [htotal, hzero, hfee]
    · rw [if_neg hge]
      simp [hzero, hcomplete]
      omega
  · rw [if_neg hz]
    simp only [true_iff]
    by_cases hzero : tx.totalInputSats = 0
    · exact Or.inr (Or.inl (by simpa [hzero] using hz))
    · exact Or.inl hzero

@[simp] theorem computeFees_inputs (tx : TransactionObservation) : (computeFees tx).inputs = tx.inputs := by
  unfold computeFees
  split_ifs <;> rfl

/-- the fee depends on what the inputs are worth and on nothing else of them -/
theorem fees_computeFees_congr {inputs inputs' : List TxInputObservation} (h : inputs.map worth = inputs'.map worth) :
    fees (computeFees { tx with inputs := inputs }) = fees (computeFees { tx with inputs := inputs' }) := by
  have hcomplete : ∀ l : List TxInputObservation, valuesComplete { tx with inputs := l } =
      (l.map worth).all fun w => w.2.isSome || w.1 := by
    intro l
    rw [List.all_map]
    rfl
  have htotal : ∀ l : List TxInputObservation, totalIn { tx with inputs := l } =
      ((l.map worth).filterMap fun w => w.2).sum % 2 ^ 64 := by
    intro l
    rw [List.filterMap_map]
    rfl
  unfold computeFees
  rw [hcomplete, hcomplete, htotal, htotal, h]
  split_ifs <;> rfl

theorem enrichment_eq_iff (a b : TransactionObservation) :
    enrichment a = enrichment b ↔
      (a.inputs.map fun i => (i.historicalUtxo, i.prevOutValueSats)) =
        (b.inputs.map fun i => (i.historicalUtxo, i.prevOutValueSats)) ∧ fees a = fees b := by
  simp [enrichment, fees]

theorem map_mapIdx_eq_iff {α β γ : Type} {l : List α} {f f' : ℕ → α → β} {g : β → γ} :
    (l.mapIdx f).map g = (l.mapIdx f').map g ↔ ∀ j (h : j < l.length), g (f j l[j]) = g (f' j l[j]) := by
  have hmap : ∀ f : ℕ → α → β, (l.mapIdx f).map g = l.mapIdx fun j a => g (f j a) := by
    intro f
    rw [List.mapIdx_eq_zipIdx_map, List.mapIdx_eq_zipIdx_map, List.map_map]
    rfl
  rw [hmap, hmap, List.mapIdx_eq_mapIdx_iff]

/-- a choice made twice -/
theorem ite_eq_ite_iff {α : Type} {a b : Bool} {x y : α} :
    (if a then x else y) = (if b then x else y) ↔ a = b ∨ y = x := by
  cases a <;> cases b <;> simp [eq_comm]

theorem fees_computeFees_of_worth {inputs : List TxInputObservation} (h : inputs.map worth = tx.inputs.map worth) :
    fees (computeFees { tx with inputs := inputs }) = fees tx ↔ FeesSettled tx := by
  rw [fees_computeFees_congr h]
  exact fees_computeFees_iff tx

theorem contextIn_of_seenAgain {call : Call} {e : TransactionEnricher} (hlookups : LookupsSucceed truth e tx)
    (hagrees : Agrees truth e.cache) {j : ℕ} {input : TxInputObservation} (h : seenAgain call e tx j input = true) :
    (contextIn truth.outputs input).isSome := by
  obtain ⟨-, hseen⟩ := by simpa only [seenAgain, Bool.and_eq_true] using h
  rw [← contextIn_of_seen (agrees_stocked hlookups hagrees) hseen]
  obtain ⟨-, hsome⟩ := by simpa only [seen, Bool.and_eq_true] using hseen
  exact hsome

theorem worth_served {call : Call} {e : TransactionEnricher} (hup : looksUp call e tx = false) :
    (tx.inputs.mapIdx (served truth call e tx)).map worth = tx.inputs.map worth := by
  apply List.ext_getElem (by simp)
  intro j hj hj'
  simp [served, worth, seenAgain, hup]

variable {callA callB : Call} {eA eB : TransactionEnricher}

/-- two calls leave an input the same exactly when both see it, or neither does, or it has what is added already -/
theorem served_eq_iff (hA : LookupsSucceed truth eA tx) (hB : LookupsSucceed truth eB tx) (ha : Agrees truth eA.cache)
    (hb : Agrees truth eB.cache) (j : ℕ) (input : TxInputObservation) :
    ((served truth callA eA tx j input).historicalUtxo, (served truth callA eA tx j input).prevOutValueSats) =
        ((served truth callB eB tx j input).historicalUtxo, (served truth callB eB tx j input).prevOutValueSats) ↔
      (seenEver callA eA tx j input = seenEver callB eB tx j input ∨
          input.historicalUtxo = contextIn truth.outputs input) ∧
        (seenAgain callA eA tx j input = seenAgain callB eB tx j input ∨ input.prevOutValueSats.isSome) := by
  rw [Prod.mk.injEq]
  apply and_congr
  · exact ite_eq_ite_iff
  · refine ite_eq_ite_iff.trans ?_
    by_cases hsame : seenAgain callA eA tx j input = seenAgain callB eB tx j input
    · simp [hsame]
    · -- one of the two fills the value in
      have hsome : (contextIn truth.outputs input).isSome := by
        cases hagain : seenAgain callA eA tx j input with
        | true => exact contextIn_of_seenAgain hA ha hagain
        | false =>
          rw [hagain] at hsame
          exact contextIn_of_seenAgain hB hb (by simpa using Ne.symm hsame)
      obtain ⟨ctx, hctx⟩ := Option.isSome_iff_exists.1 hsome
      cases hv : input.prevOutValueSats <;> simp [hsame, hctx]

/-- when the inputs come to the same, so do the fees, unless one call computes them and they were not settled -/
theorem fees_enriched_iff (hA : LookupsSucceed truth eA tx) (hB : LookupsSucceed truth eB tx)
    (ha : Agrees truth eA.cache) (hb : Agrees truth eB.cache)
    (hworth : (tx.inputs.mapIdx (served truth callA eA tx)).map worth =
      (tx.inputs.mapIdx (served truth callB eB tx)).map worth) :
    fees (enrichTransaction callA eA tx).2 = fees (enrichTransaction callB eB tx).2 ↔
      looksUp callA eA tx = looksUp callB eB tx ∨ FeesSettled tx := by
  rw [enriched_eq hA ha, enriched_eq hB hb]
  cases hupA : looksUp callA eA tx with
  | false =>
    cases hupB : looksUp callB eB tx with
    | false => simp [fees_inputs]
    | true =>
      have hsettled := fees_computeFees_of_worth (hworth.symm.trans (worth_served hupA))
      simpa [fees_inputs] using eq_comm.trans hsettled
  | true =>
    cases hupB : looksUp callB eB tx with
    | false =>
      have hsettled := fees_computeFees_of_worth (hworth.trans (worth_served hupB))
      simpa [fees_inputs] using hsettled
    | true => simpa using fees_computeFees_congr hworth

theorem enriched_inputs {call : Call} {e : TransactionEnricher} (hlookups : LookupsSucceed truth e tx)
    (hagrees : Agrees truth e.cache) :
    (enrichTransaction call e tx).2.inputs = tx.inputs.mapIdx (served truth call e tx) := by
  rw [enriched_eq hlookups hagrees]
  split_ifs
  · exact computeFees_inputs _
  · rfl

/-- **When two calls give the same enrichment**, whatever the limits do. -/
theorem servedAlike_iff (hA : LookupsSucceed truth eA tx) (hB : LookupsSucceed truth eB tx)
    (ha : Agrees truth eA.cache) (hb : Agrees truth eB.cache) :
    enrichment (enrichTransaction callA eA tx).2 = enrichment (enrichTransaction callB eB tx).2 ↔
      ServedAlike truth callA eA callB eB tx := by
  have hpairs : ((tx.inputs.mapIdx (served truth callA eA tx)).map fun i => (i.historicalUtxo, i.prevOutValueSats)) =
      ((tx.inputs.mapIdx (served truth callB eB tx)).map fun i => (i.historicalUtxo, i.prevOutValueSats)) ↔
      ∀ j (h : j < tx.inputs.length),
        (seenEver callA eA tx j tx.inputs[j] = seenEver callB eB tx j tx.inputs[j] ∨
          tx.inputs[j].historicalUtxo = contextIn truth.outputs tx.inputs[j]) ∧
        (seenAgain callA eA tx j tx.inputs[j] = seenAgain callB eB tx j tx.inputs[j] ∨
          tx.inputs[j].prevOutValueSats.isSome) := by
    rw [map_mapIdx_eq_iff]
    exact forall₂_congr fun j hj => served_eq_iff hA hB ha hb j tx.inputs[j]
  have hfees : ((tx.inputs.mapIdx (served truth callA eA tx)).map fun i => (i.historicalUtxo, i.prevOutValueSats)) =
      ((tx.inputs.mapIdx (served truth callB eB tx)).map fun i => (i.historicalUtxo, i.prevOutValueSats)) →
      (fees (enrichTransaction callA eA tx).2 = fees (enrichTransaction callB eB tx).2 ↔
        looksUp callA eA tx = looksUp callB eB tx ∨ FeesSettled tx) := by
    intro hsame
    apply fees_enriched_iff hA hB ha hb
    rw [map_mapIdx_eq_iff] at hsame ⊢
    intro j hj
    exact Prod.ext rfl (Prod.mk.inj (hsame j hj)).2
  rw [enrichment_eq_iff, enriched_inputs hA ha, enriched_inputs hB hb, and_congr_right hfees, hpairs]
  constructor
  · rintro ⟨hinputs, hfee⟩
    exact ⟨fun j hj => (hinputs j hj).1, fun j hj => (hinputs j hj).2, hfee⟩
  · intro h
    exact ⟨fun j hj => ⟨h.contexts j hj, h.values j hj⟩, h.fees⟩

end TwoCalls

/-! ## Within the limits -/

/-- what the cache shows when the call starts -/
def startView (call : Call) (e : TransactionEnricher) : String → Option CachedTxOutputs := e.cache.peek (call.clock 0)

/-- the txids of the unresolved inputs, each once -/
def unresolvedTxids (view : String → Option CachedTxOutputs) (inputs : List TxInputObservation) : List String :=
  ((inputs.filter (unresolved view)).map (·.txid)).dedup

/-- the limits do not get in the way of the call -/
structure Undisturbed (call : Call) (e : TransactionEnricher) (tx : TransactionObservation) : Prop where
  lasting : ∀ n txid, e.cache.peek (call.clock n) txid = startView call e txid
  brief : ∀ m n, call.clock n - call.clock m < e.cache.ttl
  limit : (unresolvedTxids (startView call e) tx.inputs).length ≤ e.config.maxInputEnrichment
  room : e.cache.map.keys.length + (unresolvedTxids (startView call e) tx.inputs).length ≤ e.cache.maxCapacity

/-- the cache holds the output every input spends -/
def Warm (call : Call) (e : TransactionEnricher) (tx : TransactionObservation) : Prop :=
  ∀ input ∈ tx.inputs, unresolved (startView call e) input = false

instance (call : Call) (e : TransactionEnricher) (tx : TransactionObservation) : Decidable (Warm call e tx) :=
  inferInstanceAs (Decidable (∀ _ ∈ _, _))

section Limits

variable {truth : PrevTxs} {call : Call} {e : TransactionEnricher} {tx : TransactionObservation}

theorem unresolvedFrom_const (view : String → Option CachedTxOutputs) (i : ℕ) (inputs : List TxInputObservation) :
    unresolvedFrom (fun _ => view) i inputs = (inputs.filter (unresolved view)).map (·.txid) := by
  have hfst : (inputs.zipIdx i).map Prod.fst = inputs := List.zipIdx_map_fst i inputs
  conv_rhs => rw [← hfst]
  rw [List.filter_map, List.map_map]
  rfl

theorem Undisturbed.view (h : Undisturbed call e tx) (n : ℕ) : e.cache.peek (call.clock n) = startView call e :=
  funext (h.lasting n)

theorem Undisturbed.unresolvedFrom (h : Undisturbed call e tx) :
    unresolvedFrom (fun n => e.cache.peek (call.clock n)) 0 tx.inputs =
      (tx.inputs.filter (unresolved (startView call e))).map (·.txid) := by
  rw [funext h.view, unresolvedFrom_const]

/-- an undisturbed call looks something up exactly when the cache is not warm -/
theorem Undisturbed.looksUp_iff (h : Undisturbed call e tx) : looksUp call e tx = true ↔ ¬ Warm call e tx := by
  have hwarm : Warm call e tx ↔ (tx.inputs.filter (unresolved (startView call e))).map (·.txid) = [] := by
    unfold Warm
    rw [List.map_eq_nil_iff, List.filter_eq_nil_iff]
    simp
  rw [looksUp, h.unresolvedFrom, hwarm, Bool.and_eq_true, decide_eq_true_eq, Bool.not_eq_true', List.isEmpty_eq_false_iff]
  refine and_iff_right_of_imp fun hne => ?_
  -- one txid is within the limit
  have hpos : 0 < (unresolvedTxids (startView call e) tx.inputs).length := by
    rw [List.length_pos_iff, unresolvedTxids, Ne, List.dedup_eq_nil]
    exact hne
  exact lt_of_lt_of_le hpos h.limit

/-- what the lookups bring back is the truth about the txids looked up -/
theorem lookup_found (txids : List String)
    (htxids : ∀ t ∈ txids, (truth.outputs t).isSome ∧ e.fetch t = truth.outputs t) (t : String) :
    (txids.filterMap fun txid => (e.fetch txid).map fun info => (txid, info)).lookup t =
      if t ∈ txids then truth.outputs t else none := by
  induction txids with
  | nil => simp
  | cons u txids ih =>
    obtain ⟨hsome, hfetch⟩ := htxids u List.mem_cons_self
    obtain ⟨info, hinfo⟩ := Option.isSome_iff_exists.1 hsome
    rw [List.filterMap_cons, hfetch, hinfo]
    simp only [Option.map_some, List.lookup_cons]
    by_cases htu : t = u
    · simp [htu, hinfo]
    · have hne : (t == u) = false := by simpa using htu
      rw [hne, ih (fun v hv => htxids v (List.mem_cons_of_mem u hv))]
      simp [htu]

/-- **The second look.** In an undisturbed call the stocked cache shows the transactions that were missing, and still
shows what it showed. -/
theorem Undisturbed.peek_stocked (h : Undisturbed call e tx) (hlookups : LookupsSucceed truth e tx) (j : ℕ)
    (txid : String) :
    (stocked call e tx).peek (call.clock (2 * tx.inputs.length + j)) txid =
      (if txid ∈ unresolvedTxids (startView call e) tx.inputs then truth.outputs txid else none).or
        (startView call e txid) := by
  obtain ⟨hshows, hmissing, -⟩ := firstPass_spec call.clock_mono e.config.maxInputEnrichment tx.inputs 0 e.cache []
    (shows_peek call.clock 0 e.cache)
  obtain ⟨httl, hcap, hsize⟩ := firstPass_size call.clock e.config.maxInputEnrichment tx.inputs 0 e.cache []
  obtain ⟨hnodup, hmem⟩ := noteMissing_spec h.limit List.nodup_nil (List.nil_subset _) (fun t ht => ht)
  rw [h.unresolvedFrom] at hmissing
  rw [← hmissing] at hnodup hmem
  set first := firstPass call.clock e.config.maxInputEnrichment 0 e.cache [] tx.inputs with hfirst
  have harrived : ∀ t, t ∈ call.arrive first.2.1 ↔ t ∈ unresolvedTxids (startView call e) tx.inputs := by
    intro t
    rw [(call.arrive_perm first.2.1).mem_iff, hmem t, unresolvedTxids, List.mem_dedup]
    simp
  have hfetched : ∀ t ∈ call.arrive first.2.1, (truth.outputs t).isSome ∧ e.fetch t = truth.outputs t := by
    intro t ht
    have hun := (harrived t).1 ht
    rw [unresolvedTxids, List.mem_dedup, ← h.unresolvedFrom] at hun
    exact fetch_of_mem_unresolvedFrom hlookups hun
  have hcount : (found call e first.2.1).length ≤ (unresolvedTxids (startView call e) tx.inputs).length := by
    calc (found call e first.2.1).length
        ≤ (call.arrive first.2.1).length := List.length_filterMap_le _ _
      _ = first.2.1.length := (call.arrive_perm first.2.1).length_eq
      _ ≤ (unresolvedTxids (startView call e) tx.inputs).length :=
        (List.subperm_of_subset hnodup fun t ht =>
          (harrived t).1 ((call.arrive_perm first.2.1).mem_iff.2 ht)).length_le
  have hroom := h.room
  have hstart : first.1.peek (call.clock (2 * tx.inputs.length + j)) txid = startView call e txid := by
    rw [hshows (2 * tx.inputs.length + j) (by omega) txid]
    exact h.lasting _ txid
  show (storeAll call.clock tx.inputs.length first.1 (found call e first.2.1)).peek _ txid = _
  rw [peek_storeAll _ _ _ (by omega) (fun n => by rw [httl]; exact h.brief n _), hstart, found,
    ← List.filterMap_reverse, lookup_found _ (fun t ht => hfetched t (List.mem_reverse.1 ht))]
  simp only [List.mem_reverse, harrived]

/-- after the lookups every input is seen that the truth has -/
theorem Undisturbed.seen_stocked (h : Undisturbed call e tx) (hlookups : LookupsSucceed truth e tx)
    (hagrees : Agrees truth e.cache) {input : TxInputObservation} (hinput : input ∈ tx.inputs) (j : ℕ) :
    seen ((stocked call e tx).peek (call.clock (2 * tx.inputs.length + j))) input = seen truth.outputs input := by
  have hpeek := h.peek_stocked hlookups j input.txid
  by_cases hcoinbase : input.isCoinbase = true
  · simp [seen, hcoinbase]
  by_cases hin : input.txid ∈ unresolvedTxids (startView call e) tx.inputs
  · -- it was looked up
    have hfetched : (truth.outputs input.txid).isSome := by
      have hun := hin
      rw [unresolvedTxids, List.mem_dedup, ← h.unresolvedFrom] at hun
      exact (fetch_of_mem_unresolvedFrom hlookups hun).1
    obtain ⟨info, hinfo⟩ := Option.isSome_iff_exists.1 hfetched
    rw [if_pos hin, hinfo, Option.some_or] at hpeek
    simp [seen, contextIn, hpeek, hinfo]
  · rw [if_neg hin, Option.none_or] at hpeek
    have hsame : seen ((stocked call e tx).peek (call.clock (2 * tx.inputs.length + j))) input =
        seen (startView call e) input := by
      simp [seen, contextIn, hpeek]
    rw [hsame]
    cases hctx : contextIn (startView call e) input with
    | some ctx =>
      have htrue := contextIn_of_agrees hagrees hctx
      simp [seen, hctx, htrue]
    | none =>
      -- unresolved and not looked up: only the empty txid
      have hempty : input.txid = "" := by
        by_contra hne
        have hun : unresolved (startView call e) input = true := by simp [unresolved, skipped, hcoinbase, hne, hctx]
        apply hin
        rw [unresolvedTxids, List.mem_dedup, List.mem_map]
        exact ⟨input, List.mem_filter.2 ⟨hinput, hun⟩, rfl⟩
      simp [seen, hctx, contextIn_eq_none_of_empty hempty]

theorem seen_of_seen {c : UtxoCache} (hagrees : Agrees truth c) {now : ℕ} {input : TxInputObservation}
    (h : seen (c.peek now) input = true) : seen truth.outputs input = true := by
  have hctx := contextIn_of_seen hagrees h
  unfold seen at h ⊢
  rwa [hctx] at h

/-- in a warm cache the truth has every input that is looked at -/
theorem seen_of_warm (hagrees : Agrees truth e.cache) (hwarm : Warm call e tx) {input : TxInputObservation}
    (hinput : input ∈ tx.inputs) :
    seen (startView call e) input = !skipped input ∧ seen truth.outputs input = !skipped input := by
  have hres := hwarm input hinput
  by_cases hs : skipped input = true
  · rw [skipped, Bool.or_eq_true, beq_iff_eq] at hs
    have hskip : skipped input = true := by simpa [skipped] using hs
    rcases hs with hcoinbase | hempty
    · simp [seen, hcoinbase, skipped]
    · have hnone : contextIn (startView call e) input = none := by
        cases hctx : contextIn (startView call e) input with
        | none => rfl
        | some ctx =>
          have htrue := contextIn_of_agrees hagrees hctx
          rw [contextIn_eq_none_of_empty hempty] at htrue
          cases htrue
      simp [seen, hnone, contextIn_eq_none_of_empty hempty, hskip]
  · have hstart : seen (startView call e) input = true := by
      simp only [skipped, Bool.or_eq_true, not_or] at hs
      simpa [seen, unresolved, skipped, hs.1, hs.2] using hres
    have htrue := seen_of_seen hagrees hstart
    simp [hstart, htrue, hs]

/-- an undisturbed call sees every input that the truth has, at one of the looks -/
theorem Undisturbed.seenEver_eq (h : Undisturbed call e tx) (hlookups : LookupsSucceed truth e tx)
    (hagrees : Agrees truth e.cache) {input : TxInputObservation} (hinput : input ∈ tx.inputs) (j : ℕ) :
    seenEver call e tx j input = seen truth.outputs input := by
  rw [seenEver, seenAgain, h.seen_stocked hlookups hagrees hinput, h.view]
  by_cases hup : looksUp call e tx = true
  · rw [hup, Bool.true_and]
    cases hseen : seen (startView call e) input with
    | false => rw [Bool.false_or]
    | true => rw [seen_of_seen hagrees hseen, Bool.or_true]
  · have hwarm : Warm call e tx := by
      by_contra hcold
      exact hup (h.looksUp_iff.2 hcold)
    obtain ⟨hstart, htrue⟩ := seen_of_warm hagrees hwarm hinput
    simp [hup, hstart, htrue]

end Limits

section TwoCaches

variable {truth : PrevTxs} {tx : TransactionObservation} {callA callB : Call} {eA eB : TransactionEnricher}

/-- within the limits two calls serve alike exactly when both caches are warm, or neither is, or nothing is to be filled
in -/
theorem servedAlike_iff_warm (hA : LookupsSucceed truth eA tx) (hB : LookupsSucceed truth eB tx)
    (ha : Agrees truth eA.cache) (hb : Agrees truth eB.cache) (hcallA : Undisturbed callA eA tx)
    (hcallB : Undisturbed callB eB tx) :
    ServedAlike truth callA eA callB eB tx ↔ (Warm callA eA tx ↔ Warm callB eB tx) ∨ Filled tx := by
  have hcontexts : ∀ j (h : j < tx.inputs.length),
      seenEver callA eA tx j tx.inputs[j] = seenEver callB eB tx j tx.inputs[j] := by
    intro j hj
    rw [hcallA.seenEver_eq hA ha (List.getElem_mem hj), hcallB.seenEver_eq hB hb (List.getElem_mem hj)]
  have hvalues : ∀ j (h : j < tx.inputs.length),
      seenAgain callA eA tx j tx.inputs[j] = seenAgain callB eB tx j tx.inputs[j] ↔
        looksUp callA eA tx = looksUp callB eB tx ∨ seen truth.outputs tx.inputs[j] = false := by
    intro j hj
    rw [seenAgain, hcallA.seen_stocked hA ha (List.getElem_mem hj), seenAgain,
      hcallB.seen_stocked hB hb (List.getElem_mem hj)]
    cases looksUp callA eA tx <;> cases looksUp callB eB tx <;> simp
  have hup : looksUp callA eA tx = looksUp callB eB tx ↔ (Warm callA eA tx ↔ Warm callB eB tx) := by
    rw [Bool.eq_iff_iff, hcallA.looksUp_iff, hcallB.looksUp_iff, not_iff_not]
  rw [← hup]
  by_cases hsame : looksUp callA eA tx = looksUp callB eB tx
  · refine iff_of_true ⟨fun j hj => Or.inl (hcontexts j hj), fun j hj => Or.inl ?_, Or.inl hsame⟩ (Or.inl hsame)
    exact (hvalues j hj).2 (Or.inl hsame)
  · -- one of the caches is warm, so the truth has every input that is looked at
    have hseen : ∀ input ∈ tx.inputs, seen truth.outputs input = !skipped input := by
      intro input hinput
      by_cases hwa : Warm callA eA tx
      · exact (seen_of_warm ha hwa hinput).2
      · have hwb : Warm callB eB tx := by
          by_contra hwb
          exact hsame (hup.2 (iff_of_false hwa hwb))
        exact (seen_of_warm hb hwb hinput).2
    rw [or_iff_right hsame]
    constructor
    · intro h
      refine ⟨?_, h.fees.resolve_left hsame⟩
      intro input hinput hskip
      obtain ⟨j, hj, rfl⟩ := List.mem_iff_getElem.1 hinput
      refine (h.values j hj).resolve_left ?_
      rw [hvalues j hj, hseen _ hinput, hskip]
      simp [hsame]
    · rintro ⟨hfilled, hsettled⟩
      refine ⟨fun j hj => Or.inl (hcontexts j hj), fun j hj => ?_, Or.inr hsettled⟩
      rw [hvalues j hj, hseen _ (List.getElem_mem hj)]
      cases hskip : skipped tx.inputs[j] with
      | true => exact Or.inl (Or.inr rfl)
      | false => exact Or.inr (hfilled _ (List.getElem_mem hj) hskip)

/-- **When two caches give the same enrichment.** With successful lookups and caches that agree with the truth: exactly
when the two calls serve the inputs alike; for undisturbed calls, when both caches hold every input's output, or neither
does, or there is nothing to fill in. -/
theorem enrichment_agrees_iff {e : TransactionEnricher} {a b : UtxoCache} (hlookups : LookupsSucceed truth e tx)
    (ha : Agrees truth a) (hb : Agrees truth b) :
    (enrichment (enrichTransaction callA { e with cache := a } tx).2 =
        enrichment (enrichTransaction callB { e with cache := b } tx).2 ↔
      ServedAlike truth callA { e with cache := a } callB { e with cache := b } tx) ∧
    (Undisturbed callA { e with cache := a } tx → Undisturbed callB { e with cache := b } tx →
      (enrichment (enrichTransaction callA { e with cache := a } tx).2 =
          enrichment (enrichTransaction callB { e with cache := b } tx).2 ↔
        (Warm callA { e with cache := a } tx ↔ Warm callB { e with cache := b } tx) ∨ Filled tx)) := by
  -- a lookup does not read the cache
  have hlookupsA : LookupsSucceed truth { e with cache := a } tx := hlookups
  have hlookupsB : LookupsSucceed truth { e with cache := b } tx := hlookups
  refine ⟨servedAlike_iff hlookupsA hlookupsB ha hb, ?_⟩
  intro hA hB
  rw [servedAlike_iff hlookupsA hlookupsB ha hb]
  exact servedAlike_iff_warm hlookupsA hlookupsB ha hb hA hB

end TwoCaches

/-! ## A payment seen through three caches -/

/-- two confirmed transactions with one output each, 50 and 30 satoshis -/
def funding (txid : String) : Option MempoolTx :=
  if txid = "tx001" then some ⟨[50], true, some 7, some 1000⟩
  else if txid = "tx002" then some ⟨[30], true, some 8, some 2000⟩
  else none

def fundingTruth : PrevTxs := ⟨fun txid => (funding txid).map fromRest, by decide⟩

/-- an input as the raw transaction gives it: no value, no context -/
def rawInput (txid : String) : TxInputObservation := ⟨txid, 0, 0, none, none, false, none⟩

def payment (inputs : List TxInputObservation) : TransactionObservation :=
  { txid := "tx003", timestamp := 0, blockHash := none, blockHeight := none, feeSats := 0, size := 10, weight := 40,
    vsize := 10, feeRateSatVb := none, totalInputSats := 0, totalOutputSats := 45, inputCount := inputs.length,
    outputCount := 1, inputs := inputs, outputs := [], isRbf := false, confirmed := false, source := none }

def restEnricher : TransactionEnricher :=
  { bitcoinRpc := none, restClient := some funding, sovereignOnly := false, cache := UtxoCache.new 100 60,
    config := ⟨500⟩, transactionsEnriched := 0, lookupFailures := 0 }

/-- everything happens within one tick, and lookups come back in the order they were sent -/
def quickCall : Call := ⟨fun _ => 0, monotone_const, id, fun _ => List.Perm.refl _⟩

def coldCache : UtxoCache := UtxoCache.new 100 60

/-- the cache after the first funding transaction was looked up -/
def warmCache : UtxoCache := coldCache.insert 0 "tx001" (fromRest ⟨[50], true, some 7, some 1000⟩)

theorem agrees_coldCache : Agrees fundingTruth coldCache := by
  intro txid entry h
  simp [coldCache, UtxoCache.new] at h

theorem agrees_warmCache : Agrees fundingTruth warmCache := by
  intro txid entry h
  by_cases htx : txid = "tx001"
  · subst htx
    have hlookup : warmCache.map.lookup "tx001" = some ⟨fromRest ⟨[50], true, some 7, some 1000⟩, 0⟩ := by decide
    rw [hlookup] at h
    cases h
    decide
  · have hlookup : warmCache.map.lookup txid = none := by
      rw [warmCache, coldCache, UtxoCache.insert_of_room _ _ _ (by decide)]
      exact (AList.lookup_insert_ne htx).trans (AList.lookup_empty txid)
    rw [hlookup] at h
    cases h

/-- a spend of both funding transactions, with neither or one of them in the cache: both are filled in -/
theorem enrichment_agrees_iff_half_warm :
    enrichment (enrichTransaction quickCall { restEnricher with cache := coldCache }
        (payment [rawInput "tx001", rawInput "tx002"])).2 =
      enrichment (enrichTransaction quickCall { restEnricher with cache := warmCache }
        (payment [rawInput "tx001", rawInput "tx002"])).2 := by
  have hlookups : LookupsSucceed fundingTruth restEnricher (payment [rawInput "tx001", rawInput "tx002"]) := by
    unfold LookupsSucceed
    decide
  have hbrief : 0 - 0 < 60 := by decide
  refine ((enrichment_agrees_iff hlookups agrees_coldCache agrees_warmCache).2 ?_ ?_).2 (Or.inl (by decide))
  · exact ⟨fun _ _ => rfl, fun _ _ => hbrief, by decide, by decide⟩
  · exact ⟨fun _ _ => rfl, fun _ _ => hbrief, by decide, by decide⟩

/-- a spend of the first one only: through the empty cache it gets its input value and fee, through the warm one it gets
the context and nothing else -/
theorem warm_cache_without_values :
    LookupsSucceed fundingTruth restEnricher (payment [rawInput "tx001"]) ∧
      Agrees fundingTruth coldCache ∧ Agrees fundingTruth warmCache ∧
      enrichment (enrichTransaction quickCall { restEnricher with cache := coldCache } (payment [rawInput "tx001"])).2 =
        ([(some ⟨"tx001", 0, 50, some 7, some (fromTimestamp 1000)⟩, some 50)], 50, 5, some (1 / 2)) ∧
      enrichment (enrichTransaction quickCall { restEnricher with cache := warmCache } (payment [rawInput "tx001"])).2 =
        ([(some ⟨"tx001", 0, 50, some 7, some (fromTimestamp 1000)⟩, none)], 0, 0, none) := by
  refine ⟨?_, agrees_coldCache, agrees_warmCache, by decide +kernel, by decide +kernel⟩
  unfold LookupsSucceed
  decide

end ObsChain.TransactionEnricher
