/-
What enrichment tells mempool.space (`enrich_transaction` of `enricher.rs`).

A lookup asks Bitcoin Core first, and mempool.space only where that fails; a sovereign-only node never does. What is asked
of mempool.space is a txid, so it learns which outputs the node is interested in.

Model: a `Moment` is one transaction that is enriched, with the answers that both services give just then; these may change
from one transaction to the next. `restAsked` are the txids of the `get_tx` calls, in the order of the lookups; a `Session`
keeps what the enricher has become, what it returned, and what it has asked.

- `sovereign_private` (**main result**): a sovereign-only node asks for nothing, and what it returns and keeps is the same
  whatever mempool.space would have answered.
- `disclosure_bounded` (**main result**): any other node asks at most the configured number of txids for a transaction, each
  once, each of an input that its cache does not resolve, and only where Bitcoin Core failed.
-/
import Mathlib.Tactic
import ObsChain.Core.Trace
import ObsChain.Ingest.CacheIndependence
import ObsChain.Ingest.Enricher

namespace ObsChain.TransactionEnricher

structure Moment where
  call : Call
  bitcoinRpc : Option (String → Except BitcoinRpcError GetRawTransactionVerboseResult)
  restClient : Option (String → Option MempoolTx)
  tx : TransactionObservation

/-- the enricher, with the answers of the moment -/
def meets (e : TransactionEnricher) (m : Moment) : TransactionEnricher :=
  { e with bitcoinRpc := m.bitcoinRpc, restClient := m.restClient }

/-- Bitcoin Core has no answer -/
def rpcFails (e : TransactionEnricher) (txid : String) : Bool :=
  match e.bitcoinRpc with
  | some rpc =>
    match rpc txid with
    | .ok _ => false
    | .error _ => true
  | none => true

/-- the lookup of the txid asks mempool.space -/
def asksRest (e : TransactionEnricher) (txid : String) : Bool :=
  e.rpcFails txid && !e.sovereignOnly && e.restClient.isSome

/-- the txids that one call asks mempool.space for -/
def restAsked (call : Call) (e : TransactionEnricher) (tx : TransactionObservation) : List String :=
  let first := firstPass call.clock e.config.maxInputEnrichment 0 e.cache [] tx.inputs
  (call.arrive first.2.1).filter e.asksRest

structure Session where
  enricher : TransactionEnricher
  returned : List TransactionObservation
  /-- for each transaction, what was asked -/
  asked : List (List String)

namespace Session

def enrich (s : Session) (m : Moment) : Session :=
  let r := enrichTransaction m.call (s.enricher.meets m) m.tx
  { enricher := r.1
    returned := s.returned ++ [r.2]
    asked := s.asked ++ [restAsked m.call (s.enricher.meets m) m.tx] }

def start (e : TransactionEnricher) : Session := ⟨e, [], []⟩

end Session

/-! ## One call -/

/-- the call leaves the settings alone -/
theorem enrichTransaction_settings (call : Call) (e : TransactionEnricher) (tx : TransactionObservation) :
    (enrichTransaction call e tx).1.sovereignOnly = e.sovereignOnly ∧
      (enrichTransaction call e tx).1.config = e.config := by
  unfold enrichTransaction
  dsimp only
  split_ifs
  · exact ⟨rfl, rfl⟩
  · exact ⟨rfl, rfl⟩
  · exact ⟨rfl, rfl⟩

/-- a sovereign-only node looks up alike, whatever mempool.space would answer -/
theorem fetch_sovereign {e : TransactionEnricher} (h : e.sovereignOnly = true)
    (restClient : Option (String → Option MempoolTx)) :
    ({ e with restClient := restClient } : TransactionEnricher).fetch = e.fetch := by
  funext txid
  simp [fetch, fetchRest, h]

/-- what is kept and returned, and what mempool.space would answer -/
theorem enrichTransaction_sovereign {e : TransactionEnricher} (h : e.sovereignOnly = true)
    (restClient : Option (String → Option MempoolTx)) (call : Call) (tx : TransactionObservation) :
    enrichTransaction call { e with restClient := restClient } tx =
      ({ (enrichTransaction call e tx).1 with restClient := restClient }, (enrichTransaction call e tx).2) := by
  have hfetch := fetch_sovereign h restClient
  unfold enrichTransaction
  dsimp only
  rw [hfetch]
  split_ifs
  · rfl
  · rfl
  · rfl

theorem restAsked_sovereign {e : TransactionEnricher} (h : e.sovereignOnly = true) (call : Call)
    (tx : TransactionObservation) : restAsked call e tx = [] := by
  simp [restAsked, asksRest, h]

/-- the txids are noted once each, and no more than the limit -/
theorem noted_bounded {limit : ℕ} (txids missing : List String) (hnodup : missing.Nodup) (hlen : missing.length ≤ limit) :
    (txids.foldl (noteMissing limit) missing).Nodup ∧ (txids.foldl (noteMissing limit) missing).length ≤ limit := by
  induction txids generalizing missing with
  | nil => exact ⟨hnodup, hlen⟩
  | cons t txids ih =>
    apply ih
    · unfold noteMissing
      split_ifs
      · exact hnodup.insert
      · exact hnodup
    · unfold noteMissing
      split_ifs with hlt
      · have hinsert : (missing.insert t).length ≤ missing.length + 1 := by
          rw [List.length_insert]
          split_ifs <;> omega
        omega
      · exact hlen

/-- a txid may be asked for: Bitcoin Core fails, and it is that of an input that the cache does not resolve at the reading
of the clock for this input -/
def Excused (call : Call) (e : TransactionEnricher) (tx : TransactionObservation) (txid : String) : Prop :=
  e.sovereignOnly = false ∧ (∀ rpc ∈ e.bitcoinRpc, ∃ error, rpc txid = .error error) ∧
    ∃ i input, tx.inputs[i]? = some input ∧ input.txid = txid ∧ skipped input = false ∧
      contextIn (fun k => e.cache.peek (call.clock i) k) input = none

/-- **What one call asks.** -/
theorem restAsked_bounded (call : Call) (e : TransactionEnricher) (tx : TransactionObservation) :
    (restAsked call e tx).Nodup ∧ (restAsked call e tx).length ≤ e.config.maxInputEnrichment ∧
      ∀ t ∈ restAsked call e tx, Excused call e tx t := by
  obtain ⟨-, hmissing, -⟩ := firstPass_spec call.clock_mono e.config.maxInputEnrichment tx.inputs 0 e.cache []
    (shows_peek call.clock 0 e.cache)
  obtain ⟨hnodup, hlen⟩ := @noted_bounded e.config.maxInputEnrichment
    (unresolvedFrom (fun n => e.cache.peek (call.clock n)) 0 tx.inputs) [] List.nodup_nil (Nat.zero_le _)
  rw [← hmissing] at hnodup hlen
  have hperm := call.arrive_perm (firstPass call.clock e.config.maxInputEnrichment 0 e.cache [] tx.inputs).2.1
  unfold restAsked
  refine ⟨(hperm.nodup_iff.2 hnodup).filter _, ?_, ?_⟩
  · exact (List.length_filter_le _ _).trans (hperm.length_eq ▸ hlen)
  · intro t ht
    obtain ⟨harrived, hasks⟩ := List.mem_filter.1 ht
    simp only [asksRest, Bool.and_eq_true, Bool.not_eq_true'] at hasks
    obtain ⟨⟨hfails, hsovereign⟩, -⟩ := hasks
    refine ⟨hsovereign, ?_, ?_⟩
    · intro rpc hrpc
      rw [Option.mem_def] at hrpc
      simp only [rpcFails, hrpc] at hfails
      cases hanswer : rpc t with
      | error error => exact ⟨error, rfl⟩
      | ok answer => simp [hanswer] at hfails
    · have hnoted := hperm.mem_iff.1 harrived
      rw [hmissing] at hnoted
      have hunresolved := (mem_noted hnoted).resolve_left List.not_mem_nil
      obtain ⟨p, hp, rfl⟩ := List.mem_map.1 hunresolved
      obtain ⟨hmem, hp⟩ := List.mem_filter.1 hp
      simp only [unresolved, Bool.and_eq_true, Bool.not_eq_true', Option.isNone_iff_eq_none] at hp
      exact ⟨p.2, p.1, List.mem_zipIdx_iff_getElem?.1 hmem, rfl, hp.1, hp.2⟩

/-! ## Sessions -/

namespace Session

/-- what is the same whatever mempool.space would answer -/
structure Alike (s s' : Session) : Prop where
  sovereign : s.enricher.sovereignOnly = true
  returned : s'.returned = s.returned
  asked : s'.asked = s.asked
  enricher : ∃ restClient, s'.enricher = { s.enricher with restClient := restClient }

/-- a moment without the answers of mempool.space -/
def blind (m : Moment) : Call × Option (String → Except BitcoinRpcError GetRawTransactionVerboseResult) ×
    TransactionObservation :=
  (m.call, m.bitcoinRpc, m.tx)

theorem Alike.enrich {s s' : Session} (h : Alike s s') {m m' : Moment} (hm : blind m = blind m') :
    Alike (s.enrich m) (s'.enrich m') := by
  obtain ⟨call, rpc, rest, tx⟩ := m
  obtain ⟨call', rpc', rest', tx'⟩ := m'
  obtain ⟨rfl, rfl, rfl⟩ : call = call' ∧ rpc = rpc' ∧ tx = tx' := by simpa [blind] using hm
  obtain ⟨restClient, henricher⟩ := h.enricher
  have hsovereign : (s.enricher.meets ⟨call, rpc, rest, tx⟩).sovereignOnly = true := h.sovereign
  have hmeets : s'.enricher.meets ⟨call, rpc, rest', tx⟩ =
      { s.enricher.meets ⟨call, rpc, rest, tx⟩ with restClient := rest' } := by
    rw [henricher]
    rfl
  have hresult := enrichTransaction_sovereign hsovereign rest' call tx
  have hasked := restAsked_sovereign hsovereign call tx
  have hasked' : restAsked call (s'.enricher.meets ⟨call, rpc, rest', tx⟩) tx = [] :=
    restAsked_sovereign (by rw [hmeets]; exact hsovereign) call tx
  refine ⟨?_, ?_, ?_, rest', ?_⟩
  · exact (enrichTransaction_settings call _ tx).1.trans hsovereign
  · simp only [Session.enrich]
    rw [hmeets, hresult, h.returned]
  · simp only [Session.enrich]
    rw [hasked, hasked', h.asked]
  · simp only [Session.enrich]
    rw [hmeets, hresult]

theorem alike_run {s s' : Session} (h : Alike s s') {ms ms' : List Moment} (hsame : ms.map blind = ms'.map blind) :
    Alike (Trace.run enrich s ms) (Trace.run enrich s' ms') := by
  induction ms generalizing s s' ms' with
  | nil =>
    cases ms' with
    | nil => exact h
    | cons m' ms' => simp at hsame
  | cons m ms ih =>
    cases ms' with
    | nil => simp at hsame
    | cons m' ms' =>
      obtain ⟨hm, hrest⟩ := List.cons_eq_cons.1 hsame
      exact ih (h.enrich hm) hrest

theorem alike_start {e : TransactionEnricher} (h : e.sovereignOnly = true) : Alike (start e) (start e) :=
  ⟨h, rfl, rfl, e.restClient, rfl⟩

/-- a sovereign-only node stays one, and asks for nothing -/
theorem silent_run {s : Session} (h : s.enricher.sovereignOnly = true ∧ s.asked.flatten = []) (ms : List Moment) :
    (Trace.run enrich s ms).asked.flatten = [] := by
  refine (Trace.run_inv_all (I := fun s : Session => s.enricher.sovereignOnly = true ∧ s.asked.flatten = []) ?_ ms h).2
  rintro s m ⟨hsovereign, hasked⟩
  have hnone := restAsked_sovereign (show (s.enricher.meets m).sovereignOnly = true from hsovereign) m.call m.tx
  refine ⟨(enrichTransaction_settings m.call (s.enricher.meets m) m.tx).1.trans hsovereign, ?_⟩
  simp only [enrich, List.flatten_append, hasked, hnone]
  rfl

/-- the settings of the node are those it started with -/
theorem settings_run (s : Session) (ms : List Moment) :
    (Trace.run enrich s ms).enricher.sovereignOnly = s.enricher.sovereignOnly ∧
      (Trace.run enrich s ms).enricher.config = s.enricher.config := by
  refine Trace.run_inv_all (I := fun s' : Session => s'.enricher.sovereignOnly = s.enricher.sovereignOnly ∧
    s'.enricher.config = s.enricher.config) ?_ ms ⟨rfl, rfl⟩
  rintro s' m ⟨hsovereign, hconfig⟩
  have hkept := enrichTransaction_settings m.call (s'.enricher.meets m) m.tx
  exact ⟨hkept.1.trans hsovereign, hkept.2.trans hconfig⟩

theorem asked_run (s : Session) (ms : List Moment) :
    (Trace.run enrich s ms).asked.length = s.asked.length + ms.length ∧
      ∀ asks ∈ (Trace.run enrich s ms).asked, asks ∈ s.asked ∨
        ∃ pre m post, ms = pre ++ m :: post ∧
          asks = restAsked m.call ((Trace.run enrich s pre).enricher.meets m) m.tx := by
  induction ms using List.reverseRecOn with
  | nil => exact ⟨rfl, fun asks hasks => Or.inl hasks⟩
  | append_singleton ms m ih =>
    obtain ⟨hlen, hasked⟩ := ih
    have hrun : Trace.run enrich s (ms ++ [m]) = (Trace.run enrich s ms).enrich m := Trace.run_append s ms [m]
    rw [hrun]
    constructor
    · simp only [enrich, List.length_append, List.length_singleton]
      omega
    · intro asks hasks
      rcases List.mem_append.1 hasks with hold | hnew
      · rcases hasked asks hold with hstart | ⟨pre, m', post, rfl, heq⟩
        · exact Or.inl hstart
        · exact Or.inr ⟨pre, m', post ++ [m], by simp, heq⟩
      · exact Or.inr ⟨ms, m, [], by simp, List.mem_singleton.1 hnew⟩

end Session

open Session

/-- **A sovereign-only node is private.** Over every stream of transactions: it asks mempool.space for nothing, and two runs
in which only the answers of mempool.space differ return the same transactions, and leave the same cache and counters. -/
theorem sovereign_private (e : TransactionEnricher) (h : e.sovereignOnly = true) (ms ms' : List Moment)
    (hsame : ms.map blind = ms'.map blind) :
    (Trace.run enrich (start e) ms).asked.flatten = [] ∧
      (Trace.run enrich (start e) ms').returned = (Trace.run enrich (start e) ms).returned ∧
      (Trace.run enrich (start e) ms').enricher.cache = (Trace.run enrich (start e) ms).enricher.cache ∧
      (Trace.run enrich (start e) ms').enricher.transactionsEnriched =
        (Trace.run enrich (start e) ms).enricher.transactionsEnriched ∧
      (Trace.run enrich (start e) ms').enricher.lookupFailures =
        (Trace.run enrich (start e) ms).enricher.lookupFailures := by
  have halike := alike_run (alike_start h) hsame
  obtain ⟨restClient, henricher⟩ := halike.enricher
  refine ⟨silent_run ⟨h, rfl⟩ ms, halike.returned, ?_, ?_, ?_⟩
  · rw [henricher]
  · rw [henricher]
  · rw [henricher]

/-- one payment, with mempool.space up and down -/
theorem sovereign_private_payment :
    (Trace.run enrich (start { restEnricher with sovereignOnly := true })
        [⟨quickCall, none, none, payment [rawInput "tx001"]⟩]).returned =
      (Trace.run enrich (start { restEnricher with sovereignOnly := true })
        [⟨quickCall, none, some funding, payment [rawInput "tx001"]⟩]).returned :=
  (sovereign_private { restEnricher with sovereignOnly := true } rfl
    [⟨quickCall, none, some funding, payment [rawInput "tx001"]⟩] [⟨quickCall, none, none, payment [rawInput "tx001"]⟩]
    rfl).2.1

/-- **What any node discloses.** Over every stream of transactions: for each of them it asks mempool.space at most the
configured number of txids, each once, and only such as `Excused` allows, by the cache and the answers of that moment; so a
node whose Bitcoin Core answers for all of them asks for none. -/
theorem disclosure_bounded (e : TransactionEnricher) (ms : List Moment) :
    (Trace.run enrich (start e) ms).asked.length = ms.length ∧
      ∀ asks ∈ (Trace.run enrich (start e) ms).asked,
        asks.Nodup ∧ asks.length ≤ e.config.maxInputEnrichment ∧
          ∃ pre m post, ms = pre ++ m :: post ∧
            ∀ t ∈ asks, Excused m.call ((Trace.run enrich (start e) pre).enricher.meets m) m.tx t := by
  obtain ⟨hlen, hasked⟩ := asked_run (start e) ms
  refine ⟨by simpa [start] using hlen, fun asks hasks => ?_⟩
  rcases hasked asks hasks with hstart | ⟨pre, m, post, hms, rfl⟩
  · exact absurd hstart List.not_mem_nil
  · obtain ⟨hnodup, hbound, hexcused⟩ :=
      restAsked_bounded m.call ((Trace.run enrich (start e) pre).enricher.meets m) m.tx
    have hconfig := (settings_run (start e) pre).2
    refine ⟨hnodup, ?_, pre, m, post, hms, hexcused⟩
    have hlimit : ((Trace.run enrich (start e) pre).enricher.meets m).config.maxInputEnrichment =
        e.config.maxInputEnrichment := congrArg EnricherConfig.maxInputEnrichment hconfig
    exact hlimit ▸ hbound

/-- a node with no Bitcoin Core asks for the output that a payment spends, and a sovereign-only one does not -/
example : restAsked quickCall restEnricher (payment [rawInput "tx001"]) = ["tx001"] ∧
    restAsked quickCall { restEnricher with sovereignOnly := true } (payment [rawInput "tx001"]) = [] := by
  decide

end ObsChain.TransactionEnricher
