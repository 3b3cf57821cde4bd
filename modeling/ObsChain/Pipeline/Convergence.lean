/-
Does a canonical event end with its confirmation?

A transaction is observed twice: in the mempool, and in a block. Both observations yield the same canonical event, once
without and once with height and hash, and both take the live path: the deduplicator, then `save_event`. Either stage
can stop the second version. Within the TTL the deduplicator drops it; after that `save_event` merges it, and the merge
keeps the stored height and hash.

- `stored_step`: what one version does to the stored event.
- `converged_iff`: for either order, any times and anything in between, the event ends with the confirmed height and
  hash exactly when it is already stored with them when the second version arrives, or is not stored at all, the second
  version is the confirmed one and its key is not remembered.
- `mempool_version_stays`: mempool first, the block a minute or two hours later: the stored event has no height.
-/
import Mathlib.Tactic
import ObsChain.Core.Trace
import ObsChain.Pipeline.Dedup
import ObsChain.Pipeline.EventStore

namespace ObsChain.Pipeline

open Trace

structure St where
  dedup : EventDeduplicator
  store : EventStore

inductive Op where
  /-- the events detected on one live observation, at these clock readings -/
  | live (now : ℕ) (utc : ℕ → DateTime) (events : List ChainEvent)
  /-- an event saved by a historical replay, which does not pass the deduplicator -/
  | replayed (event : ChainEvent)

/-- the detector pipeline worker -/
def step (p : St) : Op → St
  | .live now utc events =>
    let r := p.dedup.filter now utc events
    { dedup := r.1, store := r.2.foldl EventStore.saveEvent p.store }
  | .replayed event => { p with store := p.store.saveEvent event }

/-- the mempool and the confirmed version of one canonical event of a transaction -/
structure Versions (newV5 : String → Uuid) (mempool confirmed : ChainEvent) : Prop where
  eventType : mempool.eventType = confirmed.eventType
  txid : ∃ txid, mempool.txid = some txid ∧ confirmed.txid = some txid
  mempoolId : mempool.id = mempool.deterministicId newV5
  confirmedId : confirmed.id = confirmed.deterministicId newV5
  unconfirmed : mempool.blockHeight = none ∧ mempool.blockHash = none
  height : ∃ h, confirmed.blockHeight = some h
  hash : ∃ hash, confirmed.blockHash = some hash

/-- the stored event has this height and hash -/
def StoredAs (p : St) (confirmed : ChainEvent) : Prop :=
  ∃ e, p.store.stored confirmed.id = some e ∧ e.blockHeight = confirmed.blockHeight ∧ e.blockHash = confirmed.blockHash

/-- and a baseline over any window around the height finds it -/
def Converged (p : St) (confirmed : ChainEvent) : Prop :=
  ∃ e, p.store.stored confirmed.id = some e ∧ e.blockHeight = confirmed.blockHeight ∧
    e.blockHash = confirmed.blockHash ∧
    ∀ h a b, confirmed.blockHeight = some h → a ≤ h → h ≤ b → e ∈ p.store.queryEventsForBaseline none a b

theorem converged_iff_storedAs (p : St) (confirmed : ChainEvent) : Converged p confirmed ↔ StoredAs p confirmed := by
  constructor
  · intro hconv
    obtain ⟨e, hs, hh, hb, -⟩ := hconv
    exact ⟨e, hs, hh, hb⟩
  · intro hstored
    obtain ⟨e, hs, hh, hb⟩ := hstored
    refine ⟨e, hs, hh, hb, fun h a b hc ha hle => ?_⟩
    exact EventStore.mem_queryEventsForBaseline hs (hh.trans hc) ha hle

/-- the two versions have one key and one id -/
theorem Versions.same {newV5 : String → Uuid} {m c : ChainEvent} (h : Versions newV5 m c) :
    m.identityKey = c.identityKey ∧ m.id = c.id := by
  obtain ⟨txid, hm, hc⟩ := h.txid
  have hkey : m.identityKey = c.identityKey := by
    simp [ChainEvent.identityKey, hm, hc, h.eventType]
  refine ⟨hkey, ?_⟩
  rw [h.mempoolId, h.confirmedId]
  exact congrArg newV5 hkey

/-- **One event on the live path.** A stored event keeps its height and hash; an event that is not stored is stored as it
is, unless its key is remembered. -/
theorem stored_step (p : St) (now : ℕ) (utc : ℕ → DateTime) (event : ChainEvent) :
    match p.store.stored event.id with
    | some e => ∃ e', (step p (.live now utc [event])).store.stored event.id = some e' ∧
        e'.blockHeight = e.blockHeight ∧ e'.blockHash = e.blockHash
    | none => (p.dedup.Remembers now (EventDeduplicator.eventKey event) ∧
          (step p (.live now utc [event])).store.stored event.id = none) ∨
        (¬ p.dedup.Remembers now (EventDeduplicator.eventKey event) ∧
          ∃ ws, (step p (.live now utc [event])).store.stored event.id = some { event with witnesses := ws }) := by
  have hstore : (step p (.live now utc [event])).store =
      (EventDeduplicator.filterOne now (utc 0) p.dedup event).2.toList.foldl EventStore.saveEvent p.store := by
    simp [step, EventDeduplicator.filter, EventDeduplicator.filterFrom]
  rw [hstore]
  cases hs : p.store.stored event.id with
  | none =>
    rcases EventDeduplicator.filterOne_snd now (utc 0) p.dedup event with ⟨hr, hnone⟩ | ⟨hr, ws, hsome⟩
    · rw [hnone]
      exact Or.inl ⟨hr, hs⟩
    · rw [hsome]
      refine Or.inr ⟨hr, ws, ?_⟩
      exact EventStore.stored_saveEvent_of_none { event with witnesses := ws } hs
  | some e =>
    rcases EventDeduplicator.filterOne_snd now (utc 0) p.dedup event with ⟨-, hnone⟩ | ⟨-, ws, hsome⟩
    · rw [hnone]
      exact ⟨e, hs, rfl, rfl⟩
    · rw [hsome]
      exact ⟨_, EventStore.stored_saveEvent_of_some { event with witnesses := ws } hs, rfl, rfl⟩

/-! ## Both versions -/

/-- the version that arrives first, and the one that arrives second -/
def arrivals (confirmedFirst : Bool) (mempool confirmed : ChainEvent) : ChainEvent × ChainEvent :=
  if confirmedFirst then (confirmed, mempool) else (mempool, confirmed)

/-- the pipeline when the second version arrives: after the first one and anything else -/
def beforeSecond (p : St) (first : ChainEvent) (now : ℕ) (utc : ℕ → DateTime) (others : List Op) : St :=
  run step (step p (.live now utc [first])) others

/-- **Convergence, exactly.** In either order, at any times and with anything in between. -/
theorem converged_iff (newV5 : String → Uuid) (mempool confirmed : ChainEvent)
    (hv : Versions newV5 mempool confirmed) (confirmedFirst : Bool) (p : St) (others : List Op)
    (now₁ now₂ : ℕ) (utc₁ utc₂ : ℕ → DateTime) :
    let second := (arrivals confirmedFirst mempool confirmed).2
    let q := beforeSecond p (arrivals confirmedFirst mempool confirmed).1 now₁ utc₁ others
    Converged (step q (.live now₂ utc₂ [second])) confirmed ↔
      StoredAs q confirmed ∨
        (q.store.stored confirmed.id = none ∧ confirmedFirst = false ∧
          ¬ q.dedup.Remembers now₂ (EventDeduplicator.eventKey confirmed)) := by
  intro second q
  obtain ⟨hkey, hid⟩ := hv.same
  have hsid : second.id = confirmed.id := by
    cases confirmedFirst
    · rfl
    · exact hid
  have hskey : EventDeduplicator.eventKey second = EventDeduplicator.eventKey confirmed := by
    rw [EventDeduplicator.eventKey_eq_identityKey, EventDeduplicator.eventKey_eq_identityKey]
    cases confirmedFirst
    · rfl
    · exact hkey
  rw [converged_iff_storedAs]
  have hstep := stored_step q now₂ utc₂ second
  rw [hsid, hskey] at hstep
  unfold StoredAs
  cases hs : q.store.stored confirmed.id with
  | some e =>
    -- stored: whatever happens to the second version, height and hash stay
    rw [hs] at hstep
    obtain ⟨e', he', hh, hb⟩ := hstep
    simp [he', hh, hb]
  | none =>
    rw [hs] at hstep
    rcases hstep with ⟨hr, hnone⟩ | ⟨hr, ws, hsome⟩
    · simp [hnone, hr]
    · -- stored now: with the confirmation exactly when the second version has it
      cases confirmedFirst with
      | false =>
        refine ⟨fun _ => Or.inr ⟨rfl, rfl, hr⟩, fun _ => ⟨_, hsome, rfl, rfl⟩⟩
      | true =>
        obtain ⟨h, hh⟩ := hv.height
        rw [hsome]
        refine ⟨?_, by simp⟩
        intro hstored
        obtain ⟨e, he, hheight, -⟩ := hstored
        cases he
        have hm : mempool.blockHeight = confirmed.blockHeight := hheight
        rw [hv.unconfirmed.1, hh] at hm
        cases hm

/-! ## One transaction -/

/-- a large transfer, seen in the mempool -/
def mempoolTransfer : ChainEvent where
  id := 0xda2903fbc1b55f7e948e2e4af2d5f1ab
  eventType := .largeTransfer
  severity := .medium
  confidence := .verifiedOnChain
  title := "Large Transfer: 150.00 BTC"
  description := "Transaction 4a5e1e4b transferred 150.00 BTC across 2 outputs with fee 1500 sats."
  eventTime := 0
  firstObservedAt := 0
  detectedAt := 0
  blockHeight := none
  blockHash := none
  txid := some "4a5e1e4baab89f3a32518a88c31bc87f618f76673e2cc77ab2127b7afdeda33b"
  source := some (ObservationSource.bitcoinCoreZmq "tcp://127.0.0.1:28333")
  witnesses := []
  observationMode := .live
  replayJobId := none
  metadata := .object []
  observations := []

/-- and again in a block -/
def confirmedTransfer : ChainEvent :=
  { mempoolTransfer with
    blockHeight := some 840000
    blockHash := some "0000000000000000000320283a032748cef8227873ff4872689bf23f1cda83a5" }

def emptyPipeline : St := ⟨EventDeduplicator.new 10000 1800000000000, ⟨[], [], 1000⟩⟩

/-- the name-based UUID of this transfer's identity text -/
def transferV5 (_ : String) : Uuid := 0xda2903fbc1b55f7e948e2e4af2d5f1ab

theorem transfer_versions : Versions transferV5 mempoolTransfer confirmedTransfer :=
  ⟨rfl, ⟨_, rfl, rfl⟩, rfl, rfl, ⟨rfl, rfl⟩, ⟨_, rfl⟩, ⟨_, rfl⟩⟩

/-- the block first, the mempool copy late: the event has its confirmation -/
theorem converged_iff_confirmed_first :
    Converged (step (beforeSecond emptyPipeline confirmedTransfer 0 (fun _ => 0) []) (.live 1 (fun _ => 0) [mempoolTransfer]))
      confirmedTransfer := by
  refine (converged_iff transferV5 mempoolTransfer confirmedTransfer transfer_versions true emptyPipeline [] 0 1
    (fun _ => 0) (fun _ => 0)).2 (Or.inl ?_)
  exact ⟨_, rfl, rfl, rfl⟩

/-- **The confirmation is lost.** The mempool version first; the block a minute later, when the deduplicator drops it, or
two hours later, when it passes and is merged. Either way the stored event has no height, and no window finds it. -/
theorem mempool_version_stays :
    let q := beforeSecond emptyPipeline mempoolTransfer 0 (fun _ => 0) []
    Versions transferV5 mempoolTransfer confirmedTransfer ∧
      ∀ now ∈ [60000000000, 7200000000000],
        let r := step q (.live now (fun _ => 0) [confirmedTransfer])
        (r.store.stored confirmedTransfer.id).map ChainEvent.blockHeight = some none ∧
          r.store.queryEventsForBaseline none 0 1000000 = [] ∧ ¬ Converged r confirmedTransfer := by
  intro q
  refine ⟨transfer_versions, fun now hnow => ?_⟩
  intro r
  have hheight : (r.store.stored confirmedTransfer.id).map ChainEvent.blockHeight = some none := by
    simp only [List.mem_cons, List.not_mem_nil, or_false] at hnow
    rcases hnow with rfl | rfl <;> rfl
  have hquery : r.store.queryEventsForBaseline none 0 1000000 = [] := by
    simp only [List.mem_cons, List.not_mem_nil, or_false] at hnow
    rcases hnow with rfl | rfl <;> rfl
  refine ⟨hheight, hquery, ?_⟩
  intro hconv
  obtain ⟨e, hs, hh, -⟩ := hconv
  rw [hs] at hheight
  simp only [Option.map_some, Option.some.injEq] at hheight
  rw [hheight] at hh
  cases hh

end ObsChain.Pipeline
