/-
Does the store know every live source of an event?

A live event passes the deduplicator, which drops it when its key was let through less than the TTL ago, and is then saved
with one live observation for each of its witnesses (`save_event_with_retry`; storage does not fail). The deduplicator
keeps the source of a dropped event in its own witness map, which nothing reads. `contributed` is a ghost: the sources
that have brought an event of a stored id, since it is stored.

- `processBatch_eq_run`: a batch of the worker is its events one after the other.
- `arrive_complete`: one arrival keeps the provenance complete if it is not dropped or its source has contributed before,
  and its observations do not take the id of another source's (`Heard`).
- `live_provenance_complete`: so does every run of such arrivals, in every state.
- `second_source_forgotten`: two sources within a second, and the second one is in no stored observation.
-/
import Mathlib.Tactic
import ObsChain.Core.Trace
import ObsChain.Domain.Provenance
import ObsChain.Pipeline.Convergence
import ObsChain.Pipeline.Dedup
import ObsChain.Storage.InMemory

namespace ObsChain.LiveProvenance

/-! ## The worker -/

/-- what a save draws: ids and times of its metric rows, and the clock -/
structure Draw where
  stamps : ℕ → Uuid × DateTime
  savedAt : DateTime

section

variable (newV5 : String → Uuid)

/-- the observation of one witness of an event -/
def witnessed (event : ChainEvent) (w : ObservationWitness) : EventObservation :=
  { EventObservation.live newV5 event.id w.source .witnessed w.observedAt (some event.eventTime) event.blockHeight
      event.blockHash with
    witness := some w }

/-- the live observations that are recorded for an event -/
def recordedFor (event : ChainEvent) (savedAt : DateTime) : List EventObservation :=
  if event.witnesses.isEmpty then
    [EventObservation.live newV5 event.id (event.source.getD ⟨"bitcoin_core", "zmq", none⟩)
      (if event.blockHash.isSome then .confirmed else .mempoolSeen) savedAt (some event.eventTime) event.blockHeight
      event.blockHash]
  else event.witnesses.map (witnessed newV5 event)

def saveEventWithRetry (st : InMemoryStorage) (draw : Draw) (event : ChainEvent) : InMemoryStorage :=
  (recordedFor newV5 event draw.savedAt).foldl InMemoryStorage.saveEventObservation (st.saveEvent draw.stamps event)

/-- one round of the worker: the batch passes the deduplicator, then every fresh event is saved -/
def processBatch (now : ℕ) (utc : ℕ → DateTime) (draws : ℕ → Draw) (p : EventDeduplicator × InMemoryStorage)
    (events : List ChainEvent) : EventDeduplicator × InMemoryStorage :=
  let r := p.1.filter now utc events
  (r.1, r.2.zipIdx.foldl (fun st fresh => saveEventWithRetry newV5 st (draws fresh.2) fresh.1) p.2)

/-! ## Arrivals -/

/-- a live event, with the readings of the clocks -/
structure Arrival where
  now : ℕ
  utc : DateTime
  draw : Draw
  event : ChainEvent

/-- a source, as an observation names it -/
abbrev Source := String × String

def sourceOf (event : ChainEvent) : Option Source := event.source.map fun s => (s.provider, s.transport)

structure St where
  dedup : EventDeduplicator
  storage : InMemoryStorage
  /-- ghost: the sources that brought an event of a stored id, while it was stored -/
  contributed : List (Uuid × Source)

/-- the deduplicator and the store, for one event -/
def pass (p : EventDeduplicator × InMemoryStorage) (a : Arrival) : EventDeduplicator × InMemoryStorage :=
  let r := p.1.filterOne a.now a.utc a.event
  (r.1, r.2.elim p.2 (saveEventWithRetry newV5 p.2 a.draw))

def arrive (p : St) (a : Arrival) : St :=
  let r := pass newV5 (p.dedup, p.storage) a
  { dedup := r.1
    storage := r.2
    contributed := (p.contributed ++ ((sourceOf a.event).map (a.event.id, ·)).toList).filter fun c =>
      (r.2.stored c.1).isSome }

/-- **A batch is its events one after the other**: the filter does not read the store. -/
theorem processBatch_eq_run (now : ℕ) (utc : ℕ → DateTime) (draws : ℕ → Draw) (p : EventDeduplicator × InMemoryStorage)
    (events : List ChainEvent) :
    ∃ arrivals : List Arrival, arrivals.map (·.event) = events ∧ (∀ a ∈ arrivals, a.now = now) ∧
      processBatch newV5 now utc draws p events = arrivals.foldl (pass newV5) p := by
  -- from the i-th event on, with k of the batch saved
  have hfrom : ∀ (events : List ChainEvent) (i k : ℕ) (p : EventDeduplicator × InMemoryStorage),
      ∃ arrivals : List Arrival, arrivals.map (·.event) = events ∧ (∀ a ∈ arrivals, a.now = now) ∧
        ((p.1.filterFrom now utc i events).1,
          ((p.1.filterFrom now utc i events).2.zipIdx k).foldl
            (fun st fresh => saveEventWithRetry newV5 st (draws fresh.2) fresh.1) p.2) =
          arrivals.foldl (pass newV5) p := by
    intro events
    induction events with
    | nil => exact fun i k p => ⟨[], rfl, by simp, rfl⟩
    | cons event events ih =>
      intro i k p
      have hpass : pass newV5 p ⟨now, utc i, draws k, event⟩ = ((p.1.filterOne now (utc i) event).1,
          (p.1.filterOne now (utc i) event).2.elim p.2 (saveEventWithRetry newV5 p.2 (draws k))) := rfl
      cases hfresh : (p.1.filterOne now (utc i) event).2 with
      | none =>
        rw [hfresh] at hpass
        obtain ⟨arrivals, hevents, hnow, heq⟩ := ih (i + 1) k (pass newV5 p ⟨now, utc i, draws k, event⟩)
        refine ⟨⟨now, utc i, draws k, event⟩ :: arrivals, by simp [hevents], by simpa using hnow, ?_⟩
        rw [List.foldl_cons, ← heq, hpass]
        simp [EventDeduplicator.filterFrom, hfresh]
      | some fresh =>
        rw [hfresh] at hpass
        obtain ⟨arrivals, hevents, hnow, heq⟩ := ih (i + 1) (k + 1) (pass newV5 p ⟨now, utc i, draws k, event⟩)
        refine ⟨⟨now, utc i, draws k, event⟩ :: arrivals, by simp [hevents], by simpa using hnow, ?_⟩
        rw [List.foldl_cons, ← heq, hpass]
        simp [EventDeduplicator.filterFrom, hfresh, List.zipIdx_cons]
  exact hfrom events 0 0 p

end

/-- a live observation of the event by the source -/
def Records (observations : List EventObservation) (c : Uuid × Source) : Prop :=
  ∃ o ∈ observations, o.eventId = c.1 ∧ o.mode = .live ∧ (o.source.provider, o.source.transport) = c.2

/-- every source that contributed is in a live observation -/
def Complete (p : St) : Prop := ∀ c ∈ p.contributed, Records p.storage.eventObservations c

/-! ## The condition -/

/-- the two observations are of one event by one source -/
def SameSource (o o' : EventObservation) : Prop :=
  o.eventId = o'.eventId ∧ o.mode = o'.mode ∧ o.source.provider = o'.source.provider ∧
    o.source.transport = o'.source.transport

/-- an arrival that passes does not take the id of another source's observation; one whose key is remembered comes from a
source that has brought the stored event before -/
def Heard (newV5 : String → Uuid) (p : St) (a : Arrival) : Prop :=
  (∀ fresh ∈ (p.dedup.filterOne a.now a.utc a.event).2, ∀ o ∈ recordedFor newV5 fresh a.draw.savedAt,
      ∀ o' ∈ p.storage.eventObservations ++ recordedFor newV5 fresh a.draw.savedAt, o'.id = o.id → SameSource o' o) ∧
    (p.dedup.remembers a.now (EventDeduplicator.eventKey a.event) = true → (p.storage.stored a.event.id).isSome →
      ∀ s ∈ sourceOf a.event, (a.event.id, s) ∈ p.contributed)

instance (o o' : EventObservation) : Decidable (SameSource o o') := inferInstanceAs (Decidable (_ ∧ _ ∧ _ ∧ _))

instance (newV5 : String → Uuid) (p : St) (a : Arrival) : Decidable (Heard newV5 p a) :=
  inferInstanceAs (Decidable ((∀ fresh ∈ (p.dedup.filterOne a.now a.utc a.event).2, _) ∧ (_ = true → _ → _)))

/-! ## One arrival -/

section

variable {newV5 : String → Uuid}

/-- what is recorded stays recorded under a save that takes no other source's id -/
theorem Records.saveEventObservation {observations : List EventObservation} {c : Uuid × Source}
    (h : Records observations c) {o : EventObservation} (hmode : o.mode = .live)
    (hclash : ∀ o' ∈ observations, o'.id = o.id → SameSource o' o) :
    Records (upsert (InMemoryStorage.sameObservation o) o observations) c := by
  obtain ⟨r, hr, hevent, hlive, hsource⟩ := h
  by_cases hsame : InMemoryStorage.sameObservation o r = true
  · -- the record is replaced, by one of the same source
    have heq : SameSource r o := by
      simp only [InMemoryStorage.sameObservation, hmode, Bool.or_eq_true, Bool.and_eq_true, beq_iff_eq] at hsame
      rcases hsame with (hid | hreplay) | htuple
      · exact hclash r hr hid
      · exact absurd hreplay.1.1.1 (by decide)
      · obtain ⟨⟨⟨⟨⟨⟨⟨⟨⟨-, hev⟩, hm⟩, hprov⟩, htrans⟩, -⟩, -⟩, -⟩, -⟩, -⟩ := htuple
        exact ⟨hev, hm.trans hmode.symm, hprov, htrans⟩
    obtain ⟨hev, hm, hprov, htrans⟩ := heq
    refine ⟨o, mem_upsert_self _ _ _, hev.symm.trans hevent, hmode, ?_⟩
    rw [← hprov, ← htrans]
    exact hsource
  · exact ⟨r, mem_upsert_of_not hr (by simpa using hsame), hevent, hlive, hsource⟩

/-- the observations of a save, one after the other -/
theorem records_foldl {base all : List EventObservation} (hlive : ∀ o ∈ all, o.mode = .live)
    (hclash : ∀ o ∈ all, ∀ o' ∈ base ++ all, o'.id = o.id → SameSource o' o) {xs : List EventObservation}
    (hxs : ∀ x ∈ xs, x ∈ all) {observations : List EventObservation} (hobs : ∀ o ∈ observations, o ∈ base ++ all)
    {c : Uuid × Source} (h : Records observations c ∨ Records xs c) :
    Records (xs.foldl (fun l o => upsert (InMemoryStorage.sameObservation o) o l) observations) c := by
  induction xs generalizing observations with
  | nil =>
    rcases h with hold | ⟨x, hx, -⟩
    · exact hold
    · exact absurd hx List.not_mem_nil
  | cons x xs ih =>
    have hx : x ∈ all := hxs x List.mem_cons_self
    have hclashx : ∀ o' ∈ observations, o'.id = x.id → SameSource o' x := fun o' ho' => hclash x hx o' (hobs o' ho')
    apply ih (fun y hy => hxs y (List.mem_cons_of_mem x hy))
    · intro o ho
      rcases mem_of_mem_upsert ho with rfl | hold
      · exact List.mem_append_right _ hx
      · exact hobs o hold
    · rcases h with hold | ⟨y, hy, hkey⟩
      · exact .inl (hold.saveEventObservation (hlive x hx) hclashx)
      · rcases List.mem_cons.1 hy with rfl | hrest
        · exact .inl ⟨y, mem_upsert_self _ _ _, hkey⟩
        · exact .inr ⟨y, hrest, hkey⟩

theorem foldl_saveEventObservation (st : InMemoryStorage) (xs : List EventObservation) :
    xs.foldl InMemoryStorage.saveEventObservation st =
      { st with eventObservations :=
          xs.foldl (fun l o => upsert (InMemoryStorage.sameObservation o) o l) st.eventObservations } := by
  induction xs generalizing st with
  | nil => rfl
  | cons x xs ih =>
    rw [List.foldl_cons, ih]
    rfl

theorem mode_recordedFor {event : ChainEvent} {savedAt : DateTime} {o : EventObservation}
    (h : o ∈ recordedFor newV5 event savedAt) : o.mode = .live := by
  unfold recordedFor at h
  by_cases hempty : event.witnesses.isEmpty
  · rw [if_pos hempty] at h
    rw [List.mem_singleton.1 h]
    rfl
  · rw [if_neg hempty] at h
    obtain ⟨w, -, rfl⟩ := List.mem_map.1 h
    rfl

/-- a witness of the event is recorded -/
theorem records_recordedFor {event : ChainEvent} (savedAt : DateTime) {w : ObservationWitness} (h : w ∈ event.witnesses) :
    Records (recordedFor newV5 event savedAt) (event.id, (w.source.provider, w.source.transport)) := by
  have hne : ¬ event.witnesses.isEmpty := by simpa using List.ne_nil_of_mem h
  refine ⟨witnessed newV5 event w, ?_, rfl, rfl, rfl⟩
  rw [recordedFor, if_neg hne]
  exact List.mem_map_of_mem h

/-- what an arrival needs of the state before it -/
structure Inv (p : St) : Prop where
  complete : Complete p
  nodup : (p.storage.events.map (·.id)).Nodup

theorem storage_arrive (p : St) (a : Arrival) :
    (arrive newV5 p a).storage =
      (p.dedup.filterOne a.now a.utc a.event).2.elim p.storage (saveEventWithRetry newV5 p.storage a.draw) := rfl

theorem storage_dropped {p : St} {a : Arrival} (hpass : (p.dedup.filterOne a.now a.utc a.event).2 = none) :
    (arrive newV5 p a).storage = p.storage := by
  rw [storage_arrive, hpass]
  rfl

/-- what passes is saved, and its observations after it -/
theorem storage_passed {p : St} {a : Arrival} {fresh : ChainEvent}
    (hpass : (p.dedup.filterOne a.now a.utc a.event).2 = some fresh) :
    (arrive newV5 p a).storage.events = (p.storage.toEventStore.saveEvent fresh).events ∧
      (arrive newV5 p a).storage.eventObservations =
        (recordedFor newV5 fresh a.draw.savedAt).foldl (fun l o => upsert (InMemoryStorage.sameObservation o) o l)
          (p.storage.toEventStore.saveEvent fresh).eventObservations := by
  have hstore := p.storage.toEventStore_saveEvent a.draw.stamps fresh
  rw [storage_arrive, hpass, Option.elim_some, saveEventWithRetry, foldl_saveEventObservation, ← hstore]
  exact ⟨rfl, rfl⟩

theorem mem_contributed_arrive {p : St} {a : Arrival} {c : Uuid × Source} :
    c ∈ (arrive newV5 p a).contributed ↔
      (c ∈ p.contributed ∨ ∃ s, sourceOf a.event = some s ∧ (a.event.id, s) = c) ∧
        ((arrive newV5 p a).storage.stored c.1).isSome := by
  rw [storage_arrive]
  simp only [arrive, pass, List.mem_filter, List.mem_append, Option.mem_toList, Option.map_eq_some_iff]

/-- **One arrival.** If it is heard, the provenance stays complete. -/
theorem arrive_complete {p : St} {a : Arrival} (h : Inv p) (ha : Heard newV5 p a) : Inv (arrive newV5 p a) := by
  obtain ⟨hclash, hdropped⟩ := ha
  cases hpass : (p.dedup.filterOne a.now a.utc a.event).2 with
  | none =>
    -- dropped: the store is as it was
    have hsame : (arrive newV5 p a).storage = p.storage := storage_dropped hpass
    refine ⟨?_, hsame ▸ h.nodup⟩
    intro c hc
    obtain ⟨hc, hstored⟩ := mem_contributed_arrive.1 hc
    rw [hsame] at hstored ⊢
    rcases hc with hold | ⟨s, hs, rfl⟩
    · exact h.complete c hold
    · -- its source has contributed before, so it is recorded
      have hremembers := EventDeduplicator.remembers_of_filterOne hpass
      exact h.complete _ (hdropped hremembers hstored s hs)
  | some fresh =>
    obtain ⟨hid, hwitness⟩ := EventDeduplicator.witness_of_filterOne hpass
    obtain ⟨hevents, hobservations⟩ := storage_passed hpass
    refine ⟨?_, ?_⟩
    · intro c hc
      obtain ⟨hc, hstored⟩ := mem_contributed_arrive.1 hc
      have hkept : ((p.storage.toEventStore.saveEvent fresh).stored c.1).isSome := by
        unfold EventStore.stored at hstored ⊢
        rwa [hevents] at hstored
      rw [hobservations]
      refine records_foldl (fun o ho => mode_recordedFor ho) (hclash fresh hpass) (fun x hx => hx) ?_ ?_
      · intro o ho
        exact List.mem_append_left _ ((p.storage.toEventStore.observations_sublist fresh).subset ho)
      · rcases hc with hold | ⟨s, hs, rfl⟩
        · obtain ⟨o, ho, hevent, hrest⟩ := h.complete c hold
          exact .inl ⟨o, EventStore.observation_kept h.nodup ho (hevent ▸ hkept), hevent, hrest⟩
        · obtain ⟨src, hsrc, rfl⟩ := Option.map_eq_some_iff.1 hs
          obtain ⟨w, hw, rfl⟩ := hwitness src hsrc
          rw [← hid]
          exact .inr (records_recordedFor a.draw.savedAt hw)
    · rw [hevents]
      exact EventStore.nodup_saveEvent h.nodup fresh

end

/-! ## Runs -/

/-- nothing seen, nothing stored -/
def start (maxCapacity ttl maxEvents : ℕ) : St :=
  ⟨EventDeduplicator.new maxCapacity ttl, InMemoryStorage.empty maxEvents, []⟩

/-- **Live provenance.** Along every run whose arrivals are heard, every source that contributed to a stored event is in
one of its live observations. -/
theorem live_provenance_complete (newV5 : String → Uuid) (maxCapacity ttl maxEvents : ℕ) (arrivals : List Arrival)
    (h : Trace.Steps (arrive newV5) (Heard newV5) (start maxCapacity ttl maxEvents) arrivals) :
    Trace.Always (arrive newV5) Complete (start maxCapacity ttl maxEvents) arrivals := by
  have hstart : Inv (start maxCapacity ttl maxEvents) := ⟨by simp [Complete, start], by simp [start, InMemoryStorage.empty]⟩
  exact Trace.always_inv (fun _ _ hp ha => arrive_complete hp ha) (fun _ hp => hp.complete) hstart h

/-! ## Two sources of one transfer -/

/-- the transfer, as another feed reports it -/
def feedTransfer : ChainEvent :=
  { Pipeline.mempoolTransfer with source := some (.mempoolWs "wss://mempool.space/api/v1/ws") }

/-- the event arrives at this second -/
def arrivalAt (second : ℕ) (event : ChainEvent) : Arrival :=
  ⟨second * 1000000000, fromTimestamp second, ⟨fun _ => (0, 0), fromTimestamp second⟩, event⟩

/-- ids by the length of the key -/
def keyLengthV5 (key : String) : Uuid := BitVec.ofNat 128 key.length

/-- half an hour, ten thousand keys and events -/
def emptyWorker : St := start 10000 1800000000000 10000

/-- the second source an hour later is recorded -/
theorem live_provenance_complete_hour_later :
    Trace.Always (arrive keyLengthV5) Complete emptyWorker
      [arrivalAt 0 Pipeline.mempoolTransfer, arrivalAt 3600 feedTransfer] :=
  live_provenance_complete keyLengthV5 10000 1800000000000 10000 _ (by decide +kernel)

/-- **The second source is forgotten.** One second after the first it contributes to the stored event, and no observation
names it. -/
theorem second_source_forgotten :
    let p := Trace.run (arrive keyLengthV5) emptyWorker
      [arrivalAt 0 Pipeline.mempoolTransfer, arrivalAt 1 feedTransfer]
    (feedTransfer.id, ("mempool.space", "websocket")) ∈ p.contributed ∧
      p.storage.eventObservations.map (fun o => (o.source.provider, o.source.transport)) = [("bitcoin_core", "zmq")] ∧
      ¬ Complete p := by
  intro p
  have hcontributed : (feedTransfer.id, ("mempool.space", "websocket")) ∈ p.contributed := by decide +kernel
  have hsources : p.storage.eventObservations.map (fun o => (o.source.provider, o.source.transport)) =
      [("bitcoin_core", "zmq")] := by decide +kernel
  refine ⟨hcontributed, hsources, ?_⟩
  intro hcomplete
  obtain ⟨o, ho, -, -, hsource⟩ := hcomplete _ hcontributed
  have hmem := List.mem_map_of_mem (f := fun o : EventObservation => (o.source.provider, o.source.transport)) ho
  rw [hsources, hsource] at hmem
  exact absurd hmem (by decide)

end ObsChain.LiveProvenance
