/-
Statistics of one network, in a store that several networks feed.

A block is replayed by a job on a network (`BlockReplay`): the detection step of the engine under the job's context, then
`save_event` and `save_event_observation` for every event (`persist`). The network stands in the context only. The engine
does not write it on the event, so the metric rows of every replay are filed under the extractor's default "mainnet",
and the baseline query selects by height alone.

`Isolated network a b full own`: on the window from `a` to `b` the distributions of a baseline run, and every rank for the
network, are the same in both stores. `full` is fed with all events, in any interleaving, `own` with the network's alone.

- `persist_own`, `persist_foreign`: one event of the network, or of another one, keeps `own` the part of `full` that has
  the network's ids (`PartOf`).
- `statistics_isolated`: the statistics are isolated when no event of another network falls into the window or has the id
  of one of the network's events (`Apart`), and no event of the network is evicted while another network's event is stored
  or arrives (`KeepsOwn`).
- `testnet_transfer_counted`: a block of testnet at the same height as one of mainnet, and both statistics change.
-/
import Mathlib.Tactic
import ObsChain.Core.Trace
import ObsChain.Detect.Engine
import ObsChain.Domain.Provenance
import ObsChain.Statistics.Distribution
import ObsChain.Storage.InMemory

namespace ObsChain.InMemoryStorage

open EventMetricExtractor

/-! ## Replays into the store -/

/-- one detected event, with what its persistence needs -/
structure Fed where
  network : String
  job : Uuid
  height : ℕ
  hash : String
  stamps : ℕ → Uuid × DateTime
  now : DateTime
  event : ChainEvent

/-- a block replayed by a job -/
structure BlockReplay where
  network : String
  job : Uuid
  engine : DetectorEngine
  draws : ℕ → ℕ → Fresh
  block : BlockObservation
  txs : List TransactionObservation
  stamps : ℕ → ℕ → Uuid × DateTime
  now : DateTime

def BlockReplay.context (r : BlockReplay) : ObservationContext :=
  .historicalReplay r.job r.block.height r.block.blockHash r.block.timestamp r.network

/-- the events of the block, in order -/
def BlockReplay.feeds (newV5 : String → Uuid) (rfc3339 : DateTime → String) (r : BlockReplay) : List Fed :=
  (DetectorEngine.replayBlock newV5 rfc3339 r.engine r.draws r.context r.block r.txs).2.mapIdx fun i event =>
    ⟨r.network, r.job, r.block.height, r.block.blockHash, r.stamps i, r.now, event⟩

/-- the canonical event, then the job's observation of it -/
def persist (newV5 : String → Uuid) (st : InMemoryStorage) (f : Fed) : InMemoryStorage :=
  (st.saveEvent f.stamps f.event).saveEventObservation
    (.historicalReplay newV5 f.event.id f.job ⟨"bitcoin_core", "rpc_historical_replay", none⟩ f.now
      (some f.event.eventTime) (some f.height) (some f.hash))

/-- the store after these events, from the empty one; the events of several replays come in any interleaving -/
def fed (newV5 : String → Uuid) (maxEvents : ℕ) (feeds : List Fed) : InMemoryStorage :=
  Trace.run (persist newV5) (empty maxEvents) feeds

/-- a baseline run and every rank query for the network answer the same on the window -/
def Isolated (network : String) (a b : ℕ) (full own : InMemoryStorage) : Prop :=
  (∀ types, BaselineEngine.generateDistributions (full.queryEventsForBaseline none a b) types =
      BaselineEngine.generateDistributions (own.queryEventsForBaseline none a b) types) ∧
    ∀ stamps (q : RankQuery), q.network = network → q.startHeight = a → q.endHeight = b → ∀ value direction,
      (full.getExactEmpiricalRank stamps q value direction).2 = (own.getExactEmpiricalRank stamps q value direction).2

/-! ## The condition -/

/-- the height, as a metric row has it, is outside the window -/
def Outside (a b : ℕ) (height : ℕ) : Prop := height < a ∨ b < height

instance (a b height : ℕ) : Decidable (Outside a b height) := inferInstanceAs (Decidable (_ ∨ _))

/-- the id is of an event that another network produced -/
def foreign (network : String) (feeds : List Fed) (id : Uuid) : Bool :=
  feeds.any fun f => decide (f.network ≠ network) && f.event.id == id

/-- other networks keep out of the window and share no id with this one -/
structure Apart (network : String) (a b : ℕ) (feeds : List Fed) : Prop where
  outside : ∀ f ∈ feeds, f.network ≠ network → Outside a b (f.event.blockHeight.getD 0)
  ids : ∀ f ∈ feeds, f.network ≠ network → ∀ g ∈ feeds, g.network = network → f.event.id ≠ g.event.id

/-- a full store makes room with another network's event, or has none of them -/
def KeepsOwn (network : String) (feeds : List Fed) (st : InMemoryStorage) (f : Fed) : Prop :=
  st.stored f.event.id = none → st.maxEvents ≤ st.events.length → ∀ oldest ∈ st.events.head?,
    foreign network feeds oldest.id = true ∨
      (f.network = network ∧ ∀ e ∈ st.events, foreign network feeds e.id = false)

instance (network : String) (feeds : List Fed) (st : InMemoryStorage) (f : Fed) : Decidable (KeepsOwn network feeds st f) :=
  inferInstanceAs (Decidable (_ = none → _ → ∀ oldest ∈ st.events.head?, _))

/-! ## The network's part of the store -/

section

variable {own : Uuid → Bool} {a b : ℕ}

/-- the rows of the events that are `own`; the others are outside the window -/
structure RowsOf (own : Uuid → Bool) (a b : ℕ) (full part : List EventMetricValue) : Prop where
  rows : part = full.filter fun r => own r.eventId
  outside : ∀ r ∈ full, own r.eventId = false → Outside a b r.blockHeight

/-- `part` is what `full` holds of the events that are `own`, and the others are outside the window -/
structure PartOf (own : Uuid → Bool) (a b : ℕ) (full part : InMemoryStorage) : Prop where
  events : part.events = full.events.filter fun e => own e.id
  rows : RowsOf own a b full.eventMetrics part.eventMetrics
  limit : part.maxEvents = full.maxEvents
  size : full.events.length ≤ max full.maxEvents 1
  outside : ∀ e ∈ full.events, own e.id = false → Outside a b (e.blockHeight.getD 0)

/-- the metric rows of an event bear its id and its height -/
theorem mem_extractEventMetrics {stamps : ℕ → Uuid × DateTime} {event : ChainEvent} {version : Option String}
    {m : EventMetricValue} (h : m ∈ extractEventMetrics stamps event version) :
    m.eventId = event.id ∧ m.blockHeight = event.blockHeight.getD 0 := by
  have hmem : m.toMetricContent ∈ metricContents event version := by
    rw [← extractEventMetrics_contents stamps event version]
    exact List.mem_map_of_mem h
  obtain ⟨d, -, hd⟩ := List.mem_filterMap.1 hmem
  obtain ⟨val, -, hval⟩ := Option.map_eq_some_iff.1 hd
  rw [← hval]
  exact ⟨rfl, rfl⟩

/-- rows of an `own` event go into both tables -/
theorem RowsOf.save_own {full part : List EventMetricValue} (h : RowsOf own a b full part) {ms : List EventMetricValue}
    (hms : ∀ m ∈ ms, own m.eventId = true) :
    RowsOf own a b (ms.foldl (fun rows m => upsert (sameMetric m) m rows) full)
      (ms.foldl (fun rows m => upsert (sameMetric m) m rows) part) := by
  induction ms generalizing full part with
  | nil => exact h
  | cons m ms ih =>
    have hm := hms m List.mem_cons_self
    refine ih ⟨?_, ?_⟩ fun m' hm' => hms m' (List.mem_cons_of_mem m hm')
    · rw [h.rows]
      refine (filter_upsert_of_pos (p := fun r : EventMetricValue => own r.eventId) hm fun r _ hsame => ?_).symm
      have hid : r.eventId = m.eventId := congrArg Prod.fst ((sameMetric_iff m r).1 hsame)
      rw [hid, hm]
    · intro r hr hfor
      rcases mem_of_mem_upsert hr with heq | hold
      · rw [heq, hm] at hfor
        cases hfor
      · exact h.outside r hold hfor

/-- rows of another event, outside the window, go into the full table only -/
theorem RowsOf.save_foreign {full part : List EventMetricValue} (h : RowsOf own a b full part)
    {ms : List EventMetricValue} (hms : ∀ m ∈ ms, own m.eventId = false ∧ Outside a b m.blockHeight) :
    RowsOf own a b (ms.foldl (fun rows m => upsert (sameMetric m) m rows) full) part := by
  induction ms generalizing full with
  | nil => exact h
  | cons m ms ih =>
    obtain ⟨hm, hout⟩ := hms m List.mem_cons_self
    refine ih ⟨?_, ?_⟩ fun m' hm' => hms m' (List.mem_cons_of_mem m hm')
    · rw [h.rows]
      refine (filter_upsert_of_neg (p := fun r : EventMetricValue => own r.eventId) hm fun r _ hsame => ?_).symm
      have hid : r.eventId = m.eventId := congrArg Prod.fst ((sameMetric_iff m r).1 hsame)
      rw [hid, hm]
    · intro r hr hfor
      rcases mem_of_mem_upsert hr with heq | hold
      · rw [heq]
        exact hout
      · exact h.outside r hold hfor

/-- a full store that gives up another event, or has no other events, leaves its part in step -/
theorem PartOf.makeRoom {full part : InMemoryStorage} (h : PartOf own a b full part)
    (hkeep : full.maxEvents ≤ full.events.length → ∀ oldest ∈ full.events.head?,
      own oldest.id = false ∨ ∀ e ∈ full.events, own e.id = true) :
    part.toEventStore.makeRoom.events = full.toEventStore.makeRoom.events.filter fun e => own e.id := by
  have hle : part.events.length ≤ full.events.length := by
    rw [h.events]
    exact List.length_filter_le _ _
  rw [EventStore.makeRoom_events, EventStore.makeRoom_events, h.limit]
  by_cases hfull : full.maxEvents ≤ full.events.length
  · rw [if_pos hfull]
    cases hl : full.events with
    | nil =>
      have hpart : part.events = [] := by rw [h.events, hl]; rfl
      simp [hpart]
    | cons oldest rest =>
      rcases hkeep hfull oldest (by simp [hl]) with hfor | hall
      · -- the part has one event less, so it has room
        have hpart : part.events = rest.filter fun e => own e.id := by
          rw [h.events, hl, List.filter_cons_of_neg (by simpa using hfor)]
        have hshort : part.events.length ≤ rest.length := by
          rw [hpart]
          exact List.length_filter_le _ _
        have hsize := h.size
        rw [hl, List.length_cons] at hsize
        split_ifs with hpartFull
        · have hnil : part.events = [] := List.length_eq_zero_iff.1 (by omega)
          rw [List.tail_cons, ← hpart, hnil]
          rfl
        · rw [List.tail_cons, hpart]
      · have hpart : part.events = full.events := by
          rw [h.events, List.filter_eq_self]
          exact hall
        rw [hpart, if_pos hfull, hl, List.tail_cons, eq_comm, List.filter_eq_self]
        intro e he
        exact hall e (hl ▸ List.mem_cons_of_mem oldest he)
  · rw [if_neg hfull, if_neg (by omega), h.events]

/-- a known event is merged, and the metric table stays -/
theorem persist_of_some (newV5 : String → Uuid) {st : InMemoryStorage} {f : Fed} {events : List ChainEvent}
    (hm : EventStore.mergeInto f.event st.events = some events) :
    (persist newV5 st f).events = events ∧ (persist newV5 st f).eventMetrics = st.eventMetrics ∧
      (persist newV5 st f).maxEvents = st.maxEvents := by
  simp [persist, saveEvent, saveEventObservation, EventStore.saveEvent, hm]

/-- a new event is appended after room is made, and its metric rows are written -/
theorem persist_of_none (newV5 : String → Uuid) {st : InMemoryStorage} {f : Fed}
    (hm : EventStore.mergeInto f.event st.events = none) :
    (persist newV5 st f).events = st.toEventStore.makeRoom.events ++ [f.event] ∧
      (persist newV5 st f).eventMetrics = (extractEventMetrics f.stamps f.event none).foldl
        (fun rows m => upsert (sameMetric m) m rows) st.eventMetrics ∧
      (persist newV5 st f).maxEvents = st.maxEvents := by
  simp [persist, saveEvent, saveEventObservation, saveEventMetrics, EventStore.saveEvent, hm]

theorem size_persist (newV5 : String → Uuid) {st : InMemoryStorage} (f : Fed)
    (h : st.events.length ≤ max st.maxEvents 1) :
    (persist newV5 st f).events.length ≤ max (persist newV5 st f).maxEvents 1 := by
  cases hm : EventStore.mergeInto f.event st.events with
  | some events' =>
    obtain ⟨hevents, -, hlimit⟩ := persist_of_some newV5 hm
    obtain ⟨before, existing, after, hold, hnew, -⟩ := EventStore.mergeInto_eq_some hm
    rw [hold] at h
    rw [hevents, hlimit, hnew]
    simpa using h
  | none =>
    obtain ⟨hevents, -, hlimit⟩ := persist_of_none newV5 hm
    rw [hevents, hlimit, EventStore.makeRoom_events, List.length_append, List.length_singleton]
    split_ifs
    · rw [List.length_tail]
      omega
    · omega

/-- events that are not `own` stay outside the window -/
theorem outside_persist (newV5 : String → Uuid) {st : InMemoryStorage} (f : Fed)
    (h : ∀ e ∈ st.events, own e.id = false → Outside a b (e.blockHeight.getD 0))
    (hf : own f.event.id = false → Outside a b (f.event.blockHeight.getD 0)) :
    ∀ e ∈ (persist newV5 st f).events, own e.id = false → Outside a b (e.blockHeight.getD 0) := by
  intro e he hfor
  cases hm : EventStore.mergeInto f.event st.events with
  | some events' =>
    obtain ⟨hevents, -, -⟩ := persist_of_some newV5 hm
    obtain ⟨before, existing, after, hold, hnew, -⟩ := EventStore.mergeInto_eq_some hm
    rw [hevents, hnew] at he
    rcases List.mem_append.1 he with hb | he
    · exact h e (hold ▸ List.mem_append_left _ hb) hfor
    · rcases List.mem_cons.1 he with rfl | ha
      · exact h existing (hold ▸ List.mem_append_right _ List.mem_cons_self) hfor
      · exact h e (hold ▸ List.mem_append_right _ (List.mem_cons_of_mem _ ha)) hfor
  | none =>
    obtain ⟨hevents, -, -⟩ := persist_of_none newV5 hm
    rw [hevents] at he
    rcases List.mem_append.1 he with hroom | hlast
    · exact h e (st.toEventStore.makeRoom_sublist.subset hroom) hfor
    · rw [List.mem_singleton.1 hlast] at hfor ⊢
      exact hf hfor

/-- **An event of the network.** It does to the part what it does to the store. -/
theorem persist_own {newV5 : String → Uuid} {full part : InMemoryStorage} {f : Fed} (h : PartOf own a b full part)
    (hown : own f.event.id = true)
    (hkeep : full.stored f.event.id = none → full.maxEvents ≤ full.events.length → ∀ oldest ∈ full.events.head?,
      own oldest.id = false ∨ ∀ e ∈ full.events, own e.id = true) :
    PartOf own a b (persist newV5 full f) (persist newV5 part f) := by
  have hmerge := EventStore.mergeInto_filter hown full.events
  rw [← h.events] at hmerge
  have hout := outside_persist newV5 f h.outside fun hfor => absurd hown (by simp [hfor])
  have hsize := size_persist newV5 f h.size
  cases hm : EventStore.mergeInto f.event full.events with
  | some events' =>
    rw [hm] at hmerge
    obtain ⟨hevents, hrows, hlimit⟩ := persist_of_some newV5 hm
    obtain ⟨hevents', hrows', hlimit'⟩ := persist_of_some newV5 hmerge
    refine ⟨?_, ?_, ?_, hsize, hout⟩
    · rw [hevents, hevents']
    · rw [hrows, hrows']
      exact h.rows
    · rw [hlimit, hlimit', h.limit]
  | none =>
    rw [hm] at hmerge
    obtain ⟨hevents, hrows, hlimit⟩ := persist_of_none newV5 hm
    obtain ⟨hevents', hrows', hlimit'⟩ := persist_of_none newV5 hmerge
    refine ⟨?_, ?_, ?_, hsize, hout⟩
    · rw [hevents, hevents', h.makeRoom (hkeep (EventStore.stored_eq_none hm)), List.filter_append]
      simp [hown]
    · rw [hrows, hrows']
      refine h.rows.save_own fun m hmem => ?_
      rw [(mem_extractEventMetrics hmem).1, hown]
    · rw [hlimit, hlimit', h.limit]

/-- **An event of another network.** The part does not see it. -/
theorem persist_foreign {newV5 : String → Uuid} {full part : InMemoryStorage} {f : Fed} (h : PartOf own a b full part)
    (hfor : own f.event.id = false) (hf : Outside a b (f.event.blockHeight.getD 0))
    (hkeep : full.stored f.event.id = none → full.maxEvents ≤ full.events.length → ∀ oldest ∈ full.events.head?,
      own oldest.id = false) :
    PartOf own a b (persist newV5 full f) part := by
  have hout := outside_persist newV5 f h.outside fun _ => hf
  have hsize := size_persist newV5 f h.size
  cases hm : EventStore.mergeInto f.event full.events with
  | some events' =>
    obtain ⟨hevents, hrows, hlimit⟩ := persist_of_some newV5 hm
    obtain ⟨before, existing, after, hold, hnew, hid, -⟩ := EventStore.mergeInto_eq_some hm
    refine ⟨?_, hrows ▸ h.rows, h.limit.trans hlimit.symm, hsize, hout⟩
    -- the event that changes is not in the part
    have hexisting : own existing.id = false := hid ▸ hfor
    have hmerged : own (EventStore.merge existing f.event).id = false := hexisting
    rw [hevents, hnew, h.events, hold]
    simp [hexisting, hmerged]
  | none =>
    obtain ⟨hevents, hrows, hlimit⟩ := persist_of_none newV5 hm
    refine ⟨?_, ?_, h.limit.trans hlimit.symm, hsize, hout⟩
    · rw [hevents, List.filter_append, List.filter_cons_of_neg (by simpa using hfor), List.filter_nil, List.append_nil,
        EventStore.makeRoom_events, h.events]
      split_ifs with hfull
      · cases hl : full.events with
        | nil => rfl
        | cons oldest rest =>
          have holdest := hkeep (EventStore.stored_eq_none hm) hfull oldest (by simp [hl])
          rw [List.filter_cons_of_neg (by simpa using holdest), List.tail_cons]
      · rfl
    · rw [hrows]
      refine h.rows.save_foreign fun m hmem => ?_
      obtain ⟨hid, hheight⟩ := mem_extractEventMetrics hmem
      rw [hid, hheight]
      exact ⟨hfor, hf⟩

/-! ## The answers on the window -/

/-- the part answers a query that only selects its own records as the whole does -/
theorem filter_filter_own {α : Type} {p q : α → Bool} {l : List α} (h : ∀ x ∈ l, p x = false → q x = false) :
    (l.filter p).filter q = l.filter q := by
  rw [List.filter_filter]
  apply List.filter_congr
  intro x hx
  cases hp : p x with
  | true => simp
  | false => simp [h x hx hp]

/-- an event of a window of the baseline query has its height there -/
theorem queryEventsForBaseline_part {full part : InMemoryStorage} (h : PartOf own a b full part)
    (eventType : Option EventType) :
    part.queryEventsForBaseline eventType a b = full.queryEventsForBaseline eventType a b := by
  unfold EventStore.queryEventsForBaseline
  rw [h.events]
  apply filter_filter_own
  intro e he hfor
  cases hh : e.blockHeight with
  | none => rfl
  | some height =>
    have hout := h.outside e he hfor
    rw [hh, Option.getD_some] at hout
    rcases hout with hlt | hlt
    · simp [not_le.2 hlt]
    · simp [not_le.2 hlt]

/-- the query finds events of the part only -/
theorem own_of_mem_query {full part : InMemoryStorage} (h : PartOf own a b full part) {eventType : Option EventType}
    {e : ChainEvent} (he : e ∈ full.queryEventsForBaseline eventType a b) : own e.id = true := by
  rw [← queryEventsForBaseline_part h] at he
  have hmem : e ∈ part.events := (List.mem_filter.1 he).1
  rw [h.events] at hmem
  simpa using (List.mem_filter.1 hmem).2

theorem RowsOf.selected {full part : List EventMetricValue} (h : RowsOf own a b full part) {q : RankQuery}
    (ha : q.startHeight = a) (hb : q.endHeight = b) :
    (part.filter fun m => q.selects m.toMetricContent) = full.filter fun m => q.selects m.toMetricContent := by
  rw [h.rows]
  apply filter_filter_own
  intro r hr hfor
  rw [Bool.eq_false_iff, ne_eq, RankQuery.selects_iff, ha, hb]
  rintro ⟨-, -, -, -, hstart, hend⟩
  rcases h.outside r hr hfor with hlt | hlt
  · omega
  · omega

/-- the fallback extraction over events of the part keeps the tables in step -/
theorem RowsOf.materialize {full part : InMemoryStorage} (h : RowsOf own a b full.eventMetrics part.eventMetrics)
    (stamps : ℕ → ℕ → Uuid × DateTime) (i : ℕ) {events : List ChainEvent} (hev : ∀ e ∈ events, own e.id = true) :
    RowsOf own a b (materialize stamps i full events).eventMetrics (materialize stamps i part events).eventMetrics := by
  induction events generalizing full part i with
  | nil => exact h
  | cons event events ih =>
    refine ih ?_ (i + 1) fun e he => hev e (List.mem_cons_of_mem event he)
    refine h.save_own fun m hm => ?_
    rw [(mem_extractEventMetrics hm).1]
    exact hev event List.mem_cons_self

/-- **The part answers for the window.** -/
theorem PartOf.isolated {full part : InMemoryStorage} (h : PartOf own a b full part) (network : String) :
    Isolated network a b full part := by
  refine ⟨fun types => by rw [queryEventsForBaseline_part h], ?_⟩
  intro stamps q _ ha hb value direction
  have hselected := h.rows.selected ha hb
  have hrank : full.rankPopulation stamps q = part.rankPopulation stamps q := by
    unfold rankPopulation withFallback
    rw [hselected, ha, hb, queryEventsForBaseline_part h]
    split_ifs
    · have hown : ∀ e ∈ full.queryEventsForBaseline (some q.eventType) a b, own e.id = true :=
        fun e he => own_of_mem_query h he
      rw [(h.rows.materialize stamps 0 hown).selected ha hb]
    · rw [hselected]
  simp only [getExactEmpiricalRank, hrank]

end

/-! ## Runs -/

/-- the part follows the store along every run -/
theorem partOf_run {newV5 : String → Uuid} {network : String} {a b : ℕ} {all : List Fed} (hapart : Apart network a b all)
    {feeds : List Fed} (hsub : ∀ f ∈ feeds, f ∈ all) {full part : InMemoryStorage}
    (h : PartOf (fun id => !foreign network all id) a b full part)
    (hkeeps : Trace.Steps (persist newV5) (KeepsOwn network all) full feeds) :
    PartOf (fun id => !foreign network all id) a b (Trace.run (persist newV5) full feeds)
      (Trace.run (persist newV5) part (feeds.filter fun f => f.network = network)) := by
  induction feeds generalizing full part with
  | nil => exact h
  | cons f feeds ih =>
    have hf : f ∈ all := hsub f List.mem_cons_self
    obtain ⟨hkeep, hrest⟩ := hkeeps
    have hsub' : ∀ g ∈ feeds, g ∈ all := fun g hg => hsub g (List.mem_cons_of_mem f hg)
    by_cases hnet : f.network = network
    · -- an event of the network: no other network has its id
      have hown : foreign network all f.event.id = false := by
        rw [Bool.eq_false_iff, ne_eq, foreign, List.any_eq_true]
        rintro ⟨g, hg, hgf⟩
        simp only [Bool.and_eq_true, decide_eq_true_eq, beq_iff_eq] at hgf
        exact hapart.ids g hg hgf.1 f hf hnet hgf.2
      rw [List.filter_cons_of_pos (by simpa using hnet)]
      refine ih hsub' (persist_own h (by simp [hown]) fun hnew hfull oldest hold => ?_) hrest
      rcases hkeep hnew hfull oldest hold with hfor | ⟨-, hall⟩
      · exact .inl (by simp [hfor])
      · exact .inr fun e he => by simp [hall e he]
    · have hfor : foreign network all f.event.id = true := by
        rw [foreign, List.any_eq_true]
        exact ⟨f, hf, by simp [hnet]⟩
      rw [List.filter_cons_of_neg (by simpa using hnet)]
      refine ih hsub' (persist_foreign h (by simp [hfor]) (hapart.outside f hf hnet) fun hnew hfull oldest hold => ?_) hrest
      rcases hkeep hnew hfull oldest hold with hold | ⟨heq, -⟩
      · simp [hold]
      · exact absurd heq hnet

/-- **Isolation.** When other networks keep out of the window, share no id with this one and evict none of its events, the
statistics of the network on the window are those of its own events. -/
theorem statistics_isolated (newV5 : String → Uuid) (maxEvents : ℕ) (network : String) (a b : ℕ) (feeds : List Fed)
    (hapart : Apart network a b feeds)
    (hkeeps : Trace.Steps (persist newV5) (KeepsOwn network feeds) (empty maxEvents) feeds) :
    Isolated network a b (fed newV5 maxEvents feeds)
      (fed newV5 maxEvents (feeds.filter fun f => f.network = network)) := by
  have hempty : PartOf (fun id => !foreign network feeds id) a b (empty maxEvents) (empty maxEvents) :=
    ⟨rfl, ⟨rfl, by simp [empty]⟩, rfl, by simp [empty], by simp [empty]⟩
  exact (partOf_run hapart (fun f hf => hf) hempty hkeeps).isolated network

/-! ## Two networks -/

/-- a block with one transfer, replayed on a network -/
def transferReplay (network : String) (height : ℕ) (txid : String) (sats : ℕ) : BlockReplay where
  network := network
  job := 7
  engine := .new [.largeTransaction .default]
  draws := fun _ _ => ⟨0, 0, 0⟩
  block := ⟨"b" ++ txid, height, 0, "b0", 1, 300, 1200, none, some 600, none⟩
  txs := [⟨txid, 0, some ("b" ++ txid), some height, 0, 250, 1000, 250, none, 0, sats, 1, 1, [], [], false, true, none⟩]
  stamps := fun _ _ => (0, 0)
  now := 0

/-- ids by the length of the key -/
def lengthV5 (key : String) : Uuid := BitVec.ofNat 128 key.length

/-- mainnet, then testnet at another height -/
def transferFeeds (testnetHeight : ℕ) : List Fed :=
  (transferReplay "mainnet" 5 "aa" (100 * satsPerBtc)).feeds lengthV5 (fun _ => "1970-01-01T00:00:00Z") ++
    (transferReplay "testnet" testnetHeight "bbb" (300 * satsPerBtc)).feeds lengthV5 (fun _ => "1970-01-01T00:00:00Z")

/-- a testnet block far above the window changes nothing in it -/
theorem statistics_isolated_far_heights :
    Isolated "mainnet" 0 10 (fed lengthV5 10 (transferFeeds 50))
      (fed lengthV5 10 ((transferFeeds 50).filter fun f => f.network = "mainnet")) :=
  statistics_isolated lengthV5 10 "mainnet" 0 10 (transferFeeds 50)
    ⟨by decide +kernel, by decide +kernel⟩ (by decide +kernel)

/-- the rank of 100 BTC among the transfers up to height 10, for mainnet -/
def transferRank (st : InMemoryStorage) : Option (ℚ × ℕ × ℕ) :=
  (st.getExactEmpiricalRank (fun _ _ => (0, 0))
    ⟨"mainnet", .largeTransfer, .valueSats, versionOf .valueSats defaultMetricVersion, 0, 10⟩ (.u64 (100 * satsPerBtc))
    .higherIsRarer).2

/-- **A testnet transfer is counted for mainnet.** At the same height it halves the percentile of the mainnet transfer and
doubles the samples of the baseline. -/
theorem testnet_transfer_counted :
    let full := fed lengthV5 10 (transferFeeds 5)
    let own := fed lengthV5 10 ((transferFeeds 5).filter fun f => f.network = "mainnet")
    (transferRank own = some (100, 1, 1) ∧ transferRank full = some (50, 2, 2)) ∧
      (BaselineEngine.sampleCount (BaselineEngine.generateDistributions (own.queryEventsForBaseline none 0 10) none)
            .largeTransfer .valueSats = 1 ∧
        BaselineEngine.sampleCount (BaselineEngine.generateDistributions (full.queryEventsForBaseline none 0 10) none)
            .largeTransfer .valueSats = 2) ∧
      ¬ Isolated "mainnet" 0 10 full own := by
  intro full own
  have hown : transferRank own = some (100, 1, 1) := by decide +kernel
  have hfull : transferRank full = some (50, 2, 2) := by decide +kernel
  refine ⟨⟨hown, hfull⟩, ⟨by decide +kernel, by decide +kernel⟩, ?_⟩
  rintro ⟨-, hrank⟩
  have heq : transferRank full = transferRank own := hrank _ _ rfl rfl rfl _ _
  rw [hown, hfull] at heq
  exact absurd heq (by decide)

end ObsChain.InMemoryStorage
