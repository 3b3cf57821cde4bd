/-
One sample per canonical event.

The store is fed by any sequence of `save_event`, `save_event_observation` and `save_event_metrics`: live sources and replay
jobs may record the same canonical events any number of times, events may be evicted and come back. The observations
bear the ids their constructors give (`Built`). `Canonical` is what holds in every state: one event per id, one metric row
per event, metric and version, one replay observation per event and job; so an event is at most once among the events of
a baseline query, and at most once among the rows a rank query counts, also when that first extracts missing rows.

- `sameObservation_iff`: between built observations the three-way scan compares ids.
- `step_tables`: every operation keeps the keys of the three tables distinct.
- `canonical_samples`: along every run from the empty store.
-/
import Mathlib.Tactic
import ObsChain.Core.Trace
import ObsChain.Domain.Provenance
import ObsChain.Storage.InMemory
import ObsChain.Storage.RankPopulation

namespace ObsChain.InMemoryStorage

open EventMetricExtractor

inductive Op where
  | saveEvent (stamps : ℕ → Uuid × DateTime) (event : ChainEvent)
  | saveEventObservation (observation : EventObservation)
  | saveEventMetrics (metrics : List EventMetricValue)

def step (st : InMemoryStorage) : Op → InMemoryStorage
  | .saveEvent stamps event => st.saveEvent stamps event
  | .saveEventObservation observation => st.saveEventObservation observation
  | .saveEventMetrics metrics => st.saveEventMetrics metrics

/-- the rows a rank query counts -/
def countedRows (stamps : ℕ → ℕ → Uuid × DateTime) (st : InMemoryStorage) (q : RankQuery) : List EventMetricValue :=
  (st.withFallback stamps q).eventMetrics.filter fun m => q.selects m.toMetricContent

/-- the replay observations, by event and job -/
def replayKeys (st : InMemoryStorage) : List (Uuid × Option Uuid) :=
  (st.eventObservations.filter fun o => o.mode = .historicalReplay).map fun o => (o.eventId, o.replayJobId)

/-- one event per id, one row per key, one observation per replay, and one sample per event -/
structure Canonical (st : InMemoryStorage) : Prop where
  events : (st.events.map (·.id)).Nodup
  rows : (st.eventMetrics.map fun m => rowKey m.toMetricContent).Nodup
  replays : st.replayKeys.Nodup
  samples : ∀ eventType a b, ((st.queryEventsForBaseline eventType a b).map (·.id)).Nodup
  counted : ∀ stamps q, ((st.countedRows stamps q).map (·.eventId)).Nodup

/-! ## The tables -/

section

variable {newV5 : String → Uuid}

/-- the keys of the three tables are distinct, and the ids of observations are made of their fields -/
structure Tables (newV5 : String → Uuid) (st : InMemoryStorage) : Prop where
  events : (st.events.map (·.id)).Nodup
  rows : (st.eventMetrics.map fun m => rowKey m.toMetricContent).Nodup
  built : ∀ o ∈ st.eventObservations, EventObservation.Built newV5 o
  observations : (st.eventObservations.map (·.id)).Nodup

/-- a replay's id is that of its event and its job -/
theorem id_of_replay {o : EventObservation} (h : EventObservation.Built newV5 o) (hmode : o.mode = .historicalReplay) :
    ∃ job, o.replayJobId = some job ∧
      o.id = newV5 ("obs:" ++ hyphenated o.eventId ++ ":replay:" ++ hyphenated job) := by
  obtain ⟨job, hjob⟩ := Option.isSome_iff_exists.1 (h.replay_iff.2 hmode)
  refine ⟨job, hjob, ?_⟩
  rw [h.id_eq, EventObservation.idOf, EventObservation.deterministicId, hmode, hjob]
  rfl

/-- **The scan compares ids**, between observations that bear the ids of their constructors. -/
theorem sameObservation_iff {x y : EventObservation} (hx : EventObservation.Built newV5 x)
    (hy : EventObservation.Built newV5 y) : sameObservation x y = true ↔ y.id = x.id := by
  constructor
  · intro h
    simp only [sameObservation, Bool.or_eq_true, Bool.and_eq_true, beq_iff_eq] at h
    rcases h with (hid | hreplay) | htuple
    · exact hid
    · -- the same event and job
      obtain ⟨⟨⟨hmode, hevent⟩, hjob⟩, hsome⟩ := hreplay
      have hymode : y.mode = .historicalReplay := hy.replay_iff.1 (hjob ▸ hsome)
      obtain ⟨job, hxjob, hxid⟩ := id_of_replay hx hmode
      obtain ⟨job', hyjob, hyid⟩ := id_of_replay hy hymode
      have hsame : job' = job := by
        rw [hxjob, hyjob] at hjob
        exact Option.some.inj hjob
      rw [hxid, hyid, hevent, hsame]
    · -- the same live tuple
      obtain ⟨⟨⟨⟨⟨⟨⟨⟨⟨hxm, hevent⟩, hym⟩, hprov⟩, htrans⟩, hkind⟩, hhash⟩, hsseq⟩, hmseq⟩, hstatus⟩ := htuple
      rw [hx.id_eq, hy.id_eq]
      unfold EventObservation.idOf EventObservation.deterministicId EventObservation.identityKey
      rw [hxm, hym, hevent, hprov, htrans, hkind, hhash, hsseq, hmseq, hstatus]
  · intro hid
    simp [sameObservation, hid]

theorem saveEventMetrics_rows {rows : List EventMetricValue} (h : (rows.map fun m => rowKey m.toMetricContent).Nodup)
    (metrics : List EventMetricValue) :
    ((metrics.foldl (fun rows m => upsert (sameMetric m) m rows) rows).map fun m => rowKey m.toMetricContent).Nodup := by
  induction metrics generalizing rows with
  | nil => exact h
  | cons m metrics ih => exact ih (nodup_upsert _ (fun r _ => sameMetric_iff m r) h)

theorem materialize_rows (stamps : ℕ → ℕ → Uuid × DateTime) (i : ℕ) {st : InMemoryStorage}
    (h : (st.eventMetrics.map fun m => rowKey m.toMetricContent).Nodup) (events : List ChainEvent) :
    ((materialize stamps i st events).eventMetrics.map fun m => rowKey m.toMetricContent).Nodup := by
  induction events generalizing st i with
  | nil => exact h
  | cons event events ih => exact ih (i + 1) (saveEventMetrics_rows h _)

/-- **One operation** keeps the keys of the three tables distinct. -/
theorem step_tables {st : InMemoryStorage} (h : Tables newV5 st) {op : Op}
    (hop : ∀ o, op = .saveEventObservation o → EventObservation.Built newV5 o) : Tables newV5 (step st op) := by
  cases op with
  | saveEvent stamps event =>
    have hstore := st.toEventStore_saveEvent stamps event
    have hsub := st.toEventStore.observations_sublist event
    refine ⟨?_, ?_, ?_, ?_⟩
    · show ((st.saveEvent stamps event).toEventStore.events.map (·.id)).Nodup
      rw [hstore]
      exact EventStore.nodup_saveEvent h.events event
    · show ((st.saveEvent stamps event).eventMetrics.map fun m => rowKey m.toMetricContent).Nodup
      unfold saveEvent
      cases EventStore.mergeInto event st.events with
      | some events' => exact h.rows
      | none => exact saveEventMetrics_rows h.rows _
    · show ∀ o ∈ (st.saveEvent stamps event).toEventStore.eventObservations, EventObservation.Built newV5 o
      rw [hstore]
      exact fun o ho => h.built o (hsub.subset ho)
    · show ((st.saveEvent stamps event).toEventStore.eventObservations.map (·.id)).Nodup
      rw [hstore]
      exact (hsub.map _).nodup h.observations
  | saveEventObservation o =>
    have hbuilt := hop o rfl
    refine ⟨h.events, h.rows, ?_, ?_⟩
    · intro o' ho'
      rcases mem_of_mem_upsert ho' with rfl | hold
      · exact hbuilt
      · exact h.built o' hold
    · exact nodup_upsert (·.id) (fun y hy => sameObservation_iff hbuilt (h.built y hy)) h.observations
  | saveEventMetrics metrics => exact ⟨h.events, saveEventMetrics_rows h.rows metrics, h.built, h.observations⟩

/-! ## Samples -/

/-- the ids of the replays are made of event and job, so these are distinct too -/
theorem Tables.replays {st : InMemoryStorage} (h : Tables newV5 st) : st.replayKeys.Nodup := by
  have hids : ((st.eventObservations.filter fun o => o.mode = .historicalReplay).map (·.id)).Nodup :=
    (List.filter_sublist.map _).nodup h.observations
  have hkeys : (st.eventObservations.filter fun o => o.mode = .historicalReplay).map (·.id) =
      st.replayKeys.map fun k => newV5 ("obs:" ++ hyphenated k.1 ++ ":replay:" ++ hyphenated (k.2.getD 0)) := by
    rw [replayKeys, List.map_map]
    apply List.map_congr_left
    intro o ho
    obtain ⟨hmem, hmode⟩ := List.mem_filter.1 ho
    obtain ⟨job, hjob, hid⟩ := id_of_replay (h.built o hmem) (by simpa using hmode)
    rw [Function.comp_apply, hid, hjob]
    rfl
  rw [hkeys] at hids
  exact hids.of_map

/-- rows of one metric and version with distinct keys are of distinct events -/
theorem Tables.counted {st : InMemoryStorage} (h : Tables newV5 st) (stamps : ℕ → ℕ → Uuid × DateTime) (q : RankQuery) :
    ((st.countedRows stamps q).map (·.eventId)).Nodup := by
  have hrows : ((st.withFallback stamps q).eventMetrics.map fun m => rowKey m.toMetricContent).Nodup := by
    unfold withFallback
    split_ifs
    · exact materialize_rows stamps 0 h.rows _
    · exact h.rows
  have hcounted : ((st.countedRows stamps q).map fun m => rowKey m.toMetricContent).Nodup :=
    (List.filter_sublist.map _).nodup hrows
  have hkeys : (st.countedRows stamps q).map (fun m => rowKey m.toMetricContent) =
      ((st.countedRows stamps q).map (·.eventId)).map fun id => (id, q.metric, q.metricDefinitionVersion) := by
    rw [List.map_map]
    apply List.map_congr_left
    intro m hm
    obtain ⟨-, -, hmetric, hversion, -, -⟩ := (q.selects_iff m.toMetricContent).1 (List.mem_filter.1 hm).2
    rw [Function.comp_apply, rowKey, hmetric, hversion]
  rw [hkeys] at hcounted
  exact hcounted.of_map

theorem Tables.canonical {st : InMemoryStorage} (h : Tables newV5 st) : Canonical st where
  events := h.events
  rows := h.rows
  replays := h.replays
  samples := fun _ _ _ => (List.filter_sublist.map _).nodup h.events
  counted := h.counted

end

/-- **One sample per canonical event**, in every state of every run from the empty store. -/
theorem canonical_samples (newV5 : String → Uuid) (maxEvents : ℕ) (ops : List Op)
    (h : ∀ o, Op.saveEventObservation o ∈ ops → EventObservation.Built newV5 o) :
    Trace.Always step Canonical (empty maxEvents) ops := by
  have hempty : Tables newV5 (empty maxEvents) := ⟨by simp [empty], by simp [empty], by simp [empty], by simp [empty]⟩
  have hops : Trace.Steps step (fun _ op => ∀ o, op = .saveEventObservation o → EventObservation.Built newV5 o)
      (empty maxEvents) ops :=
    Trace.steps_of_mem fun op hop o heq => h o (heq ▸ hop)
  exact Trace.always_inv (fun _ _ hst hop => step_tables hst hop) (fun _ hst => hst.canonical) hempty hops

/-- a transfer that a live source and two jobs record, one of them twice -/
def recordings (newV5 : String → Uuid) : List Op :=
  let event := transferEvent 1 "seen" 100
  let replay (job : Uuid) (now : DateTime) : EventObservation :=
    .historicalReplay newV5 event.id job ⟨"bitcoin_core", "rpc_historical_replay", none⟩ now none event.blockHeight none
  [.saveEvent (fun _ => (0, 0)) event,
    .saveEventObservation (.live newV5 event.id (.bitcoinCoreZmq "tcp://127.0.0.1:28333") .confirmed 1 none
      event.blockHeight none),
    .saveEvent (fun _ => (0, 1)) event, .saveEventObservation (replay 7 2),
    .saveEvent (fun _ => (0, 2)) event, .saveEventObservation (replay 8 3),
    .saveEvent (fun _ => (0, 3)) event, .saveEventObservation (replay 7 4),
    .saveEventMetrics (extractEventMetrics (fun _ => (0, 5)) event none)]

theorem canonical_samples_recorded_four_times :
    Trace.Always step Canonical (empty 10) (recordings fun key => BitVec.ofNat 128 key.length) := by
  refine canonical_samples (fun key => BitVec.ofNat 128 key.length) 10 _ fun o ho => ?_
  simp only [recordings, List.mem_cons, List.not_mem_nil, or_false, Op.saveEventObservation.injEq, reduceCtorEq,
    false_or] at ho
  rcases ho with rfl | rfl | rfl | rfl
  · exact .live ..
  · exact .historicalReplay ..
  · exact .historicalReplay ..
  · exact .historicalReplay ..

end ObsChain.InMemoryStorage
