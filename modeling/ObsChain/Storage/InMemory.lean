/-
The in-memory storage (`repository.rs`): the event store together with its table of metric values and its list of
observations, and the rank query over the metric table.

`save_event` writes metric rows only for an event that is new; a save of a known id returns after the merge. Observations
and metric rows are upserts with a linear scan. `get_exact_empirical_rank` counts over the rows that match the query; when
none does it first extracts the metrics of the stored events of that type and window, so a query can write. Locks and
their errors are not modelled.

- `withFallback` is the store after that, and `rankPopulation` the values that are counted.
- `rankOf` is the count itself; its third component is the size of the population.
- `fitsI64` is the check that the Postgres store makes of a `u64` before it writes one.
-/
import Mathlib.Tactic
import ObsChain.Core.Upsert
import ObsChain.Domain.Baseline
import ObsChain.Pipeline.EventStore

namespace ObsChain

open EventMetricExtractor

/-- a value that is there passes `u64_to_i64_checked` -/
def fitsI64 (val : Option ℕ) : Bool := val.all (· < 2 ^ 63)

structure InMemoryStorage extends EventStore where
  eventMetrics : List EventMetricValue

/-- what a rank query selects rows by -/
structure RankQuery where
  network : String
  eventType : EventType
  metric : BaselineMetric
  metricDefinitionVersion : String
  startHeight : ℕ
  endHeight : ℕ
deriving DecidableEq, Repr

def RankQuery.selects (q : RankQuery) (m : MetricContent) : Bool :=
  m.network == q.network && m.eventType == q.eventType && m.metric == q.metric &&
    m.metricDefinitionVersion == q.metricDefinitionVersion && decide (m.blockHeight ≥ q.startHeight) &&
    decide (m.blockHeight ≤ q.endHeight)

theorem RankQuery.selects_iff (q : RankQuery) (m : MetricContent) :
    q.selects m = true ↔
      m.network = q.network ∧ m.eventType = q.eventType ∧ m.metric = q.metric ∧
        m.metricDefinitionVersion = q.metricDefinitionVersion ∧ q.startHeight ≤ m.blockHeight ∧
        m.blockHeight ≤ q.endHeight := by
  unfold selects
  simp only [Bool.and_eq_true, beq_iff_eq, decide_eq_true_eq, ge_iff_le, and_assoc]

/-- percentile, tail count and population size of a value -/
def rankOf (direction : RarityDirection) (queryValue : MetricValue) (values : List MetricValue) : Option (ℚ × ℕ × ℕ) :=
  if values.isEmpty then none
  else
    let n := values.length
    let countLe := (values.filter fun v => decide (v ≤ queryValue)).length
    let countGe := (values.filter fun v => decide (v ≥ queryValue)).length
    match direction with
    | .higherIsRarer | .twoSided => some ((countLe : ℚ) / n * 100, countGe, n)
    | .lowerIsRarer => some ((countGe : ℚ) / n * 100, countLe, n)

theorem rankOf_population (direction : RarityDirection) (queryValue : MetricValue) (values : List MetricValue) :
    (rankOf direction queryValue values).elim 0 (·.2.2) = values.length := by
  cases values with
  | nil => rfl
  | cons v vs => cases direction <;> rfl

namespace InMemoryStorage

def empty (maxEvents : ℕ) : InMemoryStorage := ⟨⟨[], [], maxEvents⟩, []⟩

/-- the scan of `save_event_metrics` -/
def sameMetric (m existing : EventMetricValue) : Bool :=
  existing.eventId == m.eventId && existing.metric == m.metric &&
    existing.metricDefinitionVersion == m.metricDefinitionVersion

def saveEventMetrics (st : InMemoryStorage) (metrics : List EventMetricValue) : InMemoryStorage :=
  { st with eventMetrics := metrics.foldl (fun rows m => upsert (sameMetric m) m rows) st.eventMetrics }

def saveEvent (stamps : ℕ → Uuid × DateTime) (st : InMemoryStorage) (event : ChainEvent) : InMemoryStorage :=
  let saved := { st with toEventStore := st.toEventStore.saveEvent event }
  match EventStore.mergeInto event st.events with
  | some _ => saved
  | none => saved.saveEventMetrics (extractEventMetrics stamps event none)

/-- the scan of `save_event_observation`: the id, the replay pair, or the live tuple -/
def sameObservation (observation o : EventObservation) : Bool :=
  o.id == observation.id ||
    (observation.mode == .historicalReplay && o.eventId == observation.eventId &&
      o.replayJobId == observation.replayJobId && observation.replayJobId.isSome) ||
    (observation.mode == .live && o.eventId == observation.eventId && o.mode == .live &&
      o.source.provider == observation.source.provider && o.source.transport == observation.source.transport &&
      o.kind == observation.kind && o.blockHash == observation.blockHash &&
      o.sourceSequence == observation.sourceSequence && o.mempoolSequence == observation.mempoolSequence &&
      o.confirmationStatus == observation.confirmationStatus)

def saveEventObservation (st : InMemoryStorage) (observation : EventObservation) : InMemoryStorage :=
  { st with eventObservations := upsert (sameObservation observation) observation st.eventObservations }

/-- the rows of the first event, then of the others -/
def materialize (stamps : ℕ → ℕ → Uuid × DateTime) : ℕ → InMemoryStorage → List ChainEvent → InMemoryStorage
  | _, st, [] => st
  | i, st, event :: events =>
    materialize stamps (i + 1) (st.saveEventMetrics (extractEventMetrics (stamps i) event none)) events

/-- the store the query counts in: its own, or the one after the fallback extraction -/
def withFallback (stamps : ℕ → ℕ → Uuid × DateTime) (st : InMemoryStorage) (q : RankQuery) : InMemoryStorage :=
  if (st.eventMetrics.filter fun m => q.selects m.toMetricContent).isEmpty then
    materialize stamps 0 st (st.queryEventsForBaseline (some q.eventType) q.startHeight q.endHeight)
  else st

/-- the values the query counts -/
def rankPopulation (stamps : ℕ → ℕ → Uuid × DateTime) (st : InMemoryStorage) (q : RankQuery) : List MetricValue :=
  ((st.withFallback stamps q).eventMetrics.filter fun m => q.selects m.toMetricContent).map (·.value)

def getExactEmpiricalRank (stamps : ℕ → ℕ → Uuid × DateTime) (st : InMemoryStorage) (q : RankQuery)
    (queryValue : MetricValue) (direction : RarityDirection) : InMemoryStorage × Option (ℚ × ℕ × ℕ) :=
  (st.withFallback stamps q, rankOf direction queryValue (st.rankPopulation stamps q))

/-! ## What a save does to the tables -/

/-- the metric rows of a save do not touch the events and the observations -/
theorem toEventStore_saveEvent (st : InMemoryStorage) (stamps : ℕ → Uuid × DateTime) (event : ChainEvent) :
    (st.saveEvent stamps event).toEventStore = st.toEventStore.saveEvent event := by
  unfold saveEvent
  cases EventStore.mergeInto event st.events <;> rfl

/-- the values under which a metric row is unique -/
def rowKey (m : MetricContent) : Uuid × BaselineMetric × String := (m.eventId, m.metric, m.metricDefinitionVersion)

theorem sameMetric_iff (m existing : EventMetricValue) :
    sameMetric m existing = true ↔ rowKey existing.toMetricContent = rowKey m.toMetricContent := by
  simp [sameMetric, rowKey, and_assoc]

/-- new rows of distinct keys are appended -/
theorem foldl_upsert_of_new {rows new : List EventMetricValue}
    (hnodup : (new.map fun m => rowKey m.toMetricContent).Nodup)
    (hnew : ∀ m ∈ new, ∀ r ∈ rows, rowKey r.toMetricContent ≠ rowKey m.toMetricContent) :
    new.foldl (fun rows m => upsert (sameMetric m) m rows) rows = rows ++ new := by
  induction new generalizing rows with
  | nil => simp
  | cons m new ih =>
    rw [List.map_cons, List.nodup_cons] at hnodup
    obtain ⟨hm, hrest⟩ := hnodup
    have happend : upsert (sameMetric m) m rows = rows ++ [m] := by
      apply upsert_of_none
      intro r hr
      rw [Bool.eq_false_iff, ne_eq, sameMetric_iff]
      exact hnew m List.mem_cons_self r hr
    rw [List.foldl_cons, happend, ih hrest]
    · simp
    · intro m' hm' r hr
      rcases List.mem_append.1 hr with hold | hlast
      · exact hnew m' (List.mem_cons_of_mem m hm') r hold
      · rw [List.mem_singleton.1 hlast]
        intro heq
        exact hm (heq ▸ List.mem_map_of_mem hm')

end InMemoryStorage

end ObsChain
