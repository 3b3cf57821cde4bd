/-
How a baseline comes to be (`create_baseline_handler` of `api.rs`, `create_run_record` of `baseline.rs`, the runs and
distributions of `BaselineRepository`).

A request stores a run as running, reads the events of the range, stores their distributions and only then marks the run
completed. Any number of requests are under way at once, each storage operation may be refused, or done and its answer lost,
and the process may stop between any two. `Published`: what a completed run says is true of one state of the event store,
and its distributions are all there.

Model: one step is one storage operation of one request. A request is known by the id it draws for its run, which is new
(`Legal`). The events are those of the live pipeline and change at any time. `past`, `requests` and `created` are ghosts: the
event stores there have been, the requests that were admitted, and the runs that requests have answered with.

- `published_complete` (**main result**): in every state reached, every completed run is published, and every run that a
  request was answered with is stored as it was answered.
- `published_final` (**main result**): a completed run and its distributions never change again.
- `latest_run_published` (**main result**): the run that a rarity query evaluates against is published, in memory and in
  Postgres, where both choose runs of one end height and one completion time.

Not modelled: the other fields of a run (its start and creation times, the halving epochs of its metadata), which only lists
and reports read. The status of one run is updated by id, and ids are unique in both storages.
-/
import Mathlib.Tactic
import ObsChain.Core.Sql
import ObsChain.Core.Table
import ObsChain.Core.Trace
import ObsChain.Core.Upsert
import ObsChain.Pipeline.EventStore
import ObsChain.Statistics.Evaluation

namespace ObsChain

inductive BaselineRunStatus where
  | pending
  | running
  | completed
  | failed
deriving DecidableEq, Repr

/-- a run as it is stored -/
structure BaselineRunRecord extends BaselineRun where
  network : String
  startHeight : ℕ
  completedAt : Option DateTime
  status : BaselineRunStatus
  canonicalEventCount : ℕ
  errorMessage : Option String
deriving DecidableEq, Repr

structure CreateBaselineRequest where
  startHeight : ℕ
  endHeight : ℕ
  network : Option String
  eventTypes : Option (List EventType)
  algorithmVersion : Option String
deriving DecidableEq, Repr

namespace BaselineRuns

/-! ## The storage -/

structure Store where
  runs : List BaselineRunRecord
  distributions : List (Uuid × BaselineDistribution)

namespace Store

def createBaselineRun (st : Store) (run : BaselineRunRecord) : Store :=
  { st with runs := upsert (fun r => decide (r.id = run.id)) run st.runs }

/-- `none` when there is no such run -/
def updateBaselineRunStatus (st : Store) (id : Uuid) (status : BaselineRunStatus) (completedAt : Option DateTime)
    (canonicalEventCount : ℕ) (errorMessage : Option String) : Option Store :=
  if st.runs.any fun r => decide (r.id = id) then
    some { st with
      runs := st.runs.map fun r =>
        if r.id = id then
          { r with
            status := status
            completedAt := completedAt
            canonicalEventCount := canonicalEventCount
            errorMessage := errorMessage }
        else r }
  else none

/-- `ON CONFLICT (baseline_run_id, event_type, metric) DO UPDATE`, which leaves the unit; the in-memory store replaces the
whole record, whose unit is that of the metric -/
def updateDistribution (old new : Uuid × BaselineDistribution) : Uuid × BaselineDistribution :=
  (old.1, { new.2 with eventType := old.2.eventType, metric := old.2.metric, unit := old.2.unit })

def distributionKey (row : Uuid × BaselineDistribution) : Uuid × EventType × BaselineMetric :=
  (row.1, row.2.eventType, row.2.metric)

/-- one distribution for each run, event type and metric -/
def saveBaselineDistributions (st : Store) (id : Uuid) (distributions : List BaselineDistribution) : Store :=
  { st with
    distributions :=
      Table.insertAll distributionKey updateDistribution (distributions.map fun d => (id, d)) st.distributions }

/-- a run that an event of the height may be rated against -/
def compatible (network : String) (height : Option ℕ) (version : Option String) (r : BaselineRunRecord) : Bool :=
  r.network == network && r.status == .completed && (height.all fun h => decide (r.startHeight ≤ h)) &&
    version.all fun v => r.algorithmVersion == v

/-- the order of options, where `none` is the least -/
def optionLe : Option ℤ → Option ℤ → Bool
  | none, _ => true
  | some _, none => false
  | some a, some b => decide (a ≤ b)

/-- `b.end_height.cmp(&a.end_height).then_with(|| b.completed_at.cmp(&a.completed_at))` -/
def newerFirst (a b : BaselineRunRecord) : Bool :=
  decide (b.endHeight < a.endHeight) || (decide (b.endHeight = a.endHeight) && optionLe b.completedAt a.completedAt)

/-- the in-memory choice -/
def getLatestCompatibleBaselineRun (st : Store) (network : String) (height : Option ℕ) (version : Option String) :
    Option BaselineRunRecord :=
  ((st.runs.filter (compatible network height version)).mergeSort newerFirst).head?

/-- `completed_at DESC`, where a `NULL` comes first -/
def descNullsFirst : Option ℤ → Option ℤ → Prop
  | none, _ => True
  | some _, none => False
  | some a, some b => b ≤ a

/-- `ORDER BY end_height DESC, completed_at DESC LIMIT 1`: any compatible row that none is before -/
def LatestCompatibleRow (st : Store) (network : String) (height : Option ℕ) (version : Option String)
    (answer : Option BaselineRunRecord) : Prop :=
  match answer with
  | none => ∀ r ∈ st.runs, compatible network height version r = false
  | some r =>
    r ∈ st.runs ∧ compatible network height version r = true ∧
      ∀ r' ∈ st.runs, compatible network height version r' = true →
        r'.endHeight < r.endHeight ∨
          (r'.endHeight = r.endHeight ∧
            descNullsFirst (r.completedAt.map Sql.toMicros) (r'.completedAt.map Sql.toMicros))

def getBaselineDistributions (st : Store) (id : Uuid) : List BaselineDistribution :=
  (st.distributions.filter fun row => decide (row.1 = id)).map (·.2)

theorem mem_getBaselineDistributions (st : Store) (id : Uuid) (d : BaselineDistribution) :
    d ∈ st.getBaselineDistributions id ↔ (id, d) ∈ st.distributions := by
  simp [getBaselineDistributions]

end Store

/-! ## The requests -/

structure Config where
  baselineApiEnabled : Bool
  baselineDefaultAlgorithmVersion : String

/-- a request that is under way, by the storage operation it does next -/
inductive Call where
  | query (run : BaselineRunRecord) (payload : CreateBaselineRequest)
  | save (run : BaselineRunRecord) (payload : CreateBaselineRequest) (events : List ChainEvent)
  | complete (run : BaselineRunRecord) (payload : CreateBaselineRequest) (events : List ChainEvent)
  | fail (run : BaselineRunRecord) (canonicalCount : ℕ) (error : String)

def Call.run : Call → BaselineRunRecord
  | .query run _ | .save run _ _ | .complete run _ _ | .fail run _ _ => run

/-- what a storage operation does: it is done, or refused, or done and its answer lost -/
inductive Outcome where
  | ok
  | refused (error : String)
  | lost (error : String)
deriving DecidableEq, Repr

structure St where
  events : EventStore
  store : Store
  calls : List Call
  past : List EventStore
  requests : List (Uuid × CreateBaselineRequest)
  created : List BaselineRunRecord

inductive Label where
  | request (payload : CreateBaselineRequest) (id : Uuid) (outcome : Outcome)
  | advance (id : Uuid) (now : DateTime) (outcome : Outcome)
  /-- the client of the request is gone -/
  | drop (id : Uuid)
  | events (events : EventStore)
  | crash

def createRunRecord (id : Uuid) (network : String) (startHeight endHeight : ℕ) (algorithmVersion : String) :
    BaselineRunRecord where
  id := id
  endHeight := endHeight
  algorithmVersion := algorithmVersion
  network := network
  startHeight := startHeight
  completedAt := none
  status := .running
  canonicalEventCount := 0
  errorMessage := none

namespace St

/-- the request of the run goes on as `next`, or is over -/
def goesOn (s : St) (id : Uuid) (next : Option Call) : St :=
  { s with calls := (s.calls.filter fun c => decide (c.run.id ≠ id)) ++ next.toList }

/-- validation, and the run is stored -/
def request (cfg : Config) (s : St) (payload : CreateBaselineRequest) (id : Uuid) (outcome : Outcome) : St :=
  if !cfg.baselineApiEnabled then s
  else if payload.startHeight > payload.endHeight then s
  else
    let network := payload.network.getD "mainnet"
    let algorithmVersion := payload.algorithmVersion.getD cfg.baselineDefaultAlgorithmVersion
    let run := createRunRecord id network payload.startHeight payload.endHeight algorithmVersion
    let stored :=
      { s with store := s.store.createBaselineRun run, requests := s.requests ++ [(id, payload)] }
    match outcome with
    | .ok => stored.goesOn id (some (.query run payload))
    | .lost _ => stored.goesOn id none
    | .refused _ => s

/-- one storage operation of a request -/
def proceed (s : St) (call : Call) (now : DateTime) (outcome : Outcome) : St :=
  match call with
  | .query run payload =>
    match outcome with
    | .ok => s.goesOn run.id (some (.save run payload (s.events.queryEventsForBaseline none run.startHeight run.endHeight)))
    | .refused e | .lost e => s.goesOn run.id (some (.fail run 0 e))
  | .save run payload events =>
    let saved := { s with
      store := s.store.saveBaselineDistributions run.id
        (BaselineEngine.generateDistributions events payload.eventTypes) }
    match outcome with
    | .ok => saved.goesOn run.id (some (.complete run payload events))
    | .refused e => s.goesOn run.id (some (.fail run events.length e))
    | .lost e => saved.goesOn run.id (some (.fail run events.length e))
  | .complete run _ events =>
    let completed :=
      { run with status := .completed, completedAt := some now, canonicalEventCount := events.length }
    match outcome, s.store.updateBaselineRunStatus run.id .completed (some now) events.length none with
    | .ok, some store => { s.goesOn run.id none with store := store, created := s.created ++ [completed] }
    | .lost _, some store => { s.goesOn run.id none with store := store }
    | _, _ => s.goesOn run.id none
  | .fail run canonicalCount e =>
    -- the answer of this update is ignored
    match outcome, s.store.updateBaselineRunStatus run.id .failed (some now) canonicalCount (some e) with
    | .ok, some store | .lost _, some store => { s.goesOn run.id none with store := store }
    | _, _ => s.goesOn run.id none

end St

def step (cfg : Config) (s : St) : Label → St
  | .request payload id outcome => s.request cfg payload id outcome
  | .advance id now outcome =>
    match s.calls.find? fun c => decide (c.run.id = id) with
    | some call => s.proceed call now outcome
    | none => s
  | .drop id => s.goesOn id none
  | .events events => { s with events := events, past := s.past ++ [events] }
  | .crash => { s with calls := [] }

def start (events : EventStore) : St := ⟨events, ⟨[], []⟩, [], [events], [], []⟩

/-- a request draws a new id -/
def Legal (s : St) : Label → Prop
  | .request _ id _ => ∀ r ∈ s.store.runs, r.id ≠ id
  | _ => True

instance (s : St) (l : Label) : Decidable (Legal s l) := by
  cases l
  · exact inferInstanceAs (Decidable (∀ r ∈ s.store.runs, r.id ≠ _))
  · exact inferInstanceAs (Decidable True)
  · exact inferInstanceAs (Decidable True)
  · exact inferInstanceAs (Decidable True)
  · exact inferInstanceAs (Decidable True)

/-! ## What a completed run says -/

/-- the run is of the request -/
structure Requested (s : St) (run : BaselineRunRecord) (payload : CreateBaselineRequest) : Prop where
  admitted : (run.id, payload) ∈ s.requests
  network : run.network = payload.network.getD "mainnet"
  startHeight : run.startHeight = payload.startHeight
  endHeight : run.endHeight = payload.endHeight

/-- the distributions of the run are those of the events -/
def Measured (s : St) (run : BaselineRunRecord) (payload : CreateBaselineRequest) (events : List ChainEvent) : Prop :=
  ∀ d, (run.id, d) ∈ s.store.distributions ↔ d ∈ BaselineEngine.generateDistributions events payload.eventTypes

/-- the events are those of the run's range in one state of the event store -/
def Snapshot (s : St) (run : BaselineRunRecord) (events : List ChainEvent) : Prop :=
  ∃ snapshot ∈ s.past, events = snapshot.queryEventsForBaseline none run.startHeight run.endHeight

/-- **A published run**: it was requested, counts the events of its range in one state of the event store, and has the
distributions that the request asked for of just these events. -/
structure Published (s : St) (run : BaselineRunRecord) : Prop where
  timed : run.completedAt.isSome
  noError : run.errorMessage = none
  complete : ∃ payload events, Requested s run payload ∧ Snapshot s run events ∧
    run.canonicalEventCount = events.length ∧ Measured s run payload events

/-- what is returned as the distributions of a published run -/
theorem Published.distributions {s : St} {run : BaselineRunRecord} (h : Published s run) :
    ∃ payload events, Requested s run payload ∧ Snapshot s run events ∧
      ∀ d, d ∈ s.store.getBaselineDistributions run.id ↔
        d ∈ BaselineEngine.generateDistributions events payload.eventTypes := by
  obtain ⟨payload, events, hrequested, hsnapshot, -, hmeasured⟩ := h.complete
  refine ⟨payload, events, hrequested, hsnapshot, fun d => ?_⟩
  rw [Store.mem_getBaselineDistributions]
  exact hmeasured d

/-! ## The invariant -/

/-- a request under way: its run is stored as running, and its distributions are there once they are saved -/
def Holds (s : St) (call : Call) : Prop :=
  call.run ∈ s.store.runs ∧ call.run.status = .running ∧ call.run.errorMessage = none ∧
    match call with
    | .query run payload => Requested s run payload ∧ ∀ d, (run.id, d) ∉ s.store.distributions
    | .save run payload events =>
      Requested s run payload ∧ Snapshot s run events ∧ ∀ d, (run.id, d) ∉ s.store.distributions
    | .complete run payload events => Requested s run payload ∧ Snapshot s run events ∧ Measured s run payload events
    | .fail _ _ _ => True

structure Inv (s : St) : Prop where
  ids : (s.store.runs.map (·.id)).Nodup
  current : s.events ∈ s.past
  calls : ∀ c ∈ s.calls, Holds s c
  apart : (s.calls.map fun c => c.run.id).Nodup
  completed : ∀ r ∈ s.store.runs, r.status = .completed → Published s r
  keys : (s.store.distributions.map Store.distributionKey).Nodup
  owned : ∀ d ∈ s.store.distributions, ∃ r ∈ s.store.runs, r.id = d.1
  created : ∀ r ∈ s.created, r ∈ s.store.runs ∧ r.status = .completed

/-- what a step leaves of the runs that it does not touch -/
structure Frame (touched : Uuid → Prop) (s s' : St) : Prop where
  past : ∀ e ∈ s.past, e ∈ s'.past
  requests : ∀ q ∈ s.requests, q ∈ s'.requests
  runs : ∀ r : BaselineRunRecord, ¬touched r.id → (r ∈ s'.store.runs ↔ r ∈ s.store.runs)
  distributions : ∀ i d, ¬touched i → ((i, d) ∈ s'.store.distributions ↔ (i, d) ∈ s.store.distributions)

namespace Frame

variable {touched : Uuid → Prop} {s s' : St}

theorem requested (hf : Frame touched s s') {run : BaselineRunRecord} {payload : CreateBaselineRequest}
    (h : Requested s run payload) : Requested s' run payload :=
  ⟨hf.requests _ h.admitted, h.network, h.startHeight, h.endHeight⟩

theorem snapshot (hf : Frame touched s s') {run : BaselineRunRecord} {events : List ChainEvent} (h : Snapshot s run events) :
    Snapshot s' run events := by
  obtain ⟨snapshot, hmem, heq⟩ := h
  exact ⟨snapshot, hf.past _ hmem, heq⟩

theorem measured (hf : Frame touched s s') {run : BaselineRunRecord} (hne : ¬touched run.id) {payload : CreateBaselineRequest}
    {events : List ChainEvent} (h : Measured s run payload events) : Measured s' run payload events :=
  fun d => (hf.distributions run.id d hne).trans (h d)

theorem published (hf : Frame touched s s') {run : BaselineRunRecord} (hne : ¬touched run.id) (h : Published s run) :
    Published s' run := by
  obtain ⟨payload, events, hreq, hsnap, hcount, hmeasured⟩ := h.complete
  exact ⟨h.timed, h.noError, payload, events, hf.requested hreq, hf.snapshot hsnap, hcount, hf.measured hne hmeasured⟩

theorem holds (hf : Frame touched s s') {call : Call} (hne : ¬touched call.run.id) (h : Holds s call) : Holds s' call := by
  obtain ⟨hmem, hstatus, herror, hcall⟩ := h
  refine ⟨(hf.runs _ hne).2 hmem, hstatus, herror, ?_⟩
  cases call with
  | query run payload =>
    obtain ⟨hreq, hnone⟩ := hcall
    exact ⟨hf.requested hreq, fun d hd => hnone d ((hf.distributions run.id d hne).1 hd)⟩
  | save run payload events =>
    obtain ⟨hreq, hsnap, hnone⟩ := hcall
    exact ⟨hf.requested hreq, hf.snapshot hsnap, fun d hd => hnone d ((hf.distributions run.id d hne).1 hd)⟩
  | complete run payload events =>
    obtain ⟨hreq, hsnap, hmeasured⟩ := hcall
    exact ⟨hf.requested hreq, hf.snapshot hsnap, hf.measured hne hmeasured⟩
  | fail run canonicalCount e => trivial

end Frame

/-! ## The storage operations -/

namespace Store

variable {st : Store}

theorem createBaselineRun_runs {run : BaselineRunRecord} (hnew : ∀ r ∈ st.runs, r.id ≠ run.id) :
    (st.createBaselineRun run).runs = st.runs ++ [run] :=
  upsert_of_none fun r hr => decide_eq_false (hnew r hr)

/-- the record that an update leaves -/
theorem updateBaselineRunStatus_eq_some {id : Uuid} {status : BaselineRunStatus} {completedAt : Option DateTime}
    {canonicalEventCount : ℕ} {errorMessage : Option String} {st' : Store}
    (h : st.updateBaselineRunStatus id status completedAt canonicalEventCount errorMessage = some st')
    (hids : (st.runs.map (·.id)).Nodup) {run : BaselineRunRecord} (hrun : run ∈ st.runs) (hid : run.id = id) :
    st'.distributions = st.distributions ∧ st'.runs.map (·.id) = st.runs.map (·.id) ∧
      ∀ r, r ∈ st'.runs ↔
        (r = { run with
            status := status
            completedAt := completedAt
            canonicalEventCount := canonicalEventCount
            errorMessage := errorMessage }) ∨ (r ∈ st.runs ∧ r.id ≠ id) := by
  unfold updateBaselineRunStatus at h
  split_ifs at h
  cases h
  refine ⟨rfl, ?_, fun r => ?_⟩
  · rw [List.map_map]
    refine List.map_congr_left fun r _ => ?_
    simp only [Function.comp_apply]
    split_ifs <;> rfl
  · rw [List.mem_map]
    constructor
    · rintro ⟨r', hr', rfl⟩
      split_ifs with heq
      · obtain rfl : r' = run := List.inj_on_of_nodup_map hids hr' hrun (heq.trans hid.symm)
        exact Or.inl rfl
      · exact Or.inr ⟨hr', heq⟩
    · rintro (rfl | ⟨hr, hne⟩)
      · exact ⟨run, hrun, if_pos hid⟩
      · exact ⟨r, hr, if_neg hne⟩

/-- where a distribution comes from -/
theorem generated_spec {events : List ChainEvent} {types : Option (List EventType)} {d : BaselineDistribution}
    (hd : d ∈ BaselineEngine.generateDistributions events types) :
    ∃ m ∈ MetricRegistry.metricsForEventType d.eventType, m.metric = d.metric ∧
      (BaselineCalculator.computeDistribution (BaselineEngine.samples events d.eventType d.metric)
        (events.filter fun e => e.eventType = d.eventType).length).map (fun q =>
          ({ q with eventType := d.eventType, metric := d.metric, unit := m.unit } : BaselineDistribution)) = some d := by
  obtain ⟨t, -, ht⟩ := List.mem_flatMap.1 hd
  obtain ⟨m, hm, heq⟩ := List.mem_filterMap.1 ht
  have hq := heq
  rw [Option.map_eq_some_iff] at hq
  obtain ⟨q, -, rfl⟩ := hq
  exact ⟨m, hm, rfl, heq⟩

/-- there is one for a type and a metric -/
theorem generated_eq {events : List ChainEvent} {types : Option (List EventType)} {d d' : BaselineDistribution}
    (hd : d ∈ BaselineEngine.generateDistributions events types)
    (hd' : d' ∈ BaselineEngine.generateDistributions events types) (htype : d.eventType = d'.eventType)
    (hmetric : d.metric = d'.metric) : d = d' := by
  obtain ⟨m, hm, hmd, heq⟩ := generated_spec hd
  obtain ⟨m', hm', hmd', heq'⟩ := generated_spec hd'
  rw [← htype] at hm' heq'
  rw [← hmetric] at hmd' heq'
  have hsame : m = m' := List.inj_on_of_nodup_map (MetricRegistry.nodup_metrics d.eventType) hm hm' (hmd.trans hmd'.symm)
  rw [← hsame, heq] at heq'
  exact Option.some.inj heq'

theorem distributionKey_update (old new : Uuid × BaselineDistribution) :
    distributionKey (updateDistribution old new) = distributionKey old := rfl

theorem nodup_saveBaselineDistributions (h : (st.distributions.map distributionKey).Nodup) (id : Uuid)
    (distributions : List BaselineDistribution) :
    ((st.saveBaselineDistributions id distributions).distributions.map distributionKey).Nodup :=
  Table.nodup_insertAll distributionKey_update h _

/-- the distributions of a run that had none are those that are saved, and other runs keep theirs -/
theorem mem_saveBaselineDistributions (h : (st.distributions.map distributionKey).Nodup) {id : Uuid}
    (hnone : ∀ d, (id, d) ∉ st.distributions) (events : List ChainEvent) (types : Option (List EventType)) (i : Uuid)
    (d : BaselineDistribution) :
    (i, d) ∈ (st.saveBaselineDistributions id (BaselineEngine.generateDistributions events types)).distributions ↔
      (i = id ∧ d ∈ BaselineEngine.generateDistributions events types) ∨ (i, d) ∈ st.distributions := by
  have hself : ∀ new, updateDistribution new new = new := fun _ => rfl
  have hagain : ∀ old new, updateDistribution (updateDistribution old new) new = updateDistribution old new :=
    fun _ _ => rfl
  have hown : ∀ m ∈ (BaselineEngine.generateDistributions events types).map fun d => (id, d),
      ∀ n ∈ (BaselineEngine.generateDistributions events types).map fun d => (id, d),
        distributionKey m = distributionKey n → m = n := by
    simp only [List.mem_map]
    rintro m ⟨a, ha, rfl⟩ n ⟨b, hb, rfl⟩ hkey
    simp only [distributionKey, Prod.mk.injEq, true_and] at hkey
    rw [generated_eq ha hb hkey.1 hkey.2]
  -- nothing of the run is there to be merged with
  have hmerged : ∀ a, Table.merged distributionKey updateDistribution (id, a) st.distributions = (id, a) := by
    intro a
    unfold Table.merged
    cases hl : Table.lookup distributionKey (distributionKey (id, a)) st.distributions with
    | none => rfl
    | some old =>
      obtain ⟨hold, hkey⟩ := (Table.lookup_eq_some h).1 hl
      have hid : old.1 = id := congrArg Prod.fst hkey
      exact absurd (hid ▸ hold) (hnone old.2)
  unfold saveBaselineDistributions
  dsimp only
  rw [Table.mem_insertAll_iff distributionKey_update hself hagain h hown]
  simp only [List.mem_map, exists_exists_and_eq_and, hmerged, Prod.mk.injEq]
  constructor
  · rintro (⟨a, ha, rfl, rfl⟩ | ⟨hrow, -⟩)
    · exact Or.inl ⟨rfl, ha⟩
    · exact Or.inr hrow
  · rintro (⟨rfl, ha⟩ | hrow)
    · exact Or.inl ⟨d, ha, rfl, rfl⟩
    · refine Or.inr ⟨hrow, ?_⟩
      rintro n ⟨a, -, rfl⟩ hkey
      have hid : i = id := congrArg Prod.fst hkey
      exact hnone d (hid ▸ hrow)

end Store

/-! ## One step -/

theorem mem_goesOn {s : St} {id : Uuid} {next : Option Call} {c : Call} :
    c ∈ (s.goesOn id next).calls ↔ (c ∈ s.calls ∧ c.run.id ≠ id) ∨ next = some c := by
  simp [St.goesOn]

theorem apart_goesOn {s : St} (h : (s.calls.map fun c => c.run.id).Nodup) {id : Uuid} {next : Option Call}
    (hnext : ∀ c, next = some c → c.run.id = id) : ((s.goesOn id next).calls.map fun c => c.run.id).Nodup := by
  have hrest : ((s.calls.filter fun c => decide (c.run.id ≠ id)).map fun c => c.run.id).Nodup :=
    (List.filter_sublist.map _).nodup h
  unfold St.goesOn
  cases next with
  | none => simpa using hrest
  | some c =>
    rw [Option.toList_some, nodup_map_concat]
    refine ⟨fun c' hc' => ?_, hrest⟩
    rw [hnext c rfl]
    exact of_decide_eq_true (List.mem_filter.1 hc').2

theorem Frame.of_store_eq {touched : Uuid → Prop} {s s' : St} (hstore : s'.store = s.store)
    (hpast : ∀ e ∈ s.past, e ∈ s'.past)
    (hrequests : ∀ q ∈ s.requests, q ∈ s'.requests) : Frame touched s s' :=
  ⟨hpast, hrequests, fun _ _ => by rw [hstore], fun _ _ _ => by rw [hstore]⟩

/-- a step that leaves the storage alone, and no requests but those that were under way -/
theorem Inv.quiet {s s' : St} (h : Inv s) (hstore : s'.store = s.store) (hpast : ∀ e ∈ s.past, e ∈ s'.past)
    (hrequests : s'.requests = s.requests) (hcreated : s'.created = s.created) (hcurrent : s'.events ∈ s'.past)
    (hcalls : s'.calls.Sublist s.calls) : Inv s' := by
  have hf : Frame (fun _ => False) s s' := Frame.of_store_eq hstore hpast fun q hq => by rwa [hrequests]
  refine ⟨?_, hcurrent, ?_, (hcalls.map _).nodup h.apart, ?_, ?_, ?_, ?_⟩
  · exact hstore ▸ h.ids
  · exact fun c hc => hf.holds not_false (h.calls c (hcalls.subset hc))
  · exact fun r hr hstatus => hf.published not_false (h.completed r (hstore ▸ hr) hstatus)
  · exact hstore ▸ h.keys
  · exact hstore ▸ h.owned
  · rw [hstore, hcreated]
    exact h.created

/-- **A step on one run** keeps the invariant where it holds of that run. -/
theorem Inv.onRun {id : Uuid} {s s' : St} {next : Option Call} (h : Inv s) (hf : Frame (· = id) s s')
    (hevents : s'.events = s.events) (hids : (s'.store.runs.map (·.id)).Nodup)
    (hkeys : (s'.store.distributions.map Store.distributionKey).Nodup) (hcalls : s'.calls = (s.goesOn id next).calls)
    (hnext : ∀ c, next = some c → c.run.id = id ∧ Holds s' c)
    (hpublished : ∀ r ∈ s'.store.runs, r.id = id → r.status = .completed → Published s' r)
    (howned : ∀ d ∈ s'.store.distributions, d.1 = id → ∃ r ∈ s'.store.runs, r.id = id)
    (hcreated : ∀ r ∈ s'.created, (r ∈ s.created ∧ r.id ≠ id) ∨ (r ∈ s'.store.runs ∧ r.status = .completed)) : Inv s' where
  ids := hids
  current := by
    rw [hevents]
    exact hf.past _ h.current
  calls := by
    intro c hc
    rw [hcalls, mem_goesOn] at hc
    rcases hc with ⟨hc, hne⟩ | hc
    · exact hf.holds hne (h.calls c hc)
    · exact (hnext c hc).2
  apart := by
    rw [hcalls]
    exact apart_goesOn h.apart fun c hc => (hnext c hc).1
  completed := by
    intro r hr hstatus
    by_cases hid : r.id = id
    · exact hpublished r hr hid hstatus
    · exact hf.published hid (h.completed r ((hf.runs r hid).1 hr) hstatus)
  keys := hkeys
  owned := by
    intro d hd
    by_cases hid : d.1 = id
    · obtain ⟨r, hr, hrid⟩ := howned d hd hid
      exact ⟨r, hr, hrid.trans hid.symm⟩
    · obtain ⟨r, hr, hrid⟩ := h.owned d ((hf.distributions d.1 d.2 hid).1 hd)
      exact ⟨r, (hf.runs r (hrid ▸ hid)).2 hr, hrid⟩
  created := by
    intro r hr
    rcases hcreated r hr with ⟨hold, hne⟩ | hnew
    · obtain ⟨hmem, hstatus⟩ := h.created r hold
      exact ⟨(hf.runs r hne).2 hmem, hstatus⟩
    · exact hnew

section Calls

variable {s : St} (h : Inv s)

include h

/-- the run of a request under way is the one with its id, and is not completed -/
theorem Inv.run_unique {call : Call} (hcall : Holds s call) {r : BaselineRunRecord} (hr : r ∈ s.store.runs)
    (hid : r.id = call.run.id) : r = call.run :=
  List.inj_on_of_nodup_map h.ids hr hcall.1 hid

theorem Inv.not_completed {call : Call} (hcall : Holds s call) {r : BaselineRunRecord} (hr : r ∈ s.store.runs)
    (hid : r.id = call.run.id) : r.status ≠ .completed := by
  rw [h.run_unique hcall hr hid, hcall.2.1]
  decide

/-- a run that was answered is of no request under way -/
theorem Inv.created_ne {call : Call} (hcall : Holds s call) {r : BaselineRunRecord} (hr : r ∈ s.created) :
    r.id ≠ call.run.id := by
  intro hid
  obtain ⟨hmem, hstatus⟩ := h.created r hr
  exact h.not_completed hcall hmem hid hstatus

/-- the request goes on, and the storage is as it was -/
theorem Inv.goesOn {call : Call} (hcall : Holds s call) {next : Option Call}
    (hnext : ∀ c, next = some c → c.run.id = call.run.id ∧ Holds (s.goesOn call.run.id next) c) :
    Inv (s.goesOn call.run.id next) := by
  refine h.onRun (Frame.of_store_eq rfl (fun _ he => he) fun _ hq => hq) rfl h.ids h.keys rfl hnext ?_ ?_ ?_
  · exact fun r hr hid hstatus => absurd hstatus (h.not_completed hcall hr hid)
  · exact fun _ _ _ => ⟨call.run, hcall.1, rfl⟩
  · exact fun r hr => Or.inl ⟨hr, h.created_ne hcall hr⟩

/-- a new status is of one run -/
theorem Inv.frame_updated {call : Call} (hcall : Holds s call) {status : BaselineRunStatus} {now : DateTime} {count : ℕ}
    {error : Option String} {store : Store}
    (hstore : s.store.updateBaselineRunStatus call.run.id status (some now) count error = some store) {s' : St}
    (hs' : s'.store = store) (hpast : s'.past = s.past) (hrequests : s'.requests = s.requests) :
    Frame (· = call.run.id) s s' := by
  obtain ⟨hdists, -, hruns⟩ := Store.updateBaselineRunStatus_eq_some hstore h.ids hcall.1 rfl
  refine ⟨fun e he => by rwa [hpast], fun q hq => by rwa [hrequests], fun r hne => ?_, fun i d _ => ?_⟩
  · rw [hs', hruns]
    constructor
    · rintro (rfl | ⟨hr, -⟩)
      · exact absurd rfl hne
      · exact hr
    · exact fun hr => Or.inr ⟨hr, hne⟩
  · rw [hs', hdists]

/-- so are its distributions -/
theorem Inv.frame_saved {run : BaselineRunRecord} {payload : CreateBaselineRequest} {events : List ChainEvent}
    (hcall : Holds s (.save run payload events)) {s' : St}
    (hs' : s'.store = s.store.saveBaselineDistributions run.id
      (BaselineEngine.generateDistributions events payload.eventTypes)) (hpast : s'.past = s.past)
    (hrequests : s'.requests = s.requests) : Frame (· = run.id) s s' := by
  obtain ⟨-, -, -, -, -, hnone⟩ := hcall
  refine ⟨fun e he => by rwa [hpast], fun q hq => by rwa [hrequests], fun r _ => by rw [hs']; rfl, fun i d hne => ?_⟩
  rw [hs', Store.mem_saveBaselineDistributions h.keys hnone]
  exact or_iff_right fun hi => hne hi.1

/-- the request is over, and its run has a new status -/
theorem Inv.updated {call : Call} (hcall : Holds s call) {status : BaselineRunStatus} {now : DateTime} {count : ℕ}
    {error : Option String} {store : Store} {created : List BaselineRunRecord}
    (hstore : s.store.updateBaselineRunStatus call.run.id status (some now) count error = some store)
    (hpublished : status = .completed → Published { s.goesOn call.run.id none with store := store, created := created }
      { call.run with status := status, completedAt := some now, canonicalEventCount := count, errorMessage := error })
    (hcreated : ∀ r ∈ created, r ∈ s.created ∨ (r ∈ store.runs ∧ r.status = .completed)) :
    Inv { s.goesOn call.run.id none with store := store, created := created } := by
  obtain ⟨hdists, hids, hruns⟩ := Store.updateBaselineRunStatus_eq_some hstore h.ids hcall.1 rfl
  have hf : Frame (· = call.run.id) s { s.goesOn call.run.id none with store := store, created := created } :=
    h.frame_updated hcall hstore rfl rfl rfl
  have hcalls : s.calls.filter (fun c => decide (c.run.id ≠ call.run.id)) ++ [] = (s.goesOn call.run.id none).calls := rfl
  refine h.onRun hf rfl ?_ ?_ hcalls (fun _ hc => by cases hc) ?_ ?_ ?_
  · exact hids ▸ h.ids
  · exact hdists ▸ h.keys
  · intro r hr hid hstatus
    rcases (hruns r).1 hr with rfl | ⟨-, hne⟩
    · exact hpublished hstatus
    · exact absurd hid hne
  · exact fun _ _ _ => ⟨_, (hruns _).2 (Or.inl rfl), rfl⟩
  · intro r hr
    rcases hcreated r hr with hold | hnew
    · exact Or.inl ⟨hold, h.created_ne hcall hold⟩
    · exact Or.inr hnew

/-- the events are read, or cannot be -/
theorem Inv.proceed_query {run : BaselineRunRecord} {payload : CreateBaselineRequest} (hcall : Holds s (.query run payload))
    (now : DateTime) (outcome : Outcome) : Inv (s.proceed (.query run payload) now outcome) := by
  obtain ⟨hmem, hrunning, herror, hreq, hnone⟩ := id hcall
  cases outcome with
  | ok =>
    refine h.goesOn hcall fun c hc => ?_
    obtain rfl := Option.some.inj hc
    refine ⟨rfl, hmem, hrunning, herror, ⟨hreq.admitted, hreq.network, hreq.startHeight, hreq.endHeight⟩, ?_, hnone⟩
    exact ⟨s.events, h.current, rfl⟩
  | refused e | lost e =>
    refine h.goesOn hcall fun c hc => ?_
    obtain rfl := Option.some.inj hc
    exact ⟨rfl, hmem, hrunning, herror, trivial⟩

/-- the distributions are stored -/
theorem Inv.saved {run : BaselineRunRecord} {payload : CreateBaselineRequest} {events : List ChainEvent}
    (hcall : Holds s (.save run payload events)) {next : Call} (hrun : next.run = run)
    (hnext : next = .complete run payload events ∨ ∃ count e, next = .fail run count e) :
    Inv ({ s with
      store := s.store.saveBaselineDistributions run.id
        (BaselineEngine.generateDistributions events payload.eventTypes) }.goesOn run.id (some next)) := by
  obtain ⟨hmem, hrunning, herror, hreq, hsnap, hnone⟩ := id hcall
  have hdists := Store.mem_saveBaselineDistributions h.keys hnone events payload.eventTypes
  have hf : Frame (· = run.id) s ({ s with
      store := s.store.saveBaselineDistributions run.id
        (BaselineEngine.generateDistributions events payload.eventTypes) }.goesOn run.id (some next)) :=
    h.frame_saved hcall rfl rfl rfl
  refine h.onRun hf rfl h.ids (Store.nodup_saveBaselineDistributions h.keys _ _) rfl ?_ ?_ ?_ ?_
  · intro c hc
    obtain rfl := Option.some.inj hc
    refine ⟨congrArg (fun r : BaselineRunRecord => r.id) hrun, ?_⟩
    rcases hnext with rfl | ⟨count, e, rfl⟩
    · refine ⟨hmem, hrunning, herror, hf.requested hreq, hf.snapshot hsnap, fun d => (hdists run.id d).trans ?_⟩
      simp [hnone d]
    · exact ⟨hmem, hrunning, herror, trivial⟩
  · exact fun r hr hid hstatus => absurd hstatus (h.not_completed hcall hr hid)
  · exact fun _ _ _ => ⟨run, hmem, rfl⟩
  · exact fun r hr => Or.inl ⟨hr, h.created_ne hcall hr⟩

theorem Inv.proceed_save {run : BaselineRunRecord} {payload : CreateBaselineRequest} {events : List ChainEvent}
    (hcall : Holds s (.save run payload events)) (now : DateTime) (outcome : Outcome) :
    Inv (s.proceed (.save run payload events) now outcome) := by
  cases outcome with
  | ok => exact h.saved hcall rfl (Or.inl rfl)
  | lost e => exact h.saved hcall rfl (Or.inr ⟨_, _, rfl⟩)
  | refused e =>
    obtain ⟨hmem, hrunning, herror, -⟩ := id hcall
    refine h.goesOn hcall fun c hc => ?_
    obtain rfl := Option.some.inj hc
    exact ⟨rfl, hmem, hrunning, herror, trivial⟩

/-- the run is marked completed -/
theorem Inv.proceed_complete {run : BaselineRunRecord} {payload : CreateBaselineRequest} {events : List ChainEvent}
    (hcall : Holds s (.complete run payload events)) (now : DateTime) (outcome : Outcome) :
    Inv (s.proceed (.complete run payload events) now outcome) := by
  obtain ⟨hmem, hrunning, herror, hreq, hsnap, hmeasured⟩ := id hcall
  have hover : Inv (s.goesOn run.id none) := h.goesOn hcall fun c hc => by cases hc
  unfold St.proceed
  dsimp only
  cases hstore : s.store.updateBaselineRunStatus run.id .completed (some now) events.length none with
  | none => cases outcome <;> exact hover
  | some store =>
    obtain ⟨hdists, -, hruns⟩ := Store.updateBaselineRunStatus_eq_some hstore h.ids hmem rfl
    have hpublished : ∀ created, Published { s.goesOn run.id none with store := store, created := created }
        { run with
          status := .completed
          completedAt := some now
          canonicalEventCount := events.length
          errorMessage := none } := by
      intro created
      refine ⟨rfl, rfl, payload, events, ⟨hreq.admitted, hreq.network, hreq.startHeight, hreq.endHeight⟩, hsnap, rfl, ?_⟩
      intro d
      dsimp only
      rw [hdists]
      exact hmeasured d
    cases outcome with
    | refused e => exact hover
    | lost e => exact h.updated hcall hstore (fun _ => hpublished _) fun r hr => Or.inl hr
    | ok =>
      refine h.updated hcall hstore (fun _ => hpublished _) fun r hr => ?_
      rcases List.mem_append.1 hr with hold | hnew
      · exact Or.inl hold
      · rw [List.mem_singleton.1 hnew]
        refine Or.inr ⟨(hruns _).2 (Or.inl ?_), rfl⟩
        rw [← herror]
        rfl

theorem Inv.proceed_fail {run : BaselineRunRecord} {count : ℕ} {e : String} (hcall : Holds s (.fail run count e))
    (now : DateTime) (outcome : Outcome) : Inv (s.proceed (.fail run count e) now outcome) := by
  have hover : Inv (s.goesOn run.id none) := h.goesOn hcall fun c hc => by cases hc
  unfold St.proceed
  dsimp only
  cases hstore : s.store.updateBaselineRunStatus run.id .failed (some now) count (some e) with
  | none => cases outcome <;> exact hover
  | some store =>
    have hupdated : Inv { s.goesOn run.id none with store := store } :=
      h.updated hcall hstore (fun hstatus => by cases hstatus) fun r hr => Or.inl hr
    cases outcome with
    | ok | lost _ => exact hupdated
    | refused _ => exact hover

end Calls

/-- a new run touches no other -/
theorem frame_created {s s' : St} {run : BaselineRunRecord} (hnew : ∀ r ∈ s.store.runs, r.id ≠ run.id)
    {q : Uuid × CreateBaselineRequest} (hs' : s'.store = s.store.createBaselineRun run) (hpast : s'.past = s.past)
    (hrequests : s'.requests = s.requests ++ [q]) : Frame (· = run.id) s s' := by
  refine ⟨fun e he => by rwa [hpast], fun q hq => ?_, fun r hne => ?_, fun i d _ => by rw [hs']; rfl⟩
  · rw [hrequests]
    exact List.mem_append_left _ hq
  · rw [hs', Store.createBaselineRun_runs hnew, List.mem_append, List.mem_singleton]
    refine or_iff_left ?_
    rintro rfl
    exact hne rfl

theorem Inv.request {cfg : Config} {s : St} (h : Inv s) {payload : CreateBaselineRequest} {id : Uuid}
    (hnew : ∀ r ∈ s.store.runs, r.id ≠ id) (outcome : Outcome) : Inv (s.request cfg payload id outcome) := by
  unfold St.request
  split_ifs
  · exact h
  · exact h
  · dsimp only
    generalize hrun : createRunRecord id (payload.network.getD "mainnet") payload.startHeight payload.endHeight
      (payload.algorithmVersion.getD cfg.baselineDefaultAlgorithmVersion) = run
    have hid : run.id = id := by rw [← hrun]; rfl
    have hruns : (s.store.createBaselineRun run).runs = s.store.runs ++ [run] :=
      Store.createBaselineRun_runs fun r hr => hid ▸ hnew r hr
    have hstored : ∀ next : Option Call, (∀ c, next = some c → c = .query run payload) →
        Inv ({ s with
          store := s.store.createBaselineRun run, requests := s.requests ++ [(id, payload)] }.goesOn id next) := by
      intro next hnext
      refine @Inv.onRun id _ _ _ h ?_ rfl ?_ h.keys rfl ?_ ?_ ?_ ?_
      · exact hid ▸ frame_created (fun r hr => hid ▸ hnew r hr) rfl rfl rfl
      · change ((s.store.createBaselineRun run).runs.map (·.id)).Nodup
        rw [hruns, nodup_map_concat]
        exact ⟨fun r hr => hid ▸ hnew r hr, h.ids⟩
      · intro c hc
        obtain rfl := hnext c hc
        refine ⟨hid, ?_, ?_, ?_, ⟨?_, ?_, ?_, ?_⟩, ?_⟩
        · change run ∈ (s.store.createBaselineRun run).runs
          rw [hruns]
          exact List.mem_append_right _ (List.mem_singleton_self run)
        · change run.status = .running
          rw [← hrun]
          rfl
        · change run.errorMessage = none
          rw [← hrun]
          rfl
        · change (run.id, payload) ∈ s.requests ++ [(id, payload)]
          rw [hid]
          exact List.mem_append_right _ (List.mem_singleton_self _)
        · rw [← hrun]
          rfl
        · rw [← hrun]
          rfl
        · rw [← hrun]
          rfl
        · intro d hd
          obtain ⟨r, hr, hrid⟩ := h.owned _ hd
          exact hnew r hr (hrid.trans hid)
      · intro r hr hrid hstatus
        change r ∈ (s.store.createBaselineRun run).runs at hr
        rw [hruns, List.mem_append, List.mem_singleton] at hr
        rcases hr with hr | rfl
        · exact absurd hrid (hnew r hr)
        · rw [← hrun] at hstatus
          cases hstatus
      · intro d hd hdid
        obtain ⟨r, hr, hrid⟩ := h.owned d hd
        exact absurd (hrid.trans hdid) (hnew r hr)
      · intro r hr
        exact Or.inl ⟨hr, hnew r (h.created r hr).1⟩
    cases outcome with
    | ok => exact hstored _ fun c hc => (Option.some.inj hc).symm
    | lost e => exact hstored none fun c hc => by cases hc
    | refused e => exact h

/-- **Every step keeps the invariant.** -/
theorem inv_step {cfg : Config} {s : St} (h : Inv s) {l : Label} (hl : Legal s l) : Inv (step cfg s l) := by
  cases l with
  | request payload id outcome => exact h.request hl outcome
  | advance id now outcome =>
    unfold step
    dsimp only
    cases hfind : s.calls.find? fun c => decide (c.run.id = id) with
    | none => exact h
    | some call =>
      have hcall := h.calls call (List.mem_of_find?_eq_some hfind)
      cases call with
      | query run payload => exact h.proceed_query hcall now outcome
      | save run payload events => exact h.proceed_save hcall now outcome
      | complete run payload events => exact h.proceed_complete hcall now outcome
      | fail run count e => exact h.proceed_fail hcall now outcome
  | drop id =>
    refine h.quiet rfl (fun _ he => he) rfl rfl h.current ?_
    simp [step, St.goesOn]
  | events events =>
    refine h.quiet rfl (fun _ he => List.mem_append_left _ he) rfl rfl ?_ (List.Sublist.refl _)
    exact List.mem_append_right _ (List.mem_singleton_self events)
  | crash => exact h.quiet rfl (fun _ he => he) rfl rfl h.current (List.nil_sublist _)

theorem inv_start (events : EventStore) : Inv (start events) where
  ids := List.nodup_nil
  current := List.mem_singleton_self events
  calls := fun _ hc => absurd hc List.not_mem_nil
  apart := List.nodup_nil
  completed := fun _ hr => absurd hr List.not_mem_nil
  keys := List.nodup_nil
  owned := fun _ hd => absurd hd List.not_mem_nil
  created := fun _ hr => absurd hr List.not_mem_nil

theorem inv_run {cfg : Config} {events : EventStore} {labels : List Label}
    (h : Trace.Steps (step cfg) Legal (start events) labels) : Inv (Trace.run (step cfg) (start events) labels) :=
  @Trace.run_inv _ _ _ Inv Legal (fun _ _ hs hl => inv_step hs hl) _ _ (inv_start events) h

/-! ## Results -/

/-- what a step touches is not completed -/
def Untouched (s s' : St) : Prop :=
  ∃ touched : Uuid → Prop, (∀ r ∈ s.store.runs, touched r.id → r.status ≠ .completed) ∧ Frame touched s s'

theorem Untouched.of_store_eq {s s' : St} (hstore : s'.store = s.store) (hpast : ∀ e ∈ s.past, e ∈ s'.past)
    (hrequests : s'.requests = s.requests) : Untouched s s' :=
  ⟨fun _ => False, fun _ _ h => h.elim, Frame.of_store_eq hstore hpast fun q hq => by rwa [hrequests]⟩

theorem Inv.untouched_proceed {s : St} (h : Inv s) {call : Call} (hcall : Holds s call) (now : DateTime)
    (outcome : Outcome) : Untouched s (s.proceed call now outcome) := by
  have hquiet : ∀ next, Untouched s (s.goesOn call.run.id next) := fun next =>
    Untouched.of_store_eq rfl (fun _ he => he) rfl
  have hown : ∀ r ∈ s.store.runs, r.id = call.run.id → r.status ≠ .completed := fun r hr hid =>
    h.not_completed hcall hr hid
  cases call with
  | query run payload => cases outcome <;> exact hquiet _
  | save run payload events =>
    cases outcome with
    | refused e => exact hquiet _
    | ok | lost e => exact ⟨_, hown, h.frame_saved hcall rfl rfl rfl⟩
  | complete run payload events =>
    unfold St.proceed
    dsimp only
    cases hstore : s.store.updateBaselineRunStatus run.id .completed (some now) events.length none with
    | none => cases outcome <;> exact hquiet none
    | some store =>
      cases outcome with
      | refused e => exact hquiet none
      | ok | lost e => exact ⟨_, hown, h.frame_updated hcall hstore rfl rfl rfl⟩
  | fail run count e =>
    unfold St.proceed
    dsimp only
    cases hstore : s.store.updateBaselineRunStatus run.id .failed (some now) count (some e) with
    | none => cases outcome <;> exact hquiet none
    | some store =>
      cases outcome with
      | refused e => exact hquiet none
      | ok | lost e => exact ⟨_, hown, h.frame_updated hcall hstore rfl rfl rfl⟩

theorem step_untouched {cfg : Config} {s : St} (h : Inv s) {l : Label} (hl : Legal s l) : Untouched s (step cfg s l) := by
  have hquiet : Untouched s s := Untouched.of_store_eq rfl (fun _ he => he) rfl
  cases l with
  | request payload id outcome =>
    unfold step St.request
    dsimp only
    split_ifs
    · exact hquiet
    · exact hquiet
    · have hown : ∀ r ∈ s.store.runs, r.id = id → r.status ≠ .completed := fun r hr hid => absurd hid (hl r hr)
      cases outcome with
      | refused e => exact hquiet
      | ok | lost e => exact ⟨(· = id), hown, @frame_created s _ (createRunRecord id _ _ _ _) hl (id, payload) rfl rfl rfl⟩
  | advance id now outcome =>
    unfold step
    dsimp only
    cases hfind : s.calls.find? fun c => decide (c.run.id = id) with
    | none => exact hquiet
    | some call => exact h.untouched_proceed (h.calls call (List.mem_of_find?_eq_some hfind)) now outcome
  | drop id => exact Untouched.of_store_eq rfl (fun _ he => he) rfl
  | events events => exact Untouched.of_store_eq rfl (fun _ he => List.mem_append_left _ he) rfl
  | crash => exact Untouched.of_store_eq rfl (fun _ he => he) rfl

/-- **A completed run is complete.** In every interleaving of requests, refused and lost storage operations, live events,
clients that leave and crashes: every completed run is published, and every run that a request was answered with is stored
just so, as completed. -/
theorem published_complete (cfg : Config) (events : EventStore) (labels : List Label)
    (h : Trace.Steps (step cfg) Legal (start events) labels) :
    (∀ r ∈ (Trace.run (step cfg) (start events) labels).store.runs, r.status = .completed →
        Published (Trace.run (step cfg) (start events) labels) r) ∧
      ∀ r ∈ (Trace.run (step cfg) (start events) labels).created,
        r ∈ (Trace.run (step cfg) (start events) labels).store.runs ∧ r.status = .completed := by
  have hinv := inv_run h
  exact ⟨hinv.completed, hinv.created⟩

/-- a transfer of one bitcoin at height 100 -/
def transferAt100 : ChainEvent where
  id := 9
  eventType := .largeTransfer
  severity := .high
  confidence := .verifiedOnChain
  title := "transfer"
  description := ""
  eventTime := 0
  firstObservedAt := 0
  detectedAt := 0
  blockHeight := some 100
  blockHash := none
  txid := none
  source := none
  witnesses := []
  observationMode := .live
  replayJobId := none
  metadata := .null
  observations := []

def oneTransfer : EventStore := ⟨[transferAt100], [], 10⟩

def enabled : Config := ⟨true, "obschain-baseline-v1"⟩

def blocksTo (height : ℕ) : CreateBaselineRequest := ⟨0, height, none, none, none⟩

/-- two requests at once: the first is completed, the distributions of the second are refused -/
def twoRequests : List Label :=
  [.request (blocksTo 200) 1 .ok, .request (blocksTo 50) 2 .ok, .advance 1 5 .ok, .advance 2 6 .ok, .advance 2 7 (.refused "db"),
    .advance 1 8 .ok, .advance 1 9000 .ok, .advance 2 10 .ok]

/-- the first run, as it is stored in the end -/
def firstRunRecord : BaselineRunRecord :=
  { createRunRecord 1 "mainnet" 0 200 "obschain-baseline-v1" with
    status := .completed
    completedAt := some 9000
    canonicalEventCount := 1 }

theorem published_complete_two :
    Published (Trace.run (step enabled) (start oneTransfer) twoRequests) firstRunRecord :=
  (published_complete enabled oneTransfer twoRequests (by decide +kernel)).1 firstRunRecord (by decide +kernel) rfl

/-- **A completed run is final**: whatever follows, it is stored unchanged, with the same distributions. -/
theorem published_final (cfg : Config) (events : EventStore) (labels more : List Label)
    (h : Trace.Steps (step cfg) Legal (start events) (labels ++ more)) :
    ∀ r ∈ (Trace.run (step cfg) (start events) labels).store.runs, r.status = .completed →
      r ∈ (Trace.run (step cfg) (start events) (labels ++ more)).store.runs ∧
        ∀ d, (r.id, d) ∈ (Trace.run (step cfg) (start events) (labels ++ more)).store.distributions ↔
          (r.id, d) ∈ (Trace.run (step cfg) (start events) labels).store.distributions := by
  intro r hr hstatus
  obtain ⟨hlabels, hmore⟩ := Trace.steps_append.1 h
  rw [Trace.run_append]
  have hinv := inv_run hlabels
  generalize Trace.run (step cfg) (start events) labels = s at hinv hmore hr ⊢
  clear h hlabels
  induction more generalizing s with
  | nil => exact ⟨hr, fun _ => Iff.rfl⟩
  | cons l more ih =>
    obtain ⟨touched, hfree, hframe⟩ := step_untouched hinv hmore.1
    have hkept : ¬touched r.id := fun ht => hfree r hr ht hstatus
    obtain ⟨hrun, hdists⟩ := ih _ (inv_step hinv hmore.1) hmore.2 ((hframe.runs r hkept).2 hr)
    exact ⟨hrun, fun d => (hdists d).trans (hframe.distributions r.id d hkept)⟩

theorem published_final_two :
    firstRunRecord ∈
      (Trace.run (step enabled) (start oneTransfer) (twoRequests ++ [.crash, .request (blocksTo 60) 3 .ok])).store.runs :=
  (published_final enabled oneTransfer twoRequests [.crash, .request (blocksTo 60) 3 .ok] (by decide +kernel) firstRunRecord
    (by decide +kernel) rfl).1

/-! ## The latest run -/

namespace Store

theorem compatible_completed {network : String} {height : Option ℕ} {version : Option String} {r : BaselineRunRecord}
    (h : compatible network height version r = true) : r.status = .completed := by
  simp only [compatible, Bool.and_eq_true, beq_iff_eq] at h
  exact h.1.1.2

theorem optionLe_trans {a b c : Option ℤ} (hab : optionLe a b = true) (hbc : optionLe b c = true) : optionLe a c = true := by
  cases a <;> cases b <;> cases c <;> simp_all [optionLe]
  omega

theorem optionLe_total (a b : Option ℤ) : optionLe a b = true ∨ optionLe b a = true := by
  cases a <;> cases b <;> simp [optionLe]
  omega

theorem newerFirst_trans {a b c : BaselineRunRecord} (hab : newerFirst a b = true) (hbc : newerFirst b c = true) :
    newerFirst a c = true := by
  simp only [newerFirst, Bool.or_eq_true, Bool.and_eq_true, decide_eq_true_eq] at hab hbc ⊢
  rcases hab with hab | ⟨hab, hab'⟩
  · rcases hbc with hbc | ⟨hbc, -⟩
    · exact Or.inl (hbc.trans hab)
    · exact Or.inl (hbc ▸ hab)
  · rcases hbc with hbc | ⟨hbc, hbc'⟩
    · exact Or.inl (hab ▸ hbc)
    · exact Or.inr ⟨hbc.trans hab, optionLe_trans hbc' hab'⟩

theorem newerFirst_total (a b : BaselineRunRecord) : (newerFirst a b || newerFirst b a) = true := by
  simp only [newerFirst, Bool.or_eq_true, Bool.and_eq_true, decide_eq_true_eq]
  rcases lt_trichotomy a.endHeight b.endHeight with hlt | heq | hgt
  · exact Or.inr (Or.inl hlt)
  · rcases optionLe_total a.completedAt b.completedAt with hle | hle
    · exact Or.inr (Or.inr ⟨heq, hle⟩)
    · exact Or.inl (Or.inr ⟨heq.symm, hle⟩)
  · exact Or.inl (Or.inl hgt)

/-- the in-memory choice is compatible, and none is before it -/
theorem getLatestCompatibleBaselineRun_spec (st : Store) (network : String) (height : Option ℕ)
    (version : Option String) :
    match st.getLatestCompatibleBaselineRun network height version with
    | none => ∀ r ∈ st.runs, compatible network height version r = false
    | some r =>
      r ∈ st.runs ∧ compatible network height version r = true ∧
        ∀ r' ∈ st.runs, compatible network height version r' = true → newerFirst r r' = true := by
  unfold getLatestCompatibleBaselineRun
  have hmem : ∀ r, r ∈ (st.runs.filter (compatible network height version)).mergeSort newerFirst ↔
      r ∈ st.runs ∧ compatible network height version r = true := by
    intro r
    rw [List.mem_mergeSort, List.mem_filter]
  have hsorted := @List.pairwise_mergeSort _ newerFirst (fun _ _ _ hab hbc => newerFirst_trans hab hbc) newerFirst_total
    (st.runs.filter (compatible network height version))
  cases hlist : (st.runs.filter (compatible network height version)).mergeSort newerFirst with
  | nil =>
    rw [hlist] at hmem
    intro r hr
    rw [Bool.eq_false_iff]
    exact fun hc => List.not_mem_nil ((hmem r).2 ⟨hr, hc⟩)
  | cons first rest =>
    rw [hlist] at hmem hsorted
    obtain ⟨hfirst, hcompatible⟩ := (hmem first).1 List.mem_cons_self
    refine ⟨hfirst, hcompatible, fun r' hr' hc' => ?_⟩
    rcases List.mem_cons.1 ((hmem r').2 ⟨hr', hc'⟩) with rfl | hrest
    · have hself := newerFirst_total r' r'
      simpa using hself
    · exact (List.pairwise_cons.1 hsorted).1 r' hrest

/-- where both are timed, no `NULL` tells the two orders apart -/
theorem same_place {r first : BaselineRunRecord} (hr : r.completedAt.isSome) (hfirst : first.completedAt.isSome)
    (hlatest : first.endHeight < r.endHeight ∨
      (first.endHeight = r.endHeight ∧
        descNullsFirst (r.completedAt.map Sql.toMicros) (first.completedAt.map Sql.toMicros)))
    (hnewest : newerFirst first r = true) :
    r.endHeight = first.endHeight ∧ r.completedAt.map Sql.toMicros = first.completedAt.map Sql.toMicros := by
  obtain ⟨t, ht⟩ := Option.isSome_iff_exists.1 hr
  obtain ⟨t₀, ht₀⟩ := Option.isSome_iff_exists.1 hfirst
  simp only [newerFirst, ht, ht₀, optionLe, Bool.or_eq_true, Bool.and_eq_true, decide_eq_true_eq] at hnewest
  simp only [ht, ht₀, Option.map_some, descNullsFirst] at hlatest ⊢
  rcases hnewest with hlt | ⟨hend, hle⟩
  · rcases hlatest with hlt' | ⟨hend', -⟩
    · omega
    · omega
  · have hmicros := Sql.toMicros_mono hle
    rcases hlatest with hlt' | ⟨-, hle'⟩
    · omega
    · exact ⟨hend, congrArg some (le_antisymm hmicros hle')⟩

end Store

/-- **The run that events are rated against is published**, whichever storage chooses it. After any such interleaving, for
every network, height and version: the in-memory choice is a published run, so is every row that Postgres may choose, the one
has a choice exactly when the other has, and the two have one end height and one completion time, in microseconds. -/
theorem latest_run_published (cfg : Config) (events : EventStore) (labels : List Label)
    (h : Trace.Steps (step cfg) Legal (start events) labels) (network : String) (height : Option ℕ)
    (version : Option String) (answer : Option BaselineRunRecord)
    (hanswer : (Trace.run (step cfg) (start events) labels).store.LatestCompatibleRow network height version answer) :
    (∀ r ∈ answer, Published (Trace.run (step cfg) (start events) labels) r ∧ r.network = network) ∧
      (∀ r ∈ (Trace.run (step cfg) (start events) labels).store.getLatestCompatibleBaselineRun network height version,
        Published (Trace.run (step cfg) (start events) labels) r ∧ r.network = network) ∧
      answer.map (fun r => (r.endHeight, r.completedAt.map Sql.toMicros)) =
        ((Trace.run (step cfg) (start events) labels).store.getLatestCompatibleBaselineRun network height version).map
          fun r => (r.endHeight, r.completedAt.map Sql.toMicros) := by
  have hcompleted := (inv_run h).completed
  generalize Trace.run (step cfg) (start events) labels = s at hcompleted hanswer ⊢
  have hpublished : ∀ r ∈ s.store.runs, Store.compatible network height version r = true →
      Published s r ∧ r.network = network := by
    intro r hr hc
    refine ⟨hcompleted r hr (Store.compatible_completed hc), ?_⟩
    simp only [Store.compatible, Bool.and_eq_true, beq_iff_eq] at hc
    exact hc.1.1.1
  have hspec := s.store.getLatestCompatibleBaselineRun_spec network height version
  cases hchoice : s.store.getLatestCompatibleBaselineRun network height version with
  | none =>
    rw [hchoice] at hspec
    cases answer with
    | none => simp
    | some r =>
      have hno := hspec r hanswer.1
      rw [hanswer.2.1] at hno
      cases hno
  | some first =>
    rw [hchoice] at hspec
    obtain ⟨hfirst, hcompatible, hnewest⟩ := hspec
    cases answer with
    | none =>
      have hno := hanswer first hfirst
      rw [hcompatible] at hno
      cases hno
    | some r =>
      obtain ⟨hr, hrcompatible, hlatest⟩ := hanswer
      have hrow := hpublished r hr hrcompatible
      have hmem := hpublished first hfirst hcompatible
      refine ⟨?_, ?_, ?_⟩
      · simpa using hrow
      · simpa using hmem
      · obtain ⟨hend, htime⟩ := Store.same_place hrow.1.timed hmem.1.timed (hlatest first hfirst hcompatible)
          (hnewest r hr hrcompatible)
        simp [hend, htime]

theorem latest_run_published_two :
    Published (Trace.run (step enabled) (start oneTransfer) twoRequests) firstRunRecord ∧
      firstRunRecord.network = "mainnet" := by
  have hruns : ∀ r ∈ (Trace.run (step enabled) (start oneTransfer) twoRequests).store.runs,
      Store.compatible "mainnet" (some 150) none r = true → r = firstRunRecord := by decide +kernel
  refine (latest_run_published enabled oneTransfer twoRequests (by decide +kernel) "mainnet" (some 150) none
    (some firstRunRecord) ⟨by decide +kernel, by decide +kernel, fun r hr hc => ?_⟩).1 firstRunRecord rfl
  rw [hruns r hr hc]
  exact Or.inr ⟨rfl, le_refl _⟩

end BaselineRuns

end ObsChain
