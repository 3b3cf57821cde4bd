/-
The pipeline worker (the observation loop of `main.rs`, `save_activity_with_retry`, `save_alert_with_retry` and
`save_event_with_retry`).

MODEL. The worker takes one observation at a time. It enriches a transaction, matches it against the watch targets, saves
and broadcasts the activities and alerts, runs the detectors and the deduplicator, and saves and broadcasts the events that
pass. The storage is any backend whose calls return a new state and a result; what makes a call fail comes from outside, so
any call of a run may fail, also after it has written. Between two observations the API adds and removes watch targets.

`outcomes`, `detected` and `noticed` are kept beside the state and read by no step: every item that was to be saved and
whether it was, and how many events the detectors found. `Live` is the worker without its storage.

- `saveItem_spec`: one item: saved by one of three attempts, or counted as a write error.
- `live_step`, `live_run`: the live part of the worker takes the same steps whatever the storage does.
- `broadcast_independent_of_storage`: **main result** on faults, for every run over any two backends.
- `accounting_run`: **main result** on the counters, in every reachable state.
- `stored_saved`: **main result** on the store: what its tables hold are the saved items, in order.
-/
import Mathlib.Tactic
import ObsChain.Core.Retry
import ObsChain.Core.Trace
import ObsChain.Detect.Engine
import ObsChain.Ingest.CacheIndependence
import ObsChain.Ingest.Enricher
import ObsChain.Pipeline.LiveProvenance
import ObsChain.Watch.AlertIntegrity

namespace ObsChain.PipelineWorker

open LiveProvenance (recordedFor)

/-! ## Storage -/

/-- what the worker saves and retries -/
inductive Item where
  | activity (activity : IncidentActivity)
  | alert (alert : IncidentAlert)
  | event (event : ChainEvent)

/-- a storage backend; `ω` is what a call meets outside -/
structure Backend (σ ω : Type) where
  saveActivity : ω → σ → IncidentActivity → σ × Except String Unit
  saveAlert : ω → σ → IncidentAlert → σ × Except String Unit
  saveEvent : ω → σ → ChainEvent → σ × Except String Unit
  saveEventObservation : ω → σ → EventObservation → σ × Except String Unit

/-- the storage, the count of items given up, and every item that was to be saved with whether it was -/
structure Sink (σ : Type) where
  storage : σ
  storageWriteErrors : ℕ
  outcomes : List (Item × Bool)

def maxAttempts : ℕ := 3

section

variable {σ ω : Type}

/-- up to three attempts; what is to be done after a success comes last -/
def saveItem (item : Item) (attempt : ℕ → σ → σ × Except String Unit) (after : σ → σ) (sink : Sink σ) : Sink σ :=
  let r := Retry.retry (fun _ => true) attempt (maxAttempts - 1) 0 sink.storage
  match r.result with
  | .ok () => ⟨after r.state, sink.storageWriteErrors, sink.outcomes ++ [(item, true)]⟩
  | .error _ => ⟨r.state, sink.storageWriteErrors + 1, sink.outcomes ++ [(item, false)]⟩

def saveActivityWithRetry (B : Backend σ ω) (calls : ℕ → ω) (activity : IncidentActivity) (sink : Sink σ) : Sink σ :=
  saveItem (.activity activity) (fun i s => B.saveActivity (calls i) s activity) id sink

def saveAlertWithRetry (B : Backend σ ω) (calls : ℕ → ω) (alert : IncidentAlert) (sink : Sink σ) : Sink σ :=
  saveItem (.alert alert) (fun i s => B.saveAlert (calls i) s alert) id sink

/-- the observations are saved once each, and their errors ignored -/
def saveObservations (B : Backend σ ω) (calls : ℕ → ω) (observations : List EventObservation) (s : σ) : σ :=
  observations.zipIdx.foldl (fun s p => (B.saveEventObservation (calls p.2) s p.1).1) s

def saveEventWithRetry (newV5 : String → Uuid) (B : Backend σ ω) (calls observationCalls : ℕ → ω) (savedAt : DateTime)
    (event : ChainEvent) (sink : Sink σ) : Sink σ :=
  saveItem (.event event) (fun i s => B.saveEvent (calls i) s event)
    (saveObservations B observationCalls (recordedFor newV5 event savedAt)) sink

/-- **One item** is saved, or counted as a write error. -/
theorem saveItem_spec (item : Item) (attempt : ℕ → σ → σ × Except String Unit) (after : σ → σ) (sink : Sink σ) :
    ∃ saved : Bool, (saveItem item attempt after sink).outcomes = sink.outcomes ++ [(item, saved)] ∧
      (saveItem item attempt after sink).storageWriteErrors =
        sink.storageWriteErrors + if saved then 0 else 1 := by
  unfold saveItem
  dsimp only
  split
  · exact ⟨true, rfl, rfl⟩
  · exact ⟨false, rfl, rfl⟩

end

/-! ## The worker -/

structure Metrics where
  transactionsObserved : ℕ
  blocksObserved : ℕ
  transactionsEnriched : ℕ
  utxoLookupFailures : ℕ
  reorgsDetected : ℕ
  incidentActivitiesDetected : ℕ
  incidentAlertsEmitted : ℕ
  eventsGenerated : ℕ
  eventsDeduplicated : ℕ
  eventsDetected : ℕ

/-- what the worker computes with, counts and broadcasts -/
structure Live where
  watch : IncidentWatchEngine
  enricher : Option TransactionEnricher
  detectors : DetectorEngine
  dedup : EventDeduplicator
  tipHeight : ℕ
  metrics : Metrics
  /-- events sent to the clients -/
  broadcast : List ChainEvent
  /-- activities and alerts sent to the clients -/
  notices : List Item
  /-- the events the detectors found -/
  detected : ℕ

structure Worker (σ : Type) where
  live : Live
  sink : Sink σ

/-- what an observation meets, but for the storage: clocks, ids, and the order of the lookups -/
structure LiveEnv where
  enrich : TransactionEnricher.Call
  stamp : IncidentWatchEngine.Stamp
  draws : ℕ → Fresh
  now : ℕ
  utc : ℕ → DateTime

/-- with what each attempt to save meets: the item's position, then the attempt's -/
structure Env (ω : Type) extends LiveEnv where
  savedAt : ℕ → DateTime
  activityCall : ℕ → ℕ → ω
  alertCall : ℕ → ℕ → ω
  eventCall : ℕ → ℕ → ω
  observationCall : ℕ → ℕ → ω

/-- an activity and its alert -/
abbrev Matched := IncidentActivity × Option IncidentAlert

namespace Live

/-- the historical outputs of a transaction, looked up if there is an enricher -/
def enrich (env : LiveEnv) (l : Live) (tx : TransactionObservation) : Live × TransactionObservation :=
  match l.enricher with
  | none => (l, tx)
  | some enricher =>
    let r := enricher.enrichTransaction env.enrich tx
    let hasHistory := r.2.inputs.any (·.historicalUtxo.isSome)
    ({ l with
        enricher := some r.1
        metrics := { l.metrics with
          transactionsEnriched := l.metrics.transactionsEnriched + if hasHistory then 1 else 0
          utxoLookupFailures := r.1.lookupFailures } }, r.2)

/-- the observation by its kind: counted, and matched against the watch targets -/
def observe (env : LiveEnv) (l : Live) : Observation → Live × Observation × List Matched
  | .block block =>
    ({ l with
        tipHeight := block.height
        metrics := { l.metrics with blocksObserved := l.metrics.blocksObserved + 1 } },
      .block block, l.watch.processBlock block)
  | .transaction tx =>
    let l := { l with metrics := { l.metrics with transactionsObserved := l.metrics.transactionsObserved + 1 } }
    let (l, tx) := l.enrich env tx
    let r := l.watch.processTransaction env.stamp tx tx.blockHeight tx.blockHash
    ({ l with watch := r.1 }, .transaction tx, r.2)
  | .replacement repl => (l, .replacement repl, l.watch.processReplacement env.stamp repl)
  | .mempool mp => (l, .mempool mp, [])
  | .reorg reorg =>
    ({ l with metrics := { l.metrics with reorgsDetected := l.metrics.reorgsDetected + 1 } }, .reorg reorg, [])

def noteActivity (l : Live) (activity : IncidentActivity) : Live :=
  { l with
    metrics := { l.metrics with incidentActivitiesDetected := l.metrics.incidentActivitiesDetected + 1 }
    notices := l.notices ++ [.activity activity] }

def noteAlert (l : Live) (alert : IncidentAlert) : Live :=
  { l with
    metrics := { l.metrics with incidentAlertsEmitted := l.metrics.incidentAlertsEmitted + 1 }
    notices := l.notices ++ [.alert alert] }

/-- the detectors, then the deduplicator -/
def detect (newV5 : String → Uuid) (rfc3339 : DateTime → String) (env : LiveEnv) (l : Live) (obs : Observation) :
    Live × List ChainEvent :=
  let d := l.detectors.processObservation newV5 rfc3339 env.draws obs
  let f := l.dedup.filter env.now env.utc d.2
  ({ l with
      detectors := d.1
      dedup := f.1
      detected := l.detected + d.2.length
      metrics := { l.metrics with
        eventsDeduplicated := f.1.deduplicatedCount
        eventsGenerated := l.metrics.eventsGenerated + f.2.length } }, f.2)

def noteEvent (l : Live) (event : ChainEvent) : Live :=
  { l with
    metrics := { l.metrics with eventsDetected := l.metrics.eventsDetected + 1 }
    broadcast := l.broadcast ++ [event] }

end Live

section

variable {σ ω : Type} (newV5 : String → Uuid) (rfc3339 : DateTime → String) (B : Backend σ ω)

/-- one match: its activity, then its alert; each is saved, counted and broadcast -/
def handleMatch (env : Env ω) (w : Worker σ) (p : Matched × ℕ) : Worker σ :=
  let w : Worker σ := ⟨w.live.noteActivity p.1.1, saveActivityWithRetry B (env.activityCall p.2) p.1.1 w.sink⟩
  match p.1.2 with
  | none => w
  | some alert => ⟨w.live.noteAlert alert, saveAlertWithRetry B (env.alertCall p.2) alert w.sink⟩

/-- one event that passed the deduplicator -/
def handleEvent (env : Env ω) (w : Worker σ) (p : ChainEvent × ℕ) : Worker σ :=
  ⟨w.live.noteEvent p.1,
    saveEventWithRetry newV5 B (env.eventCall p.2) (env.observationCall p.2) (env.savedAt p.2) p.1 w.sink⟩

/-- one observation -/
def process (env : Env ω) (w : Worker σ) (obs : Observation) : Worker σ :=
  let (live, obs, matched) := w.live.observe env.toLiveEnv obs
  let w := matched.zipIdx.foldl (handleMatch B env) ⟨live, w.sink⟩
  let (live, fresh) := w.live.detect newV5 rfc3339 env.toLiveEnv obs
  fresh.zipIdx.foldl (handleEvent newV5 B env) ⟨live, w.sink⟩

inductive Op (ω : Type) where
  | observe (env : Env ω) (obs : Observation)
  | addTarget (target : WatchTarget)
  | removeTarget (targetId : Uuid)

def step (w : Worker σ) : Op ω → Worker σ
  | .observe env obs => process newV5 rfc3339 B env w obs
  | .addTarget target => { w with live := { w.live with watch := w.live.watch.addTarget target } }
  | .removeTarget targetId => { w with live := { w.live with watch := w.live.watch.removeTarget targetId } }

def run (w : Worker σ) (ops : List (Op ω)) : Worker σ := Trace.run (step newV5 rfc3339 B) w ops

end

/-! ## The live part -/

namespace Live

def noteMatch (l : Live) (m : Matched) : Live :=
  match m.2 with
  | none => l.noteActivity m.1
  | some alert => (l.noteActivity m.1).noteAlert alert

/-- one observation, but for the storage -/
def process (newV5 : String → Uuid) (rfc3339 : DateTime → String) (env : LiveEnv) (l : Live) (obs : Observation) : Live :=
  let (l, obs, matched) := l.observe env obs
  let (l, fresh) := (matched.foldl noteMatch l).detect newV5 rfc3339 env obs
  fresh.foldl noteEvent l

/-- what a run does, but for the storage -/
inductive Op where
  | observe (env : LiveEnv) (obs : Observation)
  | addTarget (target : WatchTarget)
  | removeTarget (targetId : Uuid)

def step (newV5 : String → Uuid) (rfc3339 : DateTime → String) (l : Live) : Op → Live
  | .observe env obs => process newV5 rfc3339 env l obs
  | .addTarget target => { l with watch := l.watch.addTarget target }
  | .removeTarget targetId => { l with watch := l.watch.removeTarget targetId }

end Live

def Op.live {ω : Type} : Op ω → Live.Op
  | .observe env obs => .observe env.toLiveEnv obs
  | .addTarget target => .addTarget target
  | .removeTarget targetId => .removeTarget targetId

section

variable {σ ω : Type} {newV5 : String → Uuid} {rfc3339 : DateTime → String} (B : Backend σ ω)

theorem handleMatch_live (env : Env ω) (w : Worker σ) (p : Matched × ℕ) :
    (handleMatch B env w p).live = w.live.noteMatch p.1 := by
  obtain ⟨⟨activity, alert⟩, i⟩ := p
  cases alert <;> rfl

theorem handleMatches_live (env : Env ω) (matched : List Matched) (i : ℕ) (w : Worker σ) :
    ((matched.zipIdx i).foldl (handleMatch B env) w).live = matched.foldl Live.noteMatch w.live := by
  induction matched generalizing i w with
  | nil => rfl
  | cons m matched ih => rw [List.zipIdx_cons, List.foldl_cons, ih, handleMatch_live, List.foldl_cons]

theorem handleEvents_live (env : Env ω) (fresh : List ChainEvent) (i : ℕ) (w : Worker σ) :
    ((fresh.zipIdx i).foldl (handleEvent newV5 B env) w).live = fresh.foldl Live.noteEvent w.live := by
  induction fresh generalizing i w with
  | nil => rfl
  | cons event fresh ih =>
    rw [List.zipIdx_cons, List.foldl_cons, ih, List.foldl_cons]
    rfl

/-- **One step** of the live part does not see the storage. -/
theorem live_step (w : Worker σ) (op : Op ω) :
    (step newV5 rfc3339 B w op).live = Live.step newV5 rfc3339 w.live op.live := by
  cases op with
  | observe env obs =>
    dsimp only [step, process, Op.live, Live.step, Live.process]
    rw [handleEvents_live, handleMatches_live]
  | addTarget target => rfl
  | removeTarget targetId => rfl

theorem live_run (w : Worker σ) (ops : List (Op ω)) :
    (run newV5 rfc3339 B w ops).live = Trace.run (Live.step newV5 rfc3339) w.live (ops.map Op.live) := by
  induction ops generalizing w with
  | nil => rfl
  | cons op ops ih =>
    change (run newV5 rfc3339 B (step newV5 rfc3339 B w op) ops).live = _
    rw [ih, live_step]
    rfl

/-- **Faults stay in the storage.** Two workers that begin alike and take the same observations and the same changes of the
watch targets broadcast the same events, activities and alerts, and count, remember and watch the same, whatever the two
backends are and however their calls fail. -/
theorem broadcast_independent_of_storage {σ' ω' : Type} (B : Backend σ ω) (B' : Backend σ' ω') (w : Worker σ)
    (w' : Worker σ') (ops : List (Op ω)) (ops' : List (Op ω')) (hlive : w.live = w'.live)
    (hops : ops.map Op.live = ops'.map Op.live) :
    (run newV5 rfc3339 B w ops).live = (run newV5 rfc3339 B' w' ops').live := by
  rw [live_run, live_run, hlive, hops]

end

/-! ## The counters -/

/-- every event of a batch passes or is counted as a duplicate -/
theorem filterFrom_counts (now : ℕ) (utc : ℕ → DateTime) (i : ℕ) (d : EventDeduplicator) (events : List ChainEvent) :
    (EventDeduplicator.filterFrom now utc i d events).1.deduplicatedCount +
        (EventDeduplicator.filterFrom now utc i d events).2.length = d.deduplicatedCount + events.length := by
  induction events generalizing i d with
  | nil => rfl
  | cons event events ih =>
    have hone : (d.filterOne now (utc i) event).1.deduplicatedCount + (d.filterOne now (utc i) event).2.toList.length =
        d.deduplicatedCount + 1 := by
      unfold EventDeduplicator.filterOne
      dsimp only
      split_ifs <;> rfl
    have hrest := ih (i + 1) (d.filterOne now (utc i) event).1
    simp only [EventDeduplicator.filterFrom, List.length_append, List.length_cons]
    omega

namespace Item

def isActivity : Item → Bool
  | activity _ => true
  | _ => false

def isAlert : Item → Bool
  | alert _ => true
  | _ => false

def event? : Item → Option ChainEvent
  | event e => some e
  | _ => none

end Item

/-- the counters, with `left` events generated and not yet handled -/
structure Accounts {σ : Type} (left : ℕ) (w : Worker σ) : Prop where
  generated : w.live.broadcast.length + left = w.live.metrics.eventsGenerated
  eventsDetected : w.live.metrics.eventsDetected = w.live.broadcast.length
  deduplicated : w.live.metrics.eventsDeduplicated = w.live.dedup.deduplicatedCount
  found : w.live.detected = w.live.metrics.eventsGenerated + w.live.metrics.eventsDeduplicated
  activities : w.live.metrics.incidentActivitiesDetected = w.live.notices.countP (·.isActivity)
  alerts : w.live.metrics.incidentAlertsEmitted = w.live.notices.countP (·.isAlert)
  events : (w.sink.outcomes.map (·.1)).filterMap (·.event?) = w.live.broadcast
  others : (w.sink.outcomes.map (·.1)).filter (fun item => item.event?.isNone) = w.live.notices
  errors : w.sink.storageWriteErrors = w.sink.outcomes.countP (fun o => !o.2)

/-- a worker that has done nothing -/
def init {σ : Type} (watch : IncidentWatchEngine) (enricher : Option TransactionEnricher) (detectors : DetectorEngine)
    (dedup : EventDeduplicator) (storage : σ) : Worker σ where
  live := ⟨watch, enricher, detectors, dedup, 0, ⟨0, 0, 0, 0, 0, 0, 0, 0, 0, 0⟩, [], [], 0⟩
  sink := ⟨storage, 0, []⟩

section

variable {σ ω : Type} {newV5 : String → Uuid} {rfc3339 : DateTime → String} {B : Backend σ ω} {w : Worker σ}

/-- the sink's part of the account, for one more item -/
theorem saveItem_accounts (item : Item) (attempt : ℕ → σ → σ × Except String Unit) (after : σ → σ)
    (herrors : w.sink.storageWriteErrors = w.sink.outcomes.countP (fun o => !o.2)) :
    ((saveItem item attempt after w.sink).outcomes.map (·.1)) = w.sink.outcomes.map (·.1) ++ [item] ∧
      (saveItem item attempt after w.sink).storageWriteErrors =
        (saveItem item attempt after w.sink).outcomes.countP (fun o => !o.2) := by
  obtain ⟨saved, houtcomes, hcount⟩ := saveItem_spec item attempt after w.sink
  rw [houtcomes, hcount, herrors]
  cases saved <;> simp

theorem noteActivity_accounts {left : ℕ} (h : Accounts left w) (activity : IncidentActivity) (calls : ℕ → ω) :
    Accounts left ⟨w.live.noteActivity activity, saveActivityWithRetry B calls activity w.sink⟩ := by
  obtain ⟨hitems, herrors⟩ :=
    saveItem_accounts (.activity activity) (fun i s => B.saveActivity (calls i) s activity) id h.errors
  constructor
  · exact h.generated
  · exact h.eventsDetected
  · exact h.deduplicated
  · exact h.found
  · simp [Live.noteActivity, h.activities, Item.isActivity]
  · simp [Live.noteActivity, h.alerts, Item.isAlert]
  · rw [saveActivityWithRetry, hitems, List.filterMap_append, h.events]
    exact List.append_nil _
  · rw [saveActivityWithRetry, hitems, List.filter_append, h.others]
    rfl
  · exact herrors

theorem noteAlert_accounts {left : ℕ} (h : Accounts left w) (alert : IncidentAlert) (calls : ℕ → ω) :
    Accounts left ⟨w.live.noteAlert alert, saveAlertWithRetry B calls alert w.sink⟩ := by
  obtain ⟨hitems, herrors⟩ := saveItem_accounts (.alert alert) (fun i s => B.saveAlert (calls i) s alert) id h.errors
  constructor
  · exact h.generated
  · exact h.eventsDetected
  · exact h.deduplicated
  · exact h.found
  · simp [Live.noteAlert, h.activities, Item.isActivity]
  · simp [Live.noteAlert, h.alerts, Item.isAlert]
  · rw [saveAlertWithRetry, hitems, List.filterMap_append, h.events]
    exact List.append_nil _
  · rw [saveAlertWithRetry, hitems, List.filter_append, h.others]
    rfl
  · exact herrors

theorem handleMatch_accounts {left : ℕ} (h : Accounts left w) (env : Env ω) (p : Matched × ℕ) :
    Accounts left (handleMatch B env w p) := by
  obtain ⟨⟨activity, alert⟩, i⟩ := p
  have hactivity := noteActivity_accounts (B := B) h activity (env.activityCall i)
  cases alert with
  | none => exact hactivity
  | some alert => exact noteAlert_accounts hactivity alert (env.alertCall i)

/-- an event is handled: one fewer is left -/
theorem handleEvent_accounts {left : ℕ} (h : Accounts (left + 1) w) (env : Env ω) (p : ChainEvent × ℕ) :
    Accounts left (handleEvent newV5 B env w p) := by
  obtain ⟨event, i⟩ := p
  obtain ⟨hitems, herrors⟩ := saveItem_accounts (.event event) (fun j s => B.saveEvent (env.eventCall i j) s event)
    (saveObservations B (env.observationCall i) (recordedFor newV5 event (env.savedAt i))) h.errors
  constructor
  · have hgenerated := h.generated
    simp only [handleEvent, Live.noteEvent, List.length_append, List.length_singleton]
    omega
  · simp [handleEvent, Live.noteEvent, h.eventsDetected]
  · exact h.deduplicated
  · exact h.found
  · exact h.activities
  · exact h.alerts
  · rw [handleEvent, saveEventWithRetry, hitems, List.filterMap_append, h.events]
    rfl
  · rw [handleEvent, saveEventWithRetry, hitems, List.filter_append, h.others]
    exact List.append_nil _
  · exact herrors

theorem handleEvents_accounts (env : Env ω) (fresh : List ChainEvent) (i : ℕ) {w : Worker σ}
    (h : Accounts fresh.length w) : Accounts 0 ((fresh.zipIdx i).foldl (handleEvent newV5 B env) w) := by
  induction fresh generalizing i w with
  | nil => exact h
  | cons event fresh ih => exact ih (i + 1) (handleEvent_accounts h env (event, i))

theorem handleMatches_accounts (env : Env ω) (matched : List Matched) (i : ℕ) {w : Worker σ} (h : Accounts 0 w) :
    Accounts 0 ((matched.zipIdx i).foldl (handleMatch B env) w) := by
  induction matched generalizing i w with
  | nil => exact h
  | cons m matched ih => exact ih (i + 1) (handleMatch_accounts h env (m, i))

/-- taking an observation in does not touch what is accounted for -/
theorem observe_accounts (h : Accounts 0 w) (env : LiveEnv) (obs : Observation) :
    Accounts 0 ⟨(w.live.observe env obs).1, w.sink⟩ := by
  cases obs with
  | transaction tx =>
    unfold Live.observe Live.enrich
    dsimp only
    cases w.live.enricher with
    | none =>
      exact ⟨h.generated, h.eventsDetected, h.deduplicated, h.found, h.activities, h.alerts, h.events, h.others, h.errors⟩
    | some enricher =>
      exact ⟨h.generated, h.eventsDetected, h.deduplicated, h.found, h.activities, h.alerts, h.events, h.others, h.errors⟩
  | _ =>
    exact ⟨h.generated, h.eventsDetected, h.deduplicated, h.found, h.activities, h.alerts, h.events, h.others, h.errors⟩

/-- the events that pass are those left to handle -/
theorem detect_accounts (h : Accounts 0 w) (env : LiveEnv) (obs : Observation) :
    Accounts (w.live.detect newV5 rfc3339 env obs).2.length ⟨(w.live.detect newV5 rfc3339 env obs).1, w.sink⟩ := by
  let found := (w.live.detectors.processObservation newV5 rfc3339 env.draws obs).2
  have hcounts := filterFrom_counts env.now env.utc 0 w.live.dedup found
  have hgenerated := h.generated
  have hfound := h.found
  have hdeduplicated := h.deduplicated
  constructor
  · simp only [Live.detect]
    omega
  · exact h.eventsDetected
  · rfl
  · change w.live.detected + found.length = w.live.metrics.eventsGenerated +
      (EventDeduplicator.filterFrom env.now env.utc 0 w.live.dedup found).2.length +
        (EventDeduplicator.filterFrom env.now env.utc 0 w.live.dedup found).1.deduplicatedCount
    omega
  · exact h.activities
  · exact h.alerts
  · exact h.events
  · exact h.others
  · exact h.errors

theorem accounts_step (w : Worker σ) (op : Op ω) (h : Accounts 0 w) : Accounts 0 (step newV5 rfc3339 B w op) := by
  cases op with
  | observe env obs =>
    have hobserved := observe_accounts h env.toLiveEnv obs
    have hmatched := handleMatches_accounts (B := B) env (w.live.observe env.toLiveEnv obs).2.2 0 hobserved
    exact handleEvents_accounts env _ 0 (detect_accounts hmatched env.toLiveEnv (w.live.observe env.toLiveEnv obs).2.1)
  | addTarget target =>
    exact ⟨h.generated, h.eventsDetected, h.deduplicated, h.found, h.activities, h.alerts, h.events, h.others, h.errors⟩
  | removeTarget targetId =>
    exact ⟨h.generated, h.eventsDetected, h.deduplicated, h.found, h.activities, h.alerts, h.events, h.others, h.errors⟩

/-- **The counters of every run.** From the start, over any backend and any failures of its calls, after every observation:
the events generated are those broadcast, each once; with those counted as duplicates they are all that the detectors found;
the activities and alerts counted are those broadcast; what was to be saved are exactly the events, activities and alerts
broadcast, in the same order; and the write errors are those of them that no attempt saved. -/
theorem accounting_run (watch : IncidentWatchEngine) (enricher : Option TransactionEnricher) (detectors : DetectorEngine)
    (maxCapacity ttl : ℕ) (storage : σ) (ops : List (Op ω)) :
    Accounts 0 (run newV5 rfc3339 B
      (init watch enricher detectors (EventDeduplicator.new maxCapacity ttl) storage) ops) :=
  Trace.run_inv_all accounts_step ops ⟨rfl, rfl, rfl, rfl, rfl, rfl, rfl, rfl, rfl⟩

end

/-! ## The store -/

/-- a view of a storage in which a call either writes its item, as `write` does, or changes nothing; observations are not
in the view -/
structure StoresItems {σ ω τ : Type} (B : Backend σ ω) (view : σ → τ) (write : τ → Item → τ) : Prop where
  activity : ∀ c s a, view (B.saveActivity c s a).1 =
    if (B.saveActivity c s a).2.isOk then write (view s) (.activity a) else view s
  alert : ∀ c s a, view (B.saveAlert c s a).1 =
    if (B.saveAlert c s a).2.isOk then write (view s) (.alert a) else view s
  event : ∀ c s e, view (B.saveEvent c s e).1 =
    if (B.saveEvent c s e).2.isOk then write (view s) (.event e) else view s
  observation : ∀ c s o, view (B.saveEventObservation c s o).1 = view s

section

variable {σ ω τ : Type} {newV5 : String → Uuid} {rfc3339 : DateTime → String} {B : Backend σ ω} {view : σ → τ}
  {write : τ → Item → τ}

/-- the items that were saved -/
def Sink.saved (sink : Sink σ) : List Item := (sink.outcomes.filter (·.2)).map (·.1)

/-- one item: written when it is saved, and the view left alone otherwise -/
theorem saveItem_stored {item : Item} {attempt : ℕ → σ → σ × Except String Unit} {after : σ → σ}
    (hattempt : ∀ i s, view (attempt i s).1 = if (attempt i s).2.isOk then write (view s) item else view s)
    (hafter : ∀ s, view (after s) = view s) {sink : Sink σ} {start : τ}
    (h : view sink.storage = sink.saved.foldl write start) :
    view (saveItem item attempt after sink).storage = (saveItem item attempt after sink).saved.foldl write start := by
  have hview := @Retry.retry_view σ String Unit (fun _ => true) attempt τ view (write · item) hattempt (maxAttempts - 1) 0
    sink.storage
  unfold saveItem
  dsimp only
  split
  · rename_i hres
    rw [hres, Except.isOk, Except.toBool, if_pos rfl] at hview
    rw [hafter, hview, h]
    simp [Sink.saved]
  · rename_i hres
    rw [hres, Except.isOk, Except.toBool, if_neg Bool.false_ne_true] at hview
    rw [hview, h]
    simp [Sink.saved]

theorem saveObservations_view (hB : StoresItems B view write) (calls : ℕ → ω) (observations : List EventObservation)
    (s : σ) : view (saveObservations B calls observations s) = view s := by
  have hfrom : ∀ (i : ℕ) (s : σ), view ((observations.zipIdx i).foldl
      (fun s p => (B.saveEventObservation (calls p.2) s p.1).1) s) = view s := by
    induction observations with
    | nil => exact fun _ _ => rfl
    | cons o observations ih =>
      intro i s
      rw [List.zipIdx_cons, List.foldl_cons, ih, hB.observation]
  exact hfrom 0 s

/-- what the view holds are the items saved so far -/
def Stored (view : σ → τ) (write : τ → Item → τ) (start : τ) (w : Worker σ) : Prop :=
  view w.sink.storage = w.sink.saved.foldl write start

variable {start : τ}

theorem handleMatch_stored (hB : StoresItems B view write) (env : Env ω) {w : Worker σ} (p : Matched × ℕ)
    (h : Stored view write start w) : Stored view write start (handleMatch B env w p) := by
  obtain ⟨⟨activity, alert⟩, i⟩ := p
  have hactivity : Stored view write start ⟨w.live.noteActivity activity,
      saveActivityWithRetry B (env.activityCall i) activity w.sink⟩ :=
    saveItem_stored (fun j s => hB.activity (env.activityCall i j) s activity) (fun _ => rfl) h
  cases alert with
  | none => exact hactivity
  | some alert => exact saveItem_stored (fun j s => hB.alert (env.alertCall i j) s alert) (fun _ => rfl) hactivity

theorem handleEvent_stored (hB : StoresItems B view write) (env : Env ω) {w : Worker σ} (p : ChainEvent × ℕ)
    (h : Stored view write start w) : Stored view write start (handleEvent newV5 B env w p) :=
  saveItem_stored (fun j s => hB.event (env.eventCall p.2 j) s p.1) (fun s => saveObservations_view hB _ _ s) h

theorem stored_step (hB : StoresItems B view write) (w : Worker σ) (op : Op ω) (h : Stored view write start w) :
    Stored view write start (step newV5 rfc3339 B w op) := by
  cases op with
  | observe env obs =>
    have hmatched : ∀ (matched : List (Matched × ℕ)) (w : Worker σ), Stored view write start w →
        Stored view write start (matched.foldl (handleMatch B env) w) := by
      intro matched
      induction matched with
      | nil => exact fun _ hw => hw
      | cons p matched ih => exact fun w hw => ih _ (handleMatch_stored hB env p hw)
    have hevents : ∀ (fresh : List (ChainEvent × ℕ)) (w : Worker σ), Stored view write start w →
        Stored view write start (fresh.foldl (handleEvent newV5 B env) w) := by
      intro fresh
      induction fresh with
      | nil => exact fun _ hw => hw
      | cons p fresh ih => exact fun w hw => ih _ (handleEvent_stored hB env p hw)
    apply hevents
    exact hmatched _ ⟨_, w.sink⟩ h
  | addTarget target => exact h
  | removeTarget targetId => exact h

/-- **The store after every run.** Over a backend whose failing calls write nothing, the tables hold exactly the items that
were saved, written in the order in which they were broadcast: retries write nothing twice, and an item given up leaves the
others as they are. -/
theorem stored_saved (hB : StoresItems B view write) (watch : IncidentWatchEngine) (enricher : Option TransactionEnricher)
    (detectors : DetectorEngine) (dedup : EventDeduplicator) (storage : σ) (ops : List (Op ω)) :
    let sink := (run newV5 rfc3339 B (init watch enricher detectors dedup storage) ops).sink
    view sink.storage = sink.saved.foldl write (view storage) :=
  Trace.run_inv_all (stored_step hB) ops rfl

end

/-! ## The in-memory backend -/

/-- a call fails when its lock is poisoned; a saved event draws ids and times for its metric rows -/
structure MemoryCall where
  poisoned : Bool
  stamps : ℕ → Uuid × DateTime

/-- `InMemoryStorage`: events, observations and metric rows, and the activities and alerts -/
abbrev Memory := InMemoryStorage × AlertIntegrity.InMemoryIncidents

/-- a call that takes a lock -/
def locked (c : MemoryCall) (s s' : Memory) : Memory × Except String Unit :=
  if c.poisoned then (s, .error "poisoned lock: another task failed inside") else (s', .ok ())

def memoryBackend : Backend Memory MemoryCall where
  saveActivity c s a := locked c s (s.1, s.2.saveActivity a)
  saveAlert c s a := locked c s (s.1, s.2.saveAlert a)
  saveEvent c s e := locked c s (s.1.saveEvent c.stamps e, s.2)
  saveEventObservation c s o := locked c s (s.1.saveEventObservation o, s.2)

/-- the events without their observations, the activities and the alerts -/
def tables (s : Memory) : EventStore × AlertIntegrity.InMemoryIncidents :=
  ({ s.1.toEventStore with eventObservations := [] }, s.2)

def writeTables (t : EventStore × AlertIntegrity.InMemoryIncidents) :
    Item → EventStore × AlertIntegrity.InMemoryIncidents
  | .activity a => (t.1, t.2.saveActivity a)
  | .alert a => (t.1, t.2.saveAlert a)
  | .event e => (t.1.saveEvent e, t.2)

/-- a save of an event does not look at the observations -/
theorem saveEvent_forget (st : EventStore) (e : ChainEvent) :
    ({ st with eventObservations := [] } : EventStore).saveEvent e =
      { st.saveEvent e with eventObservations := [] } := by
  obtain ⟨events, observations, maxEvents⟩ := st
  unfold EventStore.saveEvent EventStore.makeRoom
  dsimp only
  cases EventStore.mergeInto e events with
  | some merged => rfl
  | none =>
    dsimp only
    split_ifs
    · cases events <;> rfl
    · rfl

theorem memory_storesItems : StoresItems memoryBackend tables writeTables where
  activity c s a := by
    obtain ⟨poisoned, stamps⟩ := c
    cases poisoned <;> rfl
  alert c s a := by
    obtain ⟨poisoned, stamps⟩ := c
    cases poisoned <;> rfl
  event c s e := by
    obtain ⟨poisoned, stamps⟩ := c
    cases poisoned with
    | true => rfl
    | false =>
      change tables (s.1.saveEvent stamps e, s.2) = (({ s.1.toEventStore with eventObservations := [] }).saveEvent e, s.2)
      rw [saveEvent_forget]
      unfold tables InMemoryStorage.saveEvent
      dsimp only
      split <;> rfl
  observation c s o := by
    obtain ⟨poisoned, stamps⟩ := c
    cases poisoned <;> rfl

/-- the first two attempts to save an activity fail, and all attempts to save an alert -/
def flakyEnv : Env MemoryCall where
  enrich := TransactionEnricher.quickCall
  stamp := IncidentWatchEngine.someStamp
  draws _ := ⟨0, 0, 0⟩
  now := 0
  utc _ := 0
  savedAt _ := 0
  activityCall _ i := ⟨i < 2, fun _ => (0, 0)⟩
  alertCall _ _ := ⟨true, fun _ => (0, 0)⟩
  eventCall _ _ := ⟨false, fun _ => (0, 0)⟩
  observationCall _ _ := ⟨false, fun _ => (0, 0)⟩

/-- the theft of a watched outpoint: its activity is saved by the third attempt, and its alert is given up -/
theorem stored_saved_flaky :
    let sink := (run (fun _ => 0) (fun _ => "") memoryBackend
      (init IncidentWatchEngine.watchingEngine none (DetectorEngine.new []) (EventDeduplicator.new 10 1000)
        (InMemoryStorage.empty 10, ⟨[], [], 10⟩))
      [.observe flakyEnv (.transaction IncidentWatchEngine.theft)]).sink
    sink.storageWriteErrors = 1 ∧ sink.saved.length = 1 ∧
      tables sink.storage = sink.saved.foldl writeTables (tables (InMemoryStorage.empty 10, ⟨[], [], 10⟩)) := by
  exact ⟨by decide +kernel, by decide +kernel, stored_saved memory_storesItems _ _ _ _ _ _⟩

/-- no call fails -/
def steadyEnv : Env MemoryCall :=
  { flakyEnv with
    activityCall := fun _ _ => ⟨false, fun _ => (0, 0)⟩
    alertCall := fun _ _ => ⟨false, fun _ => (0, 0)⟩ }

/-- the same theft is seen alike where the alert is given up and where everything is saved -/
theorem broadcast_independent_of_storage_flaky :
    let w : Worker Memory := init IncidentWatchEngine.watchingEngine none (DetectorEngine.new [])
      (EventDeduplicator.new 10 1000) (InMemoryStorage.empty 10, ⟨[], [], 10⟩)
    let flaky := run (fun _ => 0) (fun _ => "") memoryBackend w
      [.observe flakyEnv (.transaction IncidentWatchEngine.theft)]
    let steady := run (fun _ => 0) (fun _ => "") memoryBackend w
      [.observe steadyEnv (.transaction IncidentWatchEngine.theft)]
    flaky.sink.storageWriteErrors = 1 ∧ steady.sink.storageWriteErrors = 0 ∧ flaky.live = steady.live := by
  refine ⟨by decide +kernel, by decide +kernel, ?_⟩
  exact broadcast_independent_of_storage memoryBackend memoryBackend _ _ _ _ rfl rfl

end ObsChain.PipelineWorker
