/-
The event query, in Rust and in SQL (`query_events` of `repository.rs` and of `postgres.rs`, `save_event` of both, the
table `chain_events` of `0002_durable_persistence.sql` and `0004_event_observation_provenance.sql`).

Ten optional predicates, written twice. Eight of them say the same on both sides: the names that a text column holds tell
the variants apart, a `NULL` height is in no window, and an observation counts for the mode and the job in both. The two
that ask for a time do not: Rust compares `detected_at` in nanoseconds, SQL `event_time` in microseconds.

Model: `admits` is the closure of the in-memory query, `whereClause` the condition over a row; `EventFilter.params` are
the bound parameters (`none` is an error before the query is sent). `EventBackends` is the two stores that receive the same
saves; the observations are the same list for both.

- `paired_run`: along saves that succeed in both and evict nothing, the rows are those of the stored events.
- `admits_iff`, `holds_whereClause_iff`: both conditions are the eight other predicates and a window.
- `query_backends_agree_iff`: the queries match the same events exactly when the filter can be sent and, for every stored
  event that passes the eight, the windows coincide.
Witness: `replayed_event_missed` (an event of an old block, detected later).

Not modelled: column widths, the text of an error, and the order and page of the rows, which come after the match.
-/
import Mathlib.Tactic
import ObsChain.Core.Sql
import ObsChain.Core.Table
import ObsChain.Core.Trace
import ObsChain.Pipeline.EventStore
import ObsChain.Storage.InMemory

namespace ObsChain

/-- the name in JSON -/
def EventType.serdeName : EventType → String
  | .largeTransfer => "LARGE_TRANSFER"
  | .dormantCoinsMoved => "DORMANT_COINS_MOVED"
  | .consolidation => "CONSOLIDATION"
  | .fanOut => "FAN_OUT"
  | .extremeFee => "EXTREME_FEE"
  | .transactionReplacement => "TRANSACTION_REPLACEMENT"
  | .longBlockInterval => "LONG_BLOCK_INTERVAL"
  | .reorgDetected => "REORG_DETECTED"
  | .miningAnomaly => "MINING_ANOMALY"
  | .unusualFeeRatio => "UNUSUAL_FEE_RATIO"

def EventSeverity.serdeName : EventSeverity → String
  | .info => "INFO"
  | .low => "LOW"
  | .medium => "MEDIUM"
  | .high => "HIGH"
  | .critical => "CRITICAL"

def ConfidenceLevel.serdeName : ConfidenceLevel → String
  | .verifiedOnChain => "VERIFIED_ON_CHAIN"
  | .high => "HIGH"
  | .moderate => "MODERATE"
  | .heuristic => "HEURISTIC"
  | .low => "LOW"

structure EventFilter where
  fromHeight : Option ℕ
  toHeight : Option ℕ
  fromTime : Option DateTime
  toTime : Option DateTime
  eventType : Option EventType
  severity : Option EventSeverity
  observationMode : Option ObservationMode
  replayJobId : Option Uuid
  txid : Option String
  blockHash : Option String
  limit : Option ℕ
  offset : Option ℕ
deriving Repr

/-! ## The in-memory query -/

/-- the closure of the query: what is set must be met -/
def EventFilter.admits (filter : EventFilter) (observations : List EventObservation) (e : ChainEvent) : Bool :=
  (filter.fromHeight.all fun fromH => !((e.blockHeight.map fun h => decide (h < fromH)).getD true)) &&
  (filter.toHeight.all fun toH => !((e.blockHeight.map fun h => decide (h > toH)).getD true)) &&
  (filter.fromTime.all fun fromT => !decide (e.detectedAt < fromT)) &&
  (filter.toTime.all fun toT => !decide (e.detectedAt > toT)) &&
  (filter.eventType.all fun et => e.eventType == et) &&
  (filter.severity.all fun sev => e.severity == sev) &&
  -- the observations of the event, or else its own legacy field
  (filter.observationMode.all fun mode =>
    (observations.any fun o => o.eventId == e.id && o.mode == mode) || e.observationMode == mode) &&
  (filter.replayJobId.all fun jobId =>
    (observations.any fun o => o.eventId == e.id && o.replayJobId == some jobId) || e.replayJobId == some jobId) &&
  (filter.txid.all fun txid => e.txid == some txid) &&
  (filter.blockHash.all fun bh => e.blockHash == some bh)

namespace EventStore

/-- the matches, newest first, before the page is cut -/
def matchedEvents (st : EventStore) (filter : EventFilter) : List ChainEvent :=
  st.events.reverse.filter (filter.admits st.eventObservations)

def queryEvents (st : EventStore) (filter : EventFilter) : List ChainEvent :=
  let limit := max 1 (min (filter.limit.getD 100) 1000)
  let offset := filter.offset.getD 0
  ((st.matchedEvents filter).drop offset).take limit

end EventStore

/-! ## The Postgres query -/

/-- a row of `chain_events`, its metadata as they are sent to the JSONB column -/
structure EventRow where
  id : Uuid
  eventType : String
  severity : String
  confidence : String
  title : String
  description : String
  eventTime : ℤ
  firstObservedAt : ℤ
  detectedAt : ℤ
  blockHeight : Option ℤ
  blockHash : Option String
  txid : Option String
  metadata : Value
  source : Option ObservationSource
  observationMode : String
  replayJobId : Option Uuid
deriving Repr

namespace EventRow

/-- the values of the insert -/
def ofEvent (event : ChainEvent) : EventRow where
  id := event.id
  eventType := event.eventType.serdeName
  severity := event.severity.serdeName
  confidence := event.confidence.serdeName
  title := event.title
  description := event.description
  eventTime := Sql.toMicros event.eventTime
  firstObservedAt := Sql.toMicros event.firstObservedAt
  detectedAt := Sql.toMicros event.detectedAt
  blockHeight := event.blockHeight.map Int.ofNat
  blockHash := event.blockHash
  txid := event.txid
  metadata := event.metadata
  source := event.source
  observationMode := event.observationMode.asStr
  replayJobId := event.replayJobId

/-- what an insert is refused for -/
def accepts (event : ChainEvent) : Bool :=
  fitsI64 event.blockHeight && Sql.inRange (Sql.toMicros event.eventTime) &&
    Sql.inRange (Sql.toMicros event.firstObservedAt) && Sql.inRange (Sql.toMicros event.detectedAt) &&
    Sql.isText event.title && Sql.isText event.description && event.blockHash.all Sql.isText && event.txid.all Sql.isText

/-- `ON CONFLICT (id) DO UPDATE` -/
def update (row excluded : EventRow) : EventRow :=
  { row with title := excluded.title, description := excluded.description, metadata := excluded.metadata }

def saveEvent (rows : List EventRow) (event : ChainEvent) : Option (List EventRow) :=
  if accepts event then some (Table.insert (·.id) update (ofEvent event) rows) else none

end EventRow

/-- the columns of `event_observations` that the query reads -/
structure ObservationRow where
  eventId : Uuid
  observationMode : String
  replayJobId : Option Uuid
deriving Repr

def ObservationRow.ofObservation (o : EventObservation) : ObservationRow := ⟨o.eventId, o.mode.asStr, o.replayJobId⟩

/-- the bound parameters -/
structure EventParams where
  fromHeight : Option ℤ
  toHeight : Option ℤ
  fromTime : Option ℤ
  toTime : Option ℤ
  eventType : Option String
  severity : Option String
  observationMode : Option String
  replayJobId : Option Uuid
  txid : Option String
  blockHash : Option String
deriving Repr

/-- the parameters can be sent: heights as a `BIGINT`, times as a `TIMESTAMPTZ`, texts as a `VARCHAR` -/
def EventFilter.sendable (filter : EventFilter) : Bool :=
  fitsI64 filter.fromHeight && fitsI64 filter.toHeight &&
    (filter.fromTime.all fun t => Sql.inRange (Sql.toMicros t)) &&
    (filter.toTime.all fun t => Sql.inRange (Sql.toMicros t)) && filter.txid.all Sql.isText &&
    filter.blockHash.all Sql.isText

def EventFilter.params (filter : EventFilter) : Option EventParams :=
  if filter.sendable then
    some
      { fromHeight := filter.fromHeight.map Int.ofNat
        toHeight := filter.toHeight.map Int.ofNat
        fromTime := filter.fromTime.map Sql.toMicros
        toTime := filter.toTime.map Sql.toMicros
        eventType := filter.eventType.map EventType.serdeName
        severity := filter.severity.map EventSeverity.serdeName
        observationMode := filter.observationMode.map ObservationMode.asStr
        replayJobId := filter.replayJobId
        txid := filter.txid
        blockHash := filter.blockHash }
  else none

/-- `COALESCE(event_time, detected_at)`; `event_time` is `NOT NULL` -/
def EventRow.time (row : EventRow) : Option ℤ := Sql.coalesce (some row.eventTime) (some row.detectedAt)

open Sql in
def whereClause (observations : List ObservationRow) (p : EventParams) (row : EventRow) : Truth :=
  and (or (isNull p.fromHeight) (ge row.blockHeight p.fromHeight)) <|
  and (or (isNull p.toHeight) (le row.blockHeight p.toHeight)) <|
  and (or (isNull p.fromTime) (ge row.time p.fromTime)) <|
  and (or (isNull p.toTime) (le row.time p.toTime)) <|
  and (or (isNull p.eventType) (eq (some row.eventType) p.eventType)) <|
  and (or (isNull p.severity) (eq (some row.severity) p.severity)) <|
  and (or (or (isNull p.observationMode)
      (existsRow observations fun eo =>
        and (eq (some eo.eventId) (some row.id)) (eq (some eo.observationMode) p.observationMode)))
    (eq (some row.observationMode) p.observationMode)) <|
  and (or (or (isNull p.replayJobId)
      (existsRow observations fun eo =>
        and (eq (some eo.eventId) (some row.id)) (eq eo.replayJobId p.replayJobId)))
    (eq row.replayJobId p.replayJobId)) <|
  and (or (isNull p.txid) (eq row.txid p.txid)) (or (isNull p.blockHash) (eq row.blockHash p.blockHash))

/-- the rows that the query matches, before they are ordered and cut -/
def matchedRows (rows : List EventRow) (observations : List EventObservation) (filter : EventFilter) :
    Option (List EventRow) :=
  filter.params.map fun p =>
    rows.filter fun row => Sql.holds (whereClause (observations.map ObservationRow.ofObservation) p row)

/-! ## The same predicates -/

theorem EventType.serdeName_inj {a b : EventType} : a.serdeName = b.serdeName ↔ a = b := by
  cases a <;> cases b <;> decide

theorem EventSeverity.serdeName_inj {a b : EventSeverity} : a.serdeName = b.serdeName ↔ a = b := by
  cases a <;> cases b <;> decide

theorem ObservationMode.asStr_inj {a b : ObservationMode} : a.asStr = b.asStr ↔ a = b := by
  cases a <;> cases b <;> decide

namespace EventFilter

/-- the eight predicates that do not ask for a time -/
def untimed (filter : EventFilter) : EventFilter := { filter with fromTime := none, toTime := none }

/-- the window of the in-memory query -/
def spans (filter : EventFilter) (t : DateTime) : Prop :=
  (∀ a ∈ filter.fromTime, a ≤ t) ∧ ∀ b ∈ filter.toTime, t ≤ b

/-- the window of the Postgres query -/
def spansMicros (filter : EventFilter) (t : DateTime) : Prop :=
  (∀ a ∈ filter.fromTime, Sql.toMicros a ≤ Sql.toMicros t) ∧ ∀ b ∈ filter.toTime, Sql.toMicros t ≤ Sql.toMicros b

instance (filter : EventFilter) (t : DateTime) : Decidable (filter.spans t) := inferInstanceAs (Decidable (_ ∧ _))

instance (filter : EventFilter) (t : DateTime) : Decidable (filter.spansMicros t) := inferInstanceAs (Decidable (_ ∧ _))

theorem admits_iff (filter : EventFilter) (observations : List EventObservation) (e : ChainEvent) :
    filter.admits observations e = true ↔
      filter.untimed.admits observations e = true ∧ filter.spans e.detectedAt := by
  simp only [admits, untimed, spans, Option.mem_def, Bool.and_eq_true, Option.all_none, Option.all_eq_true,
    Bool.not_eq_true', decide_eq_false_iff_not, not_lt, and_true]
  constructor
  · intro h
    tauto
  · intro h
    tauto

end EventFilter

open Sql in
/-- a `NULL` height is in no window, and neither is a missing one -/
theorem fromHeight_iff (height bound : Option ℕ) :
    holds (or (isNull (bound.map Int.ofNat)) (ge (height.map Int.ofNat) (bound.map Int.ofNat))) = true ↔
      (bound.all fun fromH => !((height.map fun h => decide (h < fromH)).getD true)) = true := by
  cases bound <;> cases height <;> simp

open Sql in
theorem toHeight_iff (height bound : Option ℕ) :
    holds (or (isNull (bound.map Int.ofNat)) (le (height.map Int.ofNat) (bound.map Int.ofNat))) = true ↔
      (bound.all fun toH => !((height.map fun h => decide (h > toH)).getD true)) = true := by
  cases bound <;> cases height <;> simp

open Sql in
/-- an enumeration is compared by its name -/
theorem name_iff {α : Type} [DecidableEq α] {name : α → String} (hname : ∀ {a b}, name a = name b ↔ a = b) (x : α)
    (wanted : Option α) :
    holds (or (isNull (wanted.map name)) (eq (some (name x)) (wanted.map name))) = true ↔
      (wanted.all fun a => x == a) = true := by
  cases wanted <;> simp [hname]

open Sql in
theorem text_iff (x wanted : Option String) :
    holds (or (isNull wanted) (eq x wanted)) = true ↔ (wanted.all fun a => x == some a) = true := by
  cases wanted <;> simp

open Sql in
/-- an observation of the event has the mode, or the event itself does -/
theorem mode_iff (observations : List EventObservation) (e : ChainEvent) (wanted : Option ObservationMode) :
    holds (or (or (isNull (wanted.map ObservationMode.asStr))
        (existsRow (observations.map ObservationRow.ofObservation) fun eo =>
          and (eq (some eo.eventId) (some e.id)) (eq (some eo.observationMode) (wanted.map ObservationMode.asStr))))
      (eq (some e.observationMode.asStr) (wanted.map ObservationMode.asStr))) = true ↔
      (wanted.all fun mode =>
        (observations.any fun o => o.eventId == e.id && o.mode == mode) || e.observationMode == mode) = true := by
  cases wanted <;> simp [ObservationRow.ofObservation, ObservationMode.asStr_inj]

open Sql in
theorem replayJob_iff (observations : List EventObservation) (e : ChainEvent) (wanted : Option Uuid) :
    holds (or (or (isNull wanted)
        (existsRow (observations.map ObservationRow.ofObservation) fun eo =>
          and (eq (some eo.eventId) (some e.id)) (eq eo.replayJobId wanted)))
      (eq e.replayJobId wanted)) = true ↔
      (wanted.all fun jobId =>
        (observations.any fun o => o.eventId == e.id && o.replayJobId == some jobId) || e.replayJobId == some jobId) =
        true := by
  cases wanted <;> simp [ObservationRow.ofObservation]

open Sql in
/-- the column `event_time` decides, in microseconds -/
theorem time_iff (filter : EventFilter) (e : ChainEvent) :
    (holds (or (isNull (filter.fromTime.map toMicros)) (ge (EventRow.ofEvent e).time (filter.fromTime.map toMicros))) =
        true ∧
      holds (or (isNull (filter.toTime.map toMicros)) (le (EventRow.ofEvent e).time (filter.toTime.map toMicros))) =
        true) ↔ filter.spansMicros e.eventTime := by
  unfold EventFilter.spansMicros
  cases filter.fromTime <;> cases filter.toTime <;> simp [EventRow.time, EventRow.ofEvent]

/-- **The condition of the query**, over the row of an event: the eight other predicates as Rust has them, and a window. -/
theorem holds_whereClause_iff {filter : EventFilter} {p : EventParams} (hp : filter.params = some p)
    (observations : List EventObservation) (e : ChainEvent) :
    Sql.holds (whereClause (observations.map ObservationRow.ofObservation) p (EventRow.ofEvent e)) = true ↔
      filter.untimed.admits observations e = true ∧ filter.spansMicros e.eventTime := by
  unfold EventFilter.params at hp
  split_ifs at hp
  cases hp
  have htime := time_iff filter e
  simp only [whereClause, Sql.holds_and]
  rw [EventFilter.admits]
  simp only [EventFilter.untimed, Option.all_none, Bool.and_eq_true, Bool.and_true]
  rw [← htime, ← fromHeight_iff, ← toHeight_iff, ← name_iff EventType.serdeName_inj e.eventType,
    ← name_iff EventSeverity.serdeName_inj e.severity, ← mode_iff, ← replayJob_iff, ← text_iff, ← text_iff]
  constructor
  · intro h
    tauto
  · intro h
    tauto

/-! ## The same saves -/

/-- the two stores -/
structure EventBackends where
  store : EventStore
  rows : List EventRow

namespace EventBackends

/-- no events yet, and the observations that both have -/
def start (maxEvents : ℕ) (observations : List EventObservation) : EventBackends := ⟨⟨[], observations, maxEvents⟩, []⟩

/-- one event to both stores; where Postgres refuses it, its rows stay -/
def save (b : EventBackends) (event : ChainEvent) : EventBackends :=
  ⟨b.store.saveEvent event, (EventRow.saveEvent b.rows event).getD b.rows⟩

/-- the save succeeds in both stores, and evicts nothing -/
def SavedInBoth (b : EventBackends) (event : ChainEvent) : Prop :=
  (EventRow.saveEvent b.rows event).isSome ∧
    ((b.store.stored event.id).isSome ∨ b.store.events.length < b.store.maxEvents)

instance (b : EventBackends) (event : ChainEvent) : Decidable (SavedInBoth b event) := inferInstanceAs (Decidable (_ ∧ _))

/-- Postgres answers, and the matches have the ids of the in-memory matches -/
def Agree (b : EventBackends) (filter : EventFilter) : Prop :=
  ∃ matched, matchedRows b.rows b.store.eventObservations filter = some matched ∧
    ∀ id, id ∈ matched.map (·.id) ↔ id ∈ (b.store.matchedEvents filter).map (·.id)

/-- the rows are the stored events, one for each id, and the observations are the given ones -/
structure Paired (observations : List EventObservation) (b : EventBackends) : Prop where
  rows_eq : b.rows = b.store.events.map EventRow.ofEvent
  nodup : (b.store.events.map (·.id)).Nodup
  observations_eq : b.store.eventObservations = observations

/-- an insert does to the rows what a merge or an append does to the events -/
theorem insert_ofEvent (event : ChainEvent) (events : List ChainEvent) :
    Table.insert (·.id) EventRow.update (EventRow.ofEvent event) (events.map EventRow.ofEvent) =
      ((EventStore.mergeInto event events).getD (events ++ [event])).map EventRow.ofEvent := by
  induction events with
  | nil => rfl
  | cons e events ih =>
    by_cases he : e.id = event.id
    · have hrow : (EventRow.ofEvent e).id = (EventRow.ofEvent event).id := he
      simp only [List.map_cons, Table.insert, EventStore.mergeInto, if_pos he, if_pos hrow, Option.getD_some]
      rfl
    · have hrow : (EventRow.ofEvent e).id ≠ (EventRow.ofEvent event).id := he
      simp only [List.map_cons, Table.insert, EventStore.mergeInto, if_neg he, if_neg hrow, ih]
      cases EventStore.mergeInto event events with
      | none => rfl
      | some events' => rfl

/-- a store with room, or with the event, evicts nothing -/
theorem saveEvent_of_room {st : EventStore} {event : ChainEvent}
    (h : (st.stored event.id).isSome ∨ st.events.length < st.maxEvents) :
    st.saveEvent event =
      { st with events := (EventStore.mergeInto event st.events).getD (st.events ++ [event]) } := by
  unfold EventStore.saveEvent
  cases hm : EventStore.mergeInto event st.events with
  | some events' => rfl
  | none =>
    rw [EventStore.stored_eq_none hm] at h
    have hroom : st.events.length < st.maxEvents := by simpa using h
    have hkeep : st.makeRoom = st := by
      rw [EventStore.makeRoom, if_neg (by omega)]
    simp [hkeep]

theorem Paired.save {observations : List EventObservation} {b : EventBackends} (h : Paired observations b)
    {event : ChainEvent} (hs : SavedInBoth b event) : Paired observations (b.save event) := by
  obtain ⟨hpg, hroom⟩ := hs
  have hstore := saveEvent_of_room hroom
  constructor
  · unfold EventRow.saveEvent at hpg
    have haccepts : EventRow.accepts event = true := by
      by_contra hno
      simp [hno] at hpg
    simp only [EventBackends.save, EventRow.saveEvent, haccepts, if_true, Option.getD_some, hstore, h.rows_eq]
    exact insert_ofEvent event b.store.events
  · exact EventStore.nodup_saveEvent h.nodup event
  · simp only [EventBackends.save, hstore, h.observations_eq]

/-- **The stores hold the same events** along saves that succeed in both and evict nothing. -/
theorem paired_run {maxEvents : ℕ} {observations : List EventObservation} {saves : List ChainEvent}
    (h : Trace.Steps save SavedInBoth (start maxEvents observations) saves) :
    Paired observations (Trace.run save (start maxEvents observations) saves) := by
  have hstart : Paired observations (start maxEvents observations) := ⟨rfl, List.nodup_nil, rfl⟩
  have hstep : ∀ b event, Paired observations b → SavedInBoth b event → Paired observations (b.save event) :=
    fun _ _ hb hs => hb.save hs
  exact Trace.run_inv hstep hstart h

/-! ## The same matches -/

variable {observations : List EventObservation} {b : EventBackends}

theorem mem_matchedRows {filter : EventFilter} {p : EventParams} (hp : filter.params = some p)
    (h : Paired observations b) (id : Uuid) :
    id ∈ (b.rows.filter fun row =>
        Sql.holds (whereClause (observations.map ObservationRow.ofObservation) p row)).map (·.id) ↔
      ∃ e ∈ b.store.events, (filter.untimed.admits observations e = true ∧ filter.spansMicros e.eventTime) ∧ e.id = id := by
  rw [h.rows_eq]
  simp only [List.mem_map, List.mem_filter]
  constructor
  · rintro ⟨row, ⟨⟨e, he, rfl⟩, hrow⟩, rfl⟩
    exact ⟨e, he, (holds_whereClause_iff hp observations e).1 hrow, rfl⟩
  · rintro ⟨e, he, hrow, rfl⟩
    exact ⟨EventRow.ofEvent e, ⟨⟨e, he, rfl⟩, (holds_whereClause_iff hp observations e).2 hrow⟩, rfl⟩

theorem mem_matchedEvents {filter : EventFilter} (h : Paired observations b) (id : Uuid) :
    id ∈ (b.store.matchedEvents filter).map (·.id) ↔
      ∃ e ∈ b.store.events, (filter.untimed.admits observations e = true ∧ filter.spans e.detectedAt) ∧ e.id = id := by
  simp only [EventStore.matchedEvents, h.observations_eq, List.mem_map, List.mem_filter, List.mem_reverse,
    filter.admits_iff, and_assoc]

/-- with one event for each id, the ids of two selections agree where the selections do -/
theorem ids_agree_iff {events : List ChainEvent} (hnodup : (events.map (·.id)).Nodup) (P Q : ChainEvent → Prop) :
    (∀ id, (∃ e ∈ events, P e ∧ e.id = id) ↔ ∃ e ∈ events, Q e ∧ e.id = id) ↔ ∀ e ∈ events, (P e ↔ Q e) := by
  have hone : ∀ {e e' : ChainEvent}, e ∈ events → e' ∈ events → e'.id = e.id → e' = e := by
    intro e e' he he' hid
    exact List.inj_on_of_nodup_map hnodup he' he hid
  constructor
  · intro h e he
    constructor
    · intro hP
      obtain ⟨e', he', hQ, hid⟩ := (h e.id).1 ⟨e, he, hP, rfl⟩
      rwa [hone he he' hid] at hQ
    · intro hQ
      obtain ⟨e', he', hP, hid⟩ := (h e.id).2 ⟨e, he, hQ, rfl⟩
      rwa [hone he he' hid] at hP
  · intro h id
    constructor
    · rintro ⟨e, he, hP, hid⟩
      exact ⟨e, he, (h e he).1 hP, hid⟩
    · rintro ⟨e, he, hQ, hid⟩
      exact ⟨e, he, (h e he).2 hQ, hid⟩

theorem agree_iff (filter : EventFilter) (h : Paired observations b) :
    b.Agree filter ↔
      filter.sendable = true ∧ ∀ e ∈ b.store.events, filter.untimed.admits observations e = true →
        (filter.spans e.detectedAt ↔ filter.spansMicros e.eventTime) := by
  unfold Agree matchedRows
  by_cases hsend : filter.sendable = true
  · obtain ⟨p, hp⟩ : ∃ p, filter.params = some p := by
      simp [EventFilter.params, hsend]
    have hids := ids_agree_iff h.nodup
      (fun e => filter.untimed.admits observations e = true ∧ filter.spansMicros e.eventTime)
      (fun e => filter.untimed.admits observations e = true ∧ filter.spans e.detectedAt)
    simp only [hp, Option.map_some, Option.some.injEq, exists_eq_left', h.observations_eq, mem_matchedRows hp h,
      mem_matchedEvents h, hids, hsend, true_and]
    constructor
    · intro hsame e he hadmits
      have := hsame e he
      tauto
    · intro hsame e he
      have := hsame e he
      tauto
  · have hnone : filter.params = none := by
      simp [EventFilter.params, hsend]
    simp [hnone, hsend]

/-- **The backends agree exactly where the windows of time do.** After any saves that succeed in both stores and evict
nothing, and for every filter, the queries match the same events if and only if Postgres accepts the parameters and every
stored event that passes the eight other predicates was detected within the window exactly when its event time, in
microseconds, lies in it. -/
theorem query_backends_agree_iff (maxEvents : ℕ) (observations : List EventObservation) (saves : List ChainEvent)
    (filter : EventFilter) (h : Trace.Steps save SavedInBoth (start maxEvents observations) saves) :
    (Trace.run save (start maxEvents observations) saves).Agree filter ↔
      filter.sendable = true ∧
        ∀ e ∈ (Trace.run save (start maxEvents observations) saves).store.events,
          filter.untimed.admits observations e = true →
            (filter.spans e.detectedAt ↔ filter.spansMicros e.eventTime) := by
  exact agree_iff filter (paired_run h)

/-- a transfer of the given event time, detected at the given time (in seconds) -/
def transferSeen (id : Uuid) (eventTime detectedAt : ℤ) : ChainEvent where
  id := id
  eventType := .largeTransfer
  severity := .high
  confidence := .verifiedOnChain
  title := "transfer"
  description := ""
  eventTime := fromTimestamp eventTime
  firstObservedAt := fromTimestamp detectedAt
  detectedAt := fromTimestamp detectedAt
  blockHeight := some 100
  blockHash := none
  txid := none
  source := none
  witnesses := []
  observationMode := .live
  replayJobId := none
  metadata := .null
  observations := []

/-- every event since the given time (in seconds) -/
def since (time : ℤ) : EventFilter :=
  ⟨none, none, some (fromTimestamp time), none, none, none, none, none, none, none, none, none⟩

/-- two events that were detected as they happened, of which the window has one -/
theorem query_backends_agree_iff_live :
    (Trace.run save (start 10 []) [transferSeen 1 1000 1000, transferSeen 2 2000 2000]).Agree (since 1500) := by
  rw [query_backends_agree_iff 10 [] _ _ (by decide +kernel)]
  refine ⟨by decide +kernel, ?_⟩
  have hevents : (Trace.run save (start 10 []) [transferSeen 1 1000 1000, transferSeen 2 2000 2000]).store.events =
      [transferSeen 1 1000 1000, transferSeen 2 2000 2000] := rfl
  rw [hevents]
  intro e he _
  fin_cases he <;> decide

/-- **An event of an old block, detected later, is missed.** The in-memory query finds it in the window of its detection,
the Postgres query does not. -/
theorem replayed_event_missed :
    Trace.Steps save SavedInBoth (start 10 []) [transferSeen 1 1000 2000] ∧
      ((Trace.run save (start 10 []) [transferSeen 1 1000 2000]).store.matchedEvents (since 1500)).map (·.id) = [1] ∧
      (matchedRows (Trace.run save (start 10 []) [transferSeen 1 1000 2000]).rows [] (since 1500)).map
        (fun rows => rows.map (·.id)) = some [] ∧
      ¬ (Trace.run save (start 10 []) [transferSeen 1 1000 2000]).Agree (since 1500) := by
  have hmemory : ((Trace.run save (start 10 []) [transferSeen 1 1000 2000]).store.matchedEvents (since 1500)).map
      (·.id) = [1] := by
    decide +kernel
  have hrows : (matchedRows (Trace.run save (start 10 []) [transferSeen 1 1000 2000]).rows [] (since 1500)).map
      (fun rows => rows.map (·.id)) = some [] := by
    decide +kernel
  refine ⟨by decide +kernel, hmemory, hrows, ?_⟩
  rintro ⟨matched, hmatched, hids⟩
  have hempty : matched.map (·.id) = [] := by
    have hobservations : (Trace.run save (start 10 []) [transferSeen 1 1000 2000]).store.eventObservations = [] := rfl
    rw [hobservations] at hmatched
    rw [hmatched] at hrows
    simpa using hrows
  have hone := (hids 1).2
  rw [hmemory, hempty] at hone
  simp at hone

end EventBackends

end ObsChain
