/-
An event that is read again (`get_event_by_id` of `repository.rs` and of `postgres.rs`).

In memory the stored event is returned with its observations. Postgres puts the event together from its row: names are read
as serde reads them, with older names and a default for a name that is none; a negative height is an error; the times are
those of the columns; the witnesses are not stored, and the source stands for them, seen at the time of the query. The metadata
comes back through a JSONB column and serde's parser, which need not keep every float: `jsonb` is what becomes of a value on
its way there and back, and a parameter here.

Both storages are fed with the same saves, as in `EventQuery`: of an event that is saved again, a save replaces the title, the
description and the metadata, and nothing else.

- `toEvent_ofEvent`: what a row is read as.
- `get_event_agrees_iff` (**main result**): the storages return the same event exactly when its three times are in whole
  microseconds, its metadata are read back unchanged, and its one witness, if it has a source, is the source at the time of
  the query.
- `get_event_reread`: in any case Postgres returns the in-memory event but for times, metadata and witnesses.

The observations of the event are the same for both. Not modelled: column widths.
-/
import Mathlib.Tactic
import ObsChain.Core.Sql
import ObsChain.Core.Trace
import ObsChain.Storage.EventQuery
import ObsChain.Storage.RarityRecords
import ObsChain.Storage.ReplayBackends

namespace ObsChain

def EventSeverity.ofSerde : String → Option EventSeverity
  | "INFO" => some .info
  | "LOW" => some .low
  | "MEDIUM" => some .medium
  | "HIGH" => some .high
  | "CRITICAL" => some .critical
  | _ => none

def ConfidenceLevel.ofSerde : String → Option ConfidenceLevel
  | "VERIFIED_ON_CHAIN" => some .verifiedOnChain
  | "HIGH" => some .high
  | "MODERATE" => some .moderate
  | "HEURISTIC" => some .heuristic
  | "LOW" => some .low
  | _ => none

/-- the mode of a column -/
def ObservationMode.ofColumn (s : String) : ObservationMode :=
  if toLowercase s = "historical_replay" then .historicalReplay else .live

@[simp] theorem EventSeverity.ofSerde_serdeName (s : EventSeverity) : ofSerde s.serdeName = some s := by
  cases s <;> rfl

@[simp] theorem ConfidenceLevel.ofSerde_serdeName (c : ConfidenceLevel) : ofSerde c.serdeName = some c := by
  cases c <;> rfl

@[simp] theorem ObservationMode.ofColumn_asStr (mode : ObservationMode) : ofColumn mode.asStr = mode := by
  cases mode <;> decide

/-- a height that is there must not be negative -/
def heightOfColumn : Option ℤ → Option (Option ℕ)
  | none => some none
  | some h => (i64ToU64 h).map some

/-- `ObservationWitness::new` -/
def ObservationWitness.new (source : ObservationSource) (now : DateTime) : ObservationWitness := ⟨source, now, none⟩

/-- the event of a row, as it is put together at the given time; the row has the metadata as they were sent -/
def EventRow.toEvent (jsonb : Value → Value) (now : DateTime) (observations : List EventObservation) (row : EventRow) :
    Option ChainEvent := do
  let blockHeight ← heightOfColumn row.blockHeight
  return {
    id := row.id
    eventType := (EventType.ofSerde row.eventType).getD .largeTransfer
    severity := (EventSeverity.ofSerde row.severity).getD .info
    confidence := (ConfidenceLevel.ofSerde row.confidence).getD .heuristic
    title := row.title
    description := row.description
    eventTime := Sql.ofMicros row.eventTime
    firstObservedAt := Sql.ofMicros row.firstObservedAt
    detectedAt := Sql.ofMicros row.detectedAt
    blockHeight := blockHeight
    blockHash := row.blockHash
    txid := row.txid
    source := row.source
    witnesses := (row.source.map fun s => [ObservationWitness.new s now]).getD []
    observationMode := ObservationMode.ofColumn row.observationMode
    replayJobId := row.replayJobId
    metadata := jsonb row.metadata
    observations := observations }

/-- what the columns keep of an event -/
def ChainEvent.reread (jsonb : Value → Value) (now : DateTime) (event : ChainEvent) : ChainEvent :=
  { event with
    eventTime := Sql.ofMicros (Sql.toMicros event.eventTime)
    firstObservedAt := Sql.ofMicros (Sql.toMicros event.firstObservedAt)
    detectedAt := Sql.ofMicros (Sql.toMicros event.detectedAt)
    witnesses := (event.source.map fun s => [ObservationWitness.new s now]).getD []
    metadata := jsonb event.metadata }

theorem EventRow.toEvent_ofEvent (jsonb : Value → Value) (now : DateTime) (observations : List EventObservation)
    (event : ChainEvent) :
    (ofEvent event).toEvent jsonb now observations = some ({ event with observations := observations }.reread jsonb now) := by
  have hheight : heightOfColumn (event.blockHeight.map Int.ofNat) = some event.blockHeight := by
    cases event.blockHeight <;> simp [heightOfColumn, i64ToU64]
  simp [toEvent, ofEvent, ChainEvent.reread, hheight]

/-- what the columns lose: parts of a microsecond, what JSON does not keep, and witnesses other than the source -/
theorem ChainEvent.reread_eq_iff (jsonb : Value → Value) (now : DateTime) (event : ChainEvent) :
    event.reread jsonb now = event ↔
      (1000 ∣ event.eventTime ∧ 1000 ∣ event.firstObservedAt ∧ 1000 ∣ event.detectedAt) ∧
        jsonb event.metadata = event.metadata ∧
        event.witnesses = (event.source.map fun s => [ObservationWitness.new s now]).getD [] := by
  rw [← Sql.ofMicros_toMicros, ← Sql.ofMicros_toMicros, ← Sql.ofMicros_toMicros]
  cases event
  simp only [reread, ChainEvent.mk.injEq, true_and, and_true]
  constructor
  · rintro ⟨h1, h2, h3, hwitnesses, hmetadata⟩
    exact ⟨⟨h1, h2, h3⟩, hmetadata, hwitnesses.symm⟩
  · rintro ⟨⟨h1, h2, h3⟩, hmetadata, hwitnesses⟩
    exact ⟨h1, h2, h3, hwitnesses.symm, hmetadata⟩

/-- the in-memory query -/
def EventStore.getEventById (st : EventStore) (id : Uuid) : Option ChainEvent :=
  (st.stored id).map fun event =>
    { event with observations := st.eventObservations.filter fun o => decide (o.eventId = id) }

/-- the Postgres query; the first `none` is an error -/
def EventRow.getEventById (jsonb : Value → Value) (rows : List EventRow) (observations : List EventObservation)
    (now : DateTime) (id : Uuid) : Option (Option ChainEvent) :=
  match Table.lookup (·.id) id rows with
  | none => some none
  | some row => (row.toEvent jsonb now (observations.filter fun o => decide (o.eventId = id))).map some

namespace EventBackends

/-- the row of an id is that of the event with the id -/
theorem lookup_ofEvent (events : List ChainEvent) (id : Uuid) :
    Table.lookup (fun r : EventRow => r.id) id (events.map EventRow.ofEvent) =
      (events.find? fun e => decide (e.id = id)).map EventRow.ofEvent := by
  unfold Table.lookup
  rw [List.find?_map]
  rfl

variable (jsonb : Value → Value)

/-- **An event is read again** as it is in memory, but for its times, metadata and witnesses. After any saves that succeed in
both storages and evict nothing, Postgres answers for every id without an error, with what the columns keep of the in-memory
answer. -/
theorem get_event_reread (maxEvents : ℕ) (observations : List EventObservation) (saves : List ChainEvent) (now : DateTime)
    (id : Uuid) (h : Trace.Steps save SavedInBoth (start maxEvents observations) saves) :
    EventRow.getEventById jsonb (Trace.run save (start maxEvents observations) saves).rows observations now id =
      some (((Trace.run save (start maxEvents observations) saves).store.getEventById id).map (·.reread jsonb now)) := by
  have hpaired := paired_run h
  generalize Trace.run save (start maxEvents observations) saves = b at hpaired ⊢
  unfold EventRow.getEventById EventStore.getEventById EventStore.stored
  rw [hpaired.rows_eq, lookup_ofEvent, hpaired.observations_eq]
  cases b.store.events.find? fun e => decide (e.id = id) with
  | none => rfl
  | some event =>
    simp only [Option.map_some]
    rw [EventRow.toEvent_ofEvent]
    rfl

/-- **The storages return the same event** exactly where the columns lose nothing of it. -/
theorem get_event_agrees_iff (maxEvents : ℕ) (observations : List EventObservation) (saves : List ChainEvent)
    (now : DateTime) (id : Uuid) (h : Trace.Steps save SavedInBoth (start maxEvents observations) saves) :
    EventRow.getEventById jsonb (Trace.run save (start maxEvents observations) saves).rows observations now id =
        some ((Trace.run save (start maxEvents observations) saves).store.getEventById id) ↔
      ∀ event ∈ (Trace.run save (start maxEvents observations) saves).store.events, event.id = id →
        (1000 ∣ event.eventTime ∧ 1000 ∣ event.firstObservedAt ∧ 1000 ∣ event.detectedAt) ∧
          jsonb event.metadata = event.metadata ∧
          event.witnesses = (event.source.map fun s => [ObservationWitness.new s now]).getD [] := by
  rw [get_event_reread jsonb maxEvents observations saves now id h, Option.some.injEq]
  have hnodup := (paired_run h).nodup
  generalize Trace.run save (start maxEvents observations) saves = b at hnodup ⊢
  unfold EventStore.getEventById
  cases hstored : b.store.stored id with
  | none =>
    have hnone : ∀ event ∈ b.store.events, event.id ≠ id := by
      simpa [EventStore.stored] using hstored
    simp only [Option.map_none, true_iff]
    exact fun event hevent hid => absurd hid (hnone event hevent)
  | some event =>
    have hevent : event ∈ b.store.events := List.mem_of_find?_eq_some hstored
    have hid : event.id = id := by simpa using List.find?_some hstored
    simp only [Option.map_some, Option.some.injEq, ChainEvent.reread_eq_iff]
    constructor
    · intro hsame event' hevent' hid'
      obtain rfl : event' = event := List.inj_on_of_nodup_map hnodup hevent' hevent (hid'.trans hid.symm)
      exact hsame
    · intro hsame
      exact hsame event hevent hid

/-- a transfer without a source or metadata, detected in a whole second -/
theorem get_event_agrees_iff_live :
    EventRow.getEventById id (Trace.run save (start 10 []) [transferSeen 1 1000 2000]).rows [] 5000 1 =
      some ((Trace.run save (start 10 []) [transferSeen 1 1000 2000]).store.getEventById 1) := by
  rw [get_event_agrees_iff id 10 [] _ 5000 1 (by decide +kernel)]
  have hevents : (Trace.run save (start 10 []) [transferSeen 1 1000 2000]).store.events = [transferSeen 1 1000 2000] := rfl
  rw [hevents]
  rintro event hevent -
  rw [List.mem_singleton.1 hevent]
  exact ⟨by decide, rfl, rfl⟩

end EventBackends

end ObsChain
