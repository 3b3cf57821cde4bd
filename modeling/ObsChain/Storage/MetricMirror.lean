/-
Does the metric table mirror the event store?

`save_event` has three ways through: an update of a stored event returns after the merge, a new event in a full store evicts
the oldest one first, and only the last way extracts metrics. An update that changes what is extracted leaves the old rows,
and an eviction takes the observations of the event but not its rows.

`Mirror`: the rows, without ids and creation times, are the records that `extract_event_metrics` finds on the stored events.

- `mirror_save_iff`: from a mirror, one save leaves a mirror exactly when it is `Restoring`.
- `metric_table_mirrors_iff`: so every state of a run is a mirror exactly when every save of it is restoring.
- `corrected_amount_keeps_old_row`: one update of an event's metadata.
-/
import Mathlib.Tactic
import ObsChain.Core.Trace
import ObsChain.Core.Upsert
import ObsChain.Storage.InMemory
import ObsChain.Storage.RankPopulation

namespace ObsChain.InMemoryStorage

open EventMetricExtractor

/-- the record is extracted from one of the events -/
def FromStored (events : List ChainEvent) (c : MetricContent) : Prop := ∃ e ∈ events, c ∈ metricContents e none

/-- the record is a row of the table, under some id and creation time -/
def Recorded (st : InMemoryStorage) (c : MetricContent) : Prop := ∃ m ∈ st.eventMetrics, m.toMetricContent = c

/-- the rows of the table are the records of the stored events -/
def Mirror (st : InMemoryStorage) : Prop := ∀ c, st.Recorded c ↔ FromStored st.events c

/-- the condition on a save: an update leaves the records of its event as they are, and no event with records is evicted -/
def Restoring (st : InMemoryStorage) (s : Save) : Prop :=
  match st.stored s.2.id with
  | some existing => ∀ c, c ∈ metricContents (EventStore.merge existing s.2) none ↔ c ∈ metricContents existing none
  | none => st.events.length < st.maxEvents ∨ ∀ oldest ∈ st.events.head?, Unmeasured oldest

/-! ## Records and their events -/

/-- with one event per id, a record of an event's id is the event's own -/
theorem FromStored.own {events : List ChainEvent} (hnodup : (events.map (·.id)).Nodup) {c : MetricContent}
    (h : FromStored events c) {e : ChainEvent} (he : e ∈ events) (hid : c.eventId = e.id) : c ∈ metricContents e none := by
  obtain ⟨e', he', hc⟩ := h
  have hsame : e' = e := by
    apply List.inj_on_of_nodup_map hnodup he' he
    rw [← eventId_of_mem_metricContents hc, hid]
  rwa [← hsame]

theorem fromStored_append {events events' : List ChainEvent} {c : MetricContent} :
    FromStored (events ++ events') c ↔ FromStored events c ∨ FromStored events' c := by
  simp only [FromStored, List.mem_append]
  constructor
  · rintro ⟨e, he | he, hc⟩
    · exact Or.inl ⟨e, he, hc⟩
    · exact Or.inr ⟨e, he, hc⟩
  · rintro (⟨e, he, hc⟩ | ⟨e, he, hc⟩)
    · exact ⟨e, Or.inl he, hc⟩
    · exact ⟨e, Or.inr he, hc⟩

/-- two lists with the same ids that differ in one event have the same records exactly when it does -/
theorem fromStored_replace_iff {before after : List ChainEvent} {existing : ChainEvent} (new : ChainEvent)
    (hnodup : ((before ++ existing :: after).map (·.id)).Nodup) (hid : new.id = existing.id) :
    (∀ c, FromStored (before ++ existing :: after) c ↔ FromStored (before ++ new :: after) c) ↔
      ∀ c, c ∈ metricContents new none ↔ c ∈ metricContents existing none := by
  have hnodup' : ((before ++ new :: after).map (·.id)).Nodup := by
    simpa [hid] using hnodup
  constructor
  · intro h c
    constructor
    · intro hc
      have hex := (h c).2 ⟨new, List.mem_append_right _ List.mem_cons_self, hc⟩
      apply hex.own hnodup (List.mem_append_right _ List.mem_cons_self)
      rw [eventId_of_mem_metricContents hc, hid]
    · intro hc
      have hnew := (h c).1 ⟨existing, List.mem_append_right _ List.mem_cons_self, hc⟩
      apply hnew.own hnodup' (List.mem_append_right _ List.mem_cons_self)
      rw [eventId_of_mem_metricContents hc, hid]
  · intro h c
    simp only [FromStored, List.mem_append, List.mem_cons]
    constructor
    · rintro ⟨e, hb | rfl | ha, hc⟩
      · exact ⟨e, Or.inl hb, hc⟩
      · exact ⟨new, Or.inr (Or.inl rfl), (h c).2 hc⟩
      · exact ⟨e, Or.inr (Or.inr ha), hc⟩
    · rintro ⟨e, hb | rfl | ha, hc⟩
      · exact ⟨e, Or.inl hb, hc⟩
      · exact ⟨existing, Or.inr (Or.inl rfl), (h c).1 hc⟩
      · exact ⟨e, Or.inr (Or.inr ha), hc⟩

/-! ## One save -/

variable {st : InMemoryStorage}

/-- the rows of a new event are appended, since the table has none of its id -/
theorem recorded_new (hmirror : st.Mirror) {event : ChainEvent} (hnew : ∀ e ∈ st.events, e.id ≠ event.id)
    (stamps : ℕ → Uuid × DateTime) (c : MetricContent) :
    (st.saveEventMetrics (extractEventMetrics stamps event none)).Recorded c ↔
      st.Recorded c ∨ c ∈ metricContents event none := by
  have happend : (st.saveEventMetrics (extractEventMetrics stamps event none)).eventMetrics =
      st.eventMetrics ++ extractEventMetrics stamps event none := by
    apply eventMetrics_of_new
    intro r hr
    obtain ⟨e, he, hrow⟩ := (hmirror r.toMetricContent).1 ⟨r, hr, rfl⟩
    have hid : r.eventId = e.id := eventId_of_mem_metricContents hrow
    rw [hid]
    exact hnew e he
  rw [← extractEventMetrics_contents stamps event none]
  simp only [Recorded, happend, List.mem_append, List.mem_map]
  constructor
  · rintro ⟨m, hm | hm, heq⟩
    · exact Or.inl ⟨m, hm, heq⟩
    · exact Or.inr ⟨m, hm, heq⟩
  · rintro (⟨m, hm, heq⟩ | ⟨m, hm, heq⟩)
    · exact ⟨m, Or.inl hm, heq⟩
    · exact ⟨m, Or.inr hm, heq⟩

/-- what an eviction takes from the records: those of the oldest event -/
theorem fromStored_makeRoom_iff {store : EventStore} (hnodup : (store.events.map (·.id)).Nodup) {event : ChainEvent}
    (hnew : ∀ e ∈ store.events, e.id ≠ event.id) :
    (∀ c, FromStored store.events c → FromStored (store.makeRoom.events ++ [event]) c) ↔
      (store.events.length < store.maxEvents ∨ ∀ oldest ∈ store.events.head?, Unmeasured oldest) := by
  rw [EventStore.makeRoom_events]
  by_cases hfull : store.maxEvents ≤ store.events.length
  · rw [if_pos hfull]
    cases hl : store.events with
    | nil => simp [FromStored]
    | cons oldest rest =>
      rw [hl] at hnodup hnew
      constructor
      · intro h
        right
        rintro e he
        cases he
        apply List.eq_nil_iff_forall_not_mem.2
        intro c hc
        have hid := eventId_of_mem_metricContents hc
        -- the record would be of the rest or of the new event, which have other ids
        obtain ⟨e, he, hrec⟩ := h c ⟨oldest, List.mem_cons_self, hc⟩
        rw [eventId_of_mem_metricContents hrec] at hid
        rcases List.mem_append.1 he with hrest | hlast
        · rw [List.map_cons, List.nodup_cons] at hnodup
          exact hnodup.1 (hid ▸ List.mem_map_of_mem hrest)
        · rw [List.mem_singleton.1 hlast] at hid
          exact hnew oldest List.mem_cons_self hid.symm
      · rintro (hlt | hun) c ⟨e, he, hc⟩
        · rw [hl] at hfull
          omega
        · rcases List.mem_cons.1 he with rfl | hrest
          · have hnil : metricContents e none = [] := hun e rfl
            rw [hnil] at hc
            cases hc
          · exact ⟨e, List.mem_append_left _ hrest, hc⟩
  · rw [if_neg hfull]
    refine ⟨fun _ => Or.inl (by omega), fun _ c hc => ?_⟩
    exact fromStored_append.2 (Or.inl hc)

/-- **One save.** From a mirror with one event per id, a save leaves a mirror exactly when it is restoring. -/
theorem mirror_save_iff (hnodup : (st.events.map (·.id)).Nodup) (hmirror : st.Mirror) (s : Save) :
    (st.save s).Mirror ↔ st.Restoring s := by
  obtain ⟨stamps, event⟩ := s
  unfold Restoring save saveEvent
  cases hm : EventStore.mergeInto event st.events with
  | some events' =>
    obtain ⟨before, existing, after, hevents, hevents', hid, hfind⟩ := EventStore.mergeInto_eq_some hm
    have hstored : st.stored event.id = some existing := hfind
    rw [hevents] at hnodup
    have hreplace := fromStored_replace_iff (EventStore.merge existing event) hnodup rfl
    rw [← hevents, ← hevents'] at hreplace
    rw [hstored]
    refine Iff.trans ?_ hreplace
    -- the rows stay, so the records have to
    simp only [Mirror, EventStore.saveEvent, hm]
    refine forall_congr' fun c => ?_
    have hrows : Recorded { st with events := events' } c ↔ FromStored st.events c := hmirror c
    rw [hrows]
  | none =>
    have hnew := EventStore.mergeInto_eq_none hm
    rw [EventStore.stored_eq_none hm]
    refine Iff.trans ?_ (fromStored_makeRoom_iff hnodup hnew)
    simp only [Mirror, EventStore.saveEvent, hm]
    constructor
    · intro h c hc
      exact (h c).1 ((recorded_new hmirror hnew stamps c).2 (Or.inl ((hmirror c).2 hc)))
    · intro h c
      refine Iff.trans (recorded_new hmirror hnew stamps c) ⟨?_, ?_⟩
      · rintro (hold | hown)
        · exact h c ((hmirror c).1 hold)
        · exact ⟨event, List.mem_append_right _ List.mem_cons_self, hown⟩
      · rintro ⟨e, he, hc⟩
        rcases List.mem_append.1 he with hrest | hlast
        · exact Or.inl ((hmirror c).2 ⟨e, st.makeRoom_sublist.subset hrest, hc⟩)
        · rw [List.mem_singleton.1 hlast] at hc
          exact Or.inr hc

/-- **The metric table mirrors the event store, exactly along restoring saves.** From the empty store, in every state of a
run the rows of the table are the records of the stored events, if and only if no update of the run changes the records
of its event and no save evicts an event that has records. -/
theorem metric_table_mirrors_iff (maxEvents : ℕ) (saves : List Save) :
    Trace.Always save Mirror (empty maxEvents) saves ↔ Trace.Steps save Restoring (empty maxEvents) saves := by
  have hids : ∀ (st : InMemoryStorage) (s : Save), (st.events.map (·.id)).Nodup → ((st.save s).events.map (·.id)).Nodup := by
    intro st s h
    rw [save, toEventStore_saveEvent]
    exact EventStore.nodup_saveEvent h s.2
  have hempty : (empty maxEvents).Mirror := by
    intro c
    simp [Recorded, FromStored, empty]
  exact Trace.always_iff_steps_inv (J := fun st => (st.events.map (·.id)).Nodup) (E := fun _ _ => True) hids
    (fun _ s h _ hmirror => mirror_save_iff h hmirror s) (Trace.steps_of_mem fun _ _ => trivial) List.nodup_nil hempty

/-- a transfer is saved, and saved again with the amount corrected -/
def amountCorrected : List Save := [saveOf (transferEvent 1 "seen" 100), saveOf (transferEvent 1 "seen" 200)]

/-- **The row of the old amount stays.** The stored event has the new amount, the table the old one. -/
theorem corrected_amount_keeps_old_row :
    ((Trace.run save (empty 10) amountCorrected).eventMetrics.map fun m => (m.metric, m.value)) =
        [(.valueSats, .u64 100)] ∧
      ((Trace.run save (empty 10) amountCorrected).events.flatMap fun e =>
        (metricContents e none).map fun c => (c.metric, c.value)) = [(.valueSats, .u64 200)] ∧
      ¬ (Trace.run save (empty 10) amountCorrected).Mirror := by
  have hrows : ((Trace.run save (empty 10) amountCorrected).eventMetrics.map fun m => (m.metric, m.value)) =
      [(.valueSats, .u64 100)] := by
    decide +kernel
  have hrecords : ((Trace.run save (empty 10) amountCorrected).events.flatMap fun e =>
      (metricContents e none).map fun c => (c.metric, c.value)) = [(.valueSats, .u64 200)] := by
    decide +kernel
  refine ⟨hrows, hrecords, fun hmirror => ?_⟩
  have hmem : (BaselineMetric.valueSats, MetricValue.u64 100) ∈
      (Trace.run save (empty 10) amountCorrected).eventMetrics.map fun m => (m.metric, m.value) := by
    rw [hrows]
    exact List.mem_singleton_self _
  obtain ⟨m, hm, heq⟩ := List.mem_map.1 hmem
  obtain ⟨e, he, hc⟩ := (hmirror m.toMetricContent).1 ⟨m, hm, rfl⟩
  have hold : (BaselineMetric.valueSats, MetricValue.u64 100) ∈
      (Trace.run save (empty 10) amountCorrected).events.flatMap fun e =>
        (metricContents e none).map fun c => (c.metric, c.value) :=
    List.mem_flatMap.2 ⟨e, he, List.mem_map.2 ⟨m.toMetricContent, hc, heq⟩⟩
  rw [hrecords] at hold
  simp at hold

end ObsChain.InMemoryStorage
