/-
The in-memory event store (`repository.rs`): canonical events with bounded retention.

The events are the `VecDeque`, oldest first. A save of a known id merges three fields into the stored event; a save of a
new id evicts the oldest event when the store is full, with its observations, and appends the new one. The metric rows
that `save_event` also writes are another table, which nothing here reads.
-/
import Mathlib.Tactic
import ObsChain.Core.Upsert
import ObsChain.Domain.Event

namespace ObsChain

structure EventStore where
  events : List ChainEvent
  eventObservations : List EventObservation
  maxEvents : ℕ

namespace EventStore

/-- what an existing event takes over from a later save of the same id -/
def merge (existing event : ChainEvent) : ChainEvent :=
  { existing with title := event.title, description := event.description, metadata := event.metadata }

/-- the merge into the first event with the id, when there is one -/
def mergeInto (event : ChainEvent) : List ChainEvent → Option (List ChainEvent)
  | [] => none
  | existing :: rest =>
    if existing.id = event.id then some (merge existing event :: rest)
    else (mergeInto event rest).map (existing :: ·)

/-- a full store loses its oldest event -/
def makeRoom (st : EventStore) : EventStore :=
  if st.events.length ≥ st.maxEvents then
    match st.events with
    | [] => st
    | popped :: rest =>
      { st with
        events := rest
        eventObservations := st.eventObservations.filter fun o => o.eventId ≠ popped.id }
  else st

def saveEvent (st : EventStore) (event : ChainEvent) : EventStore :=
  match mergeInto event st.events with
  | some events => { st with events := events }
  | none =>
    let st := st.makeRoom
    { st with events := st.events ++ [event] }

/-- the stored event with this id -/
def stored (st : EventStore) (id : Uuid) : Option ChainEvent := st.events.find? fun e => e.id = id

def queryEventsForBaseline (st : EventStore) (eventType : Option EventType) (startHeight endHeight : ℕ) :
    List ChainEvent :=
  st.events.filter fun e =>
    match e.blockHeight with
    | some h =>
      decide (startHeight ≤ h) && decide (h ≤ endHeight) &&
        match eventType with
        | some et => e.eventType == et
        | none => true
    | none => false

/-! ## What a save does to the event it saves -/

theorem mergeInto_find (event : ChainEvent) (events : List ChainEvent) :
    match events.find? (fun e => e.id = event.id) with
    | none => mergeInto event events = none
    | some existing => ∃ events', mergeInto event events = some events' ∧
        events'.find? (fun e => e.id = event.id) = some (merge existing event) := by
  induction events with
  | nil => rfl
  | cons e events ih =>
    by_cases he : e.id = event.id
    · rw [List.find?_cons_of_pos (by simpa using he)]
      refine ⟨merge e event :: events, ?_, ?_⟩
      · simp [mergeInto, he]
      · simp [merge, he]
    · rw [List.find?_cons_of_neg (by simpa using he)]
      cases hf : events.find? (fun e => e.id = event.id) with
      | none =>
        rw [hf] at ih
        simp [mergeInto, he, ih]
      | some existing =>
        rw [hf] at ih
        obtain ⟨events', hm, hfind⟩ := ih
        refine ⟨e :: events', by simp [mergeInto, he, hm], ?_⟩
        rw [List.find?_cons_of_neg (by simpa using he), hfind]

/-- a merge replaces the stored event in its place -/
theorem mergeInto_eq_some {event : ChainEvent} {events events' : List ChainEvent}
    (h : mergeInto event events = some events') :
    ∃ before existing after, events = before ++ existing :: after ∧
      events' = before ++ merge existing event :: after ∧ existing.id = event.id ∧
      events.find? (fun e => e.id = event.id) = some existing := by
  induction events generalizing events' with
  | nil => simp [mergeInto] at h
  | cons e events ih =>
    by_cases he : e.id = event.id
    · rw [mergeInto, if_pos he, Option.some.injEq] at h
      exact ⟨[], e, events, rfl, h.symm, he, by simp [he]⟩
    · rw [mergeInto, if_neg he, Option.map_eq_some_iff] at h
      obtain ⟨rest, hrest, heq⟩ := h
      obtain ⟨before, existing, after, hevents, hrest', hid, hfind⟩ := ih hrest
      refine ⟨e :: before, existing, after, by rw [hevents]; rfl, by rw [← heq, hrest']; rfl, hid, ?_⟩
      rw [List.find?_cons_of_neg (by simpa using he), hfind]

/-- what is not merged has a new id -/
theorem mergeInto_eq_none {event : ChainEvent} {events : List ChainEvent} (h : mergeInto event events = none) :
    ∀ e ∈ events, e.id ≠ event.id := by
  have hfind := mergeInto_find event events
  cases hf : events.find? (fun e => e.id = event.id) with
  | none =>
    intro e he
    simpa using List.find?_eq_none.1 hf e he
  | some existing =>
    rw [hf] at hfind
    obtain ⟨events', hsome, -⟩ := hfind
    rw [h] at hsome
    cases hsome

theorem stored_eq_none {st : EventStore} {event : ChainEvent} (h : mergeInto event st.events = none) :
    st.stored event.id = none := by
  unfold stored
  rw [List.find?_eq_none]
  intro e he
  simpa using mergeInto_eq_none h e he

/-- the part of the store with certain ids merges an event of such an id as the whole does -/
theorem mergeInto_filter {own : Uuid → Bool} {event : ChainEvent} (h : own event.id = true) (events : List ChainEvent) :
    mergeInto event (events.filter fun e => own e.id) = (mergeInto event events).map (List.filter fun e => own e.id) := by
  induction events with
  | nil => rfl
  | cons e events ih =>
    by_cases he : e.id = event.id
    · have hown : own e.id = true := he ▸ h
      have hmerge : own (merge e event).id = true := hown
      simp [mergeInto, he, h, hmerge]
    · by_cases hown : own e.id = true
      · rw [List.filter_cons_of_pos (by simpa using hown), mergeInto, mergeInto, if_neg he, if_neg he, ih]
        cases mergeInto event events with
        | none => rfl
        | some events' => simp [hown]
      · rw [List.filter_cons_of_neg (by simpa using hown), mergeInto, if_neg he, ih]
        cases mergeInto event events with
        | none => rfl
        | some events' => simp [hown]

/-- a known event keeps everything but the merged fields -/
theorem stored_saveEvent_of_some {st : EventStore} (event : ChainEvent) {existing : ChainEvent}
    (h : st.stored event.id = some existing) : (st.saveEvent event).stored event.id = some (merge existing event) := by
  have hm := mergeInto_find event st.events
  unfold stored at h
  rw [h] at hm
  obtain ⟨events', hmerge, hfind⟩ := hm
  simpa [saveEvent, hmerge, stored] using hfind

theorem makeRoom_sublist (st : EventStore) : List.Sublist st.makeRoom.events st.events := by
  unfold makeRoom
  split_ifs
  · cases hl : st.events with
    | nil => simp [hl]
    | cons popped rest => exact List.sublist_cons_self popped rest
  · exact List.Sublist.refl _

theorem makeRoom_events (st : EventStore) :
    st.makeRoom.events = if st.maxEvents ≤ st.events.length then st.events.tail else st.events := by
  unfold makeRoom
  split_ifs
  · cases hl : st.events with
    | nil => exact hl
    | cons popped rest => rfl
  · rfl

@[simp] theorem makeRoom_maxEvents (st : EventStore) : st.makeRoom.maxEvents = st.maxEvents := by
  unfold makeRoom
  split_ifs
  · cases hl : st.events <;> rfl
  · rfl

/-- a new event is stored as it is -/
theorem stored_saveEvent_of_none {st : EventStore} (event : ChainEvent) (h : st.stored event.id = none) :
    (st.saveEvent event).stored event.id = some event := by
  have hm := mergeInto_find event st.events
  unfold stored at h
  rw [h] at hm
  have hroom : st.makeRoom.events.find? (fun e => e.id = event.id) = none := by
    rw [List.find?_eq_none] at h ⊢
    exact fun e he => h e (st.makeRoom_sublist.subset he)
  simp [saveEvent, hm, stored, List.find?_append, hroom]

/-! ## One event per id -/

/-- a merge keeps the ids -/
theorem map_id_mergeInto {event : ChainEvent} {events events' : List ChainEvent}
    (h : mergeInto event events = some events') : events'.map (·.id) = events.map (·.id) := by
  obtain ⟨before, existing, after, hevents, hevents', -⟩ := mergeInto_eq_some h
  rw [hevents, hevents']
  simp [merge]

/-- **Ids stay unique**, through merges, evictions and new events. -/
theorem nodup_saveEvent {st : EventStore} (h : (st.events.map (·.id)).Nodup) (event : ChainEvent) :
    ((st.saveEvent event).events.map (·.id)).Nodup := by
  unfold saveEvent
  cases hm : mergeInto event st.events with
  | some events' =>
    show (events'.map (·.id)).Nodup
    rwa [map_id_mergeInto hm]
  | none =>
    show ((st.makeRoom.events ++ [event]).map (·.id)).Nodup
    have hnew := mergeInto_eq_none hm
    exact nodup_map_concat_of_sublist (fun e : ChainEvent => e.id) st.makeRoom_sublist hnew h

/-- a save records no observation -/
theorem observations_sublist (st : EventStore) (event : ChainEvent) :
    List.Sublist (st.saveEvent event).eventObservations st.eventObservations := by
  unfold saveEvent
  cases hm : mergeInto event st.events with
  | some events' => exact List.Sublist.refl _
  | none =>
    show List.Sublist st.makeRoom.eventObservations st.eventObservations
    unfold makeRoom
    split_ifs
    · cases st.events with
      | nil => exact List.Sublist.refl _
      | cons popped rest => exact List.filter_sublist
    · exact List.Sublist.refl _

/-- the observations of an event stay as long as the event does -/
theorem observation_kept {st : EventStore} (hnodup : (st.events.map (·.id)).Nodup) {event : ChainEvent}
    {o : EventObservation} (ho : o ∈ st.eventObservations)
    (hstored : ((st.saveEvent event).stored o.eventId).isSome) : o ∈ (st.saveEvent event).eventObservations := by
  unfold saveEvent at hstored ⊢
  cases hm : mergeInto event st.events with
  | some events' => exact ho
  | none =>
    rw [hm] at hstored
    have hnew := mergeInto_eq_none hm
    obtain ⟨e, hfind⟩ := Option.isSome_iff_exists.1 hstored
    have hid : e.id = o.eventId := by simpa using List.find?_some hfind
    have hmem : e ∈ st.makeRoom.events ++ [event] := List.mem_of_find?_eq_some hfind
    show o ∈ st.makeRoom.eventObservations
    unfold makeRoom at hmem ⊢
    by_cases hfull : st.events.length ≥ st.maxEvents
    · rw [if_pos hfull] at hmem ⊢
      cases hl : st.events with
      | nil => exact ho
      | cons popped rest =>
        rw [hl] at hmem hnodup hnew
        rw [List.map_cons, List.nodup_cons] at hnodup
        refine List.mem_filter.2 ⟨ho, ?_⟩
        rw [decide_eq_true_eq, ← hid]
        intro heq
        rcases List.mem_append.1 hmem with hrest | hlast
        · exact hnodup.1 (heq ▸ List.mem_map_of_mem hrest)
        · rw [List.mem_singleton.1 hlast] at heq
          exact hnew popped List.mem_cons_self heq.symm
    · rw [if_neg hfull]
      exact ho

/-- a stored event with a height is found in every window around it -/
theorem mem_queryEventsForBaseline {st : EventStore} {id : Uuid} {e : ChainEvent} {h : ℕ}
    (hs : st.stored id = some e) (hh : e.blockHeight = some h) {a b : ℕ} (ha : a ≤ h) (hb : h ≤ b) :
    e ∈ st.queryEventsForBaseline none a b := by
  unfold queryEventsForBaseline
  rw [List.mem_filter]
  exact ⟨List.mem_of_find?_eq_some hs, by simp [hh, ha, hb]⟩

end EventStore

end ObsChain
