/-
Bounded retention of the in-memory store (`repository.rs`), over whole runs.

A run is any list of `save_event`, `save_event_observation` and `save_event_metrics` calls on an empty store. An id may be
updated, evicted and saved anew any number of times, so what the store holds is told by the places of the run:

- `EvictedAt k id`: the operation at `k` drops the id;
- `InsertedAt i event`: the save at `i` is the first one of its id since the last eviction of that id;
- `LatestAt j event`: the save at `j` is the last one of its id.

Results:
- `saveEvent_cases`: the three things a save can do to a store within its bound;
- `sound_step`, `residents_snoc`: what one more operation keeps;
- `in_memory_retention`: after any run the store is within its bound with distinct ids, its events stand in the order of
  their insertions, each is its inserting save with title, description and metadata of the latest save, and every eviction
  takes the oldest event with exactly its observations.
-/
import Mathlib.Tactic
import ObsChain.Core.Trace
import ObsChain.Storage.CanonicalSamples

namespace ObsChain.Retention

open InMemoryStorage (Op step)

/-! ## Runs -/

/-- the store after the first `k` operations on an empty one -/
def after (maxEvents : ℕ) (ops : List Op) (k : ℕ) : InMemoryStorage :=
  Trace.run step (InMemoryStorage.empty maxEvents) (ops.take k)

def ids (st : InMemoryStorage) : List Uuid := st.events.map (·.id)

def SavedAt (ops : List Op) (i : ℕ) (event : ChainEvent) : Prop := ∃ stamps, ops[i]? = some (.saveEvent stamps event)

def EvictedAt (maxEvents : ℕ) (ops : List Op) (k : ℕ) (id : Uuid) : Prop :=
  id ∈ ids (after maxEvents ops k) ∧ id ∉ ids (after maxEvents ops (k + 1))

/-- the save at `i` is the first one of its id since the last eviction of that id -/
structure InsertedAt (maxEvents : ℕ) (ops : List Op) (i : ℕ) (event : ChainEvent) : Prop where
  saved : SavedAt ops i event
  kept : ∀ k, i ≤ k → ¬ EvictedAt maxEvents ops k event.id
  first : ∀ j < i, ∀ earlier, SavedAt ops j earlier → earlier.id = event.id →
    ∃ k, j < k ∧ k < i ∧ EvictedAt maxEvents ops k event.id

/-- the save at `j` is the last one of its id -/
def LatestAt (ops : List Op) (j : ℕ) (event : ChainEvent) : Prop :=
  SavedAt ops j event ∧ ∀ k > j, ∀ later, SavedAt ops k later → later.id ≠ event.id

/-- the event, inserted at `i`, holds the fields it should -/
def Resident (maxEvents : ℕ) (ops : List Op) (i : ℕ) (stored : ChainEvent) : Prop :=
  ∃ inserted j latest, InsertedAt maxEvents ops i inserted ∧ LatestAt ops j latest ∧ i ≤ j ∧
    latest.id = inserted.id ∧
    stored = { inserted with
      title := latest.title, description := latest.description, metadata := latest.metadata }

/-- the operation makes room in a full store: the oldest event goes, with its observations and no others -/
def EvictsOldest (st : InMemoryStorage) (o : Op) (id : Uuid) : Prop :=
  ∃ stamps event oldest rest, o = .saveEvent stamps event ∧ st.events = oldest :: rest ∧ oldest.id = id ∧
    st.events.length = st.maxEvents ∧ (step st o).events = rest ++ [event] ∧
    (step st o).eventObservations = st.eventObservations.filter fun obs => obs.eventId ≠ id

/-! ## What one operation can do -/

/-- the stored event after the save -/
def refresh (event e : ChainEvent) : ChainEvent := if e.id = event.id then EventStore.merge e event else e

@[simp] theorem refresh_id (event e : ChainEvent) : (refresh event e).id = e.id := by
  unfold refresh
  split_ifs <;> rfl

/-- events of other ids stay as they are -/
theorem map_refresh_of_ne {event : ChainEvent} {events : List ChainEvent} (h : ∀ e ∈ events, e.id ≠ event.id) :
    events.map (refresh event) = events := by
  calc events.map (refresh event) = events.map id := List.map_congr_left fun e he => if_neg (h e he)
    _ = events := List.map_id events

/-- where ids are distinct, the merge reaches every event of the id -/
theorem mergeInto_eq_map {event : ChainEvent} {events events' : List ChainEvent} (hnodup : (events.map (·.id)).Nodup)
    (h : EventStore.mergeInto event events = some events') : events' = events.map (refresh event) := by
  obtain ⟨before, existing, later, hevents, hevents', hid, -⟩ := EventStore.mergeInto_eq_some h
  rw [hevents, List.map_append, List.map_cons, List.nodup_append] at hnodup
  obtain ⟨-, hlater, hapart⟩ := hnodup
  have hbefore : before.map (refresh event) = before := by
    apply map_refresh_of_ne
    intro e he
    rw [← hid]
    exact hapart e.id (List.mem_map_of_mem he) existing.id List.mem_cons_self
  have hrest : later.map (refresh event) = later := by
    apply map_refresh_of_ne
    intro e he heq
    exact (List.nodup_cons.1 hlater).1 (hid.trans heq.symm ▸ List.mem_map_of_mem he)
  rw [hevents, hevents', List.map_append, List.map_cons, hbefore, hrest]
  simp [refresh, hid]

/-- what every state of a run satisfies -/
structure Sound (st : InMemoryStorage) : Prop where
  capacity : 1 ≤ st.maxEvents
  bounded : st.events.length ≤ st.maxEvents
  nodup : (ids st).Nodup

/-- **A save** updates the event with its id in place, or appends a new one to a store with room, or takes the oldest event
and its observations out of a full store first. -/
theorem saveEvent_cases {st : InMemoryStorage} (h : Sound st) (stamps : ℕ → Uuid × DateTime) (event : ChainEvent) :
    (event.id ∈ ids st ∧ (st.saveEvent stamps event).events = st.events.map (refresh event) ∧
      (st.saveEvent stamps event).eventObservations = st.eventObservations) ∨
    (event.id ∉ ids st ∧ st.events.length < st.maxEvents ∧
      (st.saveEvent stamps event).events = st.events ++ [event] ∧
      (st.saveEvent stamps event).eventObservations = st.eventObservations) ∨
    (event.id ∉ ids st ∧ ∃ oldest rest, st.events = oldest :: rest ∧ st.events.length = st.maxEvents ∧
      (st.saveEvent stamps event).events = rest ++ [event] ∧
      (st.saveEvent stamps event).eventObservations =
        st.eventObservations.filter fun obs => obs.eventId ≠ oldest.id) := by
  obtain ⟨hmax, hlen, hnodup⟩ := h
  rw [InMemoryStorage.toEventStore_saveEvent]
  unfold EventStore.saveEvent
  cases hm : EventStore.mergeInto event st.events with
  | some events' =>
    left
    obtain ⟨before, existing, later, hevents, -, hid, -⟩ := EventStore.mergeInto_eq_some hm
    refine ⟨?_, mergeInto_eq_map hnodup hm, rfl⟩
    unfold ids
    rw [hevents, ← hid]
    simp
  | none =>
    right
    have hnew : event.id ∉ ids st := by
      intro hmem
      obtain ⟨e, he, heq⟩ := List.mem_map.1 hmem
      exact EventStore.mergeInto_eq_none hm e he heq
    by_cases hroom : st.events.length < st.maxEvents
    · left
      have hkeep : st.toEventStore.makeRoom = st.toEventStore := by
        unfold EventStore.makeRoom
        rw [if_neg (by omega)]
      exact ⟨hnew, hroom, by simp [hkeep], by simp [hkeep]⟩
    · right
      cases hl : st.events with
      | nil =>
        rw [hl] at hroom
        simp only [List.length_nil] at hroom
        omega
      | cons oldest rest =>
        have hfull : st.events.length ≥ st.maxEvents := by omega
        have hpop : st.toEventStore.makeRoom =
            { st.toEventStore with
              events := rest
              eventObservations := st.eventObservations.filter fun obs => obs.eventId ≠ oldest.id } := by
          unfold EventStore.makeRoom
          rw [if_pos hfull]
          simp only [hl]
        rw [← hl]
        exact ⟨hnew, oldest, rest, hl, by omega, by simp [hpop], by simp [hpop]⟩

@[simp] theorem step_maxEvents (st : InMemoryStorage) (o : Op) : (step st o).maxEvents = st.maxEvents := by
  cases o with
  | saveEvent stamps event =>
    show (st.saveEvent stamps event).maxEvents = st.maxEvents
    rw [InMemoryStorage.toEventStore_saveEvent]
    unfold EventStore.saveEvent
    cases EventStore.mergeInto event st.events with
    | some events' => rfl
    | none => exact EventStore.makeRoom_maxEvents st.toEventStore
  | saveEventObservation observation => rfl
  | saveEventMetrics metrics => rfl

/-- the saved event is in the store after its save -/
theorem mem_ids_saveEvent (st : InMemoryStorage) (stamps : ℕ → Uuid × DateTime) (event : ChainEvent) :
    event.id ∈ ids (st.saveEvent stamps event) := by
  have hstored : ((st.toEventStore.saveEvent event).stored event.id).isSome := by
    cases h : st.toEventStore.stored event.id with
    | some existing => simp [EventStore.stored_saveEvent_of_some event h]
    | none => simp [EventStore.stored_saveEvent_of_none event h]
  obtain ⟨e, he⟩ := Option.isSome_iff_exists.1 hstored
  unfold ids
  rw [InMemoryStorage.toEventStore_saveEvent]
  have hid : e.id = event.id := by simpa using List.find?_some he
  exact hid ▸ List.mem_map_of_mem (List.mem_of_find?_eq_some he)

/-- only a new event in a full store makes an id go, and then the oldest -/
theorem evictsOldest_of_gone {st : InMemoryStorage} (h : Sound st) {o : Op} {id : Uuid} (hmem : id ∈ ids st)
    (hgone : id ∉ ids (step st o)) : EvictsOldest st o id := by
  cases o with
  | saveEventObservation observation => exact absurd hmem hgone
  | saveEventMetrics metrics => exact absurd hmem hgone
  | saveEvent stamps event =>
    unfold ids at hgone
    rcases saveEvent_cases h stamps event with
      ⟨-, hmap, -⟩ | ⟨-, -, happ, -⟩ | ⟨-, oldest, rest, hcons, hfull, happ, hobs⟩
    · rw [show (step st (.saveEvent stamps event)).events = _ from hmap] at hgone
      simp only [List.map_map, Function.comp_def, refresh_id] at hgone
      exact absurd hmem hgone
    · rw [show (step st (.saveEvent stamps event)).events = _ from happ, List.map_append] at hgone
      exact absurd (List.mem_append_left _ hmem) hgone
    · rw [show (step st (.saveEvent stamps event)).events = _ from happ, List.map_append, List.mem_append, not_or] at hgone
      have hid : oldest.id = id := by
        rw [ids, hcons, List.map_cons, List.mem_cons] at hmem
        exact (hmem.resolve_right hgone.1).symm
      rw [hid] at hobs
      exact ⟨stamps, event, oldest, rest, rfl, hcons, hid, hfull, happ, hobs⟩

/-- a save that drops no id drops no observation -/
theorem observations_kept {st : InMemoryStorage} (h : Sound st) (stamps : ℕ → Uuid × DateTime) (event : ChainEvent)
    (hkept : ∀ id ∈ ids st, id ∈ ids (st.saveEvent stamps event)) :
    (st.saveEvent stamps event).eventObservations = st.eventObservations := by
  rcases saveEvent_cases h stamps event with
    ⟨-, -, hobs⟩ | ⟨-, -, -, hobs⟩ | ⟨hnew, oldest, rest, hcons, -, happ, -⟩
  · exact hobs
  · exact hobs
  · -- the oldest id is neither among the others nor the new one
    have hold : oldest.id ∈ ids st := by simp [ids, hcons]
    have hstill := hkept oldest.id hold
    rw [ids, happ, List.map_append, List.mem_append, List.map_singleton, List.mem_singleton] at hstill
    have hnodup := h.nodup
    rw [ids, hcons, List.map_cons, List.nodup_cons] at hnodup
    rcases hstill with hrest | hsame
    · exact absurd hrest hnodup.1
    · exact absurd (hsame ▸ hold) hnew

/-- **Step.** Every operation keeps the bound and the distinct ids. -/
theorem sound_step {st : InMemoryStorage} (h : Sound st) (o : Op) : Sound (step st o) := by
  refine ⟨by rw [step_maxEvents]; exact h.capacity, ?_, ?_⟩
  · rw [step_maxEvents]
    have hbounded := h.bounded
    cases o with
    | saveEventObservation observation => exact hbounded
    | saveEventMetrics metrics => exact hbounded
    | saveEvent stamps event =>
      show (st.saveEvent stamps event).events.length ≤ st.maxEvents
      rcases saveEvent_cases h stamps event with
        ⟨-, hmap, -⟩ | ⟨-, hroom, happ, -⟩ | ⟨-, oldest, rest, hcons, hfull, happ, -⟩
      · rw [hmap, List.length_map]
        exact hbounded
      · rw [happ, List.length_append, List.length_singleton]
        omega
      · rw [hcons, List.length_cons] at hfull
        rw [happ, List.length_append, List.length_singleton]
        omega
  · cases o with
    | saveEventObservation observation => exact h.nodup
    | saveEventMetrics metrics => exact h.nodup
    | saveEvent stamps event =>
      show ((st.saveEvent stamps event).events.map (·.id)).Nodup
      rw [InMemoryStorage.toEventStore_saveEvent]
      exact EventStore.nodup_saveEvent h.nodup event

/-! ## Places of a run -/

variable {maxEvents : ℕ} {ops : List Op}

theorem after_of_length_le {k : ℕ} (h : ops.length ≤ k) : after maxEvents ops k = after maxEvents ops ops.length := by
  unfold after
  rw [List.take_of_length_le h, List.take_length]

theorem after_succ {k : ℕ} {o : Op} (h : ops[k]? = some o) :
    after maxEvents ops (k + 1) = step (after maxEvents ops k) o := by
  unfold after
  rw [List.take_add_one, h, Trace.run_append]
  rfl

theorem after_snoc (o : Op) {k : ℕ} (h : k ≤ ops.length) : after maxEvents (ops ++ [o]) k = after maxEvents ops k := by
  unfold after
  rw [List.take_append_of_le_length h]

theorem after_snoc_last (o : Op) :
    after maxEvents (ops ++ [o]) (ops.length + 1) = step (after maxEvents ops ops.length) o := by
  rw [after_succ (o := o) (by simp), after_snoc o le_rfl]

/-- **Run.** Every state of a run is within the bound, with distinct ids. -/
theorem sound_after (hmax : 1 ≤ maxEvents) (ops : List Op) (k : ℕ) : Sound (after maxEvents ops k) := by
  have hempty : Sound (InMemoryStorage.empty maxEvents) := ⟨hmax, Nat.zero_le _, List.nodup_nil⟩
  unfold after
  apply Trace.run_inv_all (I := Sound)
  · intro st o h
    exact sound_step h o
  · exact hempty

theorem after_maxEvents (maxEvents : ℕ) (ops : List Op) (k : ℕ) : (after maxEvents ops k).maxEvents = maxEvents := by
  unfold after
  apply Trace.run_inv_all (I := fun st : InMemoryStorage => st.maxEvents = maxEvents)
  · intro st o h
    rw [step_maxEvents, h]
  · rfl

theorem savedAt_snoc {o : Op} {i : ℕ} {event : ChainEvent} :
    SavedAt (ops ++ [o]) i event ↔ SavedAt ops i event ∨ (i = ops.length ∧ ∃ stamps, o = .saveEvent stamps event) := by
  unfold SavedAt
  rcases lt_trichotomy i ops.length with hlt | heq | hgt
  · rw [List.getElem?_append_left hlt]
    simp [hlt.ne]
  · subst heq
    simp
  · rw [List.getElem?_eq_none (by simp; omega), List.getElem?_eq_none hgt.le]
    simp [hgt.ne']

theorem SavedAt.lt {i : ℕ} {event : ChainEvent} (h : SavedAt ops i event) : i < ops.length := by
  obtain ⟨stamps, hget⟩ := h
  exact (List.getElem?_eq_some_iff.1 hget).1

theorem SavedAt.mem_ids {i : ℕ} {event : ChainEvent} (h : SavedAt ops i event) :
    event.id ∈ ids (after maxEvents ops (i + 1)) := by
  obtain ⟨stamps, hget⟩ := h
  rw [after_succ hget]
  exact mem_ids_saveEvent _ stamps event

theorem evictedAt_snoc (o : Op) {k : ℕ} {id : Uuid} (h : k < ops.length) :
    EvictedAt maxEvents (ops ++ [o]) k id ↔ EvictedAt maxEvents ops k id := by
  unfold EvictedAt
  rw [after_snoc o h.le, after_snoc o h]

theorem not_evictedAt_of_length_le {k : ℕ} {id : Uuid} (h : ops.length ≤ k) : ¬ EvictedAt maxEvents ops k id := by
  intro hev
  apply hev.2
  rw [after_of_length_le (h.trans k.le_succ), ← after_of_length_le h]
  exact hev.1

/-- an id that was stored and is no more was evicted in between -/
theorem exists_evictedAt {id : Uuid} {a b : ℕ} (hab : a ≤ b) (ha : id ∈ ids (after maxEvents ops a))
    (hb : id ∉ ids (after maxEvents ops b)) : ∃ k, a ≤ k ∧ k < b ∧ EvictedAt maxEvents ops k id := by
  induction b, hab using Nat.le_induction with
  | base => exact absurd ha hb
  | succ b hab ih =>
    by_cases hmem : id ∈ ids (after maxEvents ops b)
    · exact ⟨b, hab, b.lt_succ_self, hmem, hb⟩
    · obtain ⟨k, hak, hkb, hev⟩ := ih hmem
      exact ⟨k, hak, hkb.trans b.lt_succ_self, hev⟩

/-! ## One more operation -/

/-- an insertion stays one while the id is not evicted -/
theorem InsertedAt.snoc {i : ℕ} {event : ChainEvent} (h : InsertedAt maxEvents ops i event) {o : Op}
    (hkept : event.id ∈ ids (after maxEvents (ops ++ [o]) (ops.length + 1))) :
    InsertedAt maxEvents (ops ++ [o]) i event where
  saved := savedAt_snoc.2 (.inl h.saved)
  kept := by
    intro k hik hev
    rcases lt_trichotomy k ops.length with hlt | heq | hgt
    · exact h.kept k hik ((evictedAt_snoc o hlt).1 hev)
    · exact hev.2 (heq ▸ hkept)
    · exact not_evictedAt_of_length_le (by simp; omega) hev
  first := by
    intro j hj earlier hsaved hid
    have hi := h.saved.lt
    rcases savedAt_snoc.1 hsaved with hold | hlast
    · obtain ⟨k, hjk, hki, hev⟩ := h.first j hj earlier hold hid
      exact ⟨k, hjk, hki, (evictedAt_snoc o (hki.trans hi)).2 hev⟩
    · omega

/-- a save of an id that is not stored is an insertion -/
theorem insertedAt_last (stamps : ℕ → Uuid × DateTime) {event : ChainEvent}
    (hnew : event.id ∉ ids (after maxEvents ops ops.length)) :
    InsertedAt maxEvents (ops ++ [.saveEvent stamps event]) ops.length event where
  saved := savedAt_snoc.2 (.inr ⟨rfl, stamps, rfl⟩)
  kept := by
    intro k hk hev
    rcases hk.eq_or_lt with heq | hgt
    · rw [← heq] at hev
      exact hnew (after_snoc (.saveEvent stamps event) le_rfl ▸ hev.1)
    · exact not_evictedAt_of_length_le (by simp; omega) hev
  first := by
    intro j hj earlier hsaved hid
    have hmem : earlier.id ∈ ids (after maxEvents (ops ++ [.saveEvent stamps event]) (j + 1)) := hsaved.mem_ids
    rw [hid] at hmem
    have hgone : event.id ∉ ids (after maxEvents (ops ++ [.saveEvent stamps event]) ops.length) := by
      rwa [after_snoc _ le_rfl]
    obtain ⟨k, hjk, hk, hev⟩ := exists_evictedAt hj hmem hgone
    exact ⟨k, hjk, hk, hev⟩

theorem latestAt_last (stamps : ℕ → Uuid × DateTime) (event : ChainEvent) :
    LatestAt (ops ++ [.saveEvent stamps event]) ops.length event := by
  refine ⟨savedAt_snoc.2 (.inr ⟨rfl, stamps, rfl⟩), ?_⟩
  intro k hk later hsaved
  have := hsaved.lt
  simp at this
  omega

/-- a save stays the latest while its id is not saved -/
theorem LatestAt.snoc {j : ℕ} {event : ChainEvent} (h : LatestAt ops j event) {o : Op}
    (hother : ∀ stamps later, o = .saveEvent stamps later → later.id ≠ event.id) : LatestAt (ops ++ [o]) j event := by
  refine ⟨savedAt_snoc.2 (.inl h.1), ?_⟩
  intro k hk later hsaved
  rcases savedAt_snoc.1 hsaved with hold | ⟨-, stamps, ho⟩
  · exact h.2 k hk later hold
  · exact hother stamps later ho

theorem Resident.snoc {i : ℕ} {e : ChainEvent} (h : Resident maxEvents ops i e) {o : Op}
    (hkept : e.id ∈ ids (after maxEvents (ops ++ [o]) (ops.length + 1)))
    (hother : ∀ stamps event, o = .saveEvent stamps event → event.id ≠ e.id) : Resident maxEvents (ops ++ [o]) i e := by
  obtain ⟨inserted, j, latest, hins, hlatest, hij, hid, rfl⟩ := h
  refine ⟨inserted, j, latest, hins.snoc hkept, hlatest.snoc ?_, hij, hid, rfl⟩
  intro stamps event ho
  rw [hid]
  exact hother stamps event ho

/-- a save of a stored id leaves the event resident, with the new title, description and metadata -/
theorem Resident.snoc_saved {i : ℕ} {e : ChainEvent} (h : Resident maxEvents ops i e) (stamps : ℕ → Uuid × DateTime)
    {event : ChainEvent} (hid : event.id = e.id) :
    Resident maxEvents (ops ++ [.saveEvent stamps event]) i (EventStore.merge e event) := by
  obtain ⟨inserted, j, latest, hins, hlatest, hij, -, rfl⟩ := h
  have hsame : event.id = inserted.id := hid
  refine ⟨inserted, ops.length, event, hins.snoc ?_, latestAt_last stamps event, hins.saved.lt.le, hsame, rfl⟩
  rw [after_snoc_last, ← hsame]
  exact mem_ids_saveEvent _ stamps event

theorem Resident.lt {i : ℕ} {e : ChainEvent} (h : Resident maxEvents ops i e) : i < ops.length := by
  obtain ⟨inserted, j, latest, hins, -⟩ := h
  exact hins.saved.lt

/-- where each stored event came from, in the order of the store -/
def Residents (maxEvents : ℕ) (ops : List Op) (events : List ChainEvent) : Prop :=
  ∃ rs : List (ℕ × ChainEvent), rs.map (·.2) = events ∧ (rs.map (·.1)).Pairwise (· < ·) ∧
    ∀ r ∈ rs, Resident maxEvents ops r.1 r.2

/-- the residents of a list of events, followed by a new one -/
theorem residents_append {rs : List (ℕ × ChainEvent)} (hsorted : (rs.map (·.1)).Pairwise (· < ·))
    (hres : ∀ r ∈ rs, Resident maxEvents ops r.1 r.2) {stamps : ℕ → Uuid × DateTime} {event : ChainEvent}
    (hnew : event.id ∉ ids (after maxEvents ops ops.length))
    (hold : ∀ r ∈ rs, r.2.id ∈ ids (after maxEvents ops ops.length))
    (hevents : (step (after maxEvents ops ops.length) (.saveEvent stamps event)).events = rs.map (·.2) ++ [event]) :
    Residents maxEvents (ops ++ [.saveEvent stamps event])
      (step (after maxEvents ops ops.length) (.saveEvent stamps event)).events := by
  refine ⟨rs ++ [(ops.length, event)], by rw [hevents]; simp, ?_, ?_⟩
  · rw [List.map_append, List.pairwise_append]
    refine ⟨hsorted, List.pairwise_singleton _ _, ?_⟩
    intro i hi j hj
    obtain ⟨r, hr, rfl⟩ := List.mem_map.1 hi
    obtain rfl : j = ops.length := by simpa using hj
    exact (hres r hr).lt
  · intro r hr
    rcases List.mem_append.1 hr with hr | hlast
    · apply (hres r hr).snoc
      · rw [after_snoc_last, ids, hevents]
        simp only [List.map_append, List.mem_append, List.mem_map]
        exact .inl ⟨r.2, ⟨r, hr, rfl⟩, rfl⟩
      · intro stamps' event' ho heq
        cases ho
        exact hnew (heq ▸ hold r hr)
    · rw [List.mem_singleton.1 hlast]
      exact ⟨event, ops.length, event, insertedAt_last stamps hnew, latestAt_last stamps event, le_rfl, rfl, rfl⟩

/-- **Step.** One more operation keeps, updates, appends or takes away residents, in their order. -/
theorem residents_snoc (hmax : 1 ≤ maxEvents) (h : Residents maxEvents ops (after maxEvents ops ops.length).events)
    (o : Op) : Residents maxEvents (ops ++ [o]) (step (after maxEvents ops ops.length) o).events := by
  obtain ⟨rs, hevents, hsorted, hres⟩ := h
  have hold : ∀ r ∈ rs, r.2.id ∈ ids (after maxEvents ops ops.length) := by
    intro r hr
    rw [ids, ← hevents, List.map_map]
    exact List.mem_map_of_mem hr
  -- an operation that is no save leaves the events alone
  have hframe : (∀ stamps event, o ≠ .saveEvent stamps event) →
      (step (after maxEvents ops ops.length) o).events = (after maxEvents ops ops.length).events →
      Residents maxEvents (ops ++ [o]) (step (after maxEvents ops ops.length) o).events := by
    intro hother hsame
    refine ⟨rs, hevents.trans hsame.symm, hsorted, ?_⟩
    intro r hr
    apply (hres r hr).snoc
    · rw [after_snoc_last, ids, hsame]
      exact hold r hr
    · intro stamps event ho
      exact absurd ho (hother stamps event)
  cases o with
  | saveEventObservation observation => exact hframe (by simp) rfl
  | saveEventMetrics metrics => exact hframe (by simp) rfl
  | saveEvent stamps event =>
    rcases saveEvent_cases (sound_after hmax ops ops.length) stamps event with
      ⟨-, hmap, -⟩ | ⟨hnew, -, happ, -⟩ | ⟨hnew, oldest, rest, hcons, -, happ, -⟩
    · -- the id is stored: the event stays at its place
      refine ⟨rs.map fun r => (r.1, refresh event r.2), ?_, by simpa [Function.comp_def] using hsorted, ?_⟩
      · show _ = (InMemoryStorage.saveEvent stamps _ event).events
        rw [hmap, ← hevents]
        simp
      · intro r' hr'
        obtain ⟨r, hr, rfl⟩ := List.mem_map.1 hr'
        by_cases hid : r.2.id = event.id
        · have := (hres r hr).snoc_saved stamps hid.symm
          simpa [refresh, hid] using this
        · have hkept : r.2.id ∈ ids (after maxEvents (ops ++ [.saveEvent stamps event]) (ops.length + 1)) := by
            rw [after_snoc_last, ids, show (step _ (.saveEvent stamps event)).events = _ from hmap, List.map_map]
            simpa [Function.comp_def, ids] using hold r hr
          have := (hres r hr).snoc hkept (fun stamps' event' ho => by cases ho; exact Ne.symm hid)
          simpa [refresh, hid] using this
    · -- room for a new event
      refine residents_append hsorted hres hnew hold ?_
      rw [hevents]
      exact happ
    · -- the oldest event goes, and its insertion with it
      rw [hcons] at hevents
      cases rs with
      | nil => simp at hevents
      | cons r rs =>
        obtain ⟨-, hrest⟩ := List.cons_eq_cons.1 hevents
        refine residents_append (List.pairwise_cons.1 hsorted).2 (fun r' hr' => hres r' (List.mem_cons_of_mem r hr')) hnew
          (fun r' hr' => hold r' (List.mem_cons_of_mem r hr')) ?_
        rw [hrest]
        exact happ

/-- **Run.** The store holds the residents of the run, in the order of their insertions. -/
theorem residents_run (hmax : 1 ≤ maxEvents) (ops : List Op) :
    Residents maxEvents ops (after maxEvents ops ops.length).events := by
  induction ops using List.reverseRecOn with
  | nil => exact ⟨[], rfl, List.Pairwise.nil, by simp⟩
  | append_singleton ops o ih =>
    rw [List.length_append, List.length_singleton, after_snoc_last]
    exact residents_snoc hmax ih o

/-- **In-memory retention.** After any run the store is within its bound, its ids are distinct, and its events are the
residents of the run in the order of their insertions. Every id that an operation drops was the oldest of a full store,
and goes with its observations and no others; a save that drops no id drops no observation. -/
theorem in_memory_retention (maxEvents : ℕ) (hmax : 1 ≤ maxEvents) (ops : List Op) :
    let st := after maxEvents ops ops.length
    st.events.length ≤ maxEvents ∧ (st.events.map (·.id)).Nodup ∧ Residents maxEvents ops st.events ∧
      ∀ k o, ops[k]? = some o →
        (∀ id, EvictedAt maxEvents ops k id → EvictsOldest (after maxEvents ops k) o id) ∧
        ((∀ id, ¬ EvictedAt maxEvents ops k id) → ∀ stamps event, o = .saveEvent stamps event →
          (after maxEvents ops (k + 1)).eventObservations = (after maxEvents ops k).eventObservations) := by
  obtain ⟨-, hlen, hnodup⟩ := sound_after hmax ops ops.length
  rw [after_maxEvents] at hlen
  refine ⟨hlen, hnodup, residents_run hmax ops, ?_⟩
  intro k o hget
  have hsound := sound_after hmax ops k
  unfold EvictedAt
  rw [after_succ hget]
  refine ⟨?_, ?_⟩
  · intro id hev
    exact evictsOldest_of_gone hsound hev.1 hev.2
  · intro hnone stamps event ho
    rw [ho] at hnone ⊢
    apply observations_kept hsound stamps event
    intro id hmem
    by_contra hgone
    exact hnone id ⟨hmem, hgone⟩

/-- a transfer as one of its saves has it -/
def transferSaved (id : Uuid) (title : String) (detectedAt : DateTime) : ChainEvent :=
  { id := id, eventType := .largeTransfer, severity := .medium, confidence := .verifiedOnChain, title := title,
    description := "", eventTime := 0, firstObservedAt := 0, detectedAt := detectedAt, blockHeight := none,
    blockHash := none, txid := some "tx001", source := none, witnesses := [], observationMode := .live,
    replayJobId := none, metadata := .object [], observations := [] }

/-- one place, an event that is evicted, inserted again and then retitled -/
def evictedAndBack : List Op :=
  [.saveEvent (fun _ => (0, 0)) (transferSaved 1 "first" 10), .saveEvent (fun _ => (0, 0)) (transferSaved 2 "other" 20),
    .saveEvent (fun _ => (0, 0)) (transferSaved 1 "again" 30), .saveEvent (fun _ => (0, 0)) (transferSaved 1 "latest" 40)]

/-- the id holds the time of its second insertion and the title of its latest save -/
theorem in_memory_retention_evicted_and_back :
    (after 1 evictedAndBack 4).events.map (fun e => (e.id, e.title, e.detectedAt)) = [(1, "latest", 30)] ∧
      Residents 1 evictedAndBack (after 1 evictedAndBack 4).events := by
  refine ⟨by decide +kernel, ?_⟩
  obtain ⟨-, -, hres, -⟩ := in_memory_retention 1 le_rfl evictedAndBack
  exact hres

end ObsChain.Retention
