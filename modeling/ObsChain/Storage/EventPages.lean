/-
Reading the events page by page (`list_events_handler` of `api.rs`, `query_events`, `save_event` and
`save_event_observation` of `repository.rs`).

A page is a part of the matches, newest first, given by how many to skip. A client asks for one page after the other, and
between two requests the worker saves events and observations, which moves the matches: a new event puts all of them one
further, a known one is merged in its place, a full store loses the oldest, and an observation can make an older event match.
No match ever comes nearer to the start, so what the pages have not reached yet is not skipped.

Model: `PagesStep` is one save or one request, in any order; `Pages` is the storage and the client, which stops when a page is
not full.

- `sublist_saveEvent`, `sublist_saveEventObservation`: what a save does to the matches in front of a stored event.
- `paging_complete` (**main result**): a client that has come to the end was given every event that matched when it began
  and was not evicted since.

An observation that replaces another is of the same event, mode and job (`Lasting`); else events could cease to match.
-/
import Mathlib.Tactic
import ObsChain.Core.Trace
import ObsChain.Storage.EventQuery

namespace ObsChain

/-- the size of a page -/
def EventFilter.pageLimit (query : EventFilter) : ℕ := max 1 (min (query.limit.getD 50) 100)

/-- the filter of a request -/
def EventFilter.ofRequest (query : EventFilter) : EventFilter :=
  { query with limit := some query.pageLimit, offset := some (query.offset.getD 0) }

/-- the events of an answer -/
def EventStore.listEventsHandler (st : EventStore) (query : EventFilter) : List ChainEvent := st.queryEvents query.ofRequest

/-- the ids of the matches, newest first -/
def EventStore.matchedIds (st : EventStore) (query : EventFilter) : List Uuid := (st.matchedEvents query).map (·.id)

/-- a client that pages through the matches of a query -/
structure Pages where
  storage : InMemoryStorage
  offset : ℕ
  seen : List Uuid
  done : Bool

inductive PagesStep where
  | save (stamps : ℕ → Uuid × DateTime) (event : ChainEvent)
  | observe (observation : EventObservation)
  | page

namespace Pages

def start (storage : InMemoryStorage) : Pages := ⟨storage, 0, [], false⟩

def step (query : EventFilter) (s : Pages) : PagesStep → Pages
  | .save stamps event => { s with storage := s.storage.saveEvent stamps event }
  | .observe observation => { s with storage := s.storage.saveEventObservation observation }
  -- the next page, and the end where it is not full
  | .page =>
    let events := s.storage.listEventsHandler { query with offset := some s.offset }
    { s with
      offset := s.offset + query.pageLimit
      seen := s.seen ++ events.map (·.id)
      done := s.done || decide (events.length < query.pageLimit) }

/-- an observation replaces only one of the same event, mode and job -/
def Lasting (s : Pages) : PagesStep → Prop
  | .observe observation => ∀ o ∈ s.storage.eventObservations, InMemoryStorage.sameObservation observation o = true →
      o.eventId = observation.eventId ∧ o.mode = observation.mode ∧ o.replayJobId = observation.replayJobId
  | _ => True

end Pages

/-! ## What a page holds -/

namespace EventStore

variable {st : EventStore} {query : EventFilter} {i : Uuid} {front : List Uuid}

/-- a page is the part of the matches that begins at its offset -/
theorem map_listEventsHandler (st : EventStore) (query : EventFilter) (offset : ℕ) :
    (st.listEventsHandler { query with offset := some offset }).map (·.id) =
      ((st.matchedIds query).drop offset).take query.pageLimit := by
  have hlimit : max 1 (min query.pageLimit 1000) = query.pageLimit := by
    unfold EventFilter.pageLimit
    omega
  have hmatched : st.matchedEvents ({ query with offset := some offset } : EventFilter).ofRequest =
      st.matchedEvents query := rfl
  have hpage : ({ query with offset := some offset } : EventFilter).pageLimit = query.pageLimit := rfl
  unfold listEventsHandler queryEvents matchedIds
  rw [hmatched, ← List.map_drop, ← List.map_take]
  simp only [EventFilter.ofRequest, Option.getD_some, hpage, hlimit]

/-! ## What a save does to the matches -/

/-- a merge changes nothing that a filter reads -/
theorem admits_merge (query : EventFilter) (observations : List EventObservation) (existing event : ChainEvent) :
    query.admits observations (merge existing event) = query.admits observations existing := rfl

theorem matchedIds_merge {event : ChainEvent} {events : List ChainEvent} (h : mergeInto event st.events = some events) :
    ({ st with events := events } : EventStore).matchedIds query = st.matchedIds query := by
  obtain ⟨before, existing, after, hevents, hevents', -, -⟩ := mergeInto_eq_some h
  unfold matchedIds matchedEvents
  rw [hevents, hevents']
  simp only [List.reverse_append, List.reverse_cons, List.filter_append, List.map_append, List.append_assoc]
  congr 2
  by_cases hadmits : query.admits st.eventObservations existing = true
  · rw [List.filter_cons_of_pos hadmits, List.filter_cons_of_pos ((admits_merge query _ existing event).trans hadmits)]
    rfl
  · rw [List.filter_cons_of_neg hadmits, List.filter_cons_of_neg (by rwa [admits_merge])]

/-- other events' observations are not read -/
theorem admits_forget (query : EventFilter) (observations : List EventObservation) {e : ChainEvent} {id : Uuid}
    (h : e.id ≠ id) :
    query.admits (observations.filter fun o => o.eventId ≠ id) e = query.admits observations e := by
  have hany : ∀ P : EventObservation → Bool,
      ((observations.filter fun o => o.eventId ≠ id).any fun o => o.eventId == e.id && P o) =
        observations.any fun o => o.eventId == e.id && P o := by
    intro P
    rw [List.any_filter]
    congr 1
    funext o
    by_cases ho : o.eventId = e.id
    · simp [ho, h]
    · simp [ho]
  simp only [EventFilter.admits, hany]

/-- a match is stored -/
theorem mem_events_of_mem_matchedIds (h : i ∈ st.matchedIds query) : i ∈ st.events.map (·.id) := by
  obtain ⟨e, he, rfl⟩ := List.mem_map.1 h
  exact List.mem_map_of_mem (List.mem_reverse.1 (List.mem_of_mem_filter he))

/-- what ends in an id that the rest does not have ends before the rest -/
theorem sublist_of_append {l rest : List Uuid} (h : List.Sublist (front ++ [i]) (l ++ rest)) (hi : i ∉ rest) :
    List.Sublist (front ++ [i]) l := by
  obtain ⟨first, second, heq, hfirst, hsecond⟩ := List.sublist_append_iff.1 h
  rcases List.eq_nil_or_concat second with rfl | ⟨init, last, rfl⟩
  · rw [List.append_nil] at heq
    exact heq ▸ hfirst
  · rw [List.concat_eq_append, ← List.append_assoc] at heq
    obtain ⟨-, hlast⟩ := List.append_inj' heq rfl
    rw [List.singleton_inj.1 hlast] at hi
    exact absurd (hsecond.subset (by simp)) hi

/-- the oldest event leaves at the end -/
theorem sublist_makeRoom (hnodup : (st.events.map (·.id)).Nodup) (hstored : i ∈ st.makeRoom.events.map (·.id))
    (h : List.Sublist (front ++ [i]) (st.matchedIds query)) : List.Sublist (front ++ [i]) (st.makeRoom.matchedIds query) := by
  unfold makeRoom at hstored ⊢
  by_cases hfull : st.events.length ≥ st.maxEvents
  · rw [if_pos hfull] at hstored ⊢
    unfold matchedIds matchedEvents at h
    cases hl : st.events with
    | nil =>
      rw [hl] at h
      simp at h
    | cons popped rest =>
      rw [hl] at h hnodup hstored
      rw [List.map_cons, List.nodup_cons] at hnodup
      have hrest : ∀ e ∈ rest.reverse, query.admits (st.eventObservations.filter fun o => o.eventId ≠ popped.id) e =
          query.admits st.eventObservations e := by
        intro e he
        apply admits_forget
        rintro heq
        exact hnodup.1 (heq ▸ List.mem_map_of_mem (List.mem_reverse.1 he))
      have hi : i ∉ (([popped].filter (query.admits st.eventObservations)).map (·.id)) := by
        intro hmem
        obtain ⟨e, he, rfl⟩ := List.mem_map.1 hmem
        rw [List.mem_singleton.1 (List.mem_of_mem_filter he)] at hstored
        exact hnodup.1 hstored
      rw [List.reverse_cons, List.filter_append, List.map_append] at h
      have hkept := sublist_of_append h hi
      rw [← List.filter_congr hrest] at hkept
      exact hkept
  · rw [if_neg hfull]
    exact h

/-- an event that is stored after a new one was saved was not evicted for it -/
theorem mem_makeRoom_of_stored {event : ChainEvent} (hnew : ∀ e ∈ st.events, e.id ≠ event.id) (hi : i ∈ st.events.map (·.id))
    (hstored : (({ st.makeRoom with events := st.makeRoom.events ++ [event] } : EventStore).stored i).isSome) :
    i ∈ st.makeRoom.events.map (·.id) := by
  obtain ⟨e, hfind⟩ := Option.isSome_iff_exists.1 hstored
  have hmem : e ∈ st.makeRoom.events ++ [event] := List.mem_of_find?_eq_some hfind
  have hid : e.id = i := by simpa using List.find?_some hfind
  rcases List.mem_append.1 hmem with hkept | hlast
  · exact hid ▸ List.mem_map_of_mem hkept
  · rw [List.mem_singleton.1 hlast] at hid
    obtain ⟨old, hold, hsame⟩ := List.mem_map.1 hi
    exact absurd (hsame.trans hid.symm) (hnew old hold)

/-- **A save** leaves an event that stays stored at least as many matches in front. -/
theorem sublist_saveEvent (hnodup : (st.events.map (·.id)).Nodup) (event : ChainEvent)
    (hstored : ((st.saveEvent event).stored i).isSome) (h : List.Sublist (front ++ [i]) (st.matchedIds query)) :
    List.Sublist (front ++ [i]) ((st.saveEvent event).matchedIds query) := by
  unfold saveEvent at hstored ⊢
  cases hm : mergeInto event st.events with
  | some events => exact (matchedIds_merge hm).symm ▸ h
  | none =>
    rw [hm] at hstored
    have hi : i ∈ st.events.map (·.id) := mem_events_of_mem_matchedIds (h.subset (by simp))
    have hkept := sublist_makeRoom hnodup (mem_makeRoom_of_stored (mergeInto_eq_none hm) hi hstored) h
    have hgrow : List.Sublist (st.makeRoom.matchedIds query)
        (({ st.makeRoom with events := st.makeRoom.events ++ [event] } : EventStore).matchedIds query) := by
      unfold matchedIds matchedEvents
      rw [List.reverse_append]
      exact ((List.sublist_append_right _ _).filter _).map _
    exact hkept.trans hgrow

end EventStore

namespace InMemoryStorage

variable {st : InMemoryStorage} {query : EventFilter} {observation : EventObservation}

/-- an observation that lasts is there after a save, as it was or replaced -/
theorem any_saveEventObservation
    (hlasting : ∀ o ∈ st.eventObservations, sameObservation observation o = true →
      o.eventId = observation.eventId ∧ o.mode = observation.mode ∧ o.replayJobId = observation.replayJobId)
    {P : EventObservation → Bool}
    (hP : ∀ o o' : EventObservation, o.eventId = o'.eventId → o.mode = o'.mode → o.replayJobId = o'.replayJobId → P o = P o')
    (h : st.eventObservations.any P = true) : (st.saveEventObservation observation).eventObservations.any P = true := by
  obtain ⟨o, ho, hPo⟩ := List.any_eq_true.1 h
  apply List.any_eq_true.2
  cases hsame : sameObservation observation o with
  | false => exact ⟨o, mem_upsert_of_not ho hsame, hPo⟩
  | true =>
    obtain ⟨hevent, hmode, hjob⟩ := hlasting o ho hsame
    exact ⟨observation, mem_upsert_self _ _ _, hP o observation hevent hmode hjob ▸ hPo⟩

/-- **An observation** that replaces only its like makes no event cease to match. -/
theorem sublist_saveEventObservation
    (hlasting : ∀ o ∈ st.eventObservations, sameObservation observation o = true →
      o.eventId = observation.eventId ∧ o.mode = observation.mode ∧ o.replayJobId = observation.replayJobId) :
    List.Sublist (st.matchedIds query) ((st.saveEventObservation observation).matchedIds query) := by
  unfold EventStore.matchedIds EventStore.matchedEvents
  refine List.Sublist.map _ (List.monotone_filter_right st.events.reverse ?_)
  intro e hadmits
  have hmode : ∀ mode, (st.eventObservations.any fun o => o.eventId == e.id && o.mode == mode) = true →
      ((st.saveEventObservation observation).eventObservations.any fun o => o.eventId == e.id && o.mode == mode) = true :=
    fun mode => any_saveEventObservation hlasting (fun o o' hevent hsame _ => by rw [hevent, hsame])
  have hjob : ∀ jobId, (st.eventObservations.any fun o => o.eventId == e.id && o.replayJobId == some jobId) = true →
      ((st.saveEventObservation observation).eventObservations.any fun o =>
        o.eventId == e.id && o.replayJobId == some jobId) = true :=
    fun jobId => any_saveEventObservation hlasting (fun o o' hevent _ hsame => by rw [hevent, hsame])
  simp only [EventFilter.admits, Bool.and_eq_true, Option.all_eq_true, Bool.or_eq_true] at hadmits ⊢
  obtain ⟨⟨⟨⟨⟨⟨⟨⟨⟨hfrom, hto⟩, hsince⟩, huntil⟩, htype⟩, hseverity⟩, hobserved⟩, hreplayed⟩, htxid⟩, hblock⟩ := hadmits
  refine ⟨⟨⟨⟨⟨⟨⟨⟨⟨hfrom, hto⟩, hsince⟩, huntil⟩, htype⟩, hseverity⟩, ?_⟩, ?_⟩, htxid⟩, hblock⟩
  · intro mode hm
    exact (hobserved mode hm).imp_left (hmode mode)
  · intro jobId hj
    exact (hreplayed jobId hj).imp_left (hjob jobId)

end InMemoryStorage

/-! ## The client -/

namespace Pages

variable {query : EventFilter} {i : Uuid}

/-- the client has the event, or the event is among the matches that it has yet to reach -/
structure Ahead (query : EventFilter) (i : Uuid) (s : Pages) : Prop where
  nodup : (s.storage.events.map (·.id)).Nodup
  ahead : i ∈ s.seen ∨ s.done = false ∧
    ∃ front, List.Sublist (front ++ [i]) (s.storage.matchedIds query) ∧ s.offset ≤ front.length

/-- a page has the event, or is full and ends before it -/
theorem ahead_page {s : Pages} (h : Ahead query i s) : Ahead query i (step query s .page) := by
  have hpage := s.storage.map_listEventsHandler query s.offset
  refine ⟨h.nodup, ?_⟩
  rcases h.ahead with hseen | ⟨hdone, front, hfront, hoffset⟩
  · exact .inl (List.mem_append_left _ hseen)
  obtain ⟨before, rest, hids, hbefore, hi⟩ := List.append_sublist_iff.1 hfront
  obtain ⟨middle, after, hrest⟩ := List.append_of_mem (List.singleton_sublist.1 hi)
  have hsplit : s.storage.matchedIds query = (before ++ middle) ++ i :: after := by
    rw [hids, hrest, List.append_assoc]
  have hposition : s.offset ≤ (before ++ middle).length := by
    calc s.offset ≤ front.length := hoffset
      _ ≤ before.length := hbefore.length_le
      _ ≤ (before ++ middle).length := by simp
  rw [hsplit, List.drop_append_of_le_length hposition] at hpage
  by_cases hreached : (before ++ middle).length < s.offset + query.pageLimit
  · refine .inl (List.mem_append_right _ ?_)
    rw [hpage]
    apply List.mem_take_iff_getElem.2
    refine ⟨(before ++ middle).length - s.offset, ?_, ?_⟩
    · simp only [List.length_append, List.length_drop, List.length_cons] at hreached hposition ⊢
      omega
    · rw [List.getElem_append_right (by simp)]
      simp
  · refine .inr ⟨?_, before ++ middle, ?_, not_lt.1 hreached⟩
    · -- a full page
      have hfull := congrArg List.length hpage
      have hlength : (List.drop s.offset (before ++ middle) ++ i :: after).length ≥ query.pageLimit := by
        rw [List.length_append, List.length_drop, List.length_cons]
        omega
      rw [List.length_map, List.length_take, min_eq_left hlength] at hfull
      have hnot : ¬ (s.storage.listEventsHandler { query with offset := some s.offset }).length < query.pageLimit := by
        omega
      simp only [step, hdone, Bool.false_or, decide_eq_false_iff_not]
      exact hnot
    · show List.Sublist _ (s.storage.matchedIds query)
      rw [hsplit]
      exact List.Sublist.append (List.Sublist.refl _) (List.singleton_sublist.2 List.mem_cons_self)

/-- **Nothing is skipped** by a step, as long as the event is stored. -/
theorem ahead_step {s : Pages} {o : PagesStep} (h : Ahead query i s) (hlasting : Lasting s o)
    (hstored : ((step query s o).storage.stored i).isSome) : Ahead query i (step query s o) := by
  cases o with
  | page => exact ahead_page h
  | observe observation =>
    refine ⟨h.nodup, h.ahead.imp_right ?_⟩
    rintro ⟨hdone, front, hfront, hoffset⟩
    exact ⟨hdone, front, hfront.trans (InMemoryStorage.sublist_saveEventObservation hlasting), hoffset⟩
  | save stamps event =>
    have hstore := s.storage.toEventStore_saveEvent stamps event
    have hstored' : ((s.storage.toEventStore.saveEvent event).stored i).isSome := hstore ▸ hstored
    refine ⟨?_, h.ahead.imp_right ?_⟩
    · show ((s.storage.saveEvent stamps event).toEventStore.events.map (·.id)).Nodup
      rw [hstore]
      exact EventStore.nodup_saveEvent h.nodup event
    · rintro ⟨hdone, front, hfront, hoffset⟩
      refine ⟨hdone, front, ?_, hoffset⟩
      show List.Sublist _ ((s.storage.saveEvent stamps event).toEventStore.matchedIds query)
      rw [hstore]
      exact EventStore.sublist_saveEvent h.nodup event hstored' hfront

/-- **Paging misses nothing.** Whatever is saved between the requests, a client that has come to the end was given every event
that matched when it began and was stored all along. -/
theorem paging_complete (query : EventFilter) (storage : InMemoryStorage) (hnodup : (storage.events.map (·.id)).Nodup)
    (steps : List PagesStep) (hlasting : Trace.Steps (step query) Lasting (start storage) steps) (event : ChainEvent)
    (hevent : event ∈ storage.events) (hmatch : query.admits storage.eventObservations event = true)
    (hstored : Trace.Always (step query) (fun s => (s.storage.stored event.id).isSome) (start storage) steps)
    (hdone : (Trace.run (step query) (start storage) steps).done = true) :
    event.id ∈ (Trace.run (step query) (start storage) steps).seen := by
  have hstart : Ahead query event.id (start storage) := by
    refine ⟨hnodup, .inr ⟨rfl, [], ?_, le_rfl⟩⟩
    apply List.singleton_sublist.2
    exact List.mem_map_of_mem (List.mem_filter.2 ⟨List.mem_reverse.2 hevent, hmatch⟩)
  have hrun : Ahead query event.id (Trace.run (step query) (start storage) steps) := by
    refine Trace.run_inv (fun s o h hstep => ?_) hstart (Trace.steps_and hlasting (Trace.steps_of_always hstored))
    exact ahead_step h hstep.1 hstep.2
  rcases hrun.ahead with hseen | ⟨hopen, -⟩
  · exact hseen
  · rw [hdone] at hopen
    cases hopen

/-- three transfers -/
def threeTransfers : InMemoryStorage :=
  ⟨⟨[EventBackends.transferSeen 1 1000 1000, EventBackends.transferSeen 2 2000 2000, EventBackends.transferSeen 3 3000 3000],
    [], 10⟩, []⟩

/-- every event, two a page -/
def twoByTwo : EventFilter := ⟨none, none, none, none, none, none, none, none, none, none, some 2, none⟩

/-- two pages with a fourth transfer between them, and a third that is not full -/
def twoPages : List PagesStep :=
  [.page, .save (fun _ => (0, 0)) (EventBackends.transferSeen 4 4000 4000), .page, .page]

/-- the oldest transfer has moved to the second page's end, and the third of them ends the list -/
theorem paging_complete_three : 1 ∈ (Trace.run (step twoByTwo) (start threeTransfers) twoPages).seen :=
  paging_complete twoByTwo threeTransfers (by decide +kernel) twoPages (by simp [twoPages, Trace.Steps, Lasting])
    (EventBackends.transferSeen 1 1000 1000) (by simp [threeTransfers]) (by decide +kernel)
    ⟨rfl, rfl, rfl, rfl, rfl⟩ (by decide +kernel)

end Pages

end ObsChain
