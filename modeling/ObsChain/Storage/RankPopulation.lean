/-
Do the rank query and the baseline distributions count the same population?

The rank query reads the metric table, which `save_event` fills when an event is new; a baseline run extracts the metrics
from the stored events. `Agreement network st` says that for every type, metric and window the values the query counts
are the values the extractor finds on the events the baseline query returns, and that the population size the query
reports is the sample count of the distribution.

`Mirrored network` is the condition on a save that keeps the two in step: an update of a stored event leaves its extracted
metrics as they were; a new event that has metrics names a height and the network of the query, and no event with metrics
is evicted for it.

- `saveEvent_mirrors`: such a save keeps the table equal to what the stored events extract to.
- `rank_population_agrees`: along every run of such saves, from the empty store, both sides agree in every state.
- `updated_event_ranked_by_old_value`: one update of an event's metadata, and they differ.
-/
import Mathlib.Tactic
import ObsChain.Core.Trace
import ObsChain.Statistics.Distribution
import ObsChain.Storage.InMemory

namespace ObsChain.InMemoryStorage

open EventMetricExtractor

/-- a save: the ids and times it draws, and the event -/
abbrev Save := (ℕ → Uuid × DateTime) × ChainEvent

def save (st : InMemoryStorage) (s : Save) : InMemoryStorage := st.saveEvent s.1 s.2

/-- the query a caller makes for a metric: under the version that extraction writes -/
def queryFor (network : String) (eventType : EventType) (metric : BaselineMetric) (startHeight endHeight : ℕ) :
    RankQuery :=
  ⟨network, eventType, metric, versionOf metric defaultMetricVersion, startHeight, endHeight⟩

/-- rank query and baseline run count the same values, for every type, metric and window -/
def Agreement (network : String) (st : InMemoryStorage) : Prop :=
  ∀ stamps eventType metric startHeight endHeight,
    (st.rankPopulation stamps (queryFor network eventType metric startHeight endHeight)).Perm
        ((st.queryEventsForBaseline (some eventType) startHeight endHeight).filterMap fun e => extractMetric e metric) ∧
      ∀ value direction,
        (st.getExactEmpiricalRank stamps (queryFor network eventType metric startHeight endHeight) value direction).2.elim
            0 (·.2.2) =
          BaselineEngine.sampleCount
            (BaselineEngine.generateDistributions (st.queryEventsForBaseline none startHeight endHeight) none)
            eventType metric

/-- the extractor finds no metric on the event -/
def Unmeasured (event : ChainEvent) : Prop := metricContents event none = []

instance (event : ChainEvent) : Decidable (Unmeasured event) := inferInstanceAs (Decidable (_ = _))

/-- the condition on a save -/
def Mirrored (network : String) (st : InMemoryStorage) (s : Save) : Prop :=
  match st.stored s.2.id with
  | some existing => ∀ metric, extractMetric (EventStore.merge existing s.2) metric = extractMetric existing metric
  | none =>
    (st.events.length < st.maxEvents ∨ ∀ oldest ∈ st.events.head?, Unmeasured oldest) ∧
      (Unmeasured s.2 ∨ (s.2.blockHeight.isSome ∧ s.2.network.getD "mainnet" = network))

/-! ## The table mirrors the events -/

/-- the records of an event, as rows of one network -/
def rowsOn (network : String) (event : ChainEvent) : List MetricContent :=
  (metricContents event none).map fun c => { c with network := network }

/-- the metric table is what the stored events extract to -/
structure Mirrors (network : String) (st : InMemoryStorage) : Prop where
  rows : st.eventMetrics.map (·.toMetricContent) = st.events.flatMap (rowsOn network)
  heights : ∀ e ∈ st.events, Unmeasured e ∨ e.blockHeight.isSome

theorem mem_metricContents {event : ChainEvent} {version : Option String} {c : MetricContent}
    (h : c ∈ metricContents event version) :
    ∃ val, extractMetric event c.metric = some val ∧ c = contentOf event version c.metric val := by
  obtain ⟨d, -, hd⟩ := List.mem_filterMap.1 h
  rw [Option.map_eq_some_iff] at hd
  obtain ⟨val, hval, rfl⟩ := hd
  exact ⟨val, hval, rfl⟩

theorem eventId_of_mem_metricContents {event : ChainEvent} {version : Option String} {c : MetricContent}
    (h : c ∈ metricContents event version) : c.eventId = event.id := by
  obtain ⟨val, -, heq⟩ := mem_metricContents h
  rw [heq]
  rfl

/-- the records depend on the metadata only through what is extracted and the network -/
theorem rowsOn_congr {network : String} {e e' : ChainEvent} (hid : e'.id = e.id) (htype : e'.eventType = e.eventType)
    (hheight : e'.blockHeight = e.blockHeight) (htime : e'.eventTime = e.eventTime)
    (hmetrics : ∀ metric, extractMetric e' metric = extractMetric e metric) : rowsOn network e' = rowsOn network e := by
  unfold rowsOn metricContents
  rw [List.map_filterMap, List.map_filterMap, htype]
  apply List.filterMap_congr
  intro d _
  rw [hmetrics d.metric]
  cases extractMetric e d.metric with
  | none => rfl
  | some val => simp [contentOf, hid, htype, hheight, htime]

theorem unmeasured_iff_rowsOn (network : String) (event : ChainEvent) :
    Unmeasured event ↔ rowsOn network event = [] := by
  unfold Unmeasured rowsOn
  rw [List.map_eq_nil_iff]

theorem Unmeasured.extract {event : ChainEvent} (h : Unmeasured event) (metric : BaselineMetric) :
    extractMetric event metric = none := by
  have hat := metricContents_at event none metric
  have hnil : metricContents event none = [] := h
  rw [hnil, List.filter_nil] at hat
  cases hval : extractMetric event metric with
  | none => rfl
  | some val => simp [hval] at hat

/-- an event with metrics of this network is recorded under it -/
theorem rowsOn_own {network : String} {event : ChainEvent}
    (h : Unmeasured event ∨ event.network.getD "mainnet" = network) : rowsOn network event = metricContents event none := by
  rcases h with hun | hnet
  · have hnil : metricContents event none = [] := hun
    rw [hnil, (unmeasured_iff_rowsOn network event).1 hun]
  · unfold rowsOn
    conv_rhs => rw [← List.map_id (metricContents event none)]
    apply List.map_congr_left
    intro c hc
    obtain ⟨val, -, heq⟩ := mem_metricContents hc
    rw [heq, ← hnet]
    rfl

/-- a row of the table is of a stored event -/
theorem Mirrors.mem {network : String} {st : InMemoryStorage} (h : Mirrors network st) {m : EventMetricValue}
    (hm : m ∈ st.eventMetrics) : ∃ e ∈ st.events, m.toMetricContent ∈ rowsOn network e := by
  have hmem : m.toMetricContent ∈ st.events.flatMap (rowsOn network) := by
    rw [← h.rows]
    exact List.mem_map_of_mem hm
  simpa using List.mem_flatMap.1 hmem

theorem eventId_of_mem_rowsOn {network : String} {event : ChainEvent} {c : MetricContent}
    (h : c ∈ rowsOn network event) : c.eventId = event.id := by
  obtain ⟨c', hc', rfl⟩ := List.mem_map.1 h
  have hid : c'.eventId = event.id := eventId_of_mem_metricContents hc'
  exact hid

/-- the records of one event have distinct keys -/
theorem nodup_rowKeys (event : ChainEvent) (version : Option String) :
    ((metricContents event version).map rowKey).Nodup := by
  have hmetrics : ((metricContents event version).map (·.metric)).Nodup := by
    have hsub : List.Sublist ((metricContents event version).map (·.metric))
        ((MetricRegistry.metricsForEventType event.eventType).map (·.metric)) := by
      unfold metricContents
      generalize MetricRegistry.metricsForEventType event.eventType = defs
      induction defs with
      | nil => exact List.Sublist.refl _
      | cons d defs ih =>
        cases hval : extractMetric event d.metric with
        | none =>
          rw [List.filterMap_cons_none (by simp [hval])]
          exact ih.cons _
        | some val =>
          rw [List.filterMap_cons_some (by rw [hval]; rfl)]
          exact ih.cons_cons _
    exact hsub.nodup (MetricRegistry.nodup_metrics event.eventType)
  apply List.Nodup.of_map (fun k : Uuid × BaselineMetric × String => k.2.1)
  rwa [List.map_map]

/-- the rows of an event are appended where the table has none of its id -/
theorem eventMetrics_of_new {st : InMemoryStorage} {event : ChainEvent}
    (hnew : ∀ r ∈ st.eventMetrics, r.eventId ≠ event.id) (stamps : ℕ → Uuid × DateTime) :
    (st.saveEventMetrics (extractEventMetrics stamps event none)).eventMetrics =
      st.eventMetrics ++ extractEventMetrics stamps event none := by
  apply foldl_upsert_of_new
  · have hkeys := nodup_rowKeys event none
    rw [← extractEventMetrics_contents stamps event none, List.map_map] at hkeys
    exact hkeys
  · intro m hm r hr heq
    have hmc : m.toMetricContent ∈ metricContents event none := by
      rw [← extractEventMetrics_contents stamps event none]
      exact List.mem_map_of_mem hm
    have hid : r.eventId = m.eventId := congrArg Prod.fst heq
    rw [eventId_of_mem_metricContents hmc] at hid
    exact hnew r hr hid

/-- an event that moves aside for a new one has no rows -/
theorem makeRoom_rows {network : String} {st : EventStore}
    (hroom : st.events.length < st.maxEvents ∨ ∀ oldest ∈ st.events.head?, Unmeasured oldest) :
    st.makeRoom.events.flatMap (rowsOn network) = st.events.flatMap (rowsOn network) := by
  unfold EventStore.makeRoom
  by_cases hfull : st.events.length ≥ st.maxEvents
  · rw [if_pos hfull]
    have hold := hroom.resolve_left (by omega)
    cases hl : st.events with
    | nil => simp [hl]
    | cons popped rest =>
      have hun : Unmeasured popped := hold popped (by simp [hl])
      rw [List.flatMap_cons, (unmeasured_iff_rowsOn network popped).1 hun, List.nil_append]
  · rw [if_neg hfull]

/-- **One save.** Under the condition the table stays what the stored events extract to. -/
theorem saveEvent_mirrors {network : String} {st : InMemoryStorage} {s : Save} (h : Mirrors network st)
    (hs : Mirrored network st s) : Mirrors network (st.save s) := by
  obtain ⟨stamps, event⟩ := s
  unfold Mirrored at hs
  unfold save saveEvent
  cases hm : EventStore.mergeInto event st.events with
  | some events' =>
    -- an update: the event keeps its place and its rows
    obtain ⟨before, existing, after, hevents, hevents', hid, hfind⟩ := EventStore.mergeInto_eq_some hm
    have hstored : st.stored event.id = some existing := hfind
    rw [hstored] at hs
    have hrows : rowsOn network (EventStore.merge existing event) = rowsOn network existing :=
      rowsOn_congr rfl rfl rfl rfl hs
    refine ⟨?_, ?_⟩
    · simp only [EventStore.saveEvent, hm]
      rw [h.rows, hevents, hevents']
      simp [hrows]
    · intro e he
      simp only [EventStore.saveEvent, hm] at he
      rw [hevents', List.mem_append, List.mem_cons] at he
      have hmem : ∀ e' ∈ before ++ existing :: after, Unmeasured e' ∨ e'.blockHeight.isSome := hevents ▸ h.heights
      rcases he with hb | heq | ha
      · exact hmem e (List.mem_append_left _ hb)
      · subst heq
        have hold := hmem existing (List.mem_append_right _ List.mem_cons_self)
        rw [unmeasured_iff_rowsOn network, hrows]
        rwa [unmeasured_iff_rowsOn network] at hold
      · exact hmem e (List.mem_append_right _ (List.mem_cons_of_mem _ ha))
  | none =>
    -- a new event: its rows are appended
    have hnew := EventStore.mergeInto_eq_none hm
    rw [EventStore.stored_eq_none hm] at hs
    obtain ⟨hroom, hmeasured⟩ := hs
    have happend : (st.saveEventMetrics (extractEventMetrics stamps event none)).eventMetrics =
        st.eventMetrics ++ extractEventMetrics stamps event none := by
      apply eventMetrics_of_new
      intro r hr
      obtain ⟨e, he, hrow⟩ := h.mem hr
      rw [eventId_of_mem_rowsOn hrow]
      exact hnew e he
    have hown : metricContents event none = rowsOn network event :=
      (rowsOn_own (hmeasured.imp_right And.right)).symm
    refine ⟨?_, ?_⟩
    · simp only [EventStore.saveEvent, hm]
      show (st.saveEventMetrics (extractEventMetrics stamps event none)).eventMetrics.map (·.toMetricContent) =
        (st.makeRoom.events ++ [event]).flatMap (rowsOn network)
      rw [happend, List.map_append, h.rows, extractEventMetrics_contents, List.flatMap_append, makeRoom_rows hroom, hown]
      simp
    · intro e he
      simp only [EventStore.saveEvent, hm, saveEventMetrics] at he
      rcases List.mem_append.1 he with hold | hlast
      · exact h.heights e (st.makeRoom_sublist.subset hold)
      · rw [List.mem_singleton.1 hlast]
        rcases hmeasured with hun | hheight
        · exact Or.inl hun
        · exact Or.inr hheight.1

/-! ## The population -/

/-- of the records of an event, the query selects those of its metric when the event is in the window -/
theorem selects_contentOf {network : String} {e : ChainEvent} {m metric : BaselineMetric} {val : MetricValue}
    {eventType : EventType} {startHeight endHeight : ℕ} :
    (queryFor network eventType metric startHeight endHeight).selects
        { contentOf e none m val with network := network } = true ↔
      m = metric ∧ e.eventType = eventType ∧ startHeight ≤ e.blockHeight.getD 0 ∧ e.blockHeight.getD 0 ≤ endHeight := by
  rw [RankQuery.selects_iff]
  constructor
  · intro h
    obtain ⟨-, htype, hmetric, -, hstart, hend⟩ := h
    exact ⟨hmetric, htype, hstart, hend⟩
  · intro h
    obtain ⟨rfl, htype, hstart, hend⟩ := h
    exact ⟨rfl, htype, rfl, rfl, hstart, hend⟩

/-- the values of one event that the query selects: the extracted one, when the event is in the window -/
theorem rowsOn_selected (network : String) (e : ChainEvent) (eventType : EventType) (metric : BaselineMetric)
    (startHeight endHeight : ℕ) :
    ((rowsOn network e).filter fun c => (queryFor network eventType metric startHeight endHeight).selects c).map
        (·.value) =
      if e.eventType = eventType ∧ startHeight ≤ e.blockHeight.getD 0 ∧ e.blockHeight.getD 0 ≤ endHeight then
        (extractMetric e metric).toList
      else [] := by
  unfold rowsOn
  rw [List.filter_map, List.map_map]
  by_cases hwin : e.eventType = eventType ∧ startHeight ≤ e.blockHeight.getD 0 ∧ e.blockHeight.getD 0 ≤ endHeight
  · have hsel : (metricContents e none).filter
          ((fun c => (queryFor network eventType metric startHeight endHeight).selects c) ∘
            fun c => { c with network := network }) =
        (metricContents e none).filter (fun c => c.metric = metric) := by
      apply List.filter_congr
      intro c hc
      obtain ⟨val, -, heq⟩ := mem_metricContents hc
      rw [Function.comp_apply, heq, Bool.eq_iff_iff, selects_contentOf, decide_eq_true_eq]
      exact and_iff_left hwin
    rw [if_pos hwin, hsel, metricContents_at]
    cases extractMetric e metric <;> rfl
  · rw [if_neg hwin, List.map_eq_nil_iff, List.filter_eq_nil_iff]
    intro c hc hsel
    obtain ⟨val, -, heq⟩ := mem_metricContents hc
    rw [Function.comp_apply, heq, selects_contentOf] at hsel
    exact hwin hsel.2

/-- **The population is the samples.** Where the table mirrors the events, the rows that are selected carry what the
extractor finds on the events of the window. -/
theorem Mirrors.selected {network : String} {st : InMemoryStorage} (h : Mirrors network st) (eventType : EventType)
    (metric : BaselineMetric) (startHeight endHeight : ℕ) :
    (st.eventMetrics.filter fun m =>
        (queryFor network eventType metric startHeight endHeight).selects m.toMetricContent).map (·.value) =
      (st.queryEventsForBaseline (some eventType) startHeight endHeight).filterMap fun e => extractMetric e metric := by
  have hrows : (st.eventMetrics.filter fun m =>
      (queryFor network eventType metric startHeight endHeight).selects m.toMetricContent).map (·.value) =
      ((st.eventMetrics.map (·.toMetricContent)).filter fun c =>
        (queryFor network eventType metric startHeight endHeight).selects c).map (·.value) := by
    rw [List.filter_map, List.map_map]
    rfl
  rw [hrows, h.rows, EventStore.queryEventsForBaseline]
  have hheights := h.heights
  generalize st.events = events at hheights
  induction events with
  | nil => rfl
  | cons e events ih =>
    have hrest := ih fun e' he' => hheights e' (List.mem_cons_of_mem e he')
    rw [List.flatMap_cons, List.filter_append, List.map_append, hrest, rowsOn_selected]
    cases hh : e.blockHeight with
    | none =>
      -- without a height there is no row, and the baseline query leaves the event out
      have hun : Unmeasured e := (hheights e List.mem_cons_self).resolve_right (by simp [hh])
      rw [List.filter_cons_of_neg (by simp [hh]), hun.extract metric]
      simp
    | some height =>
      by_cases hwin : e.eventType = eventType ∧ startHeight ≤ height ∧ height ≤ endHeight
      · rw [Option.getD_some, if_pos hwin]
        obtain ⟨htype, hstart, hend⟩ := hwin
        rw [List.filter_cons_of_pos (by simp [hh, htype, hstart, hend])]
        cases hval : extractMetric e metric with
        | none => simp [hval]
        | some val => simp [hval]
      · rw [Option.getD_some, if_neg hwin, List.nil_append, List.filter_cons_of_neg]
        simp only [hh]
        simp
        tauto

/-- the fallback adds rows of the events it is given and nothing else -/
theorem mem_materialize {stamps : ℕ → ℕ → Uuid × DateTime} {events : List ChainEvent} {i : ℕ} {st : InMemoryStorage}
    {m : EventMetricValue} (h : m ∈ (materialize stamps i st events).eventMetrics) :
    m ∈ st.eventMetrics ∨ ∃ e ∈ events, m.toMetricContent ∈ metricContents e none := by
  induction events generalizing i st with
  | nil => exact Or.inl h
  | cons e events ih =>
    rcases ih h with hrows | hlater
    · have hfold : ∀ (new rows : List EventMetricValue),
          m ∈ new.foldl (fun rows m => upsert (sameMetric m) m rows) rows → m ∈ rows ∨ m ∈ new := by
        intro new
        induction new with
        | nil => exact fun rows hr => Or.inl hr
        | cons x new ihnew =>
          intro rows hr
          rcases ihnew _ hr with hup | hin
          · rcases mem_of_mem_upsert hup with heq | hold
            · exact Or.inr (heq ▸ List.mem_cons_self)
            · exact Or.inl hold
          · exact Or.inr (List.mem_cons_of_mem x hin)
      rcases hfold _ _ hrows with hold | hnew
      · exact Or.inl hold
      · refine Or.inr ⟨e, List.mem_cons_self, ?_⟩
        rw [← extractEventMetrics_contents (stamps i) e none]
        exact List.mem_map_of_mem hnew
    · obtain ⟨e', he', hm⟩ := hlater
      exact Or.inr ⟨e', List.mem_cons_of_mem e he', hm⟩

/-- where nothing matches because nothing is there to extract, the fallback finds nothing either -/
theorem Mirrors.population {network : String} {st : InMemoryStorage} (h : Mirrors network st)
    (stamps : ℕ → ℕ → Uuid × DateTime) (eventType : EventType) (metric : BaselineMetric) (startHeight endHeight : ℕ) :
    st.rankPopulation stamps (queryFor network eventType metric startHeight endHeight) =
      (st.queryEventsForBaseline (some eventType) startHeight endHeight).filterMap fun e => extractMetric e metric := by
  have hsel := h.selected eventType metric startHeight endHeight
  unfold rankPopulation withFallback
  split_ifs with hempty
  · rw [List.isEmpty_iff] at hempty
    rw [hempty, List.map_nil] at hsel
    rw [← hsel, List.map_eq_nil_iff, List.filter_eq_nil_iff]
    intro m hm hselects
    rcases mem_materialize hm with hold | hnew
    · rw [List.filter_eq_nil_iff] at hempty
      exact hempty m hold hselects
    · obtain ⟨e, he, hc⟩ := hnew
      obtain ⟨val, hval, -⟩ := mem_metricContents hc
      have hmetric : m.metric = metric := ((RankQuery.selects_iff _ _).1 hselects).2.2.1
      rw [hmetric] at hval
      have hnone := List.filterMap_eq_nil_iff.1 hsel.symm e he
      rw [hval] at hnone
      cases hnone
  · exact hsel

/-- the samples of a baseline run are those of its events of the type -/
theorem samples_queryEventsForBaseline (st : EventStore) (eventType : EventType) (metric : BaselineMetric)
    (startHeight endHeight : ℕ) :
    BaselineEngine.samples (st.queryEventsForBaseline none startHeight endHeight) eventType metric =
      (st.queryEventsForBaseline (some eventType) startHeight endHeight).filterMap fun e => extractMetric e metric := by
  unfold BaselineEngine.samples EventStore.queryEventsForBaseline
  rw [List.filter_filter]
  congr 1
  apply List.filter_congr
  intro e _
  cases e.blockHeight with
  | none => simp
  | some h =>
    rw [Bool.eq_iff_iff]
    simp
    tauto

theorem Mirrors.agreement {network : String} {st : InMemoryStorage} (h : Mirrors network st) : Agreement network st := by
  intro stamps eventType metric startHeight endHeight
  have hpop := h.population stamps eventType metric startHeight endHeight
  refine ⟨hpop ▸ List.Perm.refl _, ?_⟩
  intro value direction
  unfold getExactEmpiricalRank
  rw [rankOf_population, BaselineEngine.sampleCount_generateDistributions, samples_queryEventsForBaseline, hpop]

theorem mirrors_empty (network : String) (maxEvents : ℕ) : Mirrors network (empty maxEvents) :=
  ⟨rfl, fun _ he => absurd he List.not_mem_nil⟩

/-- **When rank and baseline agree.** Along every run of saves that meet the condition, from the empty store, the rank
query counts exactly the samples of the baseline, in every state reached. -/
theorem rank_population_agrees (network : String) (maxEvents : ℕ) (saves : List Save)
    (hsaves : Trace.Steps save (Mirrored network) (empty maxEvents) saves) :
    Trace.Always save (Agreement network) (empty maxEvents) saves :=
  Trace.always_inv (fun _ _ h hs => saveEvent_mirrors h hs) (fun _ h => h.agreement) (mirrors_empty network maxEvents)
    hsaves

/-! ## An updated event -/

/-- a transfer at height 5, as its detector describes it -/
def transferEvent (id : Uuid) (title : String) (sats : ℕ) : ChainEvent :=
  { id := id, eventType := .largeTransfer, severity := .medium, confidence := .verifiedOnChain, title := title,
    description := "", eventTime := 0, firstObservedAt := 0, detectedAt := 0, blockHeight := some 5,
    blockHash := some "block5", txid := some "tx001", source := none, witnesses := [], observationMode := .live,
    replayJobId := none, metadata := .object [("total_output_sats", .nat sats)], observations := [] }

def saveOf (event : ChainEvent) : Save := (fun _ => (0, 0), event)

/-- two transfers, and a new title for the first: rank and baseline agree throughout -/
theorem rank_population_agrees_retitled :
    Trace.Always save (Agreement "mainnet") (empty 10)
      [saveOf (transferEvent 1 "seen" 100), saveOf (transferEvent 2 "seen" 300),
        saveOf (transferEvent 1 "confirmed" 100)] := by
  apply rank_population_agrees
  have hnew : ∀ id title sats, (transferEvent id title sats).network.getD "mainnet" = "mainnet" := fun _ _ _ => rfl
  refine ⟨⟨Or.inl (by decide), Or.inr ⟨rfl, hnew _ _ _⟩⟩, ⟨Or.inl (by decide), Or.inr ⟨rfl, hnew _ _ _⟩⟩, ?_, trivial⟩
  intro metric
  rfl

/-- a transfer whose amount is corrected: the rank query still counts the old amount, the baseline the new one -/
theorem updated_event_ranked_by_old_value :
    let st := Trace.run save (empty 10) [saveOf (transferEvent 1 "seen" 100), saveOf (transferEvent 1 "seen" 200)]
    st.rankPopulation (fun _ _ => (0, 0)) (queryFor "mainnet" .largeTransfer .valueSats 0 10) = [.u64 100] ∧
      ((st.queryEventsForBaseline (some .largeTransfer) 0 10).filterMap fun e => extractMetric e .valueSats) =
        [.u64 200] ∧
      ¬ Agreement "mainnet" st := by
  have hpop : (Trace.run save (empty 10) [saveOf (transferEvent 1 "seen" 100), saveOf (transferEvent 1 "seen" 200)]
      ).rankPopulation (fun _ _ => (0, 0)) (queryFor "mainnet" .largeTransfer .valueSats 0 10) = [.u64 100] := by
    decide +kernel
  have hsamples : ((Trace.run save (empty 10) [saveOf (transferEvent 1 "seen" 100), saveOf (transferEvent 1 "seen" 200)]
      ).queryEventsForBaseline (some .largeTransfer) 0 10).filterMap (fun e => extractMetric e .valueSats) =
        [.u64 200] := by
    decide +kernel
  refine ⟨hpop, hsamples, ?_⟩
  intro hagree
  obtain ⟨hperm, -⟩ := hagree (fun _ _ => (0, 0)) .largeTransfer .valueSats 0 10
  rw [hpop, hsamples, List.perm_singleton] at hperm
  simp at hperm

end ObsChain.InMemoryStorage
