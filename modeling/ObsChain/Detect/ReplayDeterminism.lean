/-
Replays of one block, compared.

A block is replayed twice, by jobs `job₁` and `job₂` on engines with the same detectors, possibly at different times: each
replay has its own last block and its own draws. `history` is an event without what may differ between the two (the
first observation, the job id, and the job id in the metadata). Replay is deterministic history (`SameHistory t`) when
every event of both replays bears the block's time `t` twice, as its event time and its detection time, and the two event
lists agree on `history`.

The engine sets the detection time, not the event time: that one stays the clock reading of `ChainEvent::new`. Also, a
block that comes without an interval takes the one since the last block of the engine, whatever that is.

- `replay_deterministic_iff`: replay is deterministic history exactly when each report of both replays was created at a
  clock reading of `t` (`ClockAt`), and the two replays give the block one interval, or none that a detector reports.
- `replay_stamped_by_wall_clock`: a transfer of 100 BTC in an early block, replayed at two later times.
-/
import Mathlib.Tactic
import ObsChain.Detect.Engine

namespace ObsChain

/-- an event without its first observation and its job -/
def ChainEvent.history (event : ChainEvent) : ChainEvent :=
  { event with
    firstObservedAt := 0
    replayJobId := none
    metadata := event.metadata.withoutField "replay_job_id" }

/-- both lists bear the time `t`, and agree on what is history -/
def SameHistory (t : DateTime) (events₁ events₂ : List ChainEvent) : Prop :=
  (∀ event ∈ events₁ ++ events₂, event.eventTime = t ∧ event.detectedAt = t) ∧
    events₁.map ChainEvent.history = events₂.map ChainEvent.history

namespace DetectorEngine

/-- a detector that reports on the observation reads the clock at `t` when it creates the event -/
def ReadsAt (rfc3339 : DateTime → String) (t : DateTime) (detectors : List Detector) (draws : ℕ → Fresh)
    (observation : Observation) : Prop :=
  ∀ i d, detectors[i]? = some d → d.historicallyReplayable → d.detect rfc3339 (draws i) observation ≠ [] →
    (draws i).created = t

/-- every report on the observations of a replay is created at the clock reading `t` -/
def ClockAt (rfc3339 : DateTime → String) (t : DateTime) (detectors : List Detector) (draws : ℕ → ℕ → Fresh)
    (observations : List Observation) : Prop :=
  ∀ n observation, observations[n]? = some observation → ReadsAt rfc3339 t detectors (draws n) observation

/-- no long-interval detector reports on this interval -/
def Quiet (detectors : List Detector) (interval : Option ℕ) : Prop :=
  ∀ d, Detector.longBlockInterval d ∈ detectors → ∀ i, interval = some i → i < d.thresholdSeconds

/-- two engines give the block the same interval, or intervals on which nothing is reported -/
def IntervalsAgree (detectors : List Detector) (last₁ last₂ : Option BlockObservation) (block : BlockObservation) : Prop :=
  (settleBlock last₁ block).intervalSeconds = (settleBlock last₂ block).intervalSeconds ∨
    Quiet detectors (settleBlock last₁ block).intervalSeconds ∧ Quiet detectors (settleBlock last₂ block).intervalSeconds

/-- what the detectors see of a block -/
def observed (last : Option BlockObservation) (block : BlockObservation) (txs : List TransactionObservation) :
    List Observation :=
  .block (settleBlock last block) :: txs.map .transaction

section

variable {newV5 : String → Uuid} {rfc3339 : DateTime → String}

/-! ## One stamped report -/

@[simp] theorem skips_replay (job : Uuid) (height : ℕ) (hash : String) (t : DateTime) (network : String) (d : Detector) :
    skips (some (ObservationContext.historicalReplay job height hash t network)) d = !d.historicallyReplayable := by
  simp [skips, ObservationContext.historicalReplay]

/-- what a replay makes of a reported event -/
theorem stamp_replay (observation : Observation) (job : Uuid) (height : ℕ) (hash : String) (t : DateTime)
    (network : String) (report : ChainEvent) :
    stamp newV5 rfc3339 observation (some (.historicalReplay job height hash t network)) report =
      { report with
        id := newV5 report.identityKey
        source := report.source.or observation.source
        detectedAt := t
        observationMode := .historicalReplay
        replayJobId := some job
        metadata := replayMetadata rfc3339 (.historicalReplay job height hash t network) report.metadata } := by
  simp only [stamp, ObservationContext.historicalReplay, if_true]
  rfl

/-- the job shows in the metadata under its own name only -/
theorem withoutField_replayMetadata (job₁ job₂ : Uuid) (height : ℕ) (hash : String) (t : DateTime) (network : String)
    (metadata : Value) :
    (replayMetadata rfc3339 (.historicalReplay job₁ height hash t network) metadata).withoutField "replay_job_id" =
      (replayMetadata rfc3339 (.historicalReplay job₂ height hash t network) metadata).withoutField "replay_job_id" := by
  cases metadata with
  | object fields =>
    have hother : ∀ other ∈ ["historical_timestamp", "historical_block_hash", "historical_height"],
        other ≠ "replay_job_id" := by decide
    simp only [List.mem_cons, List.not_mem_nil, or_false, forall_eq_or_imp, forall_eq] at hother
    simp only [replayMetadata, ObservationContext.historicalReplay, Value.withoutField]
    rw [Value.filter_insertField_of_ne _ _ hother.1, Value.filter_insertField_of_ne _ _ hother.1,
      Value.filter_insertField_of_ne _ _ hother.2.1, Value.filter_insertField_of_ne _ _ hother.2.1,
      Value.filter_insertField_of_ne _ _ hother.2.2, Value.filter_insertField_of_ne _ _ hother.2.2,
      Value.filter_insertField_self, Value.filter_insertField_self]
  | _ => rfl

/-- two replays of one report at the same clock reading leave the same history -/
theorem history_stamp (observation : Observation) (job₁ job₂ : Uuid) (height : ℕ) (hash : String) (t : DateTime)
    (network : String) (report : ChainEvent) {f₁ f₂ : Fresh} (h : f₁.created = f₂.created) :
    (stamp newV5 rfc3339 observation (some (.historicalReplay job₁ height hash t network)) (report.drawn f₁)).history =
      (stamp newV5 rfc3339 observation (some (.historicalReplay job₂ height hash t network))
        (report.drawn f₂)).history := by
  have hkey : (report.drawn f₁).identityKey = (report.drawn f₂).identityKey := rfl
  rw [stamp_replay, stamp_replay, hkey]
  simp only [ChainEvent.history, ChainEvent.drawn, h,
    withoutField_replayMetadata job₁ job₂ height hash t network report.metadata]

/-! ## The events of one observation -/

/-- the events of an observation bear `t` twice exactly when the clock was read at `t` -/
theorem times_events {detectors : List Detector} {draws : ℕ → Fresh} {observation : Observation} {job : Uuid} {height : ℕ}
    {hash : String} {t : DateTime} {network : String} :
    (∀ event ∈ events newV5 rfc3339 detectors draws observation (some (.historicalReplay job height hash t network)),
      event.eventTime = t ∧ event.detectedAt = t) ↔ ReadsAt rfc3339 t detectors draws observation := by
  constructor
  · intro h i d hi hd hreports
    obtain ⟨report, hreport⟩ := List.exists_mem_of_ne_nil _ hreports
    have hskip : skips (some (.historicalReplay job height hash t network)) d = false := by simp [hd]
    have htime := (h _ (mem_events.2 ⟨i, d, report, hi, hskip, hreport, rfl⟩)).1
    rw [stamp_replay] at htime
    exact (Detector.eventTime_detect hd hreport).symm.trans htime
  · intro h event hmem
    obtain ⟨i, d, report, hi, hskip, hreport, rfl⟩ := mem_events.1 hmem
    have hd : d.historicallyReplayable := by simpa using hskip
    rw [stamp_replay]
    refine ⟨?_, rfl⟩
    exact (Detector.eventTime_detect hd hreport).trans (h i d hi hd (List.ne_nil_of_mem hreport))

/-- two replays of an observation leave the same history when both read the clock at `t` -/
theorem history_events {detectors : List Detector} {draws₁ draws₂ : ℕ → Fresh} {observation : Observation}
    (job₁ job₂ : Uuid) (height : ℕ) (hash : String) {t : DateTime} (network : String)
    (h₁ : ReadsAt rfc3339 t detectors draws₁ observation) (h₂ : ReadsAt rfc3339 t detectors draws₂ observation) :
    (events newV5 rfc3339 detectors draws₁ observation
        (some (.historicalReplay job₁ height hash t network))).map ChainEvent.history =
      (events newV5 rfc3339 detectors draws₂ observation
        (some (.historicalReplay job₂ height hash t network))).map ChainEvent.history := by
  rw [events, events, List.map_flatMap, List.map_flatMap]
  apply List.flatMap_congr
  rintro ⟨d, i⟩ hmem
  have hi : detectors[i]? = some d := List.mem_zipIdx_iff_getElem?.1 hmem
  by_cases hd : d.historicallyReplayable
  · -- both draws are read off the reports of the first replay
    have hdrawn₁ := Detector.detect_drawn rfc3339 hd (draws₁ i) (draws₁ i) observation
    have hdrawn₂ := Detector.detect_drawn rfc3339 hd (draws₂ i) (draws₁ i) observation
    simp only [skips_replay, hd, Bool.not_true, Bool.false_eq_true, if_false]
    rw [hdrawn₂, hdrawn₁, List.map_map, List.map_map, List.map_map, List.map_map, ← hdrawn₁]
    apply List.map_congr_left
    intro report hreport
    have hne := List.ne_nil_of_mem hreport
    have hcreated₁ := h₁ i d hi hd hne
    have hcreated₂ := h₂ i d hi hd (by rw [hdrawn₂]; simpa using hne)
    exact history_stamp observation job₁ job₂ height hash t network report (hcreated₁.trans hcreated₂.symm)
  · simp [hd]

/-- a quiet interval is not reported -/
theorem events_block_eq_nil {detectors : List Detector} {draws : ℕ → Fresh} {block : BlockObservation}
    {context : Option ObservationContext} (h : Quiet detectors block.intervalSeconds) :
    events newV5 rfc3339 detectors draws (.block block) context = [] := by
  rw [List.eq_nil_iff_forall_not_mem]
  intro event hmem
  obtain ⟨i, d, report, hi, -, hreport, -⟩ := mem_events.1 hmem
  obtain ⟨l, interval, rfl, hinterval, hle, -⟩ := Detector.detect_block.1 hreport
  exact absurd (h l (List.mem_of_getElem? hi) interval hinterval) (not_lt.2 hle)

/-! ## The events of a block -/

theorem mem_replayBlock {engine : DetectorEngine} {draws : ℕ → ℕ → Fresh} {ctx : ObservationContext}
    {block : BlockObservation} {txs : List TransactionObservation} {event : ChainEvent} :
    event ∈ (replayBlock newV5 rfc3339 engine draws ctx block txs).2 ↔
      ∃ n observation, (observed engine.lastBlock block txs)[n]? = some observation ∧
        event ∈ events newV5 rfc3339 engine.detectors (draws n) observation (some ctx) := by
  rw [replayBlock_events, List.mem_append, List.mem_flatMap]
  constructor
  · rintro (hblock | ⟨⟨tx, n⟩, hn, htx⟩)
    · exact ⟨0, _, rfl, hblock⟩
    · exact ⟨n + 1, .transaction tx, by simp [observed, List.mem_zipIdx_iff_getElem?.1 hn], htx⟩
  · rintro ⟨n, observation, hn, hmem⟩
    cases n with
    | zero =>
      obtain rfl : .block (settleBlock engine.lastBlock block) = observation := by simpa [observed] using hn
      exact .inl hmem
    | succ n =>
      obtain ⟨tx, htx, rfl⟩ : ∃ tx, txs[n]? = some tx ∧ .transaction tx = observation := by simpa [observed] using hn
      exact .inr ⟨(tx, n), List.mem_zipIdx_iff_getElem?.2 htx, hmem⟩

/-- the events of a replay bear `t` twice exactly when the clock was always read at `t` -/
theorem times_replayBlock {engine : DetectorEngine} {draws : ℕ → ℕ → Fresh} {job : Uuid} {height : ℕ} {hash : String}
    {t : DateTime} {network : String} {block : BlockObservation} {txs : List TransactionObservation} :
    (∀ event ∈ (replayBlock newV5 rfc3339 engine draws (.historicalReplay job height hash t network) block txs).2,
      event.eventTime = t ∧ event.detectedAt = t) ↔
      ClockAt rfc3339 t engine.detectors draws (observed engine.lastBlock block txs) := by
  constructor
  · intro h n observation hn
    have hall : ∀ event ∈ events newV5 rfc3339 engine.detectors (draws n) observation
        (some (.historicalReplay job height hash t network)), event.eventTime = t ∧ event.detectedAt = t :=
      fun event hmem => h event (mem_replayBlock.2 ⟨n, observation, hn, hmem⟩)
    exact times_events.1 hall
  · intro h event hmem
    obtain ⟨n, observation, hn, hmem⟩ := mem_replayBlock.1 hmem
    exact times_events.2 (h n observation hn) event hmem

/-- settling changes the interval only -/
theorem settleBlock_eq (last : Option BlockObservation) (block : BlockObservation) :
    settleBlock last block = { block with intervalSeconds := (settleBlock last block).intervalSeconds } := by
  unfold settleBlock
  cases h : block.intervalSeconds with
  | none => rfl
  | some i => simp

/-- an event about a block keeps the interval in its history -/
theorem history_block_event {detectors : List Detector} {draws : ℕ → Fresh} {block : BlockObservation} {job : Uuid}
    {height : ℕ} {hash : String} {t : DateTime} {network : String} {event : ChainEvent}
    (h : event ∈ events newV5 rfc3339 detectors draws (.block block)
      (some (.historicalReplay job height hash t network))) :
    event.history.eventType = .longBlockInterval ∧
      ∃ i, block.intervalSeconds = some i ∧ event.history.metadata.get "interval_seconds" = some (.nat i) := by
  obtain ⟨_, d, report, -, -, hreport, rfl⟩ := mem_events.1 h
  obtain ⟨l, i, -, hi, -, rfl⟩ := Detector.detect_block.1 hreport
  rw [stamp_replay]
  refine ⟨rfl, i, hi, ?_⟩
  simp [ChainEvent.history, LongBlockIntervalDetector.report, replayMetadata, ObservationContext.historicalReplay,
    Value.insertField, Value.withoutField, Value.get]

/-- two replays that leave one history and differ on the interval report it in neither -/
theorem intervals_of_history {detectors : List Detector} {last₁ last₂ : Option BlockObservation}
    {draws₁ draws₂ : ℕ → ℕ → Fresh} {job₁ job₂ : Uuid} {height : ℕ} {hash : String} {t : DateTime} {network : String}
    {block : BlockObservation} {txs : List TransactionObservation}
    (h : (replayBlock newV5 rfc3339 ⟨detectors, last₁⟩ draws₁ (.historicalReplay job₁ height hash t network) block
        txs).2.map ChainEvent.history =
      (replayBlock newV5 rfc3339 ⟨detectors, last₂⟩ draws₂ (.historicalReplay job₂ height hash t network) block
        txs).2.map ChainEvent.history)
    (hne : (settleBlock last₁ block).intervalSeconds ≠ (settleBlock last₂ block).intervalSeconds) :
    Quiet detectors (settleBlock last₁ block).intervalSeconds := by
  intro d hd interval hinterval
  by_contra hle
  rw [replayBlock_events, replayBlock_events] at h
  dsimp only at h
  -- the first event of the first replay is about the block
  obtain ⟨j, hj⟩ := List.mem_iff_getElem?.1 hd
  have hne₁ : events newV5 rfc3339 detectors (draws₁ 0) (.block (settleBlock last₁ block))
      (some (.historicalReplay job₁ height hash t network)) ≠ [] :=
    List.ne_nil_of_mem (mem_events.2 ⟨j, .longBlockInterval d, _, hj, by simp [Detector.historicallyReplayable],
      Detector.detect_block.2 ⟨d, interval, rfl, hinterval, not_lt.1 hle, rfl⟩, rfl⟩)
  obtain ⟨a, rest, ha⟩ := List.exists_cons_of_ne_nil hne₁
  obtain ⟨htype, i, hi, hget⟩ := history_block_event (ha ▸ List.mem_cons_self : a ∈ events newV5 rfc3339 detectors
    (draws₁ 0) (.block (settleBlock last₁ block)) (some (.historicalReplay job₁ height hash t network)))
  rw [ha, List.cons_append, List.map_cons] at h
  have hmem := h ▸ List.mem_cons_self (a := a.history)
  -- so is its counterpart, with the other interval
  obtain ⟨c, hc, hac⟩ := List.mem_map.1 hmem
  rcases List.mem_append.1 hc with hc | hc
  · obtain ⟨-, i', hi', hget'⟩ := history_block_event hc
    rw [hac, hget] at hget'
    exact hne (by rw [hi, hi']; simpa [Value.nat] using hget')
  · obtain ⟨⟨tx, n⟩, -, hc⟩ := List.mem_flatMap.1 hc
    obtain ⟨_, d', report, -, -, hreport, rfl⟩ := mem_events.1 hc
    rw [← hac, stamp_replay] at htype
    exact Detector.eventType_detect_transaction hreport htype

/-- **Replay is deterministic history exactly when** every report of both replays is created at the clock reading `t`, and
the two engines agree on the interval of the block as far as it is reported. -/
theorem replay_deterministic_iff (newV5 : String → Uuid) (rfc3339 : DateTime → String) (detectors : List Detector)
    (last₁ last₂ : Option BlockObservation) (draws₁ draws₂ : ℕ → ℕ → Fresh) (job₁ job₂ : Uuid) (height : ℕ)
    (hash : String) (t : DateTime) (network : String) (block : BlockObservation) (txs : List TransactionObservation) :
    SameHistory t
        (replayBlock newV5 rfc3339 ⟨detectors, last₁⟩ draws₁ (.historicalReplay job₁ height hash t network) block txs).2
        (replayBlock newV5 rfc3339 ⟨detectors, last₂⟩ draws₂ (.historicalReplay job₂ height hash t network) block txs).2 ↔
      ClockAt rfc3339 t detectors draws₁ (observed last₁ block txs) ∧
        ClockAt rfc3339 t detectors draws₂ (observed last₂ block txs) ∧ IntervalsAgree detectors last₁ last₂ block := by
  constructor
  · rintro ⟨htimes, hhistory⟩
    refine ⟨times_replayBlock.1 fun event hmem => htimes event (List.mem_append_left _ hmem),
      times_replayBlock.1 fun event hmem => htimes event (List.mem_append_right _ hmem), ?_⟩
    by_cases hne : (settleBlock last₁ block).intervalSeconds = (settleBlock last₂ block).intervalSeconds
    · exact .inl hne
    · exact .inr ⟨intervals_of_history hhistory hne, intervals_of_history hhistory.symm (Ne.symm hne)⟩
  · rintro ⟨hclock₁, hclock₂, hagree⟩
    refine ⟨fun event hmem => ?_, ?_⟩
    · rcases List.mem_append.1 hmem with hmem | hmem
      · exact times_replayBlock.2 hclock₁ event hmem
      · exact times_replayBlock.2 hclock₂ event hmem
    · rw [replayBlock_events, replayBlock_events, List.map_append, List.map_append]
      congr 1
      · rcases hagree with heq | ⟨hquiet₁, hquiet₂⟩
        · have hsettled : settleBlock last₁ block = settleBlock last₂ block := by
            rw [settleBlock_eq last₁ block, settleBlock_eq last₂ block, heq]
          have hreads₂ : ReadsAt rfc3339 t detectors (draws₂ 0) (.block (settleBlock last₂ block)) := hclock₂ 0 _ rfl
          have hreads₁ : ReadsAt rfc3339 t detectors (draws₁ 0) (.block (settleBlock last₁ block)) := hclock₁ 0 _ rfl
          rw [hsettled] at hreads₁ ⊢
          exact history_events job₁ job₂ height hash network hreads₁ hreads₂
        · rw [events_block_eq_nil hquiet₁, events_block_eq_nil hquiet₂]
      · rw [List.map_flatMap, List.map_flatMap]
        apply List.flatMap_congr
        rintro ⟨tx, n⟩ hmem
        have hn : ∀ last, (observed last block txs)[n + 1]? = some (.transaction tx) := by
          intro last
          simp [observed, List.mem_zipIdx_iff_getElem?.1 hmem]
        exact history_events job₁ job₂ height hash network (hclock₁ (n + 1) _ (hn last₁)) (hclock₂ (n + 1) _ (hn last₂))

/-! ## A block replayed twice -/

/-- a transfer of 100 BTC in the first block after genesis -/
def earlyTransfer : TransactionObservation where
  txid := "aa01"
  timestamp := fromTimestamp 1231469665
  blockHash := some "b1"
  blockHeight := some 1
  feeSats := 0
  size := 250
  weight := 1000
  vsize := 250
  feeRateSatVb := none
  totalInputSats := 0
  totalOutputSats := 100 * satsPerBtc
  inputCount := 1
  outputCount := 1
  inputs := []
  outputs := []
  isRbf := false
  confirmed := true
  source := some (.bitcoinCoreRpc "http://127.0.0.1:8332")

def earlyBlock : BlockObservation where
  blockHash := "b1"
  height := 1
  timestamp := fromTimestamp 1231469665
  previousBlockHash := "b0"
  txCount := 1
  sizeBytes := 331
  weight := 1324
  minerTag := none
  intervalSeconds := some 463160
  source := some (.bitcoinCoreRpc "http://127.0.0.1:8332")

/-- one replay of it by `job`, with the clock at `now` -/
def replayEarlyBlock (job : Uuid) (now : DateTime) : List ChainEvent :=
  (replayBlock (fun key => BitVec.ofNat 128 key.length) (fun _ => "2009-01-09T02:54:25Z")
    (new [.largeTransaction .default]) (fun _ _ => ⟨job, now, now⟩)
    (.historicalReplay job 1 "b1" (fromTimestamp 1231469665) "mainnet") earlyBlock [earlyTransfer]).2

/-- two replays of the transfer, in 2026, bear the times of the replays -/
theorem replay_stamped_by_wall_clock :
    ¬ SameHistory (fromTimestamp 1231469665) (replayEarlyBlock 1 (fromTimestamp 1767225600))
      (replayEarlyBlock 2 (fromTimestamp 1767312000)) := by
  rintro ⟨htimes, -⟩
  have hread : (replayEarlyBlock 1 (fromTimestamp 1767225600)).map (·.eventTime) = [fromTimestamp 1767225600] := by
    decide +kernel
  obtain ⟨event, hevent, htime⟩ := List.mem_map.1 (hread ▸ List.mem_singleton_self _)
  have hclaimed := (htimes event (List.mem_append_left _ hevent)).1
  rw [htime] at hclaimed
  exact absurd hclaimed (by decide)

end

end DetectorEngine

end ObsChain
