/-
Rarity results in the two stores (`save_event_rarity` and `get_event_rarity` of `postgres.rs` and of `repository.rs`, the
table `event_rarity` of `0006_historical_baselines.sql` and `0007_statistical_correctness.sql`).

The Postgres insert writes every field of a result. The select list leaves out `percentile_method` and `estimated`, which
the row decoder asks for with `try_get` and replaces by the exact method and `false`. An insert whose event, run and metric
are there updates the row, except for its event type and its creation time.

Model: `RarityRow` is a row of the table, `rowOf` the values of the insert (`none` is a refusal), `selectList` the columns
that a query returns, and `ofRow` the decoder. A save needs its event and its run in their tables. The in-memory store
replaces the result of the same event, run and metric, or appends.

- `ofRow_withNumber`: what a new row says of its result.
- `survives_iff`: a result survives a save exactly when `Survivable` holds before it.
- `decoded_eq_memory`: along saves that all survive, the rows decode to what the in-memory store holds.
- `rarity_survives_iff`: for every result the extractor gave a value, after any earlier saves.
Witness: `estimate_read_as_exact`.

Not modelled: the row's random id and the impact columns, which the query does not read, and column widths.
-/
import Mathlib.Tactic
import ObsChain.Core.Numeric
import ObsChain.Core.Table
import ObsChain.Core.Trace
import ObsChain.Domain.Rarity
import ObsChain.Domain.ValueText
import ObsChain.Storage.EventQuery
import ObsChain.Storage.RankBackends

namespace ObsChain

/-! ## Reading a row -/

/-- the type with this name in JSON, or with its older alias -/
def EventType.ofSerde : String → Option EventType
  | "LARGE_TRANSFER" => some .largeTransfer
  | "DORMANT_COINS_MOVED" | "DORMANT_UTXO_SPENT" => some .dormantCoinsMoved
  | "CONSOLIDATION" => some .consolidation
  | "FAN_OUT" => some .fanOut
  | "EXTREME_FEE" | "FEE_SPIKE" => some .extremeFee
  | "TRANSACTION_REPLACEMENT" | "RBF_REPLACEMENT" => some .transactionReplacement
  | "LONG_BLOCK_INTERVAL" => some .longBlockInterval
  | "REORG_DETECTED" => some .reorgDetected
  | "MINING_ANOMALY" => some .miningAnomaly
  | "UNUSUAL_FEE_RATIO" => some .unusualFeeRatio
  | _ => none

@[simp] theorem EventType.ofSerde_serdeName (t : EventType) : ofSerde t.serdeName = some t := by
  cases t <;> rfl

/-! ## The Postgres store -/

structure RarityRow where
  eventId : Uuid
  baselineRunId : Uuid
  eventType : String
  metric : String
  valueNumeric : ℚ
  valueText : String
  percentile : Option ℚ
  rarityBand : String
  populationSize : ℕ
  tailCount : ℕ
  evaluationMode : String
  percentileMethod : String
  estimated : Bool
  createdAt : DateTime
deriving DecidableEq, Repr

namespace RarityRow

/-- the columns of `uq_event_rarity_event_run_metric` -/
def key (row : RarityRow) : Uuid × Uuid × String := (row.eventId, row.baselineRunId, row.metric)

/-- the values of the insert, with the number as the column holds it -/
def withNumber (now : DateTime) (rarity : EventRarityResult) (valueNumeric : ℚ) : RarityRow where
  eventId := rarity.eventId
  baselineRunId := rarity.baselineRunId
  eventType := rarity.eventType.serdeName
  metric := rarity.metric.serdeName
  valueNumeric := valueNumeric
  valueText := rarity.value.toNumericString
  percentile := rarity.percentile
  rarityBand := rarity.rarityBand.asStr
  populationSize := rarity.populationSize
  tailCount := rarity.tailCount
  evaluationMode := rarity.evaluationMode.asStr
  percentileMethod := rarity.percentileMethod.asStr
  estimated := rarity.estimated
  createdAt := now

/-- the insert: both counts fit an i64, and the number a `NUMERIC(50, 4)` -/
def rowOf (now : DateTime) (rarity : EventRarityResult) : Option RarityRow :=
  if !(fitsI64 (some rarity.populationSize) && fitsI64 (some rarity.tailCount)) then none
  else ((Numeric.parse rarity.value.toNumericString).bind (Numeric.fit 50 4)).map (withNumber now rarity)

/-- `ON CONFLICT (event_id, baseline_run_id, metric) DO UPDATE` -/
def update (old new : RarityRow) : RarityRow :=
  { old with
    valueNumeric := new.valueNumeric
    valueText := new.valueText
    percentile := new.percentile
    rarityBand := new.rarityBand
    populationSize := new.populationSize
    tailCount := new.tailCount
    evaluationMode := new.evaluationMode
    percentileMethod := new.percentileMethod
    estimated := new.estimated }

inductive Column where
  | eventId
  | baselineRunId
  | eventType
  | metric
  | valueNumeric
  | valueText
  | percentile
  | rarityBand
  | populationSize
  | tailCount
  | evaluationMode
  | percentileMethod
  | estimated
  | createdAt
deriving DecidableEq, Repr

def selectList : List Column :=
  [.eventId, .baselineRunId, .eventType, .metric, .valueNumeric, .valueText, .percentile, .rarityBand, .populationSize,
    .tailCount, .evaluationMode]

/-- a column of a returned row, when the query returns it -/
def tryGet {α : Type} (column : Column) (value : α) : Option α := if column ∈ selectList then some value else none

def ofRow (row : RarityRow) : EventRarityResult :=
  let metric := (BaselineMetric.parse row.metric).getD .valueSats
  let method := (tryGet .percentileMethod row.percentileMethod).getD "EXACT_EMPIRICAL_CDF"
  { eventId := row.eventId
    baselineRunId := row.baselineRunId
    eventType := (EventType.ofSerde row.eventType).getD .largeTransfer
    metric := metric
    value := MetricValue.fromStrAndMetric (Numeric.print 4 row.valueNumeric) metric
    percentile := row.percentile
    percentileMethod := (PercentileMethod.parse method).getD .exactEmpiricalCdf
    estimated := (tryGet .estimated row.estimated).getD false
    rarityBand := (RarityBand.parse row.rarityBand).getD .common
    populationSize := row.populationSize
    tailCount := row.tailCount
    evaluationMode := (EvaluationMode.parse row.evaluationMode).getD .retrospective }

end RarityRow

/-- the query's condition on event and run -/
def selectsRun (eventId : Uuid) (baselineRunId : Option Uuid) (event run : Uuid) : Bool :=
  event == eventId && baselineRunId.all (run == ·)

structure PostgresRarity where
  chainEvents : List Uuid
  baselineRuns : List Uuid
  eventRarity : List RarityRow

namespace PostgresRarity

local instance : LawfulBEq Uuid := inferInstance

def saveEventRarity (db : PostgresRarity) (now : DateTime) (rarity : EventRarityResult) : Option PostgresRarity :=
  (RarityRow.rowOf now rarity).bind fun row =>
    if rarity.eventId ∈ db.chainEvents ∧ rarity.baselineRunId ∈ db.baselineRuns then
      some { db with eventRarity := Table.insert RarityRow.key RarityRow.update row db.eventRarity }
    else none

def getEventRarity (db : PostgresRarity) (eventId : Uuid) (baselineRunId : Option Uuid) : List EventRarityResult :=
  ((db.eventRarity.filter fun row => selectsRun eventId baselineRunId row.eventId row.baselineRunId).insertionSort
    (fun a b => a.createdAt ≤ b.createdAt)).map RarityRow.ofRow

end PostgresRarity

/-! ## The in-memory store -/

/-- the event, the run and the metric of a result -/
def EventRarityResult.recordKey (r : EventRarityResult) : Uuid × Uuid × BaselineMetric :=
  (r.eventId, r.baselineRunId, r.metric)

/-- the results that the in-memory store holds -/
structure MemoryRarity where
  eventRarity : List EventRarityResult

namespace MemoryRarity

def saveEventRarity (m : MemoryRarity) (rarity : EventRarityResult) : MemoryRarity :=
  ⟨upsert (fun r => r.eventId == rarity.eventId && r.baselineRunId == rarity.baselineRunId && r.metric == rarity.metric)
    rarity m.eventRarity⟩

def getEventRarity (m : MemoryRarity) (eventId : Uuid) (baselineRunId : Option Uuid) : List EventRarityResult :=
  m.eventRarity.filter fun r => selectsRun eventId baselineRunId r.eventId r.baselineRunId

end MemoryRarity

/-- both stores -/
structure RarityBackends where
  db : PostgresRarity
  memory : MemoryRarity

namespace RarityBackends

def empty (chainEvents baselineRuns : List Uuid) : RarityBackends := ⟨⟨chainEvents, baselineRuns, []⟩, ⟨[]⟩⟩

/-- the same save into both; one that Postgres refuses leaves its table alone -/
def save (b : RarityBackends) (op : DateTime × EventRarityResult) : RarityBackends :=
  ⟨(b.db.saveEventRarity op.1 op.2).getD b.db, b.memory.saveEventRarity op.2⟩

/-- the save succeeds, and a query for the event, with or without the run, returns the result, as the in-memory store
does -/
def Survives (b : RarityBackends) (now : DateTime) (r : EventRarityResult) : Prop :=
  ∃ db', b.db.saveEventRarity now r = some db' ∧
    ∀ baselineRunId, baselineRunId = none ∨ baselineRunId = some r.baselineRunId →
      r ∈ db'.getEventRarity r.eventId baselineRunId ∧
      (db'.getEventRarity r.eventId baselineRunId).filter (fun x => x.recordKey = r.recordKey) =
        ((b.memory.saveEventRarity r).getEventRarity r.eventId baselineRunId).filter fun x => x.recordKey = r.recordKey

/-- what a save needs: its event and run, counts that fit, the exact method, and no other event type in its row -/
structure Survivable (db : PostgresRarity) (r : EventRarityResult) : Prop where
  event : r.eventId ∈ db.chainEvents
  run : r.baselineRunId ∈ db.baselineRuns
  population : r.populationSize < 2 ^ 63
  tail : r.tailCount < 2 ^ 63
  exact : r.percentileMethod = .exactEmpiricalCdf
  notEstimated : r.estimated = false
  sameType : ∀ row ∈ db.eventRarity, row.key = (r.eventId, r.baselineRunId, r.metric.serdeName) →
    row.eventType = r.eventType.serdeName

/-! ## One save -/

open RarityRow

/-- a refusal apart, the row holds the result with its number -/
theorem exists_withNumber {now : DateTime} {r : EventRarityResult} {row : RarityRow} (h : rowOf now r = some row) :
    r.populationSize < 2 ^ 63 ∧ r.tailCount < 2 ^ 63 ∧ ∃ x, row = withNumber now r x := by
  unfold rowOf at h
  split_ifs at h with hfits
  obtain ⟨x, -, rfl⟩ := Option.map_eq_some_iff.1 h
  simp only [fitsI64, Option.all_some, Bool.not_eq_true', Bool.not_eq_false, Bool.and_eq_true, decide_eq_true_eq] at hfits
  exact ⟨hfits.1, hfits.2, x, rfl⟩

theorem rowOf_eq {r : EventRarityResult} (hform : r.value.HasForm r.metric.form) (hpop : r.populationSize < 2 ^ 63)
    (htail : r.tailCount < 2 ^ 63) (now : DateTime) : rowOf now r = some (withNumber now r r.value.numeric) := by
  have hfits : fitsI64 (some r.populationSize) = true ∧ fitsI64 (some r.tailCount) = true := by
    simp only [fitsI64, Option.all_some, decide_eq_true_eq]
    exact ⟨hpop, htail⟩
  unfold rowOf
  rw [if_neg (by simp [hfits.1, hfits.2]), MetricValue.parse_toNumericString, Option.bind_some,
    MetricValue.fit_numeric hform]
  rfl

/-- the two columns that the query does not return -/
theorem ofRow_exact (row : RarityRow) : (ofRow row).percentileMethod = .exactEmpiricalCdf := by
  have hname : PercentileMethod.parse "EXACT_EMPIRICAL_CDF" = some .exactEmpiricalCdf :=
    PercentileMethod.parse_asStr .exactEmpiricalCdf
  simp [ofRow, tryGet, selectList, hname]

theorem ofRow_notEstimated (row : RarityRow) : (ofRow row).estimated = false := by
  simp [ofRow, tryGet, selectList]

/-- **What a row says.** Everything but the method and the mark of an estimate. -/
theorem ofRow_withNumber {r : EventRarityResult} (hform : r.value.HasForm r.metric.form) (now : DateTime) :
    ofRow (withNumber now r r.value.numeric) =
      { r with percentileMethod := .exactEmpiricalCdf, estimated := false } := by
  have hexact := ofRow_exact (withNumber now r r.value.numeric)
  have hestimated := ofRow_notEstimated (withNumber now r r.value.numeric)
  simp only [ofRow] at hexact hestimated ⊢
  rw [hexact, hestimated]
  simp [withNumber, MetricValue.fromStrAndMetric_print hform]

/-- an update leaves the event type -/
theorem ofRow_update {old new : RarityRow} (hkey : old.key = new.key) :
    ofRow (update old new) = { ofRow new with eventType := (ofRow old).eventType } := by
  simp only [RarityRow.key, Prod.mk.injEq] at hkey
  simp [ofRow, update, hkey]

/-! ## The tables -/

/-- one row per key, and the names are names -/
structure RowInv (rows : List RarityRow) : Prop where
  nodup : (rows.map RarityRow.key).Nodup
  metric : ∀ row ∈ rows, ∃ m : BaselineMetric, row.metric = m.serdeName
  eventType : ∀ row ∈ rows, ∃ t : EventType, row.eventType = t.serdeName

@[simp] theorem key_withNumber (now : DateTime) (r : EventRarityResult) (x : ℚ) :
    (withNumber now r x).key = (r.eventId, r.baselineRunId, r.metric.serdeName) := rfl

theorem key_update (old new : RarityRow) : (update old new).key = old.key := rfl

theorem rowInv_insert {rows : List RarityRow} (h : RowInv rows) (now : DateTime) (r : EventRarityResult) (x : ℚ) :
    RowInv (Table.insert RarityRow.key update (withNumber now r x) rows) := by
  have hmem : ∀ z, z ∈ Table.insert RarityRow.key update (withNumber now r x) rows ↔
      z = Table.merged RarityRow.key update (withNumber now r x) rows ∨ (z ∈ rows ∧ z.key ≠ (withNumber now r x).key) :=
    fun z => Table.mem_insert_iff key_update h.nodup
  have hmerged : ∀ z, z = Table.merged RarityRow.key update (withNumber now r x) rows →
      (∃ m : BaselineMetric, z.metric = m.serdeName) ∧ ∃ t : EventType, z.eventType = t.serdeName := by
    intro z hz
    unfold Table.merged at hz
    cases hl : Table.lookup RarityRow.key (withNumber now r x).key rows with
    | none =>
      rw [hl] at hz
      exact hz ▸ ⟨⟨r.metric, rfl⟩, ⟨r.eventType, rfl⟩⟩
    | some old =>
      rw [hl] at hz
      have hold := List.mem_of_find?_eq_some hl
      exact hz ▸ ⟨h.metric old hold, h.eventType old hold⟩
  refine ⟨Table.nodup_insert key_update h.nodup _, ?_, ?_⟩
  · intro z hz
    rcases (hmem z).1 hz with heq | ⟨hold, -⟩
    · exact (hmerged z heq).1
    · exact h.metric z hold
  · intro z hz
    rcases (hmem z).1 hz with heq | ⟨hold, -⟩
    · exact (hmerged z heq).2
    · exact h.eventType z hold

/-- the rows are told apart by what is read of them -/
theorem RowInv.nodup_decoded {rows : List RarityRow} (h : RowInv rows) :
    (rows.map fun row => (ofRow row).recordKey).Nodup := by
  have hkeys : rows.map RarityRow.key =
      (rows.map fun row => (ofRow row).recordKey).map fun k => (k.1, k.2.1, k.2.2.serdeName) := by
    rw [List.map_map]
    apply List.map_congr_left
    intro row hrow
    obtain ⟨m, hm⟩ := h.metric row hrow
    simp [RarityRow.key, EventRarityResult.recordKey, ofRow, hm]
  have hnodup := h.nodup
  rw [hkeys] at hnodup
  exact hnodup.of_map

theorem mem_getEventRarity {db : PostgresRarity} {eventId : Uuid} {baselineRunId : Option Uuid} {x : EventRarityResult} :
    x ∈ db.getEventRarity eventId baselineRunId ↔
      ∃ row ∈ db.eventRarity, selectsRun eventId baselineRunId row.eventId row.baselineRunId = true ∧ ofRow row = x := by
  simp [PostgresRarity.getEventRarity, and_assoc]

theorem nodup_getEventRarity {db : PostgresRarity} (h : RowInv db.eventRarity) (eventId : Uuid)
    (baselineRunId : Option Uuid) : ((db.getEventRarity eventId baselineRunId).map (·.recordKey)).Nodup := by
  unfold PostgresRarity.getEventRarity
  rw [List.map_map]
  have hperm := ((db.eventRarity.filter fun row =>
    selectsRun eventId baselineRunId row.eventId row.baselineRunId).perm_insertionSort
      (fun a b => a.createdAt ≤ b.createdAt)).map fun row => (ofRow row).recordKey
  apply hperm.nodup_iff.2
  exact (List.filter_sublist.map _).nodup h.nodup_decoded

theorem sameRecord_iff (rarity r : EventRarityResult) :
    (r.eventId == rarity.eventId && r.baselineRunId == rarity.baselineRunId && r.metric == rarity.metric) = true ↔
      r.recordKey = rarity.recordKey := by
  simp [EventRarityResult.recordKey, and_assoc]

theorem nodup_memory_save {m : MemoryRarity} (h : (m.eventRarity.map (·.recordKey)).Nodup) (r : EventRarityResult) :
    ((m.saveEventRarity r).eventRarity.map (·.recordKey)).Nodup :=
  nodup_upsert (·.recordKey) (fun x _ => sameRecord_iff r x) h

theorem selectsRun_self {r : EventRarityResult} {baselineRunId : Option Uuid}
    (h : baselineRunId = none ∨ baselineRunId = some r.baselineRunId) :
    selectsRun r.eventId baselineRunId r.eventId r.baselineRunId = true := by
  rcases h with rfl | rfl <;> simp [selectsRun]

/-- **The in-memory store** returns what was saved. -/
theorem memory_returns {m : MemoryRarity} (h : (m.eventRarity.map (·.recordKey)).Nodup) (r : EventRarityResult)
    {baselineRunId : Option Uuid} (hrun : baselineRunId = none ∨ baselineRunId = some r.baselineRunId) :
    ((m.saveEventRarity r).getEventRarity r.eventId baselineRunId).filter (fun x => x.recordKey = r.recordKey) = [r] := by
  apply filter_key_eq EventRarityResult.recordKey
  · exact (List.filter_sublist.map _).nodup (nodup_memory_save h r)
  · exact List.mem_filter.2 ⟨mem_upsert_self _ r _, selectsRun_self hrun⟩

/-- the row that a save leaves says the result, exactly when the method is exact and the type the stored one -/
theorem ofRow_merged_iff {rows : List RarityRow} (h : RowInv rows) {r : EventRarityResult}
    (hform : r.value.HasForm r.metric.form) (now : DateTime) :
    ofRow (Table.merged RarityRow.key update (withNumber now r r.value.numeric) rows) = r ↔
      r.percentileMethod = .exactEmpiricalCdf ∧ r.estimated = false ∧
        ∀ row ∈ rows, row.key = (r.eventId, r.baselineRunId, r.metric.serdeName) →
          row.eventType = r.eventType.serdeName := by
  have hnew := ofRow_withNumber hform now
  unfold Table.merged
  cases hl : Table.lookup RarityRow.key (withNumber now r r.value.numeric).key rows with
  | none =>
    have hnone : ∀ row ∈ rows, row.key ≠ (r.eventId, r.baselineRunId, r.metric.serdeName) := by
      intro row hrow hkey
      exact List.find?_eq_none.1 hl row hrow (decide_eq_true hkey)
    show ofRow (withNumber now r r.value.numeric) = r ↔ _
    rw [hnew]
    constructor
    · intro heq
      rw [← heq]
      exact ⟨rfl, rfl, fun row hrow hkey => absurd hkey (hnone row hrow)⟩
    · intro hcond
      rw [← hcond.1, ← hcond.2.1]
  | some old =>
    obtain ⟨hold, hkey⟩ := (Table.lookup_eq_some h.nodup).1 hl
    obtain ⟨t, ht⟩ := h.eventType old hold
    have htype : (ofRow old).eventType = t := by simp [ofRow, ht]
    show ofRow (update old (withNumber now r r.value.numeric)) = r ↔ _
    rw [ofRow_update hkey, hnew, htype]
    constructor
    · intro heq
      have htr : t = r.eventType := congrArg EventRarityResult.eventType heq
      have hexact : PercentileMethod.exactEmpiricalCdf = r.percentileMethod := congrArg EventRarityResult.percentileMethod heq
      have hestimated : false = r.estimated := congrArg EventRarityResult.estimated heq
      refine ⟨hexact.symm, hestimated.symm, ?_⟩
      intro row hrow hk
      obtain rfl := List.inj_on_of_nodup_map h.nodup hrow hold (hk.trans hkey.symm)
      rw [ht, htr]
    · intro hcond
      obtain ⟨hexact, hestimated, hsame⟩ := hcond
      have htr : t = r.eventType := EventType.serdeName_inj.1 (ht.symm.trans (hsame old hold hkey))
      rw [← hexact, ← hestimated, htr]

/-- **One save.** From tables with one record per key, a result with a value in the form of its metric survives exactly
when it is survivable. -/
theorem survives_iff {b : RarityBackends} (hrows : RowInv b.db.eventRarity)
    (hmemory : (b.memory.eventRarity.map (·.recordKey)).Nodup) {r : EventRarityResult}
    (hform : r.value.HasForm r.metric.form) (now : DateTime) : Survives b now r ↔ Survivable b.db r := by
  have hmerged := ofRow_merged_iff hrows hform now
  constructor
  · intro hsurvives
    obtain ⟨db', hsave, hget⟩ := hsurvives
    obtain ⟨row, hrow, hsave⟩ := Option.bind_eq_some_iff.1 hsave
    obtain ⟨hpop, htail, -⟩ := exists_withNumber hrow
    rw [rowOf_eq hform hpop htail now, Option.some.injEq] at hrow
    subst hrow
    split_ifs at hsave with hrefs
    obtain rfl := Option.some.inj hsave
    -- the row it is read from is the one of its key
    obtain ⟨z, hz, -, hzr⟩ := mem_getEventRarity.1 (hget none (.inl rfl)).1
    have hz' := (Table.mem_insert_iff key_update hrows.nodup).1 hz
    have hmine : z = Table.merged RarityRow.key update (withNumber now r r.value.numeric) b.db.eventRarity := by
      refine hz'.resolve_right ?_
      intro hother
      obtain ⟨m, hm⟩ := hrows.metric z hother.1
      have hevent : z.eventId = r.eventId := congrArg EventRarityResult.eventId hzr
      have hrun : z.baselineRunId = r.baselineRunId := congrArg EventRarityResult.baselineRunId hzr
      have hmetric : m = r.metric := by
        have hread := congrArg EventRarityResult.metric hzr
        simpa [ofRow, hm] using hread
      apply hother.2
      rw [key_withNumber, RarityRow.key, hevent, hrun, hm, hmetric]
    obtain ⟨hexact, hestimated, hsame⟩ := hmerged.1 (hmine ▸ hzr)
    exact ⟨hrefs.1, hrefs.2, hpop, htail, hexact, hestimated, hsame⟩
  · intro hcond
    have hread := hmerged.2 ⟨hcond.exact, hcond.notEstimated, hcond.sameType⟩
    have hinv := rowInv_insert hrows now r r.value.numeric
    refine ⟨_, by
      rw [PostgresRarity.saveEventRarity, rowOf_eq hform hcond.population hcond.tail now, Option.bind_some,
        if_pos ⟨hcond.event, hcond.run⟩], ?_⟩
    intro baselineRunId hrun
    have hmem : r ∈ PostgresRarity.getEventRarity { b.db with
        eventRarity := Table.insert RarityRow.key update (withNumber now r r.value.numeric) b.db.eventRarity }
        r.eventId baselineRunId := by
      refine mem_getEventRarity.2 ⟨_, (Table.mem_insert_iff key_update hrows.nodup).2 (.inl rfl), ?_, hread⟩
      have hkey := Table.key_merged key_update (withNumber now r r.value.numeric) b.db.eventRarity
      simp only [RarityRow.key, Prod.mk.injEq] at hkey
      rw [hkey.1, hkey.2.1]
      exact selectsRun_self hrun
    refine ⟨hmem, ?_⟩
    rw [memory_returns hmemory r hrun]
    exact filter_key_eq EventRarityResult.recordKey (nodup_getEventRarity hinv r.eventId baselineRunId) hmem

/-! ## Runs of saves -/

theorem save_inv {b : RarityBackends}
    (h : RowInv b.db.eventRarity ∧ (b.memory.eventRarity.map (·.recordKey)).Nodup) (op : DateTime × EventRarityResult) :
    RowInv (b.save op).db.eventRarity ∧ ((b.save op).memory.eventRarity.map (·.recordKey)).Nodup := by
  refine ⟨?_, nodup_memory_save h.2 op.2⟩
  show RowInv ((b.db.saveEventRarity op.1 op.2).getD b.db).eventRarity
  cases hsave : b.db.saveEventRarity op.1 op.2 with
  | none => exact h.1
  | some db' =>
    obtain ⟨row, hrow, hif⟩ := Option.bind_eq_some_iff.1 hsave
    obtain ⟨-, -, x, rfl⟩ := exists_withNumber hrow
    split_ifs at hif
    obtain rfl := Option.some.inj hif
    exact rowInv_insert h.1 op.1 op.2 x

theorem run_tables_inv (chainEvents baselineRuns : List Uuid) (ops : List (DateTime × EventRarityResult)) :
    RowInv (Trace.run save (empty chainEvents baselineRuns) ops).db.eventRarity ∧
      ((Trace.run save (empty chainEvents baselineRuns) ops).memory.eventRarity.map (·.recordKey)).Nodup := by
  apply Trace.run_inv_all (I := fun b : RarityBackends =>
    RowInv b.db.eventRarity ∧ (b.memory.eventRarity.map (·.recordKey)).Nodup)
  · intro b op h
    exact save_inv h op
  · exact ⟨⟨List.nodup_nil, by simp [empty], by simp [empty]⟩, List.nodup_nil⟩

/-- an insert into the rows is the replacement of what they decode to -/
theorem map_ofRow_insert {rows : List RarityRow} (h : RowInv rows) {r : EventRarityResult}
    {now : DateTime}
    (hread : ofRow (Table.merged RarityRow.key update (withNumber now r r.value.numeric) rows) = r) :
    (Table.insert RarityRow.key update (withNumber now r r.value.numeric) rows).map ofRow =
      ((⟨rows.map ofRow⟩ : MemoryRarity).saveEventRarity r).eventRarity := by
  have hsame : ∀ row ∈ rows, decide (row.key = (withNumber now r r.value.numeric).key) =
      ((ofRow row).eventId == r.eventId && (ofRow row).baselineRunId == r.baselineRunId &&
        (ofRow row).metric == r.metric) := by
    intro row hrow
    obtain ⟨m, hm⟩ := h.metric row hrow
    have hmetric : (ofRow row).metric = m := by simp [ofRow, hm]
    rw [Bool.eq_iff_iff, sameRecord_iff, decide_eq_true_eq, key_withNumber, RarityRow.key, EventRarityResult.recordKey,
      EventRarityResult.recordKey, hmetric, hm]
    simp only [Prod.mk.injEq, BaselineMetric.serdeName_inj]
    exact Iff.rfl
  unfold MemoryRarity.saveEventRarity
  calc (Table.insert RarityRow.key update (withNumber now r r.value.numeric) rows).map ofRow
      = (upsert _ (Table.merged RarityRow.key update (withNumber now r r.value.numeric) rows) rows).map ofRow := by
        rw [Table.insert_eq_upsert]
    _ = upsert (fun x => x.eventId == r.eventId && x.baselineRunId == r.baselineRunId && x.metric == r.metric)
          (ofRow (Table.merged RarityRow.key update (withNumber now r r.value.numeric) rows)) (rows.map ofRow) :=
        map_upsert_view ofRow hsame
    _ = _ := by rw [hread]

/-- what both stores hold agrees -/
def Agrees (b : RarityBackends) : Prop := b.db.eventRarity.map ofRow = b.memory.eventRarity

/-- **Step.** A save that is survivable keeps the agreement. -/
theorem save_agrees {b : RarityBackends} (hrows : RowInv b.db.eventRarity) (h : Agrees b)
    {op : DateTime × EventRarityResult} (hform : op.2.value.HasForm op.2.metric.form) (hcond : Survivable b.db op.2) :
    Agrees (b.save op) := by
  have hread := (ofRow_merged_iff hrows hform op.1).2 ⟨hcond.exact, hcond.notEstimated, hcond.sameType⟩
  have hsave : b.db.saveEventRarity op.1 op.2 = some { b.db with
      eventRarity := Table.insert RarityRow.key update (withNumber op.1 op.2 op.2.value.numeric) b.db.eventRarity } := by
    rw [PostgresRarity.saveEventRarity, rowOf_eq hform hcond.population hcond.tail op.1, Option.bind_some,
      if_pos ⟨hcond.event, hcond.run⟩]
  unfold Agrees at h ⊢
  simp only [save, hsave, Option.getD_some]
  rw [map_ofRow_insert hrows hread, h]

/-- the saves that the agreement survives -/
def Sound (b : RarityBackends) (op : DateTime × EventRarityResult) : Prop :=
  Extracted op.2.eventType op.2.metric op.2.value ∧ Survivable b.db op.2

/-- **Run.** Along sound saves the rows decode to what the in-memory store holds. -/
theorem decoded_eq_memory {chainEvents baselineRuns : List Uuid} {ops : List (DateTime × EventRarityResult)}
    (h : Trace.Steps save Sound (empty chainEvents baselineRuns) ops) :
    Agrees (Trace.run save (empty chainEvents baselineRuns) ops) := by
  have hinv : (RowInv (Trace.run save (empty chainEvents baselineRuns) ops).db.eventRarity ∧
      ((Trace.run save (empty chainEvents baselineRuns) ops).memory.eventRarity.map (·.recordKey)).Nodup) ∧
      Agrees (Trace.run save (empty chainEvents baselineRuns) ops) := by
    refine Trace.run_inv (I := fun b : RarityBackends =>
      (RowInv b.db.eventRarity ∧ (b.memory.eventRarity.map (·.recordKey)).Nodup) ∧ Agrees b) ?_ ?_ h
    · intro b op hb hop
      exact ⟨save_inv hb.1 op, save_agrees hb.1.1 hb.2 hop.1.hasForm hop.2⟩
    · exact ⟨run_tables_inv chainEvents baselineRuns [], rfl⟩
  exact hinv.2

/-- stores that agree answer every query alike -/
theorem Agrees.query {b : RarityBackends} (h : Agrees b) (eventId : Uuid) (baselineRunId : Option Uuid) :
    (b.db.getEventRarity eventId baselineRunId).Perm (b.memory.getEventRarity eventId baselineRunId) := by
  unfold PostgresRarity.getEventRarity MemoryRarity.getEventRarity
  rw [← h, List.filter_map]
  exact (List.perm_insertionSort _ _).map ofRow

/-- **Rarity results in Postgres.** Into tables that any earlier saves left, a result whose value the extractor gave for
its metric is saved and returned equal to itself, as the in-memory store returns it, exactly when it is survivable. Along
saves that all are, both stores answer every query with the same results. -/
theorem rarity_survives_iff (chainEvents baselineRuns : List Uuid) (earlier : List (DateTime × EventRarityResult))
    (now : DateTime) (r : EventRarityResult) (hvalue : Extracted r.eventType r.metric r.value) :
    (Survives (Trace.run save (empty chainEvents baselineRuns) earlier) now r ↔
      Survivable (Trace.run save (empty chainEvents baselineRuns) earlier).db r) ∧
    (Trace.Steps save Sound (empty chainEvents baselineRuns) (earlier ++ [(now, r)]) →
      ∀ eventId baselineRunId,
        ((Trace.run save (empty chainEvents baselineRuns) (earlier ++ [(now, r)])).db.getEventRarity eventId
          baselineRunId).Perm
        ((Trace.run save (empty chainEvents baselineRuns) (earlier ++ [(now, r)])).memory.getEventRarity eventId
          baselineRunId)) := by
  obtain ⟨hrows, hmemory⟩ := run_tables_inv chainEvents baselineRuns earlier
  refine ⟨survives_iff hrows hmemory hvalue.hasForm now, ?_⟩
  intro hsteps eventId baselineRunId
  exact (decoded_eq_memory hsteps).query eventId baselineRunId

/-! ## An estimate -/

/-- a fee rate of 12.34 against a population of 100 -/
def feeRarity (percentileMethod : PercentileMethod) (estimated : Bool) : EventRarityResult :=
  { eventId := 1, baselineRunId := 9, eventType := .extremeFee, metric := .feeRateSatVb, value := .decimalScaled 1234 2,
    percentile := some 97, percentileMethod := percentileMethod, estimated := estimated, rarityBand := .unusual,
    populationSize := 100, tailCount := 4, evaluationMode := .retrospective }

theorem feeRarity_extracted (percentileMethod : PercentileMethod) (estimated : Bool) :
    Extracted (feeRarity percentileMethod estimated).eventType (feeRarity percentileMethod estimated).metric
      (feeRarity percentileMethod estimated).value := by
  have hrate : EventMetricExtractor.extractMetric (InMemoryStorage.feeEvent 1 (1234 / 100)) .feeRateSatVb =
      some (.decimalScaled 1234 2) := by
    decide +kernel
  exact ⟨InMemoryStorage.feeEvent 1 (1234 / 100), rfl, hrate⟩

/-- an exact rank survives -/
theorem rarity_survives_iff_exact : Survives (empty [1] [9]) 0 (feeRarity .exactEmpiricalCdf false) := by
  have hiff := (rarity_survives_iff [1] [9] [] 0 (feeRarity .exactEmpiricalCdf false) (feeRarity_extracted _ _)).1
  apply hiff.2
  exact ⟨by decide, by decide, by decide, by decide, rfl, rfl, by simp [Trace.run, empty]⟩

/-- **An interpolated percentile comes back as an exact one.** -/
theorem estimate_read_as_exact :
    ¬ Survives (empty [1] [9]) 0 (feeRarity .quantileInterpolationEstimate true) ∧
      ((empty [1] [9]).db.saveEventRarity 0 (feeRarity .quantileInterpolationEstimate true)).map
          (fun db => db.getEventRarity 1 (some 9)) = some [feeRarity .exactEmpiricalCdf false] ∧
      ((empty [1] [9]).memory.saveEventRarity (feeRarity .quantileInterpolationEstimate true)).getEventRarity 1 (some 9) =
        [feeRarity .quantileInterpolationEstimate true] := by
  have hform := (feeRarity_extracted .quantileInterpolationEstimate true).hasForm
  refine ⟨?_, ?_, rfl⟩
  · intro h
    have hcond := (survives_iff (run_tables_inv [1] [9] []).1 (run_tables_inv [1] [9] []).2 hform 0).1 h
    exact absurd hcond.exact (by decide)
  · have hread := ofRow_withNumber hform 0
    rw [PostgresRarity.saveEventRarity, rowOf_eq hform (by decide) (by decide) 0, Option.bind_some,
      if_pos ⟨by decide, by decide⟩]
    simp only [Option.map_some, PostgresRarity.getEventRarity, empty, Table.insert]
    rw [List.filter_cons_of_pos (by decide)]
    show some [ofRow _] = _
    rw [hread]
    rfl

end RarityBackends

end ObsChain
