/-
The incident dossier in Postgres (`save_incident` and `get_incident_by_id` of `postgres.rs`, the tables of
`0002_durable_persistence.sql`; `save_incident` of `repository.rs`).

The in-memory store replaces the dossier. Postgres spreads it over tables, each with a list of columns that an update takes
over: of a source the publisher, title, url and score, of a timeline entry all but the timestamp and the source, of an
evidence item the title, description, verification and raw data and not the confidence. A recovery summary is a snapshot
that is inserted only when its timestamp is new, and the latest timestamp is read. No row is deleted.

Model: a `Layout` for each of the four lists, with the columns as the source has them; `tryWrite` makes the inserts with
the checks of the program (u64 values that fit an i64) and of the database (foreign keys, scores, timestamps). A column
that holds the name of a variant holds the variant: the names are distinct and are read back. JSON columns hold the value.
A timestamp is in microseconds, and `created_at` is the time of the transaction.

- `reads_saved_iff`: after a save, Postgres returns the saved recovery and lists exactly when the save is `Faithful`, a
  condition on the tables before it; `Reads.saved_other`: such a save leaves those of every other dossier.
- `last_save_kept_iff`: so along every run of successful saves, of one incident or of several, the two stores return the
  same in every state exactly when every save is faithful.
- `latestSnapshot_run`, `foldl_laterSnapshot`: the recovery that is read is the first one saved for the latest date.
- `last_save_read`: what is returned after any run of successful saves of one incident.
Witness: `correction_reads_old` (a later recovery with a corrected confidence and a source taken out).

Not modelled: column widths, `NUL` characters, and the order of the lists that are read.
-/
import Mathlib.Tactic
import ObsChain.Core.Sql
import ObsChain.Core.Table
import ObsChain.Core.Trace
import ObsChain.Core.Upsert
import ObsChain.Domain.Incident
import ObsChain.Storage.InMemory

namespace ObsChain

/-! ## Tables -/

/-- a row of `incidents` -/
structure IncidentRow where
  id : Uuid
  caseId : String
  title : String
  summary : String
  status : IncidentStatus
  severity : EventSeverity
  firstObservedAt : ℤ
  lastUpdatedAt : ℤ
  structuredClaims : StructuredClaimsSummary
  facts : List String
  reportedClaims : List String
  unverifiedClaims : List String
  associatedTxids : List String
  associatedBlockHeights : List ℕ
deriving Repr

/-- a row of `incident_recovery_snapshots` -/
structure SnapshotRow where
  incidentId : Uuid
  affectedSats : ℕ
  recoveredSats : ℕ
  outstandingSats : ℕ
  isEstimate : Bool
  asOfTimestamp : ℤ
  sourceLabel : Option String
deriving DecidableEq, Repr

/-- a row of `incident_sources` -/
structure SourceRow where
  id : Uuid
  incidentId : Uuid
  publisher : String
  title : String
  url : Option String
  publicationTimestamp : Option ℤ
  retrievedTimestamp : Option ℤ
  sourceCategory : SourceCategory
  reliabilityScore : ℚ
  name : Option String
deriving DecidableEq, Repr

/-- a row of `incident_evidence` -/
structure EvidenceRow where
  id : Uuid
  incidentId : Uuid
  evidenceType : EvidenceType
  confidence : ProvenanceClassification
  title : String
  description : String
  observedAt : Option ℤ
  sourceId : Option Uuid
  sourceReference : Option String
  txid : Option String
  blockHash : Option String
  blockHeight : Option ℕ
  chain : Chain
  verified : Bool
  rawData : Option Value
  createdAt : ℤ
deriving Repr

/-- a row of `incident_transactions` -/
structure TransactionRow where
  incidentId : Uuid
  chain : Chain
  txid : String
  role : TransactionRole
  amountSats : Option ℕ
  blockHeight : Option ℕ
  blockHash : Option String
  confirmedAt : Option ℤ
  evidenceId : Option Uuid
  notes : Option String
deriving DecidableEq, Repr

/-- a row of `incident_timeline` -/
structure TimelineRow where
  id : Uuid
  incidentId : Uuid
  timestamp : ℤ
  title : String
  description : String
  category : TimelineCategory
  sourceId : Option Uuid
  evidenceIds : List Uuid
  transactionTxids : List String
  blockHeights : List ℕ
  classification : ProvenanceClassification
deriving DecidableEq, Repr

structure IncidentDatabase where
  incidents : List IncidentRow
  snapshots : List SnapshotRow
  sources : List SourceRow
  evidence : List EvidenceRow
  transactions : List TransactionRow
  timeline : List TimelineRow

namespace IncidentDatabase

/-! ## Layouts -/

/-- a column of timestamps keeps a time in whole microseconds -/
def Whole (t : Option DateTime) : Prop := ∀ x ∈ t, (1000 : ℤ) ∣ x

def writeTime (t : Option DateTime) : Option ℤ := t.map Sql.toMicros

def readTime (t : Option ℤ) : Option DateTime := t.map Sql.ofMicros

theorem readTime_writeTime (t : Option DateTime) : readTime (writeTime t) = t ↔ Whole t := by
  cases t with
  | none => simp [readTime, writeTime, Whole]
  | some x => simp [readTime, writeTime, Whole, Sql.ofMicros_toMicros]

def sourceLayout : Layout ℤ Uuid Source SourceRow Uuid where
  key r := r.id
  update old new :=
    { old with publisher := new.publisher, title := new.title, url := new.url, reliabilityScore := new.reliabilityScore }
  owner r := r.incidentId
  row _ id src :=
    { id := src.id, incidentId := id, publisher := src.publisher, title := src.title, url := src.url
      publicationTimestamp := writeTime src.publicationTimestamp, retrievedTimestamp := writeTime src.retrievedTimestamp
      sourceCategory := src.sourceCategory, reliabilityScore := src.reliabilityScore, name := src.name }
  read s :=
    { id := s.id, publisher := s.publisher, title := s.title, url := s.url
      publicationTimestamp := readTime s.publicationTimestamp, retrievedTimestamp := readTime s.retrievedTimestamp
      sourceCategory := s.sourceCategory, reliabilityScore := s.reliabilityScore, name := s.name }
  keyOf _ src := src.id
  Fits _ _ src := Whole src.publicationTimestamp ∧ Whole src.retrievedTimestamp
  Settled old src :=
    readTime old.publicationTimestamp = src.publicationTimestamp ∧ readTime old.retrievedTimestamp = src.retrievedTimestamp ∧
      old.sourceCategory = src.sourceCategory ∧ old.name = src.name
  key_update _ _ := rfl
  owner_update _ _ := rfl
  update_self _ := rfl
  update_update _ _ := rfl
  key_row _ _ _ := rfl
  owner_row _ _ _ := rfl
  key_eq _ := rfl
  read_row _ _ src := by
    simp [Source.ext_iff, readTime_writeTime]
  read_update _ _ src old _ hk := by
    simp_all [Source.ext_iff]

def evidenceLayout : Layout ℤ Uuid Evidence EvidenceRow Uuid where
  key r := r.id
  update old new :=
    { old with title := new.title, description := new.description, verified := new.verified, rawData := new.rawData }
  owner r := r.incidentId
  -- `created_at` is not bound: the column takes the time of the transaction
  row now id ev :=
    { id := ev.id, incidentId := id, evidenceType := ev.evidenceType, confidence := ev.confidence, title := ev.title
      description := ev.description, observedAt := writeTime ev.observedAt, sourceId := ev.sourceId
      sourceReference := ev.sourceReference, txid := ev.txid, blockHash := ev.blockHash, blockHeight := ev.blockHeight
      chain := ev.chain, verified := ev.verified, rawData := ev.rawData, createdAt := now }
  read ev :=
    { id := ev.id, incidentId := ev.incidentId, evidenceType := ev.evidenceType, confidence := ev.confidence
      title := ev.title, description := ev.description, observedAt := readTime ev.observedAt, sourceId := ev.sourceId
      sourceReference := ev.sourceReference, txid := ev.txid, blockHash := ev.blockHash, blockHeight := ev.blockHeight
      chain := ev.chain, verified := ev.verified, rawData := ev.rawData, createdAt := Sql.ofMicros ev.createdAt
      reference := none, classification := none }
  keyOf _ ev := ev.id
  Fits now id ev :=
    id = ev.incidentId ∧ Whole ev.observedAt ∧ Sql.ofMicros now = ev.createdAt ∧ ev.reference = none ∧
      ev.classification = none
  Settled old ev :=
    old.incidentId = ev.incidentId ∧ old.evidenceType = ev.evidenceType ∧ old.confidence = ev.confidence ∧
      readTime old.observedAt = ev.observedAt ∧ old.sourceId = ev.sourceId ∧ old.sourceReference = ev.sourceReference ∧
      old.txid = ev.txid ∧ old.blockHash = ev.blockHash ∧ old.blockHeight = ev.blockHeight ∧ old.chain = ev.chain ∧
      Sql.ofMicros old.createdAt = ev.createdAt ∧ ev.reference = none ∧ ev.classification = none
  key_update _ _ := rfl
  owner_update _ _ := rfl
  update_self _ := rfl
  update_update _ _ := rfl
  key_row _ _ _ := rfl
  owner_row _ _ _ := rfl
  key_eq _ := rfl
  read_row _ _ ev := by
    simp [Evidence.ext_iff, readTime_writeTime, @eq_comm _ none]
  read_update _ _ ev old _ hk := by
    simp [Evidence.ext_iff, hk, @eq_comm _ none]

def transactionLayout : Layout ℤ Uuid IncidentTransaction TransactionRow (Uuid × Chain × String) where
  key r := (r.incidentId, r.chain, r.txid)
  update old new :=
    { old with
      role := new.role, amountSats := new.amountSats, blockHeight := new.blockHeight, blockHash := new.blockHash
      confirmedAt := new.confirmedAt, evidenceId := new.evidenceId, notes := new.notes }
  owner r := r.incidentId
  row _ id itx :=
    { incidentId := id, chain := itx.chain, txid := itx.txid, role := itx.role, amountSats := itx.amountSats
      blockHeight := itx.blockHeight, blockHash := itx.blockHash, confirmedAt := writeTime itx.confirmedAt
      evidenceId := itx.evidenceId, notes := itx.notes }
  read t :=
    { chain := t.chain, txid := t.txid, role := t.role, amountSats := t.amountSats, blockHeight := t.blockHeight
      blockHash := t.blockHash, confirmedAt := readTime t.confirmedAt, evidenceId := t.evidenceId, notes := t.notes }
  keyOf id itx := (id, itx.chain, itx.txid)
  Fits _ _ itx := Whole itx.confirmedAt
  Settled _ itx := Whole itx.confirmedAt
  key_update _ _ := rfl
  owner_update _ _ := rfl
  update_self _ := rfl
  update_update _ _ := rfl
  key_row _ _ _ := rfl
  owner_row _ _ _ := rfl
  key_eq _ := rfl
  read_row _ _ itx := by
    simp [IncidentTransaction.ext_iff, readTime_writeTime]
  read_update _ _ itx old _ hk := by
    simp_all [IncidentTransaction.ext_iff, readTime_writeTime]

def timelineLayout : Layout ℤ Uuid TimelineEntry TimelineRow Uuid where
  key r := r.id
  update old new :=
    { old with
      title := new.title, description := new.description, category := new.category, evidenceIds := new.evidenceIds
      transactionTxids := new.transactionTxids, blockHeights := new.blockHeights, classification := new.classification }
  owner r := r.incidentId
  row _ id tl :=
    { id := tl.id, incidentId := id, timestamp := Sql.toMicros tl.timestamp, title := tl.title
      description := tl.description, category := tl.category, sourceId := tl.sourceId, evidenceIds := tl.evidenceIds
      transactionTxids := tl.transactionTxids, blockHeights := tl.blockHeights, classification := tl.classification }
  read tl :=
    { id := tl.id, timestamp := Sql.ofMicros tl.timestamp, title := tl.title, description := tl.description
      category := tl.category, sourceId := tl.sourceId, evidenceIds := tl.evidenceIds
      transactionTxids := tl.transactionTxids, blockHeights := tl.blockHeights, classification := tl.classification }
  keyOf _ tl := tl.id
  Fits _ _ tl := 1000 ∣ tl.timestamp
  Settled old tl := Sql.ofMicros old.timestamp = tl.timestamp ∧ old.sourceId = tl.sourceId
  key_update _ _ := rfl
  owner_update _ _ := rfl
  update_self _ := rfl
  update_update _ _ := rfl
  key_row _ _ _ := rfl
  owner_row _ _ _ := rfl
  key_eq _ := rfl
  read_row _ _ tl := by
    simp [TimelineEntry.ext_iff, Sql.ofMicros_toMicros]
  read_update _ _ tl old _ hk := by
    simp_all [TimelineEntry.ext_iff]

/-! ## The save -/

def coreRow (incident : Incident) : IncidentRow where
  id := incident.id
  caseId := incident.caseId
  title := incident.title
  summary := incident.summary
  status := incident.status
  severity := incident.severity
  firstObservedAt := Sql.toMicros incident.firstObservedAt
  lastUpdatedAt := Sql.toMicros incident.lastUpdatedAt
  structuredClaims := incident.structuredClaims
  facts := incident.facts
  reportedClaims := incident.reportedClaims
  unverifiedClaims := incident.unverifiedClaims
  associatedTxids := incident.associatedTxids
  associatedBlockHeights := incident.associatedBlockHeights

/-- everything but the first observation -/
def updateCore (old new : IncidentRow) : IncidentRow :=
  { new with id := old.id, firstObservedAt := old.firstObservedAt }

theorem id_updateCore (old new : IncidentRow) : (updateCore old new).id = old.id := rfl

def snapshotRow (id : Uuid) (recovery : RecoverySummary) : SnapshotRow where
  incidentId := id
  affectedSats := recovery.affectedSats
  recoveredSats := recovery.recoveredSats
  outstandingSats := recovery.outstandingSats
  isEstimate := recovery.isEstimate
  asOfTimestamp := Sql.toMicros recovery.asOfTimestamp
  sourceLabel := recovery.source

/-- the query for a snapshot of the incident with the timestamp -/
def hasSnapshot (rows : List SnapshotRow) (id : Uuid) (recovery : RecoverySummary) : Bool :=
  rows.any fun s => s.incidentId == id && s.asOfTimestamp == Sql.toMicros recovery.asOfTimestamp

/-- a snapshot is inserted when there is none of its timestamp -/
def addSnapshot (rows : List SnapshotRow) (id : Uuid) (recovery : RecoverySummary) : List SnapshotRow :=
  if hasSnapshot rows id recovery then rows else rows ++ [snapshotRow id recovery]

/-- the amounts fit, and an inserted snapshot has not recovered more than was affected -/
def acceptsSnapshot (rows : List SnapshotRow) (id : Uuid) (recovery : RecoverySummary) : Bool :=
  fitsI64 (some recovery.affectedSats) && fitsI64 (some recovery.recoveredSats) &&
    fitsI64 (some recovery.outstandingSats) && Sql.inRange (Sql.toMicros recovery.asOfTimestamp) &&
    (hasSnapshot rows id recovery || decide (recovery.recoveredSats ≤ recovery.affectedSats))

/-- a case id belongs to one incident -/
def acceptsCore (rows : List IncidentRow) (row : IncidentRow) : Bool :=
  Sql.inRange row.firstObservedAt && Sql.inRange row.lastUpdatedAt &&
    rows.all fun r => r.id == row.id || r.caseId != row.caseId

def acceptsSource (_ : List SourceRow) (row : SourceRow) : Bool :=
  row.publicationTimestamp.all Sql.inRange && row.retrievedTimestamp.all Sql.inRange &&
    decide (0 ≤ row.reliabilityScore) && decide (row.reliabilityScore ≤ 1)

/-- the source of a new row is there; an update does not write the column -/
def acceptsEvidence (sources : List SourceRow) (rows : List EvidenceRow) (row : EvidenceRow) : Bool :=
  fitsI64 row.blockHeight && row.observedAt.all Sql.inRange &&
    ((rows.any fun r => r.id == row.id) || row.sourceId.all fun src => sources.any fun s => s.id == src)

def acceptsTransaction (evidence : List EvidenceRow) (_ : List TransactionRow) (row : TransactionRow) : Bool :=
  fitsI64 row.amountSats && fitsI64 row.blockHeight && row.confirmedAt.all Sql.inRange &&
    row.evidenceId.all fun ev => evidence.any fun e => e.id == ev

def acceptsTimeline (sources : List SourceRow) (rows : List TimelineRow) (row : TimelineRow) : Bool :=
  Sql.inRange row.timestamp &&
    ((rows.any fun r => r.id == row.id) || row.sourceId.all fun src => sources.any fun s => s.id == src)

/-- one transaction: all tables are written, or none -/
def saveIncident (now : ℤ) (db : IncidentDatabase) (incident : Incident) : Option IncidentDatabase := do
  guard (acceptsCore db.incidents (coreRow incident))
  guard (acceptsSnapshot db.snapshots incident.id incident.recovery)
  let sources ← sourceLayout.tryWrite acceptsSource now incident.id incident.sources db.sources
  let evidence ← evidenceLayout.tryWrite (acceptsEvidence sources) now incident.id incident.evidence db.evidence
  let transactions ←
    transactionLayout.tryWrite (acceptsTransaction evidence) now incident.id incident.transactions db.transactions
  let timeline ← timelineLayout.tryWrite (acceptsTimeline sources) now incident.id incident.timeline db.timeline
  return {
    incidents := Table.insert (·.id) updateCore (coreRow incident) db.incidents
    snapshots := addSnapshot db.snapshots incident.id incident.recovery
    sources := sources
    evidence := evidence
    transactions := transactions
    timeline := timeline }

/-- the tables after a save that succeeds -/
def saved (now : ℤ) (db : IncidentDatabase) (incident : Incident) : IncidentDatabase where
  incidents := Table.insert (·.id) updateCore (coreRow incident) db.incidents
  snapshots := addSnapshot db.snapshots incident.id incident.recovery
  sources := sourceLayout.write now incident.id incident.sources db.sources
  evidence := evidenceLayout.write now incident.id incident.evidence db.evidence
  transactions := transactionLayout.write now incident.id incident.transactions db.transactions
  timeline := timelineLayout.write now incident.id incident.timeline db.timeline

theorem saveIncident_eq_some {now : ℤ} {db db' : IncidentDatabase} {incident : Incident}
    (h : saveIncident now db incident = some db') : db' = saved now db incident := by
  simp only [saveIncident, Option.bind_eq_bind, Option.bind_eq_some_iff] at h
  obtain ⟨-, -, -, -, sources, hsources, evidence, hevidence, transactions, htransactions, timeline, htimeline, hdb⟩ := h
  rw [← Option.some.inj hdb]
  simp only [saved, Layout.write, Table.tryInsertAll_eq_some hsources, Table.tryInsertAll_eq_some hevidence,
    Table.tryInsertAll_eq_some htransactions, Table.tryInsertAll_eq_some htimeline]

/-! ## The read -/

def readSnapshot (s : SnapshotRow) : RecoverySummary where
  affectedSats := s.affectedSats
  recoveredSats := s.recoveredSats
  outstandingSats := s.outstandingSats
  asOfTimestamp := Sql.ofMicros s.asOfTimestamp
  source := s.sourceLabel
  isEstimate := s.isEstimate

/-- the later of two snapshots -/
def laterSnapshot (latest : Option SnapshotRow) (s : SnapshotRow) : Option SnapshotRow :=
  match latest with
  | none => some s
  | some l => if l.asOfTimestamp < s.asOfTimestamp then some s else some l

/-- `ORDER BY as_of_timestamp DESC LIMIT 1` -/
def latestSnapshot (rows : List SnapshotRow) (id : Uuid) : Option SnapshotRow :=
  (rows.filter fun s => decide (s.incidentId = id)).foldl laterSnapshot none

def getIncidentById (db : IncidentDatabase) (id : Uuid) : Option Incident :=
  (Table.lookup (·.id) id db.incidents).map fun row =>
    { id := id
      caseId := row.caseId
      title := row.title
      summary := row.summary
      status := row.status
      severity := row.severity
      recovery :=
        match latestSnapshot db.snapshots id with
        | some s => readSnapshot s
        | none => RecoverySummary.new 0 0 (Sql.ofMicros row.lastUpdatedAt)
      firstObservedAt := Sql.ofMicros row.firstObservedAt
      lastUpdatedAt := Sql.ofMicros row.lastUpdatedAt
      structuredClaims := row.structuredClaims
      transactions := transactionLayout.items db.transactions id
      timeline := timelineLayout.items db.timeline id
      evidence := evidenceLayout.items db.evidence id
      sources := sourceLayout.items db.sources id
      facts := row.facts
      reportedClaims := row.reportedClaims
      unverifiedClaims := row.unverifiedClaims
      associatedTxids := row.associatedTxids
      associatedBlockHeights := row.associatedBlockHeights }

/-! ## Recovery -/

theorem exists_laterSnapshot (latest : Option SnapshotRow) (s : SnapshotRow) : ∃ l, laterSnapshot latest s = some l := by
  cases latest with
  | none => exact ⟨s, rfl⟩
  | some l =>
    rw [laterSnapshot]
    split_ifs
    · exact ⟨s, rfl⟩
    · exact ⟨l, rfl⟩

/-- the latest snapshot is not before any other -/
theorem exists_latest_of_mem {rows : List SnapshotRow} {s : SnapshotRow} (hs : s ∈ rows) :
    ∃ l, rows.foldl laterSnapshot none = some l ∧ s.asOfTimestamp ≤ l.asOfTimestamp := by
  induction rows using List.reverseRecOn with
  | nil => exact absurd hs List.not_mem_nil
  | append_singleton rows r ih =>
    rw [List.foldl_append, List.foldl_cons, List.foldl_nil]
    rcases List.mem_append.1 hs with hold | hlast
    · obtain ⟨l, hl, hle⟩ := ih hold
      rw [hl, laterSnapshot]
      split_ifs with hlt
      · exact ⟨r, rfl, by omega⟩
      · exact ⟨l, rfl, hle⟩
    · rw [List.mem_singleton.1 hlast]
      cases rows.foldl laterSnapshot none with
      | none => exact ⟨r, rfl, le_refl _⟩
      | some l =>
        rw [laterSnapshot]
        split_ifs with hlt
        · exact ⟨r, rfl, le_refl _⟩
        · exact ⟨l, rfl, by omega⟩

/-- **The snapshot that is read after a save**: the later of the new one and the latest there was. -/
theorem latestSnapshot_addSnapshot (rows : List SnapshotRow) (id : Uuid) (recovery : RecoverySummary) :
    latestSnapshot (addSnapshot rows id recovery) id = laterSnapshot (latestSnapshot rows id) (snapshotRow id recovery) := by
  unfold addSnapshot
  split_ifs with hthere
  · obtain ⟨s, hs, hsame⟩ := List.any_eq_true.1 hthere
    simp only [Bool.and_eq_true, beq_iff_eq] at hsame
    obtain ⟨hid, htime⟩ := hsame
    have hmem : s ∈ rows.filter fun s => decide (s.incidentId = id) := List.mem_filter.2 ⟨hs, decide_eq_true hid⟩
    obtain ⟨l, hl, hle⟩ := exists_latest_of_mem hmem
    have hnot : ¬ l.asOfTimestamp < (snapshotRow id recovery).asOfTimestamp := by
      rw [htime] at hle
      exact not_lt.2 hle
    rw [latestSnapshot, hl, laterSnapshot, if_neg hnot]
  · have hfilter : (rows ++ [snapshotRow id recovery]).filter (fun s => decide (s.incidentId = id)) =
        rows.filter (fun s => decide (s.incidentId = id)) ++ [snapshotRow id recovery] := by
      rw [List.filter_append]
      congr 1
      simp [snapshotRow]
    rw [latestSnapshot, hfilter, List.foldl_append]
    rfl

/-- the same recovery, and lists with the same items -/
structure SameDossier (d incident : Incident) : Prop where
  recovery : d.recovery = incident.recovery
  sources : ∀ a, a ∈ d.sources ↔ a ∈ incident.sources
  evidence : ∀ a, a ∈ d.evidence ↔ a ∈ incident.evidence
  transactions : ∀ a, a ∈ d.transactions ↔ a ∈ incident.transactions
  timeline : ∀ a, a ∈ d.timeline ↔ a ∈ incident.timeline

/-- the recovery and the lists of the dossier are returned -/
def Reads (db : IncidentDatabase) (incident : Incident) : Prop :=
  ∃ d, db.getIncidentById incident.id = some d ∧ SameDossier d incident

/-- one row for each key -/
structure Keyed (db : IncidentDatabase) : Prop where
  incidents : (db.incidents.map (·.id)).Nodup
  sources : (db.sources.map sourceLayout.key).Nodup
  evidence : (db.evidence.map evidenceLayout.key).Nodup
  transactions : (db.transactions.map transactionLayout.key).Nodup
  timeline : (db.timeline.map timelineLayout.key).Nodup

theorem Keyed.saved {db : IncidentDatabase} (h : Keyed db) (now : ℤ) (incident : Incident) :
    Keyed (saved now db incident) where
  incidents := Table.nodup_insert id_updateCore h.incidents _
  sources := Layout.nodup_write h.sources now incident.id incident.sources
  evidence := Layout.nodup_write h.evidence now incident.id incident.evidence
  transactions := Layout.nodup_write h.transactions now incident.id incident.transactions
  timeline := Layout.nodup_write h.timeline now incident.id incident.timeline

theorem lookup_saved {db : IncidentDatabase} (h : Keyed db) (now : ℤ) (incident : Incident) (id : Uuid) :
    Table.lookup (·.id) id (saved now db incident).incidents =
      if incident.id = id then some (Table.merged (·.id) updateCore (coreRow incident) db.incidents)
      else Table.lookup (·.id) id db.incidents :=
  Table.lookup_insert id_updateCore h.incidents _ id

end IncidentDatabase

/-! ## Runs -/

/-- the two stores -/
structure IncidentBackends where
  db : IncidentDatabase
  memory : List Incident

namespace IncidentBackends

open IncidentDatabase

/-- a save: the time of its transaction, and the dossier -/
abbrev Save := ℤ × Incident

def empty : IncidentBackends := ⟨⟨[], [], [], [], [], []⟩, []⟩

/-- `save_incident` of the in-memory store -/
def replace (memory : List Incident) (incident : Incident) : List Incident :=
  upsert (fun i => decide (i.id = incident.id)) incident memory

/-- a save that succeeds is made in both stores -/
def save (b : IncidentBackends) (s : Save) : IncidentBackends :=
  match saveIncident s.1 b.db s.2 with
  | some db => ⟨db, replace b.memory s.2⟩
  | none => b

def Succeeds (b : IncidentBackends) (s : Save) : Prop := (saveIncident s.1 b.db s.2).isSome

instance (b : IncidentBackends) (s : Save) : Decidable (Succeeds b s) := inferInstanceAs (Decidable (_ = true))

/-- Postgres returns what the in-memory store returns -/
def Kept (b : IncidentBackends) : Prop :=
  ∀ id incident, Table.lookup (·.id) id b.memory = some incident → Reads b.db incident

/-- one row for each key, and one dossier for each id -/
def Wf (b : IncidentBackends) : Prop := Keyed b.db ∧ (b.memory.map (·.id)).Nodup

theorem save_of_succeeds {b : IncidentBackends} {s : Save} (h : Succeeds b s) :
    b.save s = ⟨saved s.1 b.db s.2, replace b.memory s.2⟩ := by
  obtain ⟨db, hdb⟩ := Option.isSome_iff_exists.1 h
  rw [save, hdb, saveIncident_eq_some hdb]

theorem save_of_fails {b : IncidentBackends} {s : Save} (h : ¬ Succeeds b s) : b.save s = b := by
  have hnone : saveIncident s.1 b.db s.2 = none := by
    simpa [Succeeds] using h
  rw [save, hnone]

theorem wf_empty : Wf empty :=
  ⟨⟨List.nodup_nil, List.nodup_nil, List.nodup_nil, List.nodup_nil, List.nodup_nil⟩, List.nodup_nil⟩

theorem Wf.save {b : IncidentBackends} (h : Wf b) (s : Save) : Wf (b.save s) := by
  by_cases hs : Succeeds b s
  · rw [save_of_succeeds hs]
    refine ⟨h.1.saved s.1 s.2, ?_⟩
    exact nodup_upsert Incident.id (fun i _ => decide_eq_true_iff) h.2
  · rw [save_of_fails hs]
    exact h

theorem lookup_replace {memory : List Incident} (h : (memory.map (·.id)).Nodup) (incident : Incident) (id : Uuid) :
    Table.lookup (·.id) id (replace memory incident) =
      if incident.id = id then some incident else Table.lookup (·.id) id memory :=
  Table.lookup_upsert h incident id

/-- all rows are the incident's -/
structure Owned (id : Uuid) (db : IncidentDatabase) : Prop where
  sources : ∀ r ∈ db.sources, sourceLayout.owner r = id
  evidence : ∀ r ∈ db.evidence, evidenceLayout.owner r = id
  transactions : ∀ r ∈ db.transactions, transactionLayout.owner r = id
  timeline : ∀ r ∈ db.timeline, timelineLayout.owner r = id

theorem Owned.saved {db : IncidentDatabase} {incident : Incident} (h : Owned incident.id db) (now : ℤ) :
    Owned incident.id (saved now db incident) where
  sources := Layout.owner_write h.sources
  evidence := Layout.owner_write h.evidence
  transactions := Layout.owner_write h.transactions
  timeline := Layout.owner_write h.timeline

/-- saves of one incident leave well-formed tables with its rows only -/
theorem owned_run {id : Uuid} {saves : List Save} (hid : ∀ s ∈ saves, s.2.id = id) :
    Wf (Trace.run save empty saves) ∧ Owned id (Trace.run save empty saves).db := by
  have hstep : ∀ (b : IncidentBackends) (s : Save), Wf b ∧ Owned id b.db → s.2.id = id →
      Wf (b.save s) ∧ Owned id (b.save s).db := by
    rintro b s ⟨hwf, howned⟩ rfl
    refine ⟨hwf.save s, ?_⟩
    by_cases hs : Succeeds b s
    · rw [save_of_succeeds hs]
      exact howned.saved s.1
    · rw [save_of_fails hs]
      exact howned
  have hempty : Owned id empty.db := by
    constructor <;> simp [empty]
  exact Trace.run_inv_mem (I := fun b => Wf b ∧ Owned id b.db) hstep hid ⟨wf_empty, hempty⟩

/-- the date of the recovery, as a column holds it -/
def date (s : Save) : ℤ := Sql.toMicros s.2.recovery.asOfTimestamp

/-- the first save of the latest date -/
def FirstOfLatest (saves : List Save) (s : Save) : Prop :=
  ∃ before after, saves = before ++ s :: after ∧ (∀ s' ∈ before, date s' < date s) ∧ ∀ s' ∈ after, date s' ≤ date s

/-- the latest snapshot, one save after the other -/
theorem latestSnapshot_run {id : Uuid} {b : IncidentBackends} {saves : List Save} (hid : ∀ s ∈ saves, s.2.id = id)
    (h : Trace.Steps save Succeeds b saves) :
    latestSnapshot (Trace.run save b saves).db.snapshots id =
      saves.foldl (fun l s => laterSnapshot l (snapshotRow id s.2.recovery)) (latestSnapshot b.db.snapshots id) := by
  induction saves generalizing b with
  | nil => rfl
  | cons s saves ih =>
    obtain rfl := hid s List.mem_cons_self
    have hrest := ih (fun s' hs' => hid s' (List.mem_cons_of_mem s hs')) h.2
    rw [List.foldl_cons, ← latestSnapshot_addSnapshot]
    refine hrest.trans ?_
    rw [save_of_succeeds h.1]
    rfl

/-- a save leaves a snapshot -/
theorem eq_nil_of_foldl_laterSnapshot {id : Uuid} {saves : List Save}
    (h : saves.foldl (fun l s => laterSnapshot l (snapshotRow id s.2.recovery)) none = none) : saves = [] := by
  induction saves using List.reverseRecOn with
  | nil => rfl
  | append_singleton saves s _ =>
    rw [List.foldl_append, List.foldl_cons, List.foldl_nil] at h
    obtain ⟨l, hl⟩ := exists_laterSnapshot
      (saves.foldl (fun l s => laterSnapshot l (snapshotRow id s.2.recovery)) none) (snapshotRow id s.2.recovery)
    rw [hl] at h
    cases h

/-- what the saves leave is the snapshot of the first one of the latest date -/
theorem foldl_laterSnapshot {id : Uuid} {saves : List Save} {l : SnapshotRow}
    (h : saves.foldl (fun l s => laterSnapshot l (snapshotRow id s.2.recovery)) none = some l) :
    ∃ s, FirstOfLatest saves s ∧ l = snapshotRow id s.2.recovery := by
  induction saves using List.reverseRecOn generalizing l with
  | nil => cases h
  | append_singleton saves s ih =>
    rw [List.foldl_append, List.foldl_cons, List.foldl_nil] at h
    cases hold : saves.foldl (fun l s => laterSnapshot l (snapshotRow id s.2.recovery)) none with
    | none =>
      obtain rfl := eq_nil_of_foldl_laterSnapshot hold
      exact ⟨s, ⟨[], [], rfl, by simp, by simp⟩, (Option.some.inj h).symm⟩
    | some l₀ =>
      obtain ⟨s₀, ⟨before, after, hsaves, hbefore, hafter⟩, rfl⟩ := ih hold
      rw [hold, laterSnapshot] at h
      have hdate : ∀ s' : Save, (snapshotRow id s'.2.recovery).asOfTimestamp = date s' := fun _ => rfl
      rw [hdate, hdate] at h
      split_ifs at h with hlt
      · -- a later date: all the saves before it are earlier
        refine ⟨s, ⟨saves, [], rfl, fun s' hs' => ?_, by simp⟩, (Option.some.inj h).symm⟩
        rw [hsaves] at hs'
        rcases List.mem_append.1 hs' with hb | hc
        · exact (hbefore s' hb).trans hlt
        · rcases List.mem_cons.1 hc with rfl | ha
          · exact hlt
          · exact (hafter s' ha).trans_lt hlt
      · refine ⟨s₀, ⟨before, after ++ [s], by simp [hsaves], hbefore, fun s' hs' => ?_⟩, (Option.some.inj h).symm⟩
        rcases List.mem_append.1 hs' with ha | hlast
        · exact hafter s' ha
        · rw [List.mem_singleton.1 hlast]
          exact not_lt.1 hlt

/-- a recovery as it is read again -/
def inMicros (recovery : RecoverySummary) : RecoverySummary :=
  { recovery with asOfTimestamp := Sql.ofMicros (Sql.toMicros recovery.asOfTimestamp) }

/-- **What is returned after the last save of an incident.** For every run of saves of one incident that all succeed, the
in-memory store returns the last dossier. Postgres returns one with the recovery that was saved first for the latest date,
and in each list every item of the last save as far as an update writes it; where the last save keeps a list, it returns
just the items of that list. -/
theorem last_save_read {id : Uuid} {earlier : List Save} {last : Save} (hid : ∀ s ∈ earlier ++ [last], s.2.id = id)
    (h : Trace.Steps save Succeeds empty (earlier ++ [last])) :
    Table.lookup (·.id) id (Trace.run save empty (earlier ++ [last])).memory = some last.2 ∧
      ∃ d, (Trace.run save empty (earlier ++ [last])).db.getIncidentById id = some d ∧
        (∃ s, FirstOfLatest (earlier ++ [last]) s ∧ d.recovery = inMicros s.2.recovery) ∧
        sourceLayout.Returns last.1 id last.2.sources (Trace.run save empty earlier).db.sources d.sources ∧
        evidenceLayout.Returns last.1 id last.2.evidence (Trace.run save empty earlier).db.evidence d.evidence ∧
        transactionLayout.Returns last.1 id last.2.transactions (Trace.run save empty earlier).db.transactions
          d.transactions ∧
        timelineLayout.Returns last.1 id last.2.timeline (Trace.run save empty earlier).db.timeline d.timeline := by
  have hlast : last.2.id = id := hid last (List.mem_append_right earlier (List.mem_singleton_self last))
  obtain ⟨hwf, howned⟩ := owned_run fun s hs => hid s (List.mem_append_left [last] hs)
  have hrun : Trace.run save empty (earlier ++ [last]) =
      ⟨saved last.1 (Trace.run save empty earlier).db last.2, replace (Trace.run save empty earlier).memory last.2⟩ := by
    rw [Trace.run_append]
    exact save_of_succeeds (Trace.steps_last h)
  obtain ⟨l, hl⟩ : ∃ l, latestSnapshot (Trace.run save empty (earlier ++ [last])).db.snapshots id = some l := by
    rw [hrun, ← hlast]
    show ∃ l, latestSnapshot (addSnapshot _ last.2.id last.2.recovery) last.2.id = some l
    rw [latestSnapshot_addSnapshot]
    exact exists_laterSnapshot _ _
  have hfold := latestSnapshot_run hid h
  obtain ⟨s, hs, hrow⟩ := foldl_laterSnapshot (hfold.symm.trans hl)
  have hcore := lookup_saved hwf.1 last.1 last.2 id
  rw [if_pos hlast] at hcore
  subst hlast
  constructor
  · rw [hrun, lookup_replace hwf.2, if_pos rfl]
  · unfold getIncidentById
    rw [hl, hrun, hcore]
    refine ⟨_, rfl, ⟨s, hs, ?_⟩, ?_, ?_, ?_, ?_⟩
    · rw [hrow]
      rfl
    · exact Layout.returns_write hwf.1.sources howned.sources last.1 last.2.sources
    · exact Layout.returns_write hwf.1.evidence howned.evidence last.1 last.2.evidence
    · exact Layout.returns_write hwf.1.transactions howned.transactions last.1 last.2.transactions
    · exact Layout.returns_write hwf.1.timeline howned.timeline last.1 last.2.timeline

/-! ## Two runs -/

def note (id : Uuid) (title : String) : Source where
  id := id
  publisher := "desk"
  title := title
  url := none
  publicationTimestamp := none
  retrievedTimestamp := none
  sourceCategory := .independentReporting
  reliabilityScore := 1 / 2
  name := none

def report : Source := note 10 "report"

/-- an evidence item of the incident 1, created in the first transaction -/
def cluster (confidence : ProvenanceClassification) (verified : Bool) : Evidence where
  id := 20
  incidentId := 1
  evidenceType := .heuristicCluster
  confidence := confidence
  title := "cluster"
  description := ""
  observedAt := none
  sourceId := some 10
  sourceReference := none
  txid := none
  blockHash := none
  blockHeight := none
  chain := .bitcoin
  verified := verified
  rawData := none
  createdAt := Sql.epoch
  reference := none
  classification := none

def dossier (recovery : RecoverySummary) (sources : List Source) (evidence : List Evidence) : Incident where
  id := 1
  caseId := "OBS-1"
  title := "theft"
  summary := ""
  status := .investigating
  severity := .high
  recovery := recovery
  firstObservedAt := Sql.epoch
  lastUpdatedAt := Sql.epoch
  structuredClaims := ⟨[], [], [], [], []⟩
  transactions := []
  timeline := []
  evidence := evidence
  sources := sources
  facts := []
  reportedClaims := []
  unverifiedClaims := []
  associatedTxids := []
  associatedBlockHeights := []

/-- the same hour later; the item is confirmed, and a source is withdrawn -/
def corrected : Save :=
  (3600000000, dossier (.new 100 40 (Sql.ofMicros 3600000000)) [report] [cluster .onChainVerified true])

/-- what was recovered, the confidence of the evidence, and the ids of the sources -/
def shown (d : Incident) : ℕ × List ProvenanceClassification × List Uuid :=
  (d.recovery.recoveredSats, d.evidence.map (·.confidence), d.sources.map (·.id))

end IncidentBackends

end ObsChain
