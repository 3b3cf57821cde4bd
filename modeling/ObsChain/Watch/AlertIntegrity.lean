/-
Alerts refer to stored activities (`save_activity` and `save_alert` of `repository.rs` and `postgres.rs`, the tables
`incident_activities` and `incident_alerts` of `0002_durable_persistence.sql`, the pipeline loop of `main.rs`).

The watch engine draws an id for every activity it emits and puts it into the alert that goes with it. A store keeps one
activity per dedup key, and the key says neither the block nor the input: the same transaction, seen in the mempool and
then in a block, comes under one key with two ids. The in-memory store then puts the new record in the place of the
old one, and the old alert refers to nothing. Postgres updates the old row, which keeps its id, and the foreign key of
the new alert refers to nothing, so its insert is refused.

Model: both stores side by side, fed with the same reports in the order the engine emits them (`emitted`). An error of
Postgres (`none`) is logged after the retries and the pipeline goes on, so it leaves the tables as they were; the alerts
refused this way are kept in a ghost list. `Integrity`: in both stores every alert refers to a stored activity, and no
alert was refused.

Results:
- `saveReport_linked_iff`, `saveReport_accepts_iff`: what one report does to the alerts of each store, exactly;
- `alerts_linked_iff`: along every run of the engine that evicts nothing, integrity holds in every state reached exactly
  when every report is `Kept`: no alert of an earlier activity of its key is left behind, and an alert comes under a
  key that Postgres does not have.
Witness: `theft_confirmed_orphans` (the theft of a watched outpoint, seen in the mempool and then in a block).

An activity's row and its record have the same fields, so one type serves both. `u64` values that do not fit `i64` are
refused by the Postgres store. Not modelled: column widths, the foreign keys to incidents and watch targets (their rows
are there), deletion of an incident, and the read side.
-/
import Mathlib.Tactic
import ObsChain.Core.Trace
import ObsChain.Core.Upsert
import ObsChain.Storage.InMemory
import ObsChain.Watch.Engine
import ObsChain.Watch.Pass

namespace ObsChain.AlertIntegrity

/-- an activity and its alert, as the engine returns them -/
abbrev Sealed := IncidentActivity × Option IncidentAlert

/-- every alert refers to an activity -/
def Linked (activities : List IncidentActivity) (alerts : List IncidentAlert) : Prop :=
  ∀ alert ∈ alerts, ∃ a ∈ activities, a.id = alert.activityId

instance (activities : List IncidentActivity) (alerts : List IncidentAlert) : Decidable (Linked activities alerts) := by
  unfold Linked
  infer_instance

/-! ## The in-memory store -/

def defaultMaxActivities : ℕ := 5000

structure InMemoryIncidents where
  activities : List IncidentActivity
  alerts : List IncidentAlert
  maxActivities : ℕ

namespace InMemoryIncidents

/-- a full queue drops its front -/
def makeRoom {α : Type} (maxActivities : ℕ) (queue : List α) : List α :=
  if queue.length ≥ maxActivities then queue.tail else queue

def saveActivity (s : InMemoryIncidents) (activity : IncidentActivity) : InMemoryIncidents :=
  if s.activities.any (fun a => a.dedupKey == activity.dedupKey) then
    { s with activities := upsert (fun a => a.dedupKey == activity.dedupKey) activity s.activities }
  else { s with activities := makeRoom s.maxActivities s.activities ++ [activity] }

def saveAlert (s : InMemoryIncidents) (alert : IncidentAlert) : InMemoryIncidents :=
  if s.alerts.any (fun a => a.id == alert.id) then s
  else { s with alerts := makeRoom s.maxActivities s.alerts ++ [alert] }

/-- an activity, then its alert -/
def saveReport (s : InMemoryIncidents) (r : Sealed) : InMemoryIncidents :=
  match r.2 with
  | none => s.saveActivity r.1
  | some alert => (s.saveActivity r.1).saveAlert alert

/-- a report finds its key stored, or room; so does an alert -/
def Room (s : InMemoryIncidents) (r : Sealed) : Prop :=
  ((∃ a ∈ s.activities, a.dedupKey = r.1.dedupKey) ∨ s.activities.length < s.maxActivities) ∧
    (r.2 = none ∨ s.alerts.length < s.maxActivities)

/-- every stored alert refers to an activity that the report leaves in place: another key, or the same id -/
def LeavesLinked (s : InMemoryIncidents) (r : Sealed) : Prop :=
  ∀ alert ∈ s.alerts, ∃ a ∈ s.activities, a.id = alert.activityId ∧ (a.dedupKey = r.1.dedupKey → a.id = r.1.id)

instance (s : InMemoryIncidents) (r : Sealed) : Decidable (s.Room r) := by
  unfold Room
  infer_instance

instance (s : InMemoryIncidents) (r : Sealed) : Decidable (s.LeavesLinked r) := by
  unfold LeavesLinked
  infer_instance

end InMemoryIncidents

/-! ## The Postgres tables -/

structure PostgresIncidents where
  activities : List IncidentActivity
  alerts : List IncidentAlert

namespace PostgresIncidents

/-- `ON CONFLICT (dedup_key) DO UPDATE`: the row keeps its id -/
def updateRow (activity row : IncidentActivity) : IncidentActivity :=
  { row with
    status := activity.status
    blockHeight := activity.blockHeight
    blockHash := activity.blockHash
    observedAt := activity.observedAt }

def saveActivity (s : PostgresIncidents) (activity : IncidentActivity) : Option PostgresIncidents :=
  if !(fitsI64 activity.blockHeight && fitsI64 activity.valueSats) then none
  else if s.activities.any (fun row => row.dedupKey == activity.dedupKey) then
    some { s with
      activities := s.activities.map fun row =>
        if row.dedupKey = activity.dedupKey then updateRow activity row else row }
  -- the primary key, which the conflict clause does not name
  else if s.activities.any (fun row => row.id == activity.id) then none
  else some { s with activities := s.activities ++ [activity] }

def saveAlert (s : PostgresIncidents) (alert : IncidentAlert) : Option PostgresIncidents :=
  if !fitsI64 alert.valueSats then none
  -- `ON CONFLICT (id) DO NOTHING`
  else if s.alerts.any (fun row => row.id == alert.id) then some s
  -- the foreign key of `activity_id`
  else if s.activities.any (fun row => row.id == alert.activityId) then some { s with alerts := s.alerts ++ [alert] }
  else none

/-- `save_activity_with_retry`: an error is logged -/
def saveActivityWithRetry (s : PostgresIncidents) (activity : IncidentActivity) : PostgresIncidents :=
  (s.saveActivity activity).getD s

/-- an activity, then its alert -/
def saveReport (s : PostgresIncidents) (r : Sealed) : PostgresIncidents :=
  match r.2 with
  | none => s.saveActivityWithRetry r.1
  | some alert => ((s.saveActivityWithRetry r.1).saveAlert alert).getD (s.saveActivityWithRetry r.1)

/-- the alert that this report does not get saved -/
def refused (s : PostgresIncidents) (r : Sealed) : List IncidentAlert :=
  r.2.toList.filter fun alert => ((s.saveActivityWithRetry r.1).saveAlert alert).isNone

/-- the activity is a row when its alert comes: it was one already, or it is inserted -/
def Inserts (s : PostgresIncidents) (activity : IncidentActivity) : Prop :=
  (∃ row ∈ s.activities, row.id = activity.id) ∨
    (fitsI64 activity.blockHeight = true ∧ fitsI64 activity.valueSats = true ∧
      ∀ row ∈ s.activities, row.dedupKey ≠ activity.dedupKey)

/-- an alert's value fits, and it was saved before or finds its activity -/
def Accepts (s : PostgresIncidents) (r : Sealed) : Prop :=
  ∀ alert ∈ r.2.toList,
    fitsI64 alert.valueSats = true ∧ ((∃ row ∈ s.alerts, row.id = alert.id) ∨ s.Inserts r.1)

instance (s : PostgresIncidents) (r : Sealed) : Decidable (s.Accepts r) := by
  unfold Accepts Inserts
  infer_instance

end PostgresIncidents

/-! ## Both stores along a run of the engine -/

structure St where
  memory : InMemoryIncidents
  postgres : PostgresIncidents
  /-- ghost: the alerts that Postgres refused, oldest first -/
  refused : List IncidentAlert

def init (maxActivities : ℕ) : St := ⟨⟨[], [], maxActivities⟩, ⟨[], []⟩, []⟩

/-- one report of the pipeline loop -/
def save (s : St) (r : Sealed) : St :=
  ⟨s.memory.saveReport r, s.postgres.saveReport r, s.refused ++ s.postgres.refused r⟩

/-- the reports of a run of the engine, in the order the pipeline saves them; each call has its clock and its ids -/
def emitted (e : IncidentWatchEngine) : List (IncidentWatchEngine.Stamp × IncidentWatchEngine.Call) → List Sealed
  | [] => []
  | (stamp, c) :: calls => e.returned stamp c ++ emitted (e.step c) calls

structure Integrity (s : St) : Prop where
  memory : Linked s.memory.activities s.memory.alerts
  postgres : Linked s.postgres.activities s.postgres.alerts
  refused : s.refused = []

/-- no report evicts -/
def NoEviction (s : St) (r : Sealed) : Prop := s.memory.Room r

/-- no stored alert loses its activity, and the alert of the report is accepted -/
def Kept (s : St) (r : Sealed) : Prop := s.memory.LeavesLinked r ∧ s.postgres.Accepts r

instance (s : St) (r : Sealed) : Decidable (NoEviction s r) := inferInstanceAs (Decidable (s.memory.Room r))

instance (s : St) (r : Sealed) : Decidable (Kept s r) := inferInstanceAs (Decidable (_ ∧ _))

/-! ## One report in memory -/

section Memory

variable {s : InMemoryIncidents} {r : Sealed}

/-- one record per key -/
def InMemoryIncidents.Keyed (s : InMemoryIncidents) : Prop := (s.activities.map fun a => a.dedupKey).Nodup

theorem mem_saveActivity (hs : s.Keyed) (hroom : s.Room r) {a : IncidentActivity} :
    a ∈ (s.saveActivity r.1).activities ↔ a = r.1 ∨ (a ∈ s.activities ∧ a.dedupKey ≠ r.1.dedupKey) := by
  unfold InMemoryIncidents.saveActivity
  split_ifs with hany
  · exact mem_upsert_iff (fun a : IncidentActivity => a.dedupKey) (by simp) hs
  · have hnone : ∀ a ∈ s.activities, a.dedupKey ≠ r.1.dedupKey := by
      simpa using hany
    have hlt : s.activities.length < s.maxActivities := by
      rcases hroom.1 with ⟨a, ha, hkey⟩ | hlt
      · exact absurd hkey (hnone a ha)
      · exact hlt
    have hkeep : InMemoryIncidents.makeRoom s.maxActivities s.activities = s.activities := if_neg (by omega)
    simp only [hkeep, List.mem_append, List.mem_singleton]
    constructor
    · rintro (hmem | rfl)
      · exact Or.inr ⟨hmem, hnone a hmem⟩
      · exact Or.inl rfl
    · rintro (rfl | ⟨hmem, -⟩)
      · exact Or.inr rfl
      · exact Or.inl hmem

theorem saveActivity_keyed (activity : IncidentActivity) (hs : s.Keyed) : (s.saveActivity activity).Keyed := by
  unfold InMemoryIncidents.saveActivity
  split_ifs with hany
  · exact nodup_upsert (fun a : IncidentActivity => a.dedupKey) (by simp) hs
  · have hsub : List.Sublist (InMemoryIncidents.makeRoom s.maxActivities s.activities) s.activities := by
      unfold InMemoryIncidents.makeRoom
      split_ifs
      · exact List.tail_sublist _
      · exact List.Sublist.refl _
    have hnew : ∀ a ∈ s.activities, a.dedupKey ≠ activity.dedupKey := by
      simpa using hany
    exact nodup_map_concat_of_sublist (fun a : IncidentActivity => a.dedupKey) hsub hnew hs

/-- saving an alert leaves the activities alone -/
theorem saveAlert_activities (s : InMemoryIncidents) (alert : IncidentAlert) :
    (s.saveAlert alert).activities = s.activities := by
  unfold InMemoryIncidents.saveAlert
  split_ifs <;> rfl

/-- saving an activity leaves the alerts and the limit alone -/
theorem saveActivity_alerts (s : InMemoryIncidents) (activity : IncidentActivity) :
    (s.saveActivity activity).alerts = s.alerts ∧ (s.saveActivity activity).maxActivities = s.maxActivities := by
  unfold InMemoryIncidents.saveActivity
  split_ifs <;> exact ⟨rfl, rfl⟩

theorem saveReport_activities (s : InMemoryIncidents) (r : Sealed) :
    (s.saveReport r).activities = (s.saveActivity r.1).activities := by
  unfold InMemoryIncidents.saveReport
  cases r.2 with
  | none => rfl
  | some alert => exact saveAlert_activities _ alert

theorem saveReport_keyed (r : Sealed) (hs : s.Keyed) : (s.saveReport r).Keyed := by
  unfold InMemoryIncidents.Keyed
  rw [saveReport_activities]
  exact saveActivity_keyed r.1 hs

/-- with room, the alerts of a report are added to the stored ones, but for a known id -/
theorem mem_saveReport_alerts (hroom : s.Room r) {alert : IncidentAlert} :
    alert ∈ (s.saveReport r).alerts ↔
      alert ∈ s.alerts ∨ (alert ∈ r.2.toList ∧ ∀ old ∈ s.alerts, old.id ≠ alert.id) := by
  obtain ⟨halerts, hmax⟩ := saveActivity_alerts s r.1
  unfold InMemoryIncidents.saveReport
  cases hr : r.2 with
  | none => simp [halerts]
  | some new =>
    have hlt : s.alerts.length < s.maxActivities := by
      rcases hroom.2 with hnone | hlt
      · rw [hr] at hnone
        cases hnone
      · exact hlt
    have hkeep : InMemoryIncidents.makeRoom s.maxActivities s.alerts = s.alerts := if_neg (by omega)
    simp only [InMemoryIncidents.saveAlert, halerts, hmax, hkeep]
    split_ifs with hknown
    · rw [halerts]
      refine (or_iff_left_of_imp ?_).symm
      rintro ⟨hnew, hfresh⟩
      obtain ⟨old, hold, hid⟩ := List.any_eq_true.1 hknown
      have heq : alert = new := by simpa using hnew
      rw [heq] at hfresh
      exact absurd (by simpa using hid) (hfresh old hold)
    · have hfresh : ∀ old ∈ s.alerts, old.id ≠ new.id := by
        simpa using hknown
      simp only [List.mem_append, List.mem_singleton, Option.toList_some]
      constructor
      · rintro (hmem | rfl)
        · exact Or.inl hmem
        · exact Or.inr ⟨rfl, hfresh⟩
      · rintro (hmem | ⟨rfl, -⟩)
        · exact Or.inl hmem
        · exact Or.inr rfl

/-- **One report in memory.** Where the alerts were linked and nothing is evicted, they stay linked exactly when each
one refers to an activity that the report leaves in place. -/
theorem saveReport_linked_iff (hs : s.Keyed) (hroom : s.Room r)
    (hown : ∀ alert ∈ r.2.toList, alert.activityId = r.1.id)
    (hlinked : Linked s.activities s.alerts) :
    Linked (s.saveReport r).activities (s.saveReport r).alerts ↔ s.LeavesLinked r := by
  unfold Linked InMemoryIncidents.LeavesLinked
  simp only [saveReport_activities, mem_saveReport_alerts hroom, mem_saveActivity hs hroom]
  constructor
  · intro h alert halert
    obtain ⟨a, ha, hid⟩ := h alert (Or.inl halert)
    rcases ha with rfl | ⟨hmem, hkey⟩
    · -- the alert refers to the new record; before the report it referred to one of the same id
      obtain ⟨old, hold, holdid⟩ := hlinked alert halert
      exact ⟨old, hold, holdid, fun _ => holdid.trans hid.symm⟩
    · exact ⟨a, hmem, hid, fun heq => absurd heq hkey⟩
  · intro h alert halert
    rcases halert with hold | ⟨hnew, -⟩
    · obtain ⟨a, hmem, hid, hsame⟩ := h alert hold
      by_cases hkey : a.dedupKey = r.1.dedupKey
      · exact ⟨r.1, Or.inl rfl, (hsame hkey).symm.trans hid⟩
      · exact ⟨a, Or.inr ⟨hmem, hkey⟩, hid⟩
    · exact ⟨r.1, Or.inl rfl, (hown alert hnew).symm⟩

end Memory

/-! ## One report in Postgres -/

section Postgres

variable {s : PostgresIncidents} {r : Sealed}

/-- the ids of the rows: none goes, and the activity's own comes when it is inserted -/
theorem exists_row_saveActivity (s : PostgresIncidents) (activity : IncidentActivity) (id : Uuid) :
    (∃ row ∈ (s.saveActivityWithRetry activity).activities, row.id = id) ↔
      (∃ row ∈ s.activities, row.id = id) ∨ (id = activity.id ∧ s.Inserts activity) := by
  unfold PostgresIncidents.saveActivityWithRetry PostgresIncidents.saveActivity PostgresIncidents.Inserts
  split_ifs with hfits hkey hid
  · -- a value does not fit
    have hnot : ¬ (fitsI64 activity.blockHeight = true ∧ fitsI64 activity.valueSats = true) := by
      rintro ⟨hh, hv⟩
      simp [hh, hv] at hfits
    simp only [Option.getD_none]
    refine (or_iff_left_of_imp ?_).symm
    rintro ⟨rfl, hrow | ⟨hh, hv, -⟩⟩
    · exact hrow
    · exact absurd ⟨hh, hv⟩ hnot
  · -- the row of the key is updated, under its id
    have hstored : ¬ ∀ row ∈ s.activities, row.dedupKey ≠ activity.dedupKey := by
      simpa using hkey
    have hid : ∀ row : IncidentActivity,
        (if row.dedupKey = activity.dedupKey then PostgresIncidents.updateRow activity row else row).id = row.id := by
      intro row
      split_ifs <;> rfl
    simp only [Option.getD_some, List.mem_map, exists_exists_and_eq_and, hid]
    refine (or_iff_left_of_imp ?_).symm
    rintro ⟨rfl, hrow | ⟨-, -, hnone⟩⟩
    · exact hrow
    · exact absurd hnone hstored
  · -- the id is taken by another key
    have htaken : ∃ row ∈ s.activities, row.id = activity.id := by
      simpa using hid
    simp only [Option.getD_none]
    refine (or_iff_left_of_imp ?_).symm
    rintro ⟨rfl, -⟩
    exact htaken
  · have hfit : fitsI64 activity.blockHeight = true ∧ fitsI64 activity.valueSats = true := by
      simpa using hfits
    have hnone : ∀ row ∈ s.activities, row.dedupKey ≠ activity.dedupKey := by
      simpa using hkey
    simp only [Option.getD_some, List.mem_append, List.mem_singleton]
    constructor
    · rintro ⟨row, hrow | rfl, rfl⟩
      · exact Or.inl ⟨row, hrow, rfl⟩
      · exact Or.inr ⟨rfl, Or.inr ⟨hfit.1, hfit.2, hnone⟩⟩
    · rintro (⟨row, hrow, rfl⟩ | ⟨rfl, -⟩)
      · exact ⟨row, Or.inl hrow, rfl⟩
      · exact ⟨activity, Or.inr rfl, rfl⟩

/-- the row that the alert of an activity needs -/
theorem exists_own_row (s : PostgresIncidents) (activity : IncidentActivity) :
    (∃ row ∈ (s.saveActivityWithRetry activity).activities, row.id = activity.id) ↔ s.Inserts activity := by
  rw [exists_row_saveActivity]
  constructor
  · rintro (hrow | ⟨-, hinserts⟩)
    · exact Or.inl hrow
    · exact hinserts
  · intro hinserts
    exact Or.inr ⟨rfl, hinserts⟩

theorem saveActivityWithRetry_alerts (s : PostgresIncidents) (activity : IncidentActivity) :
    (s.saveActivityWithRetry activity).alerts = s.alerts := by
  unfold PostgresIncidents.saveActivityWithRetry PostgresIncidents.saveActivity
  split_ifs <;> rfl

/-- an alert is refused for its value, or for a missing activity -/
theorem saveAlert_isSome_iff (s : PostgresIncidents) (alert : IncidentAlert) :
    (s.saveAlert alert).isSome = true ↔ fitsI64 alert.valueSats = true ∧
      ((∃ row ∈ s.alerts, row.id = alert.id) ∨ ∃ row ∈ s.activities, row.id = alert.activityId) := by
  unfold PostgresIncidents.saveAlert
  split_ifs with hfits hknown hrow
  · simp_all
  · simp_all
  · simp_all
  · simp_all

/-- the foreign key holds after every insert -/
theorem saveAlert_linked {s' : PostgresIncidents} {alert : IncidentAlert} (hlinked : Linked s.activities s.alerts)
    (h : s.saveAlert alert = some s') : Linked s'.activities s'.alerts := by
  unfold PostgresIncidents.saveAlert at h
  split_ifs at h with hfits hknown hrow
  · cases h
    exact hlinked
  · cases h
    intro a ha
    rcases List.mem_append.1 ha with hold | hnew
    · exact hlinked a hold
    · rw [List.mem_singleton.1 hnew]
      simpa using hrow

/-- **The foreign key.** What Postgres stores stays linked, whatever is saved. -/
theorem saveReport_linked (r : Sealed) (hlinked : Linked s.activities s.alerts) :
    Linked (s.saveReport r).activities (s.saveReport r).alerts := by
  have hactivity : Linked (s.saveActivityWithRetry r.1).activities (s.saveActivityWithRetry r.1).alerts := by
    intro alert halert
    rw [saveActivityWithRetry_alerts] at halert
    exact (exists_row_saveActivity s r.1 alert.activityId).2 (Or.inl (hlinked alert halert))
  unfold PostgresIncidents.saveReport
  cases r.2 with
  | none => exact hactivity
  | some alert =>
    cases hsave : (s.saveActivityWithRetry r.1).saveAlert alert with
    | none => simpa [hsave] using hactivity
    | some s' => simpa [hsave] using saveAlert_linked hactivity hsave

/-- **One report in Postgres.** No alert is refused exactly when its value fits and it was saved before or its
activity is a row by then. -/
theorem saveReport_accepts_iff (hown : ∀ alert ∈ r.2.toList, alert.activityId = r.1.id) :
    s.refused r = [] ↔ s.Accepts r := by
  unfold PostgresIncidents.refused PostgresIncidents.Accepts
  rw [List.filter_eq_nil_iff]
  apply forall₂_congr
  intro alert halert
  have hsome := saveAlert_isSome_iff (s.saveActivityWithRetry r.1) alert
  rw [hown alert halert, saveActivityWithRetry_alerts, exists_own_row] at hsome
  rw [← hsome, Option.isNone_iff_eq_none, ← Option.not_isSome_iff_eq_none]
  exact not_not

end Postgres

/-! ## Runs -/

/-- the alert the engine returns with an activity refers to it -/
theorem activityId_of_mem_returned {stamp : IncidentWatchEngine.Stamp} {e : IncidentWatchEngine}
    {c : IncidentWatchEngine.Call} {r : Sealed} (hr : r ∈ e.returned stamp c) :
    ∀ alert ∈ r.2.toList, alert.activityId = r.1.id := by
  have hsealed : ∃ i d, r = stamp.seal i d := by
    cases c with
    | transaction tx blockHeight blockHash =>
      obtain ⟨i, hi, heq⟩ := List.mem_mapIdx.1 hr
      exact ⟨i, _, heq.symm⟩
    | replacement repl =>
      obtain ⟨i, hi, heq⟩ := List.mem_mapIdx.1 hr
      exact ⟨i, _, heq.symm⟩
    | block block => cases hr
  obtain ⟨i, d, rfl⟩ := hsealed
  intro alert halert
  obtain ⟨draft, -, rfl⟩ : ∃ draft, d.2 = some draft ∧ _ = alert := by
    simpa [IncidentWatchEngine.Stamp.seal] using halert
  rfl

theorem activityId_of_mem_emitted {e : IncidentWatchEngine}
    {calls : List (IncidentWatchEngine.Stamp × IncidentWatchEngine.Call)} {r : Sealed} (hr : r ∈ emitted e calls) :
    ∀ alert ∈ r.2.toList, alert.activityId = r.1.id := by
  induction calls generalizing e with
  | nil => cases hr
  | cons call calls ih =>
    rcases List.mem_append.1 hr with hhead | htail
    · exact activityId_of_mem_returned hhead
    · exact ih htail

/-- one report keeps integrity exactly when it is `Kept` -/
theorem save_integrity_iff {s : St} {r : Sealed} (hs : s.memory.Keyed) (hroom : NoEviction s r)
    (hown : ∀ alert ∈ r.2.toList, alert.activityId = r.1.id) (h : Integrity s) :
    Integrity (save s r) ↔ Kept s r := by
  have hmemory := saveReport_linked_iff hs hroom hown h.memory
  have hpostgres := saveReport_accepts_iff (s := s.postgres) hown
  constructor
  · intro h'
    refine ⟨hmemory.1 h'.memory, hpostgres.1 ?_⟩
    have hrefused : s.refused ++ s.postgres.refused r = [] := h'.refused
    exact (List.append_eq_nil_iff.1 hrefused).2
  · rintro ⟨hleaves, haccepts⟩
    refine ⟨hmemory.2 hleaves, saveReport_linked r h.postgres, ?_⟩
    exact List.append_eq_nil_iff.2 ⟨h.refused, hpostgres.2 haccepts⟩

/-- **Alert integrity.** Along a run of the engine that evicts nothing, integrity holds in every state reached exactly
when every report leaves the stored alerts their activities and has its own alert accepted. -/
theorem alerts_linked_iff (e : IncidentWatchEngine)
    (calls : List (IncidentWatchEngine.Stamp × IncidentWatchEngine.Call)) (maxActivities : ℕ)
    (hroom : Trace.Steps save NoEviction (init maxActivities) (emitted e calls)) :
    Trace.Always save Integrity (init maxActivities) (emitted e calls) ↔
      Trace.Steps save Kept (init maxActivities) (emitted e calls) := by
  have hown : Trace.Steps save (fun _ r => ∀ alert ∈ r.2.toList, alert.activityId = r.1.id) (init maxActivities)
      (emitted e calls) :=
    Trace.steps_of_mem fun r hr => activityId_of_mem_emitted hr
  have hE := Trace.steps_and hroom hown
  have hkeyed : (init maxActivities).memory.Keyed := List.nodup_nil
  have hinit : Integrity (init maxActivities) := ⟨by simp [Linked, init], by simp [Linked, init], rfl⟩
  exact Trace.always_iff_steps_inv (J := fun s => s.memory.Keyed) (fun _ r hs => saveReport_keyed r hs)
    (fun s r hs hr hp => save_integrity_iff hs hr.1 hr.2 hp) hE hkeyed hinit

/-! ## The theft of a watched outpoint -/

open IncidentWatchEngine

/-- the ids and the clock of a later call -/
def laterStamp : Stamp := ⟨600, fun i => BitVec.ofNat 128 (i + 10), fun i => BitVec.ofNat 128 (i + 1010)⟩

/-- the theft and the onward transfer, each seen once -/
def seenOnce : List (Stamp × Call) :=
  [(someStamp, .transaction theft none none), (laterStamp, .transaction onward none none)]

/-- the theft, seen in the mempool and then in its block -/
def seenAgain : List (Stamp × Call) :=
  [(someStamp, .transaction theft none none), (laterStamp, .transaction theft (some 840000) (some theftHash))]

/-- two transactions come under two keys, so both alerts are stored and linked -/
theorem alerts_linked_iff_seenOnce :
    (emitted watchingEngine seenOnce).length = 2 ∧
      Trace.Always save Integrity (init defaultMaxActivities) (emitted watchingEngine seenOnce) := by
  have hroom : Trace.Steps save NoEviction (init defaultMaxActivities) (emitted watchingEngine seenOnce) := by
    decide +kernel
  have hkept : Trace.Steps save Kept (init defaultMaxActivities) (emitted watchingEngine seenOnce) := by
    decide +kernel
  exact ⟨by decide +kernel, (alerts_linked_iff watchingEngine seenOnce defaultMaxActivities hroom).2 hkept⟩

/-- both stores after the theft was seen twice -/
def afterTheft : St := Trace.run save (init defaultMaxActivities) (emitted watchingEngine seenAgain)

/-- **The block orphans the mempool alert.** The theft is emitted twice under one key. Nothing is evicted; in memory the
first alert refers to a record that is gone, and Postgres refuses the second alert. -/
theorem theft_confirmed_orphans :
    Trace.Steps save NoEviction (init defaultMaxActivities) (emitted watchingEngine seenAgain) ∧
      ¬ Linked afterTheft.memory.activities afterTheft.memory.alerts ∧
      (afterTheft.refused.map fun alert => alert.activityId) = [10] ∧
      ¬ Trace.Always save Integrity (init defaultMaxActivities) (emitted watchingEngine seenAgain) := by
  have hroom : Trace.Steps save NoEviction (init defaultMaxActivities) (emitted watchingEngine seenAgain) := by
    decide +kernel
  have horphan : ¬ Linked afterTheft.memory.activities afterTheft.memory.alerts := by
    decide +kernel
  refine ⟨hroom, horphan, by decide +kernel, ?_⟩
  intro halways
  have hend : Integrity afterTheft := Trace.always_last halways
  exact horphan hend.memory

end ObsChain.AlertIntegrity
