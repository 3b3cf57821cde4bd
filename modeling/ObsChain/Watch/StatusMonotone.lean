/-
Does a confirmed activity stay confirmed?

Both stores keep one activity per dedup key, and both let the last save decide: the in-memory store puts the new record in
the place of the old one, Postgres writes status, height and block hash of the new one into the row. The key does not say
whether the transaction was confirmed when it was seen. A mempool copy that is delivered after the block takes the
confirmation back.

Model: both stores of `AlertIntegrity`, fed with the activities that a run of the engine emits. Beside each store stand
the keys that it has held confirmed at some time (ghost). `Monotone`: whatever is stored under such a key is confirmed and
has a height. A store that evicts a record and takes it up again is held to the same.

- `status_monotone_iff`: along every run of the engine the stores are monotone in every state exactly when no unconfirmed
  activity comes under a key that was stored confirmed.
- `late_copy_reverts`: the theft of a watched outpoint, seen in a block and then once more in the mempool.
-/
import Mathlib.Tactic
import ObsChain.Core.Trace
import ObsChain.Core.Upsert
import ObsChain.Storage.InMemory
import ObsChain.Watch.Engine
import ObsChain.Watch.Pass
import ObsChain.Watch.AlertIntegrity

namespace ObsChain.StatusMonotone

open Trace IncidentWatchEngine AlertIntegrity

/-- confirmed, with a height -/
def Settled (a : IncidentActivity) : Prop := a.status = .confirmed ∧ a.blockHeight.isSome = true

instance (a : IncidentActivity) : Decidable (Settled a) := inferInstanceAs (Decidable (_ ∧ _))

/-! ## One table -/

/-- what is stored under a key that was settled once is settled -/
def Final (activities : List IncidentActivity) (once : List String) : Prop :=
  ∀ a ∈ activities, a.dedupKey ∈ once → Settled a

/-- the keys that are settled now are noted -/
def noted (activities : List IncidentActivity) (once : List String) : List String :=
  once ++ (activities.filter fun a => decide (Settled a)).map fun a => a.dedupKey

theorem mem_noted {activities : List IncidentActivity} {once : List String} {key : String} :
    key ∈ noted activities once ↔ key ∈ once ∨ ∃ a ∈ activities, Settled a ∧ a.dedupKey = key := by
  simp only [noted, List.mem_append, List.mem_map, List.mem_filter, decide_eq_true_eq, and_assoc]

/-- with one record per key, noting the settled keys changes nothing -/
theorem final_noted_iff {activities : List IncidentActivity} {once : List String}
    (hkeyed : (activities.map fun a => a.dedupKey).Nodup) :
    Final activities (noted activities once) ↔ Final activities once := by
  constructor
  · intro h a ha hkey
    exact h a ha (mem_noted.2 (Or.inl hkey))
  · intro h a ha hkey
    rcases mem_noted.1 hkey with honce | ⟨b, hb, hsettled, heq⟩
    · exact h a ha honce
    · have hsame : b = a := List.inj_on_of_nodup_map hkeyed hb ha heq
      rwa [hsame] at hsettled

/-! ## Both stores -/

structure St where
  memory : InMemoryIncidents
  postgres : PostgresIncidents
  /-- ghost: the keys that the in-memory store has held settled -/
  memoryOnce : List String
  /-- ghost: the keys that Postgres has held settled -/
  postgresOnce : List String

def init (maxActivities : ℕ) : St := ⟨⟨[], [], maxActivities⟩, ⟨[], []⟩, [], []⟩

/-- `save_activity` of both stores -/
def save (s : St) (r : Sealed) : St :=
  let memory := s.memory.saveActivity r.1
  let postgres := s.postgres.saveActivityWithRetry r.1
  ⟨memory, postgres, noted memory.activities s.memoryOnce, noted postgres.activities s.postgresOnce⟩

def Monotone (s : St) : Prop := Final s.memory.activities s.memoryOnce ∧ Final s.postgres.activities s.postgresOnce

/-- an activity under a key that was settled is settled -/
def Timely (s : St) (r : Sealed) : Prop := r.1.dedupKey ∈ s.memoryOnce → Settled r.1

instance (s : St) (r : Sealed) : Decidable (Timely s r) := inferInstanceAs (Decidable (_ → _))

/-- what every save keeps: one record per key, and what Postgres has held settled the in-memory store has held settled -/
structure Tables (s : St) : Prop where
  memory : (s.memory.activities.map fun a => a.dedupKey).Nodup
  postgres : (s.postgres.activities.map fun a => a.dedupKey).Nodup
  settled : ∀ a ∈ s.postgres.activities, Settled a → a.dedupKey ∈ s.postgresOnce
  once : s.postgresOnce ⊆ s.memoryOnce

/-! ## One save -/

section Save

variable {s : St} {r : Sealed}

/-- the saved activity is stored -/
theorem mem_saveActivity_self (s : InMemoryIncidents) (activity : IncidentActivity) :
    activity ∈ (s.saveActivity activity).activities := by
  unfold InMemoryIncidents.saveActivity
  split_ifs
  · exact mem_upsert_self _ _ _
  · exact List.mem_append_right _ List.mem_cons_self

/-- what else is stored was stored -/
theorem mem_of_mem_saveActivity {s : InMemoryIncidents} {activity a : IncidentActivity}
    (h : a ∈ (s.saveActivity activity).activities) : a = activity ∨ a ∈ s.activities := by
  unfold InMemoryIncidents.saveActivity at h
  split_ifs at h
  · exact mem_of_mem_upsert h
  · rcases List.mem_append.1 h with hold | hnew
    · right
      unfold InMemoryIncidents.makeRoom at hold
      split_ifs at hold
      · exact List.mem_of_mem_tail hold
      · exact hold
    · exact Or.inl (List.mem_singleton.1 hnew)

/-- the rows after a save: with the status of the saved activity under its key, as before elsewhere -/
theorem row_cases {s : PostgresIncidents} {activity row : IncidentActivity}
    (h : row ∈ (s.saveActivityWithRetry activity).activities) :
    row ∈ s.activities ∨ (row.dedupKey = activity.dedupKey ∧ (Settled row ↔ Settled activity)) := by
  unfold PostgresIncidents.saveActivityWithRetry PostgresIncidents.saveActivity at h
  split_ifs at h with hfits hkey hid
  · exact Or.inl h
  · obtain ⟨old, hold, rfl⟩ := List.mem_map.1 h
    split_ifs with heq
    · exact Or.inr ⟨heq, Iff.rfl⟩
    · exact Or.inl hold
  · exact Or.inl h
  · rcases List.mem_append.1 h with hold | hnew
    · exact Or.inl hold
    · rw [List.mem_singleton.1 hnew]
      exact Or.inr ⟨rfl, Iff.rfl⟩

theorem rows_keyed {s : PostgresIncidents} (h : (s.activities.map fun a => a.dedupKey).Nodup)
    (activity : IncidentActivity) :
    ((s.saveActivityWithRetry activity).activities.map fun a => a.dedupKey).Nodup := by
  unfold PostgresIncidents.saveActivityWithRetry PostgresIncidents.saveActivity
  split_ifs with hfits hkey hid
  · exact h
  · have hkeys : (s.activities.map fun row =>
        if row.dedupKey = activity.dedupKey then PostgresIncidents.updateRow activity row else row).map
          (fun a => a.dedupKey) = s.activities.map fun a => a.dedupKey := by
      rw [List.map_map]
      apply List.map_congr_left
      intro row _
      dsimp only [Function.comp]
      split_ifs <;> rfl
    simpa only [Option.getD_some, hkeys] using h
  · exact h
  · have hnew : ∀ row ∈ s.activities, row.dedupKey ≠ activity.dedupKey := by
      simpa using hkey
    exact (nodup_map_concat fun a : IncidentActivity => a.dedupKey).2 ⟨hnew, h⟩

theorem Tables.save (h : Tables s) (r : Sealed) : Tables (StatusMonotone.save s r) := by
  refine ⟨saveActivity_keyed r.1 h.memory, rows_keyed h.postgres r.1, fun a ha hsettled => ?_, fun key hkey => ?_⟩
  · exact mem_noted.2 (Or.inr ⟨a, ha, hsettled, rfl⟩)
  · rcases mem_noted.1 hkey with honce | ⟨row, hrow, hsettled, rfl⟩
    · exact mem_noted.2 (Or.inl (h.once honce))
    · rcases row_cases hrow with hold | ⟨heq, hiff⟩
      · exact mem_noted.2 (Or.inl (h.once (h.settled row hold hsettled)))
      · rw [heq]
        exact mem_noted.2 (Or.inr ⟨r.1, mem_saveActivity_self s.memory r.1, hiff.1 hsettled, rfl⟩)

/-- **One save.** From a monotone state, the stores stay monotone exactly when the activity is timely. -/
theorem save_monotone_iff (h : Tables s) (hmono : Monotone s) : Monotone (save s r) ↔ Timely s r := by
  have htables := h.save r
  have hmemory : Final (save s r).memory.activities (save s r).memoryOnce ↔
      Final (s.memory.saveActivity r.1).activities s.memoryOnce := final_noted_iff htables.memory
  have hpostgres : Final (save s r).postgres.activities (save s r).postgresOnce ↔
      Final (s.postgres.saveActivityWithRetry r.1).activities s.postgresOnce := final_noted_iff htables.postgres
  rw [Monotone, hmemory, hpostgres]
  constructor
  · rintro ⟨hfinal, -⟩ hkey
    exact hfinal r.1 (mem_saveActivity_self s.memory r.1) hkey
  · intro htimely
    refine ⟨fun a ha hkey => ?_, fun row hrow hkey => ?_⟩
    · rcases mem_of_mem_saveActivity ha with rfl | hold
      · exact htimely hkey
      · exact hmono.1 a hold hkey
    · rcases row_cases hrow with hold | ⟨heq, hiff⟩
      · exact hmono.2 row hold hkey
      · rw [heq] at hkey
        exact hiff.2 (htimely (h.once hkey))

end Save

/-! ## Runs -/

/-- **Confirmed activities stay confirmed, exactly when no unconfirmed copy comes late.** Along every run of the engine, in
any order of calls, the stores are monotone in every state if and only if every activity under a key that was stored
confirmed with a height is confirmed with a height itself. -/
theorem status_monotone_iff (e : IncidentWatchEngine) (calls : List (Stamp × Call)) (maxActivities : ℕ) :
    Always save Monotone (init maxActivities) (emitted e calls) ↔
      Steps save Timely (init maxActivities) (emitted e calls) := by
  have htables : Tables (init maxActivities) := by
    refine ⟨List.nodup_nil, List.nodup_nil, fun a ha => ?_, List.Subset.refl _⟩
    cases ha
  have hinit : Monotone (init maxActivities) := by
    constructor
    · intro a ha
      cases ha
    · intro a ha
      cases ha
  exact always_iff_steps_inv (J := Tables) (E := fun _ _ => True) (fun _ r h => h.save r)
    (fun _ _ h _ hmono => save_monotone_iff h hmono) (steps_of_mem fun _ _ => trivial) htables hinit

/-- the theft, seen in its block and then delivered by a slow peer -/
def seenLate : List (Stamp × Call) :=
  [(someStamp, .transaction theft (some 840000) (some theftHash)), (laterStamp, .transaction theft none none)]

/-- both stores after that -/
def afterLateCopy : St := run save (init defaultMaxActivities) (emitted watchingEngine seenLate)

/-- **The late copy takes the confirmation back.** Both activities come under one key, and both stores end with the
mempool status and without a height. -/
theorem late_copy_reverts :
    ((emitted watchingEngine seenLate).map fun r => (r.1.status, r.1.blockHeight)) =
        [(.confirmed, some 840000), (.mempool, none)] ∧
      ((emitted watchingEngine seenLate).map fun r => r.1.dedupKey).eraseDups.length = 1 ∧
      (afterLateCopy.memory.activities.map fun a => (a.status, a.blockHeight)) = [(.mempool, none)] ∧
      (afterLateCopy.postgres.activities.map fun a => (a.status, a.blockHeight)) = [(.mempool, none)] ∧
      ¬ Always save Monotone (init defaultMaxActivities) (emitted watchingEngine seenLate) := by
  refine ⟨by decide +kernel, by decide +kernel, by decide +kernel, by decide +kernel, fun halways => ?_⟩
  have hlate : ¬ Final afterLateCopy.memory.activities afterLateCopy.memoryOnce := by
    unfold Final
    decide +kernel
  exact hlate (always_last halways).1

end ObsChain.StatusMonotone
