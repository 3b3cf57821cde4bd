/-
Which targets hear of a replacement?

A replacement names the new transaction and the ones it replaces, and each of them may be watched by several targets.
`process_replacement` looks for one target: the first one under the new txid, else the first one under the first replaced
txid that is watched at all. It reports on that one only.

- `Held`: what every engine reached by operations keeps, whatever ids are added again: a target of `all_targets` is in its
  bucket, and no bucket is empty.
- `replacementTarget_eq`: the target is the first one that the txid index lists under the txids.
- `replacement_reaches_iff`: each watching target gets one report exactly when there is at most one, and the index lists no
  leftover of an earlier version before it. In an indexed engine the first condition is enough.
- `second_incident_unnotified`: two incidents that watch two transactions replaced by one.
-/
import Mathlib.Tactic
import Mathlib.Data.List.AList
import ObsChain.Core.Trace
import ObsChain.Watch.Engine
import ObsChain.Watch.TargetIndex
import ObsChain.Watch.DirectMatching

namespace ObsChain.Replacements

open Trace IncidentWatchEngine DirectMatching

/-- the txids a replacement is about, the new one first -/
def txids (repl : TransactionReplacement) : List String := repl.replacementTxid :: repl.replacedTxids

/-- the active targets that watch one of them -/
def watchers (e : IncidentWatchEngine) (repl : TransactionReplacement) : List WatchTarget :=
  (targets e).filter fun t => (txids repl).any fun txid => watchesTransaction txid t

/-- what the txid index lists under them, in order -/
def listed (e : IncidentWatchEngine) (repl : TransactionReplacement) : List WatchTarget :=
  (txids repl).flatMap fun txid => e.found (.txid (toLowercase txid))

/-- one replacement activity for each watching target, under the target's incident -/
def ReachesWatchers (stamp : Stamp) (e : IncidentWatchEngine) (repl : TransactionReplacement) : Prop :=
  ((processReplacement stamp e repl).map fun r => (r.1.activityType, r.1.watchTargetId, r.1.incidentId)).Perm
    ((watchers e repl).map fun t => (.transactionReplacement, t.id, t.incidentId))

/-! ## What every engine keeps -/

structure Held (e : IncidentWatchEngine) : Prop where
  keyed : ∀ id t, e.allTargets.lookup id = some t → t.id = id
  present : ∀ id t, e.allTargets.lookup id = some t → t ∈ e.found t.kind.indexKey
  occupied : ∀ key, e.bucket key ≠ some []

variable {e : IncidentWatchEngine} {repl : TransactionReplacement}

theorem held_start (maxDepth : ℕ) : Held (withFollowDepth maxDepth) := by
  refine ⟨fun id t ht => ?_, fun id t ht => ?_, fun key => ?_⟩
  · simp [withFollowDepth] at ht
  · simp [withFollowDepth] at ht
  · cases key <;> simp [withFollowDepth, bucket]

theorem Held.addTarget (h : Held e) (target : WatchTarget) : Held (e.addTarget target) := by
  cases hactive : target.active with
  | false => rwa [addTarget_of_inactive hactive]
  | true =>
    have hlookup : ∀ id t, (e.addTarget target).allTargets.lookup id = some t →
        (id = target.id ∧ t = target) ∨ e.allTargets.lookup id = some t := by
      intro id t ht
      rw [allTargets_addTarget hactive] at ht
      by_cases hid : id = target.id
      · rw [hid, AList.lookup_insert] at ht
        exact Or.inl ⟨hid, (Option.some.inj ht).symm⟩
      · rw [AList.lookup_insert_ne hid] at ht
        exact Or.inr ht
    refine ⟨fun id t ht => ?_, fun id t ht => ?_, occupied_addTarget h.occupied target⟩
    · rcases hlookup id t ht with ⟨hid, rfl⟩ | hold
      · exact hid.symm
      · exact h.keyed id t hold
    · rcases hlookup id t ht with ⟨-, rfl⟩ | hold
      · rw [found_addTarget hactive, if_pos rfl]
        exact List.mem_append_right _ List.mem_cons_self
      · exact (found_addTarget_sublist e target t.kind.indexKey).subset (h.present id t hold)

theorem Held.removeTarget (h : Held e) (targetId : Uuid) : Held (e.removeTarget targetId) := by
  cases hlookup : e.allTargets.lookup targetId with
  | none => rwa [removeTarget_of_none hlookup]
  | some target =>
    have hother : ∀ id t, (e.removeTarget targetId).allTargets.lookup id = some t →
        id ≠ targetId ∧ e.allTargets.lookup id = some t := by
      intro id t ht
      rw [allTargets_removeTarget hlookup] at ht
      have hne : id ≠ targetId := by
        rintro rfl
        rw [AList.lookup_erase] at ht
        cases ht
      rw [AList.lookup_erase_ne hne] at ht
      exact ⟨hne, ht⟩
    refine ⟨fun id t ht => ?_, fun id t ht => ?_, occupied_removeTarget h.occupied targetId⟩
    · exact h.keyed id t (hother id t ht).2
    · obtain ⟨hne, hold⟩ := hother id t ht
      have hpresent := h.present id t hold
      rw [found_removeTarget hlookup]
      split_ifs with hkey
      · apply List.mem_filter.2
        refine ⟨hpresent, ?_⟩
        simpa [h.keyed id t hold] using hne
      · exact hpresent

theorem Held.operate (h : Held e) (op : Operation) : Held (e.operate op) := by
  cases op with
  | addTarget target => exact h.addTarget target
  | loadTargets targets =>
    simp only [IncidentWatchEngine.operate, loadTargets]
    induction targets generalizing e with
    | nil => exact h
    | cons target targets ih => exact ih (h.addTarget target)
  | removeTarget targetId => exact h.removeTarget targetId
  | registerIncidentTitle caseId title => exact ⟨h.keyed, h.present, h.occupied⟩
  | call call =>
    obtain ⟨t, ht⟩ := e.step_frame call
    simp only [IncidentWatchEngine.operate, ht]
    exact ⟨h.keyed, h.present, h.occupied⟩

/-! ## The target of a replacement -/

/-- a bucket that is there has a first target -/
theorem head_found (h : Held e) {txid : String} {bucket : List WatchTarget} (hb : e.txidIndex.lookup txid = some bucket) :
    ∃ t ts, bucket = t :: ts ∧ e.found (.txid txid) = t :: ts := by
  cases bucket with
  | nil => exact absurd hb (h.occupied (.txid txid))
  | cons t ts => exact ⟨t, ts, rfl, by simp only [found, IncidentWatchEngine.bucket, hb, Option.getD_some]⟩

theorem found_eq_nil {txid : String} (hb : e.txidIndex.lookup txid = none) : e.found (.txid txid) = [] := by
  simp only [found, IncidentWatchEngine.bucket, hb, Option.getD_none]

/-- the first replaced txid that is watched -/
theorem findSome_head (h : Held e) (replaced : List String) :
    (replaced.findSome? fun old => e.txidIndex.lookup (toLowercase old)).bind List.head? =
      (replaced.flatMap fun old => e.found (.txid (toLowercase old))).head? := by
  induction replaced with
  | nil => rfl
  | cons old replaced ih =>
    rw [List.findSome?_cons, List.flatMap_cons]
    cases hb : e.txidIndex.lookup (toLowercase old) with
    | none => rw [found_eq_nil hb, List.nil_append, ← ih]
    | some bucket =>
      obtain ⟨t, ts, rfl, hfound⟩ := head_found h hb
      rw [hfound]
      rfl

/-- **The target is the first one listed.** -/
theorem replacementTarget_eq (h : Held e) (repl : TransactionReplacement) :
    e.replacementTarget repl = (listed e repl).head? := by
  unfold replacementTarget listed txids
  rw [List.flatMap_cons]
  cases hb : e.txidIndex.lookup (toLowercase repl.replacementTxid) with
  | none =>
    rw [found_eq_nil hb, List.nil_append, ← findSome_head h]
    rfl
  | some bucket =>
    obtain ⟨t, ts, rfl, hfound⟩ := head_found h hb
    rw [hfound]
    rfl

/-- the activities of a replacement: one for the first target listed, or none -/
theorem processReplacement_kinds (h : Held e) (stamp : Stamp) (repl : TransactionReplacement) :
    ((processReplacement stamp e repl).map fun r => (r.1.activityType, r.1.watchTargetId, r.1.incidentId)) =
      (listed e repl).head?.toList.map fun t => (.transactionReplacement, t.id, t.incidentId) := by
  unfold processReplacement observeReplacement
  rw [replacementTarget_eq h]
  cases (listed e repl).head? with
  | none => rfl
  | some t => rfl

theorem mem_watchers {t : WatchTarget} :
    t ∈ watchers e repl ↔ (∃ id, e.allTargets.lookup id = some t) ∧ ∃ txid ∈ txids repl, watchesTransaction txid t := by
  have htargets : t ∈ targets e ↔ ∃ id, e.allTargets.lookup id = some t := by
    unfold targets
    rw [List.mem_map]
    constructor
    · rintro ⟨⟨id, t'⟩, hentry, rfl⟩
      exact ⟨id, AList.mem_lookup_iff.2 hentry⟩
    · rintro ⟨id, hlookup⟩
      exact ⟨⟨id, t⟩, AList.mem_lookup_iff.1 hlookup, rfl⟩
  unfold watchers
  rw [List.mem_filter, htargets, List.any_eq_true]

theorem watchesTransaction_iff {txid : String} {t : WatchTarget} :
    watchesTransaction txid t = true ↔ t.kind.indexKey = .txid (toLowercase txid) := by
  unfold watchesTransaction
  cases t.kind <;> simp [WatchTargetKind.indexKey]

/-- a watching target is listed -/
theorem listed_of_watcher (h : Held e) {t : WatchTarget} (ht : t ∈ watchers e repl) : t ∈ listed e repl := by
  obtain ⟨⟨id, hlookup⟩, txid, htxid, hwatches⟩ := mem_watchers.1 ht
  refine List.mem_flatMap.2 ⟨txid, htxid, ?_⟩
  rw [← watchesTransaction_iff.1 hwatches]
  exact h.present id t hlookup

/-- in an indexed engine nothing else is -/
theorem watcher_of_listed (h : e.Indexed) {t : WatchTarget} (ht : t ∈ listed e repl) : t ∈ watchers e repl := by
  obtain ⟨txid, htxid, hfound⟩ := List.mem_flatMap.1 ht
  obtain ⟨hlookup, hkey⟩ := h.of_mem hfound
  exact mem_watchers.2 ⟨⟨t.id, hlookup⟩, txid, htxid, watchesTransaction_iff.2 hkey⟩

/-! ## Reaching every watching target -/

/-- at most one target watches, and the first one listed is that target, or a version of it for the same incident -/
def OneWatcher (e : IncidentWatchEngine) (repl : TransactionReplacement) : Prop :=
  (watchers e repl).length ≤ 1 ∧
    ∀ t, (listed e repl).head? = some t → ∃ w ∈ watchers e repl, w.id = t.id ∧ w.incidentId = t.incidentId

theorem reaches_iff_oneWatcher (h : Held e) (stamp : Stamp) (repl : TransactionReplacement) :
    ReachesWatchers stamp e repl ↔ OneWatcher e repl := by
  unfold ReachesWatchers OneWatcher
  rw [processReplacement_kinds h]
  cases hhead : (listed e repl).head? with
  | none =>
    -- nothing is listed, so nothing watches
    have hnone : watchers e repl = [] := by
      rw [List.eq_nil_iff_forall_not_mem]
      intro t ht
      have hlisted := listed_of_watcher h ht
      rw [List.head?_eq_none_iff.1 hhead] at hlisted
      cases hlisted
    simp [hnone]
  | some first =>
    constructor
    · intro hperm
      obtain ⟨w, hw, hkind⟩ := List.map_eq_singleton_iff.1 (List.perm_singleton.1 hperm.symm)
      obtain ⟨-, hid, hincident⟩ : True ∧ w.id = first.id ∧ w.incidentId = first.incidentId := by simpa using hkind
      have hle : (watchers e repl).length ≤ 1 := by
        rw [hw]
        exact le_rfl
      have hmem : w ∈ watchers e repl := by
        rw [hw]
        exact List.mem_singleton_self w
      refine ⟨hle, ?_⟩
      intro t ht
      cases ht
      exact ⟨w, hmem, hid, hincident⟩
    · rintro ⟨hle, hfirst⟩
      obtain ⟨w, hw, hid, hincident⟩ := hfirst first rfl
      have hone : watchers e repl = [w] := by
        have hlength : (watchers e repl).length = 1 := le_antisymm hle (List.length_pos_of_mem hw)
        obtain ⟨w', hw'⟩ := List.length_eq_one_iff.1 hlength
        rw [hw'] at hw
        rw [hw', List.mem_singleton.1 hw]
      rw [hone]
      simp [hid, hincident]

/-- **Replacement reports, exactly.** In every engine reached by operations, each target that watches the replacement or a
replaced transaction gets one report if and only if at most one does, and the first target that the txid index lists under
the txids is a version of it. Where the engine is indexed, at most one watching target is all it takes. -/
theorem replacement_reaches_iff (maxDepth : ℕ) (ops : List Operation) (stamp : Stamp) (repl : TransactionReplacement) :
    (ReachesWatchers stamp (run operate (withFollowDepth maxDepth) ops) repl ↔
        OneWatcher (run operate (withFollowDepth maxDepth) ops) repl) ∧
      ((run operate (withFollowDepth maxDepth) ops).Indexed →
        (ReachesWatchers stamp (run operate (withFollowDepth maxDepth) ops) repl ↔
          (watchers (run operate (withFollowDepth maxDepth) ops) repl).length ≤ 1)) := by
  have hheld : Held (run operate (withFollowDepth maxDepth) ops) :=
    run_inv_all (fun _ op h => h.operate op) ops (held_start maxDepth)
  have hiff := reaches_iff_oneWatcher hheld stamp repl
  refine ⟨hiff, ?_⟩
  intro hindexed
  rw [hiff]
  refine ⟨fun h => h.1, fun hle => ⟨hle, ?_⟩⟩
  intro t ht
  exact ⟨t, watcher_of_listed hindexed (List.mem_of_head? ht), rfl, rfl⟩

/-! ## Two incidents -/

/-- a transaction that an incident watches -/
def watchedTx (id incident : Uuid) (caseId txid : String) : WatchTarget where
  id := id
  incidentId := incident
  caseId := caseId
  kind := .transaction txid
  classification := .onChainVerified
  evidenceId := none
  label := none
  active := true

/-- two unconfirmed transactions are replaced by a third one -/
def doubleReplacement : TransactionReplacement where
  replacedTxids := ["aa01", "bb02"]
  replacementTxid := "cc03"
  oldFeeSats := 1000
  newFeeSats := 5000
  feeDeltaSats := 4000
  oldVsize := none
  newVsize := none
  oldFeeRateSatVb := none
  newFeeRateSatVb := none
  observedAt := 0
  source := none

/-- one incident watches the first of them, another one the second -/
def twoIncidents : List Operation :=
  [.addTarget (watchedTx 1 11 "OC-TEST-001" "aa01"), .addTarget (watchedTx 2 22 "OC-TEST-002" "BB02")]

/-- **The second incident is not told.** Both transactions are replaced, and one report is made, for the first. -/
theorem second_incident_unnotified :
    ((processReplacement someStamp (run operate (withFollowDepth 3) twoIncidents) doubleReplacement).map
        fun r => r.1.caseId) = ["OC-TEST-001"] ∧
      (watchers (run operate (withFollowDepth 3) twoIncidents) doubleReplacement).map (·.caseId) =
        ["OC-TEST-002", "OC-TEST-001"] ∧
      ¬ ReachesWatchers someStamp (run operate (withFollowDepth 3) twoIncidents) doubleReplacement := by
  have hreported : (processReplacement someStamp (run operate (withFollowDepth 3) twoIncidents) doubleReplacement).map
      (fun r => r.1.caseId) = ["OC-TEST-001"] := by decide +kernel
  have hwatchers : (watchers (run operate (withFollowDepth 3) twoIncidents) doubleReplacement).map (·.caseId) =
      ["OC-TEST-002", "OC-TEST-001"] := by decide +kernel
  refine ⟨hreported, hwatchers, fun hreaches => ?_⟩
  -- one report for two watchers
  have hlength := hreaches.length_eq
  have hone := congrArg List.length hreported
  have htwo := congrArg List.length hwatchers
  simp only [List.length_map, List.length_cons, List.length_nil] at hlength hone htwo
  omega

end ObsChain.Replacements
