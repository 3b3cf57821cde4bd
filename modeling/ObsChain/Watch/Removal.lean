/-
Is a removed watch target reported again?

`remove_target` takes the target out of `all_targets` and out of its bucket. The outputs that were enrolled on behalf of
the target stay tracked under its id, and a transaction that spends one of them is reported under that id and enrols
its own outputs in turn.

`Silent`: no target with the id is in the table, and no tracked record names it as its origin. Operations that do not add
the id keep it so, and a silent engine reports nothing under the id.

- `removal_silences_iff`: in a state reached without adding an id that is held (distinct ids are a case), a removal ends
  the reports of the id exactly when no tracked descendant came from it.
- `removed_target_reported`: the theft of a watched outpoint, the removal of its target, and the onward transfer.
-/
import Mathlib.Tactic
import Mathlib.Data.List.AList
import ObsChain.Core.Trace
import ObsChain.Watch.Engine
import ObsChain.Watch.Pass
import ObsChain.Watch.Interference
import ObsChain.Watch.TargetIndex

namespace ObsChain.Removal

open Trace IncidentWatchEngine

/-- the operation adds a target with this id -/
def Adds (targetId : Uuid) : Operation → Prop
  | .addTarget target => target.id = targetId
  | .loadTargets targets => ∃ t ∈ targets, t.id = targetId
  | .removeTarget _ | .registerIncidentTitle _ _ | .call _ => False

/-- what an operation returns -/
def results (stamp : Stamp) (e : IncidentWatchEngine) : Operation → List (IncidentActivity × Option IncidentAlert)
  | .call c => e.returned stamp c
  | .addTarget _ | .loadTargets _ | .removeTarget _ | .registerIncidentTitle _ _ => []

/-- no activity that the operation returns names the id -/
def Unnamed (targetId : Uuid) (e : IncidentWatchEngine) (op : Operation) : Prop :=
  ∀ stamp, ∀ r ∈ results stamp e op, r.1.watchTargetId ≠ targetId

/-- whatever is done, nothing is reported under the id until a target with the id is added -/
def NeverReported (targetId : Uuid) (e : IncidentWatchEngine) : Prop :=
  ∀ later, (∀ op ∈ later, ¬ Adds targetId op) → Steps operate (Unnamed targetId) e later

/-- no tracked descendant came from the target -/
def Forgotten (targetId : Uuid) (e : IncidentWatchEngine) : Prop :=
  Records (fun _ d => d.originTargetId ≠ targetId) e.descendants

structure Silent (targetId : Uuid) (e : IncidentWatchEngine) : Prop where
  absent : ∀ key, ∀ t ∈ e.found key, t.id ≠ targetId
  forgotten : Forgotten targetId e

/-! ## A silent engine stays silent -/

variable {e : IncidentWatchEngine} {targetId : Uuid}

theorem Silent.closed (h : Silent targetId e) (tx : TransactionObservation) :
    Closed (fun _ d => d.originTargetId ≠ targetId) e tx :=
  ⟨fun i _ t ht _ _ => h.absent (.outpoint i.key) t ht, fun _ _ _ hd _ _ => hd⟩

theorem Silent.addTarget (h : Silent targetId e) {target : WatchTarget} (hid : target.id ≠ targetId) :
    Silent targetId (e.addTarget target) := by
  refine ⟨fun key t ht => ?_, ?_⟩
  · cases hactive : target.active with
    | false =>
      rw [addTarget_of_inactive hactive] at ht
      exact h.absent key t ht
    | true =>
      rw [found_addTarget hactive] at ht
      split_ifs at ht with hkey
      · rcases List.mem_append.1 ht with hold | hnew
        · exact h.absent key t hold
        · rw [List.mem_singleton.1 hnew]
          exact hid
      · exact h.absent key t ht
  · rw [Forgotten, descendants_addTarget]
    exact h.forgotten

theorem Silent.loadTargets (h : Silent targetId e) {targets : List WatchTarget}
    (hids : ∀ t ∈ targets, t.id ≠ targetId) : Silent targetId (e.loadTargets targets) := by
  have hadd : ∀ (e : IncidentWatchEngine) (t : WatchTarget), Silent targetId e → t.id ≠ targetId →
      Silent targetId (e.addTarget t) := fun _ _ he ht => he.addTarget ht
  have hrun : Silent targetId (run IncidentWatchEngine.addTarget e targets) := run_inv_mem hadd hids h
  exact hrun

theorem Silent.removeTarget (h : Silent targetId e) (other : Uuid) : Silent targetId (e.removeTarget other) := by
  refine ⟨fun key t ht => ?_, ?_⟩
  · cases hlookup : e.allTargets.lookup other with
    | none =>
      rw [removeTarget_of_none hlookup] at ht
      exact h.absent key t ht
    | some target =>
      rw [found_removeTarget hlookup] at ht
      split_ifs at ht with hkey
      · exact h.absent key t (List.mem_of_mem_filter ht)
      · exact h.absent key t ht
  · rw [Forgotten, descendants_removeTarget]
    exact h.forgotten

theorem Silent.step (h : Silent targetId e) (c : Call) : Silent targetId (e.step c) := by
  refine ⟨fun key t ht => ?_, h.forgotten.step fun tx _ => h.closed tx⟩
  obtain ⟨tracking, hframe⟩ := e.step_frame c
  rw [hframe] at ht
  exact h.absent key t ht

/-- **One operation.** -/
theorem Silent.operate (h : Silent targetId e) {op : Operation} (hop : ¬ Adds targetId op) :
    Silent targetId (e.operate op) := by
  cases op with
  | addTarget target => exact h.addTarget hop
  | loadTargets targets => exact h.loadTargets fun t ht hid => hop ⟨t, ht, hid⟩
  | removeTarget other => exact h.removeTarget other
  | registerIncidentTitle caseId title => exact ⟨h.absent, h.forgotten⟩
  | call c => exact h.step c

/-- a silent engine reports nothing under the id -/
theorem Silent.unnamed (h : Silent targetId e) (op : Operation) : Unnamed targetId e op := by
  intro stamp r hr
  cases op with
  | addTarget target => cases hr
  | loadTargets targets => cases hr
  | removeTarget other => cases hr
  | registerIncidentTitle caseId title => cases hr
  | call c =>
    have hreport : unsealed r ∈ e.reports c := by
      rw [← map_unsealed_returned stamp]
      exact List.mem_map_of_mem hr
    show (unsealed r).1.watchTargetId ≠ targetId
    rcases reports_cases h.forgotten (fun tx _ => h.closed tx) hreport with
      ⟨tx, -, height, hash, m, hm, heq⟩ | ⟨tx, -, height, hash, i, -, d, hd, heq⟩ | ⟨repl, txid, t, ht, heq⟩
    · obtain ⟨key, hfound⟩ := directMatches_found hm
      rw [heq]
      exact h.absent key m.target hfound
    · rw [heq]
      exact hd
    · rw [heq]
      exact h.absent (.txid txid) t ht

theorem Silent.neverReported (h : Silent targetId e) : NeverReported targetId e := by
  intro later hlater
  apply steps_imp (I := Silent targetId) (C := fun _ op => ¬ Adds targetId op)
  · exact fun _ _ hs hop => hs.operate hop
  · exact fun _ op hs _ => hs.unnamed op
  · exact h
  · exact steps_of_mem hlater

/-! ## What is tracked is reported -/

/-- the tracked outpoints are written as the engine writes keys -/
def Spelled (e : IncidentWatchEngine) : Prop := Records (fun k _ => ∃ txid vout, k = outpointKey txid vout) e.descendants

theorem spendable_spelled {tx : TransactionObservation} {k : OutpointKey} (hk : k ∈ tx.spendable) :
    ∃ txid vout, k = outpointKey txid vout := by
  obtain ⟨o, -, rfl⟩ := List.mem_map.1 hk
  exact ⟨tx.txid, o.2, rfl⟩

theorem spelled_operate (h : Spelled e) (op : Operation) : Spelled (e.operate op) := by
  cases op with
  | addTarget target =>
    rw [Spelled, IncidentWatchEngine.operate, descendants_addTarget]
    exact h
  | loadTargets targets =>
    rw [Spelled, IncidentWatchEngine.operate, descendants_loadTargets]
    exact h
  | removeTarget other =>
    rw [Spelled, IncidentWatchEngine.operate, descendants_removeTarget]
    exact h
  | registerIncidentTitle caseId title => exact h
  | call c =>
    apply Records.step h
    intro tx _
    exact ⟨fun _ _ _ _ _ hk => spendable_spelled hk, fun _ _ _ _ _ hk => spendable_spelled hk⟩

/-- a transaction that spends a tracked descendant of the target is reported under its id -/
theorem forgotten_of_neverReported (hspelled : Spelled e) (h : NeverReported targetId e) : Forgotten targetId e := by
  intro k d hd horigin
  obtain ⟨txid, vout, rfl⟩ := hspelled k d hd
  have htracked : e.descendants.get (outpointKey txid vout) ≠ none := by
    rw [hd]
    simp
  obtain ⟨r, hr, hdescendant⟩ := (Watch.probe_reports e txid txid vout).2 htracked
  have hown : (Watch.probe txid txid vout).SpendsNoOwnOutput := fun _ _ => List.not_mem_nil
  obtain ⟨i, hi, d', hd', rfl⟩ := observe_sound hown hr hdescendant
  have hsame : d' = d := by
    rw [List.mem_singleton.1 hi] at hd'
    exact Option.some.inj (hd'.symm.trans hd)
  -- the report is among the results of the one call
  have hcall : ∀ op ∈ [Operation.call (.transaction (Watch.probe txid txid vout) none none)], ¬ Adds targetId op := by
    intro op hop
    rw [List.mem_singleton.1 hop]
    exact fun hadds => hadds
  obtain ⟨hunnamed, -⟩ := h _ hcall
  rw [← map_unsealed_mapIdx someStamp (e.observe _ none none).2] at hr
  obtain ⟨sealedReport, hresult, heq⟩ := List.mem_map.1 hr
  apply hunnamed someStamp sealedReport hresult
  calc sealedReport.1.watchTargetId = (unsealed sealedReport).1.watchTargetId := rfl
    _ = d'.originTargetId := by rw [heq]; rfl
    _ = targetId := by rw [hsame, horigin]

/-! ## Removal -/

/-- a removal from an indexed engine takes the id out of the table -/
theorem absent_removeTarget (h : e.Indexed) (targetId : Uuid) (key : IndexKey) :
    ∀ t ∈ (e.removeTarget targetId).found key, t.id ≠ targetId := by
  intro t ht hid
  obtain ⟨hlookup, -⟩ := (h.removeTarget targetId).of_mem ht
  rw [hid] at hlookup
  cases hold : e.allTargets.lookup targetId with
  | none =>
    rw [removeTarget_of_none hold, hold] at hlookup
    cases hlookup
  | some target =>
    rw [allTargets_removeTarget hold, AList.lookup_erase] at hlookup
    cases hlookup

/-- **Removal stops reporting, exactly where nothing was enrolled for the target.** In every state reached by additions of
ids that are not held, removals and processed transactions, in any order: after the removal of a target nothing is ever
reported under its id, until it is added again, if and only if no tracked descendant came from it. -/
theorem removal_silences_iff (maxDepth : ℕ) (ops : List Operation)
    (hnew : Steps Registered.operate Registered.AddsNew (Registered.start maxDepth) ops) (targetId : Uuid) :
    NeverReported targetId ((run Registered.operate (Registered.start maxDepth) ops).engine.removeTarget targetId) ↔
      Forgotten targetId (run Registered.operate (Registered.start maxDepth) ops).engine := by
  have hintegrity : (run Registered.operate (Registered.start maxDepth) ops).Integrity :=
    run_inv (fun _ op h hop => (h.operate_iff op).2 hop) (Registered.start_integrity maxDepth) hnew
  have hspelled : Spelled (run Registered.operate (Registered.start maxDepth) ops).engine := by
    apply run_inv_all (I := fun s : Registered => Spelled s.engine)
    · exact fun s op h => spelled_operate h op
    · intro k d hd
      cases hd
  generalize (run Registered.operate (Registered.start maxDepth) ops) = s at hintegrity hspelled
  constructor
  · intro hnever
    have hafter : Spelled (s.engine.removeTarget targetId) := spelled_operate hspelled (.removeTarget targetId)
    have hforgotten := forgotten_of_neverReported hafter hnever
    rwa [Forgotten, descendants_removeTarget] at hforgotten
  · intro hforgotten
    apply Silent.neverReported
    refine ⟨absent_removeTarget hintegrity.indexed targetId, ?_⟩
    rw [Forgotten, descendants_removeTarget]
    exact hforgotten

/-- the watched outpoint is stolen, and the case closed -/
def untilClosed : List Operation := [.addTarget watchedOutpoint, .call (.transaction theft none none)]

/-- the outpoint is watched, and nothing happens -/
def untouched : List Operation := [.addTarget watchedOutpoint]

/-- a target whose outpoint was never spent is gone for good -/
theorem removal_silences_iff_untouched :
    NeverReported watchedOutpoint.id
      ((run Registered.operate (Registered.start 3) untouched).engine.removeTarget watchedOutpoint.id) := by
  have hnew : Steps Registered.operate Registered.AddsNew (Registered.start 3) untouched := by
    decide +kernel
  refine (removal_silences_iff 3 untouched hnew watchedOutpoint.id).2 ?_
  intro k d hd
  cases hd

/-- **The removed target is reported.** The funds move on after the case was closed. -/
theorem removed_target_reported :
    (((run Registered.operate (Registered.start 3) untilClosed).engine.removeTarget watchedOutpoint.id).returned someStamp
        (.transaction onward none none)).map (fun r => (r.1.activityType, r.1.watchTargetId)) =
        [(.newDescendantObserved, watchedOutpoint.id)] ∧
      ¬ NeverReported watchedOutpoint.id
        ((run Registered.operate (Registered.start 3) untilClosed).engine.removeTarget watchedOutpoint.id) := by
  have hreported : (((run Registered.operate (Registered.start 3) untilClosed).engine.removeTarget
      watchedOutpoint.id).returned someStamp (.transaction onward none none)).map
        (fun r => (r.1.activityType, r.1.watchTargetId)) = [(.newDescendantObserved, watchedOutpoint.id)] := by
    decide +kernel
  refine ⟨hreported, fun hnever => ?_⟩
  have hcall : ∀ op ∈ [Operation.call (.transaction onward none none)], ¬ Adds watchedOutpoint.id op := by
    intro op hop
    rw [List.mem_singleton.1 hop]
    exact fun hadds => hadds
  obtain ⟨hunnamed, -⟩ := hnever _ hcall
  have hmem : (IncidentActivityType.newDescendantObserved, watchedOutpoint.id) ∈
      (((run Registered.operate (Registered.start 3) untilClosed).engine.removeTarget watchedOutpoint.id).returned
        someStamp (.transaction onward none none)).map (fun r => (r.1.activityType, r.1.watchTargetId)) := by
    rw [hreported]
    exact List.mem_singleton_self _
  obtain ⟨r, hr, heq⟩ := List.mem_map.1 hmem
  exact hunnamed someStamp r hr (Prod.mk.inj heq).2

end ObsChain.Removal
