/-
Is the tracking of descendants bounded?

Inside one transaction a watched outpoint enrols the outputs, a tracked one is spent and enrols them again, and each
enrolment may evict the front of the queue, which may be spent, queued again later, or tracked.

- `Bounded`: the queue fits its capacity and lists every tracked outpoint, and the records are between the first generation
  and the last one that is followed.
- `Bounded.enrollDescendants`, `Bounded.processInputs`, `Bounded.operate`: an enrolment, a pass and any operation keep that.
- `tracking_bounded`: so it is after any operations on a new engine, whose follow depth is between 1 and 5.
-/
import Mathlib.Tactic
import ObsChain.Core.Trace
import ObsChain.Core.BoundedMap
import ObsChain.Watch.Engine
import ObsChain.Watch.Pass
import ObsChain.Watch.TargetIndex

namespace ObsChain.TrackingBounds

open Trace IncidentWatchEngine

structure Bounded (maxDepth : ℕ) (t : Tracking) : Prop where
  tidy : t.Tidy
  capacity : t.capacity = defaultMaxTrackedDescendants
  depths : Records (fun _ d => 1 ≤ d.depth ∧ d.depth ≤ maxDepth) t

section Pass

variable {e : IncidentWatchEngine} {tx : TransactionObservation} {t : Tracking} {maxDepth : ℕ}
variable (blockHeight : Option ℕ) (blockHash : Option String)

theorem Bounded.insertAll (h : Bounded maxDepth t) (ks : List OutpointKey) {d : TrackedDescendantOutpoint}
    (hd : 1 ≤ d.depth ∧ d.depth ≤ maxDepth) : Bounded maxDepth (t.insertAll ks d) := by
  refine ⟨h.tidy.insertAll ks d, (BoundedMap.capacity_insertAll t ks d).trans h.capacity, ?_⟩
  intro k d' hget
  rcases BoundedMap.get_insertAll_cases hget with ⟨-, rfl⟩ | hbefore
  · exact hd
  · exact h.depths k d' hbefore

theorem Bounded.remove (h : Bounded maxDepth t) (k : OutpointKey) : Bounded maxDepth (t.remove k) :=
  ⟨h.tidy.remove k, h.capacity, fun k' d hget => h.depths k' d (BoundedMap.get_of_get_remove hget)⟩

/-- outputs that are too deep are not enrolled -/
theorem Bounded.enrollDescendants (h : Bounded e.maxDescendantDepth t) {d : TrackedDescendantOutpoint}
    (hd : 1 ≤ d.depth) : Bounded e.maxDescendantDepth (e.enrollDescendants tx t d) := by
  unfold IncidentWatchEngine.enrollDescendants
  split_ifs with hdeep
  · exact h
  · exact h.insertAll tx.spendable ⟨hd, not_lt.1 hdeep⟩

theorem Bounded.spendOutpoint (h : Bounded e.maxDescendantDepth t) (vin : ℕ) (i : TxInputObservation) :
    Bounded e.maxDescendantDepth (e.spendOutpoint tx blockHeight blockHash t vin i).1 := by
  unfold IncidentWatchEngine.spendOutpoint
  generalize e.outpointMatches tx vin i = found
  induction found generalizing t with
  | nil => exact h
  | cons m found ih => exact ih (h.enrollDescendants (le_refl 1))

theorem Bounded.spendDescendant (h : Bounded e.maxDescendantDepth t) (i : TxInputObservation) :
    Bounded e.maxDescendantDepth (e.spendDescendant tx blockHeight blockHash t i).1 := by
  unfold IncidentWatchEngine.spendDescendant
  cases t.get i.key with
  | none => exact h
  | some d =>
    dsimp only
    split_ifs
    · exact (h.remove i.key).enrollDescendants (Nat.le_add_left 1 d.depth)
    · exact h.remove i.key

/-- **A pass keeps the bounds**, input by input. -/
theorem Bounded.processInputs (h : Bounded e.maxDescendantDepth t) (vin : ℕ) (inputs : List TxInputObservation) :
    Bounded e.maxDescendantDepth (e.processInputs tx blockHeight blockHash t vin inputs).1 := by
  induction inputs generalizing t vin with
  | nil => exact h
  | cons i inputs ih =>
    have hinput : Bounded e.maxDescendantDepth (e.processInput tx blockHeight blockHash t vin i).1 :=
      (h.spendOutpoint blockHeight blockHash vin i).spendDescendant blockHeight blockHash i
    exact ih hinput (vin + 1)

end Pass

/-! ## Operations -/

section Operations

variable {e : IncidentWatchEngine}

theorem maxDescendantDepth_addTarget (e : IncidentWatchEngine) (target : WatchTarget) :
    (e.addTarget target).maxDescendantDepth = e.maxDescendantDepth := by
  unfold addTarget
  split_ifs
  · rfl
  · cases target.kind <;> rfl

theorem maxDescendantDepth_loadTargets (e : IncidentWatchEngine) (targets : List WatchTarget) :
    (e.loadTargets targets).maxDescendantDepth = e.maxDescendantDepth := by
  induction targets generalizing e with
  | nil => rfl
  | cons target targets ih => exact (ih (e.addTarget target)).trans (maxDescendantDepth_addTarget e target)

theorem maxDescendantDepth_removeTarget (e : IncidentWatchEngine) (targetId : Uuid) :
    (e.removeTarget targetId).maxDescendantDepth = e.maxDescendantDepth := by
  unfold removeTarget
  cases e.allTargets.lookup targetId with
  | none => rfl
  | some target =>
    dsimp only
    cases target.kind <;> rfl

/-- **One operation.** Targets and titles leave the tracking alone, and so does a replacement. -/
theorem Bounded.operate (h : Bounded e.maxDescendantDepth e.descendants) (op : Operation) :
    Bounded (e.operate op).maxDescendantDepth (e.operate op).descendants := by
  cases op with
  | addTarget target =>
    rw [IncidentWatchEngine.operate, descendants_addTarget, maxDescendantDepth_addTarget]
    exact h
  | loadTargets targets =>
    rw [IncidentWatchEngine.operate, descendants_loadTargets, maxDescendantDepth_loadTargets]
    exact h
  | removeTarget targetId =>
    rw [IncidentWatchEngine.operate, descendants_removeTarget, maxDescendantDepth_removeTarget]
    exact h
  | registerIncidentTitle caseId title => exact h
  | call c =>
    cases c with
    | transaction tx blockHeight blockHash => exact h.processInputs blockHeight blockHash 0 tx.inputs
    | replacement repl => exact h
    | block block => exact h

end Operations

theorem bounded_start (maxDepth : ℕ) :
    Bounded (withFollowDepth maxDepth).maxDescendantDepth (withFollowDepth maxDepth).descendants := by
  refine ⟨BoundedMap.tidy_empty (by decide), rfl, ?_⟩
  intro k d hget
  cases hget

/-- **Tracking is bounded.** After any operations on a new engine every tracked outpoint is in the queue, there are no more of
them than places in it, it is no longer than allowed, and each of them is between 1 and the follow depth away from a watched
outpoint, which is between 1 and 5. -/
theorem tracking_bounded (maxDepth : ℕ) (ops : List Operation) :
    let e := run operate (withFollowDepth maxDepth) ops
    (∀ k, (e.descendants.get k).isSome → k ∈ e.descendants.queue) ∧
      e.descendants.entries.keys.length ≤ e.descendants.queue.length ∧
      e.descendants.queue.length ≤ defaultMaxTrackedDescendants ∧
      (∀ k d, e.descendants.get k = some d → 1 ≤ d.depth ∧ d.depth ≤ e.maxDescendantDepth) ∧
      1 ≤ (e.maxDescendantDepth : ℕ) ∧ (e.maxDescendantDepth : ℕ) ≤ 5 := by
  intro e
  have h : Bounded e.maxDescendantDepth e.descendants :=
    run_inv_all (I := fun e : IncidentWatchEngine => Bounded e.maxDescendantDepth e.descendants)
      (fun _ op he => he.operate op) ops (bounded_start maxDepth)
  exact ⟨h.tidy.queued, h.tidy.length_keys_le, h.tidy.bounded.trans h.capacity.le, h.depths, e.maxDescendantDepth.2⟩

end ObsChain.TrackingBounds
