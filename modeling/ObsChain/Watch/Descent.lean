/-
Descent: which outputs come from a watched outpoint, and what the tracking knows of it.

`Descends passes t k n` reads the passes of a run and not the tracking: an outpoint that target `t` watched was spent, and
`k` is an output of the `n`-th generation after it. The passes keep the engine each of them found, so `t` is the target as
the index held it at that moment.

- `tracked_descends`: whatever is done to the engine, a tracked record is the record of such a target.
-/
import Mathlib.Tactic
import ObsChain.Core.Trace
import ObsChain.Watch.Engine
import ObsChain.Watch.Pass
import ObsChain.Watch.TargetIndex

namespace ObsChain.Descent

open Trace IncidentWatchEngine

/-- an observed transaction, and the engine before it -/
abbrev Pass := IncidentWatchEngine × TransactionObservation

inductive Descends (passes : List Pass) : WatchTarget → OutpointKey → ℕ → Prop
  /-- a watched outpoint is spent; the outputs are the first generation -/
  | spent {e : IncidentWatchEngine} {tx : TransactionObservation} {i : TxInputObservation} {t : WatchTarget}
      {k : OutpointKey} (hpass : (e, tx) ∈ passes) (hi : i ∈ tx.inputs) (ht : t ∈ watching e.outpointIndex i.key)
      (hk : k ∈ tx.spendable) : Descends passes t k 1
  /-- a descendant is spent; the outputs are the next generation -/
  | onward {e : IncidentWatchEngine} {tx : TransactionObservation} {i : TxInputObservation} {t : WatchTarget}
      {k : OutpointKey} {n : ℕ} (hpass : (e, tx) ∈ passes) (hi : i ∈ tx.inputs) (hd : Descends passes t i.key n)
      (hk : k ∈ tx.spendable) : Descends passes t k (n + 1)

theorem Descends.mono {passes passes' : List Pass} (hsub : passes ⊆ passes') {t : WatchTarget} {k : OutpointKey} {n : ℕ}
    (h : Descends passes t k n) : Descends passes' t k n := by
  induction h with
  | spent hpass hi ht hk => exact .spent (hsub hpass) hi ht hk
  | onward hpass hi _ hk ih => exact .onward (hsub hpass) hi ih hk

/-- the record of the `n`-th generation -/
def generation (t : WatchTarget) (n : ℕ) : TrackedDescendantOutpoint := { firstLayer t with depth := n }

/-- the record is that of a target the outpoint descends from -/
def Lineage (passes : List Pass) (k : OutpointKey) (d : TrackedDescendantOutpoint) : Prop :=
  ∃ t n, Descends passes t k n ∧ d = generation t n

/-- an engine, and the passes it has made -/
structure Followed where
  engine : IncidentWatchEngine
  passes : List Pass

namespace Followed

/-- the passes of one operation -/
def passOf (e : IncidentWatchEngine) : Operation → List Pass
  | .call c => c.observed.toList.map fun tx => (e, tx)
  | .addTarget _ | .loadTargets _ | .removeTarget _ | .registerIncidentTitle _ _ => []

def operate (s : Followed) (op : Operation) : Followed := ⟨s.engine.operate op, s.passes ++ passOf s.engine op⟩

/-- a new engine -/
def start (maxDepth : ℕ) : Followed := ⟨withFollowDepth maxDepth, []⟩

/-- every tracked record has a lineage -/
def Traced (s : Followed) : Prop := Records (Lineage s.passes) s.engine.descendants

theorem lineage_mono {passes passes' : List Pass} (hsub : passes ⊆ passes') {t : Tracking}
    (h : Records (Lineage passes) t) : Records (Lineage passes') t := by
  intro k d hd
  obtain ⟨target, n, hdescends, heq⟩ := h k d hd
  exact ⟨target, n, hdescends.mono hsub, heq⟩

/-- the enrolments of a pass keep the lineage, the pass itself being known -/
theorem lineage_closed {e : IncidentWatchEngine} {tx : TransactionObservation} {passes : List Pass}
    (hpass : (e, tx) ∈ passes) : Closed (Lineage passes) e tx := by
  constructor
  · intro i hi t ht k hk
    exact ⟨t, 1, .spent hpass hi ht hk, rfl⟩
  · rintro i hi d ⟨t, n, hd, rfl⟩ k hk
    exact ⟨t, n + 1, .onward hpass hi hd hk, rfl⟩

/-- the tracking before a call, and what its pass enrols -/
theorem Traced.call {s : Followed} (h : s.Traced) (c : Call) :
    Records (Lineage (s.passes ++ passOf s.engine (.call c))) s.engine.descendants ∧
      ∀ tx ∈ c.observed, Closed (Lineage (s.passes ++ passOf s.engine (.call c))) s.engine tx := by
  refine ⟨lineage_mono (List.subset_append_left _ _) h, fun tx htx => lineage_closed ?_⟩
  apply List.mem_append_right
  exact List.mem_map_of_mem (Option.mem_toList.2 htx)

theorem Traced.operate {s : Followed} (h : s.Traced) (op : Operation) : (s.operate op).Traced := by
  have hkept : Records (Lineage (s.operate op).passes) s.engine.descendants :=
    lineage_mono (List.subset_append_left _ _) h
  cases op with
  | addTarget target =>
    rw [Traced, Followed.operate, IncidentWatchEngine.operate, descendants_addTarget]
    exact hkept
  | loadTargets targets =>
    rw [Traced, Followed.operate, IncidentWatchEngine.operate, descendants_loadTargets]
    exact hkept
  | removeTarget targetId =>
    rw [Traced, Followed.operate, IncidentWatchEngine.operate, descendants_removeTarget]
    exact hkept
  | registerIncidentTitle caseId title => exact hkept
  | call c =>
    obtain ⟨hbefore, hclosed⟩ := h.call c
    exact hbefore.step hclosed

/-- **Tracked records have a lineage**, after any operations. -/
theorem tracked_descends (maxDepth : ℕ) (ops : List Operation) : (run operate (start maxDepth) ops).Traced := by
  have hstep : ∀ (s : Followed) (op : Operation), s.Traced → (s.operate op).Traced := fun _ op h => h.operate op
  have hstart : (start maxDepth).Traced := by
    intro k d hd
    cases hd
  exact run_inv_all hstep ops hstart

end Followed

end ObsChain.Descent
