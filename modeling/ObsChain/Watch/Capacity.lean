/-
Is an unspent descendant given up too early?

The tracking is bounded by a queue of the outpoints that were enrolled. Spending an outpoint takes its record and leaves
its place in the queue, and an outpoint that is enrolled again is queued again, so a queue that is full of such places
gives up an unspent outpoint while few are tracked.

- `Touch`: a pass as insertions of single outputs and spends (`touches_tracking`), with the outpoints spent so far.
- `Justified`: an unspent outpoint is removed only when as many others as the capacity allows are tracked and unspent.
- `justified_iff`: that is when the queue has room, or its front is not a live outpoint, or all of it is live and distinct.
- `eviction_justified_iff`: the same for every run of operations.
- `confirmation_evicts_unspent`: a transaction with 500 outputs, seen in the mempool and then confirmed.
-/
import Mathlib.Tactic
import ObsChain.Core.Trace
import ObsChain.Core.BoundedMap
import ObsChain.Watch.Engine
import ObsChain.Watch.Pass
import ObsChain.Watch.TargetIndex
import ObsChain.Watch.Moves

namespace ObsChain.Capacity

open Trace IncidentWatchEngine Moves

/-! ## Touches -/

inductive Touch where
  /-- an output is tracked -/
  | insert (k : OutpointKey) (d : TrackedDescendantOutpoint)
  /-- an outpoint is spent -/
  | spend (k : OutpointKey)

/-- the tracking, and the outpoints that were spent -/
structure Seen where
  tracking : Tracking
  spent : List OutpointKey

def touch (s : Seen) : Touch → Seen
  | .insert k d => { s with tracking := s.tracking.insert k d }
  | .spend k => ⟨s.tracking.remove k, k :: s.spent⟩

/-- a move, output by output -/
def touchesOf (outputs : List OutpointKey) : Move → List Touch
  | .enrol d => outputs.map fun k => .insert k d
  | .spend k => [.spend k]

/-- what an operation does to the tracking -/
def touches (e : IncidentWatchEngine) : Operation → List Touch
  | .call (.transaction tx _ _) => (moves e tx.spendable e.descendants tx.inputs).flatMap (touchesOf tx.spendable)
  | .call (.replacement _) | .call (.block _) => []
  | .addTarget _ | .loadTargets _ | .removeTarget _ | .registerIncidentTitle _ _ => []

/-- an engine, and the outpoints that were spent -/
structure Watched where
  engine : IncidentWatchEngine
  spent : List OutpointKey

namespace Watched

def seen (s : Watched) : Seen := ⟨s.engine.descendants, s.spent⟩

def operate (s : Watched) (op : Operation) : Watched :=
  ⟨s.engine.operate op, (run touch s.seen (touches s.engine op)).spent⟩

/-- a new engine -/
def start (maxDepth : ℕ) : Watched := ⟨withFollowDepth maxDepth, []⟩

end Watched

section Touches

variable {s : Seen}

theorem tracking_inserts (ks : List OutpointKey) (d : TrackedDescendantOutpoint) :
    (run touch s (ks.map fun k => .insert k d)).tracking = s.tracking.insertAll ks d ∧
      (run touch s (ks.map fun k => .insert k d)).spent = s.spent := by
  induction ks generalizing s with
  | nil => exact ⟨rfl, rfl⟩
  | cons k ks ih => exact ih (s := touch s (.insert k d))

theorem tracking_touchesOf (outputs : List OutpointKey) (m : Move) :
    (run touch s (touchesOf outputs m)).tracking = apply outputs s.tracking m := by
  cases m with
  | enrol d => exact (tracking_inserts outputs d).1
  | spend k => rfl

theorem tracking_moves (outputs : List OutpointKey) (ms : List Move) :
    (run touch s (ms.flatMap (touchesOf outputs))).tracking = run (apply outputs) s.tracking ms := by
  induction ms generalizing s with
  | nil => rfl
  | cons m ms ih =>
    rw [List.flatMap_cons, run_append, ih, tracking_touchesOf]
    rfl

/-- **The touches of an operation** make the tracking that the engine has after it. -/
theorem touches_tracking (e : IncidentWatchEngine) (spent : List OutpointKey) (op : Operation) :
    (run touch ⟨e.descendants, spent⟩ (touches e op)).tracking = (e.operate op).descendants := by
  cases op with
  | addTarget target => exact (descendants_addTarget e target).symm
  | loadTargets targets => exact (descendants_loadTargets e targets).symm
  | removeTarget targetId => exact (descendants_removeTarget e targetId).symm
  | registerIncidentTitle caseId title => rfl
  | call c =>
    cases c with
    | transaction tx blockHeight blockHash =>
      have hmoves := observe_moves blockHeight blockHash e tx
      exact (tracking_moves tx.spendable _).trans hmoves.symm
    | replacement repl => rfl
    | block block => rfl

theorem seen_operate (s : Watched) (op : Operation) : (s.operate op).seen = run touch s.seen (touches s.engine op) := by
  have htracking := touches_tracking s.engine s.spent op
  rw [Watched.seen, Watched.operate, ← htracking]
  rfl

end Touches

/-! ## Live outpoints -/

/-- the tracked outpoints that were not spent -/
def live (s : Seen) : List OutpointKey := s.tracking.entries.keys.filter fun k => k ∉ s.spent

/-- those that are there before `k` is enrolled -/
def others (s : Seen) (k : OutpointKey) : List OutpointKey := (live s).filter fun k' => k' ≠ k

/-- a live outpoint is removed by a transaction that spends it, or to make room among as many others as are allowed -/
def Justified (s : Seen) (o : Touch) : Prop :=
  ∀ k ∈ live s, (touch s o).tracking.get k = none →
    o = .spend k ∨ ∃ k' d, o = .insert k' d ∧ s.tracking.capacity ≤ (others s k').length

/-- the queue has room, or its front is not a live outpoint or the one that is enrolled, or it lists live and distinct
outpoints, and not the one that is enrolled -/
def Uncrowded (s : Seen) : Touch → Prop
  | .insert k _ => s.tracking.queue.length < s.tracking.capacity ∨
      (∀ oldest, s.tracking.queue.head? = some oldest → oldest ∉ live s ∨ oldest = k) ∨
      (s.tracking.queue.Nodup ∧ (∀ k' ∈ s.tracking.queue, k' ∈ live s) ∧ k ∉ s.tracking.queue)
  | .spend _ => True

section Live

variable {s : Seen} {k : OutpointKey}

theorem mem_live : k ∈ live s ↔ (s.tracking.get k).isSome ∧ k ∉ s.spent := by
  simp only [live, List.mem_filter, decide_eq_true_eq, BoundedMap.get, AList.lookup_isSome, AList.mem_keys]

theorem nodup_others (s : Seen) (k : OutpointKey) : (others s k).Nodup :=
  (s.tracking.entries.keys_nodup.filter _).filter _

/-- the live outpoints are queued -/
theorem others_subset (h : s.tracking.Tidy) (k : OutpointKey) : others s k ⊆ s.tracking.queue := by
  intro k' hk'
  exact h.queued k' (mem_live.1 (List.mem_filter.1 hk').1).1

/-- **A full queue of live outpoints, exactly.** -/
theorem capacity_le_others_iff (h : s.tracking.Tidy) (hfull : s.tracking.queue.length = s.tracking.capacity) :
    s.tracking.capacity ≤ (others s k).length ↔
      s.tracking.queue.Nodup ∧ (∀ k' ∈ s.tracking.queue, k' ∈ live s) ∧ k ∉ s.tracking.queue := by
  rw [← hfull]
  constructor
  · intro hle
    have hperm : (others s k).Perm s.tracking.queue :=
      ((nodup_others s k).subperm (others_subset h k)).perm_of_length_le hle
    refine ⟨hperm.nodup_iff.1 (nodup_others s k), fun k' hk' => ?_, fun hk => ?_⟩
    · exact (List.mem_filter.1 (hperm.mem_iff.2 hk')).1
    · simpa using (List.mem_filter.1 (hperm.mem_iff.2 hk)).2
  · rintro ⟨hnodup, hlive, hk⟩
    refine (hnodup.subperm fun k' hk' => ?_).length_le
    have hne : k' ≠ k := fun heq => hk (heq ▸ hk')
    exact List.mem_filter.2 ⟨hlive k' hk', by simpa using hne⟩

/-- **One touch.** -/
theorem justified_iff (h : s.tracking.Tidy) (o : Touch) : Justified s o ↔ Uncrowded s o := by
  cases o with
  | spend k =>
    refine ⟨fun _ => trivial, fun _ k' hk' hgone => ?_⟩
    by_cases hk : k' = k
    · exact Or.inl (by rw [hk])
    · -- a spend removes no other outpoint
      have hstays : (s.tracking.remove k).get k' = s.tracking.get k' := BoundedMap.get_remove_of_ne _ hk
      have hsome := (mem_live.1 hk').1
      rw [← hstays, show (s.tracking.remove k).get k' = none from hgone] at hsome
      cases hsome
  | insert k d =>
    constructor
    · intro hjust
      by_cases hfull : s.tracking.queue.length = s.tracking.capacity
      · refine Or.inr ?_
        by_cases hfront : ∀ oldest, s.tracking.queue.head? = some oldest → oldest ∉ live s ∨ oldest = k
        · exact Or.inl hfront
        · push Not at hfront
          obtain ⟨oldest, hhead, hlive, hne⟩ := hfront
          have hgone := (h.get_insert_eq_none_iff d hne (mem_live.1 hlive).1).2 ⟨hfull, hhead⟩
          rcases hjust oldest hlive hgone with hspend | ⟨k', d', hinsert, hle⟩
          · cases hspend
          · cases hinsert
            exact Or.inr ((capacity_le_others_iff h hfull).1 hle)
      · exact Or.inl (lt_of_le_of_ne h.bounded hfull)
    · intro hroom k' hk' hgone
      have hne : k' ≠ k := by
        rintro rfl
        rw [show (touch s (.insert k' d)).tracking.get k' = some d from BoundedMap.get_insert_self _ k' d] at hgone
        cases hgone
      obtain ⟨hfull, hhead⟩ := (h.get_insert_eq_none_iff d hne (mem_live.1 hk').1).1 hgone
      refine Or.inr ⟨k, d, rfl, ?_⟩
      rcases hroom with hlt | hfront | hlisted
      · exact absurd hfull hlt.ne
      · rcases hfront k' hhead with hdead | hself
        · exact absurd hk' hdead
        · exact absurd hself hne
      · exact (capacity_le_others_iff h hfull).2 hlisted

theorem tidy_touch (h : s.tracking.Tidy) (o : Touch) : (touch s o).tracking.Tidy := by
  cases o with
  | insert k d => exact h.insert k d
  | spend k => exact h.remove k

end Live

/-! ## Runs -/

/-- every touch of the operation meets the condition -/
def Touches (C : Seen → Touch → Prop) (s : Watched) (op : Operation) : Prop := Steps touch C s.seen (touches s.engine op)

theorem touches_justified_iff {s : Seen} (h : s.tracking.Tidy) (os : List Touch) :
    Steps touch Justified s os ↔ Steps touch Uncrowded s os :=
  steps_iff_inv (I := fun s : Seen => s.tracking.Tidy) (fun _ o hs => tidy_touch hs o) (fun _ o hs => justified_iff hs o) h

theorem tidy_start (maxDepth : ℕ) : (Watched.start maxDepth).seen.tracking.Tidy := BoundedMap.tidy_empty (by decide)

theorem tidy_operate {s : Watched} (h : s.seen.tracking.Tidy) (op : Operation) : (s.operate op).seen.tracking.Tidy := by
  rw [seen_operate]
  exact run_inv_all (I := fun s : Seen => s.tracking.Tidy) (fun _ o hs => tidy_touch hs o) _ h

/-- **No premature eviction, exactly.** In every run of operations, unspent descendants are given up only among as many live
ones as the capacity allows, if and only if each enrolment finds room in the queue, or a front that is no live outpoint, or
a queue of live and distinct outpoints. -/
theorem eviction_justified_iff (maxDepth : ℕ) (ops : List Operation) :
    Steps Watched.operate (Touches Justified) (Watched.start maxDepth) ops ↔
      Steps Watched.operate (Touches Uncrowded) (Watched.start maxDepth) ops := by
  apply steps_iff_inv (I := fun s : Watched => s.seen.tracking.Tidy)
  · intro s op h
    exact tidy_operate h op
  · intro s op h
    exact touches_justified_iff h (touches s.engine op)
  · exact tidy_start maxDepth

/-! ## Seen twice -/

section Twice

variable {s : Seen} {outputs : List OutpointKey} {x w : OutpointKey} (d : TrackedDescendantOutpoint)

/-- the touches of a transaction that spends one watched outpoint -/
def enrolThenSpend (outputs : List OutpointKey) (d : TrackedDescendantOutpoint) (w : OutpointKey) : List Touch :=
  (outputs.map fun k => .insert k d) ++ [.spend w]

/-- with room, its outputs are queued at the back -/
theorem seen_enrolThenSpend (hroom : BoundedMap.Room outputs.length s.tracking) (hx : x ∉ outputs) (hw : x ≠ w) :
    (run touch s (enrolThenSpend outputs d w)).tracking.queue = s.tracking.queue ++ outputs ∧
      (run touch s (enrolThenSpend outputs d w)).tracking.capacity = s.tracking.capacity ∧
      (run touch s (enrolThenSpend outputs d w)).tracking.get x = s.tracking.get x ∧
      (run touch s (enrolThenSpend outputs d w)).tracking.get w = none ∧
      (run touch s (enrolThenSpend outputs d w)).spent = w :: s.spent := by
  obtain ⟨htracking, hspent⟩ := tracking_inserts (s := s) outputs d
  obtain ⟨hqueue, hcapacity⟩ := hroom.queue_insertAll d
  have hget := (BoundedMap.Room.insertAll (n := 0) (by simpa using hroom) d).2
  rw [enrolThenSpend, run_append]
  refine ⟨?_, ?_, ?_, ?_, ?_⟩
  · exact (congrArg BoundedMap.queue htracking).trans hqueue
  · exact (congrArg BoundedMap.capacity htracking).trans hcapacity
  · refine (BoundedMap.get_remove_of_ne _ hw).trans ?_
    rw [htracking, hget, if_neg hx]
  · exact BoundedMap.get_remove_self _ _
  · exact congrArg (w :: ·) hspent

/-- **A transaction that is seen again crowds out the front of the queue**, when its outputs fill half of it. -/
theorem crowded (hqueue : s.tracking.queue = x :: outputs) (hcapacity : s.tracking.capacity = 2 * outputs.length)
    (hlength : 1 < outputs.length) (hlive : x ∈ live s) (hx : x ∉ outputs) :
    ¬ Steps touch Uncrowded s (enrolThenSpend outputs d w) := by
  obtain ⟨init, last, rfl⟩ : ∃ init last, outputs = init ++ [last] := by
    rcases List.eq_nil_or_concat outputs with rfl | ⟨init, last, rfl⟩
    · simp at hlength
    · exact ⟨init, last, List.concat_eq_append⟩
  rw [List.length_append, List.length_singleton] at hcapacity hlength
  rw [List.mem_append, List.mem_singleton, not_or] at hx
  obtain ⟨htracking, hspent⟩ := tracking_inserts (s := s) init d
  have hroom : BoundedMap.Room (0 + init.length) s.tracking := by
    unfold BoundedMap.Room
    rw [hqueue, hcapacity, List.length_cons, List.length_append, List.length_singleton]
    omega
  obtain ⟨hqueue', hcapacity'⟩ := BoundedMap.Room.queue_insertAll (by simpa using hroom) d
  rw [← htracking, hqueue] at hqueue'
  rw [← htracking, hcapacity] at hcapacity'
  intro hsteps
  rw [enrolThenSpend, List.map_append, List.append_assoc] at hsteps
  -- the last output is enrolled into a full queue
  rcases (steps_append.1 hsteps).2.1 with hlt | hfront | ⟨hnodup, -, -⟩
  · rw [hqueue', hcapacity'] at hlt
    simp only [List.length_append, List.length_cons, List.length_nil] at hlt
    omega
  · rcases hfront x (by rw [hqueue']; rfl) with hdead | hself
    · apply hdead
      rw [mem_live] at hlive ⊢
      rw [hspent, htracking, (hroom.insertAll d).2, if_neg hx.1]
      exact hlive
    · exact hx.2 hself
  · -- the first output is listed twice
    rw [hqueue'] at hnodup
    obtain ⟨k, hk⟩ := List.exists_mem_of_length_pos (l := init) (by omega)
    have hdisjoint := (List.nodup_append.1 hnodup).2.2
    exact hdisjoint k (List.mem_cons_of_mem x (List.mem_append_left _ hk)) k hk rfl

/-- the two passes, on an engine whose queue lists one live outpoint -/
theorem crowded_twice {s : Watched} {op op' : Operation} (htidy : s.seen.tracking.Tidy)
    (hqueue : s.seen.tracking.queue = [x]) (hlive : x ∈ live s.seen)
    (hcapacity : s.seen.tracking.capacity = 2 * outputs.length) (hlength : 1 < outputs.length) (hx : x ∉ outputs)
    (hw : x ≠ w) (hop : touches s.engine op = enrolThenSpend outputs d w)
    (hop' : (s.operate op).seen.tracking.get w = none → touches (s.operate op).engine op' = enrolThenSpend outputs d w) :
    ¬ Steps Watched.operate (Touches Justified) s [op, op'] := by
  intro hsteps
  have hroom : BoundedMap.Room outputs.length s.seen.tracking := by
    unfold BoundedMap.Room
    rw [hqueue, hcapacity, List.length_singleton]
    omega
  obtain ⟨hqueue', hcapacity', hget, hnone, hspent⟩ := seen_enrolThenSpend d hroom hx hw
  rw [← hop, ← seen_operate] at hqueue' hcapacity' hget hnone hspent
  have hlive' : x ∈ live (s.operate op).seen := by
    rw [mem_live] at hlive ⊢
    rw [hget, hspent, List.mem_cons, not_or]
    exact ⟨hlive.1, hw, hlive.2⟩
  have hsecond : Touches Justified (s.operate op) op' := hsteps.2.1
  rw [Touches, hop' hnone, touches_justified_iff (tidy_operate htidy op)] at hsecond
  rw [hqueue] at hqueue'
  exact crowded d hqueue' (hcapacity'.trans hcapacity) hlength hlive' hx hsecond

end Twice

/-- a watched outpoint is paid out to 500 outputs -/
def payout : TransactionObservation :=
  { transfer "tx200" "tx101" 0 50000000 with
    outputs := (List.range 500).map fun n =>
      ⟨100000, n, some "v0_p2wpkh", none, some "00141122334455667788990011223344556677889900"⟩ }

theorem length_payout : payout.spendable.length = 500 := by decide +kernel

theorem stolen_notMem_payout : ("tx002", 0) ∉ payout.spendable := by decide +kernel

theorem watched_notMem_payout : ("tx101", 0) ∉ payout.spendable := by decide +kernel

/-- the payout is seen, in the mempool or in a block -/
def payoutSeen (blockHeight : Option ℕ) : Operation := .call (.transaction payout blockHeight none)

theorem touches_payout {s : Watched} (blockHeight : Option ℕ)
    (hwatched : watching s.engine.outpointIndex ("tx101", 0) = [MergedFunds.sameCase])
    (hnone : s.seen.tracking.get ("tx101", 0) = none) :
    touches s.engine (payoutSeen blockHeight) =
      enrolThenSpend payout.spendable (firstLayer MergedFunds.sameCase) ("tx101", 0) := by
  have hstill : (s.seen.tracking.insertAll payout.spendable (firstLayer MergedFunds.sameCase)).get ("tx101", 0) = none := by
    by_contra hsome
    obtain ⟨d, hd⟩ := Option.ne_none_iff_exists'.1 hsome
    rw [BoundedMap.get_of_get_insertAll watched_notMem_payout hd] at hnone
    cases hnone
  have hmoves : moves s.engine payout.spendable s.engine.descendants payout.inputs =
      [.enrol (firstLayer MergedFunds.sameCase), .spend ("tx101", 0)] := moves_watched hwatched hstill
  simp [touches, payoutSeen, hmoves, touchesOf, enrolThenSpend]

/-- a pass leaves the targets -/
theorem outpointIndex_operate (s : Watched) (c : Call) :
    (s.operate (.call c)).engine.outpointIndex = s.engine.outpointIndex := by
  cases c <;> rfl

/-- two outpoints are watched, and one of them is stolen -/
def theftSeen : List Operation :=
  [.addTarget watchedOutpoint, .addTarget MergedFunds.sameCase, .call (.transaction theft none none)]

def afterTheft : Watched := run Watched.operate (Watched.start 3) theftSeen

/-- **An unspent output is given up among 500 others.** The stolen funds were not moved; the payout of another outpoint,
seen in the mempool and then confirmed, takes their place. -/
theorem confirmation_evicts_unspent :
    afterTheft.engine.descendants.queue = [("tx002", 0)] ∧ afterTheft.engine.descendants.capacity = 1000 ∧
      payout.spendable.length = 500 ∧
      ¬ Steps Watched.operate (Touches Justified) (Watched.start 3)
        (theftSeen ++ [payoutSeen none, payoutSeen (some 840002)]) := by
  have hqueue : afterTheft.seen.tracking.queue = [("tx002", 0)] := by decide +kernel
  have hcapacity : afterTheft.seen.tracking.capacity = 1000 := by decide +kernel
  have hwatched : watching afterTheft.engine.outpointIndex ("tx101", 0) = [MergedFunds.sameCase] := by decide +kernel
  have hlive : ("tx002", 0) ∈ live afterTheft.seen := by decide +kernel
  have htidy : afterTheft.seen.tracking.Tidy :=
    run_inv_all (I := fun s : Watched => s.seen.tracking.Tidy) (fun _ op h => tidy_operate h op) _ (tidy_start 3)
  refine ⟨hqueue, hcapacity, length_payout, ?_⟩
  rw [steps_append, not_and]
  intro _
  apply crowded_twice (firstLayer MergedFunds.sameCase) (x := ("tx002", 0)) (w := ("tx101", 0)) htidy hqueue hlive
  · rw [hcapacity, length_payout]
  · rw [length_payout]
    decide
  · exact stolen_notMem_payout
  · decide
  · exact touches_payout none hwatched (by decide +kernel)
  · intro hnone
    rw [← outpointIndex_operate afterTheft (.transaction payout none none)] at hwatched
    exact touches_payout (some 840002) hwatched hnone

end ObsChain.Capacity
