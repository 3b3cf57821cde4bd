/-
Is an incident activity seen in the mempool confirmed later?

A transaction passes through the engine twice: without a height when it enters the mempool, and with one when a block
holds it. Each activity of the first pass should be reported again by the second. The direct matches are: they are read
off the indices, which no pass changes. A tracked descendant is not: the first pass takes it out of the tracking, and
the second one does not find it.

- `converges_iff`: the activities converge when no input is a tracked descendant; when one is, exactly if it was enrolled
  again in between, by another pass of the transaction that created it.
- `descendant_stays_mempool`: stolen funds move on, unconfirmed and then in a block, and the block is not reported.
-/
import Mathlib.Tactic
import ObsChain.Core.Trace
import ObsChain.Watch.Pass
import ObsChain.Watch.Moves

namespace ObsChain.Watch

open Trace IncidentWatchEngine

/-- the activity types of watched outpoints, tracked descendants, watched addresses and watched scripts -/
def followed : List IncidentActivityType :=
  [.watchedOutpointSpent, .newDescendantObserved, .watchedAddressSpent, .watchedAddressReceived, .watchedScriptReceived]

/-- the engine when the block arrives: after the mempool pass and any other calls -/
def beforeBlock (e : IncidentWatchEngine) (tx : TransactionObservation) (others : List Call) : IncidentWatchEngine :=
  run step (e.step (.transaction tx none none)) others

/-- the second report is the first one, confirmed at this height -/
structure Confirms (h : ℕ) (a b : ActivityDraft) : Prop where
  incident : b.incidentId = a.incidentId
  activityType : b.activityType = a.activityType
  target : b.watchTargetId = a.watchTargetId
  status : b.status = .confirmed
  height : b.blockHeight = some h

/-- every followed activity of the mempool pass is confirmed by the block's pass -/
def Converges (stamp₁ stamp₂ : Stamp) (e : IncidentWatchEngine) (tx : TransactionObservation) (others : List Call) (h : ℕ)
    (hash : String) : Prop :=
  ∀ a ∈ (processTransaction stamp₁ e tx none none).2, a.1.activityType ∈ followed →
    ∃ b ∈ (processTransaction stamp₂ (beforeBlock e tx others) tx (some h) (some hash)).2,
      Confirms h a.1.toActivityDraft b.1.toActivityDraft

/-- every tracked descendant that the transaction spent is tracked again, for the same incident and target -/
def Retracked (e e' : IncidentWatchEngine) (tx : TransactionObservation) : Prop :=
  ∀ i ∈ tx.inputs, ∀ d, e.descendants.get i.key = some d →
    ∃ j ∈ tx.inputs, ∃ d', e'.descendants.get j.key = some d' ∧ d'.incidentId = d.incidentId ∧
      d'.originTargetId = d.originTargetId

/-- the enrolments of the pass do not evict a tracked outpoint before the input that spends it is reached -/
def EvictsNoInput (e : IncidentWatchEngine) (tx : TransactionObservation) : Prop :=
  Moves.Reaches e tx.spendable 0 e.descendants tx.inputs

instance (e : IncidentWatchEngine) (tx : TransactionObservation) : Decidable (EvictsNoInput e tx) :=
  inferInstanceAs (Decidable (Moves.Reaches _ _ _ _ _))

/-- none of the calls is a pass of a transaction whose output is spent -/
def NoParent (tx : TransactionObservation) : Call → Prop
  | .transaction parent _ _ => ∀ i ∈ tx.inputs, i.key ∉ parent.spendable
  | .replacement _ => True
  | .block _ => True

/-! ## Reports and results -/

/-- convergence, up to ids and times -/
theorem converges_iff_reports (stamp₁ stamp₂ : Stamp) (e : IncidentWatchEngine) (tx : TransactionObservation)
    (others : List Call) (h : ℕ) (hash : String) :
    Converges stamp₁ stamp₂ e tx others h hash ↔
      ∀ r ∈ (e.observe tx none none).2, r.1.activityType ∈ followed →
        ∃ r' ∈ ((beforeBlock e tx others).observe tx (some h) (some hash)).2, Confirms h r.1 r'.1 := by
  have hfirst := map_unsealed_mapIdx stamp₁ (e.observe tx none none).2
  have hsecond := map_unsealed_mapIdx stamp₂ ((beforeBlock e tx others).observe tx (some h) (some hash)).2
  constructor
  · intro hc r hr hfollowed
    rw [← hfirst] at hr
    obtain ⟨a, ha, rfl⟩ := List.mem_map.1 hr
    obtain ⟨b, hb, hconf⟩ := hc a ha hfollowed
    refine ⟨unsealed b, ?_, hconf⟩
    rw [← hsecond]
    exact List.mem_map_of_mem hb
  · intro hc a ha hfollowed
    have hr : unsealed a ∈ (e.observe tx none none).2 := by
      rw [← hfirst]
      exact List.mem_map_of_mem ha
    obtain ⟨r', hr', hconf⟩ := hc (unsealed a) hr hfollowed
    rw [← hsecond] at hr'
    obtain ⟨b, hb, rfl⟩ := List.mem_map.1 hr'
    exact ⟨b, hb, hconf⟩

/-- only the tracking differs when the block arrives -/
theorem beforeBlock_frame (e : IncidentWatchEngine) (tx : TransactionObservation) (others : List Call) :
    ∃ t, beforeBlock e tx others = { e with descendants := t } := by
  have hstep : ∀ (s : IncidentWatchEngine) (c : Call), (∃ t, s = { e with descendants := t }) →
      ∃ t, s.step c = { e with descendants := t } := by
    intro s c hs
    obtain ⟨t, rfl⟩ := hs
    exact step_frame { e with descendants := t } c
  exact run_inv_all hstep others (step_frame e (.transaction tx none none))

/-- **Direct matches converge**, whatever was tracked and whatever came in between. -/
theorem direct_confirmed {e : IncidentWatchEngine} {tx : TransactionObservation} {r : Report}
    (hr : r ∈ (e.observe tx none none).2) (hfollowed : r.1.activityType ∈ followed) (hdirect : isDirect r = true)
    (others : List Call) (h : ℕ) (hash : String) :
    ∃ r' ∈ ((beforeBlock e tx others).observe tx (some h) (some hash)).2, Confirms h r.1 r'.1 := by
  have hmem := List.mem_filter.2 ⟨hr, hdirect⟩
  rw [observe_direct] at hmem
  obtain ⟨m, hm, rfl⟩ := List.mem_map.1 hmem
  rcases List.mem_append.1 hm with htxid | hrest
  · -- a watched transaction has another type in each pass, and is not followed
    have htype : m.activityType ∈ followed := hfollowed
    rcases txidMatches_type htxid with heq | heq <;> rw [heq] at htype <;> simp [followed] at htype
  · obtain ⟨t, ht⟩ := beforeBlock_frame e tx others
    refine ⟨(beforeBlock e tx others).targetReport tx (some h) (some hash) m, ?_, ⟨rfl, rfl, rfl, rfl, rfl⟩⟩
    apply List.mem_of_mem_filter (p := isDirect)
    rw [observe_direct]
    apply List.mem_map_of_mem
    apply List.mem_append_right
    rwa [ht, spendAndReceiveMatches_tracking]

/-! ## Descendants -/

/-- what converges is tracked again: the mempool pass reports each tracked descendant, and the block's pass confirms it -/
theorem retracked_of_confirmed {e e' : IncidentWatchEngine} {tx : TransactionObservation} {h : ℕ} {hash : String}
    (hown : tx.SpendsNoOwnOutput) (hroom : EvictsNoInput e tx)
    (hc : ∀ r ∈ (e.observe tx none none).2, r.1.activityType ∈ followed →
      ∃ r' ∈ (e'.observe tx (some h) (some hash)).2, Confirms h r.1 r'.1) : Retracked e e' tx := by
  intro i hi d hd
  obtain ⟨j, -, hmem⟩ := Moves.observe_complete none none hown hroom hi hd
  obtain ⟨r', hr', hconf⟩ := hc _ hmem (by simp [descendantReport, followed])
  have htype : r'.1.activityType = .newDescendantObserved := hconf.activityType
  have hdesc : isDirect r' = false := by
    simp [isDirect, htype]
  obtain ⟨i', hi', d', hd', rfl⟩ := observe_sound hown hr' hdesc
  exact ⟨i', hi', d', hd', hconf.incident, hconf.target⟩

/-- what is tracked again converges: the mempool pass reports tracked descendants only, and the block's pass finds them -/
theorem confirmed_of_retracked {e e' : IncidentWatchEngine} {tx : TransactionObservation}
    (hown : tx.SpendsNoOwnOutput) (hroom : EvictsNoInput e' tx) (hre : Retracked e e' tx) (h : ℕ) (hash : String)
    {r : Report} (hr : r ∈ (e.observe tx none none).2) (hdesc : isDirect r = false) :
    ∃ r' ∈ (e'.observe tx (some h) (some hash)).2, Confirms h r.1 r'.1 := by
  obtain ⟨i, hi, d, hd, rfl⟩ := observe_sound hown hr hdesc
  obtain ⟨j, hj, d', hd', hincident, htarget⟩ := hre i hi d hd
  obtain ⟨j', -, hmem⟩ := Moves.observe_complete (some h) (some hash) hown hroom hj hd'
  exact ⟨_, hmem, ⟨hincident, rfl, htarget, rfl, rfl⟩⟩

/-- only a pass of the transaction that created it tracks an outpoint again -/
theorem step_untracked {tx : TransactionObservation} (e : IncidentWatchEngine) (c : Call) (hu : Untracked e tx)
    (hc : NoParent tx c) : Untracked (e.step c) tx := by
  intro i hi
  cases c with
  | replacement repl => exact hu i hi
  | block block => exact hu i hi
  | transaction parent blockHeight blockHash => exact get_processInputs_eq_none (hc i hi) (hu i hi)

/-- what the mempool pass spent is not tracked when the block arrives, unless its parent was observed again -/
theorem beforeBlock_untracked {e : IncidentWatchEngine} {tx : TransactionObservation} {others : List Call}
    (hown : tx.SpendsNoOwnOutput) (hothers : ∀ c ∈ others, NoParent tx c) : Untracked (beforeBlock e tx others) tx := by
  have hfirst : Untracked (e.step (.transaction tx none none)) tx := fun i hi => observe_spent e none none hown hi
  exact run_inv_mem step_untracked hothers hfirst

/-! ## Convergence -/

/-- **Convergence of activities, exactly.** A transaction that spends no tracked descendant converges, whatever comes in
between. One whose tracked descendants are not evicted before the pass reaches them converges exactly when each of them is
tracked again when the block arrives, and without another pass of a parent that is never so. -/
theorem converges_iff (stamp₁ stamp₂ : Stamp) (e : IncidentWatchEngine) (tx : TransactionObservation)
    (hown : tx.SpendsNoOwnOutput) (others : List Call) (h : ℕ) (hash : String) :
    (Untracked e tx → Converges stamp₁ stamp₂ e tx others h hash) ∧
      (EvictsNoInput e tx → EvictsNoInput (beforeBlock e tx others) tx →
        (Converges stamp₁ stamp₂ e tx others h hash ↔ Retracked e (beforeBlock e tx others) tx)) ∧
      (EvictsNoInput e tx → (∀ c ∈ others, NoParent tx c) →
        (Converges stamp₁ stamp₂ e tx others h hash ↔ Untracked e tx)) := by
  rw [converges_iff_reports]
  have huntracked : Untracked e tx → ∀ r ∈ (e.observe tx none none).2, r.1.activityType ∈ followed →
      ∃ r' ∈ ((beforeBlock e tx others).observe tx (some h) (some hash)).2, Confirms h r.1 r'.1 := by
    intro hu r hr hfollowed
    cases hd : isDirect r with
    | true => exact direct_confirmed hr hfollowed hd others h hash
    | false =>
      obtain ⟨i, hi, d, hget, -⟩ := observe_sound hown hr hd
      rw [hu i hi] at hget
      cases hget
  refine ⟨huntracked, fun hroom hroom' => ⟨retracked_of_confirmed hown hroom, ?_⟩, fun hroom hothers => ?_⟩
  · intro hre r hr hfollowed
    cases hd : isDirect r with
    | true => exact direct_confirmed hr hfollowed hd others h hash
    | false => exact confirmed_of_retracked hown hroom' hre h hash hr hd
  · refine ⟨fun hc i hi => ?_, huntracked⟩
    cases hget : e.descendants.get i.key with
    | none => rfl
    | some d =>
      obtain ⟨j, hj, d', hd', -⟩ := retracked_of_confirmed hown hroom hc i hi d hget
      rw [beforeBlock_untracked hown hothers j hj] at hd'
      cases hd'

/-- the theft confirms in between and its output is enrolled again, so the onward transfer converges -/
theorem converges_iff_parent_confirmed :
    Converges someStamp someStamp trackingEngine onward [.transaction theft (some 840000) (some theftHash)] 840001
      onwardHash := by
  have hspent : ∀ i ∈ onward.inputs, trackingEngine.descendants.get i.key = some (firstLayer watchedOutpoint) := by
    decide +kernel
  have hagain : ∀ i ∈ onward.inputs,
      (beforeBlock trackingEngine onward [.transaction theft (some 840000) (some theftHash)]).descendants.get i.key =
        some (firstLayer watchedOutpoint) := by
    decide +kernel
  refine ((converges_iff someStamp someStamp trackingEngine onward (by decide +kernel) _ 840001 _).2.1
    (by decide +kernel) (by decide +kernel)).2 ?_
  intro i hi d hd
  rw [hspent i hi, Option.some.injEq] at hd
  exact ⟨i, hi, firstLayer watchedOutpoint, hagain i hi, by rw [hd], by rw [hd]⟩

/-- **The block is not reported.** The onward transfer is seen in the mempool and then in a block: the first pass reports a
descendant, the second one nothing. -/
theorem descendant_stays_mempool :
    ((processTransaction someStamp trackingEngine onward none none).2.map fun a => (a.1.activityType, a.1.status)) =
        [(.newDescendantObserved, .mempool)] ∧
      (processTransaction someStamp (beforeBlock trackingEngine onward []) onward (some 840001) (some onwardHash)).2 =
        [] ∧
      ¬ Converges someStamp someStamp trackingEngine onward [] 840001 onwardHash := by
  have hfirst : ((processTransaction someStamp trackingEngine onward none none).2.map fun a =>
      (a.1.activityType, a.1.status)) = [(.newDescendantObserved, .mempool)] := by
    decide +kernel
  have hsecond : (processTransaction someStamp (beforeBlock trackingEngine onward []) onward (some 840001)
      (some onwardHash)).2 = [] := by
    apply List.isEmpty_iff.1
    decide +kernel
  refine ⟨hfirst, hsecond, fun hc => ?_⟩
  have hmem : (IncidentActivityType.newDescendantObserved, ActivityStatus.mempool) ∈
      (processTransaction someStamp trackingEngine onward none none).2.map fun a => (a.1.activityType, a.1.status) := by
    rw [hfirst]
    exact List.mem_singleton_self _
  obtain ⟨a, ha, htype⟩ := List.mem_map.1 hmem
  have hfollowed : a.1.activityType ∈ followed := by
    rw [(Prod.mk.inj htype).1]
    decide
  obtain ⟨b, hb, -⟩ := hc a ha hfollowed
  rw [hsecond] at hb
  cases hb

end ObsChain.Watch
