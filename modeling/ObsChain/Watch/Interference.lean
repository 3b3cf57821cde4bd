/-
Does a historical replay disturb live monitoring?

`main.rs` gives the replay engine detectors of its own, but the watch engine it hands over is the live one. Every replayed
block then runs through the tracking of the live engine: it can take out a descendant that a live transaction is about to
spend, and enrol outputs that no live transaction led to.

A run is a list of arrivals, live or replayed, in any interleaving. What the live ones return is compared up to ids and
times with what they return on their own.

- `live_undisturbed`: the two agree in every run whose replayed transactions are quiet: they spend no tracked
  descendant, and one that spends a watched outpoint has no spendable output. A replayed transaction that spends a
  tracked descendant, or tracks an output that was not, changes what some live transaction reports.
- `replay_disturbs_live`: the block of a theft's onward transfer is replayed before it is processed live.
-/
import Mathlib.Tactic
import ObsChain.Core.Trace
import ObsChain.Watch.Pass

namespace ObsChain.Watch

open Trace IncidentWatchEngine

/-- who calls the engine -/
inductive Feed where
  | live
  | replay
deriving DecidableEq

structure Arrival where
  feed : Feed
  stamp : Stamp
  call : Call

def Arrival.isLive (a : Arrival) : Bool := a.feed == .live

/-- one engine takes the calls of both -/
def arrive (e : IncidentWatchEngine) (a : Arrival) : IncidentWatchEngine := e.step a.call

/-- what the live arrivals return, up to ids and times -/
def liveReports (e : IncidentWatchEngine) (arrivals : List Arrival) : List (List Report) :=
  outputs arrive (fun e a => (e.returned a.stamp a.call).map unsealed) Arrival.isLive e arrivals

/-- the transaction spends a watched outpoint -/
def SpendsWatched (e : IncidentWatchEngine) (tx : TransactionObservation) : Prop :=
  ∃ i ∈ tx.inputs, watching e.outpointIndex i.key ≠ []

instance (e : IncidentWatchEngine) (tx : TransactionObservation) : Decidable (SpendsWatched e tx) :=
  inferInstanceAs (Decidable (∃ _ ∈ _, _))

/-- a replayed transaction that spends no tracked descendant and enrols nothing -/
def Quiet (e : IncidentWatchEngine) (a : Arrival) : Prop :=
  match a.feed, a.call with
  | .replay, .transaction tx _ _ => Untracked e tx ∧ (SpendsWatched e tx → tx.spendable = [])
  | _, _ => True

instance (e : IncidentWatchEngine) (a : Arrival) : Decidable (Quiet e a) := by
  unfold Quiet
  split <;> infer_instance

/-! ## Quiet arrivals -/

section Quiet

variable {e : IncidentWatchEngine} {tx : TransactionObservation} (blockHeight : Option ℕ) (blockHash : Option String)

/-- an input that is not tracked, and enrols nothing if it is watched, leaves the tracking alone -/
theorem processInput_quiet {t : Tracking} (vin : ℕ) {i : TxInputObservation}
    (hwatched : watching e.outpointIndex i.key ≠ [] → tx.spendable = []) (htracked : t.get i.key = none) :
    (e.processInput tx blockHeight blockHash t vin i).1 = t := by
  have houtpoint : (e.spendOutpoint tx blockHeight blockHash t vin i).1 = t := by
    by_cases hw : watching e.outpointIndex i.key = []
    · simp [spendOutpoint, outpointMatches, hw]
    · exact spendOutpoint_tracking_of_nil (hwatched hw)
  simp only [processInput, houtpoint, spendDescendant, htracked]

theorem processInputs_quiet {t : Tracking} (vin : ℕ) {inputs : List TxInputObservation}
    (hwatched : ∀ i ∈ inputs, watching e.outpointIndex i.key ≠ [] → tx.spendable = [])
    (htracked : ∀ i ∈ inputs, t.get i.key = none) : (e.processInputs tx blockHeight blockHash t vin inputs).1 = t := by
  induction inputs generalizing vin with
  | nil => rfl
  | cons i inputs ih =>
    have hhead := processInput_quiet blockHeight blockHash vin (hwatched i List.mem_cons_self)
      (htracked i List.mem_cons_self)
    have htail := ih (vin + 1) (fun j hj => hwatched j (List.mem_cons_of_mem i hj))
      (fun j hj => htracked j (List.mem_cons_of_mem i hj))
    simp only [processInputs, hhead, htail]

end Quiet

/-- **A quiet replay leaves the engine as it is.** -/
theorem arrive_quiet {e : IncidentWatchEngine} {a : Arrival} (hreplay : a.isLive = false) (hquiet : Quiet e a) :
    arrive e a = e := by
  obtain ⟨feed, stamp, call⟩ := a
  cases feed with
  | live => cases hreplay
  | replay =>
    cases call with
    | replacement repl => rfl
    | block block => rfl
    | transaction tx blockHeight blockHash =>
      obtain ⟨huntracked, hwatched⟩ := hquiet
      have hsame : (e.processInputs tx blockHeight blockHash e.descendants 0 tx.inputs).1 = e.descendants :=
        processInputs_quiet blockHeight blockHash 0 (fun i hi hw => hwatched ⟨i, hi, hw⟩) huntracked
      simp only [arrive, step, observe, hsame]

/-- the same live calls return the same, whatever ids they draw -/
theorem liveReports_congr {arrivals alone : List Arrival} (h : ∀ a ∈ arrivals, a.isLive = true)
    (halone : ∀ a ∈ alone, a.isLive = true) (hcalls : arrivals.map Arrival.call = alone.map Arrival.call)
    (e : IncidentWatchEngine) : liveReports e arrivals = liveReports e alone := by
  refine outputs_congr (f := Arrival.call) ?_ ?_ h halone hcalls e
  · intro e a a' hcall
    rw [arrive, arrive, hcall]
  · intro e a a' hcall
    rw [map_unsealed_returned, map_unsealed_returned, hcall]

/-- one live transaction returns its reports -/
theorem liveReports_single (e : IncidentWatchEngine) (stamp : Stamp) (tx : TransactionObservation)
    (blockHeight : Option ℕ) (blockHash : Option String) :
    liveReports e [⟨.live, stamp, .transaction tx blockHeight blockHash⟩] = [(e.observe tx blockHeight blockHash).2] :=
  congrArg (fun rs => [rs]) (map_unsealed_mapIdx stamp (e.observe tx blockHeight blockHash).2)

/-! ## Disturbed monitoring -/

/-- an input that spends this outpoint -/
def spending (txid : String) (vout : ℕ) : TxInputObservation := ⟨txid, vout, 0xffffffff, none, none, false, none⟩

/-- a live transaction that spends one outpoint and leaves it to the miner -/
def probe (spender txid : String) (vout : ℕ) : TransactionObservation where
  txid := spender
  timestamp := 0
  blockHash := none
  blockHeight := none
  feeSats := 0
  size := 0
  weight := 0
  vsize := 0
  feeRateSatVb := none
  totalInputSats := 0
  totalOutputSats := 0
  inputCount := 1
  outputCount := 0
  inputs := [spending txid vout]
  outputs := []
  isRbf := false
  confirmed := false
  source := none

/-- it reports a descendant exactly when the outpoint is tracked -/
theorem probe_reports (e : IncidentWatchEngine) (spender txid : String) (vout : ℕ) :
    (∃ r ∈ (e.observe (probe spender txid vout) none none).2, isDirect r = false) ↔
      e.descendants.get (outpointKey txid vout) ≠ none := by
  have hnil : (probe spender txid vout).spendable = [] := rfl
  constructor
  · intro hreported hnone
    obtain ⟨r, hr, hd⟩ := hreported
    have hown : (probe spender txid vout).SpendsNoOwnOutput := by
      intro i _
      rw [hnil]
      exact List.not_mem_nil
    obtain ⟨i, hi, d, hget, -⟩ := observe_sound hown hr hd
    rw [List.mem_singleton.1 hi] at hget
    have hkey : e.descendants.get (outpointKey txid vout) = some d := hget
    rw [hnone] at hkey
    cases hkey
  · intro htracked
    obtain ⟨d, hd⟩ := Option.ne_none_iff_exists'.1 htracked
    have hget : (e.spendOutpoint (probe spender txid vout) none none e.descendants 0 (spending txid vout)).1.get
        (spending txid vout).key = some d := by
      rw [spendOutpoint_tracking_of_nil hnil]
      exact hd
    refine ⟨e.descendantReport (probe spender txid vout) none none (spending txid vout) d, ?_, rfl⟩
    have hinputs : (probe spender txid vout).inputs = [spending txid vout] := rfl
    simp [observe, hinputs, processInputs, processInput, spendDescendant, hget]

/-- engines that differ in whether they track an outpoint differ in what a transaction spending it reports -/
theorem probe_tells {e e' : IncidentWatchEngine} {txid : String} {vout : ℕ}
    (h : ¬ (e.descendants.get (outpointKey txid vout) = none ↔ e'.descendants.get (outpointKey txid vout) = none))
    (spender : String) :
    (e.observe (probe spender txid vout) none none).2 ≠ (e'.observe (probe spender txid vout) none none).2 := by
  intro heq
  apply h
  have hiff := probe_reports e spender txid vout
  rw [heq, probe_reports e' spender txid vout] at hiff
  exact (not_iff_not.1 hiff).symm

/-- a replayed transaction that takes out or brings in an outpoint -/
def Disturbs (e : IncidentWatchEngine) (tx : TransactionObservation) : Prop :=
  ¬ Untracked e tx ∨
    (SpendsWatched e tx ∧ ∃ k, tx.spendable.getLast? = some k ∧ e.descendants.get k = none)

/-- the outpoint in which the engine before and after it differ -/
theorem disturbs_tracking {e : IncidentWatchEngine} {tx : TransactionObservation} (hown : tx.SpendsNoOwnOutput)
    (hd : Disturbs e tx) (blockHeight : Option ℕ) (blockHash : Option String) :
    ∃ txid vout, ¬ (e.descendants.get (outpointKey txid vout) = none ↔
      (e.observe tx blockHeight blockHash).1.descendants.get (outpointKey txid vout) = none) := by
  rcases hd with htracked | ⟨hwatched, k, hk, hnone⟩
  · -- a spent descendant is tracked before the pass and not after it
    simp only [Untracked, not_forall] at htracked
    obtain ⟨i, hi, hget⟩ := htracked
    refine ⟨i.txid, i.vout, fun hiff => hget ?_⟩
    exact hiff.2 (observe_spent e blockHeight blockHash hown hi)
  · -- the last output is tracked after the pass and not before it
    have hmem : k ∈ tx.spendable := List.mem_of_getLast? hk
    obtain ⟨o, -, rfl⟩ := List.mem_map.1 hmem
    refine ⟨tx.txid, o.2, fun hiff => ?_⟩
    exact observe_last_tracked blockHeight blockHash hown hk hwatched (hiff.1 hnone)

/-! ## Interference -/

/-- **Live monitoring is undisturbed by quiet replays**, in every interleaving. A replayed transaction that takes out or
brings in a tracked outpoint is seen: some live transaction after it reports something else than without it. -/
theorem live_undisturbed (e : IncidentWatchEngine) (arrivals alone : List Arrival)
    (halone : ∀ a ∈ alone, a.isLive = true)
    (hcalls : alone.map Arrival.call = (arrivals.filter Arrival.isLive).map Arrival.call) :
    (Steps arrive Quiet e arrivals → liveReports e arrivals = liveReports e alone) ∧
      ∀ (tx : TransactionObservation) (blockHeight : Option ℕ) (blockHash : Option String) (stamp stamp' : Stamp)
        (spender : String), tx.SpendsNoOwnOutput → Disturbs e tx →
        ∃ l, l.txid = spender ∧
          liveReports e [⟨.replay, stamp, .transaction tx blockHeight blockHash⟩,
            ⟨.live, stamp', .transaction l none none⟩] ≠ liveReports e [⟨.live, stamp', .transaction l none none⟩] := by
  constructor
  · intro hquiet
    have hfilter : liveReports e arrivals = liveReports e (arrivals.filter Arrival.isLive) :=
      outputs_filter (fun _ _ => arrive_quiet) hquiet
    rw [hfilter]
    apply liveReports_congr _ halone hcalls.symm
    intro a ha
    exact List.of_mem_filter ha
  · intro tx blockHeight blockHash stamp stamp' spender hown hd
    obtain ⟨txid, vout, hdiff⟩ := disturbs_tracking hown hd blockHeight blockHash
    refine ⟨probe spender txid vout, rfl, fun heq => ?_⟩
    have hafter : liveReports e [⟨.replay, stamp, .transaction tx blockHeight blockHash⟩,
        ⟨.live, stamp', .transaction (probe spender txid vout) none none⟩] =
        [((e.observe tx blockHeight blockHash).1.observe (probe spender txid vout) none none).2] :=
      liveReports_single (e.observe tx blockHeight blockHash).1 stamp' (probe spender txid vout) none none
    rw [hafter, liveReports_single] at heq
    exact probe_tells hdiff spender (List.singleton_inj.1 heq).symm

/-! ## The onward transfer, replayed -/

/-- the block of the onward transfer, replayed and live -/
def onwardBlock (feed : Feed) : Arrival := ⟨feed, someStamp, .transaction onward (some 840001) (some onwardHash)⟩

/-- a transfer that concerns no incident -/
def unrelated : TransactionObservation := transfer "tx009" "tx008" 0 5000000

/-- a replayed block of unrelated transfers does not show -/
theorem live_undisturbed_unrelated :
    liveReports trackingEngine [⟨.replay, someStamp, .transaction unrelated (some 700000) none⟩, onwardBlock .live] =
      liveReports trackingEngine [onwardBlock .live] :=
  (live_undisturbed trackingEngine _ _ (by decide) rfl).1 (by decide +kernel)

/-- **The replay takes the descendant.** Without a replay the live block reports the onward transfer; with its block
replayed first, the live block reports nothing. -/
theorem replay_disturbs_live :
    (liveReports trackingEngine [onwardBlock .live]).map List.length = [1] ∧
      (liveReports trackingEngine [onwardBlock .replay, onwardBlock .live]).map List.length = [0] ∧
      liveReports trackingEngine [onwardBlock .replay, onwardBlock .live] ≠
        liveReports trackingEngine [onwardBlock .live] := by
  have halone : (liveReports trackingEngine [onwardBlock .live]).map List.length = [1] := by decide +kernel
  have hreplayed : (liveReports trackingEngine [onwardBlock .replay, onwardBlock .live]).map List.length = [0] := by
    decide +kernel
  refine ⟨halone, hreplayed, fun heq => ?_⟩
  rw [heq, halone] at hreplayed
  cases hreplayed

end ObsChain.Watch
