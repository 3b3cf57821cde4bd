/-
How strong the evidence behind a report may claim to be.

A report says how it correlates with its target and how far the target's attribution is trusted. The six places that make
reports set both on their own; a descendant's confidence travels with its record through the tracking.

An activity's target is the target as the index held it when it matched (`MatchedBy`). Where the index holds each target
once this is the target that `all_targets` has under the id. For a descendant it is the target as the index held it when
the outpoint at the start of the spend chain was spent (`Descends`).

- `strength_never_inflated`: after any operations, every activity and alert that any call returns is `Measured`.
-/
import Mathlib.Tactic
import Mathlib.Data.List.AList
import ObsChain.Core.Trace
import ObsChain.Watch.Engine
import ObsChain.Watch.Pass
import ObsChain.Watch.TargetIndex
import ObsChain.Watch.Descent

namespace ObsChain.EvidenceStrength

open Trace IncidentWatchEngine Descent

/-- the target that an activity names, as the index held it -/
structure MatchedBy (e : IncidentWatchEngine) (a : ActivityDraft) (t : WatchTarget) : Prop where
  found : ∃ key, t ∈ e.found key
  named : t.id = a.watchTargetId
  confidence : a.confidence = t.classification
  current : e.Indexed → e.allTargets.lookup a.watchTargetId = some t

/-- direct evidence needs on-chain verification, structural evidence an official attribution; the rest is heuristic -/
structure AddressGrade (classification : ProvenanceClassification) (strength : CorrelationStrength) : Prop where
  direct : strength = .direct → classification = .onChainVerified
  structural : strength = .structural → classification = .officiallyAttributed
  heuristic : classification ≠ .onChainVerified → classification ≠ .officiallyAttributed → strength = .heuristic

/-- what a report of a call may claim; the passes include the one of the call -/
structure Measured (passes : List Pass) (e : IncidentWatchEngine) (c : Call) (r : Report) : Prop where
  address : r.1.activityType = .watchedAddressSpent ∨ r.1.activityType = .watchedAddressReceived →
    ∃ t, MatchedBy e r.1 t ∧ AddressGrade t.classification r.1.correlationStrength
  structural : r.1.activityType = .newDescendantObserved ∨ r.1.activityType = .transactionReplacement →
    r.1.correlationStrength = .structural
  matched : r.1.activityType ≠ .newDescendantObserved → ∃ t, MatchedBy e r.1 t
  descended : r.1.activityType = .newDescendantObserved →
    ∃ tx ∈ c.observed, ∃ i ∈ tx.inputs, ∃ t n, Descends passes t i.key n ∧ t.id = r.1.watchTargetId ∧
      r.1.confidence = t.classification
  alert : ∀ alert ∈ r.2, alert.correlationStrength = r.1.correlationStrength ∧ alert.confidence = r.1.confidence ∧
    (alert.correlationStrength = .heuristic → alert.severity = .medium)

/-! ## Alerts -/

/-- only a watched outpoint's spend escapes the heuristic cap -/
theorem severity_of_heuristic {activityType : IncidentActivityType} (h : activityType ≠ .watchedOutpointSpent)
    (confidence : ProvenanceClassification) (valueSats : Option ℕ) :
    calculateAlertSeverity activityType .heuristic confidence valueSats = .medium := by
  simp [calculateAlertSeverity, h]

/-- an alert takes over what its activity claims -/
theorem alert_measured {e : IncidentWatchEngine} {a : ActivityDraft} {t : WatchTarget} {alert : AlertDraft}
    (hstrength : a.activityType = .watchedOutpointSpent → a.correlationStrength ≠ .heuristic)
    (h : alert ∈ e.createAlertIfSignificant a t) :
    alert.correlationStrength = a.correlationStrength ∧ alert.confidence = a.confidence ∧
      (alert.correlationStrength = .heuristic → alert.severity = .medium) := by
  cases h
  refine ⟨rfl, rfl, fun hheuristic => ?_⟩
  have hactivity : a.correlationStrength = .heuristic := hheuristic
  have htype : a.activityType ≠ .watchedOutpointSpent := fun heq => hstrength heq hactivity
  rw [hactivity]
  exact severity_of_heuristic htype a.confidence a.valueSats

/-! ## The places that make reports -/

section Sites

variable {passes : List Pass} {e : IncidentWatchEngine} {c : Call}

theorem addressStrength_grade (classification : ProvenanceClassification) :
    AddressGrade classification (addressStrength classification) := by
  cases classification <;> exact ⟨by decide, by decide, by decide⟩

/-- a target that was found names itself -/
theorem matchedBy_of_found {key : IndexKey} {t : WatchTarget} (ht : t ∈ e.found key) {a : ActivityDraft}
    (hid : a.watchTargetId = t.id) (hconfidence : a.confidence = t.classification) : MatchedBy e a t := by
  refine ⟨⟨key, ht⟩, hid.symm, hconfidence, fun h => ?_⟩
  rw [hid]
  exact (h.of_mem ht).1

/-- the strength that a direct match claims -/
theorem directMatches_strength {tx : TransactionObservation} {blockHeight : Option ℕ} {m : Match}
    (hm : m ∈ e.directMatches tx blockHeight) :
    (m.activityType = .watchedAddressSpent ∨ m.activityType = .watchedAddressReceived →
      AddressGrade m.target.classification m.correlationStrength) ∧
      (m.activityType = .watchedOutpointSpent → m.correlationStrength ≠ .heuristic) ∧
      m.activityType ≠ .newDescendantObserved ∧ m.activityType ≠ .transactionReplacement := by
  rcases directMatches_cases hm with ⟨t, ht, rfl⟩ | ⟨vin, i, -, t, ht, rfl⟩ | ⟨vin, i, addr, t, ht, rfl⟩ |
    ⟨vout, o, hex, t, ht, rfl⟩ | ⟨vout, o, addr, t, ht, rfl⟩
  · cases blockHeight <;> simp [txidMatch]
  · simp [outpointMatch]
  · simp [addressSpentMatch, addressStrength_grade]
  · simp [scriptMatch]
  · simp [addressReceivedMatch, addressStrength_grade]

theorem targetReport_measured {tx : TransactionObservation} {blockHeight : Option ℕ} {blockHash : Option String} {m : Match}
    (hm : m ∈ e.directMatches tx blockHeight) : Measured passes e c (e.targetReport tx blockHeight blockHash m) := by
  obtain ⟨haddress, houtpoint, hdescendant, hreplacement⟩ := directMatches_strength hm
  obtain ⟨key, hfound⟩ := directMatches_found hm
  have hmatched : MatchedBy e (e.targetReport tx blockHeight blockHash m).1 m.target :=
    matchedBy_of_found hfound rfl rfl
  refine ⟨fun htype => ⟨m.target, hmatched, haddress htype⟩, fun htype => ?_, fun _ => ⟨m.target, hmatched⟩,
    fun htype => absurd htype hdescendant, fun alert halert => alert_measured houtpoint halert⟩
  rcases htype with htype | htype
  · exact absurd htype hdescendant
  · exact absurd htype hreplacement

theorem descendantReport_measured {tx : TransactionObservation} {blockHeight : Option ℕ} {blockHash : Option String}
    {i : TxInputObservation} {d : TrackedDescendantOutpoint} (htx : tx ∈ c.observed) (hi : i ∈ tx.inputs)
    (hd : Lineage passes i.key d) : Measured passes e c (e.descendantReport tx blockHeight blockHash i d) := by
  obtain ⟨t, n, hdescends, rfl⟩ := hd
  refine ⟨fun htype => ?_, fun _ => rfl, fun htype => absurd rfl htype,
    fun _ => ⟨tx, htx, i, hi, t, n, hdescends, rfl, rfl⟩, fun alert halert => ?_⟩
  · rcases htype with htype | htype <;> cases htype
  · obtain ⟨target, -, hcreated⟩ := Option.bind_eq_some_iff.1 halert
    exact alert_measured (fun htype => by cases htype) hcreated

theorem replacementReport_measured {repl : TransactionReplacement} {txid : String} {t : WatchTarget}
    (ht : t ∈ e.found (.txid txid)) : Measured passes e c (e.replacementReport repl t) := by
  have hmatched : MatchedBy e (e.replacementReport repl t).1 t := matchedBy_of_found ht rfl rfl
  refine ⟨fun htype => ?_, fun _ => rfl, fun _ => ⟨t, hmatched⟩, fun htype => ?_, fun alert halert => ?_⟩
  · rcases htype with htype | htype <;> cases htype
  · cases htype
  · exact alert_measured (fun htype => by cases htype) halert

end Sites

/-! ## Every reachable state -/

/-- one call, from a state whose tracking has its lineages -/
theorem call_measured {s : Followed} (h : s.Traced) (c : Call) {r : Report} (hr : r ∈ s.engine.reports c) :
    Measured (s.passes ++ Followed.passOf s.engine (.call c)) s.engine c r := by
  obtain ⟨hbefore, hclosed⟩ := h.call c
  rcases reports_cases hbefore hclosed hr with
    ⟨tx, -, height, hash, m, hm, rfl⟩ | ⟨tx, htx, height, hash, i, hi, d, hd, rfl⟩ | ⟨repl, txid, t, ht, rfl⟩
  · exact targetReport_measured hm
  · exact descendantReport_measured htx hi hd
  · exact replacementReport_measured ht

/-- **Epistemic strength is never inflated.** After any operations on a new engine, every activity and alert that any call
returns claims no more than its target allows. -/
theorem strength_never_inflated (maxDepth : ℕ) (ops : List Operation) (stamp : Stamp) (c : Call) :
    ∀ r ∈ (run Followed.operate (Followed.start maxDepth) ops).engine.returned stamp c,
      Measured (run Followed.operate (Followed.start maxDepth) (ops ++ [.call c])).passes
        (run Followed.operate (Followed.start maxDepth) ops).engine c (unsealed r) := by
  intro r hr
  have htraced := Followed.tracked_descends maxDepth ops
  have hreport : unsealed r ∈ (run Followed.operate (Followed.start maxDepth) ops).engine.reports c := by
    rw [← map_unsealed_returned stamp]
    exact List.mem_map_of_mem hr
  have hpasses : (run Followed.operate (Followed.start maxDepth) (ops ++ [.call c])).passes =
      (run Followed.operate (Followed.start maxDepth) ops).passes ++
        Followed.passOf (run Followed.operate (Followed.start maxDepth) ops).engine (.call c) := by
    rw [run_append]
    rfl
  rw [hpasses]
  exact call_measured htraced c hreport

/-- the outpoint is watched and spent -/
def spent : List Operation := [.addTarget watchedOutpoint, .call (.transaction theft none none)]

/-- the funds move on: a descendant is reported, with a lineage from the watched outpoint -/
theorem strength_never_inflated_onward :
    ∃ r ∈ (run Followed.operate (Followed.start 3) spent).engine.returned someStamp (.transaction onward none none),
      r.1.activityType = .newDescendantObserved ∧
        Measured (run Followed.operate (Followed.start 3) (spent ++ [.call (.transaction onward none none)])).passes
          (run Followed.operate (Followed.start 3) spent).engine (.transaction onward none none) (unsealed r) := by
  have htypes : ((run Followed.operate (Followed.start 3) spent).engine.returned someStamp
      (.transaction onward none none)).map (fun r => r.1.activityType) = [.newDescendantObserved] := by
    decide +kernel
  have hmem : IncidentActivityType.newDescendantObserved ∈ ((run Followed.operate (Followed.start 3) spent).engine.returned
      someStamp (.transaction onward none none)).map (fun r => r.1.activityType) := by
    rw [htypes]
    exact List.mem_singleton_self _
  obtain ⟨r, hr, htype⟩ := List.mem_map.1 hmem
  exact ⟨r, hr, htype, strength_never_inflated 3 spent someStamp (.transaction onward none none) r hr⟩

end ObsChain.EvidenceStrength
