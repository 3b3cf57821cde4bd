/-
What `process_transaction` reports directly, against an enumeration that does not know the indices.

The reference asks every target of `all_targets` about the transaction, about each input and about each output. It compares
txids and scripts in lower case and addresses as they are.

- `found_perm`: in an indexed engine a bucket is the part of `all_targets` with its key, in some order.
- `direct_matching`: the reports of txids, outpoints, scripts and addresses are those of the reference, each as often,
  whatever the engine tracks; a report is confirmed exactly when a block height is given.
-/
import Mathlib.Tactic
import Mathlib.Data.List.AList
import ObsChain.Watch.Engine
import ObsChain.Watch.Pass
import ObsChain.Watch.TargetIndex

namespace ObsChain.DirectMatching

open IncidentWatchEngine

/-! ## The reference -/

/-- what is compared of an activity -/
structure Sighting where
  activityType : IncidentActivityType
  targetId : Uuid
  valueSats : Option ℕ
  status : ActivityStatus
  blockHeight : Option ℕ
deriving DecidableEq, Repr

/-- the targets of `all_targets`, in some order -/
def targets (e : IncidentWatchEngine) : List WatchTarget := e.allTargets.entries.map Sigma.snd

def watchesTransaction (txid : String) (t : WatchTarget) : Bool :=
  match t.kind with
  | .transaction watched => toLowercase watched == toLowercase txid
  | _ => false

def watchesOutpoint (txid : String) (vout : ℕ) (t : WatchTarget) : Bool :=
  match t.kind with
  | .outPoint watched index => toLowercase watched == toLowercase txid && index == vout
  | _ => false

def watchesScript (scriptHex : String) (t : WatchTarget) : Bool :=
  match t.kind with
  | .scriptPubKey watched => toLowercase watched == toLowercase scriptHex
  | _ => false

def watchesAddress (addr : String) (t : WatchTarget) : Bool :=
  match t.kind with
  | .address watched _ => watched == addr
  | _ => false

section Reference

variable (ts : List WatchTarget) (tx : TransactionObservation) (blockHeight : Option ℕ)

/-- one sighting per target that watches -/
def sightings (watches : WatchTarget → Bool) (activityType : IncidentActivityType) (valueSats : Option ℕ) :
    List Sighting :=
  (ts.filter watches).map fun t =>
    ⟨activityType, t.id, valueSats, if blockHeight.isSome then .confirmed else .mempool, blockHeight⟩

/-- the same, of a value that may be missing -/
def sightingsOf (watches : String → WatchTarget → Bool) (seen : Option String) (activityType : IncidentActivityType)
    (valueSats : Option ℕ) : List Sighting :=
  seen.toList.flatMap fun s => sightings ts blockHeight (watches s) activityType valueSats

def referenceInput (input : TxInputObservation) : List Sighting :=
  sightings ts blockHeight (watchesOutpoint input.txid input.vout) .watchedOutpointSpent input.prevOutValueSats ++
    sightingsOf ts blockHeight watchesAddress input.prevOutAddress .watchedAddressSpent input.prevOutValueSats

def referenceOutput (output : TxOutputObservation) : List Sighting :=
  sightingsOf ts blockHeight watchesScript output.scriptpubkeyHex .watchedScriptReceived (some output.valueSats) ++
    sightingsOf ts blockHeight watchesAddress output.address .watchedAddressReceived (some output.valueSats)

/-- every target against the transaction, its inputs and its outputs -/
def reference : List Sighting :=
  sightings ts blockHeight (watchesTransaction tx.txid)
      (if blockHeight.isSome then .watchedTransactionConfirmed else .watchedTransactionObserved)
      (some tx.totalOutputSats) ++
    tx.inputs.flatMap (referenceInput ts blockHeight) ++ tx.outputs.flatMap (referenceOutput ts blockHeight)

end Reference

/-! ## Buckets and targets -/

variable {e : IncidentWatchEngine}

theorem mem_targets_iff (h : e.Indexed) {t : WatchTarget} :
    t ∈ targets e ↔ e.allTargets.lookup t.id = some t := by
  unfold targets
  constructor
  · intro ht
    obtain ⟨⟨id, t'⟩, hentry, rfl⟩ := List.mem_map.1 ht
    have hlookup : e.allTargets.lookup id = some t' := AList.mem_lookup_iff.2 hentry
    rw [h.keyed id t' hlookup]
    exact hlookup
  · intro ht
    exact List.mem_map.2 ⟨⟨t.id, t⟩, AList.mem_lookup_iff.1 ht, rfl⟩

theorem nodup_targets (h : e.Indexed) : (targets e).Nodup := by
  have hids : (targets e).map (·.id) = e.allTargets.keys := by
    unfold targets
    rw [List.map_map]
    apply List.map_congr_left
    rintro ⟨id, t⟩ hentry
    exact h.keyed id t (AList.mem_lookup_iff.2 hentry)
  apply List.Nodup.of_map (·.id)
  rw [hids]
  exact e.allTargets.keys_nodup

/-- **A bucket is a part of `all_targets`.** -/
theorem found_perm (h : e.Indexed) (key : IndexKey) :
    (e.found key).Perm ((targets e).filter fun t => decide (t.kind.indexKey = key)) := by
  rw [List.perm_iff_count]
  intro t
  have hnodup := (nodup_targets h).filter fun t => decide (t.kind.indexKey = key)
  rw [h.held, hnodup.count]
  simp only [List.mem_filter, mem_targets_iff h, decide_eq_true_eq]

/-! ## Matches and sightings -/

def sighting (a : ActivityDraft) : Sighting :=
  ⟨a.activityType, a.watchTargetId, a.valueSats, a.status, a.blockHeight⟩

/-- what a match is reported as -/
def seen (blockHeight : Option ℕ) (m : Match) : Sighting :=
  ⟨m.activityType, m.target.id, m.valueSats, statusAt blockHeight, blockHeight⟩

variable {tx : TransactionObservation} {blockHeight : Option ℕ}

/-- the matches of a bucket are the sightings of its key -/
theorem seen_perm (h : e.Indexed) (key : IndexKey) {watches : WatchTarget → Bool}
    (hkey : ∀ t, watches t = decide (t.kind.indexKey = key)) {build : WatchTarget → Match}
    {activityType : IncidentActivityType} {valueSats : Option ℕ}
    (hbuild : ∀ t, seen blockHeight (build t) =
      ⟨activityType, t.id, valueSats, if blockHeight.isSome then .confirmed else .mempool, blockHeight⟩) :
    (((e.found key).map build).map (seen blockHeight)).Perm
      (sightings (targets e) blockHeight watches activityType valueSats) := by
  have hfilter : (targets e).filter watches = (targets e).filter fun t => decide (t.kind.indexKey = key) := by
    congr 1
    funext t
    exact hkey t
  rw [sightings, hfilter, List.map_map, show seen blockHeight ∘ build = _ from funext hbuild]
  exact (found_perm h key).map _

theorem txidMatches_perm (h : e.Indexed) :
    ((e.txidMatches tx blockHeight).map (seen blockHeight)).Perm
      (sightings (targets e) blockHeight (watchesTransaction tx.txid)
        (if blockHeight.isSome then .watchedTransactionConfirmed else .watchedTransactionObserved)
        (some tx.totalOutputSats)) := by
  refine seen_perm h (.txid (toLowercase tx.txid)) (fun t => ?_) (fun t => rfl)
  rw [Bool.eq_iff_iff]
  unfold watchesTransaction
  cases t.kind <;> simp [WatchTargetKind.indexKey]

theorem outpointMatches_perm (h : e.Indexed) (vin : ℕ) (i : TxInputObservation) :
    ((e.outpointMatches tx vin i).map (seen blockHeight)).Perm
      (sightings (targets e) blockHeight (watchesOutpoint i.txid i.vout) .watchedOutpointSpent i.prevOutValueSats) := by
  refine seen_perm h (.outpoint i.key) (fun t => ?_) (fun t => rfl)
  rw [Bool.eq_iff_iff]
  unfold watchesOutpoint
  cases t.kind <;> simp [WatchTargetKind.indexKey, TxInputObservation.key, outpointKey]

theorem watchesAddress_eq (addr : String) (t : WatchTarget) :
    watchesAddress addr t = decide (t.kind.indexKey = .address addr) := by
  rw [Bool.eq_iff_iff]
  unfold watchesAddress
  cases t.kind <;> simp [WatchTargetKind.indexKey]

theorem addressSpentMatches_perm (h : e.Indexed) (vin : ℕ) (i : TxInputObservation) :
    ((e.addressSpentMatches tx vin i).map (seen blockHeight)).Perm
      (sightingsOf (targets e) blockHeight watchesAddress i.prevOutAddress .watchedAddressSpent i.prevOutValueSats) := by
  unfold addressSpentMatches sightingsOf
  cases i.prevOutAddress with
  | none => exact List.Perm.refl _
  | some addr =>
    simp only [Option.toList_some, List.flatMap_singleton]
    exact seen_perm h (.address addr) (watchesAddress_eq addr) (fun t => rfl)

theorem outputMatches_perm (h : e.Indexed) (vout : ℕ) (o : TxOutputObservation) :
    ((e.outputMatches tx vout o).map (seen blockHeight)).Perm (referenceOutput (targets e) blockHeight o) := by
  unfold outputMatches referenceOutput
  rw [List.map_append]
  apply List.Perm.append
  · unfold sightingsOf
    cases o.scriptpubkeyHex with
    | none => exact List.Perm.refl _
    | some scriptHex =>
      simp only [Option.toList_some, List.flatMap_singleton]
      refine seen_perm h (.script (toLowercase scriptHex)) (fun t => ?_) (fun t => rfl)
      rw [Bool.eq_iff_iff]
      unfold watchesScript
      cases t.kind <;> simp [WatchTargetKind.indexKey]
  · unfold sightingsOf
    cases o.address with
    | none => exact List.Perm.refl _
    | some addr =>
      simp only [Option.toList_some, List.flatMap_singleton]
      exact seen_perm h (.address addr) (watchesAddress_eq addr) (fun t => rfl)

/-- the position of an element plays no part -/
theorem flatMap_zipIdx_perm {α β : Type*} {l : List α} {n : ℕ} {f : α × ℕ → List β} {g : α → List β}
    (h : ∀ a i, (f (a, i)).Perm (g a)) : ((l.zipIdx n).flatMap f).Perm (l.flatMap g) := by
  induction l generalizing n with
  | nil => exact List.Perm.refl _
  | cons a l ih =>
    rw [List.zipIdx_cons, List.flatMap_cons, List.flatMap_cons]
    exact (h a n).append ih

theorem directMatches_perm (h : e.Indexed) :
    ((e.directMatches tx blockHeight).map (seen blockHeight)).Perm (reference (targets e) tx blockHeight) := by
  simp only [directMatches, spendAndReceiveMatches, inputMatches, reference, List.map_append, List.map_flatMap]
  rw [List.append_assoc]
  refine (txidMatches_perm h).append ((flatMap_zipIdx_perm fun i vin => ?_).append (flatMap_zipIdx_perm fun o vout => ?_))
  · exact (outpointMatches_perm h vin i).append (addressSpentMatches_perm h vin i)
  · exact outputMatches_perm h vout o

/-! ## Reports -/

/-- the txid, outpoint, script and address activities among the results -/
def directSightings (results : List (IncidentActivity × Option IncidentAlert)) : List Sighting :=
  (results.filter fun r => r.1.activityType != .newDescendantObserved).map fun r => sighting r.1.toActivityDraft

theorem directSightings_eq (results : List (IncidentActivity × Option IncidentAlert)) :
    directSightings results = ((results.map unsealed).filter isDirect).map fun r => sighting r.1 := by
  rw [directSightings, List.filter_map, List.map_map]
  rfl

/-- they are read off the indices -/
theorem directSightings_processTransaction (stamp : Stamp) (e : IncidentWatchEngine) (tx : TransactionObservation)
    (blockHeight : Option ℕ) (blockHash : Option String) :
    directSightings (processTransaction stamp e tx blockHeight blockHash).2 =
      (e.directMatches tx blockHeight).map (seen blockHeight) := by
  rw [directSightings_eq, processTransaction, map_unsealed_mapIdx, observe_direct, List.map_map]
  rfl

/-- every report of a pass has the status of its height -/
theorem status_observe {blockHash : Option String} {r : Report} (hr : r ∈ (e.observe tx blockHeight blockHash).2) :
    r.1.status = statusAt blockHeight := by
  cases hd : isDirect r with
  | true =>
    have hmem : r ∈ (e.observe tx blockHeight blockHash).2.filter isDirect := List.mem_filter.2 ⟨hr, hd⟩
    rw [observe_direct] at hmem
    obtain ⟨m, -, rfl⟩ := List.mem_map.1 hmem
    rfl
  | false =>
    have htracked : Records (fun _ _ => True) e.descendants := fun _ _ _ => trivial
    obtain ⟨i, -, d, -, rfl⟩ := htracked.reported ⟨fun _ _ _ _ _ _ => trivial, fun _ _ _ _ _ _ => trivial⟩ hr hd
    rfl

/-- **Direct matching is sound and complete.** Where the indices hold each target once, the direct reports are those of
the reference, each as often; the status follows the block height; the tracking plays no part. -/
theorem direct_matching (e : IncidentWatchEngine) (h : e.Indexed) (stamp : Stamp) (tx : TransactionObservation)
    (blockHeight : Option ℕ) (blockHash : Option String) :
    (directSightings (processTransaction stamp e tx blockHeight blockHash).2).Perm
        (reference (targets e) tx blockHeight) ∧
      (∀ r ∈ (processTransaction stamp e tx blockHeight blockHash).2,
        r.1.status = .confirmed ↔ blockHeight.isSome = true) ∧
      ∀ tracking : Tracking,
        directSightings (processTransaction stamp { e with descendants := tracking } tx blockHeight blockHash).2 =
          directSightings (processTransaction stamp e tx blockHeight blockHash).2 := by
  refine ⟨?_, fun r hr => ?_, fun tracking => ?_⟩
  · rw [directSightings_processTransaction]
    exact directMatches_perm h
  · have hunsealed : unsealed r ∈ (e.observe tx blockHeight blockHash).2 := by
      rw [← map_unsealed_mapIdx stamp (e.observe tx blockHeight blockHash).2]
      exact List.mem_map_of_mem hr
    have hstatus : r.1.status = statusAt blockHeight := status_observe hunsealed
    rw [hstatus, statusAt]
    split_ifs with hheight
    · exact ⟨fun _ => hheight, fun _ => rfl⟩
    · exact ⟨fun heq => (by cases heq), fun hsome => absurd hsome hheight⟩
  · rw [directSightings_processTransaction, directSightings_processTransaction]
    rfl

/-- the script that the theft pays to, in upper case -/
def watchedScript : WatchTarget :=
  { watchedOutpoint with
    id := 0x2b3c4d5e6f708192a3b4c5d6e7f80910
    kind := .scriptPubKey "0014112233445566778899001122334455667788990A"
    label := none }

/-- the theft, with that script -/
def theftToScript : TransactionObservation :=
  { theft with
    outputs := [⟨99990000, 0, some "v0_p2wpkh", none, some "0014112233445566778899001122334455667788990a"⟩] }

/-- the outpoint is seen spent and the script paid -/
theorem direct_matching_theft :
    (watchingEngine.addTarget watchedScript).Indexed ∧
      (directSightings (processTransaction someStamp (watchingEngine.addTarget watchedScript) theftToScript none none).2).Perm
        [⟨.watchedOutpointSpent, watchedOutpoint.id, some 100000000, .mempool, none⟩,
          ⟨.watchedScriptReceived, watchedScript.id, some 99990000, .mempool, none⟩] := by
  have hempty : (withFollowDepth 3).Indexed := (Registered.start_integrity 3).indexed
  have hindexed : (watchingEngine.addTarget watchedScript).Indexed :=
    (hempty.addTarget (by decide)).addTarget (by decide)
  refine ⟨hindexed, ?_⟩
  have hperm := (direct_matching _ hindexed someStamp theftToScript none none).1
  have href : reference (targets (watchingEngine.addTarget watchedScript)) theftToScript none =
      [⟨.watchedOutpointSpent, watchedOutpoint.id, some 100000000, .mempool, none⟩,
        ⟨.watchedScriptReceived, watchedScript.id, some 99990000, .mempool, none⟩] := by
    decide +kernel
  rwa [href] at hperm

end ObsChain.DirectMatching
