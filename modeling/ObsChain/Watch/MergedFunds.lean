/-
Does an incident lose a descendant to another?

The tracking keeps one record per outpoint. A transaction that brings funds of two incidents together enrols its outputs
once for each of them, and the last enrolment stays. The record also says how far the outpoint is from the watched one, so
an enrolment of the same incident can cut a chain short that an earlier one would have followed.

- `observeOne_get`: what one pass that evicts nothing leaves in the tracking, exactly; `enrolled` lists its enrolments in order.
- `Covered`: an unspent output has a record of every incident it descends from, no deeper than the descent.
- `no_incident_lost`: in every run whose passes are `Compatible` no incident loses a descendant; a pass that enrols
  outputs for two incidents loses one.
- `merge_loses_incident`: the outpoints of two cases, spent in one transaction.
-/
import Mathlib.Tactic
import ObsChain.Core.Trace
import ObsChain.Core.BoundedMap
import ObsChain.Watch.Engine
import ObsChain.Watch.Pass
import ObsChain.Watch.Interference
import ObsChain.Watch.TargetIndex
import ObsChain.Watch.Descent

namespace ObsChain.MergedFunds

open Trace IncidentWatchEngine Descent

/-! ## One pass, exactly -/

/-- the record of the outputs of a spent descendant, unless it was the last one to be followed -/
def nextLayer (e : IncidentWatchEngine) (d : TrackedDescendantOutpoint) : List TrackedDescendantOutpoint :=
  if d.depth < e.maxDescendantDepth then [{ d with depth := d.depth + 1 }] else []

/-- the records under which one input enrols the outputs, in order -/
def enrolledBy (e : IncidentWatchEngine) (t : Tracking) (i : TxInputObservation) : List TrackedDescendantOutpoint :=
  (watching e.outpointIndex i.key).map firstLayer ++ (t.get i.key).toList.flatMap (nextLayer e)

/-- the records under which a pass enrols the outputs, in order -/
def enrolled (e : IncidentWatchEngine) : Tracking → List TxInputObservation → List TrackedDescendantOutpoint
  | _, [] => []
  | t, i :: inputs => enrolledBy e t i ++ enrolled e (t.remove i.key) inputs

section Pass

variable {e : IncidentWatchEngine} {tx : TransactionObservation} {t : Tracking}
variable (blockHeight : Option ℕ) (blockHash : Option String)

/-- the tracking after enrolments under these records -/
def enrolAll (e : IncidentWatchEngine) (tx : TransactionObservation) (t : Tracking)
    (ds : List TrackedDescendantOutpoint) : Tracking :=
  ds.foldl (e.enrollDescendants tx) t

/-- with room, the last enrolment stays -/
theorem enrolAll_get {n : ℕ} {ds : List TrackedDescendantOutpoint} (hdepth : ∀ d ∈ ds, d.depth ≤ e.maxDescendantDepth)
    (h : BoundedMap.Room (n + ds.length * tx.spendable.length) t) :
    BoundedMap.Room n (enrolAll e tx t ds) ∧
      ∀ k, (enrolAll e tx t ds).get k = if k ∈ tx.spendable then ds.getLast?.or (t.get k) else t.get k := by
  induction ds generalizing t with
  | nil =>
    rw [List.length_nil, Nat.zero_mul] at h
    exact ⟨h, fun k => by simp [enrolAll]⟩
  | cons d ds ih =>
    have hsplit : n + (d :: ds).length * tx.spendable.length =
        n + ds.length * tx.spendable.length + tx.spendable.length := by
      rw [List.length_cons]
      ring
    rw [hsplit] at h
    obtain ⟨hroom, hget⟩ := h.insertAll d
    have henrol : e.enrollDescendants tx t d = t.insertAll tx.spendable d := by
      rw [enrollDescendants, if_neg (by simpa using hdepth d List.mem_cons_self)]
    rw [← henrol] at hroom hget
    obtain ⟨hroom', hget'⟩ := ih (fun d' hd' => hdepth d' (List.mem_cons_of_mem d hd')) hroom
    refine ⟨hroom', fun k => ?_⟩
    rw [show enrolAll e tx t (d :: ds) = enrolAll e tx (e.enrollDescendants tx t d) ds from rfl, hget' k, hget k]
    split_ifs with hk
    · cases ds with
      | nil => rfl
      | cons d' ds => simp [List.getLast?_cons]
    · rfl

theorem depth_nextLayer {d d' : TrackedDescendantOutpoint} (h : d' ∈ nextLayer e d) :
    d' = { d with depth := d.depth + 1 } ∧ d.depth < e.maxDescendantDepth := by
  unfold nextLayer at h
  split_ifs at h with hdepth
  · exact ⟨List.mem_singleton.1 h, hdepth⟩
  · cases h

theorem depth_enrolledBy {i : TxInputObservation} {d : TrackedDescendantOutpoint} (h : d ∈ enrolledBy e t i) :
    d.depth ≤ e.maxDescendantDepth := by
  rcases List.mem_append.1 h with hfirst | hnext
  · obtain ⟨target, -, rfl⟩ := List.mem_map.1 hfirst
    exact e.maxDescendantDepth.2.1
  · obtain ⟨d', -, hd⟩ := List.mem_flatMap.1 hnext
    obtain ⟨rfl, hdepth⟩ := depth_nextLayer hd
    exact hdepth

theorem spendOutpoint_eq (vin : ℕ) (i : TxInputObservation) :
    (e.spendOutpoint tx blockHeight blockHash t vin i).1 =
      enrolAll e tx t ((watching e.outpointIndex i.key).map firstLayer) := by
  simp only [spendOutpoint, outpointMatches, enrolAll, List.foldl_map, outpointMatch]

theorem spendDescendant_get {n : ℕ} {i : TxInputObservation} (hi : i.key ∉ tx.spendable)
    (h : BoundedMap.Room (n + ((t.get i.key).toList.flatMap (nextLayer e)).length * tx.spendable.length) t) :
    BoundedMap.Room n (e.spendDescendant tx blockHeight blockHash t i).1 ∧
      ∀ k, (e.spendDescendant tx blockHeight blockHash t i).1.get k =
        if k ∈ tx.spendable then ((t.get i.key).toList.flatMap (nextLayer e)).getLast?.or (t.get k)
        else if k = i.key then none else t.get k := by
  have hne : ∀ k ∈ tx.spendable, k ≠ i.key := fun k hk heq => hi (heq ▸ hk)
  unfold spendDescendant
  cases hd : t.get i.key with
  | none =>
    rw [hd] at h
    refine ⟨by simpa using h, fun k => ?_⟩
    dsimp only
    split_ifs with hk heq
    · rfl
    · rw [heq, hd]
    · rfl
  | some d =>
    rw [hd, Option.toList_some, List.flatMap_singleton] at h
    have hgone : ∀ k, (t.remove i.key).get k = if k = i.key then none else t.get k := by
      intro k
      split_ifs with heq
      · rw [heq, BoundedMap.get_remove_self]
      · exact BoundedMap.get_remove_of_ne t heq
    have hdepth : ∀ d' ∈ nextLayer e d, d'.depth ≤ e.maxDescendantDepth := by
      intro d' hd'
      obtain ⟨rfl, hlt⟩ := depth_nextLayer hd'
      exact hlt
    have hroom := (BoundedMap.room_remove _ i.key t).2 h
    obtain ⟨hroom', hget⟩ := enrolAll_get hdepth hroom
    have htracking : (if d.depth < e.maxDescendantDepth then
        e.enrollDescendants tx (t.remove i.key) { d with depth := d.depth + 1 } else t.remove i.key) =
        enrolAll e tx (t.remove i.key) (nextLayer e d) := by
      unfold nextLayer
      split_ifs <;> rfl
    dsimp only
    rw [htracking]
    refine ⟨hroom', fun k => ?_⟩
    rw [hget, hgone, Option.toList_some, List.flatMap_singleton]
    split_ifs with hk heq
    · exact absurd heq (hne k hk)
    · rfl
    · rfl
    · rfl

/-- one input, as enrolments -/
theorem processInput_get (vin : ℕ) {n : ℕ} {i : TxInputObservation} (hi : i.key ∉ tx.spendable)
    (h : BoundedMap.Room (n + (enrolledBy e t i).length * tx.spendable.length) t) :
    BoundedMap.Room n (e.processInput tx blockHeight blockHash t vin i).1 ∧
      (∀ k, (e.processInput tx blockHeight blockHash t vin i).1.get k =
        if k ∈ tx.spendable then (enrolledBy e t i).getLast?.or (t.get k) else if k = i.key then none else t.get k) ∧
      (e.spendOutpoint tx blockHeight blockHash t vin i).1.get i.key = t.get i.key := by
  have hsplit : n + (enrolledBy e t i).length * tx.spendable.length =
      (n + ((t.get i.key).toList.flatMap (nextLayer e)).length * tx.spendable.length) +
        ((watching e.outpointIndex i.key).map firstLayer).length * tx.spendable.length := by
    rw [enrolledBy, List.length_append]
    ring
  have hdepth : ∀ d ∈ (watching e.outpointIndex i.key).map firstLayer, d.depth ≤ e.maxDescendantDepth :=
    fun d hd => depth_enrolledBy (t := t) (List.mem_append_left _ hd)
  rw [hsplit] at h
  obtain ⟨hroom, hget⟩ := enrolAll_get hdepth h
  rw [← spendOutpoint_eq blockHeight blockHash vin i] at hroom hget
  have hself : (e.spendOutpoint tx blockHeight blockHash t vin i).1.get i.key = t.get i.key := by
    rw [hget, if_neg hi]
  rw [← hself] at hroom
  obtain ⟨hroom', hget'⟩ := spendDescendant_get blockHeight blockHash hi hroom
  refine ⟨hroom', fun k => ?_, hself⟩
  have hk : (e.processInput tx blockHeight blockHash t vin i).1.get k = _ := hget' k
  rw [hk, hself, hget k]
  split_ifs with hspendable heq
  · rw [enrolledBy, List.getLast?_append, Option.or_assoc]
  · rfl
  · rfl

/-- the enrolments read the tracking of the inputs only -/
theorem enrolled_congr {t t' : Tracking} {inputs : List TxInputObservation}
    (h : ∀ i ∈ inputs, t.get i.key = t'.get i.key) : enrolled e t inputs = enrolled e t' inputs := by
  induction inputs generalizing t t' with
  | nil => rfl
  | cons i inputs ih =>
    have hrest : ∀ j ∈ inputs, (t.remove i.key).get j.key = (t'.remove i.key).get j.key := by
      intro j hj
      by_cases hkey : j.key = i.key
      · rw [hkey, BoundedMap.get_remove_self, BoundedMap.get_remove_self]
      · rw [BoundedMap.get_remove_of_ne t hkey, BoundedMap.get_remove_of_ne t' hkey]
        exact h j (List.mem_cons_of_mem i hj)
    rw [enrolled, enrolled, enrolledBy, enrolledBy, h i List.mem_cons_self, ih hrest]

/-- after one input the others are tracked as before, but for the outpoint it spent -/
theorem enrolled_processInput (vin : ℕ) {n : ℕ} {i : TxInputObservation} {inputs : List TxInputObservation}
    (hown : ∀ j ∈ i :: inputs, j.key ∉ tx.spendable)
    (h : BoundedMap.Room (n + (enrolledBy e t i).length * tx.spendable.length) t) :
    enrolled e (e.processInput tx blockHeight blockHash t vin i).1 inputs = enrolled e (t.remove i.key) inputs := by
  obtain ⟨-, hget, -⟩ := processInput_get blockHeight blockHash vin (hown i List.mem_cons_self) h
  apply enrolled_congr
  intro j hj
  rw [hget, if_neg (hown j (List.mem_cons_of_mem i hj))]
  split_ifs with hkey
  · rw [hkey, BoundedMap.get_remove_self]
  · rw [BoundedMap.get_remove_of_ne t hkey]

theorem length_enrolled_cons (n : ℕ) (i : TxInputObservation) (inputs : List TxInputObservation) :
    n + (enrolled e t (i :: inputs)).length * tx.spendable.length =
      (n + (enrolled e (t.remove i.key) inputs).length * tx.spendable.length) +
        (enrolledBy e t i).length * tx.spendable.length := by
  rw [enrolled, List.length_append]
  ring

/-- **One pass, exactly.** With room, an output has the record of the last enrolment, and a spent outpoint none. -/
theorem processInputs_get (vin : ℕ) {n : ℕ} {inputs : List TxInputObservation}
    (hown : ∀ i ∈ inputs, i.key ∉ tx.spendable)
    (h : BoundedMap.Room (n + (enrolled e t inputs).length * tx.spendable.length) t) :
    BoundedMap.Room n (e.processInputs tx blockHeight blockHash t vin inputs).1 ∧
      ∀ k, (e.processInputs tx blockHeight blockHash t vin inputs).1.get k =
        if k ∈ tx.spendable then (enrolled e t inputs).getLast?.or (t.get k)
        else if k ∈ inputs.map TxInputObservation.key then none else t.get k := by
  induction inputs generalizing t vin with
  | nil =>
    rw [enrolled, List.length_nil, Nat.zero_mul] at h
    exact ⟨h, fun k => by simp [processInputs, enrolled]⟩
  | cons i inputs ih =>
    rw [length_enrolled_cons] at h
    have hrest := enrolled_processInput blockHeight blockHash vin hown h
    obtain ⟨hroom, hget, -⟩ := processInput_get blockHeight blockHash vin (hown i List.mem_cons_self) h
    rw [← hrest] at hroom
    have hinputs : ∀ j ∈ inputs, j.key ∉ tx.spendable := fun j hj => hown j (List.mem_cons_of_mem i hj)
    obtain ⟨hroom', hget'⟩ := ih (vin + 1) hinputs hroom
    refine ⟨hroom', fun k => ?_⟩
    rw [show (e.processInputs tx blockHeight blockHash t vin (i :: inputs)).1 = (e.processInputs tx blockHeight blockHash
      (e.processInput tx blockHeight blockHash t vin i).1 (vin + 1) inputs).1 from rfl, hget' k, hrest, hget, enrolled,
      List.getLast?_append, Option.or_assoc, List.map_cons]
    by_cases hk : k ∈ tx.spendable
    · simp only [hk, if_true]
    · by_cases hhead : k = i.key
      · subst hhead
        simp [hk]
      · simp [hk, hhead]

/-- with room, a tracked input is reported under its record -/
theorem processInputs_reported (vin : ℕ) {n : ℕ} {inputs : List TxInputObservation}
    (hown : ∀ i ∈ inputs, i.key ∉ tx.spendable)
    (h : BoundedMap.Room (n + (enrolled e t inputs).length * tx.spendable.length) t) {i : TxInputObservation}
    (hi : i ∈ inputs) {d : TrackedDescendantOutpoint} (hd : t.get i.key = some d) :
    ∃ j ∈ inputs, e.descendantReport tx blockHeight blockHash j d ∈
      (e.processInputs tx blockHeight blockHash t vin inputs).2 := by
  induction inputs generalizing t vin with
  | nil => cases hi
  | cons j inputs ih =>
    rw [length_enrolled_cons] at h
    have hrest := enrolled_processInput blockHeight blockHash vin hown h
    obtain ⟨hroom, hget, hself⟩ := processInput_get blockHeight blockHash vin (hown j List.mem_cons_self) h
    by_cases hkey : i.key = j.key
    · -- the input that reaches the record first
      refine ⟨j, List.mem_cons_self, List.mem_append_left _ ?_⟩
      rw [← hkey, hd] at hself
      simp [processInput, spendDescendant, ← hkey, hself]
    · have htail : i ∈ inputs := by
        rcases List.mem_cons.1 hi with rfl | htail
        · exact absurd rfl hkey
        · exact htail
      rw [← hrest] at hroom
      have hstill : (e.processInput tx blockHeight blockHash t vin j).1.get i.key = some d := by
        rw [hget, if_neg (hown i hi), if_neg hkey, hd]
      obtain ⟨j', hj', hmem⟩ := ih (vin + 1) (fun l hl => hown l (List.mem_cons_of_mem j hl)) hroom htail hstill
      exact ⟨j', List.mem_cons_of_mem j hj', List.mem_append_right _ hmem⟩

end Pass

/-! ## What is enrolled -/

section Enrolled

variable {e : IncidentWatchEngine} {t : Tracking} {inputs : List TxInputObservation}

/-- a watched outpoint enrols the first generation -/
theorem firstLayer_mem_enrolled {i : TxInputObservation} (hi : i ∈ inputs) {target : WatchTarget}
    (ht : target ∈ watching e.outpointIndex i.key) : firstLayer target ∈ enrolled e t inputs := by
  induction inputs generalizing t with
  | nil => cases hi
  | cons j inputs ih =>
    rcases List.mem_cons.1 hi with rfl | htail
    · exact List.mem_append_left _ (List.mem_append_left _ (List.mem_map_of_mem ht))
    · exact List.mem_append_right _ (ih htail)

/-- a tracked descendant enrols the next one -/
theorem nextLayer_mem_enrolled {i : TxInputObservation} (hi : i ∈ inputs) {d : TrackedDescendantOutpoint}
    (hd : t.get i.key = some d) (hdepth : d.depth < e.maxDescendantDepth) :
    { d with depth := d.depth + 1 } ∈ enrolled e t inputs := by
  induction inputs generalizing t with
  | nil => cases hi
  | cons j inputs ih =>
    by_cases hkey : i.key = j.key
    · apply List.mem_append_left
      apply List.mem_append_right
      rw [← hkey, hd, Option.toList_some, List.flatMap_singleton, nextLayer, if_pos hdepth]
      exact List.mem_singleton_self _
    · apply List.mem_append_right
      rcases List.mem_cons.1 hi with rfl | htail
      · exact absurd rfl hkey
      · apply ih htail
        rwa [BoundedMap.get_remove_of_ne t hkey]

/-- nothing else does -/
theorem enrolled_cases {d : TrackedDescendantOutpoint} (h : d ∈ enrolled e t inputs) :
    (∃ i ∈ inputs, ∃ target ∈ watching e.outpointIndex i.key, d = firstLayer target) ∨
      ∃ i ∈ inputs, ∃ d', t.get i.key = some d' ∧ d'.depth < e.maxDescendantDepth ∧
        d = { d' with depth := d'.depth + 1 } := by
  induction inputs generalizing t with
  | nil => cases h
  | cons i inputs ih =>
    rcases List.mem_append.1 h with hhead | htail
    · rcases List.mem_append.1 hhead with hfirst | hnext
      · obtain ⟨target, ht, rfl⟩ := List.mem_map.1 hfirst
        exact Or.inl ⟨i, List.mem_cons_self, target, ht, rfl⟩
      · obtain ⟨d', hd', hmem⟩ := List.mem_flatMap.1 hnext
        obtain ⟨rfl, hdepth⟩ := depth_nextLayer hmem
        exact Or.inr ⟨i, List.mem_cons_self, d', Option.mem_toList.1 hd', hdepth, rfl⟩
    · rcases ih htail with ⟨j, hj, target, ht, rfl⟩ | ⟨j, hj, d', hd', hdepth, rfl⟩
      · exact Or.inl ⟨j, List.mem_cons_of_mem i hj, target, ht, rfl⟩
      · exact Or.inr ⟨j, List.mem_cons_of_mem i hj, d', BoundedMap.get_of_get_remove hd', hdepth, rfl⟩

end Enrolled

/-! ## Runs of transactions -/

/-- an observed transaction with the block it was seen in, if any -/
structure Observed where
  tx : TransactionObservation
  blockHeight : Option ℕ
  blockHash : Option String

/-- the engine observes the transaction; its targets stay as they are -/
def observeOne (s : Followed) (o : Observed) : Followed :=
  s.operate (.call (.transaction o.tx o.blockHeight o.blockHash))

/-- no pass spends the outpoint -/
def Unspent (passes : List Descent.Pass) (k : OutpointKey) : Prop := ∀ p ∈ passes, ∀ i ∈ p.2.inputs, i.key ≠ k

/-- the pass of this transaction evicts nothing -/
def NoEviction (s : Followed) (tx : TransactionObservation) : Prop :=
  BoundedMap.Room ((enrolled s.engine s.engine.descendants tx.inputs).length * tx.spendable.length) s.engine.descendants

/-- the call returns a descendant's activity for this incident -/
def Reports (e : IncidentWatchEngine) (o : Observed) (incidentId : Uuid) : Prop :=
  ∀ stamp, ∃ r ∈ (processTransaction stamp e o.tx o.blockHeight o.blockHash).2,
    r.1.activityType = .newDescendantObserved ∧ r.1.incidentId = incidentId

/-- the output is as far from a watched outpoint of the target as descendants are followed, or closer -/
def Followable (s : Followed) (t : WatchTarget) (k : OutpointKey) : Prop :=
  ∃ n ≤ (s.engine.maxDescendantDepth : ℕ), Descends s.passes t k n

/-- an unspent output that descends from two targets is reported for the incidents of both when it is spent -/
def NoIncidentLost (s : Followed) : Prop :=
  ∀ k t t', Unspent s.passes k → Followable s t k → Followable s t' k →
    (t.incidentId ≠ t'.incidentId ∨ t.id ≠ t'.id) →
    ∀ o : Observed, (∃ i ∈ o.tx.inputs, i.key = k) → o.tx.SpendsNoOwnOutput → NoEviction s o.tx →
      Reports s.engine o t.incidentId ∧ Reports s.engine o t'.incidentId

/-- the records that are written at an output: the one that is there, and the enrolments -/
def written (s : Followed) (tx : TransactionObservation) (k : OutpointKey) : List TrackedDescendantOutpoint :=
  (s.engine.descendants.get k).toList ++ enrolled s.engine s.engine.descendants tx.inputs

/-- a record of the same incident, no deeper -/
def Keeps (d d' : TrackedDescendantOutpoint) : Prop := d'.incidentId = d.incidentId ∧ d'.depth ≤ d.depth

/-- the transaction was observed before -/
def Repeated (s : Followed) (tx : TransactionObservation) : Prop :=
  ∃ p ∈ s.passes, p.2.inputs.map TxInputObservation.key = tx.inputs.map TxInputObservation.key ∧
    p.2.spendable = tx.spendable

/-- it comes before the transactions that spend its outputs, and no descendant that it spends was spent by another -/
def Timely (s : Followed) (tx : TransactionObservation) : Prop :=
  (∀ k ∈ tx.spendable, Unspent s.passes k) ∧
    ∀ i ∈ tx.inputs, (∃ t, Followable s t i.key) → Unspent s.passes i.key

/-- at each unspent output, what is written keeps what it overwrites -/
structure Compatible (s : Followed) (o : Observed) : Prop where
  kept : ∀ k ∈ o.tx.spendable, Unspent s.passes k → (written s o.tx k).Pairwise Keeps
  ordered : Repeated s o.tx ∨ Timely s o.tx

/-- a transaction that can be, and evicts nothing -/
def Regular (s : Followed) (o : Observed) : Prop := o.tx.SpendsNoOwnOutput ∧ NoEviction s o.tx

/-! ## One pass of the run -/

section Step

variable {s : Followed} {o : Observed}

theorem passes_observeOne (s : Followed) (o : Observed) : (observeOne s o).passes = s.passes ++ [(s.engine, o.tx)] := rfl

theorem unspent_observeOne {k : OutpointKey} (h : Unspent (observeOne s o).passes k) :
    Unspent s.passes k ∧ k ∉ o.tx.inputs.map TxInputObservation.key := by
  refine ⟨fun p hp => h p (List.mem_append_left _ hp), fun hk => ?_⟩
  obtain ⟨i, hi, heq⟩ := List.mem_map.1 hk
  exact h (s.engine, o.tx) (List.mem_append_right _ List.mem_cons_self) i hi heq

/-- **The tracking after a pass.** At an unspent output stands what was written last. -/
theorem observeOne_get (hreg : Regular s o) {k : OutpointKey} (hunspent : Unspent (observeOne s o).passes k) :
    (observeOne s o).engine.descendants.get k =
      if k ∈ o.tx.spendable then (written s o.tx k).getLast? else s.engine.descendants.get k := by
  obtain ⟨hown, hroom⟩ := hreg
  obtain ⟨-, hget⟩ := processInputs_get o.blockHeight o.blockHash 0 hown (n := 0) (by simpa [NoEviction] using hroom)
  have hk := hget k
  rw [if_neg (unspent_observeOne hunspent).2] at hk
  refine Eq.trans hk ?_
  split_ifs with hspendable
  · rw [written, List.getLast?_append]
    cases s.engine.descendants.get k <;> rfl
  · rfl

theorem observeOne_room (hreg : Regular s o) : BoundedMap.Room 0 (observeOne s o).engine.descendants := by
  obtain ⟨hown, hroom⟩ := hreg
  exact (processInputs_get o.blockHeight o.blockHash 0 hown (n := 0) (by simpa [NoEviction] using hroom)).1

/-- the last of the records keeps every one of them -/
theorem keeps_last {ds : List TrackedDescendantOutpoint} (h : ds.Pairwise Keeps) {d : TrackedDescendantOutpoint}
    (hd : d ∈ ds) : ∃ d', ds.getLast? = some d' ∧ Keeps d d' := by
  obtain ⟨init, last, rfl⟩ : ∃ init last, ds = init ++ [last] := by
    rcases List.eq_nil_or_concat ds with rfl | ⟨init, last, rfl⟩
    · cases hd
    · exact ⟨init, last, List.concat_eq_append⟩
  refine ⟨last, List.getLast?_concat, ?_⟩
  rcases List.mem_append.1 hd with hinit | hlast
  · exact (List.pairwise_append.1 h).2.2 d hinit last List.mem_cons_self
  · rw [List.mem_singleton.1 hlast]
    exact ⟨rfl, le_rfl⟩

end Step

/-! ## Descent and one more pass -/

section Descent

variable {passes : List Descent.Pass} {e : IncidentWatchEngine} {tx : TransactionObservation} {t : WatchTarget}
variable {k : OutpointKey} {n : ℕ}

/-- a timely transaction gives descent to its own outputs only, and takes it from what was known before -/
theorem descends_timely (hown : tx.SpendsNoOwnOutput) (hspent : ∀ k ∈ tx.spendable, Unspent passes k)
    (h : Descends (passes ++ [(e, tx)]) t k n) :
    Descends passes t k n ∨
      (k ∈ tx.spendable ∧ ∃ i ∈ tx.inputs,
        (n = 1 ∧ t ∈ watching e.outpointIndex i.key) ∨ ∃ n', n = n' + 1 ∧ Descends passes t i.key n') := by
  induction h with
  | spent hpass hi ht hk =>
    rcases List.mem_append.1 hpass with hold | hnew
    · exact Or.inl (.spent hold hi ht hk)
    · cases List.mem_singleton.1 hnew
      exact Or.inr ⟨hk, _, hi, Or.inl ⟨rfl, ht⟩⟩
  | onward hpass hi _ hk ih =>
    rcases List.mem_append.1 hpass with hold | hnew
    · rcases ih with hbefore | ⟨hmine, -⟩
      · exact Or.inl (.onward hold hi hbefore hk)
      · -- an earlier pass would have spent an output of this transaction
        exact absurd rfl (hspent _ hmine _ hold _ hi)
    · cases List.mem_singleton.1 hnew
      rcases ih with hbefore | ⟨hmine, -⟩
      · exact Or.inr ⟨hk, _, hi, Or.inr ⟨_, rfl, hbefore⟩⟩
      · exact absurd hmine (hown _ hi)

/-- a repeated transaction gives no descent that was not there -/
theorem descends_repeated {p : Descent.Pass} (hp : p ∈ passes) (hindex : p.1.outpointIndex = e.outpointIndex)
    (hinputs : p.2.inputs.map TxInputObservation.key = tx.inputs.map TxInputObservation.key)
    (houtputs : p.2.spendable = tx.spendable) (h : Descends (passes ++ [(e, tx)]) t k n) : Descends passes t k n := by
  have hinput : ∀ {i : TxInputObservation}, i ∈ tx.inputs → ∃ j ∈ p.2.inputs, j.key = i.key := by
    intro i hi
    have hkey : i.key ∈ p.2.inputs.map TxInputObservation.key := by
      rw [hinputs]
      exact List.mem_map_of_mem hi
    exact List.mem_map.1 hkey
  induction h with
  | spent hpass hi ht hk =>
    rcases List.mem_append.1 hpass with hold | hnew
    · exact .spent hold hi ht hk
    · cases List.mem_singleton.1 hnew
      obtain ⟨j, hj, hkey⟩ := hinput hi
      rw [← hkey, ← hindex] at ht
      rw [← houtputs] at hk
      exact .spent hp hj ht hk
  | onward hpass hi _ hk ih =>
    rcases List.mem_append.1 hpass with hold | hnew
    · exact .onward hold hi ih hk
    · cases List.mem_singleton.1 hnew
      obtain ⟨j, hj, hkey⟩ := hinput hi
      rw [← hkey] at ih
      rw [← houtputs] at hk
      exact .onward hp hj ih hk

end Descent

/-! ## Covered descents -/

/-- an unspent output has a record of every incident it descends from, no deeper than the descent -/
def Covered (s : Followed) : Prop :=
  ∀ k, Unspent s.passes k → ∀ t, ∀ n ≤ (s.engine.maxDescendantDepth : ℕ), Descends s.passes t k n →
    ∃ d, s.engine.descendants.get k = some d ∧ d.incidentId = t.incidentId ∧ d.depth ≤ n

/-- the targets have not changed -/
def Steady (s : Followed) : Prop := ∀ p ∈ s.passes, p.1.outpointIndex = s.engine.outpointIndex

section Covered

variable {s : Followed} {o : Observed}

theorem Steady.observeOne (h : Steady s) (o : Observed) : Steady (observeOne s o) := by
  intro p hp
  rw [passes_observeOne] at hp
  rcases List.mem_append.1 hp with hold | hnew
  · exact h p hold
  · rw [List.mem_singleton.1 hnew]
    rfl

/-- what was covered stays covered -/
theorem Covered.kept {k : OutpointKey} {t : WatchTarget} {n : ℕ} (h : Covered s) (hreg : Regular s o)
    (hc : Compatible s o) (hunspent : Unspent (MergedFunds.observeOne s o).passes k)
    (hn : n ≤ (s.engine.maxDescendantDepth : ℕ)) (hd : Descends s.passes t k n) :
    ∃ d, (MergedFunds.observeOne s o).engine.descendants.get k = some d ∧ d.incidentId = t.incidentId ∧ d.depth ≤ n := by
  have hbefore := (unspent_observeOne hunspent).1
  obtain ⟨d, hget, hincident, hdepth⟩ := h k hbefore t n hn hd
  rw [observeOne_get hreg hunspent]
  split_ifs with hk
  · have hmem : d ∈ written s o.tx k := by
      rw [written, hget]
      exact List.mem_append_left _ List.mem_cons_self
    obtain ⟨d', hlast, hkeeps⟩ := keeps_last (hc.kept k hk hbefore) hmem
    exact ⟨d', hlast, hkeeps.1.trans hincident, hkeeps.2.trans hdepth⟩
  · exact ⟨d, hget, hincident, hdepth⟩

/-- what is enrolled is covered -/
theorem Covered.enrolled {k : OutpointKey} {d : TrackedDescendantOutpoint} (hreg : Regular s o) (hc : Compatible s o)
    (hunspent : Unspent (MergedFunds.observeOne s o).passes k) (hk : k ∈ o.tx.spendable)
    (hd : d ∈ MergedFunds.enrolled s.engine s.engine.descendants o.tx.inputs) :
    ∃ d', (MergedFunds.observeOne s o).engine.descendants.get k = some d' ∧ d'.incidentId = d.incidentId ∧
      d'.depth ≤ d.depth := by
  have hbefore := (unspent_observeOne hunspent).1
  rw [observeOne_get hreg hunspent, if_pos hk]
  exact keeps_last (hc.kept k hk hbefore) (List.mem_append_right _ hd)

/-- **One pass.** -/
theorem Covered.observeOne (h : Covered s) (hsteady : Steady s) (hreg : Regular s o) (hc : Compatible s o) :
    Covered (observeOne s o) := by
  intro k hunspent t n hn hd
  rcases hc.ordered with ⟨p, hp, hinputs, houtputs⟩ | ⟨hspent, hinput⟩
  · exact h.kept hreg hc hunspent hn (descends_repeated hp (hsteady p hp) hinputs houtputs hd)
  · rcases descends_timely hreg.1 hspent hd with hold | ⟨hk, i, hi, ⟨rfl, ht⟩ | ⟨n', rfl, hparent⟩⟩
    · exact h.kept hreg hc hunspent hn hold
    · exact Covered.enrolled hreg hc hunspent hk (firstLayer_mem_enrolled hi ht)
    · -- the input is unspent, so its record is there, and enrols the next generation
      have hn' : n' < (s.engine.maxDescendantDepth : ℕ) := hn
      have hi' := hinput i hi ⟨t, n', hn'.le, hparent⟩
      obtain ⟨d, hget, hincident, hdepth⟩ := h i.key hi' t n' hn'.le hparent
      have hmem := nextLayer_mem_enrolled hi hget (hdepth.trans_lt hn')
      obtain ⟨d', hget', hincident', hdepth'⟩ := Covered.enrolled hreg hc hunspent hk hmem
      exact ⟨d', hget', hincident'.trans hincident, hdepth'.trans (Nat.succ_le_succ hdepth)⟩

/-- a tracked outpoint is reported for the incident of its record -/
theorem reports_of_tracked {k : OutpointKey} {d : TrackedDescendantOutpoint} (hget : s.engine.descendants.get k = some d)
    (hspends : ∃ i ∈ o.tx.inputs, i.key = k) (hown : o.tx.SpendsNoOwnOutput) (hroom : NoEviction s o.tx) :
    Reports s.engine o d.incidentId := by
  intro stamp
  obtain ⟨i, hi, rfl⟩ := hspends
  obtain ⟨j, -, hmem⟩ := processInputs_reported o.blockHeight o.blockHash 0 hown (n := 0)
    (by simpa [NoEviction] using hroom) hi hget
  have hreport : s.engine.descendantReport o.tx o.blockHeight o.blockHash j d ∈
      (s.engine.observe o.tx o.blockHeight o.blockHash).2 := by
    simp only [observe, List.mem_append]
    exact Or.inl (Or.inr hmem)
  rw [← map_unsealed_mapIdx stamp (s.engine.observe o.tx o.blockHeight o.blockHash).2] at hreport
  obtain ⟨r, hr, heq⟩ := List.mem_map.1 hreport
  refine ⟨r, hr, ?_, ?_⟩
  · exact congrArg (fun report : Report => report.1.activityType) heq
  · exact congrArg (fun report : Report => report.1.incidentId) heq

theorem Covered.noIncidentLost (h : Covered s) : NoIncidentLost s := by
  intro k t t' hunspent ⟨n, hn, hd⟩ ⟨n', hn', hd'⟩ _ o hspends hown hroom
  obtain ⟨d, hget, hincident, -⟩ := h k hunspent t n hn hd
  obtain ⟨d', hget', hincident', -⟩ := h k hunspent t' n' hn' hd'
  rw [← hincident, ← hincident']
  exact ⟨reports_of_tracked hget hspends hown hroom, reports_of_tracked hget' hspends hown hroom⟩

end Covered

/-! ## Merged incidents -/

section Merge

variable {s : Followed} {o : Observed} {k : OutpointKey}

/-- what is enrolled at an output is its descent -/
theorem enrolled_followable (htraced : s.Traced) (hk : k ∈ o.tx.spendable) {d : TrackedDescendantOutpoint}
    (hd : d ∈ enrolled s.engine s.engine.descendants o.tx.inputs) :
    ∃ t, Followable (observeOne s o) t k ∧ t.incidentId = d.incidentId := by
  have hpass : (s.engine, o.tx) ∈ (observeOne s o).passes := List.mem_append_right _ List.mem_cons_self
  rcases enrolled_cases hd with ⟨i, hi, t, ht, rfl⟩ | ⟨i, hi, d', hget, hdepth, rfl⟩
  · exact ⟨t, ⟨1, s.engine.maxDescendantDepth.2.1, .spent hpass hi ht hk⟩, rfl⟩
  · obtain ⟨t, n, hdescends, rfl⟩ := htraced i.key d' hget
    have hsub : s.passes ⊆ (observeOne s o).passes := List.subset_append_left _ _
    exact ⟨t, ⟨n + 1, hdepth, .onward hpass hi (hdescends.mono hsub) hk⟩, rfl⟩

/-- a transaction that spends one outpoint only reports the record of that outpoint -/
theorem tracked_of_reports {e : IncidentWatchEngine} {spender txid : String} {vout : ℕ} {incidentId : Uuid}
    (h : Reports e ⟨Watch.probe spender txid vout, none, none⟩ incidentId) :
    ∃ d, e.descendants.get (outpointKey txid vout) = some d ∧ d.incidentId = incidentId := by
  obtain ⟨r, hr, htype, hincident⟩ := h someStamp
  have hreport : unsealed r ∈ (e.observe (Watch.probe spender txid vout) none none).2 := by
    rw [← map_unsealed_mapIdx someStamp (e.observe (Watch.probe spender txid vout) none none).2]
    exact List.mem_map_of_mem hr
  have hdescendant : isDirect (unsealed r) = false := by
    have htype' : (unsealed r).1.activityType = .newDescendantObserved := htype
    simp [isDirect, htype']
  have hown : (Watch.probe spender txid vout).SpendsNoOwnOutput := fun _ _ => List.not_mem_nil
  obtain ⟨i, hi, d, hget, heq⟩ := observe_sound hown hreport hdescendant
  rw [List.mem_singleton.1 hi] at hget
  refine ⟨d, hget, ?_⟩
  calc d.incidentId = (unsealed r).1.incidentId := by rw [heq]; rfl
    _ = incidentId := hincident

/-- **A merge loses an incident.** -/
theorem merge_loses (htraced : s.Traced) (hreg : Regular s o) (hk : k ∈ o.tx.spendable)
    (hunspent : Unspent (observeOne s o).passes k) {d d' : TrackedDescendantOutpoint}
    (hd : d ∈ enrolled s.engine s.engine.descendants o.tx.inputs)
    (hd' : d' ∈ enrolled s.engine s.engine.descendants o.tx.inputs) (hne : d.incidentId ≠ d'.incidentId) :
    ¬ NoIncidentLost (observeOne s o) := by
  intro hlost
  obtain ⟨t, ht, hincident⟩ := enrolled_followable htraced hk hd
  obtain ⟨t', ht', hincident'⟩ := enrolled_followable htraced hk hd'
  rw [← hincident, ← hincident'] at hne
  obtain ⟨output, -, rfl⟩ := List.mem_map.1 hk
  -- a transaction that spends this output and nothing else is reported for one incident
  have hroom : NoEviction (observeOne s o) (Watch.probe o.tx.txid o.tx.txid output.2) := observeOne_room hreg
  obtain ⟨hreports, hreports'⟩ := hlost _ t t' hunspent ht ht' (Or.inl hne)
    ⟨Watch.probe o.tx.txid o.tx.txid output.2, none, none⟩
    ⟨Watch.spending o.tx.txid output.2, List.mem_singleton_self _, rfl⟩ (fun _ _ => List.not_mem_nil) hroom
  obtain ⟨r, hget, hr⟩ := tracked_of_reports hreports
  obtain ⟨r', hget', hr'⟩ := tracked_of_reports hreports'
  have hsame : r = r' := Option.some.inj (hget.symm.trans hget')
  exact hne (hr.symm.trans ((congrArg (fun x => x.incidentId) hsame).trans hr'))

end Merge

/-- **No incident loses a descendant, where what is written keeps what it overwrites.** In every run of transactions that
evicts nothing: if every pass is compatible, an unspent output that descends from two targets is reported for both of
their incidents, in every state of the run. After a pass that enrols an unspent output for two incidents it is not. -/
theorem no_incident_lost (e : IncidentWatchEngine) (os : List Observed)
    (hreg : Steps observeOne Regular ⟨e, []⟩ os) :
    (Steps observeOne Compatible ⟨e, []⟩ os → Always observeOne NoIncidentLost ⟨e, []⟩ os) ∧
      ((∀ k, e.descendants.get k = none) → ∀ o, Regular (run observeOne ⟨e, []⟩ os) o → ∀ k ∈ o.tx.spendable,
        Unspent (observeOne (run observeOne ⟨e, []⟩ os) o).passes k →
        (∃ d ∈ enrolled (run observeOne ⟨e, []⟩ os).engine (run observeOne ⟨e, []⟩ os).engine.descendants o.tx.inputs,
          ∃ d' ∈ enrolled (run observeOne ⟨e, []⟩ os).engine (run observeOne ⟨e, []⟩ os).engine.descendants o.tx.inputs,
            d.incidentId ≠ d'.incidentId) →
        ¬ NoIncidentLost (observeOne (run observeOne ⟨e, []⟩ os) o)) := by
  constructor
  · intro hcompatible
    have hstart : Covered ⟨e, []⟩ ∧ Steady ⟨e, []⟩ := by
      refine ⟨fun k _ t n _ hd => ?_, fun p hp => ?_⟩
      · cases hd with
        | spent hpass _ _ _ => cases hpass
        | onward hpass _ _ _ => cases hpass
      · cases hp
    refine always_inv (I := fun s => Covered s ∧ Steady s) (C := fun s o => Regular s o ∧ Compatible s o) ?_ ?_ hstart
      (steps_and hreg hcompatible)
    · rintro s o ⟨hcovered, hsteady⟩ ⟨hr, hc⟩
      exact ⟨hcovered.observeOne hsteady hr hc, hsteady.observeOne o⟩
    · rintro s ⟨hcovered, -⟩
      exact hcovered.noIncidentLost
  · rintro hnew o ho k hk hunspent ⟨d, hd, d', hd', hne⟩
    have hstart : Followed.Traced ⟨e, []⟩ := by
      intro k d hget
      have hnone := hnew k
      rw [show e.descendants.get k = some d from hget] at hnone
      cases hnone
    have hstep : ∀ (s : Followed) (o : Observed), s.Traced → (observeOne s o).Traced := fun _ _ h => h.operate _
    exact merge_loses (run_inv_all hstep os hstart) ho hk hunspent hd hd' hne

/-! ## Two cases, one transaction -/

/-- an outpoint of another case -/
def otherCase : WatchTarget where
  id := 0x91a2b3c4d5e6f708192a3b4c5d6e7f80
  incidentId := 0x5d6c7b8a99887766554433221100ffee
  caseId := "OC-TEST-002"
  kind := .outPoint "tx101" 0
  classification := .officiallyAttributed
  evidenceId := none
  label := none
  active := true

/-- another outpoint of the same case -/
def sameCase : WatchTarget :=
  { otherCase with incidentId := watchedOutpoint.incidentId, caseId := watchedOutpoint.caseId }

/-- both outpoints are spent together -/
def consolidation : Observed :=
  ⟨{ theft with inputs := theft.inputs ++ [⟨"tx101", 0, 0xffffffff, some 50000000, none, false, none⟩] }, none, none⟩

instance : DecidableRel Keeps := fun _ _ => inferInstanceAs (Decidable (_ ∧ _))

instance (passes : List Descent.Pass) (k : OutpointKey) : Decidable (Unspent passes k) := by
  unfold Unspent
  infer_instance

instance (s : Followed) (o : Observed) : Decidable (Regular s o) := by
  unfold Regular NoEviction
  infer_instance

/-- the outpoints of one case may be spent together: the funds stay with it when they move on -/
theorem no_incident_lost_sameCase :
    Always observeOne NoIncidentLost ⟨watchingEngine.addTarget sameCase, []⟩ [consolidation, ⟨onward, none, none⟩] := by
  have hreg : Steps observeOne Regular ⟨watchingEngine.addTarget sameCase, []⟩
      [consolidation, ⟨onward, none, none⟩] := by
    decide +kernel
  refine (no_incident_lost _ _ hreg).1 ⟨⟨?_, Or.inr ⟨?_, ?_⟩⟩, ⟨?_, Or.inr ⟨?_, ?_⟩⟩, trivial⟩
  · decide +kernel
  · decide +kernel
  · intro i hi _ p hp
    cases hp
  · decide +kernel
  · decide +kernel
  · have hunspent : ∀ i ∈ onward.inputs,
        Unspent (observeOne ⟨watchingEngine.addTarget sameCase, []⟩ consolidation).passes i.key := by
      decide +kernel
    exact fun i hi _ => hunspent i hi

/-- the engine has seen the outpoints of two cases spent together -/
def mergedState : Followed := run observeOne ⟨watchingEngine.addTarget otherCase, []⟩ [consolidation]

/-- **The first case loses the output.** It descends from the outpoints of both cases; when it is spent, the second case
alone is told. -/
theorem merge_loses_incident :
    Steps observeOne Regular ⟨watchingEngine.addTarget otherCase, []⟩ [consolidation] ∧
      (processTransaction someStamp mergedState.engine onward none none).2.map
          (fun r => (r.1.activityType, r.1.incidentId)) = [(.newDescendantObserved, otherCase.incidentId)] ∧
      ¬ NoIncidentLost mergedState := by
  have hreg : Steps observeOne Regular ⟨watchingEngine.addTarget otherCase, []⟩ [consolidation] := by
    decide +kernel
  refine ⟨hreg, by decide +kernel, ?_⟩
  have htraced : Followed.Traced ⟨watchingEngine.addTarget otherCase, []⟩ := by
    intro k d hget
    cases hget
  have hfirst : firstLayer watchedOutpoint ∈ enrolled (watchingEngine.addTarget otherCase)
      (watchingEngine.addTarget otherCase).descendants consolidation.tx.inputs := by
    decide +kernel
  have hsecond : firstLayer otherCase ∈ enrolled (watchingEngine.addTarget otherCase)
      (watchingEngine.addTarget otherCase).descendants consolidation.tx.inputs := by
    decide +kernel
  exact merge_loses (k := ("tx002", 0)) htraced hreg.1 (by decide +kernel) (by decide +kernel) hfirst hsecond
    (by decide)

end ObsChain.MergedFunds
