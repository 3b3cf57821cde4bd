/-
One pass of an observed transaction over the watch engine.

Direct matches and descendants are told apart by their activity type.
- `observe_direct`: the direct reports are read off the indices; the tracking plays no part in them.
- `observe_sound`: a descendant that is reported was tracked before the pass.
- `observe_spent`: after the pass none of the inputs is tracked.

The last two are about a transaction that spends none of its own outputs: the keys the pass inserts are then none of
the keys it looks up.
-/
import Mathlib.Tactic
import ObsChain.Core.BoundedMap
import ObsChain.Watch.Engine

namespace ObsChain

/-- no input spends an output of the transaction itself -/
def TransactionObservation.SpendsNoOwnOutput (tx : TransactionObservation) : Prop :=
  ∀ i ∈ tx.inputs, i.key ∉ tx.spendable

instance (tx : TransactionObservation) : Decidable tx.SpendsNoOwnOutput := inferInstanceAs (Decidable (∀ _ ∈ _, _))

namespace IncidentWatchEngine

variable {e : IncidentWatchEngine} {tx : TransactionObservation} {blockHeight : Option ℕ} {blockHash : Option String}
variable {t : Tracking} {k : OutpointKey} {d : TrackedDescendantOutpoint}

/-- no input is a tracked descendant -/
def Untracked (e : IncidentWatchEngine) (tx : TransactionObservation) : Prop :=
  ∀ i ∈ tx.inputs, e.descendants.get i.key = none

instance (e : IncidentWatchEngine) (tx : TransactionObservation) : Decidable (Untracked e tx) :=
  inferInstanceAs (Decidable (∀ _ ∈ _, _))

/-! ## Direct matches -/

/-- the direct matches of the inputs from the `vin`-th on -/
def inputMatches (e : IncidentWatchEngine) (tx : TransactionObservation) (vin : ℕ) (inputs : List TxInputObservation) :
    List Match :=
  (inputs.zipIdx vin).flatMap fun i => e.outpointMatches tx i.2 i.1 ++ e.addressSpentMatches tx i.2 i.1

/-- the direct matches that a later pass should confirm -/
def spendAndReceiveMatches (e : IncidentWatchEngine) (tx : TransactionObservation) : List Match :=
  e.inputMatches tx 0 tx.inputs ++ tx.outputs.zipIdx.flatMap fun o => e.outputMatches tx o.2 o.1

def directMatches (e : IncidentWatchEngine) (tx : TransactionObservation) (blockHeight : Option ℕ) : List Match :=
  e.txidMatches tx blockHeight ++ e.spendAndReceiveMatches tx

def isDirect (r : Report) : Bool := r.1.activityType != .newDescendantObserved

/-- reports of matches none of which is a descendant are all direct -/
theorem filter_isDirect_map {ms : List Match} (h : ∀ m ∈ ms, m.activityType ≠ .newDescendantObserved) :
    (ms.map (e.targetReport tx blockHeight blockHash)).filter isDirect =
      ms.map (e.targetReport tx blockHeight blockHash) := by
  apply List.filter_eq_self.2
  intro r hr
  obtain ⟨m, hm, rfl⟩ := List.mem_map.1 hr
  exact bne_iff_ne.2 (h m hm)

theorem txidMatches_type {m : Match} (h : m ∈ e.txidMatches tx blockHeight) :
    m.activityType = .watchedTransactionConfirmed ∨ m.activityType = .watchedTransactionObserved := by
  obtain ⟨target, -, rfl⟩ := List.mem_map.1 h
  cases blockHeight with
  | none => exact Or.inr rfl
  | some _ => exact Or.inl rfl

theorem outpointMatches_type {vin : ℕ} {i : TxInputObservation} {m : Match} (h : m ∈ e.outpointMatches tx vin i) :
    m.activityType = .watchedOutpointSpent := by
  obtain ⟨target, -, rfl⟩ := List.mem_map.1 h
  rfl

theorem addressSpentMatches_type {vin : ℕ} {i : TxInputObservation} {m : Match}
    (h : m ∈ e.addressSpentMatches tx vin i) : m.activityType = .watchedAddressSpent := by
  unfold addressSpentMatches at h
  cases ha : i.prevOutAddress with
  | none => simp [ha] at h
  | some addr =>
    rw [ha] at h
    obtain ⟨target, -, rfl⟩ := List.mem_map.1 h
    rfl

theorem outputMatches_type {vout : ℕ} {o : TxOutputObservation} {m : Match} (h : m ∈ e.outputMatches tx vout o) :
    m.activityType = .watchedScriptReceived ∨ m.activityType = .watchedAddressReceived := by
  unfold outputMatches at h
  rcases List.mem_append.1 h with hs | ha
  · cases hhex : o.scriptpubkeyHex with
    | none => simp [hhex] at hs
    | some scriptHex =>
      rw [hhex] at hs
      obtain ⟨target, -, rfl⟩ := List.mem_map.1 hs
      exact Or.inl rfl
  · cases haddr : o.address with
    | none => simp [haddr] at ha
    | some addr =>
      rw [haddr] at ha
      obtain ⟨target, -, rfl⟩ := List.mem_map.1 ha
      exact Or.inr rfl

/-- no direct match is of a descendant -/
theorem directMatches_type {m : Match} (h : m ∈ e.directMatches tx blockHeight) :
    m.activityType ≠ .newDescendantObserved := by
  simp only [directMatches, spendAndReceiveMatches, inputMatches, List.mem_append, List.mem_flatMap] at h
  rcases h with htxid | ⟨i, -, houtpoint | haddress⟩ | ⟨o, -, houtput⟩
  · rcases txidMatches_type htxid with heq | heq <;> simp [heq]
  · simp [outpointMatches_type houtpoint]
  · simp [addressSpentMatches_type haddress]
  · rcases outputMatches_type houtput with heq | heq <;> simp [heq]

/-- a tracked descendant's reports are not direct -/
theorem filter_isDirect_spendDescendant (i : TxInputObservation) :
    (e.spendDescendant tx blockHeight blockHash t i).2.filter isDirect = [] := by
  unfold spendDescendant
  cases t.get i.key with
  | none => rfl
  | some d => rfl

theorem filter_isDirect_processInput (vin : ℕ) (i : TxInputObservation) :
    (e.processInput tx blockHeight blockHash t vin i).2.filter isDirect =
      (e.outpointMatches tx vin i ++ e.addressSpentMatches tx vin i).map (e.targetReport tx blockHeight blockHash) := by
  have houtpoint : ∀ m ∈ e.outpointMatches tx vin i, m.activityType ≠ .newDescendantObserved := by
    intro m hm
    simp [outpointMatches_type hm]
  have haddress : ∀ m ∈ e.addressSpentMatches tx vin i, m.activityType ≠ .newDescendantObserved := by
    intro m hm
    simp [addressSpentMatches_type hm]
  simp only [processInput, spendOutpoint, List.filter_append, filter_isDirect_map houtpoint,
    filter_isDirect_map haddress, filter_isDirect_spendDescendant, List.append_nil, List.map_append]

/-- the direct reports of the inputs do not depend on the tracking -/
theorem filter_isDirect_processInputs (t : Tracking) (vin : ℕ) (inputs : List TxInputObservation) :
    (e.processInputs tx blockHeight blockHash t vin inputs).2.filter isDirect =
      (e.inputMatches tx vin inputs).map (e.targetReport tx blockHeight blockHash) := by
  induction inputs generalizing t vin with
  | nil => rfl
  | cons i inputs ih =>
    simp only [processInputs, List.filter_append, filter_isDirect_processInput, ih, inputMatches, List.zipIdx_cons,
      List.flatMap_cons, List.map_append]

/-- **Direct matching reads the indices only.** -/
theorem observe_direct (e : IncidentWatchEngine) (tx : TransactionObservation) (blockHeight : Option ℕ)
    (blockHash : Option String) :
    (e.observe tx blockHeight blockHash).2.filter isDirect =
      (e.directMatches tx blockHeight).map (e.targetReport tx blockHeight blockHash) := by
  have htxid : ∀ m ∈ e.txidMatches tx blockHeight, m.activityType ≠ .newDescendantObserved :=
    fun m hm => directMatches_type (List.mem_append_left _ hm)
  have houtput : ∀ m ∈ tx.outputs.zipIdx.flatMap fun o => e.outputMatches tx o.2 o.1,
      m.activityType ≠ .newDescendantObserved :=
    fun m hm => directMatches_type (List.mem_append_right (e.txidMatches tx blockHeight) (List.mem_append_right _ hm))
  simp only [observe, directMatches, spendAndReceiveMatches, List.filter_append, filter_isDirect_map htxid,
    filter_isDirect_map houtput, filter_isDirect_processInputs, List.map_append, List.append_assoc]

/-- the indices do not change, so neither do the matches -/
theorem spendAndReceiveMatches_tracking (t : Tracking) :
    ({ e with descendants := t } : IncidentWatchEngine).spendAndReceiveMatches tx = e.spendAndReceiveMatches tx := rfl

/-- what a pass reports and is not direct comes from its inputs -/
theorem mem_processInputs_of_mem_observe {r : Report} (hr : r ∈ (e.observe tx blockHeight blockHash).2)
    (hd : isDirect r = false) : r ∈ (e.processInputs tx blockHeight blockHash e.descendants 0 tx.inputs).2 := by
  simp only [observe, List.mem_append] at hr
  rcases hr with (htxid | hspend) | hreceive
  · obtain ⟨m, hm, rfl⟩ := List.mem_map.1 htxid
    have hne := directMatches_type (List.mem_append_left (e.spendAndReceiveMatches tx) hm)
    simp [isDirect, targetReport, hne] at hd
  · exact hspend
  · obtain ⟨m, hm, rfl⟩ := List.mem_map.1 hreceive
    have hne := directMatches_type (List.mem_append_right (e.txidMatches tx blockHeight) (List.mem_append_right _ hm))
    simp [isDirect, targetReport, hne] at hd

/-! ## The tracking: where records come from -/

/-- a descendant's report names the input, and the record it was tracked under -/
theorem mem_processInput {vin : ℕ} {i : TxInputObservation} {r : Report}
    (hr : r ∈ (e.processInput tx blockHeight blockHash t vin i).2) (hd : isDirect r = false) :
    ∃ d, (e.spendOutpoint tx blockHeight blockHash t vin i).1.get i.key = some d ∧
      r = e.descendantReport tx blockHeight blockHash i d := by
  simp only [processInput, List.mem_append] at hr
  rcases hr with (houtpoint | hdescendant) | haddress
  · obtain ⟨m, hm, rfl⟩ := List.mem_map.1 houtpoint
    simp [isDirect, targetReport, outpointMatches_type hm] at hd
  · unfold spendDescendant at hdescendant
    cases hget : (e.spendOutpoint tx blockHeight blockHash t vin i).1.get i.key with
    | none => simp [hget] at hdescendant
    | some d =>
      simp only [hget] at hdescendant
      exact ⟨d, rfl, List.mem_singleton.1 hdescendant⟩
  · obtain ⟨m, hm, rfl⟩ := List.mem_map.1 haddress
    simp [isDirect, targetReport, addressSpentMatches_type hm] at hd

section Records

variable {Q : OutpointKey → TrackedDescendantOutpoint → Prop}

/-- every tracked record meets `Q` -/
def Records (Q : OutpointKey → TrackedDescendantOutpoint → Prop) (t : Tracking) : Prop :=
  ∀ k d, t.get k = some d → Q k d

theorem Records.enrollDescendants (ht : Records Q t) (hd : ∀ k ∈ tx.spendable, Q k d) :
    Records Q (e.enrollDescendants tx t d) := by
  intro k d' hget
  unfold IncidentWatchEngine.enrollDescendants at hget
  split_ifs at hget with hdeep
  · exact ht k d' hget
  · rcases BoundedMap.get_insertAll_cases hget with ⟨hk, rfl⟩ | hbefore
    · exact hd k hk
    · exact ht k d' hbefore

theorem Records.spendOutpoint {vin : ℕ} {i : TxInputObservation} (ht : Records Q t)
    (hfirst : ∀ target ∈ watching e.outpointIndex i.key, ∀ k ∈ tx.spendable, Q k (firstLayer target)) :
    Records Q (e.spendOutpoint tx blockHeight blockHash t vin i).1 := by
  have hfound : ∀ m ∈ e.outpointMatches tx vin i, ∀ k ∈ tx.spendable, Q k (firstLayer m.target) := by
    intro m hm
    obtain ⟨target, htarget, rfl⟩ := List.mem_map.1 hm
    exact hfirst target htarget
  unfold IncidentWatchEngine.spendOutpoint
  generalize e.outpointMatches tx vin i = found at hfound
  induction found generalizing t with
  | nil => exact ht
  | cons m found ih =>
    apply ih
    · exact ht.enrollDescendants (hfound m List.mem_cons_self)
    · exact fun m' hm' => hfound m' (List.mem_cons_of_mem m hm')

theorem Records.spendDescendant {i : TxInputObservation} (ht : Records Q t)
    (hnext : ∀ d, Q i.key d → ∀ k ∈ tx.spendable, Q k { d with depth := d.depth + 1 }) :
    Records Q (e.spendDescendant tx blockHeight blockHash t i).1 := by
  unfold IncidentWatchEngine.spendDescendant
  cases hd : t.get i.key with
  | none => exact ht
  | some d =>
    have hrem : Records Q (t.remove i.key) := fun k d' hget => ht k d' (BoundedMap.get_of_get_remove hget)
    dsimp only
    split_ifs with hdepth
    · exact hrem.enrollDescendants (hnext d (ht i.key d hd))
    · exact hrem

/-- **A pass keeps what its enrolments keep**, and the descendants it reports had it. -/
theorem Records.processInputs {vin : ℕ} {inputs : List TxInputObservation} (ht : Records Q t)
    (hfirst : ∀ i ∈ inputs, ∀ target ∈ watching e.outpointIndex i.key, ∀ k ∈ tx.spendable, Q k (firstLayer target))
    (hnext : ∀ i ∈ inputs, ∀ d, Q i.key d → ∀ k ∈ tx.spendable, Q k { d with depth := d.depth + 1 }) :
    Records Q (e.processInputs tx blockHeight blockHash t vin inputs).1 ∧
      ∀ r ∈ (e.processInputs tx blockHeight blockHash t vin inputs).2, isDirect r = false →
        ∃ i ∈ inputs, ∃ d, Q i.key d ∧ r = e.descendantReport tx blockHeight blockHash i d := by
  induction inputs generalizing t vin with
  | nil => exact ⟨ht, fun r hr => by cases hr⟩
  | cons i inputs ih =>
    have houtpoint : Records Q (e.spendOutpoint tx blockHeight blockHash t vin i).1 :=
      ht.spendOutpoint (hfirst i List.mem_cons_self)
    have hinput : Records Q (e.processInput tx blockHeight blockHash t vin i).1 :=
      houtpoint.spendDescendant (hnext i List.mem_cons_self)
    obtain ⟨hrest, hreports⟩ := ih hinput (fun j hj => hfirst j (List.mem_cons_of_mem i hj))
      (fun j hj => hnext j (List.mem_cons_of_mem i hj))
    refine ⟨hrest, fun r hr hd => ?_⟩
    rcases List.mem_append.1 hr with hhead | htail
    · obtain ⟨d, hget, rfl⟩ := mem_processInput hhead hd
      exact ⟨i, List.mem_cons_self, d, houtpoint i.key d hget, rfl⟩
    · obtain ⟨j, hj, d, hq, rfl⟩ := hreports r htail hd
      exact ⟨j, List.mem_cons_of_mem i hj, d, hq, rfl⟩

/-- what the enrolments of a transaction keep -/
structure Closed (Q : OutpointKey → TrackedDescendantOutpoint → Prop) (e : IncidentWatchEngine)
    (tx : TransactionObservation) : Prop where
  first : ∀ i ∈ tx.inputs, ∀ target ∈ watching e.outpointIndex i.key, ∀ k ∈ tx.spendable, Q k (firstLayer target)
  next : ∀ i ∈ tx.inputs, ∀ d, Q i.key d → ∀ k ∈ tx.spendable, Q k { d with depth := d.depth + 1 }

/-- the transaction a call observes -/
def Call.observed : Call → Option TransactionObservation
  | .transaction tx _ _ => some tx
  | .replacement _ | .block _ => none

/-- **What every enrolment keeps, a call keeps.** -/
theorem Records.step {c : Call} (ht : Records Q e.descendants) (hclosed : ∀ tx ∈ c.observed, Closed Q e tx) :
    Records Q (e.step c).descendants := by
  cases c with
  | transaction tx h hash =>
    have htx := hclosed tx rfl
    exact (ht.processInputs htx.first htx.next).1
  | replacement repl => exact ht
  | block block => exact ht

/-- **Reported descendants have it.** -/
theorem Records.reported (ht : Records Q e.descendants) (hclosed : Closed Q e tx) {r : Report}
    (hr : r ∈ (e.observe tx blockHeight blockHash).2) (hd : isDirect r = false) :
    ∃ i ∈ tx.inputs, ∃ d, Q i.key d ∧ r = e.descendantReport tx blockHeight blockHash i d :=
  (ht.processInputs hclosed.first hclosed.next).2 r (mem_processInputs_of_mem_observe hr hd) hd

end Records

/-! ## The tracking: nothing foreign is added -/

theorem get_of_get_enrollDescendants {v : TrackedDescendantOutpoint} (hk : k ∉ tx.spendable)
    (h : (e.enrollDescendants tx t d).get k = some v) : t.get k = some v := by
  unfold enrollDescendants at h
  split_ifs at h with hdeep
  · exact h
  · exact BoundedMap.get_of_get_insertAll hk h

theorem get_of_get_spendOutpoint {vin : ℕ} {i : TxInputObservation} (hk : k ∉ tx.spendable)
    (h : (e.spendOutpoint tx blockHeight blockHash t vin i).1.get k = some d) : t.get k = some d := by
  unfold spendOutpoint at h
  generalize e.outpointMatches tx vin i = found at h
  induction found generalizing t with
  | nil => exact h
  | cons m found ih => exact get_of_get_enrollDescendants hk (ih h)

theorem get_of_get_spendDescendant {i : TxInputObservation} (hk : k ∉ tx.spendable)
    (h : (e.spendDescendant tx blockHeight blockHash t i).1.get k = some d) : t.get k = some d := by
  unfold spendDescendant at h
  cases hd : t.get i.key with
  | none => simpa [hd] using h
  | some d' =>
    simp only [hd] at h
    split_ifs at h with hdepth
    · exact BoundedMap.get_of_get_remove (get_of_get_enrollDescendants hk h)
    · exact BoundedMap.get_of_get_remove h

theorem get_of_get_processInput {vin : ℕ} {i : TxInputObservation} (hk : k ∉ tx.spendable)
    (h : (e.processInput tx blockHeight blockHash t vin i).1.get k = some d) : t.get k = some d :=
  get_of_get_spendOutpoint hk (get_of_get_spendDescendant hk h)

/-- a foreign outpoint that is tracked after the inputs was tracked before them, with the same record -/
theorem get_of_get_processInputs {vin : ℕ} {inputs : List TxInputObservation} (hk : k ∉ tx.spendable)
    (h : (e.processInputs tx blockHeight blockHash t vin inputs).1.get k = some d) : t.get k = some d := by
  induction inputs generalizing t vin with
  | nil => exact h
  | cons i inputs ih => exact get_of_get_processInput hk (ih h)

/-- a foreign outpoint that is not tracked before the inputs is not tracked after them -/
theorem get_processInputs_eq_none {vin : ℕ} {inputs : List TxInputObservation} (hk : k ∉ tx.spendable)
    (h : t.get k = none) : (e.processInputs tx blockHeight blockHash t vin inputs).1.get k = none := by
  apply Option.eq_none_iff_forall_ne_some.2
  intro d hafter
  have hbefore := get_of_get_processInputs hk hafter
  rw [h] at hbefore
  cases hbefore

/-- without spendable outputs nothing is enrolled -/
theorem spendOutpoint_tracking_of_nil {vin : ℕ} {i : TxInputObservation} (hnil : tx.spendable = []) :
    (e.spendOutpoint tx blockHeight blockHash t vin i).1 = t := by
  have henroll : ∀ d, e.enrollDescendants tx t d = t := by
    intro d
    simp [enrollDescendants, hnil]
  unfold spendOutpoint
  induction e.outpointMatches tx vin i with
  | nil => rfl
  | cons m found ih =>
    simp only [List.foldl_cons, henroll]
    exact ih

/-! ## The tracking: a spent descendant goes -/

theorem get_spendDescendant_self {i : TxInputObservation} (hi : i.key ∉ tx.spendable) :
    (e.spendDescendant tx blockHeight blockHash t i).1.get i.key = none := by
  unfold spendDescendant
  cases hd : t.get i.key with
  | none => exact hd
  | some d =>
    apply Option.eq_none_iff_forall_ne_some.2
    intro d' hafter
    -- what is left was left by the removal, which takes it
    have hrem : (t.remove i.key).get i.key = some d' := by
      dsimp only at hafter
      split_ifs at hafter with hdepth
      · exact get_of_get_enrollDescendants hi hafter
      · exact hafter
    rw [BoundedMap.get_remove_self] at hrem
    cases hrem

theorem processInputs_spent {vin : ℕ} {inputs : List TxInputObservation}
    (hown : ∀ i ∈ inputs, i.key ∉ tx.spendable) {i : TxInputObservation} (hi : i ∈ inputs) :
    (e.processInputs tx blockHeight blockHash t vin inputs).1.get i.key = none := by
  induction inputs generalizing t vin with
  | nil => cases hi
  | cons j inputs ih =>
    rcases List.mem_cons.1 hi with rfl | htail
    · have hk := hown i List.mem_cons_self
      have hgone : (e.processInput tx blockHeight blockHash t vin i).1.get i.key = none :=
        get_spendDescendant_self hk
      rw [processInputs]
      exact get_processInputs_eq_none hk hgone
    · exact ih (fun j' hj' => hown j' (List.mem_cons_of_mem j hj')) htail

/-! ## The tracking: the last output stays -/

/-- an enrolment that is not too deep tracks the last output -/
theorem get_enrollDescendants_last (hk : tx.spendable.getLast? = some k) (hdepth : d.depth ≤ e.maxDescendantDepth) :
    (e.enrollDescendants tx t d).get k = some d := by
  rw [enrollDescendants, if_neg (by omega)]
  exact BoundedMap.get_insertAll_last t d hk

/-- and no enrolment takes it out -/
theorem enrollDescendants_last_tracked (hk : tx.spendable.getLast? = some k) (h : t.get k ≠ none) :
    (e.enrollDescendants tx t d).get k ≠ none := by
  by_cases hdepth : d.depth ≤ e.maxDescendantDepth
  · rw [get_enrollDescendants_last hk hdepth]
    simp
  · rwa [enrollDescendants, if_pos (by omega)]

theorem spendOutpoint_last_tracked {vin : ℕ} {i : TxInputObservation} (hk : tx.spendable.getLast? = some k)
    (h : t.get k ≠ none ∨ watching e.outpointIndex i.key ≠ []) :
    (e.spendOutpoint tx blockHeight blockHash t vin i).1.get k ≠ none := by
  have hfound : t.get k ≠ none ∨ e.outpointMatches tx vin i ≠ [] := by
    simpa [outpointMatches] using h
  clear h
  unfold spendOutpoint
  generalize e.outpointMatches tx vin i = found at hfound
  induction found generalizing t with
  | nil =>
    rcases hfound with ht | hne
    · exact ht
    · exact absurd rfl hne
  | cons m found ih =>
    apply ih
    left
    rw [get_enrollDescendants_last hk e.maxDescendantDepth.2.1]
    simp

theorem spendDescendant_last_tracked {i : TxInputObservation} (hk : tx.spendable.getLast? = some k) (hne : k ≠ i.key)
    (h : t.get k ≠ none) : (e.spendDescendant tx blockHeight blockHash t i).1.get k ≠ none := by
  unfold spendDescendant
  cases hd : t.get i.key with
  | none => exact h
  | some d =>
    have hrem : (t.remove i.key).get k ≠ none := by
      rwa [BoundedMap.get_remove_of_ne t hne]
    dsimp only
    split_ifs with hdepth
    · exact enrollDescendants_last_tracked hk hrem
    · exact hrem

theorem processInputs_last_tracked {vin : ℕ} {inputs : List TxInputObservation}
    (hown : ∀ i ∈ inputs, i.key ∉ tx.spendable) (hk : tx.spendable.getLast? = some k)
    (h : t.get k ≠ none ∨ ∃ i ∈ inputs, watching e.outpointIndex i.key ≠ []) :
    (e.processInputs tx blockHeight blockHash t vin inputs).1.get k ≠ none := by
  induction inputs generalizing t vin with
  | nil =>
    rcases h with ht | hw
    · exact ht
    · obtain ⟨i, hi, -⟩ := hw
      cases hi
  | cons i inputs ih =>
    have hne : k ≠ i.key := by
      intro heq
      apply hown i List.mem_cons_self
      rw [← heq]
      exact List.mem_of_getLast? hk
    apply ih (fun j hj => hown j (List.mem_cons_of_mem i hj))
    by_cases hhead : t.get k ≠ none ∨ watching e.outpointIndex i.key ≠ []
    · exact Or.inl (spendDescendant_last_tracked hk hne (spendOutpoint_last_tracked hk hhead))
    · rw [not_or] at hhead
      rcases h with ht | hw
      · exact absurd ht hhead.1
      · obtain ⟨j, hj, hwj⟩ := hw
        rcases List.mem_cons.1 hj with rfl | htail
        · exact absurd hwj hhead.2
        · exact Or.inr ⟨j, htail, hwj⟩

/-! ## The descendants that are reported -/

theorem processInputs_sound {vin : ℕ} {inputs : List TxInputObservation} (hown : ∀ i ∈ inputs, i.key ∉ tx.spendable)
    {r : Report} (hr : r ∈ (e.processInputs tx blockHeight blockHash t vin inputs).2) (hd : isDirect r = false) :
    ∃ i ∈ inputs, ∃ d, t.get i.key = some d ∧ r = e.descendantReport tx blockHeight blockHash i d := by
  induction inputs generalizing t vin with
  | nil => cases hr
  | cons i inputs ih =>
    have hk := hown i List.mem_cons_self
    rcases List.mem_append.1 hr with hhead | htail
    · obtain ⟨d, hget, rfl⟩ := mem_processInput hhead hd
      exact ⟨i, List.mem_cons_self, d, get_of_get_spendOutpoint hk hget, rfl⟩
    · obtain ⟨j, hj, d, hget, rfl⟩ := ih (fun j hj => hown j (List.mem_cons_of_mem i hj)) htail
      have hkj := hown j (List.mem_cons_of_mem i hj)
      exact ⟨j, List.mem_cons_of_mem i hj, d, get_of_get_processInput hkj hget, rfl⟩

/-! ## The whole pass -/

/-- **Reported descendants were tracked.** -/
theorem observe_sound (hown : tx.SpendsNoOwnOutput) {r : Report} (hr : r ∈ (e.observe tx blockHeight blockHash).2)
    (hd : isDirect r = false) :
    ∃ i ∈ tx.inputs, ∃ d, e.descendants.get i.key = some d ∧ r = e.descendantReport tx blockHeight blockHash i d :=
  processInputs_sound hown (mem_processInputs_of_mem_observe hr hd) hd

variable (e blockHeight blockHash) in
/-- **A pass forgets what it spends.** After it none of the inputs is tracked. -/
theorem observe_spent (hown : tx.SpendsNoOwnOutput) {i : TxInputObservation} (hi : i ∈ tx.inputs) :
    (e.observe tx blockHeight blockHash).1.descendants.get i.key = none :=
  processInputs_spent hown hi

variable (blockHeight blockHash) in
/-- **A watched outpoint leaves its outputs tracked**, the last one at least. -/
theorem observe_last_tracked (hown : tx.SpendsNoOwnOutput) (hk : tx.spendable.getLast? = some k)
    (hw : ∃ i ∈ tx.inputs, watching e.outpointIndex i.key ≠ []) :
    (e.observe tx blockHeight blockHash).1.descendants.get k ≠ none :=
  processInputs_last_tracked hown hk (Or.inr hw)

/-! ## Stolen funds -/

/-- an unspent output under watch; the engine never looks inside a txid, so short names do -/
def watchedOutpoint : WatchTarget where
  id := 0x6f1d2c3b4a5948678695a4b3c2d1e0f1
  incidentId := 0x0c7d8e9fa0b14c2dbe3f405162738495
  caseId := "OC-TEST-001"
  kind := .outPoint "tx001" 1
  classification := .onChainVerified
  evidenceId := none
  label := some "Target Outpoint"
  active := true

/-- a transaction with one input and one output -/
def transfer (txid spentTxid : String) (vout valueSats : ℕ) : TransactionObservation where
  txid := txid
  timestamp := 0
  blockHash := none
  blockHeight := none
  feeSats := 10000
  size := 200
  weight := 800
  vsize := 200
  feeRateSatVb := some 50
  totalInputSats := valueSats + 10000
  totalOutputSats := valueSats
  inputCount := 1
  outputCount := 1
  inputs := [⟨spentTxid, vout, 0xffffffff, some (valueSats + 10000), none, false, none⟩]
  outputs := [⟨valueSats, 0, some "v0_p2wpkh", none, some "00141122334455667788990011223344556677889900"⟩]
  isRbf := false
  confirmed := false
  source := none

/-- the watched outpoint is spent -/
def theft : TransactionObservation :=
  transfer "tx002" "tx001" 1 99990000

/-- and the funds move on -/
def onward : TransactionObservation :=
  transfer "tx003" "tx002" 0 99980000

/-- the block of the theft, and the block of the onward transfer -/
def theftHash : String := "0000000000000000000320283a032748cef8227873ff4872689bf23f1cda83a5"

def onwardHash : String := "00000000000000000001b48a75d5a3077913f3f441eb7e08c13c43f768db2463"

/-- the ids and the clock of some call -/
def someStamp : Stamp := ⟨0, fun i => BitVec.ofNat 128 i, fun i => BitVec.ofNat 128 (i + 1000)⟩

/-- the engine watches the outpoint -/
def watchingEngine : IncidentWatchEngine := (withFollowDepth 3).addTarget watchedOutpoint

/-- the engine has seen the theft, and tracks its output -/
def trackingEngine : IncidentWatchEngine := watchingEngine.step (.transaction theft none none)

end IncidentWatchEngine

end ObsChain
