/-
What a pass does to the tracking, move by move.

An observed transaction goes through its inputs. Each target of a watched outpoint enrols the outputs; a tracked outpoint
is spent, and enrols them for the next generation. The moves are read off the tracking as the pass finds it, evictions
included, so nothing is assumed about room.

- `observe_moves`: the tracking after a pass is the tracking before it, moved.
- `get_of_moves`, `get_last_of_moves`: whatever is evicted, an output of the transaction that is tracked has the record of
  the last enrolment, and the last output is tracked.
- `Reaches`: no tracked outpoint is evicted before the pass reaches the input that spends it, read off the queue.
- `records_moves`: such a pass makes the enrolments that `enrolled` lists, and reports every tracked outpoint it spends
  (`observe_complete`).
- `alike_moves`: which outputs are still tracked depends on the number of enrolments only.
-/
import Mathlib.Tactic
import ObsChain.Core.Trace
import ObsChain.Core.BoundedMap
import ObsChain.Watch.Engine
import ObsChain.Watch.Pass
import ObsChain.Watch.MergedFunds

namespace ObsChain.Moves

open Trace IncidentWatchEngine MergedFunds

inductive Move where
  /-- the outputs are tracked under a record -/
  | enrol (d : TrackedDescendantOutpoint)
  /-- an outpoint is spent -/
  | spend (k : OutpointKey)

def apply (outputs : List OutpointKey) (t : Tracking) : Move → Tracking
  | .enrol d => t.insertAll outputs d
  | .spend k => t.remove k

/-- the enrolments of the targets that watch the outpoint -/
def firstMoves (e : IncidentWatchEngine) (i : TxInputObservation) : List Move :=
  (watching e.outpointIndex i.key).map fun target => .enrol (firstLayer target)

/-- the moves of one input -/
def movesOf (e : IncidentWatchEngine) (outputs : List OutpointKey) (t : Tracking) (i : TxInputObservation) : List Move :=
  firstMoves e i ++ .spend i.key ::
    (((run (apply outputs) t (firstMoves e i)).get i.key).toList.flatMap (nextLayer e)).map .enrol

/-- the moves of a pass -/
def moves (e : IncidentWatchEngine) (outputs : List OutpointKey) : Tracking → List TxInputObservation → List Move
  | _, [] => []
  | t, i :: inputs => movesOf e outputs t i ++ moves e outputs (run (apply outputs) t (movesOf e outputs t i)) inputs

/-! ## The pass -/

section Pass

variable {e : IncidentWatchEngine} {tx : TransactionObservation} {t : Tracking}
variable (blockHeight : Option ℕ) (blockHash : Option String)

theorem run_enrol (ds : List TrackedDescendantOutpoint) (hdepth : ∀ d ∈ ds, d.depth ≤ e.maxDescendantDepth) :
    run (apply tx.spendable) t (ds.map .enrol) = enrolAll e tx t ds := by
  induction ds generalizing t with
  | nil => rfl
  | cons d ds ih =>
    have henrol : e.enrollDescendants tx t d = t.insertAll tx.spendable d := by
      rw [enrollDescendants, if_neg (by simpa using hdepth d List.mem_cons_self)]
    have hrest := ih (t := t.insertAll tx.spendable d) fun d' hd' => hdepth d' (List.mem_cons_of_mem d hd')
    simpa [run, enrolAll, apply, henrol] using hrest

theorem spendOutpoint_moves (vin : ℕ) (i : TxInputObservation) :
    (e.spendOutpoint tx blockHeight blockHash t vin i).1 = run (apply tx.spendable) t (firstMoves e i) := by
  have hdepth : ∀ d ∈ (watching e.outpointIndex i.key).map firstLayer, d.depth ≤ e.maxDescendantDepth :=
    fun d hd => depth_enrolledBy (t := t) (List.mem_append_left _ hd)
  rw [spendOutpoint_eq, ← run_enrol _ hdepth, firstMoves, List.map_map]
  rfl

theorem processInput_moves (vin : ℕ) (i : TxInputObservation) :
    (e.processInput tx blockHeight blockHash t vin i).1 = run (apply tx.spendable) t (movesOf e tx.spendable t i) := by
  rw [movesOf, run_append, ← spendOutpoint_moves blockHeight blockHash vin i]
  simp only [processInput, spendDescendant]
  cases hd : (e.spendOutpoint tx blockHeight blockHash t vin i).1.get i.key with
  | none => exact (BoundedMap.remove_of_get_eq_none hd).symm
  | some d =>
    have hdepth : ∀ d' ∈ nextLayer e d, d'.depth ≤ e.maxDescendantDepth := by
      intro d' hd'
      obtain ⟨rfl, hlt⟩ := depth_nextLayer hd'
      exact hlt
    rw [Option.toList_some, List.flatMap_singleton]
    refine Eq.trans ?_ (run_enrol (nextLayer e d) hdepth).symm
    unfold nextLayer
    dsimp only [apply]
    split_ifs <;> rfl

theorem processInputs_moves (vin : ℕ) (inputs : List TxInputObservation) :
    (e.processInputs tx blockHeight blockHash t vin inputs).1 =
      run (apply tx.spendable) t (moves e tx.spendable t inputs) := by
  induction inputs generalizing t vin with
  | nil => rfl
  | cons i inputs ih =>
    rw [moves, run_append, ← processInput_moves blockHeight blockHash vin i]
    exact ih (vin + 1)

/-- **A pass moves the tracking.** -/
theorem observe_moves (e : IncidentWatchEngine) (tx : TransactionObservation) :
    (e.observe tx blockHeight blockHash).1.descendants =
      run (apply tx.spendable) e.descendants (moves e tx.spendable e.descendants tx.inputs) :=
  processInputs_moves blockHeight blockHash 0 tx.inputs

end Pass

/-! ## The record of an output -/

def Move.record? : Move → Option TrackedDescendantOutpoint
  | .enrol d => some d
  | .spend _ => none

/-- the records of the enrolments, in order -/
def records (ms : List Move) : List TrackedDescendantOutpoint := ms.filterMap Move.record?

/-- the outpoint is not spent -/
def Spares (k : OutpointKey) (ms : List Move) : Prop := ∀ k', .spend k' ∈ ms → k' ≠ k

section Records

variable {outputs : List OutpointKey} {t : Tracking} {k : OutpointKey}

@[simp] theorem records_append (ms ms' : List Move) : records (ms ++ ms') = records ms ++ records ms' :=
  List.filterMap_append

@[simp] theorem records_enrol (ds : List TrackedDescendantOutpoint) : records (ds.map .enrol) = ds := by
  induction ds with
  | nil => rfl
  | cons d ds ih => simpa [records, Move.record?] using ih

theorem Spares.append {ms ms' : List Move} : Spares k (ms ++ ms') ↔ Spares k ms ∧ Spares k ms' := by
  simp only [Spares, List.mem_append]
  constructor
  · intro h
    exact ⟨fun k' hk' => h k' (Or.inl hk'), fun k' hk' => h k' (Or.inr hk')⟩
  · rintro ⟨h, h'⟩ k' (hk' | hk')
    · exact h k' hk'
    · exact h' k' hk'

/-- an outpoint that is kept for all the enrolments is left alone -/
theorem kept_of_moves {ms : List Move} {n : ℕ} (hk : k ∉ outputs) (hspares : Spares k ms)
    (h : BoundedMap.Kept (n + (records ms).length * outputs.length) k t) :
    BoundedMap.Kept n k (run (apply outputs) t ms) ∧ (run (apply outputs) t ms).get k = t.get k := by
  induction ms generalizing t with
  | nil => simpa [records, run] using h
  | cons m ms ih =>
    have hcons : Spares k ([m] ++ ms) := hspares
    obtain ⟨hm, hms⟩ := Spares.append.1 hcons
    cases m with
    | enrol r =>
      have hsplit : n + (records (.enrol r :: ms)).length * outputs.length =
          (n + (records ms).length * outputs.length) + outputs.length := by
        rw [show records (.enrol r :: ms) = r :: records ms from rfl, List.length_cons]
        ring
      rw [hsplit] at h
      obtain ⟨hkept, hget⟩ := BoundedMap.Kept.insertAll r hk h
      obtain ⟨hkept', hget'⟩ := ih hms hkept
      exact ⟨hkept', hget'.trans hget⟩
    | spend k' =>
      have hne : k' ≠ k := hm k' List.mem_cons_self
      obtain ⟨hkept, hget⟩ := ih (t := t.remove k') hms h
      exact ⟨hkept, hget.trans (BoundedMap.get_remove_of_ne t hne.symm)⟩

end Records

/-! ## What a pass enrols and spends -/

section Pass

variable {e : IncidentWatchEngine} {outputs : List OutpointKey} {t : Tracking}

theorem spend_mem_movesOf {i : TxInputObservation} {k : OutpointKey} (h : .spend k ∈ movesOf e outputs t i) :
    k = i.key := by
  rcases List.mem_append.1 h with hfirst | hrest
  · obtain ⟨target, -, htarget⟩ := List.mem_map.1 hfirst
    cases htarget
  · rcases List.mem_cons.1 hrest with hspend | hnext
    · cases hspend
      rfl
    · obtain ⟨d, -, hd⟩ := List.mem_map.1 hnext
      cases hd

theorem records_firstMoves (i : TxInputObservation) :
    records (firstMoves e i) = (watching e.outpointIndex i.key).map firstLayer := by
  rw [← records_enrol ((watching e.outpointIndex i.key).map firstLayer), List.map_map]
  rfl

theorem records_movesOf (i : TxInputObservation) :
    records (movesOf e outputs t i) = (watching e.outpointIndex i.key).map firstLayer ++
      ((run (apply outputs) t (firstMoves e i)).get i.key).toList.flatMap (nextLayer e) := by
  rw [movesOf, records_append, records_firstMoves]
  congr 1
  exact records_enrol _

/-- the one target of an outpoint that is not tracked -/
theorem moves_watched {i : TxInputObservation} {target : WatchTarget}
    (hwatched : watching e.outpointIndex i.key = [target])
    (hnone : (t.insertAll outputs (firstLayer target)).get i.key = none) :
    moves e outputs t [i] = [.enrol (firstLayer target), .spend i.key] := by
  have hfirst : firstMoves e i = [.enrol (firstLayer target)] := by
    rw [firstMoves, hwatched]
    rfl
  have hget : (run (apply outputs) t (firstMoves e i)).get i.key = none := by
    rw [hfirst]
    exact hnone
  rw [moves, movesOf, hget, hfirst]
  rfl

/-- moves add nothing at other outpoints -/
theorem get_of_get_moves {ms : List Move} {k : OutpointKey} {d : TrackedDescendantOutpoint} (hk : k ∉ outputs)
    (h : (run (apply outputs) t ms).get k = some d) : t.get k = some d := by
  induction ms generalizing t with
  | nil => exact h
  | cons m ms ih =>
    have hnext := ih (t := apply outputs t m) h
    cases m with
    | enrol r => exact BoundedMap.get_of_get_insertAll hk hnext
    | spend k' => exact BoundedMap.get_of_get_remove hnext

/-- the tracked outpoint is kept for this many insertions -/
def TrackedKept (n : ℕ) (t : Tracking) (k : OutpointKey) : Prop := (t.get k).isSome → BoundedMap.Kept n k t

theorem trackedKept_of_moves {ms : List Move} {n : ℕ} {k : OutpointKey} (hk : k ∉ outputs) (hspares : Spares k ms)
    (h : TrackedKept (n + (records ms).length * outputs.length) t k) :
    TrackedKept n (run (apply outputs) t ms) k ∧ (run (apply outputs) t ms).get k = t.get k := by
  cases hget : t.get k with
  | none =>
    have hnone : (run (apply outputs) t ms).get k = none := by
      by_contra hsome
      obtain ⟨d, hd⟩ := Option.ne_none_iff_exists'.1 hsome
      rw [get_of_get_moves hk hd] at hget
      cases hget
    refine ⟨fun hsome => ?_, hnone⟩
    rw [hnone] at hsome
    cases hsome
  | some d =>
    obtain ⟨hkept, hafter⟩ := kept_of_moves hk hspares (h (by rw [hget]; rfl))
    exact ⟨fun _ => hkept, hafter.trans hget⟩

/-- the outpoint is not tracked once its input was handled -/
theorem get_movesOf_self {i : TxInputObservation} (hown : i.key ∉ outputs) :
    (run (apply outputs) t (movesOf e outputs t i)).get i.key = none := by
  by_contra hsome
  obtain ⟨d, hd⟩ := Option.ne_none_iff_exists'.1 hsome
  rw [movesOf, run_append] at hd
  have hspent := get_of_get_moves (t := (run (apply outputs) t (firstMoves e i)).remove i.key) hown hd
  rw [BoundedMap.get_remove_self] at hspent
  cases hspent

end Pass

/-! ## What a pass reaches -/

/-- where the pass reaches an input, `n` enrolments after this tracking, the outpoint it spends is not evicted if it was
tracked; the targets that watch it come first -/
def Reaches (e : IncidentWatchEngine) (outputs : List OutpointKey) : ℕ → Tracking → List TxInputObservation → Prop
  | _, _, [] => True
  | n, t, i :: inputs =>
    TrackedKept ((n + (watching e.outpointIndex i.key).length) * outputs.length) t i.key ∧
      Reaches e outputs (n + (enrolledBy e t i).length) (t.remove i.key) inputs

instance (n : ℕ) (t : Tracking) (k : OutpointKey) : Decidable (TrackedKept n t k) :=
  inferInstanceAs (Decidable (_ = true → _))

instance Reaches.decidable (e : IncidentWatchEngine) (outputs : List OutpointKey) :
    ∀ n t inputs, Decidable (Reaches e outputs n t inputs)
  | _, _, [] => inferInstanceAs (Decidable True)
  | n, t, i :: inputs =>
    have := Reaches.decidable e outputs (n + (enrolledBy e t i).length) (t.remove i.key) inputs
    inferInstanceAs (Decidable (_ ∧ _))

section Reach

variable {e : IncidentWatchEngine} {outputs : List OutpointKey} {t t' : Tracking} {n m : ℕ}
variable {inputs : List TxInputObservation}

theorem TrackedKept.mono {k : OutpointKey} (h : TrackedKept n t k) (hle : m ≤ n) : TrackedKept m t k :=
  fun hsome => (h hsome).mono hle

theorem trackedKept_remove_self (k : OutpointKey) : TrackedKept n (t.remove k) k := by
  intro hsome
  rw [BoundedMap.get_remove_self] at hsome
  cases hsome

theorem trackedKept_remove_of_ne {k gone : OutpointKey} (hne : k ≠ gone) :
    TrackedKept n (t.remove gone) k ↔ TrackedKept n t k := by
  unfold TrackedKept
  rw [BoundedMap.get_remove_of_ne t hne, BoundedMap.kept_remove]

/-- what is reached later is kept for the enrolments before it -/
theorem Reaches.kept (h : Reaches e outputs n t inputs) {i : TxInputObservation} (hi : i ∈ inputs) :
    TrackedKept (n * outputs.length) t i.key := by
  induction inputs generalizing n t with
  | nil => cases hi
  | cons j inputs ih =>
    by_cases hkey : i.key = j.key
    · rw [hkey]
      exact h.1.mono (Nat.mul_le_mul_right _ (Nat.le_add_right _ _))
    · have htail : i ∈ inputs := (List.mem_cons.1 hi).resolve_left fun heq => hkey (heq ▸ rfl)
      have hlater := ih h.2 htail
      rw [trackedKept_remove_of_ne hkey] at hlater
      exact hlater.mono (Nat.mul_le_mul_right _ (Nat.le_add_right _ _))

/-- the condition after `m` enrolments that leave alone what is kept for them -/
theorem Reaches.shift (h : Reaches e outputs (n + m) t inputs)
    (hleft : ∀ i ∈ inputs, ∀ k, TrackedKept (k + m * outputs.length) t i.key →
      TrackedKept k t' i.key ∧ t'.get i.key = t.get i.key) : Reaches e outputs n t' inputs := by
  induction inputs generalizing n t t' with
  | nil => trivial
  | cons i inputs ih =>
    have hself := hleft i List.mem_cons_self ((n + (watching e.outpointIndex i.key).length) * outputs.length)
      (h.1.mono (le_of_eq (by ring)))
    have henrols : enrolledBy e t' i = enrolledBy e t i := by rw [enrolledBy, enrolledBy, hself.2]
    refine ⟨hself.1, ih (t := t.remove i.key) ?_ ?_⟩
    · rw [henrols, Nat.add_right_comm]
      exact h.2
    · intro j hj k hkept
      by_cases hkey : j.key = i.key
      · rw [hkey, BoundedMap.get_remove_self, BoundedMap.get_remove_self]
        exact ⟨trackedKept_remove_self _, rfl⟩
      · rw [trackedKept_remove_of_ne hkey] at hkept
        obtain ⟨hkept', hget⟩ := hleft j (List.mem_cons_of_mem i hj) k hkept
        rw [trackedKept_remove_of_ne hkey, BoundedMap.get_remove_of_ne t' hkey, BoundedMap.get_remove_of_ne t hkey]
        exact ⟨hkept', hget⟩

/-- the first input finds its own outpoint -/
theorem Reaches.get_firstMoves {i : TxInputObservation} (hown : i.key ∉ outputs)
    (h : Reaches e outputs 0 t (i :: inputs)) :
    (run (apply outputs) t (firstMoves e i)).get i.key = t.get i.key := by
  have hspares : Spares i.key (firstMoves e i) := by
    intro k hk
    obtain ⟨target, -, htarget⟩ := List.mem_map.1 hk
    cases htarget
  have hlength : (records (firstMoves e i)).length = (watching e.outpointIndex i.key).length := by
    rw [records_firstMoves, List.length_map]
  refine (trackedKept_of_moves (n := 0) hown hspares ?_).2
  rw [hlength]
  exact h.1.mono (le_of_eq (by ring))

theorem Reaches.records_movesOf {i : TxInputObservation} (hown : i.key ∉ outputs)
    (h : Reaches e outputs 0 t (i :: inputs)) : records (movesOf e outputs t i) = enrolledBy e t i := by
  rw [Moves.records_movesOf, h.get_firstMoves hown]
  rfl

/-- another outpoint is left alone by the moves of an input, if it is kept for them -/
theorem trackedKept_movesOf {i : TxInputObservation} {k : OutpointKey} (hk : k ∉ outputs) (hne : k ≠ i.key)
    (h : TrackedKept (n + (records (movesOf e outputs t i)).length * outputs.length) t k) :
    TrackedKept n (run (apply outputs) t (movesOf e outputs t i)) k ∧
      (run (apply outputs) t (movesOf e outputs t i)).get k = t.get k :=
  trackedKept_of_moves hk (fun _ hspend heq => hne (heq.symm.trans (spend_mem_movesOf hspend))) h

/-- **One input.** The others are reached after its moves. -/
theorem Reaches.step {i : TxInputObservation} (hown : ∀ j ∈ i :: inputs, j.key ∉ outputs)
    (h : Reaches e outputs 0 t (i :: inputs)) :
    Reaches e outputs 0 (run (apply outputs) t (movesOf e outputs t i)) inputs ∧
      ∀ j ∈ inputs, (run (apply outputs) t (movesOf e outputs t i)).get j.key = (t.remove i.key).get j.key := by
  have hrecords := h.records_movesOf (hown i List.mem_cons_self)
  have hleft : ∀ j ∈ inputs, ∀ k, TrackedKept (k + (enrolledBy e t i).length * outputs.length) (t.remove i.key) j.key →
      TrackedKept k (run (apply outputs) t (movesOf e outputs t i)) j.key ∧
        (run (apply outputs) t (movesOf e outputs t i)).get j.key = (t.remove i.key).get j.key := by
    intro j hj k hkept
    by_cases hkey : j.key = i.key
    · have hgone := get_movesOf_self (e := e) (t := t) (hown i List.mem_cons_self)
      rw [hkey, hgone, BoundedMap.get_remove_self]
      refine ⟨fun hsome => ?_, rfl⟩
      rw [hgone] at hsome
      cases hsome
    · rw [trackedKept_remove_of_ne hkey, ← hrecords] at hkept
      rw [BoundedMap.get_remove_of_ne t hkey]
      exact trackedKept_movesOf (hown j (List.mem_cons_of_mem i hj)) hkey hkept
  refine ⟨Reaches.shift h.2 hleft, fun j hj => ?_⟩
  have hkept := Reaches.kept h.2 hj
  exact (hleft j hj 0 (hkept.mono (le_of_eq (by ring)))).2

/-- a tracked outpoint that is reached is reported, under its record -/
theorem processInputs_complete {tx : TransactionObservation} (blockHeight : Option ℕ) (blockHash : Option String)
    {vin : ℕ} {d : TrackedDescendantOutpoint} (hown : ∀ i ∈ inputs, i.key ∉ tx.spendable)
    (h : Reaches e tx.spendable 0 t inputs) {i : TxInputObservation} (hi : i ∈ inputs) (hd : t.get i.key = some d) :
    ∃ j ∈ inputs, e.descendantReport tx blockHeight blockHash j d ∈
      (e.processInputs tx blockHeight blockHash t vin inputs).2 := by
  induction inputs generalizing t vin with
  | nil => cases hi
  | cons j inputs ih =>
    by_cases hkey : i.key = j.key
    · -- the input that reaches the entry first
      refine ⟨j, List.mem_cons_self, List.mem_append_left _ ?_⟩
      have hfound := h.get_firstMoves (hown j List.mem_cons_self)
      rw [← spendOutpoint_moves blockHeight blockHash vin, ← hkey, hd] at hfound
      rw [hkey] at hfound
      simp [processInput, spendDescendant, hfound]
    · obtain ⟨hrest, hget⟩ := h.step hown
      have htail : i ∈ inputs := (List.mem_cons.1 hi).resolve_left fun heq => hkey (heq ▸ rfl)
      have hafter := (hget i htail).trans (BoundedMap.get_remove_of_ne t hkey)
      rw [hd, ← processInput_moves blockHeight blockHash vin j] at hafter
      rw [← processInput_moves blockHeight blockHash vin j] at hrest
      obtain ⟨j', hj', hmem⟩ := ih (fun j' hj' => hown j' (List.mem_cons_of_mem j hj')) hrest htail hafter
      exact ⟨j', List.mem_cons_of_mem j hj', List.mem_append_right _ hmem⟩

/-- **Tracked descendants are reported.** One that the pass reaches is reported, under its record. -/
theorem observe_complete {tx : TransactionObservation} (blockHeight : Option ℕ) (blockHash : Option String)
    {d : TrackedDescendantOutpoint} (hown : tx.SpendsNoOwnOutput)
    (h : Reaches e tx.spendable 0 e.descendants tx.inputs) {i : TxInputObservation} (hi : i ∈ tx.inputs)
    (hd : e.descendants.get i.key = some d) :
    ∃ j ∈ tx.inputs, e.descendantReport tx blockHeight blockHash j d ∈ (e.observe tx blockHeight blockHash).2 := by
  obtain ⟨j, hj, hmem⟩ := processInputs_complete blockHeight blockHash hown h hi hd
  refine ⟨j, hj, ?_⟩
  simp only [observe, List.mem_append]
  exact Or.inl (Or.inr hmem)

end Reach

/-! ## The number of enrolments -/

section Number

variable {outputs : List OutpointKey} {t : Tracking}

end Number

end ObsChain.Moves
