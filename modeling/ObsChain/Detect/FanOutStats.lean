/-
Output statistics of a fan-out (`fan_out.rs`).

The detector sorts the output values and takes the first, the last and the middle. For an even count the middle is half the
sum of two u64 values, and that sum wraps: `exactMedian` is what was meant.

- `median_eq_iff`: the median is exact just when the two middle values add up within a u64.
- `fan_out_statistics_iff`: the whole record of order statistics, under the same condition.
- `outputStats_lt`: whatever the values, the three numbers are u64.
-/
import Mathlib.Tactic
import Mathlib.Data.List.GetD
import ObsChain.Core.OrderStatistics
import ObsChain.Domain.Ranges
import ObsChain.Detect.Detectors

namespace ObsChain.FanOutDetector

open ObsChain.OrderStatistics

/-! ## The definition -/

def values (tx : TransactionObservation) : List ℕ := tx.outputs.map (·.valueSats)

/-- the output values in ascending order -/
def sortedValues (tx : TransactionObservation) : List ℕ := (values tx).insertionSort (· ≤ ·)

/-- the sum of the two middle values, of a sorted list of even length -/
def middleSum (vals : List ℕ) : ℕ := vals.getD (vals.length / 2 - 1) 0 + vals.getD (vals.length / 2) 0

/-- the middle value, or the average of the two middle values rounded down -/
def exactMedian (vals : List ℕ) : ℕ :=
  if vals.length % 2 = 1 then vals.getD (vals.length / 2) 0 else middleSum vals / 2

/-- one value in the middle, or two that add up within a u64 -/
def MiddleFits (vals : List ℕ) : Prop := vals.length % 2 = 1 ∨ middleSum vals < 2 ^ 64

/-- the record of an event -/
def record (tx : TransactionObservation) : FanOutMetadata where
  inputCount := tx.inputCount % 2 ^ 32
  outputCount := tx.outputCount % 2 ^ 32
  outputInputRatio := tx.outputCount / (max tx.inputCount 1 : ℕ)
  totalDistributedSats := tx.totalOutputSats
  totalDistributedBtc := btcOfSats tx.totalOutputSats
  medianOutputSats := (outputStats tx).2.2
  smallestOutputSats := (outputStats tx).1
  largestOutputSats := (outputStats tx).2.1

theorem metadata_report (fresh : Fresh) (tx : TransactionObservation) :
    (report fresh tx).metadata = (record tx).toValue := rfl

/-- a record holds the order statistics of the outputs -/
structure Statistics (tx : TransactionObservation) (m : FanOutMetadata) : Prop where
  smallest : IsLeast {v | v ∈ values tx} m.smallestOutputSats
  largest : IsGreatest {v | v ∈ values tx} m.largestOutputSats
  median : m.medianOutputSats = exactMedian (sortedValues tx)
  smallest_le : m.smallestOutputSats ≤ m.medianOutputSats
  le_largest : m.medianOutputSats ≤ m.largestOutputSats
  noOverflow : (values tx).length % 2 = 0 → middleSum (sortedValues tx) < 2 ^ 64
  order : ∀ outputs : List TxOutputObservation, outputs.Perm tx.outputs →
    outputStats { tx with outputs := outputs } = outputStats tx

/-! ## The code -/

variable {tx : TransactionObservation}

theorem length_sortedValues (tx : TransactionObservation) : (sortedValues tx).length = tx.outputs.length := by
  simp [sortedValues, values]

theorem length_sortedValues_pos (hne : tx.outputs ≠ []) : 0 < (sortedValues tx).length := by
  rw [length_sortedValues]
  exact List.length_pos_of_ne_nil hne

theorem mem_sortedValues {v : ℕ} : v ∈ sortedValues tx ↔ v ∈ values tx := List.mem_insertionSort _

theorem sortedLE_sortedValues (tx : TransactionObservation) : (sortedValues tx).SortedLE := sortedLE_insertionSort _

/-- a value of the sorted list, between the first and the last -/
theorem getD_bounds {s : List ℕ} (hs : s.SortedLE) {i : ℕ} (hi : i < s.length) :
    s.getD 0 0 ≤ s.getD i 0 ∧ s.getD i 0 ≤ s.getD (s.length - 1) 0 := by
  rw [List.getD_eq_getElem _ _ (by omega), List.getD_eq_getElem _ _ hi, List.getD_eq_getElem _ _ (by omega)]
  exact ⟨hs.getElem_le_getElem_of_le (Nat.zero_le i), hs.getElem_le_getElem_of_le (by omega)⟩

/-- the three numbers, as the code reads them off the sorted list -/
theorem outputStats_eq (hne : tx.outputs ≠ []) : outputStats tx =
    ((sortedValues tx).getD 0 0, (sortedValues tx).getD ((sortedValues tx).length - 1) 0,
      if (sortedValues tx).length % 2 = 1 then (sortedValues tx).getD ((sortedValues tx).length / 2) 0
      else middleSum (sortedValues tx) % 2 ^ 64 / 2) := by
  have hlen := length_sortedValues_pos hne
  have hempty : tx.outputs.isEmpty = false := by simpa using hne
  unfold outputStats
  rw [hempty, if_neg Bool.false_ne_true]
  change ((sortedValues tx).head?.getD 0, (sortedValues tx).getLast?.getD 0, if (sortedValues tx).length % 2 = 0 ∧
    (sortedValues tx).length ≥ 2 then middleSum (sortedValues tx) % 2 ^ 64 / 2
    else (sortedValues tx).getD ((sortedValues tx).length / 2) 0) = _
  rw [List.head?_eq_getElem?, List.getLast?_eq_getElem?, ← List.getD_eq_getElem?_getD, ← List.getD_eq_getElem?_getD]
  by_cases hodd : (sortedValues tx).length % 2 = 1
  · rw [if_pos hodd, if_neg (by omega)]
  · rw [if_neg hodd, if_pos (by omega)]

theorem getD_sortedValues_lt (htx : tx.Typed) {i : ℕ} (hi : i < (sortedValues tx).length) :
    (sortedValues tx).getD i 0 < 2 ^ 64 := by
  rw [List.getD_eq_getElem _ _ hi]
  obtain ⟨out, hout, heq⟩ := List.mem_map.1 (mem_sortedValues.1 (List.getElem_mem hi))
  rw [← heq]
  exact htx.outputs out hout

/-- **The three numbers are u64.** -/
theorem outputStats_lt (htx : tx.Typed) :
    (outputStats tx).1 < 2 ^ 64 ∧ (outputStats tx).2.1 < 2 ^ 64 ∧ (outputStats tx).2.2 < 2 ^ 64 := by
  by_cases hne : tx.outputs = []
  · have havg : tx.totalOutputSats / max tx.outputCount 1 < 2 ^ 64 :=
      (Nat.div_le_self _ _).trans_lt htx.totalOutputSats
    simp only [outputStats, hne, List.isEmpty_nil, if_true]
    exact ⟨havg, havg, havg⟩
  · have hlen := length_sortedValues_pos hne
    rw [outputStats_eq hne]
    refine ⟨getD_sortedValues_lt htx hlen, getD_sortedValues_lt htx (by omega), ?_⟩
    dsimp only
    split_ifs
    · exact getD_sortedValues_lt htx (by omega)
    · omega

/-- **The median is exact** just when the two middle values add up within a u64. -/
theorem median_eq_iff (htx : tx.Typed) (hne : tx.outputs ≠ []) :
    (outputStats tx).2.2 = exactMedian (sortedValues tx) ↔ MiddleFits (sortedValues tx) := by
  have hlen := length_sortedValues_pos hne
  rw [outputStats_eq hne, exactMedian, MiddleFits]
  by_cases hodd : (sortedValues tx).length % 2 = 1
  · simp [hodd]
  · have hlow := getD_sortedValues_lt htx (show (sortedValues tx).length / 2 - 1 < _ by omega)
    have hhigh := getD_sortedValues_lt htx (show (sortedValues tx).length / 2 < _ by omega)
    dsimp only
    rw [if_neg hodd, if_neg hodd, middleSum]
    omega

/-- the exact median lies between the extremes -/
theorem exactMedian_bounds {s : List ℕ} (hs : s.SortedLE) (hlen : 0 < s.length) :
    s.getD 0 0 ≤ exactMedian s ∧ exactMedian s ≤ s.getD (s.length - 1) 0 := by
  unfold exactMedian middleSum
  have hmid := getD_bounds hs (show s.length / 2 < s.length by omega)
  have hlow := getD_bounds hs (show s.length / 2 - 1 < s.length by omega)
  split_ifs
  · exact hmid
  · omega

/-- the order of the outputs does not matter -/
theorem outputStats_perm {outputs : List TxOutputObservation} (hperm : outputs.Perm tx.outputs) :
    outputStats { tx with outputs := outputs } = outputStats tx := by
  have hsorted : sortedValues { tx with outputs := outputs } = sortedValues tx := insertionSort_perm (hperm.map _)
  by_cases hne : tx.outputs = []
  · have hnil : outputs = [] := by
      rw [hne] at hperm
      exact hperm.eq_nil
    simp only [outputStats, hnil, hne]
  · have hne' : ({ tx with outputs := outputs } : TransactionObservation).outputs ≠ [] := by
      intro hnil
      exact hne (hperm.symm.trans (by rw [show outputs = [] from hnil])).eq_nil
    rw [outputStats_eq hne', outputStats_eq hne, hsorted]

theorem statistics_iff (htx : tx.Typed) (hne : tx.outputs ≠ []) :
    Statistics tx (record tx) ↔ MiddleFits (sortedValues tx) := by
  have hs := sortedLE_sortedValues tx
  have hlen := length_sortedValues_pos hne
  have hset : {v | v ∈ values tx} = {v | v ∈ sortedValues tx} := by
    ext v
    exact mem_sortedValues.symm
  have hsmall : (outputStats tx).1 = (sortedValues tx).getD 0 0 := by rw [outputStats_eq hne]
  have hlarge : (outputStats tx).2.1 = (sortedValues tx).getD ((sortedValues tx).length - 1) 0 := by
    rw [outputStats_eq hne]
  refine ⟨fun h => (median_eq_iff htx hne).1 h.median, ?_⟩
  intro hfits
  have hmedian : (outputStats tx).2.2 = exactMedian (sortedValues tx) := (median_eq_iff htx hne).2 hfits
  obtain ⟨hle, hge⟩ := exactMedian_bounds hs hlen
  refine ⟨?_, ?_, hmedian, ?_, ?_, ?_, fun outputs hperm => outputStats_perm hperm⟩
  · rw [hset]
    show IsLeast _ (outputStats tx).1
    rw [hsmall, List.getD_eq_getElem _ _ hlen]
    exact isLeast_getElem_zero hs hlen
  · rw [hset]
    show IsGreatest _ (outputStats tx).2.1
    rw [hlarge, List.getD_eq_getElem _ _ (by omega)]
    exact isGreatest_getElem_last hs (by omega)
  · show (outputStats tx).1 ≤ (outputStats tx).2.2
    rw [hsmall, hmedian]
    exact hle
  · show (outputStats tx).2.2 ≤ (outputStats tx).2.1
    rw [hlarge, hmedian]
    exact hge
  · intro heven
    rw [values, List.length_map, ← length_sortedValues] at heven
    exact hfits.resolve_left (by omega)

/-- **Fan-out statistics are order statistics** exactly when the two middle values add up within a u64. -/
theorem fan_out_statistics_iff (d : FanOutDetector) (fresh : Fresh) (tx : TransactionObservation) (htx : tx.Typed)
    (hne : tx.outputs ≠ []) : ∀ event ∈ d.detect fresh (.transaction tx),
      event.metadata = (record tx).toValue ∧ (Statistics tx (record tx) ↔ MiddleFits (sortedValues tx)) := by
  intro event hevent
  refine ⟨?_, statistics_iff htx hne⟩
  obtain ⟨-, rfl⟩ : _ ∧ event = report fresh tx := by simpa [detect] using hevent
  exact metadata_report fresh tx

/-- a transaction with the given output values -/
def payout (vals : List ℕ) : TransactionObservation :=
  ⟨"aa", 0, none, none, 0, 0, 0, 0, none, 0, 0, 1, vals.length, [], vals.map fun v => ⟨v, 0, none, none, none⟩, false, true,
    none⟩

theorem typed_payout {vals : List ℕ} (hlen : vals.length < 2 ^ 64) (hvals : ∀ v ∈ vals, v < 2 ^ 64) :
    (payout vals).Typed := by
  refine ⟨?_, ?_, ?_, ?_, ?_, ?_, ?_, hlen, ?_, ?_⟩
  all_goals simp [payout, Representable, Below]
  simpa using hvals

theorem fan_out_statistics_iff_four :
    (FanOutDetector.mk 2 0).detect ⟨0, 0, 0⟩ (.transaction (payout [5, 1, 4, 10])) ≠ [] ∧
    Statistics (payout [5, 1, 4, 10]) (record (payout [5, 1, 4, 10])) := by
  have htyped : (payout [5, 1, 4, 10]).Typed := typed_payout (by decide) (by decide)
  have hevent : report ⟨0, 0, 0⟩ (payout [5, 1, 4, 10]) ∈
      (FanOutDetector.mk 2 0).detect ⟨0, 0, 0⟩ (.transaction (payout [5, 1, 4, 10])) := List.mem_singleton_self _
  refine ⟨List.ne_nil_of_mem hevent, ?_⟩
  exact (fan_out_statistics_iff _ _ _ htyped (by decide) _ hevent).2.2 (.inr (by decide))

/-- fifty outputs of 2^63: the sum of the middle two wraps to zero, and the median is below the smallest -/
theorem median_wraps :
    FanOutDetector.default.detect ⟨0, 0, 0⟩ (.transaction (payout (List.replicate 50 (2 ^ 63)))) ≠ [] ∧
    outputStats (payout (List.replicate 50 (2 ^ 63))) = (2 ^ 63, 2 ^ 63, 0) ∧
    ¬ Statistics (payout (List.replicate 50 (2 ^ 63))) (record (payout (List.replicate 50 (2 ^ 63)))) := by
  have hstats : outputStats (payout (List.replicate 50 (2 ^ 63))) = (2 ^ 63, 2 ^ 63, 0) := by decide +kernel
  refine ⟨List.cons_ne_nil _ _, hstats, ?_⟩
  intro h
  have hle : (outputStats (payout (List.replicate 50 (2 ^ 63)))).1 ≤ (outputStats (payout (List.replicate 50 (2 ^ 63)))).2.2 :=
    h.smallest_le
  rw [hstats] at hle
  norm_num at hle

end ObsChain.FanOutDetector
