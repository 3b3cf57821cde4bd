/-
Extreme values and order statistics of lists. Nothing here mentions the program.

A loop that keeps the largest value so far starts from a value that is not above any, and one that keeps the smallest from
one that is not below any: `isGreatest_foldl_max` and `isLeast_foldl_min` say what it ends with.

`IsQuantile l q x` characterises a discrete quantile by counting, with ties and without mention of an order of the list.
The value at rank `⌈q n⌉` of the sorted list is one (`isQuantile_getElem`), and a value above or below a quantile has the
counts to show for it (`IsQuantile.le_countP`, `IsQuantile.countP_lt`).
-/
import Mathlib.Tactic
import Mathlib.Order.Bounds.Basic
import Mathlib.Data.List.Sort

namespace ObsChain.OrderStatistics

variable {α : Type*} [LinearOrder α]

theorem le_foldl_max (l : List α) (a : α) : a ≤ l.foldl max a ∧ ∀ x ∈ l, x ≤ l.foldl max a := by
  induction l generalizing a with
  | nil => simp
  | cons y ys ih =>
    obtain ⟨hstart, hall⟩ := ih (max a y)
    refine ⟨(le_max_left a y).trans hstart, ?_⟩
    intro x hx
    rcases List.mem_cons.1 hx with heq | hmem
    · rw [heq]
      exact (le_max_right a y).trans hstart
    · exact hall x hmem

theorem foldl_min_le (l : List α) (a : α) : l.foldl min a ≤ a :=
  (le_foldl_max (α := αᵒᵈ) l a).1

theorem foldl_max_mem (l : List α) (a : α) : l.foldl max a = a ∨ l.foldl max a ∈ l := by
  induction l generalizing a with
  | nil => exact .inl rfl
  | cons y ys ih =>
    rcases ih (max a y) with heq | hmem
    · rcases max_choice a y with ha | hy
      · exact .inl (heq.trans ha)
      · exact .inr (by rw [List.foldl_cons, heq, hy]; exact List.mem_cons_self)
    · exact .inr (List.mem_cons_of_mem y hmem)

theorem foldl_max_le {l : List α} {a b : α} (ha : a ≤ b) (h : ∀ x ∈ l, x ≤ b) : l.foldl max a ≤ b := by
  rcases foldl_max_mem l a with heq | hmem
  · rw [heq]
    exact ha
  · exact h _ hmem

/-- more values, no smaller a maximum -/
theorem foldl_max_mono {l m : List α} (hsub : l ⊆ m) (a : α) : l.foldl max a ≤ m.foldl max a :=
  foldl_max_le (le_foldl_max m a).1 fun x hx => (le_foldl_max m a).2 x (hsub hx)

/-- **The largest value**, from a start that is not above any. -/
theorem isGreatest_foldl_max {l : List α} {a : α} (hne : l ≠ []) (ha : ∀ x ∈ l, a ≤ x) :
    IsGreatest {x | x ∈ l} (l.foldl max a) := by
  refine ⟨?_, fun x hx => (le_foldl_max l a).2 x hx⟩
  rcases foldl_max_mem l a with heq | hmem
  · -- then every value is the start
    obtain ⟨x, hx⟩ := List.exists_mem_of_ne_nil l hne
    have hle := (le_foldl_max l a).2 x hx
    rw [heq] at hle
    have hxa : x = a := le_antisymm hle (ha x hx)
    show l.foldl max a ∈ l
    rw [heq, ← hxa]
    exact hx
  · exact hmem

/-- **The smallest value**, from a start that is not below any. -/
theorem isLeast_foldl_min {l : List α} {a : α} (hne : l ≠ []) (ha : ∀ x ∈ l, x ≤ a) :
    IsLeast {x | x ∈ l} (l.foldl min a) :=
  isGreatest_foldl_max (α := αᵒᵈ) hne ha

/-! ## Sorted lists -/

theorem sortedLE_insertionSort (l : List α) : (l.insertionSort (· ≤ ·)).SortedLE :=
  (List.pairwise_insertionSort (· ≤ ·) l).sortedLE

/-- sorting forgets the order -/
theorem insertionSort_perm {l m : List α} (h : l.Perm m) : l.insertionSort (· ≤ ·) = m.insertionSort (· ≤ ·) := by
  have hperm : (l.insertionSort (· ≤ ·)).Perm (m.insertionSort (· ≤ ·)) :=
    ((List.perm_insertionSort _ l).trans h).trans (List.perm_insertionSort _ m).symm
  exact hperm.eq_of_sortedLE (sortedLE_insertionSort l) (sortedLE_insertionSort m)

/-- the first of a sorted list is the smallest -/
theorem isLeast_getElem_zero {s : List α} (hs : s.SortedLE) (hne : 0 < s.length) : IsLeast {x | x ∈ s} s[0] := by
  refine ⟨List.getElem_mem hne, ?_⟩
  intro x hx
  obtain ⟨i, hi, rfl⟩ := List.mem_iff_getElem.1 hx
  exact hs.getElem_le_getElem_of_le (Nat.zero_le i)

/-- the last of a sorted list is the largest -/
theorem isGreatest_getElem_last {s : List α} (hs : s.SortedLE) (hlast : s.length - 1 < s.length) :
    IsGreatest {x | x ∈ s} s[s.length - 1] := by
  refine ⟨List.getElem_mem hlast, ?_⟩
  intro x hx
  obtain ⟨i, hi, rfl⟩ := List.mem_iff_getElem.1 hx
  exact hs.getElem_le_getElem_of_le (by omega)

/-- at least `i + 1` values are not above the one at position `i` -/
theorem lt_countP_le {s : List α} (hs : s.SortedLE) {i : ℕ} (hi : i < s.length) : i < s.countP (· ≤ s[i]) := by
  have hfront : (s.take (i + 1)).countP (· ≤ s[i]) = (s.take (i + 1)).length := by
    rw [List.countP_eq_length]
    intro x hx
    obtain ⟨j, hj, rfl⟩ := List.mem_iff_getElem.1 hx
    rw [List.length_take] at hj
    rw [List.getElem_take, decide_eq_true_eq]
    exact hs.getElem_le_getElem_of_le (by omega)
  have hlen : (s.take (i + 1)).length = i + 1 := List.length_take_of_le hi
  have hle : (s.take (i + 1)).countP (· ≤ s[i]) ≤ s.countP (· ≤ s[i]) := (List.take_sublist _ _).countP_le
  omega

/-- at most `i` values are below the one at position `i` -/
theorem countP_lt_le {s : List α} (hs : s.SortedLE) {i : ℕ} (hi : i < s.length) : s.countP (· < s[i]) ≤ i := by
  have hback : (s.drop i).countP (· < s[i]) = 0 := by
    rw [List.countP_eq_zero]
    intro x hx
    obtain ⟨j, hj, rfl⟩ := List.mem_iff_getElem.1 hx
    rw [List.length_drop] at hj
    rw [List.getElem_drop, decide_eq_true_eq, not_lt]
    exact hs.getElem_le_getElem_of_le (by omega)
  calc s.countP (· < s[i]) = (s.take i ++ s.drop i).countP (· < s[i]) := by rw [List.take_append_drop]
    _ = (s.take i).countP (· < s[i]) := by rw [List.countP_append, hback, Nat.add_zero]
    _ ≤ (s.take i).length := List.countP_le_length
    _ ≤ i := List.length_take_le i s

/-! ## Counts -/

theorem countP_lt_add_countP_ge (l : List α) (x : α) : l.countP (· < x) + l.countP (x ≤ ·) = l.length := by
  rw [List.length_eq_countP_add_countP (fun y => decide (y < x))]
  simp only [decide_eq_true_eq, not_lt]

theorem countP_le_add_countP_gt (l : List α) (x : α) : l.countP (· ≤ x) + l.countP (x < ·) = l.length := by
  rw [List.length_eq_countP_add_countP (fun y => decide (y ≤ x))]
  simp only [decide_eq_true_eq, not_le]

/-! ## Quantiles -/

/-- `x` is a value of the list with at least `q` of the values not above it, and fewer than `q` below it -/
structure IsQuantile (l : List α) (q : ℚ) (x : α) : Prop where
  mem : x ∈ l
  le : q * l.length ≤ l.countP (· ≤ x)
  lt : (l.countP (· < x) : ℚ) < q * l.length

theorem IsQuantile.perm {l m : List α} {q : ℚ} {x : α} (h : IsQuantile l q x) (hperm : l.Perm m) : IsQuantile m q x where
  mem := hperm.mem_iff.1 h.mem
  le := by
    rw [← hperm.countP_eq, ← hperm.length_eq]
    exact h.le
  lt := by
    rw [← hperm.countP_eq, ← hperm.length_eq]
    exact h.lt

/-- what is above a quantile has at least as many values not above it -/
theorem IsQuantile.le_countP {l : List α} {q : ℚ} {x v : α} (h : IsQuantile l q x) (hv : x ≤ v) :
    q * l.length ≤ l.countP (· ≤ v) := by
  have hcount : l.countP (· ≤ x) ≤ l.countP (· ≤ v) := by
    apply List.countP_mono_left
    intro y _ hy
    rw [decide_eq_true_eq] at hy ⊢
    exact hy.trans hv
  calc q * l.length ≤ l.countP (· ≤ x) := h.le
    _ ≤ l.countP (· ≤ v) := by exact_mod_cast hcount

/-- what is below a quantile has fewer -/
theorem IsQuantile.countP_lt {l : List α} {q : ℚ} {x v : α} (h : IsQuantile l q x) (hv : v < x) :
    (l.countP (· ≤ v) : ℚ) < q * l.length := by
  have hcount : l.countP (· ≤ v) ≤ l.countP (· < x) := by
    apply List.countP_mono_left
    intro y _ hy
    rw [decide_eq_true_eq] at hy ⊢
    exact hy.trans_lt hv
  calc (l.countP (· ≤ v) : ℚ) ≤ l.countP (· < x) := by exact_mod_cast hcount
    _ < q * l.length := h.lt

/-- **Quantiles are ordered** as their ranks. -/
theorem IsQuantile.mono {l : List α} {q r : ℚ} {x y : α} (hx : IsQuantile l q x) (hy : IsQuantile l r y) (h : q ≤ r) :
    x ≤ y := by
  by_contra hlt
  have hfew := hx.countP_lt (not_le.1 hlt)
  have hmany := hy.le
  have hmul : q * l.length ≤ r * l.length := mul_le_mul_of_nonneg_right h (Nat.cast_nonneg _)
  linarith

/-- **The discrete quantile**: the value at rank `⌈q n⌉` of the sorted list. -/
theorem isQuantile_getElem {s : List α} (hs : s.SortedLE) {q : ℚ} {i : ℕ} (hi : i < s.length)
    (hrank : ⌈q * s.length⌉ = i + 1) : IsQuantile s q s[i] where
  mem := List.getElem_mem hi
  le := by
    have hceil : q * s.length ≤ (⌈q * s.length⌉ : ℤ) := Int.le_ceil _
    have hcount : ((i + 1 : ℕ) : ℚ) ≤ s.countP (· ≤ s[i]) := by exact_mod_cast lt_countP_le hs hi
    rw [hrank] at hceil
    push_cast at hceil hcount
    linarith
  lt := by
    have hceil : (⌈q * s.length⌉ : ℚ) < q * s.length + 1 := Int.ceil_lt_add_one _
    have hcount : (s.countP (· < s[i]) : ℚ) ≤ i := by exact_mod_cast countP_lt_le hs hi
    rw [hrank] at hceil
    push_cast at hceil
    linarith

end ObsChain.OrderStatistics
