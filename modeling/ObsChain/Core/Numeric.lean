/-
Unsigned decimal numbers as texts, and as columns of a fixed precision and scale. Nothing here mentions the program.

- `parse`: the value of a decimal text, digits with an optional point and more digits.
- `printChars s n`: the text of `n` units of the last of `s` decimals, as a column of that scale is printed.
- `fit p s`: a value as a column of `p` digits in all and `s` after the point holds it: rounded to `s` decimals, and
  refused (`none`) when more than `p - s` digits are left before the point.

A text that was written from a number is read back exactly (`parse_toString`, `parse_point`), and a number with no more
decimals than the column keeps its value (`fit_of_scaled`).
-/
import Mathlib.Tactic
import Mathlib.Algebra.Order.Round
import Mathlib.Data.List.TakeWhile
import ObsChain.Core.Text

namespace ObsChain.Numeric

/-- digits, and after a point more digits -/
def parseChars (cs : List Char) : Option ℚ :=
  let whole := cs.takeWhile (· ≠ '.')
  let frac := (cs.dropWhile (· ≠ '.')).drop 1
  if whole ≠ [] ∧ whole.all Char.isDigit ∧ frac.all Char.isDigit then
    some ((Nat.ofDigitChars 10 (whole ++ frac) 0 : ℚ) / 10 ^ frac.length)
  else none

def parse (s : String) : Option ℚ := parseChars s.toList

/-- a number below `10 ^ s`, with zeros in front -/
def padded (s n : ℕ) : List Char := List.replicate (s - (Nat.toDigits 10 n).length) '0' ++ Nat.toDigits 10 n

def printChars (s n : ℕ) : List Char := Nat.toDigits 10 (n / 10 ^ s) ++ '.' :: padded s (n % 10 ^ s)

/-- a value with at most `s` decimals, as a column of that scale prints it -/
def print (s : ℕ) (x : ℚ) : String := String.ofList (printChars s ⌊x * 10 ^ s⌋₊)

/-- rounded to `s` decimals, where that leaves at most `p - s` digits before the point -/
def fit (p s : ℕ) (x : ℚ) : Option ℚ :=
  let rounded : ℚ := round (x * 10 ^ s) / 10 ^ s
  if rounded < 10 ^ (p - s) then some rounded else none

/-! ## Texts -/

theorem ne_point_of_isDigit {c : Char} (h : c.isDigit = true) : c ≠ '.' := by
  rintro rfl
  revert h
  decide

/-- digits are a number below a power of ten -/
theorem ofDigitChars_lt {cs : List Char} (h : ∀ c ∈ cs, c.isDigit = true) : Nat.ofDigitChars 10 cs 0 < 10 ^ cs.length := by
  induction cs with
  | nil => exact Nat.one_pos
  | cons c cs ih =>
    have ih := ih fun c' hc' => h c' (List.mem_cons_of_mem c hc')
    have hdigit : c.toNat - '0'.toNat ≤ 9 := by
      have hc := h c List.mem_cons_self
      simp only [Char.isDigit, Bool.and_eq_true, decide_eq_true_eq, UInt32.le_iff_toNat_le] at hc
      exact Nat.sub_le_sub_right hc.2 _
    rw [Nat.ofDigitChars_cons, Nat.ofDigitChars_eq_ofDigitChars_zero, List.length_cons, pow_succ]
    calc 10 ^ cs.length * (10 * 0 + (c.toNat - '0'.toNat)) + Nat.ofDigitChars 10 cs 0
        ≤ 10 ^ cs.length * 9 + Nat.ofDigitChars 10 cs 0 := by
          rw [Nat.mul_zero, Nat.zero_add]
          exact Nat.add_le_add_right (Nat.mul_le_mul_left _ hdigit) _
      _ < 10 ^ cs.length * 10 := by omega

theorem ofDigitChars_append_zeros (cs : List Char) (k : ℕ) :
    Nat.ofDigitChars 10 (cs ++ List.replicate k '0') 0 = Nat.ofDigitChars 10 cs 0 * 10 ^ k := by
  rw [Nat.ofDigitChars_append, Nat.ofDigitChars_replicate_zero, Nat.mul_comm]

theorem ofDigitChars_append_digits (cs ds : List Char) :
    Nat.ofDigitChars 10 (cs ++ ds) 0 = Nat.ofDigitChars 10 cs 0 * 10 ^ ds.length + Nat.ofDigitChars 10 ds 0 := by
  rw [Nat.ofDigitChars_append, Nat.ofDigitChars_eq_ofDigitChars_zero, Nat.mul_comm]

/-- only zeros have no value -/
theorem ofDigitChars_eq_zero_iff {cs : List Char} (h : ∀ c ∈ cs, c.isDigit = true) :
    Nat.ofDigitChars 10 cs 0 = 0 ↔ ∀ c ∈ cs, c = '0' := by
  induction cs with
  | nil => simp
  | cons c cs ih =>
    have hc := h c List.mem_cons_self
    have ih := ih fun c' hc' => h c' (List.mem_cons_of_mem c hc')
    have hzero : c.toNat - '0'.toNat = 0 ↔ c = '0' := by
      simp only [Char.isDigit, Bool.and_eq_true, decide_eq_true_eq, UInt32.le_iff_toNat_le] at hc
      constructor
      · intro heq
        exact Char.toNat_inj.1 (Nat.le_antisymm (Nat.sub_eq_zero_iff_le.1 heq) hc.1)
      · rintro rfl
        rfl
    rw [Nat.ofDigitChars_cons, Nat.ofDigitChars_eq_ofDigitChars_zero, Nat.add_eq_zero_iff, ih, List.forall_mem_cons,
      Nat.mul_zero, Nat.zero_add, Nat.mul_eq_zero, hzero]
    simp

/-- the first point ends the whole part -/
theorem parseChars_point {whole frac : List Char} (hne : whole ≠ []) (hwhole : ∀ c ∈ whole, c.isDigit = true)
    (hfrac : ∀ c ∈ frac, c.isDigit = true) :
    parseChars (whole ++ '.' :: frac) = some ((Nat.ofDigitChars 10 (whole ++ frac) 0 : ℚ) / 10 ^ frac.length) := by
  have hdigits : ∀ c ∈ whole, decide (c ≠ '.') = true := by
    intro c hc
    simpa using ne_point_of_isDigit (hwhole c hc)
  have htake : (whole ++ '.' :: frac).takeWhile (· ≠ '.') = whole := by
    rw [List.takeWhile_append_of_pos hdigits]
    simp
  have hdrop : (whole ++ '.' :: frac).dropWhile (· ≠ '.') = '.' :: frac := by
    rw [List.dropWhile_append_of_pos hdigits]
    simp
  have hall : whole ≠ [] ∧ whole.all Char.isDigit ∧ frac.all Char.isDigit :=
    ⟨hne, List.all_eq_true.2 hwhole, List.all_eq_true.2 hfrac⟩
  simp only [parseChars, htake, hdrop, List.drop_succ_cons, List.drop_zero]
  rw [if_pos hall]

/-- the decimal text of a number -/
theorem parse_toString (n : ℕ) : parse (toString n) = some (n : ℚ) := by
  have hdigits : ∀ c ∈ Nat.toDigits 10 n, c.isDigit = true := by
    intro c hc
    exact Text.isDigit_of_mem_toDigits hc
  have hpoint : ∀ c ∈ Nat.toDigits 10 n, decide (c ≠ '.') = true := by
    intro c hc
    simpa using ne_point_of_isDigit (hdigits c hc)
  have htake : (Nat.toDigits 10 n).takeWhile (· ≠ '.') = Nat.toDigits 10 n := List.takeWhile_eq_self_iff.2 hpoint
  have hdrop : (Nat.toDigits 10 n).dropWhile (· ≠ '.') = [] := List.dropWhile_eq_nil_iff.2 hpoint
  have hall : Nat.toDigits 10 n ≠ [] ∧ (Nat.toDigits 10 n).all Char.isDigit ∧ ([] : List Char).all Char.isDigit :=
    ⟨Nat.toDigits_ne_nil, List.all_eq_true.2 hdigits, rfl⟩
  unfold parse
  rw [Text.toList_toString]
  simp only [parseChars, htake, hdrop, List.drop_nil]
  rw [if_pos hall, List.append_nil, Nat.ofDigitChars_ten_toDigits]
  simp

theorem isDigit_of_mem_padded {s n : ℕ} {c : Char} (h : c ∈ padded s n) : c.isDigit = true := by
  rcases List.mem_append.1 h with hzero | hdigit
  · rw [List.eq_of_mem_replicate hzero]
    decide
  · exact Text.isDigit_of_mem_toDigits hdigit

theorem padded_ne_nil (s n : ℕ) : padded s n ≠ [] := by
  intro h
  exact Nat.toDigits_ne_nil (List.append_eq_nil_iff.1 h).2

theorem length_padded {s n : ℕ} (hs : 0 < s) (hn : n < 10 ^ s) : (padded s n).length = s := by
  have hle : (Nat.toDigits 10 n).length ≤ s := by
    rw [Nat.length_toDigits_le_iff (by omega) hs]
    exact hn
  rw [padded, List.length_append, List.length_replicate]
  omega

/-- the zeros in front do not count -/
theorem ofDigitChars_padded (s n : ℕ) : Nat.ofDigitChars 10 (padded s n) 0 = n := by
  rw [padded, Nat.ofDigitChars_append, Nat.ofDigitChars_replicate_zero, Nat.mul_zero, Nat.ofDigitChars_ten_toDigits]

/-- a number written with `k` decimals, padded with zeros -/
theorem parse_point {v k : ℕ} (hk : 0 < k) :
    parse (toString (v / 10 ^ k) ++ "." ++
        String.ofList (List.replicate (k - (toString (v % 10 ^ k)).length) '0') ++ toString (v % 10 ^ k)) =
      some ((v : ℚ) / 10 ^ k) := by
  have hlen : (toString (v % 10 ^ k)).length = (Nat.toDigits 10 (v % 10 ^ k)).length := by
    rw [← String.length_toList, Text.toList_toString]
  have hpoint : ".".toList = ['.'] := rfl
  have hlength := length_padded hk (Nat.mod_lt v (by positivity : 0 < 10 ^ k))
  have hvalue : Nat.ofDigitChars 10 (Nat.toDigits 10 (v / 10 ^ k) ++ padded k (v % 10 ^ k)) 0 = v := by
    rw [Nat.ofDigitChars_append, Nat.ofDigitChars_ten_toDigits, Nat.ofDigitChars_eq_ofDigitChars_zero, hlength,
      ofDigitChars_padded]
    exact Nat.div_add_mod v (10 ^ k)
  unfold parse
  simp only [String.toList_append, Text.toList_toString, String.toList_ofList, hlen, hpoint, List.append_assoc,
    List.cons_append, List.nil_append]
  rw [← padded, parseChars_point Nat.toDigits_ne_nil (fun c => Text.isDigit_of_mem_toDigits) fun c => isDigit_of_mem_padded,
    hlength, hvalue]

theorem point_not_mem_toDigits (n : ℕ) : '.' ∉ Nat.toDigits 10 n :=
  Text.not_mem_of_digits (by decide) fun c => Text.isDigit_of_mem_toDigits

theorem mem_printChars {s n : ℕ} {c : Char} (h : c ∈ printChars s n) : c.isDigit = true ∨ c = '.' := by
  rcases List.mem_append.1 h with hwhole | hrest
  · exact .inl (Text.isDigit_of_mem_toDigits hwhole)
  · rcases List.mem_cons.1 hrest with hpoint | hfrac
    · exact .inr hpoint
    · exact .inl (isDigit_of_mem_padded hfrac)

/-- one more decimal -/
theorem padded_succ {s : ℕ} (hs : 0 < s) (n : ℕ) : padded (s + 1) (n * 10) = padded s n ++ ['0'] := by
  rcases Nat.eq_zero_or_pos n with rfl | hn
  · have hzeros : s - 1 + 1 = s := by omega
    simp [padded, ← List.replicate_succ', hzeros]
  · have hdigits : Nat.toDigits 10 (n * 10) = Nat.toDigits 10 n ++ ['0'] := by
      have happend := Nat.toDigits_append_toDigits (by omega : 1 < 10) hn (by omega : 0 < 10)
      rw [Nat.toDigits_zero, Nat.add_zero] at happend
      rw [Nat.mul_comm, ← happend]
    have hzeros : s + 1 - ((Nat.toDigits 10 n).length + 1) = s - (Nat.toDigits 10 n).length := by omega
    rw [padded, padded, hdigits, List.length_append, List.length_singleton, hzeros, List.append_assoc]

theorem padded_mul {s : ℕ} (hs : 0 < s) (n k : ℕ) :
    padded (s + k) (n * 10 ^ k) = padded s n ++ List.replicate k '0' := by
  induction k with
  | zero => simp
  | succ k ih =>
    rw [pow_succ, ← mul_assoc, ← Nat.add_assoc, padded_succ (by omega), ih, List.append_assoc, List.replicate_succ']

/-- **More decimals** are more zeros. -/
theorem printChars_mul {s : ℕ} (hs : 0 < s) (n k : ℕ) :
    printChars (s + k) (n * 10 ^ k) = printChars s n ++ List.replicate k '0' := by
  have hdiv : n * 10 ^ k / 10 ^ (s + k) = n / 10 ^ s := by
    rw [pow_add]
    exact Nat.mul_div_mul_right n (10 ^ s) (by positivity)
  have hmod : n * 10 ^ k % 10 ^ (s + k) = n % 10 ^ s * 10 ^ k := by
    rw [pow_add, Nat.mul_mod_mul_right]
  rw [printChars, printChars, hdiv, hmod, padded_mul hs, List.append_assoc, List.cons_append]

/-- in units of the last decimal -/
theorem scaled_eq {s k n : ℕ} (hk : k ≤ s) : (n : ℚ) / 10 ^ k * 10 ^ s = ((n * 10 ^ (s - k) : ℕ) : ℚ) := by
  have hpow : (10 : ℚ) ^ s = 10 ^ k * 10 ^ (s - k) := by
    rw [← pow_add, Nat.add_sub_cancel' hk]
  rw [hpow]
  push_cast
  field_simp

/-- a printed value of `n` units of the `k`-th decimal -/
theorem print_of_scaled {s k : ℕ} (hk : k ≤ s) (n : ℕ) :
    print s ((n : ℚ) / 10 ^ k) = String.ofList (printChars s (n * 10 ^ (s - k))) := by
  unfold print
  rw [scaled_eq hk, Nat.floor_natCast]

/-! ## Columns -/

/-- **No digit is lost** where the number has no more decimals than the column and fits before the point. -/
theorem fit_of_scaled {p s k n : ℕ} (hk : k ≤ s) (hn : n < 10 ^ (p - s) * 10 ^ k) :
    fit p s ((n : ℚ) / 10 ^ k) = some ((n : ℚ) / 10 ^ k) := by
  have hround : (round ((n : ℚ) / 10 ^ k * 10 ^ s) : ℚ) / 10 ^ s = (n : ℚ) / 10 ^ k := by
    have hint : (round ((n : ℚ) / 10 ^ k * 10 ^ s) : ℚ) = (n : ℚ) / 10 ^ k * 10 ^ s := by
      rw [scaled_eq hk, round_natCast]
      push_cast
      ring
    rw [hint]
    field_simp
  have hlt : (n : ℚ) / 10 ^ k < 10 ^ (p - s) := by
    rw [div_lt_iff₀ (by positivity)]
    exact_mod_cast hn
  simp only [fit, hround]
  exact if_pos hlt

end ObsChain.Numeric
