/-
Texts made of parts. Nothing here mentions the program.

A text that runs parts together says what they were where the cut can be found again: a part of fixed length in front
(`append_inj_of_length`), or a separator that the part in front does not contain (`append_sep_inj`). The decimal text of a
number is made of digits and determines the number; `parseUnsigned` reads it back (`parseUnsigned_toDigits`).

Trimming is at Unicode white space; the change of case is that of ASCII texts.
-/
import Mathlib.Tactic

namespace ObsChain.Text

/-- fronts of one length -/
theorem append_inj_of_length {a a' r r' : String} (hlen : a.length = a'.length) :
    a ++ r = a' ++ r' ↔ a = a' ∧ r = r' := by
  constructor
  · intro h
    have hchars : a.toList ++ r.toList = a'.toList ++ r'.toList := by
      rw [← String.toList_append, ← String.toList_append, h]
    obtain ⟨ha, hr⟩ := List.append_inj hchars (by rw [String.length_toList, String.length_toList, hlen])
    exact ⟨String.toList_inj.1 ha, String.toList_inj.1 hr⟩
  · rintro ⟨rfl, rfl⟩
    rfl

/-- the first separator ends the front -/
theorem chars_append_sep_inj {c : Char} {a a' r r' : List Char} (ha : c ∉ a) (ha' : c ∉ a') :
    a ++ c :: r = a' ++ c :: r' ↔ a = a' ∧ r = r' := by
  induction a generalizing a' with
  | nil =>
    cases a' with
    | nil => simp
    | cons x xs =>
      have hx : c ≠ x := fun h => ha' (h ▸ List.mem_cons_self)
      simp [hx]
  | cons y ys ih =>
    cases a' with
    | nil =>
      have hy : y ≠ c := fun h => ha (h ▸ List.mem_cons_self)
      simp [hy]
    | cons x xs =>
      have ih := ih (fun h => ha (List.mem_cons_of_mem y h)) fun h => ha' (List.mem_cons_of_mem x h)
      simp only [List.cons_append, List.cons.injEq, ih, and_assoc]

/-- fronts without the separator -/
theorem append_sep_inj {c : Char} {sep a a' r r' : String} (hsep : sep.toList = [c]) (ha : c ∉ a.toList)
    (ha' : c ∉ a'.toList) : a ++ (sep ++ r) = a' ++ (sep ++ r') ↔ a = a' ∧ r = r' := by
  rw [← String.toList_inj, ← String.toList_inj, ← String.toList_inj]
  simp only [String.toList_append, hsep, List.singleton_append]
  exact chars_append_sep_inj ha ha'

/-! ## Decimal texts -/

theorem toList_toString (n : ℕ) : (toString n).toList = Nat.toDigits 10 n := Nat.toList_repr

theorem isDigit_of_mem_toString {n : ℕ} {c : Char} (h : c ∈ (toString n).toList) : c.isDigit = true := by
  rw [toList_toString] at h
  exact Nat.isDigit_of_mem_toDigits (by omega) (by omega) h

/-- the number is read back from its digits -/
theorem toString_inj {n m : ℕ} : toString n = toString m ↔ n = m := by
  constructor
  · intro h
    have hread : Nat.ofDigitChars 10 (toString n).toList 0 = Nat.ofDigitChars 10 (toString m).toList 0 := by
      rw [h]
    rwa [toList_toString, toList_toString, Nat.ofDigitChars_ten_toDigits, Nat.ofDigitChars_ten_toDigits] at hread
  · intro h
    rw [h]

/-- a text that starts with something else is no decimal text -/
theorem toString_ne_of_not_digit {n : ℕ} {s r : String} {c : Char} (hs : c ∈ s.toList) (hc : c.isDigit = false) :
    s ++ r ≠ toString n := by
  intro h
  have hmem : c ∈ (toString n).toList := by
    rw [← h, String.toList_append]
    exact List.mem_append_left _ hs
  rw [isDigit_of_mem_toString hmem] at hc
  cases hc

/-- an unsigned number below the bound: an optional plus sign, then digits -/
def parseUnsigned (bound : ℕ) (cs : List Char) : Option ℕ :=
  let digits := match cs with
    | '+' :: rest => rest
    | all => all
  if digits ≠ [] ∧ digits.all Char.isDigit then
    some (Nat.ofDigitChars 10 digits 0) |>.filter (· < bound)
  else none

/-- the text after an optional plus sign -/
def withoutPlus : List Char → List Char
  | '+' :: rest => rest
  | all => all

theorem withoutPlus_eq_self {cs : List Char} (h : '+' ∉ cs) : withoutPlus cs = cs := by
  unfold withoutPlus
  split
  · exact absurd List.mem_cons_self h
  · rfl

theorem not_mem_of_digits {cs : List Char} {x : Char} (hx : x.isDigit = false) (h : ∀ c ∈ cs, c.isDigit = true) :
    x ∉ cs := by
  intro hmem
  rw [h x hmem] at hx
  cases hx

theorem withoutPlus_digits {cs : List Char} (h : ∀ c ∈ cs, c.isDigit = true) : withoutPlus cs = cs :=
  withoutPlus_eq_self (not_mem_of_digits (by decide) h)

/-- **What is an unsigned number.** -/
theorem parseUnsigned_eq_some_iff {bound n : ℕ} {cs : List Char} :
    parseUnsigned bound cs = some n ↔ (withoutPlus cs ≠ [] ∧ ∀ c ∈ withoutPlus cs, c.isDigit = true) ∧
      Nat.ofDigitChars 10 (withoutPlus cs) 0 = n ∧ n < bound := by
  have hparse : parseUnsigned bound cs =
      if withoutPlus cs ≠ [] ∧ (withoutPlus cs).all Char.isDigit then
        (some (Nat.ofDigitChars 10 (withoutPlus cs) 0)).filter (· < bound)
      else none := rfl
  rw [hparse]
  simp only [List.all_eq_true]
  split_ifs with hdigits
  · rw [Option.filter_eq_some_iff, Option.some.injEq, decide_eq_true_eq]
    exact (and_iff_right hdigits).symm
  · constructor
    · intro h
      cases h
    · intro ⟨hdigits', _⟩
      exact absurd hdigits' hdigits

/-- digits without a sign -/
theorem parseUnsigned_digits {bound : ℕ} {cs : List Char} (hne : cs ≠ []) (hdigits : ∀ c ∈ cs, c.isDigit = true)
    (hlt : Nat.ofDigitChars 10 cs 0 < bound) : parseUnsigned bound cs = some (Nat.ofDigitChars 10 cs 0) := by
  rw [parseUnsigned_eq_some_iff, withoutPlus_digits hdigits]
  exact ⟨⟨hne, hdigits⟩, rfl, hlt⟩

theorem isDigit_of_mem_toDigits {n : ℕ} {c : Char} (h : c ∈ Nat.toDigits 10 n) : c.isDigit = true :=
  Nat.isDigit_of_mem_toDigits (by omega) (by omega) h

/-- **The number is read back** from its digits. -/
theorem parseUnsigned_toDigits {bound n : ℕ} (h : n < bound) : parseUnsigned bound (Nat.toDigits 10 n) = some n := by
  have hvalue : Nat.ofDigitChars 10 (Nat.toDigits 10 n) 0 = n := Nat.ofDigitChars_ten_toDigits
  rw [parseUnsigned_digits Nat.toDigits_ne_nil (fun c => isDigit_of_mem_toDigits) (hvalue.trans_lt h), hvalue]

/-! ## Clean texts -/

/-- the property `White_Space` -/
def isWhiteSpace (c : Char) : Bool :=
  (9 ≤ c.toNat && c.toNat ≤ 13) || (0x2000 ≤ c.toNat && c.toNat ≤ 0x200a) ||
    c.toNat ∈ [0x20, 0x85, 0xa0, 0x1680, 0x2028, 0x2029, 0x202f, 0x205f, 0x3000]

def trim (cs : List Char) : List Char :=
  ((cs.dropWhile isWhiteSpace).reverse.dropWhile isWhiteSpace).reverse

/-- the parts before and after the first separator -/
def splitOnce (sep : Char) (cs : List Char) : Option (List Char × List Char) :=
  if sep ∈ cs then some (cs.takeWhile (· ≠ sep), (cs.dropWhile (· ≠ sep)).drop 1) else none

/-- the same for a separator of several characters -/
def splitOnceAt (sep : List Char) : List Char → Option (List Char × List Char)
  | [] => if sep = [] then some ([], []) else none
  | c :: cs =>
    if sep <+: c :: cs then some ([], (c :: cs).drop sep.length)
    else (splitOnceAt sep cs).map fun p => (c :: p.1, p.2)

def toAsciiUppercase (s : String) : String := String.ofList (s.toList.map Char.toUpper)

def toAsciiLowercase (s : String) : String := String.ofList (s.toList.map Char.toLower)

theorem isWhiteSpace_of_isDigit {c : Char} (h : c.isDigit = true) : isWhiteSpace c = false := by
  have hrange : 48 ≤ c.toNat ∧ c.toNat ≤ 57 := by
    simpa [Char.isDigit, UInt32.le_iff_toNat_le] using h
  simp only [isWhiteSpace, Bool.or_eq_false_iff, Bool.and_eq_false_iff, decide_eq_false_iff_not, List.mem_cons,
    List.not_mem_nil, or_false]
  omega

/-- nothing to trim -/
theorem trim_eq_self {cs : List Char} (h : ∀ c ∈ cs, isWhiteSpace c = false) : trim cs = cs := by
  have hself : ∀ l : List Char, (∀ c ∈ l, isWhiteSpace c = false) → l.dropWhile isWhiteSpace = l := by
    intro l hl
    cases l with
    | nil => rfl
    | cons c l => simp [hl c List.mem_cons_self]
  unfold trim
  rw [hself cs h, hself cs.reverse (fun c hc => h c (List.mem_reverse.1 hc)), List.reverse_reverse]

/-- white space around a text that has none at its ends -/
theorem trim_append {lead after cs : List Char} (hlead : ∀ c ∈ lead, isWhiteSpace c = true)
    (hafter : ∀ c ∈ after, isWhiteSpace c = true) (h : ∀ c ∈ cs, isWhiteSpace c = false) (hne : cs ≠ []) :
    trim (lead ++ cs ++ after) = cs := by
  have hdrop : ∀ pre l rest : List Char, (∀ c ∈ pre, isWhiteSpace c = true) → (∀ c ∈ l, isWhiteSpace c = false) →
      l ≠ [] → (pre ++ (l ++ rest)).dropWhile isWhiteSpace = l ++ rest := by
    intro pre l rest hpre hl hlne
    rw [List.dropWhile_append_of_pos hpre]
    cases l with
    | nil => exact absurd rfl hlne
    | cons c l => simp [hl c List.mem_cons_self]
  have hback := hdrop after.reverse cs.reverse [] (fun c hc => hafter c (List.mem_reverse.1 hc))
    (fun c hc => h c (List.mem_reverse.1 hc)) (by simpa using hne)
  rw [List.append_nil] at hback
  unfold trim
  rw [List.append_assoc, hdrop lead cs after hlead h hne, List.reverse_append, hback, List.reverse_reverse]

theorem takeWhile_sep {sep : Char} {front rest : List Char} (h : sep ∉ front) :
    (front ++ sep :: rest).takeWhile (· ≠ sep) = front := by
  rw [List.takeWhile_append_of_pos]
  · simp
  · intro c hc
    have hne : c ≠ sep := fun heq => h (heq ▸ hc)
    simpa using hne

theorem dropWhile_sep {sep : Char} {front rest : List Char} (h : sep ∉ front) :
    (front ++ sep :: rest).dropWhile (· ≠ sep) = sep :: rest := by
  rw [List.dropWhile_append_of_pos]
  · simp
  · intro c hc
    have hne : c ≠ sep := fun heq => h (heq ▸ hc)
    simpa using hne

theorem splitOnce_sep {sep : Char} {front rest : List Char} (h : sep ∉ front) :
    splitOnce sep (front ++ sep :: rest) = some (front, rest) := by
  unfold splitOnce
  rw [if_pos (by simp), takeWhile_sep h, dropWhile_sep h]
  rfl

/-- **The parts of a text.** -/
theorem splitOnce_eq_some_iff {sep : Char} {cs front rest : List Char} :
    splitOnce sep cs = some (front, rest) ↔ cs = front ++ sep :: rest ∧ sep ∉ front := by
  refine ⟨fun h => ?_, fun h => ?_⟩
  · by_cases hmem : sep ∈ cs
    · obtain ⟨front', rest', rfl, hfront⟩ := List.eq_append_cons_of_mem hmem
      rw [splitOnce_sep hfront] at h
      cases h
      exact ⟨rfl, hfront⟩
    · rw [splitOnce, if_neg hmem] at h
      cases h
  · rw [h.1, splitOnce_sep h.2]

theorem splitOnce_eq_none_iff {sep : Char} {cs : List Char} : splitOnce sep cs = none ↔ sep ∉ cs := by
  simp [splitOnce]

/-- what follows the text goes to its second part -/
theorem splitOnce_append {sep : Char} {cs front rest : List Char} (h : splitOnce sep cs = some (front, rest))
    (l : List Char) : splitOnce sep (cs ++ l) = some (front, rest ++ l) := by
  obtain ⟨rfl, hfront⟩ := splitOnce_eq_some_iff.1 h
  rw [List.append_assoc, List.cons_append, splitOnce_sep hfront]

theorem splitOnceAt_front {sep cs : List Char} (h : sep <+: cs) :
    splitOnceAt sep cs = some ([], cs.drop sep.length) := by
  cases cs with
  | nil => simp [splitOnceAt, List.prefix_nil.1 h]
  | cons c cs => rw [splitOnceAt, if_pos h]

theorem splitOnceAt_cons {sep cs : List Char} {c : Char} (h : ¬ sep <+: c :: cs) :
    splitOnceAt sep (c :: cs) = (splitOnceAt sep cs).map fun p => (c :: p.1, p.2) := by
  rw [splitOnceAt, if_neg h]

/-- the parts make up the text -/
theorem splitOnceAt_eq {sep cs front rest : List Char} (h : splitOnceAt sep cs = some (front, rest)) :
    cs = front ++ (sep ++ rest) := by
  induction cs generalizing front with
  | nil =>
    by_cases hsep : sep = []
    · simp [splitOnceAt, hsep] at h
      simp [hsep, h]
    · simp [splitOnceAt, hsep] at h
  | cons c cs ih =>
    by_cases hstart : sep <+: c :: cs
    · rw [splitOnceAt_front hstart] at h
      cases h
      exact (List.prefix_iff_eq_append.1 hstart).symm
    · rw [splitOnceAt_cons hstart] at h
      obtain ⟨⟨front', rest'⟩, hsplit, heq⟩ := Option.map_eq_some_iff.1 h
      cases heq
      rw [ih hsplit]
      rfl

/-- a separator that a text has is the first one of every longer text -/
theorem splitOnceAt_append {sep cs front rest : List Char} (h : splitOnceAt sep cs = some (front, rest)) (l : List Char) :
    splitOnceAt sep (cs ++ l) = some (front, rest ++ l) := by
  induction cs generalizing front with
  | nil =>
    by_cases hsep : sep = []
    · simp [splitOnceAt, hsep] at h
      obtain ⟨rfl, rfl⟩ := h
      cases l <;> simp [splitOnceAt, hsep]
    · simp [splitOnceAt, hsep] at h
  | cons c cs ih =>
    by_cases hstart : sep <+: c :: cs
    · rw [splitOnceAt_front hstart] at h
      cases h
      rw [splitOnceAt_front (hstart.trans (List.prefix_append _ l)), List.drop_append_of_le_length hstart.length_le]
    · rw [splitOnceAt_cons hstart] at h
      obtain ⟨⟨front', rest'⟩, hsplit, heq⟩ := Option.map_eq_some_iff.1 h
      cases heq
      -- it is not at the front of the longer text either, being no longer than the rest
      have hlength : sep.length ≤ (c :: cs).length := by
        simp [splitOnceAt_eq hsplit]
        omega
      have hlonger : ¬ sep <+: c :: (cs ++ l) := fun hp =>
        hstart (List.prefix_of_prefix_length_le hp (List.prefix_append (c :: cs) l) hlength)
      rw [List.cons_append, splitOnceAt_cons hlonger, ih hsplit]
      rfl

/-- a separator that does not overlap itself is found where the first part ends -/
theorem splitOnceAt_sep {c : Char} {sep front : List Char} (hsep : c ∉ sep) (h : splitOnceAt (c :: sep) front = none)
    (rest : List Char) : splitOnceAt (c :: sep) (front ++ (c :: sep ++ rest)) = some (front, rest) := by
  induction front with
  | nil => rw [List.nil_append, splitOnceAt_front (List.prefix_append _ rest), List.drop_left]
  | cons x front ih =>
    by_cases hstart : c :: sep <+: x :: front
    · rw [splitOnceAt_front hstart] at h
      cases h
    rw [splitOnceAt_cons hstart, Option.map_eq_none_iff] at h
    have hlater : ¬ c :: sep <+: x :: (front ++ (c :: sep ++ rest)) := by
      intro hp
      have hfront : x :: front <+: x :: (front ++ (c :: sep ++ rest)) := List.prefix_append (x :: front) _
      rcases le_total (c :: sep).length (x :: front).length with hle | hle
      · exact hstart (List.prefix_of_prefix_length_le hp hfront hle)
      · -- it begins before the separator and ends in it: its first character comes twice
        obtain ⟨t, ht⟩ := List.prefix_of_prefix_length_le hfront hp hle
        rw [← List.cons_append, ← ht, List.prefix_append_right_inj] at hp
        rw [List.cons_append, List.cons.injEq] at ht
        cases t with
        | nil => exact hstart ⟨[], by simp [ht.1, ← ht.2]⟩
        | cons y t =>
          obtain ⟨hy, -⟩ := List.cons_prefix_cons.1 hp
          apply hsep
          rw [← ht.2, hy, ht.1]
          exact List.mem_append_right _ List.mem_cons_self
    rw [List.cons_append, splitOnceAt_cons hlater, ih h]
    rfl

end ObsChain.Text
