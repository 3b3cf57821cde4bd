/-
Amounts (`amount.rs`): `btc_str_to_sats`, from the decimal text of an amount in BTC to satoshis.

The text is split at its points, the whole part is read by the parser of unsigned integers, and a loop over eight places
collects the fraction. So a plus sign is read over, a point alone is an amount of zero, and what follows the eighth decimal
is not looked at.

- `btcStrToSats_ok_iff`: what is accepted, and its amount.
- `exact_or_rejected_iff`: which texts are accepted only as what they denote.
- `written_round_trip`: every amount is read back from each way to write it, and amounts beyond the supply are errors.

The loop looks at bytes; the first byte that is no digit belongs to the first character that is none.
-/
import Mathlib.Tactic
import ObsChain.Core.Numeric

namespace ObsChain

def satsPerBtc : ℕ := 100000000

def maxMoneySats : ℕ := 21000000 * satsPerBtc

inductive AmountError where
  | negative
  | nonFinite
  | exceedsMaxSupply
  | invalidDecimal (message : String)
  | overflow
deriving DecidableEq, Repr

/-- `[b'0'; 8]`, overwritten from the front with what there is -/
def fracPadded (fracStr : List Char) : List Char :=
  fracStr.take 8 ++ List.replicate (8 - (fracStr.take 8).length) '0'

def btcStrToSats (btcStr : String) : Except AmountError ℕ :=
  let s := Text.trim btcStr.toList
  if s = [] then .error (.invalidDecimal "empty string")
  else if s.head? = some '-' then .error .negative
  else
    let parts := s.splitOn '.'
    let wholeStr := (parts[0]?).getD ['0']
    let wholeStr := if wholeStr = [] then ['0'] else wholeStr
    let fracStr := (parts[1]?).getD []
    if (parts[2]?).isSome then .error (.invalidDecimal "multiple decimal points")
    else
      match Text.parseUnsigned (2 ^ 64) wholeStr with
      | none => .error (.invalidDecimal "invalid whole part")
      | some whole =>
        if !(fracStr.take 8).all Char.isDigit then .error (.invalidDecimal "non-digit in fraction")
        else
          match Text.parseUnsigned (2 ^ 64) (fracPadded fracStr) with
          | none => .error (.invalidDecimal "invalid frac part")
          | some fracVal =>
            let wholeSats := whole * satsPerBtc
            if wholeSats ≥ 2 ^ 64 then .error .overflow
            else
              let total := wholeSats + fracVal
              if total ≥ 2 ^ 64 then .error .overflow
              else if total > maxMoneySats then .error .exceedsMaxSupply
              else .ok total

example : btcStrToSats " 1.5 " = .ok 150000000 ∧ btcStrToSats ".5" = .ok 50000000 ∧ btcStrToSats "-1.0" = .error .negative ∧
    btcStrToSats "21000001.0" = .error .exceedsMaxSupply := by
  decide +kernel

namespace Amount

open Numeric Text

/-! ## What is accepted -/

/-- the part before the first point -/
def whole (cs : List Char) : List Char := cs.takeWhile (· ≠ '.')

/-- the part after the first point -/
def fraction (cs : List Char) : List Char := (cs.dropWhile (· ≠ '.')).drop 1

/-- the whole part and eight decimals, in satoshis -/
def amount (cs : List Char) : ℕ :=
  Nat.ofDigitChars 10 (withoutPlus (whole cs)) 0 * satsPerBtc + Nat.ofDigitChars 10 (fracPadded (fraction cs)) 0

/-- an optional plus sign, digits, and after an optional point digits in the first eight places; no more than the supply -/
structure Acceptable (cs : List Char) : Prop where
  nonempty : cs ≠ []
  onePoint : '.' ∉ fraction cs
  digits : whole cs = [] ∨ (withoutPlus (whole cs) ≠ [] ∧ ∀ c ∈ withoutPlus (whole cs), c.isDigit = true)
  decimals : ∀ c ∈ (fraction cs).take 8, c.isDigit = true
  supply : amount cs ≤ maxMoneySats

theorem point_not_mem_whole (cs : List Char) : '.' ∉ whole cs := by
  intro h
  have hne := List.mem_takeWhile_imp h
  simp at hne

/-- the first point ends the whole part -/
theorem parts_of_point {w f : List Char} (h : '.' ∉ w) : whole (w ++ '.' :: f) = w ∧ fraction (w ++ '.' :: f) = f :=
  ⟨takeWhile_sep h, by rw [fraction, dropWhile_sep h, List.drop_one, List.tail_cons]⟩

theorem eq_whole_append {cs : List Char} (h : '.' ∈ cs) : cs = whole cs ++ '.' :: fraction cs := by
  obtain ⟨w, f, rfl, hw⟩ := List.eq_append_cons_of_mem h
  obtain ⟨hwhole, hfraction⟩ := @parts_of_point w f hw
  rw [hwhole, hfraction]

theorem parts_of_no_point {cs : List Char} (h : '.' ∉ cs) : whole cs = cs ∧ fraction cs = [] := by
  have hne : ∀ c ∈ cs, decide (c ≠ '.') = true := by
    intro c hc
    have hne : c ≠ '.' := fun heq => h (heq ▸ hc)
    simpa using hne
  exact ⟨List.takeWhile_eq_self_iff.2 hne, by rw [fraction, List.dropWhile_eq_nil_iff.2 hne, List.drop_nil]⟩

/-- the parts between the points -/
theorem splitOn_point (cs : List Char) :
    cs.splitOn '.' = whole cs :: if '.' ∈ cs then (fraction cs).splitOn '.' else [] := by
  by_cases h : '.' ∈ cs
  · have hsplit := List.splitOn_append_cons_self_of_not_mem (point_not_mem_whole cs) (fraction cs)
    rw [← eq_whole_append h] at hsplit
    rw [hsplit, if_pos h]
  · rw [List.splitOn_eq_singleton h, if_neg h, (parts_of_no_point h).1]

/-- a second point -/
theorem isSome_third_part (cs : List Char) : ((cs.splitOn '.')[2]?).isSome ↔ '.' ∈ fraction cs := by
  rw [splitOn_point]
  by_cases h : '.' ∈ cs
  · rw [if_pos h, splitOn_point (fraction cs)]
    by_cases h' : '.' ∈ fraction cs
    · obtain ⟨l, hl⟩ : ∃ l, (fraction (fraction cs)).splitOn '.' = whole (fraction (fraction cs)) :: l :=
        ⟨_, splitOn_point _⟩
      simp [h', hl]
    · simp [h']
  · simp [h, (parts_of_no_point h).2]

theorem second_part {cs : List Char} (h : '.' ∉ fraction cs) : ((cs.splitOn '.')[1]?).getD [] = fraction cs := by
  rw [splitOn_point]
  by_cases hpoint : '.' ∈ cs
  · rw [if_pos hpoint, List.splitOn_eq_singleton h]
    rfl
  · rw [if_neg hpoint, (parts_of_no_point hpoint).2]
    rfl

theorem isDigit_of_mem_fracPadded {frac : List Char} (h : ∀ c ∈ frac.take 8, c.isDigit = true) :
    ∀ c ∈ fracPadded frac, c.isDigit = true := by
  intro c hc
  rcases List.mem_append.1 hc with hdigit | hzero
  · exact h c hdigit
  · rw [List.eq_of_mem_replicate hzero]
    decide

theorem length_fracPadded (frac : List Char) : (fracPadded frac).length = 8 := by
  rw [fracPadded, List.length_append, List.length_replicate, List.length_take]
  omega

/-- eight digits are a number that fits -/
theorem parse_fracPadded {frac : List Char} (h : ∀ c ∈ frac.take 8, c.isDigit = true) :
    parseUnsigned (2 ^ 64) (fracPadded frac) = some (Nat.ofDigitChars 10 (fracPadded frac) 0) := by
  have hdigits := isDigit_of_mem_fracPadded h
  have hlt := ofDigitChars_lt hdigits
  have hne : fracPadded frac ≠ [] := by
    intro hnil
    have hlength := length_fracPadded frac
    rw [hnil] at hlength
    cases hlength
  rw [length_fracPadded] at hlt
  exact parseUnsigned_digits hne hdigits (hlt.trans (by norm_num))

/-- the whole part as it is read, an empty one as zero -/
theorem parse_whole_eq_some_iff {w : List Char} {n : ℕ} :
    parseUnsigned (2 ^ 64) (if w = [] then ['0'] else w) = some n ↔
      (w = [] ∨ (withoutPlus w ≠ [] ∧ ∀ c ∈ withoutPlus w, c.isDigit = true)) ∧
        Nat.ofDigitChars 10 (withoutPlus w) 0 = n ∧ n < 2 ^ 64 := by
  by_cases hw : w = []
  · have hzero : parseUnsigned (2 ^ 64) ['0'] = some 0 := by decide +kernel
    rw [if_pos hw, hzero, hw]
    constructor
    · rintro ⟨⟩
      exact ⟨.inl rfl, rfl, by norm_num⟩
    · rintro ⟨-, hn, -⟩
      exact congrArg some hn
  · rw [if_neg hw, parseUnsigned_eq_some_iff, or_iff_right hw]

/-- a sign is no digit -/
theorem Acceptable.head_ne_minus {cs : List Char} (h : Acceptable cs) : cs.head? ≠ some '-' := by
  intro hhead
  obtain ⟨rest, rfl⟩ := List.head?_eq_some_iff.1 hhead
  have hwhole : whole ('-' :: rest) = '-' :: whole rest := rfl
  have hdigits := h.digits
  rw [hwhole] at hdigits
  rcases hdigits with hnil | ⟨-, hdigits⟩
  · cases hnil
  · exact absurd (hdigits '-' List.mem_cons_self) (by decide)

/-- **What is accepted, and its amount.** -/
theorem btcStrToSats_ok_iff (btcStr : String) (n : ℕ) :
    btcStrToSats btcStr = .ok n ↔ Acceptable (trim btcStr.toList) ∧ amount (trim btcStr.toList) = n := by
  unfold btcStrToSats
  generalize trim btcStr.toList = cs
  have hfirst : (cs.splitOn '.')[0]? = some (whole cs) := by
    rw [splitOn_point]
    rfl
  have hsupply : maxMoneySats < 2 ^ 64 := by decide
  dsimp only
  rw [hfirst, Option.getD_some]
  constructor
  · intro h
    by_cases hnil : cs = []
    · rw [if_pos hnil] at h
      cases h
    rw [if_neg hnil] at h
    by_cases hminus : cs.head? = some '-'
    · rw [if_pos hminus] at h
      cases h
    rw [if_neg hminus] at h
    by_cases hthird : '.' ∈ fraction cs
    · rw [if_pos ((isSome_third_part cs).2 hthird)] at h
      cases h
    rw [if_neg fun hsome => hthird ((isSome_third_part cs).1 hsome), second_part hthird] at h
    cases hw : parseUnsigned (2 ^ 64) (if whole cs = [] then ['0'] else whole cs) with
    | none =>
      rw [hw] at h
      cases h
    | some w =>
      obtain ⟨hdigits, hvalue, -⟩ := parse_whole_eq_some_iff.1 hw
      rw [hw] at h
      dsimp only at h
      by_cases hfrac : ((fraction cs).take 8).all Char.isDigit = true
      · have hdecimals := List.all_eq_true.1 hfrac
        rw [if_neg (by simp [hfrac]), parse_fracPadded hdecimals] at h
        dsimp only at h
        split_ifs at h with hover hover' hmax
        have hamount : amount cs = n := by
          rw [amount, hvalue]
          exact Except.ok.inj h
        rw [← hvalue] at hmax
        exact ⟨⟨hnil, hthird, hdigits, hdecimals, not_lt.1 hmax⟩, hamount⟩
      · rw [if_pos (by simpa using hfrac)] at h
        cases h
  · rintro ⟨h, rfl⟩
    have hle := h.supply
    have hwhole : Nat.ofDigitChars 10 (withoutPlus (whole cs)) 0 * satsPerBtc ≤ amount cs := Nat.le_add_right _ _
    have hw : parseUnsigned (2 ^ 64) (if whole cs = [] then ['0'] else whole cs) =
        some (Nat.ofDigitChars 10 (withoutPlus (whole cs)) 0) := by
      refine parse_whole_eq_some_iff.2 ⟨h.digits, rfl, ?_⟩
      have hone : 1 ≤ satsPerBtc := by decide
      exact ((Nat.le_mul_of_pos_right _ hone).trans (hwhole.trans hle)).trans_lt hsupply
    rw [if_neg h.nonempty, if_neg h.head_ne_minus, if_neg fun hsome => h.onePoint ((isSome_third_part cs).1 hsome),
      second_part h.onePoint, hw]
    dsimp only
    rw [if_neg (by simpa using h.decimals), parse_fracPadded h.decimals]
    dsimp only
    rw [if_neg (not_le.2 ((hwhole.trans hle).trans_lt hsupply)), ← amount, if_neg (not_le.2 (hle.trans_lt hsupply)),
      if_neg (not_lt.2 hle)]

/-! ## What is denoted -/

/-- digits with at most one point, at least one digit, and a value of exactly so many satoshis -/
def Denotes (cs : List Char) (n : ℕ) : Prop :=
  ∃ w f, (∀ c ∈ w ++ f, c.isDigit = true) ∧ w ++ f ≠ [] ∧ (cs = w ++ '.' :: f ∨ (f = [] ∧ cs = w)) ∧
    (Nat.ofDigitChars 10 (w ++ f) 0 : ℚ) / 10 ^ f.length = (n : ℚ) / 10 ^ 8

/-- the digits of both parts in units of the last one, against the eight decimals that count -/
theorem ofDigitChars_parts (w f : List Char) :
    Nat.ofDigitChars 10 (w ++ f) 0 * 10 ^ (8 - f.length) =
      (Nat.ofDigitChars 10 w 0 * satsPerBtc + Nat.ofDigitChars 10 (fracPadded f) 0) * 10 ^ (f.length - 8) +
        Nat.ofDigitChars 10 (f.drop 8) 0 := by
  have hunit : satsPerBtc = 10 ^ 8 := by decide
  have hfront : Nat.ofDigitChars 10 (w ++ fracPadded f) 0 =
      Nat.ofDigitChars 10 w 0 * satsPerBtc + Nat.ofDigitChars 10 (fracPadded f) 0 := by
    rw [ofDigitChars_append_digits, length_fracPadded, hunit]
  rw [← hfront]
  rcases Nat.le_total f.length 8 with hle | hge
  · -- zeros are added
    have hpad : fracPadded f = f ++ List.replicate (8 - f.length) '0' := by
      rw [fracPadded, List.take_of_length_le hle]
    rw [hpad, ← List.append_assoc, ofDigitChars_append_zeros, List.drop_of_length_le hle, Nat.sub_eq_zero_of_le hle,
      pow_zero, Nat.mul_one, Nat.ofDigitChars_nil, Nat.add_zero]
  · -- the rest is cut
    have htake : (f.take 8).length = 8 := List.length_take_of_le hge
    have hpad : fracPadded f = f.take 8 := by
      rw [fracPadded, htake, Nat.sub_self, List.replicate_zero, List.append_nil]
    have hsplit : w ++ f = (w ++ f.take 8) ++ f.drop 8 := by rw [List.append_assoc, List.take_append_drop]
    rw [Nat.sub_eq_zero_of_le hge, pow_zero, Nat.mul_one, hsplit, ofDigitChars_append_digits, List.length_drop, hpad]

/-- **The value is exact** when nothing but zeros is cut. -/
theorem value_eq_iff (w f : List Char) :
    (Nat.ofDigitChars 10 (w ++ f) 0 : ℚ) / 10 ^ f.length =
        ((Nat.ofDigitChars 10 w 0 * satsPerBtc + Nat.ofDigitChars 10 (fracPadded f) 0 : ℕ) : ℚ) / 10 ^ 8 ↔
      Nat.ofDigitChars 10 (f.drop 8) 0 = 0 := by
  have hparts := ofDigitChars_parts w f
  set value := Nat.ofDigitChars 10 (w ++ f) 0
  set sats := Nat.ofDigitChars 10 w 0 * satsPerBtc + Nat.ofDigitChars 10 (fracPadded f) 0
  have hpow : 10 ^ f.length * 10 ^ (8 - f.length) = 10 ^ 8 * 10 ^ (f.length - 8) := by
    rw [← pow_add, ← pow_add]
    congr 1
    omega
  have hscale : 0 < 10 ^ (8 - f.length) := by positivity
  have hcross : (value : ℚ) / 10 ^ f.length = (sats : ℚ) / 10 ^ 8 ↔ value * 10 ^ 8 = sats * 10 ^ f.length := by
    rw [div_eq_div_iff (by positivity) (by positivity)]
    exact_mod_cast Iff.rfl
  rw [hcross, ← Nat.mul_left_inj hscale.ne']
  have hleft : value * 10 ^ 8 * 10 ^ (8 - f.length) =
      sats * 10 ^ (f.length - 8) * 10 ^ 8 + Nat.ofDigitChars 10 (f.drop 8) 0 * 10 ^ 8 := by
    rw [← Nat.add_mul, ← hparts]
    ring
  have hright : sats * 10 ^ f.length * 10 ^ (8 - f.length) = sats * 10 ^ (f.length - 8) * 10 ^ 8 := by
    rw [Nat.mul_assoc, hpow]
    ring
  rw [hleft, hright]
  omega

/-- accepted only as what it denotes, and where `short` asks for it with no more than eight decimals -/
def ExactOrRejected (short : Bool) (btcStr : String) : Prop :=
  ∀ n, btcStrToSats btcStr = .ok n →
    Denotes (trim btcStr.toList) n ∧ n ≤ maxMoneySats ∧ (short = true → (fraction (trim btcStr.toList)).length ≤ 8)

/-- accepted with a plus sign, without a digit, or with more after the eighth decimal than zeros, where `short` asks for it
with anything there -/
def Slips (short : Bool) (cs : List Char) : Prop :=
  Acceptable cs ∧ (cs.head? = some '+' ∨ cs = ['.'] ∨ ∃ c ∈ (fraction cs).drop 8, short = true ∨ c ≠ '0')

/-- the parts of a text that denotes an amount -/
theorem Denotes.parts {cs : List Char} {n : ℕ} (h : Denotes cs n) :
    (∀ c ∈ whole cs ++ fraction cs, c.isDigit = true) ∧ whole cs ++ fraction cs ≠ [] ∧
      (Nat.ofDigitChars 10 (whole cs ++ fraction cs) 0 : ℚ) / 10 ^ (fraction cs).length = (n : ℚ) / 10 ^ 8 := by
  obtain ⟨w, f, hdigits, hne, hcs, hvalue⟩ := h
  have hpoint : '.' ∉ w := not_mem_of_digits (by decide) fun c hc => hdigits c (List.mem_append_left f hc)
  rcases hcs with rfl | ⟨rfl, rfl⟩
  · obtain ⟨hwhole, hfraction⟩ := @parts_of_point w f hpoint
    rw [hwhole, hfraction]
    exact ⟨hdigits, hne, hvalue⟩
  · obtain ⟨hwhole, hfraction⟩ := parts_of_no_point hpoint
    rw [hwhole, hfraction]
    exact ⟨hdigits, hne, hvalue⟩

/-- a text from its parts -/
theorem eq_parts (cs : List Char) : cs = whole cs ++ '.' :: fraction cs ∨ (fraction cs = [] ∧ cs = whole cs) := by
  by_cases h : '.' ∈ cs
  · exact .inl (eq_whole_append h)
  · exact .inr ⟨(parts_of_no_point h).2, (parts_of_no_point h).1.symm⟩

/-- without a plus sign in front the whole part is read as it stands -/
theorem withoutPlus_whole {cs : List Char} (h : cs.head? ≠ some '+') : withoutPlus (whole cs) = whole cs := by
  unfold withoutPlus
  split
  · next rest hwhole =>
    have hhead : cs.head? = some '+' := by
      rcases eq_parts cs with hcs | ⟨-, hcs⟩
      · rw [hcs, hwhole]
        rfl
      · rw [hcs, hwhole]
        rfl
    exact absurd hhead h
  · rfl

/-- without a slip only zeros follow the eighth decimal, and where `short` asks for it nothing does -/
theorem Acceptable.tail_of_not_slips {short : Bool} {cs : List Char} (h : Acceptable cs) (hslip : ¬ Slips short cs) :
    ∀ c ∈ (fraction cs).drop 8, short = false ∧ c = '0' := by
  intro c hc
  have hnot : ¬ (short = true ∨ c ≠ '0') := fun hrest => hslip ⟨h, .inr (.inr ⟨c, hc, hrest⟩)⟩
  rw [not_or, Bool.not_eq_true, not_not] at hnot
  exact hnot

/-- then there are only digits in both parts -/
theorem Acceptable.digits_of_tail {cs : List Char} (h : Acceptable cs) (hplus : withoutPlus (whole cs) = whole cs)
    (htail : ∀ c ∈ (fraction cs).drop 8, c = '0') : ∀ c ∈ whole cs ++ fraction cs, c.isDigit = true := by
  intro c hc
  rcases List.mem_append.1 hc with hwhole | hfraction
  · rcases h.digits with hnil | ⟨-, hall⟩
    · rw [hnil] at hwhole
      cases hwhole
    · rw [hplus] at hall
      exact hall c hwhole
  · rw [← List.take_append_drop 8 (fraction cs)] at hfraction
    rcases List.mem_append.1 hfraction with hdecimal | hrest
    · exact h.decimals c hdecimal
    · rw [htail c hrest]
      decide

/-- **Exact or rejected**, except for the slips. -/
theorem exact_or_rejected_iff (short : Bool) (btcStr : String) :
    ExactOrRejected short btcStr ↔ ¬ Slips short (trim btcStr.toList) := by
  unfold ExactOrRejected
  simp only [btcStrToSats_ok_iff]
  generalize trim btcStr.toList = cs
  constructor
  · rintro h ⟨hacceptable, hslip⟩
    obtain ⟨hdenotes, -, hshort⟩ := h _ ⟨hacceptable, rfl⟩
    obtain ⟨hdigits, hne, hvalue⟩ := hdenotes.parts
    have hplus : withoutPlus (whole cs) = whole cs :=
      withoutPlus_digits fun c hc => hdigits c (List.mem_append_left _ hc)
    rcases hslip with hhead | rfl | ⟨c, hc, hrest⟩
    · obtain ⟨rest, rfl⟩ := List.head?_eq_some_iff.1 hhead
      exact absurd (hdigits '+' List.mem_cons_self) (by decide)
    · exact hne rfl
    · rcases hrest with hs | hzero
      · rw [List.drop_of_length_le (hshort hs)] at hc
        cases hc
      · rw [amount, hplus, value_eq_iff, ofDigitChars_eq_zero_iff] at hvalue
        · exact hzero (hvalue c hc)
        · intro c hc
          exact hdigits c (List.mem_append_right _ (List.mem_of_mem_drop hc))
  · rintro hslip n ⟨hacceptable, rfl⟩
    have hplus : withoutPlus (whole cs) = whole cs := withoutPlus_whole fun hhead => hslip ⟨hacceptable, .inl hhead⟩
    have hnopoint : cs ≠ ['.'] := fun hpoint => hslip ⟨hacceptable, .inr (.inl hpoint)⟩
    have htail := hacceptable.tail_of_not_slips hslip
    have hdigits := hacceptable.digits_of_tail hplus fun c hc => (htail c hc).2
    have hzero : Nat.ofDigitChars 10 ((fraction cs).drop 8) 0 = 0 := by
      rw [ofDigitChars_eq_zero_iff]
      · exact fun c hc => (htail c hc).2
      · exact fun c hc => hdigits c (List.mem_append_right _ (List.mem_of_mem_drop hc))
    refine ⟨⟨whole cs, fraction cs, hdigits, ?_, eq_parts cs, ?_⟩, hacceptable.supply, ?_⟩
    · intro hnil
      obtain ⟨hwhole, hfraction⟩ := List.append_eq_nil_iff.1 hnil
      rcases eq_parts cs with hcs | ⟨-, hcs⟩
      · rw [hwhole, hfraction] at hcs
        exact hnopoint hcs
      · rw [hwhole] at hcs
        exact hacceptable.nonempty hcs
    · rw [amount, hplus, value_eq_iff]
      exact hzero
    · intro hshort
      rw [← List.drop_eq_nil_iff, List.eq_nil_iff_forall_not_mem]
      intro c hc
      rw [(htail c hc).1] at hshort
      cases hshort

/-- a ninth character that is no digit is not looked at -/
theorem ninth_character_ignored : ¬ ExactOrRejected false "1.12345678x" := by
  intro h
  obtain ⟨hdenotes, -⟩ := h 112345678 (by decide +kernel)
  exact absurd (hdenotes.parts.1 'x' (by decide +kernel)) (by decide)

/-! ## Written amounts -/

/-- an amount with eight decimals or fewer, where those left out are zeros; its whole part may have zeros in front, or be
left out when it is zero and a digit remains, and the point may be left out with the last decimal; white space around it -/
def Written (sats : ℕ) (cs : List Char) : Prop :=
  ∃ lead after w f, (∀ c ∈ lead, isWhiteSpace c = true) ∧ (∀ c ∈ after, isWhiteSpace c = true) ∧
    ((∃ k, w = List.replicate k '0' ++ Nat.toDigits 10 (sats / satsPerBtc)) ∨ (sats / satsPerBtc = 0 ∧ w = [])) ∧
    (∃ k, padded 8 (sats % satsPerBtc) = f ++ List.replicate k '0') ∧ w ++ f ≠ [] ∧
    (cs = lead ++ (w ++ '.' :: f) ++ after ∨ (f = [] ∧ cs = lead ++ w ++ after))

/-- what is written is the amount, in parts that can be accepted -/
theorem Written.trim_eq {sats : ℕ} {cs : List Char} (h : Written sats cs) :
    (∀ c ∈ whole (trim cs) ++ fraction (trim cs), c.isDigit = true) ∧ trim cs ≠ [] ∧ amount (trim cs) = sats := by
  obtain ⟨lead, after, w, f, hlead, hafter, hw, ⟨k, hk⟩, hne, hcs⟩ := h
  have hunit : satsPerBtc = 10 ^ 8 := by decide
  have hwdigits : ∀ c ∈ w, c.isDigit = true := by
    rcases hw with ⟨k, rfl⟩ | ⟨-, rfl⟩
    · intro c hc
      rcases List.mem_append.1 hc with hzero | hdigit
      · rw [List.eq_of_mem_replicate hzero]
        decide
      · exact isDigit_of_mem_toDigits hdigit
    · intro c hc
      cases hc
  have hwvalue : Nat.ofDigitChars 10 w 0 = sats / satsPerBtc := by
    rcases hw with ⟨k, rfl⟩ | ⟨hzero, rfl⟩
    · rw [Nat.ofDigitChars_append, Nat.ofDigitChars_replicate_zero, Nat.mul_zero, Nat.ofDigitChars_ten_toDigits]
    · exact hzero.symm
  have hfdigits : ∀ c ∈ f, c.isDigit = true := by
    intro c hc
    have hmem : c ∈ padded 8 (sats % satsPerBtc) := by
      rw [hk]
      exact List.mem_append_left _ hc
    exact isDigit_of_mem_padded hmem
  have hpadded : fracPadded f = padded 8 (sats % satsPerBtc) := by
    have hlength := congrArg List.length hk
    rw [length_padded (by omega) (hunit ▸ Nat.mod_lt sats (by decide)), List.length_append, List.length_replicate] at hlength
    have hle : f.length ≤ 8 := by omega
    have hrest : 8 - f.length = k := by omega
    rw [fracPadded, List.take_of_length_le hle, hrest, hk]
  have hpoint : '.' ∉ w := not_mem_of_digits (by decide) hwdigits
  have hvalue : Nat.ofDigitChars 10 (withoutPlus w) 0 * satsPerBtc + Nat.ofDigitChars 10 (fracPadded f) 0 = sats := by
    rw [withoutPlus_digits hwdigits, hwvalue, hpadded, ofDigitChars_padded]
    exact Nat.div_add_mod' sats satsPerBtc
  have hdigits : ∀ c ∈ w ++ f, c.isDigit = true := by
    intro c hc
    rcases List.mem_append.1 hc with hc | hc
    · exact hwdigits c hc
    · exact hfdigits c hc
  rcases hcs with rfl | ⟨rfl, rfl⟩
  · have htrim : trim (lead ++ (w ++ '.' :: f) ++ after) = w ++ '.' :: f := by
      apply trim_append hlead hafter
      · intro c hc
        rcases List.mem_append.1 hc with hc | hc
        · exact isWhiteSpace_of_isDigit (hwdigits c hc)
        · rcases List.mem_cons.1 hc with rfl | hc
          · decide
          · exact isWhiteSpace_of_isDigit (hfdigits c hc)
      · simp
    obtain ⟨hwhole, hfraction⟩ := @parts_of_point w f hpoint
    rw [htrim, amount, hwhole, hfraction]
    exact ⟨hdigits, by simp, hvalue⟩
  · rw [List.append_nil] at hne
    rw [trim_append hlead hafter (fun c hc => isWhiteSpace_of_isDigit (hwdigits c hc)) hne]
    obtain ⟨hwhole, hfraction⟩ := parts_of_no_point hpoint
    rw [amount, hwhole, hfraction]
    exact ⟨hdigits, hne, hvalue⟩

/-- digits in both parts are accepted up to the supply -/
theorem acceptable_of_digits {cs : List Char} (hdigits : ∀ c ∈ whole cs ++ fraction cs, c.isDigit = true) (hne : cs ≠ [])
    (hsupply : amount cs ≤ maxMoneySats) : Acceptable cs := by
  have hwhole : ∀ c ∈ whole cs, c.isDigit = true := fun c hc => hdigits c (List.mem_append_left _ hc)
  have hfraction : ∀ c ∈ fraction cs, c.isDigit = true := fun c hc => hdigits c (List.mem_append_right _ hc)
  refine ⟨hne, not_mem_of_digits (by decide) hfraction, ?_, fun c hc => hfraction c (List.mem_of_mem_take hc), hsupply⟩
  rw [withoutPlus_digits hwhole, or_iff_not_imp_left]
  exact fun hnonempty => ⟨hnonempty, hwhole⟩

/-- **Amounts round-trip**: up to the supply each text is read as its amount, and beyond it each is an error. -/
theorem written_round_trip (sats : ℕ) (btcStr : String) (h : Written sats btcStr.toList) :
    (sats ≤ maxMoneySats → btcStrToSats btcStr = .ok sats) ∧
      (maxMoneySats < sats → ∃ e, btcStrToSats btcStr = .error e) := by
  obtain ⟨hdigits, hne, hamount⟩ := h.trim_eq
  constructor
  · intro hle
    exact (btcStrToSats_ok_iff btcStr sats).2 ⟨acceptable_of_digits hdigits hne (hamount.trans_le hle), hamount⟩
  · intro hlt
    cases hresult : btcStrToSats btcStr with
    | error e => exact ⟨e, rfl⟩
    | ok n =>
      obtain ⟨hacceptable, -⟩ := (btcStrToSats_ok_iff btcStr n).1 hresult
      exact absurd (hamount ▸ hacceptable.supply) (Nat.not_le.2 hlt)

/-- half a coin with zeros and white space, and a satoshi more than the supply -/
theorem written_round_trip_half :
    btcStrToSats " 00.5\n" = .ok 50000000 ∧ ∃ e, btcStrToSats "21000000.00000001" = .error e := by
  have hhalf : Written 50000000 " 00.5\n".toList :=
    ⟨[' '], ['\n'], ['0', '0'], ['5'], List.forall_mem_singleton.2 (by decide), List.forall_mem_singleton.2 (by decide),
      .inl ⟨1, by decide⟩, ⟨7, by decide⟩, by decide, .inl (by decide)⟩
  have hbeyond : Written 2100000000000001 "21000000.00000001".toList :=
    ⟨[], [], "21000000".toList, "00000001".toList, List.forall_mem_nil _, List.forall_mem_nil _, .inl ⟨0, by decide⟩,
      ⟨0, by decide⟩, by decide, .inl (by decide)⟩
  exact ⟨(written_round_trip _ _ hhalf).1 (by decide), (written_round_trip _ _ hbeyond).2 (by decide)⟩

end Amount

end ObsChain
