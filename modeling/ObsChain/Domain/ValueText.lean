/-
Metric values as texts (`baseline.rs` of `obschain-core`): `to_numeric_string`, and the two decoders that read it back, by the
metric alone (`from_str_and_metric`) or with the stored scale (`from_str_scale_and_metric`).

A text is the number as it is written, or padded with zeros to the four decimals of its column. Both decoders cut the fraction
at the decimals they need, so the added zeros are not read. Sums and products wrap at the width of their type; `FitsType` says
that none does.

- `scaledNumber_append_zeros`: a number with decimals is read back, whatever zeros follow.
- `fromStrAndMetric_print`: a value in the form of its metric is read back from its column.
- `value_text_round_trip`: both decoders, on both texts, for every value the extractor produces.
-/
import Mathlib.Tactic
import ObsChain.Core.Numeric
import ObsChain.Domain.MetricForms
import ObsChain.Domain.Rarity

namespace ObsChain.MetricValue

open Numeric

/-! ## The decoders -/

/-- the number in units of the last of the given decimals, before it is cut to its type -/
def scaledNumber (bound scale : ℕ) (clean : List Char) : ℕ :=
  match Text.splitOnce '.' clean with
  | some (whole, frac) =>
    let taken := frac.take scale
    let padded := taken ++ List.replicate (scale - taken.length) '0'
    (Text.parseUnsigned bound whole).getD 0 * 10 ^ scale + (Text.parseUnsigned bound padded).getD 0
  | none => (Text.parseUnsigned bound clean).getD 0 * 10 ^ scale

theorem parseHundredths_eq (bound : ℕ) (clean : List Char) :
    parseHundredths bound clean = scaledNumber bound 2 clean % bound := by
  unfold parseHundredths scaledNumber
  cases Text.splitOnce '.' clean with
  | none => rfl
  | some parts => rfl

def fromStrScaleAndMetric (s : String) (scale : ℕ) (metric : BaselineMetric) : MetricValue :=
  let clean := Text.trim s.toList
  if scale = 0 then
    let intPart := clean.takeWhile (· ≠ '.')
    if metric = .coinAgeDestroyedSatoshiDays then .u128 ((Text.parseUnsigned (2 ^ 128) intPart).getD 0)
    else .u64 ((Text.parseUnsigned (2 ^ 64) intPart).getD 0)
  else if metric = .consolidationRatio ∧ scale = 2 then fromStrAndMetric (String.ofList clean) metric
  else .decimalScaled (scaledNumber (2 ^ 64) scale clean % 2 ^ 64) scale

/-- the power, the product and the sum stay within the type -/
def FitsType (bound scale : ℕ) (clean : List Char) : Prop := 10 ^ scale < bound ∧ scaledNumber bound scale clean < bound

/-- no overflow where the metric says how to read a text; whole numbers need no arithmetic -/
def NoOverflow (s : String) (metric : BaselineMetric) : Prop :=
  match metric with
  | .feeRateSatVb => FitsType (2 ^ 64) 2 (Text.trim s.toList)
  | .consolidationRatio => FitsType (2 ^ 32) 2 (Text.trim s.toList)
  | _ => True

/-- no overflow where a scale is given -/
def NoOverflowScaled (s : String) (scale : ℕ) (metric : BaselineMetric) : Prop :=
  if scale = 0 then True
  else if metric = .consolidationRatio ∧ scale = 2 then NoOverflow (String.ofList (Text.trim s.toList)) metric
  else FitsType (2 ^ 64) scale (Text.trim s.toList)

/-- zeros up to the given number of decimals -/
def padDecimals (decimals : ℕ) (s : String) : String :=
  match Text.splitOnce '.' s.toList with
  | some (whole, frac) =>
    String.ofList (whole ++ '.' :: (frac ++ List.replicate (decimals - frac.length) '0'))
  | none => String.ofList (s.toList ++ '.' :: List.replicate decimals '0')

/-! ## Reading -/

theorem trim_decimal {cs : List Char} (h : ∀ c ∈ cs, c.isDigit = true ∨ c = '.') : Text.trim cs = cs := by
  apply Text.trim_eq_self
  intro c hc
  rcases h c hc with hdigit | hpoint
  · exact Text.isWhiteSpace_of_isDigit hdigit
  · rw [hpoint]
    decide

/-- a whole number, with or without decimals after it -/
theorem takeWhile_whole (n : ℕ) {rest : List Char} (hrest : rest = [] ∨ ∃ frac, rest = '.' :: frac) :
    (Nat.toDigits 10 n ++ rest).takeWhile (· ≠ '.') = Nat.toDigits 10 n := by
  rcases hrest with rfl | ⟨frac, rfl⟩
  · rw [List.append_nil, List.takeWhile_eq_self_iff]
    intro c hc
    simpa using ne_point_of_isDigit (Text.isDigit_of_mem_toDigits hc)
  · exact Text.takeWhile_sep (point_not_mem_toDigits n)

theorem parseWhole_whole {bound n : ℕ} (h : n < bound) {rest : List Char} (hrest : rest = [] ∨ ∃ frac, rest = '.' :: frac) :
    parseWhole bound (Nat.toDigits 10 n ++ rest) = n := by
  rw [parseWhole, takeWhile_whole n hrest, Text.parseUnsigned_toDigits h]
  rfl

theorem parseUnsigned_padded {bound s n : ℕ} (h : n < bound) : Text.parseUnsigned bound (padded s n) = some n := by
  have hvalue := ofDigitChars_padded s n
  rw [Text.parseUnsigned_digits (padded_ne_nil s n) (fun c => isDigit_of_mem_padded) (hvalue.trans_lt h), hvalue]

/-- **A number with decimals is read back**, whatever zeros follow. -/
theorem scaledNumber_append_zeros {bound scale n : ℕ} (hscale : 0 < scale) (h : n < bound) (k : ℕ) :
    scaledNumber bound scale (printChars scale n ++ List.replicate k '0') = n := by
  have hlength : (padded scale (n % 10 ^ scale)).length = scale := length_padded hscale (Nat.mod_lt n (by positivity))
  have htake : (padded scale (n % 10 ^ scale) ++ List.replicate k '0').take scale = padded scale (n % 10 ^ scale) := by
    rw [List.take_append_of_le_length hlength.ge, List.take_of_length_le hlength.le]
  unfold scaledNumber
  rw [printChars, List.append_assoc, List.cons_append, Text.splitOnce_sep (point_not_mem_toDigits _)]
  simp only [htake, hlength, Nat.sub_self, List.replicate_zero, List.append_nil]
  rw [Text.parseUnsigned_toDigits ((Nat.div_le_self n _).trans_lt h),
    parseUnsigned_padded ((Nat.mod_le n _).trans_lt h), Option.getD_some, Option.getD_some]
  exact Nat.div_add_mod' n (10 ^ scale)

theorem parseHundredths_append_zeros {bound n : ℕ} (h : n < bound) (k : ℕ) :
    parseHundredths bound (printChars 2 n ++ List.replicate k '0') = n := by
  rw [parseHundredths_eq, scaledNumber_append_zeros (by omega) h, Nat.mod_eq_of_lt h]

/-- **A value is read back** from a column of four decimals, when it is in the form of its metric. -/
theorem fromStrAndMetric_print {metric : BaselineMetric} {v : MetricValue} (h : v.HasForm metric.form) :
    fromStrAndMetric (print 4 v.numeric) metric = v := by
  have htrim : ∀ s n : ℕ, Text.trim (printChars s n) = printChars s n := fun s n => trim_decimal fun c => mem_printChars
  have hwhole : ∀ n bound : ℕ, n < bound → parseWhole bound (Text.trim (print 4 (n : ℚ)).toList) = n := by
    intro n bound hn
    have hprint : print 4 (n : ℚ) = String.ofList (printChars 4 (n * 10 ^ 4)) := by
      simpa using print_of_scaled (s := 4) (k := 0) (by omega) n
    rw [hprint, String.toList_ofList, htrim, printChars, Nat.mul_div_cancel n (by positivity)]
    exact parseWhole_whole hn (.inr ⟨_, rfl⟩)
  have hhundredths : ∀ n bound : ℕ, n < bound → parseHundredths bound (Text.trim (print 4 ((n : ℚ) / 10 ^ 2)).toList) = n := by
    intro n bound hn
    have hprint : print 4 ((n : ℚ) / 10 ^ 2) = String.ofList (printChars 4 (n * 10 ^ 2)) :=
      print_of_scaled (s := 4) (k := 2) (by omega) n
    rw [hprint, String.toList_ofList, htrim, printChars_mul (s := 2) (by omega) n 2]
    exact parseHundredths_append_zeros hn 2
  cases metric <;> cases v <;> simp only [BaselineMetric.form, HasForm] at h
  case feeRateSatVb.decimalScaled value scale =>
    obtain ⟨hlt, rfl⟩ := h
    simp only [numeric, fromStrAndMetric, hhundredths value _ hlt]
  case consolidationRatio.basisPoints v => simp only [numeric, fromStrAndMetric, hhundredths v _ h]
  all_goals
    rename_i v
    simp only [numeric, fromStrAndMetric, hwhole v _ h]

/-! ## Both texts of a value -/

/-- the number as it is written, or padded to four decimals -/
def IsText (v : MetricValue) (s : String) : Prop := s = v.toNumericString ∨ s = padDecimals 4 v.toNumericString

theorem toList_decimalString (n k : ℕ) : (decimalString n k).toList = printChars k n := by
  have hlen : (toString (n % 10 ^ k)).length = (Nat.toDigits 10 (n % 10 ^ k)).length := by
    rw [← String.length_toList, Text.toList_toString]
  have hpoint : ".".toList = ['.'] := rfl
  simp only [decimalString, String.toList_append, Text.toList_toString, String.toList_ofList, hlen, hpoint,
    List.append_assoc, List.cons_append, List.nil_append]
  rfl

/-- the texts of a whole number -/
theorem trim_whole_text {n : ℕ} {s : String} (h : s = toString n ∨ s = padDecimals 4 (toString n)) :
    ∃ rest, (rest = [] ∨ ∃ frac, rest = '.' :: frac) ∧ Text.trim s.toList = Nat.toDigits 10 n ++ rest := by
  rcases h with rfl | rfl
  · refine ⟨[], .inl rfl, ?_⟩
    rw [Text.toList_toString, List.append_nil]
    exact trim_decimal fun c hc => .inl (Text.isDigit_of_mem_toDigits hc)
  · have hsplit : Text.splitOnce '.' (Nat.toDigits 10 n) = none := if_neg (point_not_mem_toDigits n)
    refine ⟨'.' :: List.replicate 4 '0', .inr ⟨_, rfl⟩, ?_⟩
    rw [padDecimals, Text.toList_toString, hsplit, String.toList_ofList]
    apply trim_decimal
    intro c hc
    rcases List.mem_append.1 hc with hdigit | hrest
    · exact .inl (Text.isDigit_of_mem_toDigits hdigit)
    · rcases List.mem_cons.1 hrest with hpoint | hzero
      · exact .inr hpoint
      · rw [List.eq_of_mem_replicate hzero]
        exact .inl (by decide)

/-- the texts of a number of hundredths -/
theorem trim_hundredths_text {n : ℕ} {s : String} (h : s = decimalString n 2 ∨ s = padDecimals 4 (decimalString n 2)) :
    ∃ k, Text.trim s.toList = printChars 2 n ++ List.replicate k '0' := by
  rcases h with rfl | rfl
  · refine ⟨0, ?_⟩
    rw [toList_decimalString, List.replicate_zero, List.append_nil]
    exact trim_decimal fun c => mem_printChars
  · refine ⟨2, ?_⟩
    have hlength : (padded 2 (n % 10 ^ 2)).length = 2 := length_padded (by omega) (Nat.mod_lt n (by positivity))
    have hpadded : (padDecimals 4 (decimalString n 2)).toList = printChars 2 n ++ List.replicate 2 '0' := by
      rw [padDecimals, toList_decimalString, printChars, Text.splitOnce_sep (point_not_mem_toDigits _)]
      simp only [hlength, String.toList_ofList, List.append_assoc, List.cons_append]
    rw [hpadded, ← printChars_mul (s := 2) (by omega) n 2]
    exact trim_decimal fun c => mem_printChars

theorem fitsType_text {bound n : ℕ} (hbound : 10 ^ 2 < bound) (h : n < bound) (k : ℕ) :
    FitsType bound 2 (printChars 2 n ++ List.replicate k '0') :=
  ⟨hbound, (scaledNumber_append_zeros (by omega) h k).trans_lt h⟩

/-- **Both decoders read both texts**, of a value in the form of its metric. -/
theorem decode_text {metric : BaselineMetric} {v : MetricValue} (h : v.HasForm metric.form) {s : String} (hs : IsText v s) :
    fromStrAndMetric s metric = v ∧ fromStrScaleAndMetric s v.scale metric = v ∧ NoOverflow s metric ∧
      NoOverflowScaled s v.scale metric := by
  have hidem : ∀ k n : ℕ, Text.trim (printChars 2 n ++ List.replicate k '0') = printChars 2 n ++ List.replicate k '0' := by
    intro k n
    rw [← printChars_mul (s := 2) (by omega) n k]
    exact trim_decimal fun c => mem_printChars
  cases metric <;> cases v <;> simp only [BaselineMetric.form, HasForm] at h
  case feeRateSatVb.decimalScaled n scale =>
    obtain ⟨hlt, rfl⟩ := h
    obtain ⟨k, hk⟩ := trim_hundredths_text hs
    have hfits := fitsType_text (by norm_num) hlt k
    have hread := @scaledNumber_append_zeros _ 2 _ (by omega) hlt k
    refine ⟨?_, ?_, ?_, ?_⟩
    · simp only [fromStrAndMetric, hk, parseHundredths_append_zeros hlt]
    · simp only [fromStrScaleAndMetric, scale, hk, hread]
      rw [if_neg (by omega), if_neg (by simp), Nat.mod_eq_of_lt hlt]
    · simp only [NoOverflow, hk]
      exact hfits
    · simp only [NoOverflowScaled, scale, hk]
      rw [if_neg (by omega), if_neg (by simp)]
      exact hfits
  case consolidationRatio.basisPoints n =>
    obtain ⟨k, hk⟩ := trim_hundredths_text hs
    have hfits := fitsType_text (by norm_num) h k
    have hread := parseHundredths_append_zeros h k
    refine ⟨?_, ?_, ?_, ?_⟩
    · simp only [fromStrAndMetric, hk, hread]
    · simp only [fromStrScaleAndMetric, scale, hk]
      rw [if_neg (by omega), if_pos ⟨trivial, trivial⟩]
      simp only [fromStrAndMetric, String.toList_ofList, hidem, hread]
    · simp only [NoOverflow, hk]
      exact hfits
    · simp only [NoOverflowScaled, scale, hk]
      rw [if_neg (by omega), if_pos ⟨trivial, trivial⟩]
      simp only [NoOverflow, String.toList_ofList, hidem]
      exact hfits
  all_goals
    -- whole numbers, of 64 or 128 bits
    rename_i n
    obtain ⟨rest, hrest, htrim⟩ := trim_whole_text hs
    have hwhole := parseWhole_whole h hrest
    have hnumber := Text.parseUnsigned_toDigits h
    have hint := takeWhile_whole n hrest
    refine ⟨?_, ?_, trivial, ?_⟩
    · simp only [fromStrAndMetric, htrim, hwhole]
    · simp only [fromStrScaleAndMetric, scale, htrim, hint, hnumber, if_true, reduceCtorEq, if_false, Option.getD_some]
    · simp only [NoOverflowScaled, scale, if_true]

open EventMetricExtractor

/-- **Values survive their text form.** Every value that the extractor finds, in both texts, through both decoders, and no
arithmetic overflows, the encoder's power included. -/
theorem value_text_round_trip (event : ChainEvent) (metric : BaselineMetric) (v : MetricValue)
    (h : extractMetric event metric = some v) (s : String) (hs : IsText v s) :
    fromStrAndMetric s metric = v ∧ fromStrScaleAndMetric s v.scale metric = v ∧
      NoOverflow s metric ∧ NoOverflowScaled s v.scale metric ∧ 10 ^ v.scale < 2 ^ 64 := by
  have hform := extractFrom_hasForm h
  obtain ⟨hread, hscaled, hfits, hfitsScaled⟩ := decode_text hform hs
  refine ⟨hread, hscaled, hfits, hfitsScaled, ?_⟩
  cases v with
  | decimalScaled value scale =>
    have hscale : scale = 2 := by
      cases metric <;> simp only [BaselineMetric.form, HasForm] at hform
      exact hform.2
    rw [hscale]
    norm_num [MetricValue.scale]
  | _ => norm_num [scale]

/-- a fee rate beyond the largest that fits -/
def hugeFee : ChainEvent :=
  { id := 1, eventType := .extremeFee, severity := .medium, confidence := .verifiedOnChain, title := "fee",
    description := "", eventTime := 0, firstObservedAt := 0, detectedAt := 0, blockHeight := some 5,
    blockHash := some "block5", txid := some "tx001", source := none, witnesses := [], observationMode := .live,
    replayJobId := none, metadata := .object [("fee_rate_sat_vb", .number (.float (10 ^ 30)))], observations := [] }

/-- the largest payload, with four decimals -/
theorem value_text_round_trip_largest :
    (decimalScaled (2 ^ 64 - 1) 2).toNumericString = "184467440737095516.15" ∧
      fromStrAndMetric "184467440737095516.1500" .feeRateSatVb = .decimalScaled (2 ^ 64 - 1) 2 := by
  refine ⟨by decide +kernel, ?_⟩
  exact (value_text_round_trip hugeFee .feeRateSatVb (.decimalScaled (2 ^ 64 - 1) 2) (by decide +kernel) _
    (.inr (by decide +kernel))).1

end ObsChain.MetricValue
