/-
Forms of metric values (`baseline.rs` of `obschain-core`).

Every metric has one form: the extractor gives its values in one variant and at one scale, whatever branch they come from.
Within a form the derived order is the order of the numbers, and of the units they are counted in (satoshis, seconds,
hundredths).

- `extractFrom_hasForm`: one form per metric.
- `numeric_le_iff`: within one form, the derived order is the order of the numbers.
-/
import Mathlib.Tactic
import ObsChain.Domain.Baseline

namespace ObsChain

/-! ## Forms of values -/

/-- how the values of a metric are represented -/
inductive MetricForm where
  | u64
  | u128
  | basisPoints
  | hundredths
deriving DecidableEq, Repr

def BaselineMetric.form : BaselineMetric → MetricForm
  | .coinAgeDestroyedSatoshiDays => .u128
  | .consolidationRatio => .basisPoints
  | .feeRateSatVb => .hundredths
  | _ => .u64

namespace MetricValue

/-- a value of the form, within its type -/
def HasForm : MetricForm → MetricValue → Prop
  | .u64, .u64 v => v < 2 ^ 64
  | .u128, .u128 v => v < 2 ^ 128
  | .basisPoints, .basisPoints v => v < 2 ^ 32
  | .hundredths, .decimalScaled value scale => value < 2 ^ 64 ∧ scale = 2
  | _, _ => False

/-- the number that a value stands for -/
def numeric : MetricValue → ℚ
  | .u64 v => v
  | .u128 v => v
  | .basisPoints v => v / 10 ^ 2
  | .decimalScaled value scale => value / 10 ^ scale

end MetricValue

/-! ## One form, one order -/

namespace MetricValue

/-- the derived order within one variant, at one scale -/
theorem le_iff_of_key {a b : MetricValue} {variant v w last : ℕ} (ha : a.key = toLex (variant, toLex (v, last)))
    (hb : b.key = toLex (variant, toLex (w, last))) : a ≤ b ↔ v ≤ w := by
  have hkey : a ≤ b ↔ a.key ≤ b.key := Iff.rfl
  rw [hkey, ha, hb]
  simp only [Prod.Lex.toLex_le_toLex, lt_self_iff_false, true_and, false_or, le_refl, and_true]
  exact le_iff_lt_or_eq.symm

/-- the number of units -/
def payload : MetricValue → ℕ
  | .u64 v => v
  | .u128 v => v
  | .basisPoints v => v
  | .decimalScaled value _ => value

/-- within one form the units are the order -/
theorem payload_le_iff {form : MetricForm} {a b : MetricValue} (ha : a.HasForm form) (hb : b.HasForm form) :
    a.payload ≤ b.payload ↔ a ≤ b := by
  cases form <;> cases a <;> simp only [HasForm] at ha <;> cases b <;> simp only [HasForm] at hb
  case u64.u64.u64 v w =>
    have horder : u64 v ≤ u64 w ↔ v ≤ w := le_iff_of_key rfl rfl
    exact horder.symm
  case u128.u128.u128 v w =>
    have horder : u128 v ≤ u128 w ↔ v ≤ w := le_iff_of_key rfl rfl
    exact horder.symm
  case basisPoints.basisPoints.basisPoints v w =>
    have horder : basisPoints v ≤ basisPoints w ↔ v ≤ w := le_iff_of_key rfl rfl
    exact horder.symm
  case hundredths.decimalScaled.decimalScaled v s w s' =>
    obtain ⟨-, rfl⟩ := ha
    obtain ⟨-, rfl⟩ := hb
    have horder : decimalScaled v 2 ≤ decimalScaled w 2 ↔ v ≤ w := le_iff_of_key rfl rfl
    exact horder.symm

theorem payload_lt_iff {form : MetricForm} {a b : MetricValue} (ha : a.HasForm form) (hb : b.HasForm form) :
    a.payload < b.payload ↔ a < b := by
  rw [← not_le, ← not_le, payload_le_iff hb ha]

/-- **Within one form the orders coincide.** -/
theorem numeric_le_iff {form : MetricForm} {a b : MetricValue} (ha : a.HasForm form) (hb : b.HasForm form) :
    a.numeric ≤ b.numeric ↔ a ≤ b := by
  rw [← payload_le_iff ha hb]
  cases form <;> cases a <;> simp only [HasForm] at ha <;> cases b <;> simp only [HasForm] at hb
  case u64.u64.u64 v w => exact Nat.cast_le
  case u128.u128.u128 v w => exact Nat.cast_le
  case basisPoints.basisPoints.basisPoints v w =>
    simp only [numeric, payload]
    rw [div_le_div_iff_of_pos_right (by positivity), Nat.cast_le]
  case hundredths.decimalScaled.decimalScaled v s w s' =>
    obtain ⟨-, rfl⟩ := ha
    obtain ⟨-, rfl⟩ := hb
    simp only [numeric, payload]
    rw [div_le_div_iff_of_pos_right (by positivity), Nat.cast_le]

end MetricValue

/-! ## What the extractor makes -/

namespace EventMetricExtractor

open MetricValue

theorem hasForm_u64 {field : Option Value} {v : MetricValue} (h : (field.bind Value.asU64).map .u64 = some v) :
    v.HasForm .u64 := by
  obtain ⟨n, hn, rfl⟩ := Option.map_eq_some_iff.1 h
  exact Value.bind_asU64_lt hn

theorem hasForm_typedOr {α : Type} {typed : Option α} {f : α → ℕ} {field : Option Value} {v : MetricValue}
    (hf : ∀ record, typed = some record → f record < 2 ^ 64) (h : typedOr typed f field = some v) :
    v.HasForm .u64 := by
  unfold typedOr at h
  cases htyped : typed with
  | none =>
    rw [htyped] at h
    exact hasForm_u64 h
  | some record =>
    rw [htyped] at h
    cases h
    exact hf record htyped

theorem hundredths_le (largest : ℕ) (x : ℚ) : hundredths largest x ≤ largest := Nat.min_le_right _ _

theorem parseU128_lt {s : String} {n : ℕ} (h : parseU128 s = some n) : n < 2 ^ 128 :=
  (Text.parseUnsigned_eq_some_iff.1 h).2.2

/-- **One form per metric.** Whatever branch of the extractor a value comes from. -/
theorem extractFrom_hasForm {eventType : EventType} {metadata : Value} {metric : BaselineMetric} {v : MetricValue}
    (h : extractFrom eventType metadata metric = some v) : v.HasForm metric.form := by
  unfold extractFrom at h
  dsimp only at h
  split at h
  · exact hasForm_u64 h
  · exact hasForm_u64 h
  · exact hasForm_u64 h
  · exact hasForm_u64 h
  · exact hasForm_typedOr (fun d hd => (DormantCoinsMetadata.ofValue_lt hd).1) h
  · exact hasForm_typedOr (fun d hd => (DormantCoinsMetadata.ofValue_lt hd).2.2.1) h
  · -- a u128, from the record, a number or a text
    cases hd : DormantCoinsMetadata.ofValue metadata with
    | some d =>
      rw [hd] at h
      cases h
      obtain ⟨-, -, -, hlt⟩ := DormantCoinsMetadata.ofValue_lt hd
      exact lt_of_lt_of_le hlt (by norm_num)
    | none =>
      rw [hd] at h
      obtain ⟨n, hn, rfl⟩ := Option.map_eq_some_iff.1 h
      obtain ⟨field, -, hfield⟩ := Option.bind_eq_some_iff.1 hn
      rcases Option.or_eq_some_iff.1 hfield with hnumber | ⟨-, htext⟩
      · exact lt_of_lt_of_le (Value.asU64_lt hnumber) (by norm_num)
      · obtain ⟨s, -, hs⟩ := Option.bind_eq_some_iff.1 htext
        exact parseU128_lt hs
  · exact hasForm_typedOr (fun d hd => (DormantCoinsMetadata.ofValue_lt hd).2.1) h
  · exact hasForm_typedOr (fun d hd => (ConsolidationMetadata.ofValue_lt hd).1) h
  · exact hasForm_typedOr (fun d hd => (ConsolidationMetadata.ofValue_lt hd).2.1) h
  · exact hasForm_typedOr (fun d hd => (ConsolidationMetadata.ofValue_lt hd).2.2) h
  · cases hc : ConsolidationMetadata.ofValue metadata with
    | some c =>
      rw [hc] at h
      cases h
      exact lt_of_le_of_lt (hundredths_le _ _) (by norm_num)
    | none =>
      rw [hc] at h
      obtain ⟨r, -, rfl⟩ := Option.map_eq_some_iff.1 h
      exact lt_of_le_of_lt (hundredths_le _ _) (by norm_num)
  · exact hasForm_typedOr (fun d hd => (FanOutMetadata.ofValue_lt hd).1) h
  · exact hasForm_typedOr (fun d hd => (FanOutMetadata.ofValue_lt hd).2.1) h
  · exact hasForm_typedOr (fun d hd => (FanOutMetadata.ofValue_lt hd).2.2) h
  · cases hef : ExtremeFeeMetadata.ofValue metadata with
    | some ef =>
      rw [hef] at h
      obtain ⟨rate, -, rfl⟩ := Option.map_eq_some_iff.1 h
      exact ⟨lt_of_le_of_lt (hundredths_le _ _) (by norm_num), rfl⟩
    | none =>
      rw [hef] at h
      obtain ⟨rate, -, rfl⟩ := Option.map_eq_some_iff.1 h
      exact ⟨lt_of_le_of_lt (hundredths_le _ _) (by norm_num), rfl⟩
  · exact hasForm_typedOr (fun d hd => ExtremeFeeMetadata.ofValue_lt hd) h
  · exact hasForm_u64 h
  · cases h

end EventMetricExtractor

open EventMetricExtractor

/-- a value that the extractor finds for this metric in some event of this type -/
def Extracted (eventType : EventType) (metric : BaselineMetric) (v : MetricValue) : Prop :=
  ∃ event : ChainEvent, event.eventType = eventType ∧ extractMetric event metric = some v

theorem Extracted.hasForm {eventType : EventType} {metric : BaselineMetric} {v : MetricValue}
    (h : Extracted eventType metric v) : v.HasForm metric.form := by
  obtain ⟨event, -, hval⟩ := h
  exact extractFrom_hasForm hval

end ObsChain
