/-
JSON metadata of events: access to `serde_json` values, and the typed records of `event.rs` that detectors write and the
metric extractor reads back.

A JSON object is a list of fields with distinct names. `as_u64` and the integer decoders accept what fits the Rust type;
a float is never an integer, and an integer is always a float. A record decodes from an object by field name (unknown
fields are ignored) or from an array by position, as derived `Deserialize` does; a unit variant from its name or from a
one-field object with a null. `to_value` fails on a u128 above the largest u64, and the metadata is then left as it was.
-/
import Mathlib.Tactic
import ObsChain.Domain.Event

namespace ObsChain

/-! ## `serde_json` -/

namespace Number

def asU64 : Number → Option ℕ
  | .posInt n => if n < 2 ^ 64 then some n else none
  | _ => none

def asF64 : Number → ℚ
  | .posInt n => n
  | .negInt i => i
  | .float q => q

end Number

namespace Value

def get (v : Value) (key : String) : Option Value :=
  match v with
  | .object fields => fields.lookup key
  | _ => none

def asU64 : Value → Option ℕ
  | .number n => n.asU64
  | _ => none

def asF64 : Value → Option ℚ
  | .number n => some n.asF64
  | _ => none

def asStr : Value → Option String
  | .string s => some s
  | _ => none

/-- a u32 -/
def asU32 (v : Value) : Option ℕ := v.asU64.filter (· < 2 ^ 32)

/-- an integer that was read fits its type -/
theorem asU64_lt {v : Value} {n : ℕ} (h : v.asU64 = some n) : n < 2 ^ 64 := by
  cases v with
  | number x =>
    cases x with
    | posInt m =>
      simp only [asU64, Number.asU64] at h
      split_ifs at h with hlt
      cases h
      exact hlt
    | negInt i => cases h
    | float q => cases h
  | _ => cases h

theorem asU32_lt {v : Value} {n : ℕ} (h : v.asU32 = some n) : n < 2 ^ 64 :=
  asU64_lt (Option.filter_eq_some_iff.1 h).1

theorem bind_asU64_lt {field : Option Value} {n : ℕ} (h : field.bind asU64 = some n) : n < 2 ^ 64 := by
  obtain ⟨v, -, hv⟩ := Option.bind_eq_some_iff.1 h
  exact asU64_lt hv

theorem bind_asU32_lt {field : Option Value} {n : ℕ} (h : field.bind asU32 = some n) : n < 2 ^ 64 := by
  obtain ⟨v, -, hv⟩ := Option.bind_eq_some_iff.1 h
  exact asU32_lt hv

/-- an optional f64: a field that is absent or null is `None` -/
def optF64 : Option Value → Option (Option ℚ)
  | none => some none
  | some .null => some none
  | some v => v.asF64.map some

/-- a unit variant of an enumeration -/
def asVariant {α : Type} (variants : List (String × α)) : Value → Option α
  | .string s => variants.lookup s
  | .object [(s, .null)] => variants.lookup s
  | _ => none

/-- the fields of a record: by name from an object, by position from an array of the right length -/
def fieldsOf (names : List String) : Value → Option (String → Option Value)
  | .object fields => some fun name => fields.lookup name
  | .array values => if values.length = names.length then some fun name => values[names.idxOf name]? else none
  | _ => none

/-- `obj.insert(name, value)` -/
def insertField (name : String) (value : Value) : List (String × Value) → List (String × Value)
  | [] => [(name, value)]
  | (n, v) :: rest => if n = name then (name, value) :: rest else (n, v) :: insertField name value rest

theorem lookup_insertField_of_ne {name key : String} (value : Value) (fields : List (String × Value)) (h : key ≠ name) :
    (insertField name value fields).lookup key = fields.lookup key := by
  have hkey : (key == name) = false := by simpa using h
  induction fields with
  | nil => simp [insertField, h]
  | cons p rest ih =>
    obtain ⟨n, v⟩ := p
    by_cases hn : n = name
    · simp [insertField, hn, List.lookup_cons, hkey]
    · rw [insertField, if_neg hn, List.lookup_cons, List.lookup_cons, ih]

/-- an object without one of its fields -/
def withoutField (name : String) : Value → Value
  | .object fields => .object (fields.filter (·.1 ≠ name))
  | v => v

theorem filter_insertField_self (name : String) (value : Value) (fields : List (String × Value)) :
    (insertField name value fields).filter (·.1 ≠ name) = fields.filter (·.1 ≠ name) := by
  induction fields with
  | nil => simp [insertField]
  | cons p rest ih =>
    obtain ⟨n, v⟩ := p
    by_cases hn : n = name
    · simp [insertField, hn]
    · simp only [insertField, if_neg hn, List.filter_cons, ih]

theorem filter_insertField_of_ne {name other : String} (value : Value) (fields : List (String × Value))
    (h : other ≠ name) :
    (insertField other value fields).filter (·.1 ≠ name) = insertField other value (fields.filter (·.1 ≠ name)) := by
  induction fields with
  | nil => simp [insertField, h]
  | cons p rest ih =>
    obtain ⟨n, v⟩ := p
    by_cases hn : n = other
    · subst hn
      simp [insertField, h]
    · by_cases hname : n = name
      · subst hname
        simpa [insertField, hn] using ih
      · simpa [insertField, hn, hname] using ih

end Value

/-! ## Typed metadata -/

/-- 5, 10 and 15 years, and the early years of Bitcoin -/
inductive DormantClassification where
  | dormant
  | veryOld
  | ancient
  | earlyBitcoin
deriving DecidableEq, Repr

namespace DormantClassification

def asStr : DormantClassification → String
  | .dormant => "DORMANT"
  | .veryOld => "VERY_OLD"
  | .ancient => "ANCIENT"
  | .earlyBitcoin => "EARLY_BITCOIN"

def variants : List (String × DormantClassification) :=
  [.dormant, .veryOld, .ancient, .earlyBitcoin].map fun c => (c.asStr, c)

end DormantClassification

structure DormantCoinsMetadata where
  totalDormantSats : ℕ
  totalDormantBtc : ℚ
  dormantInputCount : ℕ
  totalInputCount : ℕ
  oldestInputAgeDays : ℕ
  oldestInputAgeSeconds : ℕ
  youngestQualifyingAgeDays : ℕ
  totalInputSats : ℕ
  totalOutputSats : ℕ
  dormantRatio : ℚ
  coinAgeDestroyedSatsDays : ℕ
  coinAgeDestroyedBtcDays : ℚ
  coinAgeDestroyedBtcYears : ℚ
  classification : DormantClassification
deriving DecidableEq, Repr

namespace DormantCoinsMetadata

def toValue (m : DormantCoinsMetadata) : Option Value :=
  if m.coinAgeDestroyedSatsDays < 2 ^ 64 then
    some (.object [
      ("total_dormant_sats", .nat m.totalDormantSats),
      ("total_dormant_btc", .number (.float m.totalDormantBtc)),
      ("dormant_input_count", .nat m.dormantInputCount),
      ("total_input_count", .nat m.totalInputCount),
      ("oldest_input_age_days", .nat m.oldestInputAgeDays),
      ("oldest_input_age_seconds", .nat m.oldestInputAgeSeconds),
      ("youngest_qualifying_age_days", .nat m.youngestQualifyingAgeDays),
      ("total_input_sats", .nat m.totalInputSats),
      ("total_output_sats", .nat m.totalOutputSats),
      ("dormant_ratio", .number (.float m.dormantRatio)),
      ("coin_age_destroyed_sats_days", .nat m.coinAgeDestroyedSatsDays),
      ("coin_age_destroyed_btc_days", .number (.float m.coinAgeDestroyedBtcDays)),
      ("coin_age_destroyed_btc_years", .number (.float m.coinAgeDestroyedBtcYears)),
      ("classification", .string m.classification.asStr)])
  else none

def ofValue (v : Value) : Option DormantCoinsMetadata := do
  let field ← v.fieldsOf ["total_dormant_sats", "total_dormant_btc", "dormant_input_count", "total_input_count",
    "oldest_input_age_days", "oldest_input_age_seconds", "youngest_qualifying_age_days", "total_input_sats",
    "total_output_sats", "dormant_ratio", "coin_age_destroyed_sats_days", "coin_age_destroyed_btc_days",
    "coin_age_destroyed_btc_years", "classification"]
  let totalDormantSats ← (field "total_dormant_sats").bind Value.asU64
  let totalDormantBtc ← (field "total_dormant_btc").bind Value.asF64
  let dormantInputCount ← (field "dormant_input_count").bind Value.asU32
  let totalInputCount ← (field "total_input_count").bind Value.asU32
  let oldestInputAgeDays ← (field "oldest_input_age_days").bind Value.asU64
  let oldestInputAgeSeconds ← (field "oldest_input_age_seconds").bind Value.asU64
  let youngestQualifyingAgeDays ← (field "youngest_qualifying_age_days").bind Value.asU64
  let totalInputSats ← (field "total_input_sats").bind Value.asU64
  let totalOutputSats ← (field "total_output_sats").bind Value.asU64
  let dormantRatio ← (field "dormant_ratio").bind Value.asF64
  -- a u128, but a JSON integer is at most a u64
  let coinAgeDestroyedSatsDays ← (field "coin_age_destroyed_sats_days").bind Value.asU64
  let coinAgeDestroyedBtcDays ← (field "coin_age_destroyed_btc_days").bind Value.asF64
  let coinAgeDestroyedBtcYears ← (field "coin_age_destroyed_btc_years").bind Value.asF64
  let classification ← (field "classification").bind (Value.asVariant DormantClassification.variants)
  return { totalDormantSats, totalDormantBtc, dormantInputCount, totalInputCount, oldestInputAgeDays,
           oldestInputAgeSeconds, youngestQualifyingAgeDays, totalInputSats, totalOutputSats, dormantRatio,
           coinAgeDestroyedSatsDays, coinAgeDestroyedBtcDays, coinAgeDestroyedBtcYears, classification }

/-- the numbers of a decoded record fit their types -/
theorem ofValue_lt {v : Value} {d : DormantCoinsMetadata} (h : ofValue v = some d) :
    d.totalDormantSats < 2 ^ 64 ∧ d.dormantInputCount < 2 ^ 64 ∧ d.oldestInputAgeDays < 2 ^ 64 ∧
      d.coinAgeDestroyedSatsDays < 2 ^ 64 := by
  unfold ofValue at h
  obtain ⟨field, -, h⟩ := Option.bind_eq_some_iff.1 h
  obtain ⟨sats, hsats, h⟩ := Option.bind_eq_some_iff.1 h
  obtain ⟨_, -, h⟩ := Option.bind_eq_some_iff.1 h
  obtain ⟨inputs, hinputs, h⟩ := Option.bind_eq_some_iff.1 h
  obtain ⟨_, -, h⟩ := Option.bind_eq_some_iff.1 h
  obtain ⟨days, hdays, h⟩ := Option.bind_eq_some_iff.1 h
  obtain ⟨_, -, h⟩ := Option.bind_eq_some_iff.1 h
  obtain ⟨_, -, h⟩ := Option.bind_eq_some_iff.1 h
  obtain ⟨_, -, h⟩ := Option.bind_eq_some_iff.1 h
  obtain ⟨_, -, h⟩ := Option.bind_eq_some_iff.1 h
  obtain ⟨_, -, h⟩ := Option.bind_eq_some_iff.1 h
  obtain ⟨age, hage, h⟩ := Option.bind_eq_some_iff.1 h
  obtain ⟨_, -, h⟩ := Option.bind_eq_some_iff.1 h
  obtain ⟨_, -, h⟩ := Option.bind_eq_some_iff.1 h
  obtain ⟨_, -, h⟩ := Option.bind_eq_some_iff.1 h
  cases h
  exact ⟨Value.bind_asU64_lt hsats, Value.bind_asU32_lt hinputs, Value.bind_asU64_lt hdays, Value.bind_asU64_lt hage⟩

end DormantCoinsMetadata

structure ConsolidationMetadata where
  inputCount : ℕ
  outputCount : ℕ
  inputOutputRatio : ℚ
  totalInputSats : ℕ
  totalOutputSats : ℕ
  feeSats : ℕ
deriving DecidableEq, Repr

namespace ConsolidationMetadata

def toValue (m : ConsolidationMetadata) : Value :=
  .object [
    ("input_count", .nat m.inputCount),
    ("output_count", .nat m.outputCount),
    ("input_output_ratio", .number (.float m.inputOutputRatio)),
    ("total_input_sats", .nat m.totalInputSats),
    ("total_output_sats", .nat m.totalOutputSats),
    ("fee_sats", .nat m.feeSats)]

def ofValue (v : Value) : Option ConsolidationMetadata := do
  let field ← v.fieldsOf ["input_count", "output_count", "input_output_ratio", "total_input_sats", "total_output_sats",
    "fee_sats"]
  let inputCount ← (field "input_count").bind Value.asU32
  let outputCount ← (field "output_count").bind Value.asU32
  let inputOutputRatio ← (field "input_output_ratio").bind Value.asF64
  let totalInputSats ← (field "total_input_sats").bind Value.asU64
  let totalOutputSats ← (field "total_output_sats").bind Value.asU64
  let feeSats ← (field "fee_sats").bind Value.asU64
  return { inputCount, outputCount, inputOutputRatio, totalInputSats, totalOutputSats, feeSats }

/-- the numbers of a decoded record fit their types -/
theorem ofValue_lt {v : Value} {d : ConsolidationMetadata} (h : ofValue v = some d) :
    d.inputCount < 2 ^ 64 ∧ d.outputCount < 2 ^ 64 ∧ d.totalInputSats < 2 ^ 64 := by
  unfold ofValue at h
  obtain ⟨field, -, h⟩ := Option.bind_eq_some_iff.1 h
  obtain ⟨inputs, hinputs, h⟩ := Option.bind_eq_some_iff.1 h
  obtain ⟨outputs, houtputs, h⟩ := Option.bind_eq_some_iff.1 h
  obtain ⟨_, -, h⟩ := Option.bind_eq_some_iff.1 h
  obtain ⟨sats, hsats, h⟩ := Option.bind_eq_some_iff.1 h
  obtain ⟨_, -, h⟩ := Option.bind_eq_some_iff.1 h
  obtain ⟨_, -, h⟩ := Option.bind_eq_some_iff.1 h
  cases h
  exact ⟨Value.bind_asU32_lt hinputs, Value.bind_asU32_lt houtputs, Value.bind_asU64_lt hsats⟩

end ConsolidationMetadata

structure FanOutMetadata where
  inputCount : ℕ
  outputCount : ℕ
  outputInputRatio : ℚ
  totalDistributedSats : ℕ
  totalDistributedBtc : ℚ
  medianOutputSats : ℕ
  smallestOutputSats : ℕ
  largestOutputSats : ℕ
deriving DecidableEq, Repr

namespace FanOutMetadata

def toValue (m : FanOutMetadata) : Value :=
  .object [
    ("input_count", .nat m.inputCount),
    ("output_count", .nat m.outputCount),
    ("output_input_ratio", .number (.float m.outputInputRatio)),
    ("total_distributed_sats", .nat m.totalDistributedSats),
    ("total_distributed_btc", .number (.float m.totalDistributedBtc)),
    ("median_output_sats", .nat m.medianOutputSats),
    ("smallest_output_sats", .nat m.smallestOutputSats),
    ("largest_output_sats", .nat m.largestOutputSats)]

def ofValue (v : Value) : Option FanOutMetadata := do
  let field ← v.fieldsOf ["input_count", "output_count", "output_input_ratio", "total_distributed_sats",
    "total_distributed_btc", "median_output_sats", "smallest_output_sats", "largest_output_sats"]
  let inputCount ← (field "input_count").bind Value.asU32
  let outputCount ← (field "output_count").bind Value.asU32
  let outputInputRatio ← (field "output_input_ratio").bind Value.asF64
  let totalDistributedSats ← (field "total_distributed_sats").bind Value.asU64
  let totalDistributedBtc ← (field "total_distributed_btc").bind Value.asF64
  let medianOutputSats ← (field "median_output_sats").bind Value.asU64
  let smallestOutputSats ← (field "smallest_output_sats").bind Value.asU64
  let largestOutputSats ← (field "largest_output_sats").bind Value.asU64
  return { inputCount, outputCount, outputInputRatio, totalDistributedSats, totalDistributedBtc, medianOutputSats,
           smallestOutputSats, largestOutputSats }

/-- the numbers of a decoded record fit their types -/
theorem ofValue_lt {v : Value} {d : FanOutMetadata} (h : ofValue v = some d) :
    d.outputCount < 2 ^ 64 ∧ d.totalDistributedSats < 2 ^ 64 ∧ d.medianOutputSats < 2 ^ 64 := by
  unfold ofValue at h
  obtain ⟨field, -, h⟩ := Option.bind_eq_some_iff.1 h
  obtain ⟨_, -, h⟩ := Option.bind_eq_some_iff.1 h
  obtain ⟨outputs, houtputs, h⟩ := Option.bind_eq_some_iff.1 h
  obtain ⟨_, -, h⟩ := Option.bind_eq_some_iff.1 h
  obtain ⟨sats, hsats, h⟩ := Option.bind_eq_some_iff.1 h
  obtain ⟨_, -, h⟩ := Option.bind_eq_some_iff.1 h
  obtain ⟨median, hmedian, h⟩ := Option.bind_eq_some_iff.1 h
  obtain ⟨_, -, h⟩ := Option.bind_eq_some_iff.1 h
  obtain ⟨_, -, h⟩ := Option.bind_eq_some_iff.1 h
  cases h
  exact ⟨Value.bind_asU32_lt houtputs, Value.bind_asU64_lt hsats, Value.bind_asU64_lt hmedian⟩

end FanOutMetadata

inductive ExtremeFeeTriggerType where
  | highAbsoluteFee
  | highFeeRate
  | both
deriving DecidableEq, Repr

namespace ExtremeFeeTriggerType

def asStr : ExtremeFeeTriggerType → String
  | .highAbsoluteFee => "HIGH_ABSOLUTE_FEE"
  | .highFeeRate => "HIGH_FEE_RATE"
  | .both => "BOTH"

def variants : List (String × ExtremeFeeTriggerType) :=
  [.highAbsoluteFee, .highFeeRate, .both].map fun t => (t.asStr, t)

end ExtremeFeeTriggerType

structure ExtremeFeeMetadata where
  feeSats : ℕ
  feeBtc : ℚ
  feeRateSatVb : Option ℚ
  vsize : ℕ
  totalInputSats : ℕ
  totalOutputSats : ℕ
  feeTriggerType : ExtremeFeeTriggerType
deriving DecidableEq, Repr

namespace ExtremeFeeMetadata

def toValue (m : ExtremeFeeMetadata) : Value :=
  .object [
    ("fee_sats", .nat m.feeSats),
    ("fee_btc", .number (.float m.feeBtc)),
    ("fee_rate_sat_vb", match m.feeRateSatVb with
      | some rate => .number (.float rate)
      | none => .null),
    ("vsize", .nat m.vsize),
    ("total_input_sats", .nat m.totalInputSats),
    ("total_output_sats", .nat m.totalOutputSats),
    ("fee_trigger_type", .string m.feeTriggerType.asStr)]

def ofValue (v : Value) : Option ExtremeFeeMetadata := do
  let field ← v.fieldsOf ["fee_sats", "fee_btc", "fee_rate_sat_vb", "vsize", "total_input_sats", "total_output_sats",
    "fee_trigger_type"]
  let feeSats ← (field "fee_sats").bind Value.asU64
  let feeBtc ← (field "fee_btc").bind Value.asF64
  let feeRateSatVb ← Value.optF64 (field "fee_rate_sat_vb")
  let vsize ← (field "vsize").bind Value.asU64
  let totalInputSats ← (field "total_input_sats").bind Value.asU64
  let totalOutputSats ← (field "total_output_sats").bind Value.asU64
  let feeTriggerType ← (field "fee_trigger_type").bind (Value.asVariant ExtremeFeeTriggerType.variants)
  return { feeSats, feeBtc, feeRateSatVb, vsize, totalInputSats, totalOutputSats, feeTriggerType }

/-- the numbers of a decoded record fit their types -/
theorem ofValue_lt {v : Value} {d : ExtremeFeeMetadata} (h : ofValue v = some d) :
    d.feeSats < 2 ^ 64 := by
  unfold ofValue at h
  obtain ⟨field, -, h⟩ := Option.bind_eq_some_iff.1 h
  obtain ⟨sats, hsats, h⟩ := Option.bind_eq_some_iff.1 h
  obtain ⟨_, -, h⟩ := Option.bind_eq_some_iff.1 h
  obtain ⟨_, -, h⟩ := Option.bind_eq_some_iff.1 h
  obtain ⟨_, -, h⟩ := Option.bind_eq_some_iff.1 h
  obtain ⟨_, -, h⟩ := Option.bind_eq_some_iff.1 h
  obtain ⟨_, -, h⟩ := Option.bind_eq_some_iff.1 h
  obtain ⟨_, -, h⟩ := Option.bind_eq_some_iff.1 h
  cases h
  exact Value.bind_asU64_lt hsats

end ExtremeFeeMetadata

/-- an optional text as JSON -/
def Value.optString : Option String → Value
  | some s => .string s
  | none => .null

/-- an optional f64 as JSON -/
def Value.optF64Value : Option ℚ → Value
  | some x => .number (.float x)
  | none => .null

/-- an i64 as JSON -/
def Value.int (i : ℤ) : Value := if 0 ≤ i then .nat i.toNat else .number (.negInt i)

/-- a list of texts as JSON -/
def Value.strings (l : List String) : Value := .array (l.map .string)

structure ReplacementMetadata where
  replacedTxids : List String
  replacementTxid : String
  replacedCount : ℕ
  oldFeeSats : ℕ
  newFeeSats : ℕ
  feeDeltaSats : ℤ
  feeIncreasePercent : Option ℚ
  oldFeeRateSatVb : Option ℚ
  newFeeRateSatVb : Option ℚ
deriving DecidableEq, Repr

def ReplacementMetadata.toValue (m : ReplacementMetadata) : Value :=
  .object [
    ("replaced_txids", .strings m.replacedTxids),
    ("replacement_txid", .string m.replacementTxid),
    ("replaced_count", .nat m.replacedCount),
    ("old_fee_sats", .nat m.oldFeeSats),
    ("new_fee_sats", .nat m.newFeeSats),
    ("fee_delta_sats", .int m.feeDeltaSats),
    ("fee_increase_percent", .optF64Value m.feeIncreasePercent),
    ("old_fee_rate_sat_vb", .optF64Value m.oldFeeRateSatVb),
    ("new_fee_rate_sat_vb", .optF64Value m.newFeeRateSatVb)]

/-! ## Metadata of an event -/

namespace ChainEvent

/-- the network an event names in its metadata -/
def network (event : ChainEvent) : Option String := (event.metadata.get "network").bind Value.asStr

/-- typed metadata, when it serializes -/
def withTypedMetadata (event : ChainEvent) (metadata : Option Value) : ChainEvent :=
  { event with metadata := metadata.getD event.metadata }

end ChainEvent

end ObsChain
