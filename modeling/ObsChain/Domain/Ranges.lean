/-
The ranges of the Rust types behind an observation.

The model's numbers are naturals and its times integers. `Typed` says what the types of the fields promise: a u64 or usize
is below 2^64, a u32 below 2^32, and a time is one chrono can represent.
-/
import Mathlib.Tactic
import ObsChain.Domain.Observation

namespace ObsChain

/-- a time that chrono can represent, in nanoseconds -/
def Representable (t : DateTime) : Prop := -8334601228800 * 1000000000 ≤ t ∧ t < 8210266876800 * 1000000000

/-- an optional number below a bound -/
def Below (bound : ℕ) (x : Option ℕ) : Prop := ∀ n ∈ x, n < bound

@[mk_iff]
structure SpentOutputContext.Typed (u : SpentOutputContext) : Prop where
  valueSats : u.valueSats < 2 ^ 64
  confirmedHeight : Below (2 ^ 64) u.confirmedHeight
  confirmedAt : ∀ t ∈ u.confirmedAt, Representable t

structure TransactionObservation.Typed (tx : TransactionObservation) : Prop where
  timestamp : Representable tx.timestamp
  blockHeight : Below (2 ^ 64) tx.blockHeight
  feeSats : tx.feeSats < 2 ^ 64
  vsize : tx.vsize < 2 ^ 64
  totalInputSats : tx.totalInputSats < 2 ^ 64
  totalOutputSats : tx.totalOutputSats < 2 ^ 64
  inputCount : tx.inputCount < 2 ^ 64
  outputCount : tx.outputCount < 2 ^ 64
  spent : ∀ input ∈ tx.inputs, ∀ u ∈ input.historicalUtxo, u.Typed
  outputs : ∀ out ∈ tx.outputs, out.valueSats < 2 ^ 64

structure BlockObservation.Typed (b : BlockObservation) : Prop where
  intervalSeconds : Below (2 ^ 64) b.intervalSeconds

def Observation.Typed : Observation → Prop
  | .block b => b.Typed
  | .transaction tx => tx.Typed
  | _ => True

/-- no whole seconds in a negative duration -/
theorem seconds_nonpos {nanos : ℤ} (h : nanos ≤ 0) : nanos.tdiv 1000000000 ≤ 0 := by
  have hflip : nanos.tdiv 1000000000 = -((-nanos).tdiv 1000000000) := by
    rw [Int.neg_tdiv, neg_neg]
  have hnonneg : 0 ≤ (-nanos).tdiv 1000000000 := Int.tdiv_nonneg (by omega) (by norm_num)
  omega

theorem toNat_seconds_lt {nanos : ℤ} (h : nanos < 2 ^ 44 * 1000000000) : (nanos.tdiv 1000000000).toNat < 2 ^ 44 := by
  rcases le_or_gt 0 nanos with hpos | hneg
  · rw [Int.tdiv_eq_ediv_of_nonneg hpos]
    omega
  · have hnonpos := seconds_nonpos hneg.le
    omega

/-- a difference of representable times, in seconds -/
theorem secondsSince_lt {t p : DateTime} (ht : Representable t) (hp : Representable p) :
    (secondsSince t p).toNat < 2 ^ 44 := by
  have hdiff : t - p < 2 ^ 44 * 1000000000 := by
    obtain ⟨-, ht⟩ := ht
    obtain ⟨hp, -⟩ := hp
    linarith
  exact toNat_seconds_lt hdiff

end ObsChain
