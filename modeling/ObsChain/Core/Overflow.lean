/-
Unsigned arithmetic of a fixed width, as a compiled program performs it. Nothing here mentions the program.

A build with overflow checks stops at a sum or a difference that does not fit; one without them goes on with the result
modulo the word size. `none` is the stop, so a computation overflows exactly when the checked build stops (`panics`), and
its result in the other build is then not the number that was meant.
-/
import Mathlib.Tactic

namespace ObsChain.Overflow

/-- what a build does with a result that does not fit -/
inductive Mode where
  | panics
  | wraps
deriving DecidableEq, Repr

variable {w : ℕ}

def settle (mode : Mode) (fits : Prop) [Decidable fits] (result : BitVec w) : Option (BitVec w) :=
  if fits then some result
  else match mode with
    | .panics => none
    | .wraps => some result

def add (mode : Mode) (a b : BitVec w) : Option (BitVec w) := settle mode (a.toNat + b.toNat < 2 ^ w) (a + b)

def sub (mode : Mode) (a b : BitVec w) : Option (BitVec w) := settle mode (b.toNat ≤ a.toNat) (a - b)

/-- a sum that fits is the sum -/
theorem add_of_lt (mode : Mode) {a b : BitVec w} (h : a.toNat + b.toNat < 2 ^ w) :
    ∃ c, add mode a b = some c ∧ c.toNat = a.toNat + b.toNat := by
  refine ⟨a + b, if_pos h, ?_⟩
  rw [BitVec.toNat_add, Nat.mod_eq_of_lt h]

/-- a difference that fits is the difference -/
theorem sub_of_le (mode : Mode) {a b : BitVec w} (h : b.toNat ≤ a.toNat) :
    ∃ c, sub mode a b = some c ∧ c.toNat = a.toNat - b.toNat := by
  refine ⟨a - b, if_pos h, ?_⟩
  exact BitVec.toNat_sub_of_le h

/-- a sum that does not fit stops the checked build -/
theorem add_panics {a b : BitVec w} (h : 2 ^ w ≤ a.toNat + b.toNat) : add .panics a b = none :=
  if_neg (not_lt.2 h)

end ObsChain.Overflow
