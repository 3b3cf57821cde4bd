/-
Conditions and timestamps of SQL. Nothing here mentions the program.

A value that may be `NULL` is an option. A comparison with `NULL` is neither true nor false, so a condition has three
values; `WHERE` keeps a row only where it is true. `holds_and`, `holds_or` and the lemmas after them say when that is, in
ordinary logic.

A `TIMESTAMPTZ` counts microseconds since 2000; a time in nanoseconds is truncated toward that instant on the way in.
-/
import Mathlib.Tactic

namespace ObsChain.Sql

variable {α : Type*}

/-! ## Conditions -/

/-- `none` is unknown -/
abbrev Truth := Option Bool

def and : Truth → Truth → Truth
  | some false, _ => some false
  | _, some false => some false
  | some true, some true => some true
  | _, _ => none

def or : Truth → Truth → Truth
  | some true, _ => some true
  | _, some true => some true
  | some false, some false => some false
  | _, _ => none

def isNull (x : Option α) : Truth := some x.isNone

def eq [DecidableEq α] (x y : Option α) : Truth := Option.map₂ (fun a b => decide (a = b)) x y

def ge (x y : Option ℤ) : Truth := Option.map₂ (fun a b => decide (b ≤ a)) x y

def le (x y : Option ℤ) : Truth := Option.map₂ (fun a b => decide (a ≤ b)) x y

def coalesce (x y : Option α) : Option α := x.or y

/-- what `WHERE` keeps -/
def holds (t : Truth) : Bool := t == some true

/-- `EXISTS (SELECT 1 FROM rows WHERE condition)` -/
def existsRow (rows : List α) (condition : α → Truth) : Truth := some (rows.any fun r => holds (condition r))

@[simp] theorem holds_and (a b : Truth) : holds (and a b) = true ↔ holds a = true ∧ holds b = true := by
  rcases a with _ | _ | _ <;> rcases b with _ | _ | _ <;> decide

@[simp] theorem holds_or (a b : Truth) : holds (or a b) = true ↔ holds a = true ∨ holds b = true := by
  rcases a with _ | _ | _ <;> rcases b with _ | _ | _ <;> decide

@[simp] theorem holds_isNull (x : Option α) : holds (isNull x) = true ↔ x = none := by
  cases x <;> simp [holds, isNull]

@[simp] theorem holds_eq [DecidableEq α] (x : Option α) (b : α) : holds (eq x (some b)) = true ↔ x = some b := by
  cases x <;> simp [holds, eq]

@[simp] theorem holds_ge (x : Option ℤ) (b : ℤ) : holds (ge x (some b)) = true ↔ ∃ a, x = some a ∧ b ≤ a := by
  cases x <;> simp [holds, ge]

@[simp] theorem holds_le (x : Option ℤ) (b : ℤ) : holds (le x (some b)) = true ↔ ∃ a, x = some a ∧ a ≤ b := by
  cases x <;> simp [holds, le]

@[simp] theorem holds_existsRow (rows : List α) (condition : α → Truth) :
    holds (existsRow rows condition) = true ↔ ∃ r ∈ rows, holds (condition r) = true := by
  simp [holds, existsRow]

@[simp] theorem coalesce_some (a : α) (y : Option α) : coalesce (some a) y = some a := rfl

/-! ## Texts and timestamps -/

/-- a text column holds no `NUL` -/
def isText (x : String) : Bool := !x.toList.contains '\x00'

/-- 2000-01-01, in nanoseconds since 1970 -/
def epoch : ℤ := 946684800000000000

/-- a time in nanoseconds as a column holds it -/
def toMicros (t : ℤ) : ℤ := (t - epoch).tdiv 1000

/-- and as it is read again -/
def ofMicros (m : ℤ) : ℤ := epoch + m * 1000

/-- the timestamps the type has: from 4714 BC until 294276 AD -/
def inRange (m : ℤ) : Bool := decide (-211813488000000000 ≤ m) && decide (m < 9223371331200000000)

/-- what is read is what was written, for times in whole microseconds -/
theorem ofMicros_toMicros (t : ℤ) : ofMicros (toMicros t) = t ↔ 1000 ∣ t := by
  have hepoch : (1000 : ℤ) ∣ epoch := by decide
  constructor
  · intro h
    rw [← h, ofMicros]
    exact dvd_add hepoch (dvd_mul_left 1000 _)
  · intro h
    have hsub : (1000 : ℤ) ∣ t - epoch := dvd_sub h hepoch
    rw [ofMicros, toMicros, Int.tdiv_mul_cancel hsub]
    ring

theorem ofMicros_inj {a b : ℤ} : ofMicros a = ofMicros b ↔ a = b := by
  unfold ofMicros
  omega

theorem ofMicros_mono {a b : ℤ} (h : a ≤ b) : ofMicros a ≤ ofMicros b := by
  unfold ofMicros
  omega

theorem toMicros_mono {s t : ℤ} (h : s ≤ t) : toMicros s ≤ toMicros t :=
  Int.tdiv_le_tdiv (by decide) (by omega)

end ObsChain.Sql
