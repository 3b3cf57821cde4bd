/-
A log of keys with values, newest first. Nothing here mentions the program.

- `last`: the value that a key was logged with last.
- `since`: the keys that were logged after that.
-/
import Mathlib.Tactic
import Mathlib.Data.List.TakeWhile

namespace ObsChain.KeyLog

variable {κ ν : Type*} [DecidableEq κ]

def last (log : List (κ × ν)) (k : κ) : Option ν := (log.find? fun p => p.1 = k).map Prod.snd

def since (log : List (κ × ν)) (k : κ) : List κ := (log.map Prod.fst).takeWhile fun k' => k' ≠ k

variable {log : List (κ × ν)} {k k' : κ} {v : ν}

theorem last_cons (p : κ × ν) (log : List (κ × ν)) (k : κ) :
    last (p :: log) k = if p.1 = k then some p.2 else last log k := by
  by_cases h : p.1 = k
  · simp [last, h]
  · simp [last, h]

theorem since_cons (p : κ × ν) (log : List (κ × ν)) (k : κ) :
    since (p :: log) k = if p.1 = k then [] else p.1 :: since log k := by
  by_cases h : p.1 = k
  · simp [since, h]
  · simp [since, h]

theorem mem_of_last (h : last log k = some v) : (k, v) ∈ log := by
  obtain ⟨p, hp, rfl⟩ := Option.map_eq_some_iff.1 h
  have hkey : p.1 = k := by simpa using List.find?_some hp
  rw [← hkey]
  exact List.mem_of_find?_eq_some hp

theorem notMem_since (log : List (κ × ν)) (k : κ) : k ∉ since log k := by
  intro h
  simpa using List.mem_takeWhile_imp h

/-- of two keys, one was logged last -/
theorem since_asymm (h : k' ∈ since log k) : k ∉ since log k' := by
  induction log with
  | nil => cases h
  | cons p log ih =>
    rw [since_cons] at h ⊢
    by_cases hother : p.1 = k'
    · rw [if_pos hother]
      exact List.not_mem_nil
    · rw [if_neg hother]
      by_cases hkey : p.1 = k
      · rw [if_pos hkey] at h
        cases h
      · rw [if_neg hkey] at h
        have htail : k' ∈ since log k := (List.mem_cons.1 h).resolve_left (Ne.symm hother)
        intro hmem
        exact ih htail ((List.mem_cons.1 hmem).resolve_left (Ne.symm hkey))

/-- a key that is logged stands behind all the others -/
theorem mem_since_cons (v : ν) (log : List (κ × ν)) (h : k' ≠ k) : k' ∈ since ((k', v) :: log) k := by
  rw [since_cons, if_neg h]
  exact List.mem_cons_self

/-- and leaves those behind another one there -/
theorem mem_since_cons_of_mem {p : κ × ν} (hp : p.1 ≠ k) (h : k' ∈ since log k) : k' ∈ since (p :: log) k := by
  rw [since_cons, if_neg hp]
  exact List.mem_cons_of_mem p.1 h

end ObsChain.KeyLog
