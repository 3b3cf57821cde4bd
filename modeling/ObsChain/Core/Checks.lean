/-
Loops that check a list and stop at the first item that is wrong. Nothing here mentions the program.

- `firstDuplicate`: the first item whose key has been seen. `firstDuplicate_eq_none`, `firstDuplicate_eq_some`: none exactly
  when the keys are distinct; otherwise the item ends the shortest part of the list in which they are not.
- `firstDisorder`: the first item that is earlier than the one before it, and the time of that one.
  `firstDisorder_eq_none`, `firstDisorder_eq_some`: none exactly when the times are in order; otherwise all before it are.
-/
import Mathlib.Tactic

namespace ObsChain.Checks

variable {α κ τ : Type*}

/-! ## Distinct keys -/

section Duplicates

variable [DecidableEq κ] (key : α → κ)

/-- a set of the keys seen, and an insert for each item -/
def duplicateFrom : List κ → List α → Option α
  | _, [] => none
  | seen, x :: xs => if key x ∈ seen then some x else duplicateFrom (key x :: seen) xs

def firstDuplicate (l : List α) : Option α := duplicateFrom key [] l

variable {key}

theorem duplicateFrom_eq_none {seen : List κ} {l : List α} :
    duplicateFrom key seen l = none ↔ (l.map key).Nodup ∧ ∀ x ∈ l, key x ∉ seen := by
  induction l generalizing seen with
  | nil => simp [duplicateFrom]
  | cons x xs ih =>
    unfold duplicateFrom
    split_ifs with hseen
    · simp [hseen]
    · rw [ih, List.map_cons, List.nodup_cons]
      constructor
      · rintro ⟨hnodup, hnew⟩
        refine ⟨⟨?_, hnodup⟩, ?_⟩
        · rintro hmem
          obtain ⟨y, hy, hkey⟩ := List.mem_map.1 hmem
          exact hnew y hy (hkey ▸ List.mem_cons_self)
        · intro y hy
          rcases List.mem_cons.1 hy with rfl | hy
          · exact hseen
          · exact fun hmem => hnew y hy (List.mem_cons_of_mem _ hmem)
      · rintro ⟨⟨hx, hnodup⟩, hnew⟩
        refine ⟨hnodup, fun y hy hmem => ?_⟩
        rcases List.mem_cons.1 hmem with hkey | hmem
        · exact hx (hkey ▸ List.mem_map_of_mem hy)
        · exact hnew y (List.mem_cons_of_mem x hy) hmem

theorem duplicateFrom_eq_some {seen : List κ} {l : List α} {x : α} (h : duplicateFrom key seen l = some x) :
    ∃ before after, l = before ++ x :: after ∧ (before.map key).Nodup ∧ (∀ y ∈ before, key y ∉ seen) ∧
      (key x ∈ seen ∨ key x ∈ before.map key) := by
  induction l generalizing seen with
  | nil => cases h
  | cons y ys ih =>
    unfold duplicateFrom at h
    split_ifs at h with hseen
    · obtain rfl := Option.some.inj h
      exact ⟨[], ys, rfl, List.nodup_nil, fun _ hy => absurd hy List.not_mem_nil, Or.inl hseen⟩
    · obtain ⟨before, after, rfl, hnodup, hnew, hx⟩ := ih h
      refine ⟨y :: before, after, rfl, ?_, ?_, ?_⟩
      · rw [List.map_cons, List.nodup_cons]
        refine ⟨fun hmem => ?_, hnodup⟩
        obtain ⟨z, hz, hkey⟩ := List.mem_map.1 hmem
        exact hnew z hz (hkey ▸ List.mem_cons_self)
      · intro z hz
        rcases List.mem_cons.1 hz with rfl | hz
        · exact hseen
        · exact fun hmem => hnew z hz (List.mem_cons_of_mem _ hmem)
      · rcases hx with hx | hx
        · rcases List.mem_cons.1 hx with heq | hx
          · exact Or.inr (heq ▸ List.mem_cons_self)
          · exact Or.inl hx
        · exact Or.inr (List.mem_cons_of_mem _ hx)

/-- **No duplicate is found** exactly when the keys are distinct. -/
theorem firstDuplicate_eq_none {l : List α} : firstDuplicate key l = none ↔ (l.map key).Nodup := by
  unfold firstDuplicate
  rw [duplicateFrom_eq_none]
  simp

/-- the duplicate that is found is the first -/
theorem firstDuplicate_eq_some {l : List α} {x : α} (h : firstDuplicate key l = some x) :
    ∃ before after, l = before ++ x :: after ∧ (before.map key).Nodup ∧ key x ∈ before.map key := by
  obtain ⟨before, after, hl, hnodup, -, hx⟩ := duplicateFrom_eq_some h
  exact ⟨before, after, hl, hnodup, hx.resolve_left List.not_mem_nil⟩

end Duplicates

/-! ## Times in order -/

section Order

variable [LinearOrder τ] (time : α → τ)

/-- with the time of the item before -/
def disorderFrom : Option τ → List α → Option (α × τ)
  | _, [] => none
  | none, x :: xs => disorderFrom (some (time x)) xs
  | some prev, x :: xs => if time x < prev then some (x, prev) else disorderFrom (some (time x)) xs

def firstDisorder (l : List α) : Option (α × τ) := disorderFrom time none l

variable {time}

theorem disorderFrom_eq_none {prev : τ} {l : List α} :
    disorderFrom time (some prev) l = none ↔ l.Pairwise (fun x y => time x ≤ time y) ∧ ∀ x ∈ l, prev ≤ time x := by
  induction l generalizing prev with
  | nil => simp [disorderFrom]
  | cons x xs ih =>
    unfold disorderFrom
    split_ifs with hlt
    · simp [hlt]
    · rw [ih, List.pairwise_cons]
      have hle := not_lt.1 hlt
      constructor
      · rintro ⟨hsorted, hafter⟩
        refine ⟨⟨hafter, hsorted⟩, fun y hy => ?_⟩
        rcases List.mem_cons.1 hy with rfl | hy
        · exact hle
        · exact hle.trans (hafter y hy)
      · rintro ⟨⟨hafter, hsorted⟩, -⟩
        exact ⟨hsorted, hafter⟩

theorem disorderFrom_eq_some {prev : τ} {l : List α} {x : α} {t : τ} (h : disorderFrom time (some prev) l = some (x, t)) :
    ∃ before after, l = before ++ x :: after ∧ before.Pairwise (fun y z => time y ≤ time z) ∧
      (∀ y ∈ before, prev ≤ time y) ∧ ((before.getLast?.map time).getD prev = t) ∧ time x < t := by
  induction l generalizing prev with
  | nil => cases h
  | cons y ys ih =>
    unfold disorderFrom at h
    split_ifs at h with hlt
    · cases h
      exact ⟨[], ys, rfl, List.Pairwise.nil, fun _ hy => absurd hy List.not_mem_nil, rfl, hlt⟩
    · obtain ⟨before, after, rfl, hsorted, hafter, hlast, hx⟩ := ih h
      refine ⟨y :: before, after, rfl, List.pairwise_cons.2 ⟨hafter, hsorted⟩, ?_, ?_, hx⟩
      · intro z hz
        rcases List.mem_cons.1 hz with rfl | hz
        · exact not_lt.1 hlt
        · exact (not_lt.1 hlt).trans (hafter z hz)
      · rw [← hlast]
        cases before with
        | nil => rfl
        | cons z zs => rw [List.getLast?_cons_cons, List.getLast?_cons, Option.map_some, Option.getD_some, Option.getD_some]

/-- **No disorder is found** exactly when the times are in order. -/
theorem firstDisorder_eq_none {l : List α} :
    firstDisorder time l = none ↔ l.Pairwise fun x y => time x ≤ time y := by
  cases l with
  | nil => simp [firstDisorder, disorderFrom]
  | cons x xs =>
    unfold firstDisorder disorderFrom
    rw [disorderFrom_eq_none, List.pairwise_cons, and_comm]

/-- the disorder that is found is the first, and the time is that of the item before it -/
theorem firstDisorder_eq_some {l : List α} {x : α} {t : τ} (h : firstDisorder time l = some (x, t)) :
    ∃ before prev after, l = before ++ prev :: x :: after ∧
      (before ++ [prev]).Pairwise (fun y z => time y ≤ time z) ∧ time prev = t ∧ time x < t := by
  cases l with
  | nil => cases h
  | cons y ys =>
    unfold firstDisorder disorderFrom at h
    obtain ⟨before, after, rfl, hsorted, hafter, hlast, hx⟩ := disorderFrom_eq_some h
    have hall : (y :: before).Pairwise fun y z => time y ≤ time z := List.pairwise_cons.2 ⟨hafter, hsorted⟩
    rcases List.eq_nil_or_concat before with rfl | ⟨init, last, rfl⟩
    · exact ⟨[], y, after, rfl, hall, hlast, hx⟩
    · refine ⟨y :: init, last, after, by simp, by simpa using hall, ?_, hx⟩
      simpa using hlast

end Order

/-! ## Checks in sequence -/

section Sequence

variable {ε : Type*}

/-- one check and then the rest -/
theorem then_ok_iff {a b : Except ε Unit} : (a >>= fun _ => b) = .ok () ↔ a = .ok () ∧ b = .ok () := by
  cases a with
  | error e => exact iff_of_false (by simp [bind, Except.bind]) fun h => by cases h.1
  | ok u => exact (and_iff_right rfl).symm

/-- the sequence fails as the first that fails -/
theorem then_error {a b : Except ε Unit} {e : ε} (h : (a >>= fun _ => b) = .error e) :
    a = .error e ∨ (a = .ok () ∧ b = .error e) := by
  cases a with
  | error e' => exact Or.inl h
  | ok u => exact Or.inr ⟨rfl, h⟩

/-- a check of every item passes where it passes for each -/
theorem forM_ok_iff {check : α → Except ε Unit} {l : List α} :
    l.forM check = .ok () ↔ ∀ x ∈ l, check x = .ok () := by
  induction l with
  | nil => exact iff_of_true rfl fun _ hx => absurd hx List.not_mem_nil
  | cons x xs ih =>
    have hcons : (x :: xs).forM check = (check x >>= fun _ => xs.forM check) := rfl
    rw [hcons, then_ok_iff, ih, List.forall_mem_cons]

/-- and otherwise fails as the first that fails -/
theorem forM_error {check : α → Except ε Unit} {l : List α} {e : ε} (h : l.forM check = .error e) :
    ∃ before x after, l = before ++ x :: after ∧ (∀ y ∈ before, check y = .ok ()) ∧ check x = .error e := by
  induction l with
  | nil => cases h
  | cons x xs ih =>
    rcases then_error (show (check x >>= fun _ => xs.forM check) = .error e from h) with hx | ⟨hx, hrest⟩
    · exact ⟨[], x, xs, rfl, fun _ hy => absurd hy List.not_mem_nil, hx⟩
    · obtain ⟨before, y, after, rfl, hbefore, hy⟩ := ih hrest
      exact ⟨x :: before, y, after, rfl, List.forall_mem_cons.2 ⟨hx, hbefore⟩, hy⟩

end Sequence

end ObsChain.Checks
