/-
Forests given by a parent function, over an arbitrary type of nodes. Every node has at most one parent, and heights
grow by one from parent to child, so there are no cycles. `ancestor k b` is the node k steps above `b`.
-/
import Mathlib.Tactic

namespace ObsChain

/-- nodes, their parents and their heights -/
structure Forest (α : Type*) where
  mem : α → Prop
  parent : α → Option α
  height : α → ℕ
  parent_mem : ∀ {b p}, parent b = some p → mem b ∧ mem p
  height_parent : ∀ {b p}, parent b = some p → height b = height p + 1

namespace Forest

variable {α : Type*} (F : Forest α)

/-- the node k steps above `b` -/
def ancestor : ℕ → α → Option α
  | 0, b => some b
  | k + 1, b => (F.parent b).bind (ancestor k)

/-- `b` and the nodes above it, k of them where there are as many -/
def path : ℕ → α → List α
  | 0, _ => []
  | k + 1, b => b :: ((F.parent b).elim [] (path k))

/-- `a` is `b` or lies above it -/
def AncestorOrEq (a b : α) : Prop := ∃ k, F.ancestor k b = some a

/-- `a` lies strictly above `b` -/
def Ancestor (a b : α) : Prop := ∃ k, F.ancestor (k + 1) b = some a

/-- `a` is above both, and whatever is above both is above `a` -/
structure LowestCommon (a b c : α) : Prop where
  left : F.AncestorOrEq a b
  right : F.AncestorOrEq a c
  lowest : ∀ d, F.AncestorOrEq d b → F.AncestorOrEq d c → F.AncestorOrEq d a

variable {F}

theorem ancestor_succ {k : ℕ} {b p : α} (h : F.parent b = some p) : F.ancestor (k + 1) b = F.ancestor k p := by
  simp [ancestor, h]

theorem height_ancestor {k : ℕ} {b a : α} (h : F.ancestor k b = some a) : F.height b = F.height a + k := by
  induction k generalizing b with
  | zero => simp only [ancestor, Option.some.injEq] at h; rw [h]; rfl
  | succ k ih =>
    cases hp : F.parent b with
    | none => simp [ancestor, hp] at h
    | some p =>
      rw [ancestor_succ hp] at h
      rw [F.height_parent hp, ih h]; omega

/-- a node outside the forest has no ancestor but itself -/
theorem ancestor_of_not_mem {k : ℕ} {b a : α} (hb : ¬ F.mem b) (h : F.ancestor k b = some a) : a = b := by
  cases k with
  | zero => simp only [ancestor, Option.some.injEq] at h; exact h.symm
  | succ k =>
    cases hp : F.parent b with
    | none => simp [ancestor, hp] at h
    | some p => exact absurd (F.parent_mem hp).1 hb

/-- a node with an ancestor has a parent on the way to it -/
theorem exists_parent_of_ancestor {k : ℕ} {b a : α} (h : F.ancestor (k + 1) b = some a) :
    ∃ p, F.parent b = some p ∧ F.ancestor k p = some a := by
  cases hp : F.parent b with
  | none => simp [ancestor, hp] at h
  | some p => exact ⟨p, rfl, ancestor_succ hp ▸ h⟩

/-- **Below the lowest common ancestor the branches do not meet.** -/
theorem LowestCommon.ancestor_ne {a b c : α} (h : F.LowestCommon a b c) {k j : ℕ} (hb : F.ancestor k b = some a)
    (hj : j < k) {d : α} (hdb : F.ancestor j b = some d) : F.ancestor j c ≠ some d := by
  intro hdc
  obtain ⟨m, hm⟩ := h.lowest d ⟨j, hdb⟩ ⟨j, hdc⟩
  have hheight := height_ancestor hm
  have hheight' := height_ancestor hb
  have hheight'' := height_ancestor hdb
  omega

end Forest

end ObsChain
