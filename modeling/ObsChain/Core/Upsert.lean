/-
Replace the first record that matches, or append. Nothing here mentions the program.

A table kept as a list with a linear scan. `same` is whatever the scan compares; where it compares the values of a key,
the table keeps one record per key (`nodup_upsert`), and the keys and their order change only by an append
(`map_upsert`). A part of the table (`filter`) sees the writes to its own records and no others.
-/
import Mathlib.Tactic

namespace ObsChain

variable {α κ : Type*}

def upsert (same : α → Bool) (x : α) : List α → List α
  | [] => [x]
  | y :: ys => if same y then x :: ys else y :: upsert same x ys

/-- no match: appended -/
theorem upsert_of_none {same : α → Bool} {x : α} {l : List α} (h : ∀ y ∈ l, same y = false) :
    upsert same x l = l ++ [x] := by
  induction l with
  | nil => rfl
  | cons y ys ih =>
    have hy := h y List.mem_cons_self
    have hys := ih fun z hz => h z (List.mem_cons_of_mem y hz)
    simp [upsert, hy, hys]

theorem mem_upsert_self (same : α → Bool) (x : α) (l : List α) : x ∈ upsert same x l := by
  induction l with
  | nil => simp [upsert]
  | cons y ys ih =>
    unfold upsert
    split_ifs
    · exact List.mem_cons_self
    · exact List.mem_cons_of_mem y ih

theorem mem_of_mem_upsert {same : α → Bool} {x z : α} {l : List α} (h : z ∈ upsert same x l) : z = x ∨ z ∈ l := by
  induction l with
  | nil => exact Or.inl (by simpa [upsert] using h)
  | cons y ys ih =>
    unfold upsert at h
    split_ifs at h
    · rcases List.mem_cons.1 h with hx | hys
      · exact Or.inl hx
      · exact Or.inr (List.mem_cons_of_mem y hys)
    · rcases List.mem_cons.1 h with hy | hrest
      · exact Or.inr (hy ▸ List.mem_cons_self)
      · rcases ih hrest with hx | hys
        · exact Or.inl hx
        · exact Or.inr (List.mem_cons_of_mem y hys)

/-- what the scan does not match stays -/
theorem mem_upsert_of_not {same : α → Bool} {x z : α} {l : List α} (hz : z ∈ l) (hne : same z = false) :
    z ∈ upsert same x l := by
  induction l with
  | nil => exact absurd hz List.not_mem_nil
  | cons y ys ih =>
    unfold upsert
    rcases List.mem_cons.1 hz with heq | hys
    · rw [← heq, if_neg (by simp [hne])]
      exact List.mem_cons_self
    · split_ifs
      · exact List.mem_cons_of_mem x hys
      · exact List.mem_cons_of_mem y (ih hys)

/-- **The keys of the table.** Where a match has the new record's key, they change only when nothing matches. -/
theorem map_upsert (key : α → κ) {same : α → Bool} {x : α} {l : List α}
    (hkey : ∀ y ∈ l, same y = true → key y = key x) :
    (upsert same x l).map key = if l.any same then l.map key else l.map key ++ [key x] := by
  induction l with
  | nil => rfl
  | cons y ys ih =>
    have hys := ih fun z hz => hkey z (List.mem_cons_of_mem y hz)
    by_cases hy : same y = true
    · simp [upsert, hy, hkey y List.mem_cons_self hy]
    · rw [upsert, if_neg hy, List.map_cons, hys]
      have hany : (y :: ys).any same = ys.any same := by simp [hy]
      rw [hany]
      split_ifs <;> rfl

/-- **A view of the table.** Where two scans match alike, the view of the replacement is the replacement in the view. -/
theorem map_upsert_view {β : Type*} (view : α → β) {same : α → Bool} {same' : β → Bool} {x : α} {l : List α}
    (h : ∀ y ∈ l, same y = same' (view y)) : (upsert same x l).map view = upsert same' (view x) (l.map view) := by
  induction l with
  | nil => rfl
  | cons y ys ih =>
    have hys := ih fun z hz => h z (List.mem_cons_of_mem y hz)
    have hy := h y List.mem_cons_self
    cases hsame : same y with
    | true => simp [upsert, hsame, ← hy]
    | false => simp [upsert, hsame, ← hy, hys]

/-- an appended record needs a new key -/
theorem nodup_map_concat (key : α → κ) {x : α} {l : List α} :
    ((l ++ [x]).map key).Nodup ↔ (∀ y ∈ l, key y ≠ key x) ∧ (l.map key).Nodup := by
  rw [List.map_append, List.map_singleton, List.nodup_append_comm, List.singleton_append, List.nodup_cons, List.mem_map]
  push Not
  rfl

/-- so it does where a queue has dropped records -/
theorem nodup_map_concat_of_sublist (key : α → κ) {x : α} {l l' : List α} (hsub : l'.Sublist l)
    (hnew : ∀ y ∈ l, key y ≠ key x) (h : (l.map key).Nodup) : ((l' ++ [x]).map key).Nodup := by
  rw [nodup_map_concat]
  exact ⟨fun y hy => hnew y (hsub.subset hy), (hsub.map key).nodup h⟩

/-- **One record per key.** A scan that compares keys keeps them distinct. -/
theorem nodup_upsert (key : α → κ) {same : α → Bool} {x : α} {l : List α}
    (hkey : ∀ y ∈ l, same y = true ↔ key y = key x) (h : (l.map key).Nodup) :
    ((upsert same x l).map key).Nodup := by
  by_cases hany : l.any same = true
  · rw [map_upsert key fun y hy => (hkey y hy).1, if_pos hany]
    exact h
  · have hnone : ∀ y ∈ l, same y = false := by
      simpa using hany
    rw [upsert_of_none hnone, nodup_map_concat]
    refine ⟨fun y hy heq => ?_, h⟩
    have hsame := (hkey y hy).2 heq
    rw [hnone y hy] at hsame
    cases hsame

/-- **The records of the table.** With one record per key, the new one takes the place of the one with its key. -/
theorem mem_upsert_iff (key : α → κ) {same : α → Bool} {x z : α} {l : List α}
    (hkey : ∀ y ∈ l, same y = true ↔ key y = key x) (h : (l.map key).Nodup) :
    z ∈ upsert same x l ↔ z = x ∨ (z ∈ l ∧ key z ≠ key x) := by
  constructor
  · intro hz
    rcases mem_of_mem_upsert hz with hx | hl
    · exact Or.inl hx
    · by_cases hk : key z = key x
      · have hnodup := nodup_upsert key hkey h
        exact Or.inl (List.inj_on_of_nodup_map hnodup hz (mem_upsert_self same x l) hk)
      · exact Or.inr ⟨hl, hk⟩
  · rintro (rfl | ⟨hl, hk⟩)
    · exact mem_upsert_self same z l
    · apply mem_upsert_of_not hl
      rw [Bool.eq_false_iff]
      intro hs
      exact hk ((hkey z hl).1 hs)

/-- of the records with distinct keys, one has the key of a given one -/
theorem filter_key_eq [DecidableEq κ] (key : α → κ) {x : α} {l : List α} (h : (l.map key).Nodup) (hx : x ∈ l) :
    l.filter (fun y => key y = key x) = [x] := by
  induction l with
  | nil => exact absurd hx List.not_mem_nil
  | cons y ys ih =>
    rw [List.map_cons, List.nodup_cons] at h
    rcases List.mem_cons.1 hx with heq | hys
    · have hnone : ys.filter (fun z => key z = key x) = [] := by
        rw [List.filter_eq_nil_iff]
        intro z hz hk
        rw [decide_eq_true_eq, heq] at hk
        exact h.1 (hk ▸ List.mem_map_of_mem hz)
      rw [List.filter_cons_of_pos (by simp [heq]), hnone, heq]
    · have hne : key y ≠ key x := fun hk => h.1 (hk ▸ List.mem_map_of_mem hys)
      rw [List.filter_cons_of_neg (by simpa using hne), ih h.2 hys]

/-! ## Tables that are parts of a table -/

/-- a record of the part is written in the part as in the whole -/
theorem filter_upsert_of_pos {p same : α → Bool} {x : α} {l : List α} (hx : p x = true)
    (hsame : ∀ y ∈ l, same y = true → p y = true) : (upsert same x l).filter p = upsert same x (l.filter p) := by
  induction l with
  | nil => simp [upsert, hx]
  | cons y ys ih =>
    have ih := ih fun z hz => hsame z (List.mem_cons_of_mem y hz)
    by_cases hy : same y = true
    · have hp := hsame y List.mem_cons_self hy
      simp [upsert, hy, hp, hx]
    · by_cases hp : p y = true
      · simp [upsert, hy, hp, ih]
      · simp [upsert, hy, hp, ih]

/-- a record outside the part leaves it as it was -/
theorem filter_upsert_of_neg {p same : α → Bool} {x : α} {l : List α} (hx : p x = false)
    (hsame : ∀ y ∈ l, same y = true → p y = false) : (upsert same x l).filter p = l.filter p := by
  induction l with
  | nil => simp [upsert, hx]
  | cons y ys ih =>
    have ih := ih fun z hz => hsame z (List.mem_cons_of_mem y hz)
    by_cases hy : same y = true
    · have hp := hsame y List.mem_cons_self hy
      simp [upsert, hy, hp, hx]
    · by_cases hp : p y = true
      · simp [upsert, hy, hp, ih]
      · simp [upsert, hy, hp, ih]

end ObsChain
