/-
A map whose memory is bounded by a first-in first-out queue of its keys. Nothing here mentions the program.

An insertion into a full queue evicts the key at its front. A removal takes the entry and leaves the key in the queue,
and inserting a key again queues it again, so the queue can be longer than the map.

- `Kept n k`: no `n` insertions of other keys can evict `k`; it is read off the front of the queue.
- `get_of_get_insertAll`: whatever is evicted, an entry that is there after other insertions was there before.
- `Kept.insertAll`: other insertions leave the entry of a kept key alone.
- `Room n`: `n` insertions evict nothing; `Room.insertAll`: they then write their keys and nothing else.
- `Tidy`: the queue fits the capacity and lists every key; an insertion then evicts the front of a full queue and nothing
  else (`get_insert_eq_none_iff`).
- `Alike ks`: two maps with one queue that hold the same keys of `ks`; insertions of any values keep it.
-/
import Mathlib.Tactic
import Mathlib.Data.List.AList

namespace ObsChain

structure BoundedMap (κ ν : Type*) where
  entries : AList (fun _ : κ => ν)
  queue : List κ
  capacity : ℕ

namespace BoundedMap

variable {κ ν : Type*} [DecidableEq κ]

def empty (capacity : ℕ) : BoundedMap κ ν := ⟨∅, [], capacity⟩

def get (m : BoundedMap κ ν) (k : κ) : Option ν := m.entries.lookup k

def remove (m : BoundedMap κ ν) (k : κ) : BoundedMap κ ν := { m with entries := m.entries.erase k }

/-- a full queue loses its oldest key, with the entry -/
def makeRoom (m : BoundedMap κ ν) : BoundedMap κ ν :=
  if m.queue.length ≥ m.capacity then
    match m.queue with
    | [] => m
    | oldest :: rest => { m with entries := m.entries.erase oldest, queue := rest }
  else m

def insert (m : BoundedMap κ ν) (k : κ) (v : ν) : BoundedMap κ ν :=
  { m.makeRoom with entries := m.makeRoom.entries.insert k v, queue := m.makeRoom.queue ++ [k] }

/-- one value under several keys -/
def insertAll (m : BoundedMap κ ν) (ks : List κ) (v : ν) : BoundedMap κ ν := ks.foldl (fun m k => m.insert k v) m

@[simp] theorem insertAll_nil (m : BoundedMap κ ν) (v : ν) : m.insertAll [] v = m := rfl

@[simp] theorem get_remove_self (m : BoundedMap κ ν) (k : κ) : (m.remove k).get k = none :=
  AList.lookup_erase k m.entries

theorem get_remove_of_ne (m : BoundedMap κ ν) {k k' : κ} (h : k ≠ k') : (m.remove k').get k = m.get k :=
  AList.lookup_erase_ne h

/-- there is nothing to remove -/
theorem remove_of_get_eq_none {m : BoundedMap κ ν} {k : κ} (h : m.get k = none) : m.remove k = m := by
  have hentries : m.entries.erase k = m.entries := by
    apply AList.ext
    exact List.kerase_of_notMem_keys (AList.lookup_eq_none.1 h)
  rw [remove, hentries]

@[simp] theorem get_insert_self (m : BoundedMap κ ν) (k : κ) (v : ν) : (m.insert k v).get k = some v :=
  AList.lookup_insert m.makeRoom.entries

theorem get_insert_of_ne (m : BoundedMap κ ν) {k k' : κ} (v : ν) (h : k ≠ k') :
    (m.insert k' v).get k = m.makeRoom.get k :=
  AList.lookup_insert_ne h

/-- a removal adds nothing -/
theorem get_of_get_remove {m : BoundedMap κ ν} {k k' : κ} {v : ν} (h : (m.remove k').get k = some v) :
    m.get k = some v := by
  by_cases hk : k = k'
  · rw [hk, get_remove_self] at h
    cases h
  · rwa [get_remove_of_ne m hk] at h

/-- an eviction adds nothing -/
theorem get_of_get_makeRoom {m : BoundedMap κ ν} {k : κ} {v : ν} (h : m.makeRoom.get k = some v) :
    m.get k = some v := by
  unfold makeRoom at h
  split_ifs at h with hfull
  · cases hq : m.queue with
    | nil => simpa [hq] using h
    | cons oldest rest =>
      rw [hq] at h
      have hrem : (m.remove oldest).get k = some v := h
      exact get_of_get_remove hrem
  · exact h

theorem get_of_get_insert {m : BoundedMap κ ν} {k k' : κ} {v w : ν} (hne : k ≠ k')
    (h : (m.insert k' w).get k = some v) : m.get k = some v := by
  rw [get_insert_of_ne m w hne] at h
  exact get_of_get_makeRoom h

/-- **Other insertions add nothing.** An entry that is there after them was there before. -/
theorem get_of_get_insertAll {k : κ} {w v : ν} {ks : List κ} {m : BoundedMap κ ν} (hk : k ∉ ks)
    (h : (m.insertAll ks w).get k = some v) : m.get k = some v := by
  induction ks generalizing m with
  | nil => exact h
  | cons k' ks ih =>
    rw [List.mem_cons, not_or] at hk
    obtain ⟨hne, hks⟩ := hk
    exact get_of_get_insert hne (ih hks h)

/-- **What insertions add.** An entry that is there after them is one of theirs, or was there before. -/
theorem get_insertAll_cases {k : κ} {w v : ν} {ks : List κ} {m : BoundedMap κ ν} (h : (m.insertAll ks w).get k = some v) :
    (k ∈ ks ∧ v = w) ∨ m.get k = some v := by
  induction ks generalizing m with
  | nil => exact Or.inr h
  | cons k' ks ih =>
    rcases ih h with ⟨hmem, hv⟩ | hbefore
    · exact Or.inl ⟨List.mem_cons_of_mem k' hmem, hv⟩
    · by_cases hk : k = k'
      · subst hk
        rw [get_insert_self] at hbefore
        exact Or.inl ⟨List.mem_cons_self, (Option.some.inj hbefore).symm⟩
      · exact Or.inr (get_of_get_insert hk hbefore)

/-- the last key inserted is there -/
theorem get_insertAll_last {k : κ} {ks : List κ} (m : BoundedMap κ ν) (v : ν) (hk : ks.getLast? = some k) :
    (m.insertAll ks v).get k = some v := by
  obtain ⟨init, rfl⟩ := List.getLast?_eq_some_iff.1 hk
  have happ : m.insertAll (init ++ [k]) v = (m.insertAll init v).insert k v := by
    simp [insertAll, List.foldl_append]
  rw [happ, get_insert_self]

theorem capacity_insert (m : BoundedMap κ ν) (k : κ) (v : ν) : (m.insert k v).capacity = m.capacity := by
  show m.makeRoom.capacity = m.capacity
  unfold makeRoom
  split_ifs
  · cases m.queue <;> rfl
  · rfl

theorem capacity_insertAll (m : BoundedMap κ ν) (ks : List κ) (v : ν) : (m.insertAll ks v).capacity = m.capacity := by
  induction ks generalizing m with
  | nil => rfl
  | cons k ks ih => exact (ih (m.insert k v)).trans (capacity_insert m k v)

/-! ## What insertions cannot evict -/

/-- the key is not among those that `n` insertions can push out -/
def Kept (n : ℕ) (k : κ) (m : BoundedMap κ ν) : Prop := k ∉ m.queue.take (m.queue.length + n - m.capacity)

instance (n : ℕ) (k : κ) (m : BoundedMap κ ν) : Decidable (Kept n k m) := inferInstanceAs (Decidable (¬ _))

@[simp] theorem kept_remove (n : ℕ) (k k' : κ) (m : BoundedMap κ ν) : Kept n k (m.remove k') ↔ Kept n k m := Iff.rfl

omit [DecidableEq κ] in
theorem Kept.mono {n n' : ℕ} {k : κ} {m : BoundedMap κ ν} (h : Kept n k m) (hn : n' ≤ n) : Kept n' k m := by
  intro hmem
  apply h
  exact List.take_subset_take_left _ (by omega) hmem

omit [DecidableEq κ] in
/-- queueing another key at the back does not endanger a key -/
theorem notMem_take_concat {k k' : κ} {q : List κ} {j : ℕ} (hne : k ≠ k') (h : k ∉ q.take j) :
    k ∉ (q ++ [k']).take j := by
  intro hmem
  rw [List.take_append] at hmem
  rcases List.mem_append.1 hmem with hq | hk
  · exact h hq
  · exact hne (List.mem_singleton.1 (List.mem_of_mem_take hk))

/-- one insertion: a kept key keeps its entry, and needs one insertion less -/
theorem Kept.insert {n : ℕ} {k k' : κ} {m : BoundedMap κ ν} (v : ν) (hne : k ≠ k') (h : Kept (n + 1) k m) :
    Kept n k (m.insert k' v) ∧ (m.insert k' v).get k = m.get k := by
  rw [get_insert_of_ne m v hne]
  unfold Kept BoundedMap.insert makeRoom at *
  split_ifs with hfull
  · cases hq : m.queue with
    | nil => exact ⟨notMem_take_concat hne (by simp [hq]), by simp⟩
    | cons oldest rest =>
      -- the front of the queue goes, and `k` is not there
      rw [hq] at h hfull
      have hj : (oldest :: rest).length + (n + 1) - m.capacity = ((oldest :: rest).length + n - m.capacity) + 1 := by
        omega
      rw [hj, List.take_succ_cons, List.mem_cons, not_or] at h
      refine ⟨notMem_take_concat hne ?_, AList.lookup_erase_ne h.1⟩
      simpa using h.2
  · refine ⟨notMem_take_concat hne ?_, rfl⟩
    have hj : (m.queue ++ [k']).length + n - m.capacity = m.queue.length + (n + 1) - m.capacity := by
      simp
      omega
    rwa [hj]

/-- **A kept key survives.** As many insertions as it is kept for leave its entry alone. -/
theorem Kept.insertAll {n : ℕ} {k : κ} {ks : List κ} {m : BoundedMap κ ν} (v : ν) (hk : k ∉ ks)
    (h : Kept (n + ks.length) k m) : Kept n k (m.insertAll ks v) ∧ (m.insertAll ks v).get k = m.get k := by
  induction ks generalizing m with
  | nil => exact ⟨h, rfl⟩
  | cons k' ks ih =>
    rw [List.mem_cons, not_or] at hk
    obtain ⟨hne, hks⟩ := hk
    obtain ⟨hkept, hget⟩ := Kept.insert v hne (n := n + ks.length) h
    obtain ⟨hkept', hget'⟩ := ih hks hkept
    exact ⟨hkept', hget'.trans hget⟩

/-! ## Insertions that find room -/

/-- `n` insertions evict nothing -/
def Room (n : ℕ) (m : BoundedMap κ ν) : Prop := m.queue.length + n ≤ m.capacity

instance (n : ℕ) (m : BoundedMap κ ν) : Decidable (Room n m) := inferInstanceAs (Decidable (_ ≤ _))

@[simp] theorem room_remove (n : ℕ) (k : κ) (m : BoundedMap κ ν) : Room n (m.remove k) ↔ Room n m := Iff.rfl

/-- one insertion: the other entries stay, and there is room for one less -/
theorem Room.insert {n : ℕ} {m : BoundedMap κ ν} (h : Room (n + 1) m) (k' : κ) (v : ν) :
    Room n (m.insert k' v) ∧ ∀ k, (m.insert k' v).get k = if k = k' then some v else m.get k := by
  have hkeep : m.makeRoom = m := by
    rw [makeRoom, if_neg]
    unfold Room at h
    omega
  refine ⟨?_, fun k => ?_⟩
  · unfold Room at h ⊢
    simp only [BoundedMap.insert, hkeep, List.length_append, List.length_singleton]
    omega
  · split_ifs with hk
    · rw [hk, get_insert_self]
    · rw [get_insert_of_ne m v hk, hkeep]

/-- **With room, insertions write their keys and nothing else.** -/
theorem Room.insertAll {n : ℕ} {ks : List κ} {m : BoundedMap κ ν} (h : Room (n + ks.length) m) (v : ν) :
    Room n (m.insertAll ks v) ∧ ∀ k, (m.insertAll ks v).get k = if k ∈ ks then some v else m.get k := by
  induction ks generalizing m with
  | nil => exact ⟨h, fun k => by simp⟩
  | cons k' ks ih =>
    obtain ⟨hroom, hget⟩ := Room.insert (n := n + ks.length) h k' v
    obtain ⟨hroom', hget'⟩ := ih hroom
    refine ⟨hroom', fun k => ?_⟩
    have hk : (m.insertAll (k' :: ks) v).get k = if k ∈ ks then some v else (m.insert k' v).get k := hget' k
    rw [hk, hget]
    by_cases hks : k ∈ ks
    · simp [hks]
    · simp [hks]

/-- and queue them at the back -/
theorem Room.queue_insertAll {ks : List κ} {m : BoundedMap κ ν} (h : Room ks.length m) (v : ν) :
    (m.insertAll ks v).queue = m.queue ++ ks ∧ (m.insertAll ks v).capacity = m.capacity := by
  induction ks generalizing m with
  | nil => exact ⟨(List.append_nil m.queue).symm, rfl⟩
  | cons k ks ih =>
    have hkeep : m.makeRoom = m := by
      rw [makeRoom, if_neg]
      unfold Room at h
      simp only [List.length_cons] at h
      omega
    have hqueue : (m.insert k v).queue = m.queue ++ [k] := by simp only [BoundedMap.insert, hkeep]
    have hcapacity : (m.insert k v).capacity = m.capacity := by simp only [BoundedMap.insert, hkeep]
    obtain ⟨hrest, hrest'⟩ := ih (Room.insert (n := ks.length) h k v).1
    refine ⟨?_, hrest'.trans hcapacity⟩
    rw [show m.insertAll (k :: ks) v = (m.insert k v).insertAll ks v from rfl, hrest, hqueue, List.append_assoc,
      List.singleton_append]

/-! ## What a queue lists -/

/-- the queue fits the capacity, and lists every key that is there -/
structure Tidy (m : BoundedMap κ ν) : Prop where
  positive : 0 < m.capacity
  bounded : m.queue.length ≤ m.capacity
  queued : ∀ k, (m.get k).isSome → k ∈ m.queue

theorem tidy_empty {capacity : ℕ} (h : 0 < capacity) : Tidy (empty capacity : BoundedMap κ ν) :=
  ⟨h, Nat.zero_le _, fun _ hk => by cases hk⟩

theorem Tidy.remove {m : BoundedMap κ ν} (h : Tidy m) (k : κ) : Tidy (m.remove k) := by
  refine ⟨h.positive, h.bounded, fun k' hk' => ?_⟩
  obtain ⟨v, hv⟩ := Option.isSome_iff_exists.1 hk'
  exact h.queued k' (by rw [get_of_get_remove hv]; rfl)

/-- room is made by the front of a full queue -/
theorem Tidy.makeRoom_cases {m : BoundedMap κ ν} (h : Tidy m) :
    (m.queue.length < m.capacity ∧ m.makeRoom = m) ∨
      ∃ oldest rest, m.queue = oldest :: rest ∧ m.queue.length = m.capacity ∧
        m.makeRoom = { m.remove oldest with queue := rest } := by
  unfold BoundedMap.makeRoom
  by_cases hfull : m.queue.length ≥ m.capacity
  · rw [if_pos hfull]
    cases hq : m.queue with
    | nil =>
      have := h.positive
      rw [hq, List.length_nil] at hfull
      omega
    | cons oldest rest =>
      refine Or.inr ⟨oldest, rest, rfl, ?_, rfl⟩
      rw [← hq]
      exact le_antisymm h.bounded hfull
  · rw [if_neg hfull]
    exact Or.inl ⟨not_le.1 hfull, rfl⟩

theorem Tidy.insert {m : BoundedMap κ ν} (h : Tidy m) (k : κ) (v : ν) : Tidy (m.insert k v) := by
  have hroom : m.makeRoom.queue.length < m.capacity ∧ m.makeRoom.capacity = m.capacity ∧
      ∀ k', (m.makeRoom.get k').isSome → k' ∈ m.makeRoom.queue := by
    rcases h.makeRoom_cases with ⟨hlt, heq⟩ | ⟨oldest, rest, hq, hlength, heq⟩
    · rw [heq]
      exact ⟨hlt, rfl, h.queued⟩
    · rw [heq]
      refine ⟨?_, rfl, fun k' hk' => ?_⟩
      · rw [← hlength, hq]
        exact Nat.lt_succ_self _
      · have hne : k' ≠ oldest := by
          rintro rfl
          rw [show ({ m.remove k' with queue := rest } : BoundedMap κ ν).get k' = (m.remove k').get k' from rfl,
            get_remove_self] at hk'
          cases hk'
        have hthere := (h.remove oldest).queued k' hk'
        rw [show (m.remove oldest).queue = m.queue from rfl, hq] at hthere
        exact (List.mem_cons.1 hthere).resolve_left hne
  obtain ⟨hlt, hcapacity, hqueued⟩ := hroom
  refine ⟨?_, ?_, fun k' hk' => ?_⟩
  · exact hcapacity.symm ▸ h.positive
  · simp only [BoundedMap.insert, List.length_append, List.length_singleton, hcapacity]
    omega
  · by_cases hk : k' = k
    · rw [hk]
      exact List.mem_append_right _ List.mem_cons_self
    · rw [get_insert_of_ne m v hk] at hk'
      exact List.mem_append_left _ (hqueued k' hk')

theorem Tidy.insertAll {m : BoundedMap κ ν} (h : Tidy m) (ks : List κ) (v : ν) : Tidy (m.insertAll ks v) := by
  induction ks generalizing m with
  | nil => exact h
  | cons k ks ih => exact ih (h.insert k v)

/-- the queue is at least as long as the map is large -/
theorem Tidy.length_keys_le {m : BoundedMap κ ν} (h : Tidy m) : m.entries.keys.length ≤ m.queue.length := by
  apply (List.subperm_of_subset m.entries.keys_nodup _).length_le
  intro k hk
  apply h.queued k
  exact AList.lookup_isSome.2 (AList.mem_keys.2 hk)

/-- **What an insertion evicts.** Of the other keys, the one at the front of a full queue. -/
theorem Tidy.get_insert_eq_none_iff {m : BoundedMap κ ν} (h : Tidy m) {k k' : κ} (v : ν) (hne : k ≠ k')
    (hk : (m.get k).isSome) :
    (m.insert k' v).get k = none ↔ m.queue.length = m.capacity ∧ m.queue.head? = some k := by
  rw [get_insert_of_ne m v hne]
  rcases h.makeRoom_cases with ⟨hlt, heq⟩ | ⟨oldest, rest, hq, hlength, heq⟩
  · rw [heq]
    constructor
    · intro hnone
      rw [hnone] at hk
      cases hk
    · intro hfull
      exact absurd hfull.1 hlt.ne
  · rw [heq, show ({ m.remove oldest with queue := rest } : BoundedMap κ ν).get k = (m.remove oldest).get k from rfl]
    by_cases hfront : k = oldest
    · simp [hfront, hq, ← hlength]
    · rw [get_remove_of_ne m hfront]
      constructor
      · intro hnone
        rw [hnone] at hk
        cases hk
      · rintro ⟨-, hhead⟩
        rw [hq] at hhead
        exact absurd (Option.some.inj hhead).symm hfront

/-! ## Which keys are there -/

/-- one queue, and the same of these keys are there -/
structure Alike (ks : List κ) (m m' : BoundedMap κ ν) : Prop where
  queue : m.queue = m'.queue
  capacity : m.capacity = m'.capacity
  present : ∀ k ∈ ks, (m.get k).isSome = (m'.get k).isSome

theorem Alike.refl (ks : List κ) (m : BoundedMap κ ν) : Alike ks m m := ⟨rfl, rfl, fun _ _ => rfl⟩

theorem Alike.trans {ks : List κ} {m m' m'' : BoundedMap κ ν} (h : Alike ks m m') (h' : Alike ks m' m'') :
    Alike ks m m'' :=
  ⟨h.queue.trans h'.queue, h.capacity.trans h'.capacity, fun k hk => (h.present k hk).trans (h'.present k hk)⟩

theorem Alike.symm {ks : List κ} {m m' : BoundedMap κ ν} (h : Alike ks m m') : Alike ks m' m :=
  ⟨h.queue.symm, h.capacity.symm, fun k hk => (h.present k hk).symm⟩

theorem Alike.remove {ks : List κ} {m m' : BoundedMap κ ν} (h : Alike ks m m') (k : κ) :
    Alike ks (m.remove k) (m'.remove k) := by
  refine ⟨h.queue, h.capacity, fun k' hk' => ?_⟩
  by_cases hk : k' = k
  · rw [hk, get_remove_self, get_remove_self]
  · rw [get_remove_of_ne m hk, get_remove_of_ne m' hk]
    exact h.present k' hk'

theorem Alike.makeRoom {ks : List κ} {m m' : BoundedMap κ ν} (h : Alike ks m m') : Alike ks m.makeRoom m'.makeRoom := by
  unfold BoundedMap.makeRoom
  rw [h.queue, h.capacity]
  split_ifs with hfull
  · cases hq : m'.queue with
    | nil => exact h
    | cons oldest rest => exact ⟨rfl, rfl, (h.remove oldest).present⟩
  · exact h

theorem Alike.insert {ks : List κ} {m m' : BoundedMap κ ν} (h : Alike ks m m') (k : κ) (v v' : ν) :
    Alike ks (m.insert k v) (m'.insert k v') := by
  have hroom := h.makeRoom
  refine ⟨congrArg (· ++ [k]) hroom.queue, hroom.capacity, fun k' hk' => ?_⟩
  by_cases hk : k' = k
  · rw [hk, get_insert_self, get_insert_self]
    rfl
  · rw [get_insert_of_ne m v hk, get_insert_of_ne m' v' hk]
    exact hroom.present k' hk'

theorem Alike.insertAll {ks : List κ} {m m' : BoundedMap κ ν} (h : Alike ks m m') (ks' : List κ) (v v' : ν) :
    Alike ks (m.insertAll ks' v) (m'.insertAll ks' v') := by
  induction ks' generalizing m m' with
  | nil => exact h
  | cons k ks' ih => exact ih (h.insert k v v')

end BoundedMap

end ObsChain
