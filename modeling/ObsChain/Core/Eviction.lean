/-
A map that is kept below a capacity with a queue of its keys. Nothing here mentions the program.

While the map is full, the key at the front of the queue goes, whether the map holds it or not; an empty queue ends the
loop. A key may be queued without being held, and more than once.

- `Queued`: every key that is held is queued. The loop keeps that, and always ends with room (`Queued.room`).
- `InStep`: the queue lists the keys that are held, each once. The loop then takes at most one key, the front
  (`InStep.evict_cases`), and insertions of new keys at the back and removals from both keep it.
- `evict_eq`: what makes room in a full map is the first queued key that it holds.
- `rtake_concat_of_full`, `rtake_concat_of_lt`: a queue that is the end of a log stays so.
-/
import Mathlib.Tactic
import Mathlib.Data.List.AList
import Mathlib.Data.List.DropRight

namespace ObsChain.Eviction

variable {κ : Type*} [DecidableEq κ] {β : κ → Type*}

/-- what the loop leaves of the map and the queue -/
def evict (capacity : ℕ) (m : AList β) : List κ → AList β × List κ
  | [] => (m, [])
  | oldest :: rest => if m.keys.length ≥ capacity then evict capacity (m.erase oldest) rest else (m, oldest :: rest)

/-- every key that is held is queued -/
def Queued (m : AList β) (queue : List κ) : Prop := ∀ k ∈ m, k ∈ queue

/-- the queue lists the keys that are held, each once -/
structure InStep (m : AList β) (queue : List κ) : Prop where
  nodup : queue.Nodup
  mem_iff : ∀ k, k ∈ queue ↔ k ∈ m

variable {capacity : ℕ} {m : AList β} {queue : List κ}

/-- a map with room keeps everything -/
theorem evict_of_lt (h : m.keys.length < capacity) (queue : List κ) : evict capacity m queue = (m, queue) := by
  cases queue with
  | nil => rfl
  | cons oldest rest => rw [evict, if_neg (not_le.2 h)]

/-- a removal adds nothing -/
theorem lookup_of_erase {k gone : κ} {v : β k} (h : (m.erase gone).lookup k = some v) : m.lookup k = some v := by
  by_cases hk : k = gone
  · subst hk
    rw [AList.lookup_erase] at h
    cases h
  · rwa [AList.lookup_erase_ne hk] at h

/-- neither does the loop -/
theorem lookup_of_evict {k : κ} {v : β k} (h : (evict capacity m queue).1.lookup k = some v) : m.lookup k = some v := by
  induction queue generalizing m with
  | nil => exact h
  | cons oldest rest ih =>
    rw [evict] at h
    split_ifs at h
    · exact lookup_of_erase (ih h)
    · exact h

/-- a key that is not held leaves the map as it is -/
theorem erase_of_notMem {k : κ} (h : k ∉ m) : m.erase k = m := AList.ext (List.kerase_of_notMem_keys h)

theorem length_erase {k : κ} (h : k ∈ m) : (m.erase k).keys.length = m.keys.length - 1 := by
  rw [AList.keys_erase, List.length_erase_of_mem (AList.mem_keys.1 h)]

/-- **What makes room.** A full map loses the first queued key that it holds, and the queue what stands before it. -/
theorem evict_eq (hfull : m.keys.length = capacity) (hpos : 0 < capacity) {oldest : κ} {rest : List κ}
    (h : (queue.dropWhile fun k => k ∉ m) = oldest :: rest) : evict capacity m queue = (m.erase oldest, rest) := by
  induction queue with
  | nil => cases h
  | cons k queue ih =>
    rw [evict, if_pos hfull.ge]
    by_cases hk : k ∈ m
    · -- this key is held: one less, and there is room
      rw [List.dropWhile_cons_of_neg (by simpa using hk)] at h
      cases h
      have hless := length_erase hk
      rw [evict_of_lt (by omega)]
    · rw [List.dropWhile_cons_of_pos (by simpa using hk)] at h
      rw [erase_of_notMem hk]
      exact ih h

/-! ## Every held key is queued -/

theorem Queued.erase_front {oldest : κ} {rest : List κ} (h : Queued m (oldest :: rest)) : Queued (m.erase oldest) rest := by
  intro k hk
  obtain ⟨hne, hmem⟩ := AList.mem_erase.1 hk
  exact (List.mem_cons.1 (h k hmem)).resolve_left hne

/-- the loop keeps what is held queued -/
theorem Queued.evict (h : Queued m queue) (capacity : ℕ) :
    Queued (evict capacity m queue).1 (evict capacity m queue).2 := by
  induction queue generalizing m with
  | nil => exact h
  | cons oldest rest ih =>
    rw [Eviction.evict]
    split_ifs
    · exact ih h.erase_front
    · exact h

/-- **The loop makes room.** It does not run out of keys before. -/
theorem Queued.room (h : Queued m queue) (hpos : 0 < capacity) : (Eviction.evict capacity m queue).1.keys.length < capacity := by
  induction queue generalizing m with
  | nil =>
    have hnil : m.keys = [] := List.eq_nil_iff_forall_not_mem.2 fun k hk => List.not_mem_nil (h k (AList.mem_keys.2 hk))
    simpa [Eviction.evict, hnil] using hpos
  | cons oldest rest ih =>
    rw [Eviction.evict]
    split_ifs with hfull
    · exact ih h.erase_front
    · exact not_le.1 hfull

theorem Queued.insert (h : Queued m queue) (k : κ) (v : β k) : Queued (m.insert k v) (queue ++ [k]) := by
  intro k' hk'
  rcases (AList.mem_insert m).1 hk' with rfl | hold
  · exact List.mem_append_right _ List.mem_cons_self
  · exact List.mem_append_left _ (h k' hold)

/-! ## The queue in step with the map -/

omit [DecidableEq κ] in
theorem inStep_empty : InStep (∅ : AList β) [] := ⟨List.nodup_nil, by simp⟩

omit [DecidableEq κ] in
theorem InStep.queued (h : InStep m queue) : Queued m queue := fun k hk => (h.mem_iff k).2 hk

omit [DecidableEq κ] in
/-- the queue is as long as the map is large -/
theorem InStep.length_eq (h : InStep m queue) : queue.length = m.keys.length := by
  apply List.Perm.length_eq
  rw [List.perm_ext_iff_of_nodup h.nodup m.keys_nodup]
  intro k
  rw [h.mem_iff, AList.mem_keys]

theorem InStep.erase_front {oldest : κ} {rest : List κ} (h : InStep m (oldest :: rest)) : InStep (m.erase oldest) rest := by
  obtain ⟨hnot, hnodup⟩ := List.nodup_cons.1 h.nodup
  refine ⟨hnodup, fun k => ?_⟩
  rw [AList.mem_erase, ← h.mem_iff, List.mem_cons]
  refine ⟨fun hk => ⟨fun heq => hnot (heq ▸ hk), .inr hk⟩, ?_⟩
  rintro ⟨hne, rfl | hk⟩
  · exact absurd rfl hne
  · exact hk

/-- **The loop takes at most the front.** -/
theorem InStep.evict_cases (h : InStep m queue) (hpos : 0 < capacity) (hsize : m.keys.length ≤ capacity) :
    (m.keys.length < capacity ∧ evict capacity m queue = (m, queue)) ∨
      ∃ oldest rest, queue = oldest :: rest ∧ m.keys.length = capacity ∧ evict capacity m queue = (m.erase oldest, rest) := by
  rcases hsize.lt_or_eq with hlt | hfull
  · exact .inl ⟨hlt, evict_of_lt hlt queue⟩
  · right
    cases queue with
    | nil =>
      have hlength := h.length_eq
      simp only [List.length_nil] at hlength
      omega
    | cons oldest rest =>
      have hheld : oldest ∈ m := (h.mem_iff oldest).1 List.mem_cons_self
      refine ⟨oldest, rest, rfl, hfull, evict_eq hfull hpos ?_⟩
      rw [List.dropWhile_cons_of_neg (by simpa using hheld)]

/-- a new key goes to the back -/
theorem InStep.insert (h : InStep m queue) {k : κ} (hk : k ∉ m) (v : β k) : InStep (m.insert k v) (queue ++ [k]) := by
  refine ⟨?_, fun k' => ?_⟩
  · rw [List.nodup_append]
    refine ⟨h.nodup, List.nodup_singleton k, ?_⟩
    rintro a ha b hb rfl
    rw [List.mem_singleton.1 hb] at ha
    exact hk ((h.mem_iff k).1 ha)
  · rw [AList.mem_insert, List.mem_append, h.mem_iff, List.mem_singleton, or_comm]

/-- a key that is held is overwritten in place -/
theorem InStep.overwrite (h : InStep m queue) {k : κ} (hk : k ∈ m) (v : β k) : InStep (m.insert k v) queue := by
  refine ⟨h.nodup, fun k' => ?_⟩
  rw [AList.mem_insert, h.mem_iff]
  refine ⟨.inr, ?_⟩
  rintro (rfl | hold)
  · exact hk
  · exact hold

/-- a key is taken from both -/
theorem InStep.erase (h : InStep m queue) (k : κ) : InStep (m.erase k) (queue.filter (· ≠ k)) := by
  refine ⟨h.nodup.filter _, fun k' => ?_⟩
  rw [AList.mem_erase, List.mem_filter, h.mem_iff, decide_eq_true_eq, and_comm]

/-- a key that is queued a second time puts the queue out of step -/
theorem not_inStep_requeued {k : κ} (h : k ∈ queue) (v : β k) : ¬ InStep (m.insert k v) (queue ++ [k]) := by
  intro hstep
  have hdisjoint := (List.nodup_append.1 hstep.nodup).2.2
  exact hdisjoint k h k List.mem_cons_self rfl

/-! ## A queue that is the end of a log -/

section EndOfLog

variable {α : Type*} {log : List α} {oldest : α} {rest : List α}

/-- a full queue goes on without its front -/
theorem rtake_concat_of_full (h : log.rtake capacity = oldest :: rest) (hfull : (oldest :: rest).length = capacity) (a : α) :
    (log ++ [a]).rtake capacity = rest ++ [a] := by
  obtain ⟨n, rfl⟩ : ∃ n, capacity = n + 1 := ⟨rest.length, by rw [← hfull, List.length_cons]⟩
  have hlength : (log.rtake (n + 1)).length = n + 1 := by rw [h, hfull]
  rw [List.rtake, List.length_drop] at hlength
  have htail : (log.drop (log.length - (n + 1))).drop 1 = log.drop (log.length - n) := by
    rw [List.drop_drop]
    congr 1
    omega
  rw [List.rtake] at h
  rw [h, List.drop_one, List.tail_cons] at htail
  rw [List.rtake_concat_succ, List.rtake, htail]

/-- one with room keeps everything -/
theorem rtake_concat_of_lt (h : (log.rtake capacity).length < capacity) (a : α) :
    (log ++ [a]).rtake capacity = log.rtake capacity ++ [a] := by
  rw [List.rtake, List.length_drop] at h
  have hnew : (log ++ [a]).length - capacity = 0 := by
    rw [List.length_append, List.length_singleton]
    omega
  have hold : log.length - capacity = 0 := by omega
  rw [List.rtake, List.rtake, hnew, hold, List.drop_zero, List.drop_zero]

end EndOfLog

end ObsChain.Eviction
