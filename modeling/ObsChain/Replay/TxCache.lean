/-
What does the transaction cache of the replay hold?

The cache is bounded by its order queue. A txid that is cached is overwritten in place and keeps its age; a new one goes to
the back of the queue, and while the cache is full the txid at the front goes.

- `History`: what the calls alone say, without the cache: the insertions, which of them were first insertions of their txid
  (a txid that is not among the last ones, as many as the capacity allows, starts anew), and the number of `get` calls.
- `Exact`: the queue is in step with the map and lists the last first insertions, and every entry is the last insertion.
- `exact_fifo`: so it is after any calls, for every capacity.
-/
import Mathlib.Tactic
import Mathlib.Data.List.AList
import ObsChain.Core.Trace
import ObsChain.Core.Eviction
import ObsChain.Core.KeyLog
import ObsChain.Replay.Enrichment

namespace ObsChain.Replay

open Trace Eviction

namespace HistoricalTxCache

/-- what is called on the cache -/
inductive Operation where
  | get (txid : String) (vout : ℕ)
  | insert (tx : CachedTx)

def operate (c : HistoricalTxCache) : Operation → HistoricalTxCache
  | .get txid vout => (c.get txid vout).1
  | .insert tx => c.insert tx

/-- what was called, the insertions newest first and the first insertions oldest first -/
structure History where
  inserted : List (String × CachedTx)
  admitted : List String
  gets : ℕ

namespace History

def empty : History := ⟨[], [], 0⟩

/-- an insertion is a first one unless its txid is among the last of them -/
def record (capacity : ℕ) (h : History) : Operation → History
  | .get _ _ => { h with gets := h.gets + 1 }
  | .insert tx =>
    { h with
      inserted := (tx.txid, tx) :: h.inserted
      admitted := if tx.txid ∈ h.admitted.rtake capacity then h.admitted else h.admitted ++ [tx.txid] }

end History

/-- the cache is what its history says -/
structure Exact (capacity : ℕ) (h : History) (c : HistoricalTxCache) : Prop where
  capacity_eq : c.capacity = capacity
  inStep : InStep c.entries c.order
  recent : c.order = h.admitted.rtake capacity
  stored : ∀ txid tx, c.entries.lookup txid = some tx → KeyLog.last h.inserted txid = some tx
  counted : c.hits + c.misses = h.gets

section Step

variable {capacity : ℕ} {h : History} {c : HistoricalTxCache}

theorem Exact.length_order_le (he : Exact capacity h c) : c.order.length ≤ capacity := by
  rw [he.recent, List.rtake, List.length_drop]
  omega

theorem Exact.length_keys_le (he : Exact capacity h c) : c.entries.keys.length ≤ capacity :=
  he.inStep.length_eq.symm.trans_le he.length_order_le

theorem Exact.mem_recent (he : Exact capacity h c) (txid : String) :
    txid ∈ h.admitted.rtake capacity ↔ txid ∈ c.entries := by
  rw [← he.recent, he.inStep.mem_iff]

/-- a `get` is counted and changes nothing else -/
theorem Exact.get (he : Exact capacity h c) (txid : String) (vout : ℕ) :
    Exact capacity (h.record capacity (.get txid vout)) (c.get txid vout).1 := by
  unfold HistoricalTxCache.get
  split
  · refine ⟨he.capacity_eq, he.inStep, he.recent, he.stored, ?_⟩
    rw [History.record, ← he.counted]
    exact Nat.add_right_comm _ _ _
  · refine ⟨he.capacity_eq, he.inStep, he.recent, he.stored, ?_⟩
    rw [History.record, ← he.counted]
    exact (Nat.add_assoc _ _ _).symm

/-- a new entry is the last insertion, and so are those that stay -/
theorem Exact.stored_insert (he : Exact capacity h c) (tx : CachedTx) {m : AList (fun _ : String => CachedTx)}
    (hm : ∀ txid old, m.lookup txid = some old → c.entries.lookup txid = some old) (txid : String) (new : CachedTx)
    (hnew : (m.insert tx.txid tx).lookup txid = some new) :
    KeyLog.last ((tx.txid, tx) :: h.inserted) txid = some new := by
  rw [KeyLog.last_cons]
  by_cases hself : tx.txid = txid
  · rw [if_pos hself]
    rwa [← hself, AList.lookup_insert] at hnew
  · rw [if_neg hself]
    rw [AList.lookup_insert_ne (Ne.symm hself)] at hnew
    exact he.stored txid new (hm txid new hnew)

/-- **An insertion** overwrites its entry, or admits its txid. -/
theorem Exact.insert (he : Exact capacity h c) (hpos : 0 < capacity) (tx : CachedTx) :
    Exact capacity (h.record capacity (.insert tx)) (c.insert tx) := by
  unfold HistoricalTxCache.insert History.record
  dsimp only
  by_cases hpresent : tx.txid ∈ c.entries
  · rw [if_pos hpresent, if_pos ((he.mem_recent tx.txid).2 hpresent)]
    exact ⟨he.capacity_eq, he.inStep.overwrite hpresent tx, he.recent, he.stored_insert tx fun _ _ hold => hold, he.counted⟩
  rw [if_neg hpresent, if_neg (mt (he.mem_recent tx.txid).1 hpresent)]
  obtain ⟨hentries, horder, hcapacity, hhits, hmisses⟩ := c.evict_eq_evict c.order
  have hcounted : (c.evict c.order).hits + (c.evict c.order).misses = h.gets := by rw [hhits, hmisses, he.counted]
  rw [he.capacity_eq] at hentries horder
  rcases he.inStep.evict_cases hpos he.length_keys_le with ⟨hlt, heq⟩ | ⟨oldest, rest, hfront, hfull, heq⟩
  · rw [heq] at hentries horder
    refine ⟨hcapacity.trans he.capacity_eq, ?_, ?_, ?_, hcounted⟩
    · rw [hentries, horder]
      exact he.inStep.insert hpresent tx
    · have hroom : (h.admitted.rtake capacity).length < capacity := by
        rw [← he.recent, he.inStep.length_eq]
        exact hlt
      rw [horder, rtake_concat_of_lt hroom, ← he.recent]
    · rw [hentries]
      exact he.stored_insert tx fun _ _ hold => hold
  · rw [heq] at hentries horder
    have hstep := he.inStep
    rw [hfront] at hstep
    refine ⟨hcapacity.trans he.capacity_eq, ?_, ?_, ?_, hcounted⟩
    · rw [hentries, horder]
      exact hstep.erase_front.insert (fun hmem => hpresent (AList.mem_erase.1 hmem).2) tx
    · rw [horder, rtake_concat_of_full (he.recent.symm.trans hfront)]
      rw [hstep.length_eq, hfull]
    · rw [hentries]
      apply he.stored_insert tx
      intro txid old hold
      by_cases hgone : txid = oldest
      · rw [hgone, AList.lookup_erase] at hold
        cases hold
      · rwa [AList.lookup_erase_ne hgone] at hold

theorem Exact.operate (he : Exact capacity h c) (hpos : 0 < capacity) (op : Operation) :
    Exact capacity (h.record capacity op) (c.operate op) := by
  cases op with
  | get txid vout => exact he.get txid vout
  | insert tx => exact he.insert hpos tx

theorem Exact.run (he : Exact capacity h c) (hpos : 0 < capacity) (ops : List Operation) :
    Exact capacity (Trace.run (History.record capacity) h ops) (Trace.run HistoricalTxCache.operate c ops) := by
  induction ops generalizing h c with
  | nil => exact he
  | cons op ops ih => exact ih (he.operate hpos op)

end Step

theorem exact_new (capacity : ℕ) : Exact (max capacity 1) History.empty (new capacity) := by
  refine ⟨rfl, inStep_empty, (List.rtake_nil _).symm, ?_, rfl⟩
  intro txid tx htx
  cases htx

/-- **An exact bounded FIFO map.** After any calls, the queue lists the cached txids, each once; there are at most as many as
the capacity (or 1), and they are the last first insertions. A `get` for a cached txid reads the data inserted last, any
other one finds nothing, and every `get` is a hit or a miss. -/
theorem exact_fifo (capacity : ℕ) (ops : List Operation) :
    let c := run operate (new capacity) ops
    let h := run (History.record (max capacity 1)) History.empty ops
    c.order.Nodup ∧ (∀ txid, txid ∈ c.order ↔ txid ∈ c.entries) ∧ c.order.length ≤ max capacity 1 ∧
      c.order = h.admitted.rtake (max capacity 1) ∧
      (∀ txid vout, (c.get txid vout).2 =
        if txid ∈ c.entries then (KeyLog.last h.inserted txid).bind fun tx => tx.context txid vout else none) ∧
      c.hits + c.misses = h.gets := by
  intro c h
  have he : Exact (max capacity 1) h c := (exact_new capacity).run (lt_max_of_lt_right Nat.zero_lt_one) ops
  refine ⟨he.inStep.nodup, he.inStep.mem_iff, he.length_order_le, he.recent, ?_, he.counted⟩
  intro txid vout
  rw [get_snd]
  split_ifs with hmem
  · obtain ⟨tx, htx⟩ := Option.isSome_iff_exists.1 (AList.lookup_isSome.2 hmem)
    rw [htx, he.stored txid tx htx]
  · rw [AList.lookup_eq_none.2 hmem]
    rfl

end HistoricalTxCache

end ObsChain.Replay
