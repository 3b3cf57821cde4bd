/-
The cache of previous transactions' outputs (`utxo_cache.rs`).

A transaction's outputs are kept under its txid with the moment they were stored, and the txids in a queue, oldest first.
`HashMap` is a finite map (`AList`), `Instant` a count of nanoseconds whose differences saturate at zero, and a call reads
the clock once. A poisoned lock is not modelled.

`peek` is what an entry is worth at a moment: its data while it is fresh, nothing afterwards. Everything the callers see
goes through it: `get_snd`, `peek_get` (looking does not change what is there) and `peek_insert` (storing with room to
spare adds one txid and leaves the others alone).
-/
import Mathlib.Tactic
import Mathlib.Data.List.AList
import ObsChain.Core.Eviction
import ObsChain.Domain.Observation

namespace ObsChain

structure CachedTxOutputs where
  confirmed : Bool
  blockHeight : Option ℕ
  confirmedAt : Option DateTime
  /-- (vout index, value in satoshis) -/
  outputs : List (ℕ × ℕ)
deriving DecidableEq, Repr

/-- the context of the first output listed under the index -/
def CachedTxOutputs.context (data : CachedTxOutputs) (txid : String) (vout : ℕ) : Option SpentOutputContext :=
  (data.outputs.find? fun o => o.1 = vout).map fun o => ⟨txid, vout, o.2, data.blockHeight, data.confirmedAt⟩

structure CacheEntry where
  data : CachedTxOutputs
  insertedAt : ℕ
deriving DecidableEq, Repr

structure UtxoCache where
  map : AList (fun _ : String => CacheEntry)
  order : List String
  maxCapacity : ℕ
  ttl : ℕ
  hits : ℕ
  misses : ℕ
  evictions : ℕ

namespace UtxoCache

def new (maxCapacity ttl : ℕ) : UtxoCache := ⟨∅, [], max maxCapacity 1, ttl, 0, 0, 0⟩

/-- drop a txid from the map and the queue -/
def forget (c : UtxoCache) (txid : String) : UtxoCache :=
  { c with map := c.map.erase txid, order := c.order.filter (· ≠ txid) }

def get (now : ℕ) (c : UtxoCache) (txid : String) (vout : ℕ) : UtxoCache × Option SpentOutputContext :=
  match c.map.lookup txid with
  | some entry =>
    if now - entry.insertedAt < c.ttl then ({ c with hits := c.hits + 1 }, entry.data.context txid vout)
    else ({ c.forget txid with misses := c.misses + 1 }, none)
  | none => ({ c with misses := c.misses + 1 }, none)

def cleanExpired (now : ℕ) (c : UtxoCache) : UtxoCache :=
  let expired := c.map.keys.filter fun k =>
    match c.map.lookup k with
    | some entry => now - entry.insertedAt ≥ c.ttl
    | none => false
  expired.foldl forget c

/-- the eviction loop: while the map is full the oldest txid of the queue goes, and an empty queue ends it -/
def evict (c : UtxoCache) : List String → UtxoCache
  | [] => { c with order := [] }
  | oldest :: rest =>
    if c.map.keys.length ≥ c.maxCapacity then
      evict { c with map := c.map.erase oldest, evictions := c.evictions + 1 } rest
    else { c with order := oldest :: rest }

/-- the loop over the map and the queue -/
theorem evict_eq_evict (c : UtxoCache) (queue : List String) :
    (c.evict queue).map = (Eviction.evict c.maxCapacity c.map queue).1 ∧
      (c.evict queue).order = (Eviction.evict c.maxCapacity c.map queue).2 ∧
      (c.evict queue).maxCapacity = c.maxCapacity ∧ (c.evict queue).ttl = c.ttl := by
  induction queue generalizing c with
  | nil => exact ⟨rfl, rfl, rfl, rfl⟩
  | cons oldest rest ih =>
    rw [evict, Eviction.evict]
    split_ifs
    · exact ih { c with map := c.map.erase oldest, evictions := c.evictions + 1 }
    · exact ⟨rfl, rfl, rfl, rfl⟩

def insert (now : ℕ) (c : UtxoCache) (txid : String) (txInfo : CachedTxOutputs) : UtxoCache :=
  let c := if c.map.keys.length ≥ c.maxCapacity then c.cleanExpired now else c
  let c := c.evict c.order
  { c with map := c.map.insert txid ⟨txInfo, now⟩, order := c.order ++ [txid] }

/-! ## What the cache shows -/

/-- the outputs the cache has for a txid, unless they are stale -/
def peek (c : UtxoCache) (now : ℕ) (txid : String) : Option CachedTxOutputs :=
  match c.map.lookup txid with
  | some entry => if now - entry.insertedAt < c.ttl then some entry.data else none
  | none => none

theorem get_snd (now : ℕ) (c : UtxoCache) (txid : String) (vout : ℕ) :
    (c.get now txid vout).2 = (c.peek now txid).bind fun data => data.context txid vout := by
  unfold get peek
  cases c.map.lookup txid with
  | none => rfl
  | some entry => by_cases hf : now - entry.insertedAt < c.ttl <;> simp [hf]

/-- what `get` shows is in the map -/
theorem lookup_of_peek {c : UtxoCache} {now : ℕ} {txid : String} {data : CachedTxOutputs}
    (h : c.peek now txid = some data) : ∃ entry, c.map.lookup txid = some entry ∧ entry.data = data := by
  unfold peek at h
  cases hl : c.map.lookup txid with
  | none => simp [hl] at h
  | some entry =>
    rw [hl] at h
    dsimp only at h
    split_ifs at h with hf
    exact ⟨entry, rfl, Option.some.inj h⟩

/-- dropping a stale txid changes nothing, now or later -/
theorem peek_forget {c : UtxoCache} {txid : String} {now later : ℕ} (hle : now ≤ later)
    (hstale : c.peek now txid = none) (k : String) : (c.forget txid).peek later k = c.peek later k := by
  unfold peek forget at *
  by_cases hk : k = txid
  · subst hk
    rw [AList.lookup_erase]
    cases hl : c.map.lookup k with
    | none => rfl
    | some entry =>
      rw [hl] at hstale
      dsimp only at hstale ⊢
      split_ifs at hstale with hf
      have hlater : ¬ later - entry.insertedAt < c.ttl := by omega
      simp [hlater]
  · rw [AList.lookup_erase_ne hk]

/-- **Looking changes nothing.** After a `get` the cache shows what it would have shown. -/
theorem peek_get (c : UtxoCache) (txid : String) (vout : ℕ) {now later : ℕ} (hle : now ≤ later) (k : String) :
    (c.get now txid vout).1.peek later k = c.peek later k := by
  unfold get
  cases hl : c.map.lookup txid with
  | none => rfl
  | some entry =>
    by_cases hf : now - entry.insertedAt < c.ttl
    · simp only [hf, if_true]
      rfl
    · simp only [hf, if_false]
      exact peek_forget hle (by simp [peek, hl, hf]) k

/-- a `get` keeps the bounds and never adds an entry -/
theorem get_size (now : ℕ) (c : UtxoCache) (txid : String) (vout : ℕ) :
    (c.get now txid vout).1.ttl = c.ttl ∧ (c.get now txid vout).1.maxCapacity = c.maxCapacity ∧
      (c.get now txid vout).1.map.keys.length ≤ c.map.keys.length := by
  unfold get
  cases c.map.lookup txid with
  | none => exact ⟨rfl, rfl, le_refl _⟩
  | some entry =>
    by_cases hf : now - entry.insertedAt < c.ttl
    · simp [hf]
    · simp only [hf, if_false]
      refine ⟨rfl, rfl, ?_⟩
      show (c.map.erase txid).keys.length ≤ c.map.keys.length
      rw [AList.keys_erase]
      exact List.length_erase_le

theorem evict_of_room {c : UtxoCache} (h : c.map.keys.length < c.maxCapacity) : c.evict c.order = c := by
  cases hq : c.order with
  | nil => rw [evict, ← hq]
  | cons oldest rest => rw [evict, if_neg (by omega), ← hq]

/-- with room to spare an insertion is an insertion into the map and the queue -/
theorem insert_of_room {c : UtxoCache} (now : ℕ) (txid : String) (txInfo : CachedTxOutputs)
    (h : c.map.keys.length < c.maxCapacity) :
    c.insert now txid txInfo = { c with map := c.map.insert txid ⟨txInfo, now⟩, order := c.order ++ [txid] } := by
  have hfull : ¬ c.map.keys.length ≥ c.maxCapacity := by omega
  simp only [insert, if_neg hfull]
  rw [evict_of_room h]

/-- **Storing with room to spare** shows the new outputs and leaves the other txids alone. -/
theorem peek_insert {c : UtxoCache} (now later : ℕ) (txid : String) (txInfo : CachedTxOutputs)
    (h : c.map.keys.length < c.maxCapacity) (hfresh : later - now < c.ttl) (k : String) :
    (c.insert now txid txInfo).peek later k = if k = txid then some txInfo else c.peek later k := by
  rw [insert_of_room now txid txInfo h]
  by_cases hk : k = txid
  · subst hk
    simp [peek, AList.lookup_insert, hfresh]
  · simp [peek, AList.lookup_insert_ne hk, hk]

theorem insert_size {c : UtxoCache} (now : ℕ) (txid : String) (txInfo : CachedTxOutputs)
    (h : c.map.keys.length < c.maxCapacity) :
    (c.insert now txid txInfo).ttl = c.ttl ∧ (c.insert now txid txInfo).maxCapacity = c.maxCapacity ∧
      (c.insert now txid txInfo).map.keys.length ≤ c.map.keys.length + 1 := by
  rw [insert_of_room now txid txInfo h]
  refine ⟨rfl, rfl, ?_⟩
  show (c.map.insert txid ⟨txInfo, now⟩).keys.length ≤ c.map.keys.length + 1
  rw [AList.keys_insert, List.length_cons]
  have := List.length_erase_le (a := txid) (l := c.map.keys)
  omega

/-! ## What the cache holds -/

theorem lookup_of_get {now : ℕ} {c : UtxoCache} {txid : String} {vout : ℕ} {k : String} {entry : CacheEntry}
    (h : (c.get now txid vout).1.map.lookup k = some entry) : c.map.lookup k = some entry := by
  unfold get at h
  cases hl : c.map.lookup txid with
  | none => simpa [hl] using h
  | some old =>
    by_cases hf : now - old.insertedAt < c.ttl
    · simpa [hl, hf] using h
    · simp only [hl, hf, if_false] at h
      exact Eviction.lookup_of_erase h

theorem lookup_of_cleanExpired {now : ℕ} {c : UtxoCache} {k : String} {entry : CacheEntry}
    (h : (c.cleanExpired now).map.lookup k = some entry) : c.map.lookup k = some entry := by
  unfold cleanExpired at h
  generalize c.map.keys.filter _ = expired at h
  induction expired generalizing c with
  | nil => exact h
  | cons txid expired ih => exact Eviction.lookup_of_erase (ih h)

theorem lookup_of_evict {c : UtxoCache} {queue : List String} {k : String} {entry : CacheEntry}
    (h : (c.evict queue).map.lookup k = some entry) : c.map.lookup k = some entry := by
  rw [(c.evict_eq_evict queue).1] at h
  exact Eviction.lookup_of_evict h

/-- **Storing adds its own entry and no other**, whatever it drops to make room. -/
theorem lookup_of_insert {now : ℕ} {c : UtxoCache} {txid : String} {txInfo : CachedTxOutputs} {k : String}
    {entry : CacheEntry} (h : (c.insert now txid txInfo).map.lookup k = some entry) :
    (k = txid ∧ entry = ⟨txInfo, now⟩) ∨ c.map.lookup k = some entry := by
  unfold insert at h
  dsimp only at h
  by_cases hk : k = txid
  · subst hk
    rw [AList.lookup_insert] at h
    exact Or.inl ⟨rfl, (Option.some.inj h).symm⟩
  · rw [AList.lookup_insert_ne hk] at h
    right
    have hclean := lookup_of_evict h
    split_ifs at hclean with hfull
    · exact lookup_of_cleanExpired hclean
    · exact hclean

end UtxoCache

end ObsChain
