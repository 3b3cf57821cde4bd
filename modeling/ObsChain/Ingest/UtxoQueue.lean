/-
Do the queue and the map of the output cache stay in step?

`insert` does not look whether the txid is cached. It makes room in a full cache first, for expired entries and else for the
front of the queue, and then queues the txid at the back: a txid that is still cached is queued twice, and an entry may have
been evicted for it although the map does not grow.

- `Logged`: the cache with the time of the last call and the insertions so far, newest first, which the code does not keep.
- `QueueInStep`, `Retained`: the queue lists the cached txids, each once; an entry is returned until its TTL is over, as
  long as fewer other txids than the capacity were inserted after it.
- `Doubles`: an insertion finds its txid still cached after room was made.
- `Roomy`: what making room leaves of the map and the queue.
- `utxo_queue_iff`: both hold in every state of a run exactly when no insertion doubles a txid.
- `renewal_evicts_another`: in a cache of two, `b` is stored a second time, and `a` is gone.
-/
import Mathlib.Tactic
import Mathlib.Data.List.AList
import ObsChain.Core.Trace
import ObsChain.Core.Eviction
import ObsChain.Core.KeyLog
import ObsChain.Ingest.UtxoCache

namespace ObsChain.UtxoQueue

open Trace Eviction

/-- the cache, the time of its last call, and the insertions, newest first -/
structure Logged where
  cache : UtxoCache
  clock : ℕ
  inserted : List (String × CacheEntry)

/-- a call, and the time since the last one -/
inductive Call where
  | insert (elapsed : ℕ) (txid : String) (txInfo : CachedTxOutputs)
  | get (elapsed : ℕ) (txid : String) (vout : ℕ)

def operate (s : Logged) : Call → Logged
  | .insert elapsed txid txInfo =>
    ⟨s.cache.insert (s.clock + elapsed) txid txInfo, s.clock + elapsed, (txid, ⟨txInfo, s.clock + elapsed⟩) :: s.inserted⟩
  | .get elapsed txid vout => ⟨(s.cache.get (s.clock + elapsed) txid vout).1, s.clock + elapsed, s.inserted⟩

def start (maxCapacity ttl : ℕ) : Logged := ⟨UtxoCache.new maxCapacity ttl, 0, []⟩

/-- the queue lists the cached txids, each once -/
def QueueInStep (s : Logged) : Prop := InStep s.cache.map s.cache.order

/-- an entry is returned until its TTL is over, unless as many other txids as the capacity were inserted after it -/
def Retained (s : Logged) : Prop :=
  ∀ txid entry now, s.clock ≤ now → KeyLog.last s.inserted txid = some entry → now < entry.insertedAt + s.cache.ttl →
    (KeyLog.since s.inserted txid).toFinset.card < s.cache.maxCapacity →
    ∀ vout, (s.cache.get now txid vout).2 = entry.data.context txid vout

/-- the entry of the txid has expired -/
def Stale (c : UtxoCache) (now : ℕ) (txid : String) : Prop :=
  ∃ entry, c.map.lookup txid = some entry ∧ c.ttl ≤ now - entry.insertedAt

/-- a full cache makes room by what has expired, or else by the front of the queue -/
def MakesRoom (c : UtxoCache) (now : ℕ) (txid : String) : Prop :=
  c.maxCapacity ≤ c.map.keys.length ∧ (Stale c now txid ∨ (∀ k, ¬ Stale c now k) ∧ c.order.head? = some txid)

/-- the txid is cached, and is not one that makes room -/
def Doubles (s : Logged) : Call → Prop
  | .insert elapsed txid _ => txid ∈ s.cache.map ∧ ¬ MakesRoom s.cache (s.clock + elapsed) txid
  | .get _ _ _ => False

/-! ## Making room -/

section Room

variable {c : UtxoCache} {now : ℕ}

/-- what `forget` and `clean_expired` leave of the cache -/
structure Cleaned (gone : String → Prop) (c c' : UtxoCache) : Prop where
  kept : ∀ k, ¬ gone k → c'.map.lookup k = c.map.lookup k
  dropped : ∀ k, gone k → c'.map.lookup k = none
  sublist : c'.order.Sublist c.order
  inStep : InStep c.map c.order → InStep c'.map c'.order
  capacity : c'.maxCapacity = c.maxCapacity
  ttl : c'.ttl = c.ttl

theorem cleaned_forget (c : UtxoCache) (txid : String) : Cleaned (· = txid) c (c.forget txid) := by
  refine ⟨fun k hk => AList.lookup_erase_ne hk, ?_, List.filter_sublist, fun h => h.erase txid, rfl, rfl⟩
  rintro k rfl
  exact AList.lookup_erase k c.map

theorem cleaned_foldl (c : UtxoCache) (txids : List String) : Cleaned (· ∈ txids) c (txids.foldl UtxoCache.forget c) := by
  induction txids generalizing c with
  | nil => exact ⟨fun _ _ => rfl, fun k hk => absurd hk List.not_mem_nil, List.Sublist.refl _, id, rfl, rfl⟩
  | cons txid txids ih =>
    have hone := cleaned_forget c txid
    have hrest := ih (c.forget txid)
    refine ⟨fun k hk => ?_, fun k hk => ?_, hrest.sublist.trans hone.sublist, fun h => hrest.inStep (hone.inStep h),
      hrest.capacity.trans hone.capacity, hrest.ttl.trans hone.ttl⟩
    · rw [List.mem_cons, not_or] at hk
      exact (hrest.kept k hk.2).trans (hone.kept k hk.1)
    · by_cases hmem : k ∈ txids
      · exact hrest.dropped k hmem
      · exact (hrest.kept k hmem).trans (hone.dropped k ((List.mem_cons.1 hk).resolve_right hmem))

/-- the txids whose entries have expired -/
def expired (c : UtxoCache) (now : ℕ) : List String :=
  c.map.keys.filter fun k =>
    match c.map.lookup k with
    | some entry => now - entry.insertedAt ≥ c.ttl
    | none => false

theorem mem_expired (k : String) : k ∈ expired c now ↔ Stale c now k := by
  rw [expired, List.mem_filter, AList.mem_keys.symm, ← AList.lookup_isSome, Stale]
  cases c.map.lookup k with
  | none => simp
  | some entry => simp

/-- **Cleaning drops what has expired.** -/
theorem cleaned_cleanExpired (c : UtxoCache) (now : ℕ) : Cleaned (Stale c now) c (c.cleanExpired now) := by
  have h := cleaned_foldl c (expired c now)
  exact ⟨fun k hk => h.kept k (mt (mem_expired k).1 hk), fun k hk => h.dropped k ((mem_expired k).2 hk), h.sublist,
    h.inStep, h.capacity, h.ttl⟩

theorem cleanExpired_of_fresh (h : ∀ k, ¬ Stale c now k) : c.cleanExpired now = c := by
  have hnone : expired c now = [] := List.eq_nil_iff_forall_not_mem.2 fun k hk => h k ((mem_expired k).1 hk)
  show (expired c now).foldl UtxoCache.forget c = c
  rw [hnone]
  rfl

/-- where something has expired, the queue gets shorter -/
theorem length_cleanExpired (h : InStep c.map c.order) {k : String} (hk : Stale c now k) :
    (c.cleanExpired now).map.keys.length < c.map.keys.length := by
  have hclean := cleaned_cleanExpired c now
  have hstep := hclean.inStep h
  rw [← h.length_eq, ← hstep.length_eq]
  apply lt_of_le_of_ne hclean.sublist.length_le
  intro hlength
  have hgone : k ∉ (c.cleanExpired now).map := AList.lookup_eq_none.1 (hclean.dropped k hk)
  apply hgone
  rw [← hstep.mem_iff, hclean.sublist.eq_of_length hlength, h.mem_iff, ← AList.lookup_isSome]
  obtain ⟨entry, hlookup, -⟩ := hk
  rw [hlookup]
  rfl

/-- the cache before the new entry is stored -/
def makeRoom (c : UtxoCache) (now : ℕ) : UtxoCache :=
  let c := if c.map.keys.length ≥ c.maxCapacity then c.cleanExpired now else c
  c.evict c.order

theorem insert_eq (c : UtxoCache) (now : ℕ) (txid : String) (txInfo : CachedTxOutputs) : c.insert now txid txInfo =
    { makeRoom c now with
      map := (makeRoom c now).map.insert txid ⟨txInfo, now⟩, order := (makeRoom c now).order ++ [txid] } := rfl

/-- what making room leaves -/
structure Roomy (c : UtxoCache) (now : ℕ) (c' : UtxoCache) : Prop where
  inStep : InStep c'.map c'.order
  room : c'.map.keys.length < c.maxCapacity
  kept : ∀ k, ¬ MakesRoom c now k → c'.map.lookup k = c.map.lookup k
  dropped : ∀ k, MakesRoom c now k → k ∉ c'.map
  sublist : c'.order.Sublist c.order
  capacity : c'.maxCapacity = c.maxCapacity
  ttl : c'.ttl = c.ttl

/-- **Making room.** -/
theorem roomy_makeRoom (h : InStep c.map c.order) (hpos : 0 < c.maxCapacity) (hsize : c.map.keys.length ≤ c.maxCapacity)
    (now : ℕ) : Roomy c now (makeRoom c now) := by
  unfold makeRoom
  by_cases hfull : c.maxCapacity ≤ c.map.keys.length
  · rw [if_pos hfull]
    by_cases hstale : ∃ k, Stale c now k
    · -- what has expired makes room
      obtain ⟨old, hold⟩ := hstale
      have hclean := cleaned_cleanExpired c now
      have hless : (c.cleanExpired now).map.keys.length < (c.cleanExpired now).maxCapacity := by
        rw [hclean.capacity]
        exact (length_cleanExpired h hold).trans_le hsize
      have hmakes : ∀ k, MakesRoom c now k ↔ Stale c now k := fun k =>
        ⟨fun hk => hk.2.resolve_right fun hfresh => hfresh.1 old hold, fun hk => ⟨hfull, .inl hk⟩⟩
      rw [UtxoCache.evict_of_room hless]
      exact ⟨hclean.inStep h, hclean.capacity ▸ hless, fun k hk => hclean.kept k (mt (hmakes k).2 hk),
        fun k hk => AList.lookup_eq_none.1 (hclean.dropped k ((hmakes k).1 hk)), hclean.sublist, hclean.capacity, hclean.ttl⟩
    · -- nothing has: the front of the queue goes
      rw [not_exists] at hstale
      rw [cleanExpired_of_fresh hstale]
      obtain ⟨hmap, horder, hcapacity, httl⟩ := c.evict_eq_evict c.order
      rcases h.evict_cases hpos hsize with ⟨hlt, -⟩ | ⟨oldest, rest, hfront, -, heq⟩
      · exact absurd hfull (not_le.2 hlt)
      rw [heq] at hmap horder
      dsimp only at hmap horder
      have hmakes : ∀ k, MakesRoom c now k ↔ k = oldest := by
        intro k
        rw [MakesRoom, hfront, List.head?_cons, Option.some.injEq, and_iff_right hfull, or_iff_right (hstale k),
          and_iff_right hstale, eq_comm]
      have hheld : oldest ∈ c.map := (h.mem_iff oldest).1 (hfront ▸ List.mem_cons_self)
      have hless := Eviction.length_erase hheld
      rw [hfront] at h
      refine ⟨?_, ?_, fun k hk => ?_, fun k hk => ?_, ?_, hcapacity, httl⟩
      · rw [hmap, horder]
        exact h.erase_front
      · rw [hmap]
        omega
      · rw [hmap, AList.lookup_erase_ne (mt (hmakes k).2 hk)]
      · rw [hmap, (hmakes k).1 hk, AList.mem_erase]
        exact fun hmem => hmem.1 rfl
      · rw [horder, hfront]
        exact List.sublist_cons_self oldest rest
  · rw [if_neg hfull, UtxoCache.evict_of_room (not_le.1 hfull)]
    exact ⟨h, not_le.1 hfull, fun _ _ => rfl, fun k hk => absurd hk.1 hfull, List.Sublist.refl _, rfl, rfl⟩

end Room

/-! ## Calls -/

/-- what every run without doubled txids keeps -/
structure Sound (s : Logged) : Prop where
  positive : 0 < s.cache.maxCapacity
  size : s.cache.map.keys.length ≤ s.cache.maxCapacity
  inStep : QueueInStep s
  /-- behind a txid the queue has those that were inserted after it -/
  ordered : s.cache.order.Pairwise fun a b => b ∈ KeyLog.since s.inserted a
  /-- the map holds the last insertion -/
  stored : ∀ txid entry, s.cache.map.lookup txid = some entry → KeyLog.last s.inserted txid = some entry
  clocked : ∀ p ∈ s.inserted, p.2.insertedAt ≤ s.clock
  /-- and has it, within its TTL and while fewer other txids followed than there are places -/
  kept : ∀ txid entry, KeyLog.last s.inserted txid = some entry → s.clock < entry.insertedAt + s.cache.ttl →
    (KeyLog.since s.inserted txid).toFinset.card < s.cache.maxCapacity → s.cache.map.lookup txid = some entry

section Step

variable {s : Logged}

theorem Sound.retained (h : Sound s) : Retained s := by
  intro txid entry now hclock hlast hlive hfew vout
  have hstored := h.clocked _ (KeyLog.mem_of_last hlast)
  have hlookup := h.kept txid entry hlast (hclock.trans_lt hlive) hfew
  dsimp only at hstored
  have hfresh : now - entry.insertedAt < s.cache.ttl := by omega
  rw [UtxoCache.get, hlookup]
  dsimp only
  rw [if_pos hfresh]

/-- **An insertion keeps the queue in step, exactly** when its txid is gone once there is room. -/
theorem inStep_insert_iff (h : Sound s) (elapsed : ℕ) (txid : String) (txInfo : CachedTxOutputs) :
    QueueInStep (operate s (.insert elapsed txid txInfo)) ↔ ¬ Doubles s (.insert elapsed txid txInfo) := by
  have hroomy := roomy_makeRoom h.inStep h.positive h.size (s.clock + elapsed)
  have hmem : txid ∈ (makeRoom s.cache (s.clock + elapsed)).map ↔ Doubles s (.insert elapsed txid txInfo) := by
    rw [Doubles]
    by_cases hmakes : MakesRoom s.cache (s.clock + elapsed) txid
    · exact ⟨fun hmem => absurd hmem (hroomy.dropped txid hmakes), fun hdoubles => absurd hmakes hdoubles.2⟩
    · rw [and_iff_left hmakes, ← AList.lookup_isSome, hroomy.kept txid hmakes, AList.lookup_isSome]
  rw [← hmem, QueueInStep, operate, insert_eq]
  refine ⟨fun hstep hheld => ?_, fun hnew => hroomy.inStep.insert hnew _⟩
  exact not_inStep_requeued ((hroomy.inStep.mem_iff txid).2 hheld) _ hstep

/-- the new txid is behind all the others -/
theorem Sound.ordered_insert (h : Sound s) {order : List String} (hsub : order.Sublist s.cache.order) {txid : String}
    (hnew : txid ∉ order) (entry : CacheEntry) :
    (order ++ [txid]).Pairwise fun a b => b ∈ KeyLog.since ((txid, entry) :: s.inserted) a := by
  have hne : ∀ a ∈ order, txid ≠ a := fun a ha heq => hnew (heq ▸ ha)
  rw [List.pairwise_append]
  refine ⟨(h.ordered.sublist hsub).imp_of_mem ?_, List.pairwise_singleton _ _, ?_⟩
  · intro a b ha _ hb
    exact KeyLog.mem_since_cons_of_mem (hne a ha) hb
  · intro a ha b hb
    rw [List.mem_singleton.1 hb]
    exact KeyLog.mem_since_cons entry s.inserted (hne a ha)

/-- an entry that is kept does not make room: when it is the front of a full queue, the capacity follows it -/
theorem Sound.not_makesRoom (h : Sound s) {now : ℕ} {txid k : String} {new entry : CacheEntry} (hne : txid ≠ k)
    (hlast : KeyLog.last s.inserted k = some entry) (hclock : s.clock ≤ now) (hlive : now < entry.insertedAt + s.cache.ttl)
    (hnew : txid ∉ (makeRoom s.cache now).map)
    (hfew : (KeyLog.since ((txid, new) :: s.inserted) k).toFinset.card < s.cache.maxCapacity) :
    ¬ MakesRoom s.cache now k := by
  have hbefore := h.clocked _ (KeyLog.mem_of_last hlast)
  dsimp only at hbefore
  rintro ⟨hfull, hstale | ⟨hfresh, hfront⟩⟩
  · obtain ⟨old, hlookup, hold⟩ := hstale
    have heq := (h.stored k old hlookup).symm.trans hlast
    cases heq
    omega
  · obtain ⟨rest, hqueue⟩ := List.head?_eq_some_iff.1 hfront
    have hroomy := roomy_makeRoom h.inStep h.positive h.size now
    have hordered := h.ordered
    have hnodup := h.inStep.nodup
    rw [hqueue] at hordered hnodup
    have hrest : ∀ b ∈ rest, b ∈ KeyLog.since s.inserted k := (List.pairwise_cons.1 hordered).1
    -- the rest of the queue stays, and the new txid is not in it
    have hout : txid ∉ rest := by
      intro hmem
      apply hnew
      have hother : ¬ MakesRoom s.cache now txid := by
        rintro ⟨-, hstale | ⟨-, hhead⟩⟩
        · exact hfresh txid hstale
        · rw [hqueue, List.head?_cons, Option.some.injEq] at hhead
          exact hne hhead.symm
      rw [← AList.lookup_isSome, hroomy.kept txid hother, AList.lookup_isSome, ← h.inStep.mem_iff, hqueue]
      exact List.mem_cons_of_mem k hmem
    have hsub : (txid :: rest).toFinset ⊆ (KeyLog.since ((txid, new) :: s.inserted) k).toFinset := by
      intro b hb
      rw [List.mem_toFinset] at hb ⊢
      rcases List.mem_cons.1 hb with rfl | hb
      · exact KeyLog.mem_since_cons new s.inserted hne
      · exact KeyLog.mem_since_cons_of_mem hne (hrest b hb)
    have hcard := Finset.card_le_card hsub
    rw [List.toFinset_card_of_nodup (List.nodup_cons.2 ⟨hout, hnodup.of_cons⟩)] at hcard
    have hlength := h.inStep.length_eq
    rw [hqueue] at hlength
    simp only [List.length_cons] at hcard hlength
    omega

/-- **An insertion.** -/
theorem Sound.insert (h : Sound s) (elapsed : ℕ) (txid : String) (txInfo : CachedTxOutputs)
    (hkept : ¬ Doubles s (.insert elapsed txid txInfo)) : Sound (operate s (.insert elapsed txid txInfo)) := by
  have hroomy := roomy_makeRoom h.inStep h.positive h.size (s.clock + elapsed)
  have hstep := (inStep_insert_iff h elapsed txid txInfo).2 hkept
  have hnew : txid ∉ (makeRoom s.cache (s.clock + elapsed)).map := by
    intro hmem
    exact not_inStep_requeued ((hroomy.inStep.mem_iff txid).2 hmem) _ hstep
  rw [operate, insert_eq] at hstep ⊢
  refine ⟨?_, ?_, hstep, ?_, ?_, ?_, ?_⟩
  · exact hroomy.capacity.symm ▸ h.positive
  · dsimp only
    rw [AList.keys_insert, List.length_cons, hroomy.capacity]
    exact (Nat.succ_le_succ List.length_erase_le).trans hroomy.room
  · exact h.ordered_insert hroomy.sublist (mt (hroomy.inStep.mem_iff txid).1 hnew) _
  · intro k entry hlookup
    dsimp only at hlookup ⊢
    rw [KeyLog.last_cons]
    by_cases hself : txid = k
    · rw [if_pos hself]
      rwa [← hself, AList.lookup_insert] at hlookup
    · rw [if_neg hself]
      rw [AList.lookup_insert_ne (Ne.symm hself)] at hlookup
      have hmem : k ∈ (makeRoom s.cache (s.clock + elapsed)).map := AList.lookup_isSome.1 (by rw [hlookup]; rfl)
      rw [hroomy.kept k fun hmakes => hroomy.dropped k hmakes hmem] at hlookup
      exact h.stored k entry hlookup
  · intro p hp
    rcases List.mem_cons.1 hp with rfl | hold
    · exact le_refl _
    · exact (h.clocked p hold).trans (Nat.le_add_right _ _)
  · intro k entry hlast hlive hfew
    dsimp only at hlast hlive hfew ⊢
    rw [hroomy.ttl] at hlive
    rw [hroomy.capacity] at hfew
    rw [KeyLog.last_cons] at hlast
    by_cases hself : txid = k
    · rw [if_pos hself] at hlast
      cases hlast
      rw [← hself, AList.lookup_insert]
    · rw [if_neg hself] at hlast
      have hstays := h.not_makesRoom hself hlast (Nat.le_add_right _ _) hlive hnew hfew
      rw [AList.lookup_insert_ne (Ne.symm hself), hroomy.kept k hstays]
      apply h.kept k entry hlast (lt_of_le_of_lt (Nat.le_add_right _ _) hlive)
      apply lt_of_le_of_lt _ hfew
      apply Finset.card_le_card
      intro b hb
      rw [List.mem_toFinset] at hb ⊢
      exact KeyLog.mem_since_cons_of_mem hself hb

/-- a look at the cache drops an entry that has expired, or nothing -/
theorem cleaned_get (c : UtxoCache) (now : ℕ) (txid : String) (vout : ℕ) :
    Cleaned (fun k => k = txid ∧ Stale c now k) c (c.get now txid vout).1 := by
  have hsame : ∀ c' : UtxoCache, ¬ Stale c now txid → c'.map = c.map → c'.order = c.order → c'.maxCapacity = c.maxCapacity →
      c'.ttl = c.ttl → Cleaned (fun k => k = txid ∧ Stale c now k) c c' := by
    intro c' hfresh hmap horder hcapacity httl
    refine ⟨fun k _ => by rw [hmap], ?_, by rw [horder], fun h => by rwa [hmap, horder], hcapacity, httl⟩
    rintro k ⟨rfl, hstale⟩
    exact absurd hstale hfresh
  unfold UtxoCache.get
  cases hlookup : c.map.lookup txid with
  | none =>
    refine hsame _ ?_ rfl rfl rfl rfl
    rintro ⟨entry, hentry, -⟩
    rw [hlookup] at hentry
    cases hentry
  | some entry =>
    dsimp only
    split_ifs with hfresh
    · refine hsame _ ?_ rfl rfl rfl rfl
      rintro ⟨old, hentry, hold⟩
      rw [hlookup] at hentry
      cases hentry
      omega
    · have hforget := cleaned_forget c txid
      refine ⟨fun k hk => ?_, fun k hk => hforget.dropped k hk.1, hforget.sublist, hforget.inStep, rfl, rfl⟩
      apply hforget.kept k
      rintro rfl
      exact hk ⟨rfl, entry, hlookup, not_lt.1 hfresh⟩

/-- **A look.** -/
theorem Sound.get (h : Sound s) (elapsed : ℕ) (txid : String) (vout : ℕ) : Sound (operate s (.get elapsed txid vout)) := by
  have hclean := cleaned_get s.cache (s.clock + elapsed) txid vout
  have hsub : ∀ k entry, (s.cache.get (s.clock + elapsed) txid vout).1.map.lookup k = some entry →
      s.cache.map.lookup k = some entry := fun k entry hlookup => UtxoCache.lookup_of_get hlookup
  refine ⟨?_, ?_, hclean.inStep h.inStep, h.ordered.sublist hclean.sublist, ?_, ?_, ?_⟩
  · exact hclean.capacity.symm ▸ h.positive
  · show (s.cache.get (s.clock + elapsed) txid vout).1.map.keys.length ≤ _
    rw [operate, hclean.capacity]
    exact (UtxoCache.get_size _ _ _ _).2.2.trans h.size
  · exact fun k entry hlookup => h.stored k entry (hsub k entry hlookup)
  · exact fun p hp => (h.clocked p hp).trans (Nat.le_add_right _ _)
  · intro k entry hlast hlive hfew
    rw [operate] at hlast hlive hfew ⊢
    dsimp only at hlast hlive hfew ⊢
    rw [hclean.ttl] at hlive
    rw [hclean.capacity] at hfew
    have hlookup := h.kept k entry hlast (lt_of_le_of_lt (Nat.le_add_right _ _) hlive) hfew
    have hbefore := h.clocked _ (KeyLog.mem_of_last hlast)
    rw [hclean.kept k, hlookup]
    rintro ⟨-, old, hentry, hold⟩
    rw [hlookup] at hentry
    cases hentry
    dsimp only at hbefore
    omega

/-- **One call.** -/
theorem Sound.operate (h : Sound s) (c : Call) (hkept : ¬ Doubles s c) : Sound (operate s c) := by
  cases c with
  | insert elapsed txid txInfo => exact h.insert elapsed txid txInfo hkept
  | get elapsed txid vout => exact h.get elapsed txid vout

end Step

/-! ## Runs -/

theorem sound_start (maxCapacity ttl : ℕ) : Sound (start maxCapacity ttl) := by
  refine ⟨lt_max_of_lt_right Nat.zero_lt_one, Nat.zero_le _, inStep_empty, List.Pairwise.nil, ?_, ?_, ?_⟩
  · intro txid entry hlookup
    cases hlookup
  · intro p hp
    cases hp
  · intro txid entry hlast
    cases hlast

/-- **In step and retained, exactly.** For every capacity, TTL and run of calls at non-decreasing times, the queue lists the
cached txids once each, and entries are returned as long as they should be, in every state of the run, if and only if no
insertion finds its txid still cached after room was made. -/
theorem utxo_queue_iff (maxCapacity ttl : ℕ) (calls : List Call) :
    Always operate (fun s => QueueInStep s ∧ Retained s) (start maxCapacity ttl) calls ↔
      Steps operate (fun s c => ¬ Doubles s c) (start maxCapacity ttl) calls := by
  have hall : Steps operate (fun _ _ => True) (start maxCapacity ttl) calls := steps_of_mem fun _ _ => trivial
  have hstart := sound_start maxCapacity ttl
  apply always_iff_steps_kept (J := Sound) (E := fun _ _ => True) _ _ hall hstart ⟨hstart.inStep, hstart.retained⟩
  · intro s c h _ _ hkept
    exact h.operate c hkept
  · intro s c h _ _
    refine ⟨fun hafter => ?_, fun hkept => ⟨(h.operate c hkept).inStep, (h.operate c hkept).retained⟩⟩
    cases c with
    | insert elapsed txid txInfo => exact (inStep_insert_iff h elapsed txid txInfo).1 hafter.1
    | get elapsed txid vout => exact id

/-! ## A txid that is stored again -/

def someOutputs : CachedTxOutputs := ⟨true, some 800000, none, [(0, 1000)]⟩

/-- two places, and `b` is stored twice -/
def renewal : List Call := [.insert 0 "a" someOutputs, .insert 1 "b" someOutputs, .insert 1 "b" someOutputs]

/-- **A renewal evicts another entry.** `a` made room for a txid that was cached, which is queued twice now. -/
theorem renewal_evicts_another :
    (run operate (start 2 100) renewal).cache.order = ["b", "b"] ∧
      ((run operate (start 2 100) renewal).cache.get 2 "a" 0).2 = none ∧
      ¬ QueueInStep (run operate (start 2 100) renewal) ∧ ¬ Retained (run operate (start 2 100) renewal) := by
  have hnone : ((run operate (start 2 100) renewal).cache.get 2 "a" 0).2 = none := by decide +kernel
  refine ⟨by decide +kernel, hnone, fun hstep => ?_, fun hretained => ?_⟩
  · exact absurd hstep.nodup (by decide +kernel)
  · have hreturned := hretained "a" ⟨someOutputs, 0⟩ 2 (by decide +kernel) (by decide +kernel) (by decide +kernel)
      (by decide +kernel) 0
    rw [hnone] at hreturned
    revert hreturned
    decide

end ObsChain.UtxoQueue
