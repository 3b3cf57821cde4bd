/-
Is a duplicate inside the window always dropped?

The deduplicator keeps one time for each key and a queue that gets a key on every pass. A key that expires and passes again
is in the queue twice, and the map holds its new time only. When the map is full, the first queued key that it still
holds is evicted; if that place is the old one, the key is forgotten although it has just passed.

- `Logged`: the deduplicator with the passes so far, newest first, which the code does not keep.
- `Window`: a key that passed within the TTL and was followed by fewer other keys than the capacity is dropped.
- `Sound.offer_cases`: what makes room is the first queued key that the map holds.
- `since_eq`: the keys that passed after it stand behind its last place in the queue.
- `dedup_window_iff`: the window is kept in every state of a run exactly when each evicted key is the one that passes, or
  has expired, or was followed by every other key that the map holds.
- `filter_eq_run`: a batch is a run of single offers at one time.
- `repassed_key_forgotten`: a key that expired and passed again is forgotten after two others.
-/
import Mathlib.Tactic
import Mathlib.Data.List.AList
import Mathlib.Data.List.TakeWhile
import ObsChain.Core.Trace
import ObsChain.Core.Eviction
import ObsChain.Core.KeyLog
import ObsChain.Domain.Event
import ObsChain.Pipeline.Dedup
import ObsChain.Pipeline.Convergence

namespace ObsChain.DedupWindow

open Trace EventDeduplicator

/-! ## Passes -/

/-- the deduplicator, the time of its last call, and the keys that passed with their times, newest first -/
structure Logged where
  filter : EventDeduplicator
  clock : ℕ
  passed : List (String × ℕ)

/-- an event, and the time since the last one -/
structure Offer where
  elapsed : ℕ
  utc : DateTime
  event : ChainEvent

def offer (s : Logged) (o : Offer) : Logged :=
  let r := filterOne (s.clock + o.elapsed) o.utc s.filter o.event
  { filter := r.1
    clock := s.clock + o.elapsed
    passed := if r.2.isSome then (eventKey o.event, s.clock + o.elapsed) :: s.passed else s.passed }

def start (maxCapacity ttl : ℕ) : Logged := ⟨EventDeduplicator.new maxCapacity ttl, 0, []⟩

/-- when a key passed last -/
def lastPassed (passed : List (String × ℕ)) (key : String) : Option ℕ :=
  (passed.find? fun p => p.1 = key).map Prod.snd

/-- the keys that passed after that -/
def since (passed : List (String × ℕ)) (key : String) : List String :=
  (passed.map Prod.fst).takeWhile fun k => k ≠ key

/-- an event is dropped if its key passed less than the TTL ago, and fewer keys than the capacity passed since -/
def Window (s : Logged) : Prop :=
  ∀ event utc now t, s.clock ≤ now → lastPassed s.passed (eventKey event) = some t → now - t < s.filter.ttl →
    (since s.passed (eventKey event)).toFinset.card < s.filter.maxCapacity →
    (filterOne now utc s.filter event).2 = none

/-- the queue from the first key on that the map holds -/
def queueFromHeld (d : EventDeduplicator) : List String := d.order.dropWhile fun key => key ∉ d.seen

/-- where an event passes a full map, the key that makes room is its own, or has expired, or stands in the queue before
every other key that the map holds -/
def Overtaken (s : Logged) (o : Offer) : Prop :=
  ¬ s.filter.Remembers (s.clock + o.elapsed) (eventKey o.event) → s.filter.maxCapacity ≤ s.filter.seen.keys.length →
    ∀ oldest rest, queueFromHeld s.filter = oldest :: rest →
      oldest = eventKey o.event ∨
      (∀ t, s.filter.seen.lookup oldest = some t → s.filter.ttl ≤ s.clock + o.elapsed - t) ∨
      ∀ key ∈ s.filter.seen, key ≠ oldest → key ∈ rest.reverse.takeWhile fun k => k ≠ oldest

section Passes

variable {passed : List (String × ℕ)} {key other : String} {now t : ℕ}

theorem lastPassed_cons (p : String × ℕ) (passed : List (String × ℕ)) (key : String) :
    lastPassed (p :: passed) key = if p.1 = key then some p.2 else lastPassed passed key :=
  KeyLog.last_cons p passed key

theorem since_cons (p : String × ℕ) (passed : List (String × ℕ)) (key : String) :
    since (p :: passed) key = if p.1 = key then [] else p.1 :: since passed key :=
  KeyLog.since_cons p passed key

theorem mem_of_lastPassed (h : lastPassed passed key = some t) : (key, t) ∈ passed := KeyLog.mem_of_last h

theorem notMem_since (passed : List (String × ℕ)) (key : String) : key ∉ since passed key :=
  KeyLog.notMem_since passed key

/-- a key that passed after another one passed later -/
theorem lastPassed_le {t' : ℕ} (hsorted : passed.Pairwise fun p q => q.2 ≤ p.2) (h : other ∈ since passed key)
    (ht : lastPassed passed key = some t) (ht' : lastPassed passed other = some t') : t ≤ t' := by
  induction passed with
  | nil => cases h
  | cons p passed ih =>
    obtain ⟨hp, hrest⟩ := List.pairwise_cons.1 hsorted
    rw [since_cons] at h
    rw [lastPassed_cons] at ht ht'
    by_cases hkey : p.1 = key
    · rw [if_pos hkey] at h
      cases h
    · rw [if_neg hkey] at h ht
      by_cases hother : p.1 = other
      · rw [if_pos hother] at ht'
        cases ht'
        exact hp _ (mem_of_lastPassed ht)
      · rw [if_neg hother] at ht'
        exact ih hrest ((List.mem_cons.1 h).resolve_left (Ne.symm hother)) ht ht'

/-- of two keys, one passed last -/
theorem since_asymm (h : other ∈ since passed key) : key ∉ since passed other := KeyLog.since_asymm h

/-- the keys that passed after a queued one stand behind its last place -/
theorem since_eq {order pre rest : List String} (hqueue : order.reverse <+: passed.map Prod.fst)
    (horder : order = pre ++ key :: rest) : since passed key = rest.reverse.takeWhile fun k => k ≠ key := by
  obtain ⟨older, holder⟩ := hqueue
  have hkeys : passed.map Prod.fst = rest.reverse ++ (key :: (pre.reverse ++ older)) := by
    rw [← holder, horder]
    simp
  rw [since, hkeys, List.takeWhile_append]
  split_ifs with hall
  · have hwhole : (rest.reverse.takeWhile fun k => k ≠ key) = rest.reverse :=
      (List.takeWhile_prefix _).eq_of_length hall
    rw [hwhole, List.takeWhile_cons_of_neg (by simp), List.append_nil]
  · rfl

end Passes

/-! ## One offer -/

section Offer

variable {s : Logged} {o : Offer}

theorem offer_dropped (h : s.filter.Remembers (s.clock + o.elapsed) (eventKey o.event)) :
    (offer s o).filter.seen = s.filter.seen ∧ (offer s o).filter.order = s.filter.order ∧
      (offer s o).filter.maxCapacity = s.filter.maxCapacity ∧ (offer s o).filter.ttl = s.filter.ttl ∧
      (offer s o).passed = s.passed := by
  rw [← remembers_iff] at h
  simp [offer, filterOne, h]

/-- a pass that finds room, or makes it -/
theorem offer_passed (h : ¬ s.filter.Remembers (s.clock + o.elapsed) (eventKey o.event)) :
    (offer s o).filter.seen = (Eviction.evict s.filter.maxCapacity s.filter.seen s.filter.order).1.insert
        (eventKey o.event) (s.clock + o.elapsed) ∧
      (offer s o).filter.order =
        (Eviction.evict s.filter.maxCapacity s.filter.seen s.filter.order).2 ++ [eventKey o.event] ∧
      (offer s o).filter.maxCapacity = s.filter.maxCapacity ∧ (offer s o).filter.ttl = s.filter.ttl ∧
      (offer s o).passed = (eventKey o.event, s.clock + o.elapsed) :: s.passed := by
  rw [← remembers_iff] at h
  obtain ⟨hseen, horder⟩ := evict_eq_evict s.filter.maxCapacity s.filter.seen s.filter.witnesses s.filter.order
  rw [← hseen, ← horder]
  simp [offer, filterOne, h]

end Offer

/-- what every run keeps, and what it keeps as long as evicted keys were overtaken -/
structure Sound (s : Logged) : Prop where
  positive : 0 < s.filter.maxCapacity
  size : s.filter.seen.keys.length ≤ s.filter.maxCapacity
  /-- the map holds the last pass -/
  stamped : ∀ key t, s.filter.seen.lookup key = some t → lastPassed s.passed key = some t
  /-- the queue lists what the map holds -/
  queued : ∀ key ∈ s.filter.seen, key ∈ s.filter.order
  /-- the queue is the end of the passes -/
  recent : s.filter.order.reverse <+: s.passed.map Prod.fst
  sorted : s.passed.Pairwise fun p q => q.2 ≤ p.2
  clocked : ∀ p ∈ s.passed, p.2 ≤ s.clock
  named : ∀ p ∈ s.passed, ∃ event, eventKey event = p.1
  /-- a key that is held within its TTL was followed by held keys only -/
  followed : ∀ key t, s.filter.seen.lookup key = some t → s.clock - t < s.filter.ttl →
    ∀ other ∈ since s.passed key, other ∈ s.filter.seen

section Held

variable {s : Logged} {o : Offer}

/-- a full map has a key to evict -/
theorem Sound.exists_oldest (h : Sound s) (hfull : s.filter.maxCapacity ≤ s.filter.seen.keys.length) :
    ∃ pre oldest rest, s.filter.order = pre ++ oldest :: rest ∧ queueFromHeld s.filter = oldest :: rest ∧
      oldest ∈ s.filter.seen ∧ ∀ key ∈ pre, key ∉ s.filter.seen := by
  have hpre : ∀ key ∈ s.filter.order.takeWhile fun key => key ∉ s.filter.seen, key ∉ s.filter.seen := by
    intro key hkey
    simpa using List.mem_takeWhile_imp hkey
  have hsplit : s.filter.order = (s.filter.order.takeWhile fun key => key ∉ s.filter.seen) ++ queueFromHeld s.filter :=
    (List.takeWhile_append_dropWhile).symm
  cases hq : queueFromHeld s.filter with
  | nil =>
    have hpositive := h.positive
    obtain ⟨key, hkey⟩ := List.exists_mem_of_length_pos (l := s.filter.seen.keys) (by omega)
    have hmem := h.queued key (AList.mem_keys.2 hkey)
    rw [hsplit, hq, List.append_nil] at hmem
    exact absurd (AList.mem_keys.2 hkey) (hpre key hmem)
  | cons oldest rest =>
    rw [hq] at hsplit
    refine ⟨_, oldest, rest, hsplit, rfl, ?_, hpre⟩
    have hhead := List.head?_dropWhile_not (fun key => decide (key ∉ s.filter.seen)) s.filter.order
    rw [show (s.filter.order.dropWhile fun key => decide (key ∉ s.filter.seen)) = oldest :: rest from hq] at hhead
    simpa using hhead

/-- **One pass.** The map has room, or the first queued key that it holds makes room. -/
theorem Sound.offer_cases (h : Sound s) (hpass : ¬ s.filter.Remembers (s.clock + o.elapsed) (eventKey o.event)) :
    (s.filter.seen.keys.length < s.filter.maxCapacity ∧
        (offer s o).filter.seen = s.filter.seen.insert (eventKey o.event) (s.clock + o.elapsed) ∧
        (offer s o).filter.order = s.filter.order ++ [eventKey o.event]) ∨
      ∃ pre oldest rest, s.filter.seen.keys.length = s.filter.maxCapacity ∧ s.filter.order = pre ++ oldest :: rest ∧
        queueFromHeld s.filter = oldest :: rest ∧ oldest ∈ s.filter.seen ∧ (∀ key ∈ pre, key ∉ s.filter.seen) ∧
        (offer s o).filter.seen =
          (s.filter.seen.erase oldest).insert (eventKey o.event) (s.clock + o.elapsed) ∧
        (offer s o).filter.order = rest ++ [eventKey o.event] := by
  obtain ⟨hseen, horder, -⟩ := offer_passed hpass
  by_cases hfull : s.filter.maxCapacity ≤ s.filter.seen.keys.length
  · obtain ⟨pre, oldest, rest, hsplit, hqueue, hmem, hpre⟩ := h.exists_oldest hfull
    have hlength := le_antisymm h.size hfull
    have hevict := Eviction.evict_eq hlength h.positive hqueue
    refine Or.inr ⟨pre, oldest, rest, hlength, hsplit, hqueue, hmem, hpre, ?_, ?_⟩
    · rw [hseen, hevict]
    · rw [horder, hevict]
  · rw [not_le] at hfull
    refine Or.inl ⟨hfull, ?_, ?_⟩
    · rw [hseen, Eviction.evict_of_lt hfull]
    · rw [horder, Eviction.evict_of_lt hfull]

/-- the key that passes was not held, or is the oldest, or passed so long ago that no key before it is within its TTL -/
theorem Sound.expired_before (h : Sound s) {now t : ℕ} {key other : String} (hpass : ¬ s.filter.Remembers now other)
    (hkey : s.filter.seen.lookup key = some t) (hother : other ∈ s.filter.seen) (hsince : other ∈ since s.passed key) :
    s.filter.ttl ≤ now - t := by
  obtain ⟨t', ht'⟩ := Option.isSome_iff_exists.1 (AList.lookup_isSome.2 hother)
  have hle := lastPassed_le h.sorted hsince (h.stamped key t hkey) (h.stamped other t' ht')
  have hold : ¬ now - t' < s.filter.ttl := fun hlt => hpass ⟨t', ht', hlt⟩
  omega

/-- the keys that passed after an overtaken one, with the one that passes now, are as many as the capacity -/
theorem Sound.overtaken_card (h : Sound s) {now t : ℕ} {oldest other : String}
    (hfull : s.filter.seen.keys.length = s.filter.maxCapacity) (hmem : oldest ∈ s.filter.seen)
    (hpass : ¬ s.filter.Remembers now other) (hne : oldest ≠ other) (ht : s.filter.seen.lookup oldest = some t)
    (hlive : now - t < s.filter.ttl)
    (hovertaken : ∀ key ∈ s.filter.seen, key ≠ oldest → key ∈ since s.passed oldest) :
    s.filter.maxCapacity ≤ (insert other (since s.passed oldest).toFinset).card := by
  have hnew : other ∉ s.filter.seen := by
    intro hother
    have hold := h.expired_before hpass ht hother (hovertaken other hother hne.symm)
    omega
  have hsub : insert other (s.filter.seen.keys.toFinset.erase oldest) ⊆
      insert other (since s.passed oldest).toFinset := by
    apply Finset.insert_subset_insert
    intro key hkey
    obtain ⟨hkey', hmem'⟩ := Finset.mem_erase.1 hkey
    exact List.mem_toFinset.2 (hovertaken key (AList.mem_keys.2 (List.mem_toFinset.1 hmem')) hkey')
  have hcard : (insert other (s.filter.seen.keys.toFinset.erase oldest)).card = s.filter.maxCapacity := by
    have hpositive := h.positive
    rw [Finset.card_insert_of_notMem, Finset.card_erase_of_mem, List.toFinset_card_of_nodup s.filter.seen.keys_nodup,
      hfull]
    · omega
    · exact List.mem_toFinset.2 (AList.mem_keys.1 hmem)
    · intro hmem'
      exact hnew (AList.mem_keys.2 (List.mem_toFinset.1 (Finset.mem_of_mem_erase hmem')))
  rw [← hcard]
  exact Finset.card_le_card hsub

/-- where some held key did not pass after the oldest, they are fewer -/
theorem Sound.not_overtaken_card (h : Sound s) {now t : ℕ} {oldest key j : String}
    (hfull : s.filter.seen.keys.length = s.filter.maxCapacity) (ht : s.filter.seen.lookup oldest = some t)
    (hclock : s.clock ≤ now) (hlive : now - t < s.filter.ttl) (hkey : key ∈ s.filter.seen) (hne : key ≠ oldest)
    (hbefore : key ∉ since s.passed oldest) :
    (insert j (since s.passed oldest).toFinset).card < s.filter.maxCapacity := by
  have hmem : oldest ∈ s.filter.seen := AList.lookup_isSome.1 (by rw [ht]; rfl)
  have hsub : (since s.passed oldest).toFinset ⊆ (s.filter.seen.keys.toFinset.erase oldest).erase key := by
    intro k hk
    have hk' := List.mem_toFinset.1 hk
    have hheld := h.followed oldest t ht (by omega) k hk'
    refine Finset.mem_erase.2 ⟨fun heq => hbefore (heq ▸ hk'), Finset.mem_erase.2 ⟨fun heq => ?_, ?_⟩⟩
    · exact notMem_since s.passed oldest (heq ▸ hk')
    · exact List.mem_toFinset.2 (AList.mem_keys.1 hheld)
  have hcard : ((s.filter.seen.keys.toFinset.erase oldest).erase key).card = s.filter.maxCapacity - 1 - 1 := by
    rw [Finset.card_erase_of_mem, Finset.card_erase_of_mem, List.toFinset_card_of_nodup s.filter.seen.keys_nodup, hfull]
    · exact List.mem_toFinset.2 (AList.mem_keys.1 hmem)
    · exact Finset.mem_erase.2 ⟨hne, List.mem_toFinset.2 (AList.mem_keys.1 hkey)⟩
  have htwo : 1 < s.filter.maxCapacity := by
    rw [← hfull, ← List.toFinset_card_of_nodup s.filter.seen.keys_nodup, Finset.one_lt_card]
    exact ⟨key, List.mem_toFinset.2 (AList.mem_keys.1 hkey), oldest, List.mem_toFinset.2 (AList.mem_keys.1 hmem), hne⟩
  have hle := (Finset.card_insert_le j (since s.passed oldest).toFinset).trans
    (Nat.add_le_add_right (Finset.card_le_card hsub) 1)
  omega

end Held

/-! ## The window, one offer on -/

section Step

variable {s : Logged} {o : Offer}

theorem dropped_iff (d : EventDeduplicator) (now : ℕ) (utc : DateTime) (event : ChainEvent) :
    (filterOne now utc d event).2 = none ↔ d.Remembers now (eventKey event) := by
  rcases filterOne_snd now utc d event with ⟨hremembers, hnone⟩ | ⟨hnot, ws, hsome⟩
  · exact ⟨fun _ => hremembers, fun _ => hnone⟩
  · rw [hsome]
    exact ⟨fun h => (by cases h), fun h => absurd h hnot⟩

/-- a key that is in its window after another one passed was in it before, and remembered -/
theorem Window.before (hw : Window s) (hpass : ¬ s.filter.Remembers (s.clock + o.elapsed) (eventKey o.event))
    {event : ChainEvent} {now t : ℕ} (hne : eventKey event ≠ eventKey o.event) (hclock : (offer s o).clock ≤ now)
    (hlast : lastPassed (offer s o).passed (eventKey event) = some t) (hlive : now - t < (offer s o).filter.ttl)
    (hcard : (since (offer s o).passed (eventKey event)).toFinset.card < (offer s o).filter.maxCapacity) :
    s.filter.Remembers now (eventKey event) ∧ lastPassed s.passed (eventKey event) = some t ∧
      (insert (eventKey o.event) (since s.passed (eventKey event)).toFinset).card < s.filter.maxCapacity := by
  obtain ⟨-, -, hcapacity, httl, hpassed⟩ := offer_passed hpass
  rw [hpassed, lastPassed_cons, if_neg hne.symm] at hlast
  rw [hpassed, since_cons, if_neg hne.symm, List.toFinset_cons, hcapacity] at hcard
  rw [httl] at hlive
  have hfewer := lt_of_le_of_lt (Finset.card_le_card (Finset.subset_insert (eventKey o.event) _)) hcard
  have hdropped := hw event 0 now t ((Nat.le_add_right _ _).trans hclock) hlast hlive hfewer
  exact ⟨(dropped_iff _ _ _ _).1 hdropped, hlast, hcard⟩

/-- the key that passes is remembered -/
theorem remembers_self (hpass : ¬ s.filter.Remembers (s.clock + o.elapsed) (eventKey o.event)) {now t : ℕ}
    (hlast : lastPassed (offer s o).passed (eventKey o.event) = some t) (hlive : now - t < (offer s o).filter.ttl) :
    (offer s o).filter.Remembers now (eventKey o.event) := by
  obtain ⟨hseen, -, -, -, hpassed⟩ := offer_passed hpass
  rw [hpassed, lastPassed_cons, if_pos rfl] at hlast
  cases hlast
  exact ⟨_, by rw [hseen, AList.lookup_insert], hlive⟩

/-- the window survives a pass that leaves the keys in their window alone -/
theorem Window.offer_of_kept (hw : Window s) (hpass : ¬ s.filter.Remembers (s.clock + o.elapsed) (eventKey o.event))
    (hkept : ∀ key now t, key ≠ eventKey o.event → s.clock + o.elapsed ≤ now → s.filter.seen.lookup key = some t →
      now - t < s.filter.ttl → (insert (eventKey o.event) (since s.passed key).toFinset).card < s.filter.maxCapacity →
      (offer s o).filter.seen.lookup key = some t) : Window (offer s o) := by
  obtain ⟨-, -, -, httl, -⟩ := offer_passed hpass
  intro event utc now t hclock hlast hlive hcard
  rw [dropped_iff]
  by_cases hself : eventKey event = eventKey o.event
  · rw [hself] at hlast ⊢
    exact remembers_self hpass hlast hlive
  · obtain ⟨⟨t', ht', hlt⟩, -, hfewer⟩ := hw.before hpass hself hclock hlast hlive hcard
    exact ⟨t', hkept _ now t' hself hclock ht' hlt hfewer, by rw [httl]; exact hlt⟩

/-- an event that is dropped changes nothing -/
theorem Window.offer_dropped (hw : Window s) (h : s.filter.Remembers (s.clock + o.elapsed) (eventKey o.event)) :
    Window (offer s o) := by
  obtain ⟨hseen, -, hcapacity, httl, hpassed⟩ := DedupWindow.offer_dropped h
  intro event utc now t hclock hlast hlive hcard
  rw [hpassed] at hlast hcard
  rw [httl] at hlive
  rw [hcapacity] at hcard
  have hdropped := hw event utc now t ((Nat.le_add_right _ _).trans hclock) hlast hlive hcard
  rw [dropped_iff] at hdropped ⊢
  obtain ⟨t', ht', hlt⟩ := hdropped
  exact ⟨t', by rw [hseen, ht'], by rw [httl]; exact hlt⟩

/-- where the window holds after the pass, an evicted key that is within its TTL was followed by all the others -/
theorem Sound.overtaken_of_window (h : Sound s)
    (hpass : ¬ s.filter.Remembers (s.clock + o.elapsed) (eventKey o.event)) {oldest key : String} {t : ℕ}
    (hfull : s.filter.seen.keys.length = s.filter.maxCapacity) (hself : oldest ≠ eventKey o.event)
    (hgone : (offer s o).filter.seen.lookup oldest = none) (hafter : Window (offer s o))
    (ht : s.filter.seen.lookup oldest = some t) (hlive : s.clock + o.elapsed - t < s.filter.ttl)
    (hkey : key ∈ s.filter.seen) (hne : key ≠ oldest) : key ∈ since s.passed oldest := by
  obtain ⟨-, -, hcapacity, httl, hpassed⟩ := offer_passed hpass
  by_contra hbefore
  have hfewer := h.not_overtaken_card (j := eventKey o.event) hfull ht (Nat.le_add_right _ _) hlive hkey hne hbefore
  -- an event with the evicted key would have to be dropped
  obtain ⟨event, hevent⟩ := h.named _ (mem_of_lastPassed (h.stamped oldest t ht))
  have hevent' : eventKey event = oldest := hevent
  have hlast : lastPassed (offer s o).passed (eventKey event) = some t := by
    rw [hpassed, lastPassed_cons, hevent', if_neg (Ne.symm hself)]
    exact h.stamped oldest t ht
  have hcard : (since (offer s o).passed (eventKey event)).toFinset.card < (offer s o).filter.maxCapacity := by
    rw [hpassed, since_cons, hevent', if_neg (Ne.symm hself), List.toFinset_cons, hcapacity]
    exact hfewer
  have hdropped := hafter event 0 (s.clock + o.elapsed) t le_rfl hlast (by rw [httl]; exact hlive) hcard
  obtain ⟨t', ht', -⟩ := (dropped_iff _ _ _ _).1 hdropped
  rw [hevent', hgone] at ht'
  cases ht'

/-- a key in its window is not the one that makes room -/
theorem Sound.ne_oldest (h : Sound s) (hpass : ¬ s.filter.Remembers (s.clock + o.elapsed) (eventKey o.event))
    {pre rest : List String} {oldest key : String} {now t : ℕ}
    (hfull : s.filter.seen.keys.length = s.filter.maxCapacity) (hsplit : s.filter.order = pre ++ oldest :: rest)
    (hqueue : queueFromHeld s.filter = oldest :: rest) (hmem : oldest ∈ s.filter.seen) (hovertaken : Overtaken s o)
    (hself : key ≠ eventKey o.event) (hclock : s.clock + o.elapsed ≤ now) (ht : s.filter.seen.lookup key = some t)
    (hlive : now - t < s.filter.ttl)
    (hfewer : (insert (eventKey o.event) (since s.passed key).toFinset).card < s.filter.maxCapacity) : key ≠ oldest := by
  intro heq
  rw [heq] at ht hself hfewer
  rcases hovertaken hpass hfull.ge oldest rest hqueue with hown | hexpired | hfollowed
  · exact hself hown
  · have hold := hexpired t ht
    omega
  · rw [← since_eq h.recent hsplit] at hfollowed
    have hmany := h.overtaken_card hfull hmem hpass hself ht (by omega) hfollowed
    omega

/-- **One offer.** -/
theorem window_offer_iff (h : Sound s) (hw : Window s) (o : Offer) : Window (offer s o) ↔ Overtaken s o := by
  by_cases hpass : s.filter.Remembers (s.clock + o.elapsed) (eventKey o.event)
  · exact ⟨fun _ hnot => absurd hpass hnot, fun _ => hw.offer_dropped hpass⟩
  rcases h.offer_cases hpass with ⟨hroom, hseen, -⟩ | ⟨pre, oldest, rest, hfull, hsplit, hqueue, hmem, -, hseen, -⟩
  · -- nothing is evicted
    refine ⟨fun _ _ hfull => absurd hroom (not_lt.2 hfull), fun _ => hw.offer_of_kept hpass ?_⟩
    intro key now t hself _ ht _ _
    rw [hseen, AList.lookup_insert_ne hself, ht]
  · constructor
    · intro hafter _ _ oldest' rest' hqueue'
      cases hqueue.symm.trans hqueue'
      by_cases hself : oldest = eventKey o.event
      · exact Or.inl hself
      have hgone : (offer s o).filter.seen.lookup oldest = none := by
        rw [hseen, AList.lookup_insert_ne hself, AList.lookup_erase]
      obtain ⟨t, ht⟩ := Option.isSome_iff_exists.1 (AList.lookup_isSome.2 hmem)
      by_cases hlive : s.clock + o.elapsed - t < s.filter.ttl
      · refine Or.inr (Or.inr fun key hkey hne => ?_)
        rw [← since_eq h.recent hsplit]
        exact h.overtaken_of_window hpass hfull hself hgone hafter ht hlive hkey hne
      · refine Or.inr (Or.inl fun t' ht' => ?_)
        cases ht.symm.trans ht'
        exact not_lt.1 hlive
    · intro hovertaken
      apply hw.offer_of_kept hpass
      intro key now t hself hclock ht hlive hfewer
      have hother := h.ne_oldest hpass hfull hsplit hqueue hmem hovertaken hself hclock ht hlive hfewer
      rw [hseen, AList.lookup_insert_ne hself, AList.lookup_erase_ne hother, ht]

/-- what a pass adds to the log -/
theorem Sound.logged (h : Sound s) (o : Offer) :
    (((eventKey o.event, s.clock + o.elapsed) :: s.passed).Pairwise fun p q => q.2 ≤ p.2) ∧
      (∀ p ∈ (eventKey o.event, s.clock + o.elapsed) :: s.passed, p.2 ≤ s.clock + o.elapsed) ∧
      ∀ p ∈ (eventKey o.event, s.clock + o.elapsed) :: s.passed, ∃ event, eventKey event = p.1 := by
  have hclocked : ∀ p ∈ s.passed, p.2 ≤ s.clock + o.elapsed := fun p hp => (h.clocked p hp).trans (Nat.le_add_right _ _)
  refine ⟨List.pairwise_cons.2 ⟨hclocked, h.sorted⟩, fun p hp => ?_, fun p hp => ?_⟩
  · rcases List.mem_cons.1 hp with rfl | hold
    · exact le_rfl
    · exact hclocked p hold
  · rcases List.mem_cons.1 hp with rfl | hold
    · exact ⟨o.event, rfl⟩
    · exact h.named p hold

/-- the map and the queue, once there is room for the key that passes -/
structure Roomy (s : Logged) (o : Offer) (seen : AList (fun _ : String => ℕ)) (order : List String) : Prop where
  size : seen.keys.length < s.filter.maxCapacity
  stamped : ∀ key t, seen.lookup key = some t → lastPassed s.passed key = some t
  queued : ∀ key ∈ seen, key ∈ order
  recent : order.reverse <+: s.passed.map Prod.fst
  followed : ∀ key t, seen.lookup key = some t → s.clock + o.elapsed - t < s.filter.ttl →
    ∀ other ∈ since s.passed key, other = eventKey o.event ∨ other ∈ seen

/-- with room, the pass is added -/
theorem Roomy.sound {seen : AList (fun _ : String => ℕ)} {order : List String} (hroom : Roomy s o seen order)
    (h : Sound s) (hpass : ¬ s.filter.Remembers (s.clock + o.elapsed) (eventKey o.event))
    (hseen : (DedupWindow.offer s o).filter.seen = seen.insert (eventKey o.event) (s.clock + o.elapsed))
    (horder : (DedupWindow.offer s o).filter.order = order ++ [eventKey o.event]) : Sound (DedupWindow.offer s o) := by
  obtain ⟨-, -, hcapacity, httl, hpassed⟩ := offer_passed hpass
  obtain ⟨hsorted, hclocked, hnamed⟩ := h.logged o
  constructor
  · rw [hcapacity]
    exact h.positive
  · rw [hseen, hcapacity, AList.keys_insert, List.length_cons]
    have hle := List.length_erase_le (l := seen.keys) (a := eventKey o.event)
    have hlt := hroom.size
    omega
  · intro key t ht
    rw [hseen] at ht
    rw [hpassed, lastPassed_cons]
    split_ifs with hself
    · subst hself
      rwa [AList.lookup_insert] at ht
    · rw [AList.lookup_insert_ne (Ne.symm hself)] at ht
      exact hroom.stamped key t ht
  · intro key hkey
    rw [hseen, AList.mem_insert] at hkey
    rw [horder, List.mem_append, List.mem_singleton]
    rcases hkey with hself | hold
    · exact Or.inr hself
    · exact Or.inl (hroom.queued key hold)
  · rw [horder, hpassed, List.reverse_append, List.map_cons]
    exact (List.prefix_cons_inj _).2 hroom.recent
  · rw [hpassed]
    exact hsorted
  · rw [hpassed]
    exact hclocked
  · rw [hpassed]
    exact hnamed
  · intro key t ht hlive other hother
    rw [hseen] at ht ⊢
    rw [hpassed, since_cons] at hother
    rw [AList.mem_insert]
    split_ifs at hother with hself
    · cases hother
    · rcases List.mem_cons.1 hother with hnew | hold
      · exact Or.inl hnew
      · rw [AList.lookup_insert_ne (Ne.symm hself)] at ht
        rw [httl] at hlive
        exact hroom.followed key t ht hlive other hold

/-- a map with room -/
theorem Sound.roomy (h : Sound s) (o : Offer) (hlt : s.filter.seen.keys.length < s.filter.maxCapacity) :
    Roomy s o s.filter.seen s.filter.order := by
  refine ⟨hlt, h.stamped, h.queued, h.recent, fun key t ht hlive other hother => ?_⟩
  exact Or.inr (h.followed key t ht (lt_of_le_of_lt (Nat.sub_le_sub_right (Nat.le_add_right _ _) t) hlive) other hother)

/-- a full map without the first queued key that it holds -/
theorem Sound.roomy_erase (h : Sound s) (hovertaken : Overtaken s o)
    (hpass : ¬ s.filter.Remembers (s.clock + o.elapsed) (eventKey o.event))
    (hfull : s.filter.seen.keys.length = s.filter.maxCapacity) {pre rest : List String} {oldest : String}
    (hsplit : s.filter.order = pre ++ oldest :: rest) (hqueue : queueFromHeld s.filter = oldest :: rest)
    (hmem : oldest ∈ s.filter.seen) (hpre : ∀ key ∈ pre, key ∉ s.filter.seen) :
    Roomy s o (s.filter.seen.erase oldest) rest := by
  have hkept : ∀ key t, (s.filter.seen.erase oldest).lookup key = some t →
      key ≠ oldest ∧ s.filter.seen.lookup key = some t := by
    intro key t ht
    have hne : key ≠ oldest := by
      rintro rfl
      rw [AList.lookup_erase] at ht
      cases ht
    rw [AList.lookup_erase_ne hne] at ht
    exact ⟨hne, ht⟩
  refine ⟨?_, fun key t ht => h.stamped key t (hkept key t ht).2, fun key hkey => ?_, ?_, ?_⟩
  · have hpositive := h.positive
    rw [AList.keys_erase, List.length_erase_of_mem (AList.mem_keys.1 hmem)]
    omega
  · obtain ⟨hne, hold⟩ := AList.mem_erase.1 hkey
    have hqueued := h.queued key hold
    rw [hsplit, List.mem_append, List.mem_cons] at hqueued
    rcases hqueued with hearlier | hoff | hlater
    · exact absurd hold (hpre key hearlier)
    · exact absurd hoff hne
    · exact hlater
  · refine List.IsPrefix.trans ?_ h.recent
    rw [hsplit, List.reverse_append, List.reverse_cons, List.append_assoc]
    exact List.prefix_append _ _
  · intro key t hlookup hlive other hother
    obtain ⟨hne, ht⟩ := hkept key t hlookup
    have hheld := h.followed key t ht (by omega) other hother
    by_cases hgone : other = oldest
    · -- the evicted key passed after this one, and did not expire, so it was overtaken by it
      subst hgone
      rcases hovertaken hpass hfull.ge other rest hqueue with hown | hexpired | hfollowed
      · exact Or.inl hown
      · obtain ⟨t', ht'⟩ := Option.isSome_iff_exists.1 (AList.lookup_isSome.2 hheld)
        have hle := lastPassed_le h.sorted hother (h.stamped key t ht) (h.stamped other t' ht')
        have hlong := hexpired t' ht'
        omega
      · have hkey : key ∈ s.filter.seen := AList.lookup_isSome.1 (by rw [ht]; rfl)
        have hback := hfollowed key hkey hne
        rw [← since_eq h.recent hsplit] at hback
        exact absurd hback (since_asymm hother)
    · exact Or.inr (AList.mem_erase.2 ⟨hgone, hheld⟩)

/-- **What an offer keeps.** -/
theorem Sound.offer (h : Sound s) (hovertaken : Overtaken s o) : Sound (DedupWindow.offer s o) := by
  by_cases hpass : s.filter.Remembers (s.clock + o.elapsed) (eventKey o.event)
  · obtain ⟨hseen, horder, hcapacity, httl, hpassed⟩ := offer_dropped hpass
    constructor
    · rw [hcapacity]
      exact h.positive
    · rw [hseen, hcapacity]
      exact h.size
    · rw [hseen, hpassed]
      exact h.stamped
    · rw [hseen, horder]
      exact h.queued
    · rw [horder, hpassed]
      exact h.recent
    · rw [hpassed]
      exact h.sorted
    · rw [hpassed]
      exact fun p hp => (h.clocked p hp).trans (Nat.le_add_right _ _)
    · rw [hpassed]
      exact h.named
    · rw [hseen, hpassed, httl]
      intro key t ht hlive
      exact h.followed key t ht (lt_of_le_of_lt (Nat.sub_le_sub_right (Nat.le_add_right _ _) t) hlive)
  · rcases h.offer_cases hpass with
      ⟨hlt, hseen, horder⟩ | ⟨pre, oldest, rest, hfull, hsplit, hqueue, hmem, hpre, hseen, horder⟩
    · exact (h.roomy o hlt).sound h hpass hseen horder
    · exact (h.roomy_erase hovertaken hpass hfull hsplit hqueue hmem hpre).sound h hpass hseen horder

end Step

/-! ## Runs -/

theorem sound_start (maxCapacity ttl : ℕ) : Sound (start maxCapacity ttl) := by
  constructor
  · exact lt_of_lt_of_le Nat.zero_lt_one (le_max_right _ _)
  · exact Nat.zero_le _
  · intro key t ht
    cases ht
  · intro key hkey
    cases hkey
  · exact List.nil_prefix
  · exact List.Pairwise.nil
  · intro p hp
    cases hp
  · intro p hp
    cases hp
  · intro key t ht
    cases ht

/-- **The dedup window, exactly.** For every capacity, TTL and run of offers at non-decreasing times, a key is dropped as
long as it is in its window, in every state of the run, if and only if each key that makes room is the one that passes, or
has expired, or was followed by every other key that the map holds. -/
theorem dedup_window_iff (maxCapacity ttl : ℕ) (offers : List Offer) :
    Always offer Window (start maxCapacity ttl) offers ↔ Steps offer Overtaken (start maxCapacity ttl) offers := by
  have hstart : Window (start maxCapacity ttl) := by
    intro event utc now t _ hlast
    cases hlast
  have hall : Steps offer (fun _ _ => True) (start maxCapacity ttl) offers := steps_of_mem fun _ _ => trivial
  exact always_iff_steps_kept (J := Sound) (E := fun _ _ => True) (fun s o hs _ _ hc => hs.offer hc)
    (fun s o hs _ hw => window_offer_iff hs hw o) hall (sound_start maxCapacity ttl) hstart

/-- a batch, offer by offer: the later events come at the same time -/
def offersOf (utc : ℕ → DateTime) : ℕ → ℕ → List ChainEvent → List Offer
  | _, _, [] => []
  | i, elapsed, event :: events => ⟨elapsed, utc i, event⟩ :: offersOf utc (i + 1) 0 events

/-- **A batch is a run of offers.** -/
theorem filter_eq_run (utc : ℕ → DateTime) (elapsed i : ℕ) (s : Logged) (events : List ChainEvent) :
    (filterFrom (s.clock + elapsed) utc i s.filter events).1 = (run offer s (offersOf utc i elapsed events)).filter := by
  induction events generalizing s i elapsed with
  | nil => rfl
  | cons event events ih => exact ih 0 (i + 1) (offer s ⟨elapsed, utc i, event⟩)

/-! ## A key that expired and passed again -/

/-- a large transfer, `elapsed` nanoseconds after the last event -/
def transferAfter (elapsed : ℕ) (txid : String) : Offer :=
  ⟨elapsed, 0, { Pipeline.mempoolTransfer with txid := some txid }⟩

/-- `a` expires and passes again, and two other transfers follow -/
def repass : List Offer :=
  [transferAfter 0 "a", transferAfter 0 "b", transferAfter 10 "a", transferAfter 0 "c", transferAfter 0 "d"]

/-- **The key is forgotten.** With three places, two keys passed after `a`, and `a` passes again within its TTL: its old
place in the queue made room. -/
theorem repassed_key_forgotten :
    (run offer (start 3 10) repass).passed.map Prod.fst =
        ["LargeTransfer:tx:d", "LargeTransfer:tx:c", "LargeTransfer:tx:a", "LargeTransfer:tx:b", "LargeTransfer:tx:a"] ∧
      (run offer (start 3 10) (repass ++ [transferAfter 0 "a"])).filter.passedCount = 6 ∧
      ¬ Always offer Window (start 3 10) repass := by
  refine ⟨by decide +kernel, by decide +kernel, ?_⟩
  intro halways
  have hdropped := always_last halways (transferAfter 0 "a").event 0 10 10 (by decide +kernel) (by decide +kernel)
    (by decide +kernel) (by decide +kernel)
  rw [dropped_iff, ← remembers_iff] at hdropped
  revert hdropped
  decide +kernel

end ObsChain.DedupWindow
