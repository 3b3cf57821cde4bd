/-
Is the deduplicator's state consistent, and its memory bounded?

The map of remembered keys, the map of witnesses and the order queue are written on different branches. A key is queued on
every pass, and the queue is only shortened when the map is full: a key that expired and passes again is queued again while
the map stays as it is.

- `Consistent`: the map is within the capacity, what it holds is queued, and what has witnesses is held.
- `dedup_consistent`: any filter calls, at any times, keep that; the eviction loop ends with room, and every event counts.
- `Requeues`: an event passes while its expired key is still in the map, and makes no room by its own key.
- `in_step_iff`: the queue lists the keys of the map, each once, in every state of a run exactly when no event requeues.
- `queue_bounded_iff`: some bound holds of all runs exactly when there is one place only; runs that requeue nothing stay
  within the capacity.
- `queue_outgrows_every_bound`: with two places, a key that keeps expiring.
-/
import Mathlib.Tactic
import Mathlib.Data.List.AList
import ObsChain.Core.Trace
import ObsChain.Core.Eviction
import ObsChain.Pipeline.Dedup
import ObsChain.Pipeline.DedupWindow

namespace ObsChain.DedupState

open Trace EventDeduplicator DedupWindow Eviction

/-- one call of `filter`: when it is made, and the batch -/
structure FilterCall where
  now : ℕ
  utc : ℕ → DateTime
  events : List ChainEvent

def call (d : EventDeduplicator) (c : FilterCall) : EventDeduplicator := (filter c.now c.utc d c.events).1

structure Consistent (d : EventDeduplicator) : Prop where
  positive : 0 < d.maxCapacity
  bounded : d.seen.keys.length ≤ d.maxCapacity
  queued : Queued d.seen d.order
  witnessed : ∀ key ∈ d.witnesses, key ∈ d.seen

/-! ## One event -/

section Step

variable {d : EventDeduplicator}

theorem mem_pushWitness {witnesses : AList (fun _ : String => List ObservationWitness)} {key k : String}
    {w : ObservationWitness} (h : k ∈ pushWitness witnesses key w) : k = key ∨ k ∈ witnesses :=
  (AList.mem_insert witnesses).1 h

/-- the loop forgets keys and their witnesses together -/
theorem witnessed_evict (maxCapacity : ℕ) {seen : AList (fun _ : String => ℕ)}
    {witnesses : AList (fun _ : String => List ObservationWitness)} (order : List String)
    (h : ∀ key ∈ witnesses, key ∈ seen) : ∀ key ∈ (EventDeduplicator.evict maxCapacity seen witnesses order).2.1,
      key ∈ (EventDeduplicator.evict maxCapacity seen witnesses order).1 := by
  induction order generalizing seen witnesses with
  | nil => exact h
  | cons oldest rest ih =>
    rw [EventDeduplicator.evict]
    split_ifs
    · apply ih
      intro key hkey
      obtain ⟨hne, hmem⟩ := AList.mem_erase.1 hkey
      exact AList.mem_erase.2 ⟨hne, h key hmem⟩
    · exact h

theorem mem_of_remembers {now : ℕ} {key : String} (h : d.Remembers now key) : key ∈ d.seen := by
  obtain ⟨seenAt, hlookup, -⟩ := h
  exact AList.lookup_isSome.1 (by rw [hlookup]; rfl)

/-- **The loop ends with room.** -/
theorem Consistent.room (h : Consistent d) :
    (EventDeduplicator.evict d.maxCapacity d.seen d.witnesses d.order).1.keys.length < d.maxCapacity := by
  rw [(evict_eq_evict d.maxCapacity d.seen d.witnesses d.order).1]
  exact h.queued.room h.positive

/-- **One event keeps the state consistent.** -/
theorem Consistent.filterOne (h : Consistent d) (now : ℕ) (utc : DateTime) (event : ChainEvent) :
    Consistent (filterOne now utc d event).1 := by
  unfold EventDeduplicator.filterOne
  by_cases hr : d.remembers now (eventKey event) = true
  · -- a duplicate: its key is held, and gets a witness
    rw [if_pos hr]
    have hheld := mem_of_remembers ((remembers_iff d now _).1 hr)
    refine ⟨h.positive, h.bounded, h.queued, ?_⟩
    cases event.source with
    | none => exact h.witnessed
    | some src =>
      intro key hkey
      rcases mem_pushWitness hkey with rfl | hold
      · exact hheld
      · exact h.witnessed key hold
  · rw [if_neg hr]
    have hroom := h.room
    have hwitnessed := witnessed_evict d.maxCapacity d.order h.witnessed
    obtain ⟨hseen, horder⟩ := evict_eq_evict d.maxCapacity d.seen d.witnesses d.order
    refine ⟨h.positive, ?_, ?_, ?_⟩
    · have hlength : ∀ m : AList (fun _ : String => ℕ), (m.insert (eventKey event) now).keys.length ≤ m.keys.length + 1 := by
        intro m
        rw [AList.keys_insert, List.length_cons]
        exact Nat.succ_le_succ List.length_erase_le
      exact (hlength _).trans hroom
    · dsimp only
      rw [hseen, horder]
      exact (h.queued.evict d.maxCapacity).insert (eventKey event) now
    · intro key hkey
      dsimp only at hkey ⊢
      rw [AList.mem_insert]
      cases hsource : event.source with
      | none =>
        rw [hsource] at hkey
        exact .inr (hwitnessed key hkey)
      | some src =>
        rw [hsource] at hkey
        rcases mem_pushWitness hkey with rfl | hold
        · exact .inl rfl
        · exact .inr (hwitnessed key hold)

/-- every event is counted once -/
theorem count_filterOne (now : ℕ) (utc : DateTime) (d : EventDeduplicator) (event : ChainEvent) :
    (filterOne now utc d event).1.passedCount + (filterOne now utc d event).1.deduplicatedCount =
      d.passedCount + d.deduplicatedCount + 1 := by
  unfold EventDeduplicator.filterOne
  dsimp only
  split_ifs
  · exact (Nat.add_assoc _ _ _).symm
  · exact Nat.add_right_comm _ _ _

theorem maxCapacity_filterOne (now : ℕ) (utc : DateTime) (d : EventDeduplicator) (event : ChainEvent) :
    (filterOne now utc d event).1.maxCapacity = d.maxCapacity := by
  unfold EventDeduplicator.filterOne
  dsimp only
  split_ifs <;> rfl

end Step

/-! ## Calls -/

/-- consistent, and with every event counted -/
structure Accounted (maxCapacity events : ℕ) (d : EventDeduplicator) : Prop extends Consistent d where
  capacity : d.maxCapacity = maxCapacity
  counted : d.passedCount + d.deduplicatedCount = events

variable {maxCapacity events : ℕ} {d : EventDeduplicator}

theorem Accounted.filterFrom (h : Accounted maxCapacity events d) (now : ℕ) (utc : ℕ → DateTime) (i : ℕ)
    (batch : List ChainEvent) : Accounted maxCapacity (events + batch.length) (filterFrom now utc i d batch).1 := by
  induction batch generalizing d events i with
  | nil => exact h
  | cons event batch ih =>
    have hone : Accounted maxCapacity (events + 1) (filterOne now (utc i) d event).1 := by
      refine ⟨h.toConsistent.filterOne now (utc i) event, ?_, ?_⟩
      · rw [maxCapacity_filterOne, h.capacity]
      · rw [count_filterOne, h.counted]
    rw [List.length_cons, Nat.add_comm batch.length 1, ← Nat.add_assoc]
    exact ih hone (i + 1)

theorem Accounted.run (h : Accounted maxCapacity events d) (calls : List FilterCall) :
    Accounted maxCapacity (events + (calls.map fun c => c.events.length).sum) (run call d calls) := by
  induction calls generalizing d events with
  | nil => exact h
  | cons c calls ih =>
    rw [List.map_cons, List.sum_cons, ← Nat.add_assoc]
    exact ih (h.filterFrom c.now c.utc 0 c.events)

theorem accounted_new (maxCapacity ttl : ℕ) : Accounted (max maxCapacity 1) 0 (EventDeduplicator.new maxCapacity ttl) := by
  refine ⟨⟨lt_max_of_lt_right Nat.zero_lt_one, Nat.zero_le _, ?_, ?_⟩, rfl, rfl⟩
  · exact inStep_empty.queued
  · intro key hkey
    cases hkey

/-- **The deduplicator's state.** After any filter calls at any times, the map is within the capacity, remembered keys are
queued, keys with witnesses are remembered, the eviction loop ends with room, and every event was passed or dropped. A batch
that is cut short is a batch, so all of it is said of the state before each single event, too. -/
theorem dedup_consistent (maxCapacity ttl : ℕ) (calls : List FilterCall) :
    let d := run call (EventDeduplicator.new maxCapacity ttl) calls
    d.maxCapacity = max maxCapacity 1 ∧ d.seen.keys.length ≤ d.maxCapacity ∧ (∀ key ∈ d.seen, key ∈ d.order) ∧
      (∀ key ∈ d.witnesses, key ∈ d.seen) ∧
      (EventDeduplicator.evict d.maxCapacity d.seen d.witnesses d.order).1.keys.length < d.maxCapacity ∧
      d.passedCount + d.deduplicatedCount = (calls.map fun c => c.events.length).sum := by
  intro d
  have h : Accounted (max maxCapacity 1) (0 + (calls.map fun c => c.events.length).sum) d :=
    (accounted_new maxCapacity ttl).run calls
  rw [Nat.zero_add] at h
  exact ⟨h.capacity, h.bounded, h.queued, h.witnessed, h.toConsistent.room, h.counted⟩

/-! ## The order queue -/

/-- an event passes while its expired key is still in the map, and it is not the key that makes room -/
def Requeues (s : Logged) (o : Offer) : Prop :=
  ¬ s.filter.Remembers (s.clock + o.elapsed) (eventKey o.event) ∧ eventKey o.event ∈ s.filter.seen ∧
    ¬ (s.filter.maxCapacity ≤ s.filter.seen.keys.length ∧ s.filter.order.head? = some (eventKey o.event))

/-- the queue lists the remembered keys, each once -/
def QueueInStep (s : Logged) : Prop := InStep s.filter.seen s.filter.order

section Queue

variable {s : Logged} {o : Offer}

/-- **One offer.** -/
theorem inStep_offer_iff (hc : Consistent s.filter) (h : QueueInStep s) (o : Offer) :
    QueueInStep (offer s o) ↔ ¬ Requeues s o := by
  by_cases hr : s.filter.Remembers (s.clock + o.elapsed) (eventKey o.event)
  · obtain ⟨hseen, horder, -⟩ := offer_dropped hr
    rw [QueueInStep, hseen, horder]
    exact ⟨fun _ hrequeues => hrequeues.1 hr, fun _ => h⟩
  · obtain ⟨hseen, horder, -⟩ := offer_passed hr
    rw [QueueInStep, hseen, horder, Requeues, not_and_or, not_not, or_iff_right hr]
    rcases h.evict_cases hc.positive hc.bounded with ⟨hlt, heq⟩ | ⟨oldest, rest, hfront, hfull, heq⟩
    · -- there is room, and the key is new or queued again
      rw [heq, and_iff_left (fun hfull => absurd hfull.1 (not_le.2 hlt))]
      refine ⟨fun hstep hkey => not_inStep_requeued ((h.mem_iff _).2 hkey) _ hstep, fun hkey => h.insert hkey _⟩
    · have hrest : InStep (s.filter.seen.erase oldest) rest := by
        apply InStep.erase_front
        rw [← hfront]
        exact h
      rw [heq, hfront, List.head?_cons, Option.some.injEq, and_iff_right hfull.ge]
      refine ⟨fun hstep hkey => ?_, fun hkey => hrest.insert ?_ _⟩
      · apply not_inStep_requeued ((hrest.mem_iff _).2 _) _ hstep
        exact AList.mem_erase.2 ⟨fun heq => hkey.2 heq.symm, hkey.1⟩
      · intro hmem
        obtain ⟨hne, hheld⟩ := AList.mem_erase.1 hmem
        exact hkey ⟨hheld, fun heq => hne heq.symm⟩

theorem Consistent.offer (h : Consistent s.filter) (o : Offer) : Consistent (offer s o).filter :=
  h.filterOne (s.clock + o.elapsed) o.utc o.event

theorem consistent_start (maxCapacity ttl : ℕ) : Consistent (start maxCapacity ttl).filter :=
  (accounted_new maxCapacity ttl).toConsistent

/-- **In step, exactly** when no event requeues its key. -/
theorem in_step_iff (maxCapacity ttl : ℕ) (offers : List Offer) :
    Always offer QueueInStep (start maxCapacity ttl) offers ↔
      Steps offer (fun s o => ¬ Requeues s o) (start maxCapacity ttl) offers := by
  have hall : Steps offer (fun _ _ => True) (start maxCapacity ttl) offers := steps_of_mem fun _ _ => trivial
  exact always_iff_steps_inv (J := fun s => Consistent s.filter) (E := fun _ _ => True) (fun _ o h => h.offer o)
    (fun _ o hc _ h => inStep_offer_iff hc h o) hall (consistent_start maxCapacity ttl) inStep_empty

/-- a queue in step is within the capacity -/
theorem length_order_le (hc : Consistent s.filter) (h : QueueInStep s) : s.filter.order.length ≤ s.filter.maxCapacity :=
  calc
    s.filter.order.length = s.filter.seen.keys.length := h.length_eq
    _ ≤ s.filter.maxCapacity := hc.bounded

/-- with one place, a key in the map is the one that makes room -/
theorem not_requeues_of_one (hc : Consistent s.filter) (h : QueueInStep s) (hone : s.filter.maxCapacity = 1) (o : Offer) :
    ¬ Requeues s o := by
  rintro ⟨-, hkey, hfront⟩
  have hqueued : eventKey o.event ∈ s.filter.order := (h.mem_iff _).2 hkey
  have hlength := h.length_eq
  have hbounded := hc.bounded
  rw [hone] at hbounded hfront
  cases horder : s.filter.order with
  | nil =>
    rw [horder] at hqueued
    cases hqueued
  | cons oldest rest =>
    rw [horder, List.length_cons] at hlength
    have hrest : rest = [] := List.length_eq_zero_iff.1 (by omega)
    rw [horder, hrest, List.mem_singleton] at hqueued
    apply hfront
    rw [horder, List.head?_cons, hqueued]
    exact ⟨by omega, rfl⟩

end Queue

/-! ## One key for ever -/

/-- the map holds one key at most, and the queue has it `n` times -/
structure Lone (key : String) (n : ℕ) (s : Logged) : Prop where
  lone : ∀ k ∈ s.filter.seen, k = key
  clocked : ∀ t, s.filter.seen.lookup key = some t → t ≤ s.clock
  queue : s.filter.order = List.replicate n key
  room : 2 ≤ s.filter.maxCapacity

/-- after its TTL the key is queued again -/
theorem Lone.offer {key : String} {n : ℕ} {s : Logged} {o : Offer} (h : Lone key n s) (hkey : eventKey o.event = key)
    (hexpired : s.filter.ttl ≤ o.elapsed) : Lone key (n + 1) (offer s o) ∧ (DedupWindow.offer s o).filter.ttl = s.filter.ttl := by
  have hpass : ¬ s.filter.Remembers (s.clock + o.elapsed) (eventKey o.event) := by
    rintro ⟨t, ht, hlive⟩
    have := h.clocked t (hkey ▸ ht)
    omega
  have hsubset : s.filter.seen.keys ⊆ [key] := fun k hk => List.mem_singleton.2 (h.lone k (AList.mem_keys.2 hk))
  have hsmall : s.filter.seen.keys.length ≤ 1 := (List.subperm_of_subset s.filter.seen.keys_nodup hsubset).length_le
  obtain ⟨hseen, horder, hcapacity, httl, -⟩ := offer_passed hpass
  rw [Eviction.evict_of_lt (by have := h.room; omega)] at hseen horder
  refine ⟨⟨?_, ?_, ?_, hcapacity.symm ▸ h.room⟩, httl⟩
  · intro k hk
    rw [hseen, AList.mem_insert, hkey] at hk
    exact hk.elim id (h.lone k)
  · intro t ht
    rw [hseen, hkey, AList.lookup_insert] at ht
    cases ht
    exact le_refl _
  · rw [horder, h.queue, hkey, ← List.replicate_succ']

theorem lone_run {o : Offer} (n : ℕ) {maxCapacity ttl : ℕ} (hcapacity : 2 ≤ maxCapacity) (hexpired : ttl ≤ o.elapsed) :
    Lone (eventKey o.event) n (run offer (start maxCapacity ttl) (List.replicate n o)) ∧
      (run offer (start maxCapacity ttl) (List.replicate n o)).filter.ttl = ttl := by
  induction n with
  | zero =>
    refine ⟨⟨?_, ?_, rfl, hcapacity.trans (le_max_left _ _)⟩, rfl⟩
    · intro k hk
      cases hk
    · intro t ht
      cases ht
  | succ n ih =>
    obtain ⟨hlone, httl⟩ := ih
    rw [List.replicate_succ', run_append]
    obtain ⟨hnext, hsame⟩ := hlone.offer rfl (httl.trans_le hexpired)
    exact ⟨hnext, hsame.trans httl⟩

/-- **The queue's bound, exactly.** A deduplicator of some capacity and TTL has a bound that holds of its queue in all runs if
and only if it has one place. In any deduplicator, a run of events that do not requeue their keys keeps the queue within the
capacity. -/
theorem queue_bounded_iff (maxCapacity ttl : ℕ) :
    ((∃ bound, ∀ offers, (run offer (start maxCapacity ttl) offers).filter.order.length ≤ bound) ↔ maxCapacity ≤ 1) ∧
      ∀ offers, Steps offer (fun s o => ¬ Requeues s o) (start maxCapacity ttl) offers →
        Always offer (fun s => s.filter.order.length ≤ s.filter.maxCapacity) (start maxCapacity ttl) offers := by
  refine ⟨⟨?_, ?_⟩, ?_⟩
  · rintro ⟨bound, hbound⟩
    by_contra hcapacity
    rw [not_le] at hcapacity
    obtain ⟨hlone, -⟩ := lone_run (o := transferAfter ttl "a") (bound + 1) hcapacity (le_refl ttl)
    have hlength := hbound (List.replicate (bound + 1) (transferAfter ttl "a"))
    rw [hlone.queue, List.length_replicate] at hlength
    omega
  · intro hone
    refine ⟨1, fun offers => ?_⟩
    -- one place is kept by every step, so nothing is requeued and the queue stays in step
    have hkept : ∀ s o, Consistent s.filter ∧ QueueInStep s ∧ s.filter.maxCapacity = 1 →
        Consistent (offer s o).filter ∧ QueueInStep (offer s o) ∧ (offer s o).filter.maxCapacity = 1 := by
      rintro s o ⟨hc, h, hcapacity⟩
      refine ⟨hc.offer o, ?_, (maxCapacity_filterOne _ _ _ _).trans hcapacity⟩
      exact (inStep_offer_iff hc h o).2 (not_requeues_of_one hc h hcapacity o)
    obtain ⟨hconsistent, hstep, hcapacity⟩ :=
      run_inv_all hkept offers ⟨consistent_start maxCapacity ttl, inStep_empty, max_eq_right hone⟩
    exact (length_order_le hconsistent hstep).trans hcapacity.le
  · intro offers hsteps
    apply always_inv (I := fun s => Consistent s.filter ∧ QueueInStep s) (C := fun s o => ¬ Requeues s o) _ _ _ hsteps
    · rintro s o ⟨hc, h⟩ hkept
      exact ⟨hc.offer o, (inStep_offer_iff hc h o).2 hkept⟩
    · rintro s ⟨hc, h⟩
      exact length_order_le hc h
    · exact ⟨consistent_start maxCapacity ttl, inStep_empty⟩

/-- **No bound.** With two places and a TTL of 10 ns, a transfer that comes again every 10 ns is queued every time. -/
theorem queue_outgrows_every_bound :
    ¬ ∃ bound : ℕ → ℕ, ∀ maxCapacity ttl offers,
      (run offer (start maxCapacity ttl) offers).filter.order.length ≤ bound maxCapacity := by
  rintro ⟨bound, hbound⟩
  have hlength := hbound 2 10 (List.replicate (bound 2 + 1) (transferAfter 10 "a"))
  obtain ⟨hlone, -⟩ := lone_run (o := transferAfter 10 "a") (bound 2 + 1) (le_refl 2) (le_refl 10)
  rw [hlone.queue, List.length_replicate] at hlength
  omega

end ObsChain.DedupState
