/-
The event deduplicator (`dedup.rs`).

The state is the deduplicator's: when each key was last let through, the witnesses seen for it, the order queue and the
two counters. `HashMap` is a finite map (`AList`); `Instant` is a monotonic count of nanoseconds, and its difference
saturates at zero. The wall clock is read once for each event of a batch, so `utc i` is the reading at the i-th.

`filter` handles a batch one event at a time: a key let through less than the TTL ago is dropped and only witnessed;
otherwise the oldest keys are evicted until there is room, and the event passes.
-/
import Mathlib.Tactic
import Mathlib.Data.List.AList
import ObsChain.Core.Eviction
import ObsChain.Domain.Event

namespace ObsChain

structure EventDeduplicator where
  seen : AList (fun _ : String => ℕ)
  witnesses : AList (fun _ : String => List ObservationWitness)
  order : List String
  maxCapacity : ℕ
  ttl : ℕ
  deduplicatedCount : ℕ
  passedCount : ℕ

namespace EventDeduplicator

def new (maxCapacity ttl : ℕ) : EventDeduplicator := ⟨∅, ∅, [], max maxCapacity 1, ttl, 0, 0⟩

def eventKey (event : ChainEvent) : String :=
  match event.txid with
  | some txid => event.eventType.debug ++ ":tx:" ++ txid
  | none =>
    match event.blockHash with
    | some blockHash => event.eventType.debug ++ ":block:" ++ blockHash
    | none =>
      match event.blockHeight with
      | some blockHeight => event.eventType.debug ++ ":height:" ++ toString blockHeight
      | none => event.eventType.debug ++ ":title:" ++ event.title

/-- the key is the event's identity text -/
theorem eventKey_eq_identityKey (event : ChainEvent) : eventKey event = event.identityKey := by
  unfold eventKey ChainEvent.identityKey
  cases event.txid <;> cases event.blockHash <;> cases event.blockHeight <;> rfl

/-- a key was let through less than the TTL ago -/
def Remembers (d : EventDeduplicator) (now : ℕ) (key : String) : Prop :=
  ∃ seenAt, d.seen.lookup key = some seenAt ∧ now - seenAt < d.ttl

def remembers (d : EventDeduplicator) (now : ℕ) (key : String) : Bool :=
  match d.seen.lookup key with
  | some seenAt => decide (now - seenAt < d.ttl)
  | none => false

theorem remembers_iff (d : EventDeduplicator) (now : ℕ) (key : String) :
    d.remembers now key = true ↔ d.Remembers now key := by
  unfold remembers Remembers
  cases d.seen.lookup key with
  | none => simp
  | some seenAt => simp

/-- `witnesses.entry(key).or_default().push(witness)` -/
def pushWitness (witnesses : AList (fun _ : String => List ObservationWitness)) (key : String)
    (witness : ObservationWitness) : AList (fun _ : String => List ObservationWitness) :=
  witnesses.insert key ((witnesses.lookup key).getD [] ++ [witness])

/-- the eviction loop: while the map is full the oldest key of the queue goes, and an empty queue ends it -/
def evict (maxCapacity : ℕ) (seen : AList (fun _ : String => ℕ))
    (witnesses : AList (fun _ : String => List ObservationWitness)) :
    List String → AList (fun _ : String => ℕ) × AList (fun _ : String => List ObservationWitness) × List String
  | [] => (seen, witnesses, [])
  | oldest :: rest =>
    if seen.keys.length ≥ maxCapacity then evict maxCapacity (seen.erase oldest) (witnesses.erase oldest) rest
    else (seen, witnesses, oldest :: rest)

/-- the keys that stay are those of the loop over the map alone -/
theorem evict_eq_evict (maxCapacity : ℕ) (seen : AList (fun _ : String => ℕ))
    (witnesses : AList (fun _ : String => List ObservationWitness)) (order : List String) :
    (evict maxCapacity seen witnesses order).1 = (Eviction.evict maxCapacity seen order).1 ∧
      (evict maxCapacity seen witnesses order).2.2 = (Eviction.evict maxCapacity seen order).2 := by
  induction order generalizing seen witnesses with
  | nil => exact ⟨rfl, rfl⟩
  | cons oldest rest ih =>
    rw [evict, Eviction.evict]
    split_ifs
    · exact ih (seen.erase oldest) (witnesses.erase oldest)
    · exact ⟨rfl, rfl⟩

/-- one event of a batch -/
def filterOne (now : ℕ) (utc : DateTime) (d : EventDeduplicator) (event : ChainEvent) :
    EventDeduplicator × Option ChainEvent :=
  let key := eventKey event
  let witness := event.source.map fun src => { source := src, observedAt := utc, metadata := none : ObservationWitness }
  if d.remembers now key then
    ({ d with
      witnesses := match witness with
        | some w => pushWitness d.witnesses key w
        | none => d.witnesses
      deduplicatedCount := d.deduplicatedCount + 1 }, none)
  else
    let room := evict d.maxCapacity d.seen d.witnesses d.order
    ({ d with
      seen := room.1.insert key now
      witnesses := match witness with
        | some w => pushWitness room.2.1 key w
        | none => room.2.1
      order := room.2.2 ++ [key]
      passedCount := d.passedCount + 1 },
      some (match witness with
        | some w => event.addWitness w
        | none => event))

/-- the batch from its i-th event on -/
def filterFrom (now : ℕ) (utc : ℕ → DateTime) :
    ℕ → EventDeduplicator → List ChainEvent → EventDeduplicator × List ChainEvent
  | _, d, [] => (d, [])
  | i, d, event :: events =>
    let r := filterOne now (utc i) d event
    let rest := filterFrom now utc (i + 1) r.1 events
    (rest.1, r.2.toList ++ rest.2)

def filter (now : ℕ) (utc : ℕ → DateTime) (d : EventDeduplicator) (events : List ChainEvent) :
    EventDeduplicator × List ChainEvent :=
  filterFrom now utc 0 d events

/-- an event passes exactly when its key is not remembered, and only its witnesses change on the way -/
theorem filterOne_snd (now : ℕ) (utc : DateTime) (d : EventDeduplicator) (event : ChainEvent) :
    (d.Remembers now (eventKey event) ∧ (filterOne now utc d event).2 = none) ∨
      (¬ d.Remembers now (eventKey event) ∧
        ∃ ws, (filterOne now utc d event).2 = some { event with witnesses := ws }) := by
  rw [← remembers_iff]
  unfold filterOne
  by_cases hr : d.remembers now (eventKey event) = true
  · exact Or.inl ⟨hr, by simp [hr]⟩
  · refine Or.inr ⟨hr, ?_⟩
    rw [if_neg hr]
    cases event.source.map fun src => (⟨src, utc, none⟩ : ObservationWitness) with
    | none => exact ⟨event.witnesses, rfl⟩
    | some w =>
      obtain ⟨ws, hws⟩ := event.addWitness_frame w
      exact ⟨ws, congrArg some hws⟩

/-- only an event with a remembered key is dropped -/
theorem remembers_of_filterOne {now : ℕ} {utc : DateTime} {d : EventDeduplicator} {event : ChainEvent}
    (h : (filterOne now utc d event).2 = none) : d.remembers now (eventKey event) = true := by
  rcases filterOne_snd now utc d event with ⟨hr, -⟩ | ⟨-, ws, hsome⟩
  · exact (remembers_iff d now _).2 hr
  · rw [h] at hsome
    cases hsome

/-- an event that passes has its own source among its witnesses -/
theorem witness_of_filterOne {now : ℕ} {utc : DateTime} {d : EventDeduplicator} {event fresh : ChainEvent}
    (h : (filterOne now utc d event).2 = some fresh) :
    fresh.id = event.id ∧ ∀ src ∈ event.source, ∃ w ∈ fresh.witnesses, w.source = src := by
  unfold filterOne at h
  by_cases hr : d.remembers now (eventKey event) = true
  · simp [hr] at h
  rw [if_neg hr, Option.some.injEq] at h
  subst h
  cases hs : event.source with
  | none => exact ⟨rfl, by simp⟩
  | some src =>
    obtain ⟨ws, hws⟩ := event.addWitness_frame ⟨src, utc, none⟩
    refine ⟨by simp [hws], ?_⟩
    intro src' hsrc'
    cases hsrc'
    exact event.exists_witness_addWitness ⟨src, utc, none⟩

end EventDeduplicator

end ObsChain
