/-
Sequence tracking (`ZmqSequenceTracker` of `bitcoin_zmq.rs`): what the numbers of the notifications of one topic say about
those that were lost.

The publisher counts without a bound and publishes its count modulo 2^32. A number that is ahead of the last one by less than
half of the range is accepted, and one that is behind by less than half of it is not. `observeNext` is an observation together
with the true count it comes from, which the tracker does not see.

- `toNat_published_sub`: a difference of published numbers is the true one, where that is less than half of the range.
- `observe_ahead`, `observe_behind`: what such an observation is reported as.
- `tracking_accounts`: every notification up to the last accepted one is reported as received or missed, along every run.
-/
import Mathlib.Tactic
import ObsChain.Core.Trace

namespace ObsChain

structure ZmqSequenceTracker where
  lastSeq : Option UInt32
deriving DecidableEq

inductive SequenceCheckResult where
  | initial (current : UInt32)
  | consecutive (current : UInt32)
  | duplicate (current : UInt32)
  | gap (previous current missed : UInt32)
  | stale (previous current : UInt32)
deriving DecidableEq

namespace ZmqSequenceTracker

def new : ZmqSequenceTracker := ⟨none⟩

def observe (tracker : ZmqSequenceTracker) (current : UInt32) : ZmqSequenceTracker × SequenceCheckResult :=
  match tracker.lastSeq with
  | none => (⟨some current⟩, .initial current)
  | some prev =>
    let diff := current - prev
    if diff = 0 then (tracker, .duplicate current)
    else if diff = 1 then (⟨some current⟩, .consecutive current)
    else if diff < 0x80000000 then (⟨some current⟩, .gap prev current (diff - 1))
    else (tracker, .stale prev current)

end ZmqSequenceTracker

namespace SequenceCheckResult

/-- consecutive, or after a gap -/
def accepted : SequenceCheckResult → Bool
  | consecutive _ | gap _ _ _ => true
  | _ => false

/-- a duplicate, or stale -/
def refused : SequenceCheckResult → Bool
  | duplicate _ | stale _ _ => true
  | _ => false

def missedCount : SequenceCheckResult → ℕ
  | gap _ _ missed => missed.toNat
  | _ => 0

end SequenceCheckResult

namespace SequenceTracking

open ZmqSequenceTracker

/-! ## The publisher's count -/

/-- the number published with a true count -/
def published (count : ℕ) : UInt32 := UInt32.ofNat count

/-- a tracker, the true count of the last accepted observation, and what was reported so far -/
structure Tracked where
  tracker : ZmqSequenceTracker
  last : ℕ
  results : List SequenceCheckResult
deriving DecidableEq

/-- the first observation -/
def observeFirst (count : ℕ) : Tracked :=
  let (tracker, result) := new.observe (published count)
  ⟨tracker, count, [result]⟩

/-- a later one -/
def observeNext (s : Tracked) (count : ℕ) : Tracked :=
  let (tracker, result) := s.tracker.observe (published count)
  ⟨tracker, if result.accepted then count else s.last, s.results ++ [result]⟩

/-- if it is accepted it is less than half of the range ahead -/
def AcceptedAhead (s : Tracked) (count : ℕ) : Prop :=
  (s.tracker.observe (published count)).2.accepted = true → s.last < count ∧ count < s.last + 2 ^ 31

instance (s : Tracked) (count : ℕ) : Decidable (AcceptedAhead s count) := inferInstanceAs (Decidable (_ → _))

/-- received and missed notifications are all those after the first one -/
def Accounts (first : ℕ) (s : Tracked) : Prop :=
  first ≤ s.last ∧ s.results.countP (·.accepted) + (s.results.map (·.missedCount)).sum = s.last - first

/-- what is repeated, or older by less than half of the range, is refused -/
def RefusesOlder (s : Tracked) : Prop :=
  ∀ count ≤ s.last, s.last < count + 2 ^ 31 → (s.tracker.observe (published count)).2.refused = true

/-! ## One observation -/

theorem toNat_published_sub {last count : ℕ} :
    (published count - published last).toNat = (2 ^ 32 - last % 2 ^ 32 + count % 2 ^ 32) % 2 ^ 32 := by
  rw [UInt32.toNat_sub, published, published, UInt32.toNat_ofNat', UInt32.toNat_ofNat']

/-- the cases, by the difference as a number -/
theorem observe_some (prev current : UInt32) :
    observe ⟨some prev⟩ current =
      if (current - prev).toNat = 0 then (⟨some prev⟩, .duplicate current)
      else if (current - prev).toNat = 1 then (⟨some current⟩, .consecutive current)
      else if (current - prev).toNat < 2 ^ 31 then (⟨some current⟩, .gap prev current (current - prev - 1))
      else (⟨some prev⟩, .stale prev current) := by
  have hzero : current - prev = 0 ↔ (current - prev).toNat = 0 := UInt32.toNat_inj.symm
  have hone : current - prev = 1 ↔ (current - prev).toNat = 1 := UInt32.toNat_inj.symm
  have hhalf : current - prev < 0x80000000 ↔ (current - prev).toNat < 2 ^ 31 := UInt32.lt_iff_toNat_lt
  simp only [observe, hzero, hone, hhalf]

/-- **Ahead** by less than half of the range: accepted, with all that lie between missed. -/
theorem observe_ahead {last count : ℕ} (h : last < count) (hhalf : count < last + 2 ^ 31) :
    (observe ⟨some (published last)⟩ (published count)).1 = ⟨some (published count)⟩ ∧
      (observe ⟨some (published last)⟩ (published count)).2.accepted = true ∧
      1 + (observe ⟨some (published last)⟩ (published count)).2.missedCount = count - last := by
  have hdiff : (published count - published last).toNat = count - last := by
    rw [toNat_published_sub]
    omega
  rw [observe_some, hdiff, if_neg (by omega)]
  by_cases hone : count - last = 1
  · rw [if_pos hone]
    exact ⟨rfl, rfl, hone.symm⟩
  · rw [if_neg hone, if_pos (by omega)]
    refine ⟨rfl, rfl, ?_⟩
    have hle : 1 ≤ published count - published last := by
      rw [UInt32.le_iff_toNat_le, hdiff]
      exact Nat.sub_pos_of_lt h
    rw [SequenceCheckResult.missedCount, UInt32.toNat_sub_of_le _ _ hle, hdiff]
    have hpos : 0 < count - last := Nat.sub_pos_of_lt h
    exact Nat.add_sub_cancel' hpos

/-- **Repeated or older** by less than half of the range: refused. -/
theorem observe_behind {last count : ℕ} (h : count ≤ last) (hhalf : last < count + 2 ^ 31) :
    (observe ⟨some (published last)⟩ (published count)).2.refused = true := by
  have hdiff : (published count - published last).toNat = (2 ^ 32 - (last - count)) % 2 ^ 32 := by
    rw [toNat_published_sub]
    omega
  rw [observe_some, hdiff]
  split_ifs with hzero hone hlt
  · rfl
  · omega
  · omega
  · rfl

/-- a refused observation leaves the tracker as it is -/
theorem observe_refused (tracker : ZmqSequenceTracker) (current : UInt32)
    (h : (tracker.observe current).2.refused = true) : (tracker.observe current).1 = tracker := by
  obtain ⟨lastSeq⟩ := tracker
  cases lastSeq with
  | none => cases h
  | some prev =>
    rw [observe_some] at h ⊢
    split_ifs at h ⊢ with hzero hone hlt
    · rfl
    · cases h
    · cases h
    · rfl

/-- with a number to compare with, what is not accepted is refused -/
theorem refused_of_not_accepted {prev current : UInt32} (h : (observe ⟨some prev⟩ current).2.accepted = false) :
    (observe ⟨some prev⟩ current).2.refused = true ∧ (observe ⟨some prev⟩ current).2.missedCount = 0 := by
  rw [observe_some] at h ⊢
  split_ifs at h ⊢ with hzero hone hlt
  · exact ⟨rfl, rfl⟩
  · cases h
  · cases h
  · exact ⟨rfl, rfl⟩

/-! ## A run -/

/-- what holds in every state: the tracker has the last accepted number, and the reports add up -/
structure Tracks (first : ℕ) (s : Tracked) : Prop where
  lastSeq : s.tracker = ⟨some (published s.last)⟩
  accounts : Accounts first s

theorem tracks_first (first : ℕ) : Tracks first (observeFirst first) :=
  ⟨rfl, le_rfl, (Nat.sub_self first).symm⟩

/-- **One observation** keeps the account. -/
theorem tracks_next {first : ℕ} (s : Tracked) (count : ℕ) (h : Tracks first s) (hcount : AcceptedAhead s count) :
    Tracks first (observeNext s count) := by
  obtain ⟨hlast, hfirst, hsum⟩ := h
  rw [AcceptedAhead, hlast] at hcount
  cases hacc : (observe ⟨some (published s.last)⟩ (published count)).2.accepted with
  | true =>
    obtain ⟨hahead, hhalf⟩ := hcount hacc
    obtain ⟨htracker, -, hmissed⟩ := observe_ahead hahead hhalf
    constructor
    · simp only [observeNext, hlast, htracker, hacc, if_true]
    · simp only [Accounts, observeNext, hlast, hacc, if_true, List.countP_append, List.map_append, List.sum_append,
        List.countP_singleton, List.map_singleton, List.sum_singleton]
      omega
  | false =>
    obtain ⟨hrefused, hmissed⟩ := refused_of_not_accepted hacc
    have htracker := observe_refused _ _ hrefused
    constructor
    · simp [observeNext, hlast, htracker, hacc]
    · simp only [Accounts, observeNext, hlast, hacc, List.countP_append, List.map_append, List.sum_append,
        List.countP_singleton, List.map_singleton, List.sum_singleton, hmissed]
      simpa using ⟨hfirst, hsum⟩

theorem Tracks.refusesOlder {first : ℕ} {s : Tracked} (h : Tracks first s) : RefusesOlder s := by
  intro count hle hhalf
  rw [h.lastSeq]
  exact observe_behind hle hhalf

/-- **Every notification is accounted for**, in every state of every run whose accepted observations are less than half of
the range ahead; what is refused changes nothing, what is repeated or older is refused, and what is ahead by less than half
of the range is accepted. -/
theorem tracking_accounts (first : ℕ) (counts : List ℕ)
    (h : Trace.Steps observeNext AcceptedAhead (observeFirst first) counts) :
    Trace.Always observeNext (fun s => Accounts first s ∧ RefusesOlder s) (observeFirst first) counts ∧
      (∀ (tracker : ZmqSequenceTracker) (current : UInt32), (tracker.observe current).2.refused = true →
        (tracker.observe current).1 = tracker) ∧
      ∀ last count : ℕ, last < count → count < last + 2 ^ 31 →
        (observe ⟨some (published last)⟩ (published count)).1 = ⟨some (published count)⟩ ∧
          (observe ⟨some (published last)⟩ (published count)).2.accepted = true ∧
          1 + (observe ⟨some (published last)⟩ (published count)).2.missedCount = count - last :=
  ⟨Trace.always_inv tracks_next (fun _ hs => ⟨hs.accounts, hs.refusesOlder⟩) (tracks_first first) h, observe_refused,
    fun _ _ => observe_ahead⟩

/-- across the end of the range: one lost, one repeated, one late, one in order -/
theorem tracking_accounts_wraparound :
    (Trace.run observeNext (observeFirst (2 ^ 32 - 2)) [2 ^ 32, 2 ^ 32, 2 ^ 32 - 1, 2 ^ 32 + 1]).results =
      [.initial 4294967294, .gap 4294967294 0 1, .duplicate 0, .stale 0 4294967295, .consecutive 1] ∧
    Accounts (2 ^ 32 - 2) (Trace.run observeNext (observeFirst (2 ^ 32 - 2)) [2 ^ 32, 2 ^ 32, 2 ^ 32 - 1, 2 ^ 32 + 1]) := by
  have hsteps : Trace.Steps observeNext AcceptedAhead (observeFirst (2 ^ 32 - 2))
      [2 ^ 32, 2 ^ 32, 2 ^ 32 - 1, 2 ^ 32 + 1] := by
    decide +kernel
  exact ⟨by decide +kernel, (Trace.always_last (tracking_accounts _ _ hsteps).1).1⟩

end SequenceTracking

end ObsChain
