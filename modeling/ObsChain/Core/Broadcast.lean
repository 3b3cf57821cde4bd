/-
A bounded broadcast channel, over arbitrary messages. Nothing here mentions the program.

A sender never waits: the channel retains the last `capacity` messages, and every receiver takes them at its own pace from
where it subscribed. A receiver that is further behind is told how many messages it missed, once, and goes on with the oldest
one retained.

Model: the channel is the log of all messages sent, and a receiver a position in it. `taken` and `skipped` are kept beside the
position and read by nothing: the positions that were taken, and the number that were missed.

- `recv_lagged_iff`: a receiver lags exactly when more messages are unread than the channel retains.
- `Sound`, `sound_send`, `sound_recv`: every position from the subscription on is taken once, in order, or counted as missed.
- `messages_eq`: a receiver that missed nothing took what was sent since it subscribed, up to its position.
-/
import Mathlib.Tactic

namespace ObsChain.Broadcast

structure Channel (α : Type*) where
  capacity : ℕ
  log : List α

structure Receiver where
  joined : ℕ
  cursor : ℕ
  taken : List ℕ
  skipped : ℕ

inductive Received (α : Type*) where
  | message (x : α)
  | lagged (skipped : ℕ)
  /-- nothing is unread -/
  | waiting

variable {α : Type*}

/-- the message, if there is one -/
def Received.messages : Received α → List α
  | message x => [x]
  | _ => []

namespace Channel

def send (c : Channel α) (x : α) : Channel α := { c with log := c.log ++ [x] }

/-- the oldest position retained -/
def oldest (c : Channel α) : ℕ := c.log.length - c.capacity

/-- a receiver is at the end of the log -/
def subscribe (c : Channel α) : Receiver := ⟨c.log.length, c.log.length, [], 0⟩

def recv (c : Channel α) (r : Receiver) : Receiver × Received α :=
  if r.cursor < c.oldest then
    ({ r with cursor := c.oldest, skipped := r.skipped + (c.oldest - r.cursor) }, .lagged (c.oldest - r.cursor))
  else
    match c.log[r.cursor]? with
    | some x => ({ r with cursor := r.cursor + 1, taken := r.taken ++ [r.cursor] }, .message x)
    | none => (r, .waiting)

/-- what a receiver took -/
def messages (c : Channel α) (r : Receiver) : List α := r.taken.filterMap (c.log[·]?)

/-- how many messages a receiver has not read -/
def unread (c : Channel α) (r : Receiver) : ℕ := c.log.length - r.cursor

end Channel

open Channel

/-- the receiver has an account of every position since it subscribed -/
structure Sound (c : Channel α) (r : Receiver) : Prop where
  joined : r.joined ≤ r.cursor
  cursor : r.cursor ≤ c.log.length
  ordered : r.taken.Pairwise (· < ·)
  within : ∀ i ∈ r.taken, r.joined ≤ i ∧ i < r.cursor
  account : r.taken.length + r.skipped = r.cursor - r.joined
  whole : r.skipped = 0 → r.taken = List.range' r.joined (r.cursor - r.joined)

theorem sound_subscribe (c : Channel α) : Sound c c.subscribe where
  joined := le_rfl
  cursor := le_rfl
  ordered := List.Pairwise.nil
  within := fun _ hi => absurd hi List.not_mem_nil
  account := (Nat.sub_self _).symm
  whole := fun _ => by simp [subscribe]

theorem sound_send {c : Channel α} {r : Receiver} (h : Sound c r) (x : α) : Sound (c.send x) r where
  joined := h.joined
  cursor := by
    have hlen : (c.send x).log.length = c.log.length + 1 := by simp [send]
    exact hlen ▸ h.cursor.trans (Nat.le_succ _)
  ordered := h.ordered
  within := h.within
  account := h.account
  whole := h.whole

/-- **A receiver lags** exactly when more messages are unread than the channel retains. -/
theorem recv_lagged_iff {c : Channel α} {r : Receiver} :
    (∃ skipped, (c.recv r).2 = .lagged skipped) ↔ c.capacity < c.unread r := by
  unfold recv unread oldest
  split_ifs with hlag
  · exact iff_of_true ⟨_, rfl⟩ (by omega)
  · refine iff_of_false ?_ (by omega)
    rintro ⟨skipped, hskipped⟩
    split at hskipped <;> cases hskipped

/-- **One receive** keeps the account. -/
theorem sound_recv {c : Channel α} {r : Receiver} (h : Sound c r) : Sound c (c.recv r).1 := by
  obtain ⟨hjoined, hcursor, hordered, hwithin, haccount, hwhole⟩ := h
  unfold recv
  split_ifs with hlag
  · have holdest : c.oldest ≤ c.log.length := Nat.sub_le _ _
    refine ⟨?_, holdest, hordered, fun i hi => ?_, ?_, fun hnone => ?_⟩
    · dsimp only
      omega
    · obtain ⟨hlow, hhigh⟩ := hwithin i hi
      exact ⟨hlow, hhigh.trans hlag⟩
    · dsimp only
      omega
    · dsimp only at hnone
      omega
  · cases hnext : c.log[r.cursor]? with
    | none => exact ⟨hjoined, hcursor, hordered, hwithin, haccount, hwhole⟩
    | some x =>
      have hlt : r.cursor < c.log.length := (List.getElem?_eq_some_iff.1 hnext).1
      refine ⟨hjoined.trans (Nat.le_succ _), hlt, ?_, ?_, ?_, fun hnone => ?_⟩
      · refine List.pairwise_append.2 ⟨hordered, List.pairwise_singleton _ _, fun i hi j hj => ?_⟩
        obtain rfl := List.mem_singleton.1 hj
        exact (hwithin i hi).2
      · intro i hi
        rcases List.mem_append.1 hi with hi | hi
        · obtain ⟨hlow, hhigh⟩ := hwithin i hi
          exact ⟨hlow, hhigh.trans (Nat.lt_succ_self _)⟩
        · obtain rfl := List.mem_singleton.1 hi
          exact ⟨hjoined, Nat.lt_succ_self _⟩
      · simp only [List.length_append, List.length_singleton]
        omega
      · have hnext' : r.cursor + 1 - r.joined = (r.cursor - r.joined) + 1 := by omega
        have hlast : r.joined + (r.cursor - r.joined) = r.cursor := by omega
        simp only [hnext', List.range'_concat, one_mul, hlast]
        rw [hwhole hnone]

/-! ## Messages -/

/-- what is sent later does not change what was taken -/
theorem messages_send {c : Channel α} {r : Receiver} (h : Sound c r) (x : α) : (c.send x).messages r = c.messages r := by
  unfold messages
  refine List.filterMap_congr fun i hi => ?_
  have hlt : i < c.log.length := (h.within i hi).2.trans_le h.cursor
  exact List.getElem?_append_left hlt

/-- a receive takes the message that it returns -/
theorem messages_recv (c : Channel α) (r : Receiver) :
    c.messages (c.recv r).1 = c.messages r ++ (c.recv r).2.messages := by
  unfold recv
  split_ifs
  · exact (List.append_nil _).symm
  · cases hnext : c.log[r.cursor]? with
    | none => exact (List.append_nil _).symm
    | some x =>
      dsimp only [messages]
      rw [List.filterMap_append, List.filterMap_cons, hnext]
      rfl

theorem filterMap_range' (l : List α) (first n : ℕ) :
    (List.range' first n).filterMap (l[·]?) = (l.drop first).take n := by
  induction n generalizing first with
  | zero => rfl
  | succ n ih =>
    rw [List.range'_succ, List.filterMap_cons, ih]
    cases hfirst : l[first]? with
    | none =>
      have hle : l.length ≤ first := List.getElem?_eq_none_iff.1 hfirst
      rw [List.drop_eq_nil_of_le hle, List.drop_eq_nil_of_le (hle.trans (Nat.le_succ _)), List.take_nil, List.take_nil]
    | some x =>
      obtain ⟨hlt, rfl⟩ := List.getElem?_eq_some_iff.1 hfirst
      rw [List.drop_eq_getElem_cons hlt, List.take_succ_cons]

/-- **A receiver that missed nothing** took everything since it subscribed, up to its position. -/
theorem messages_eq {c : Channel α} {r : Receiver} (h : Sound c r) (hnone : r.skipped = 0) :
    c.messages r = (c.log.drop r.joined).take (r.cursor - r.joined) := by
  unfold messages
  rw [h.whole hnone, filterMap_range']

end ObsChain.Broadcast
