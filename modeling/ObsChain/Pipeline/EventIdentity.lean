/-
Do the deduplicator and the store identify the same events?

The deduplicator compares the texts of `event_key`, the store the ids that `deterministic_id` hashes from its own text. Both
texts are the type, what kind of identity the event has, and the identity, with colons between them. Neither the name of a
type nor that of a kind has a colon, so the second colon ends them, whatever a txid, a hash or a title contains.

- `identity`: what identifies an event beside its type.
- `identityKey_iff`: the text says the type and the identity, and nothing else.
- `same_event_iff`: the keys are equal exactly when type and identity are, and exactly when the hashed texts are.
-/
import Mathlib.Tactic
import ObsChain.Core.Text
import ObsChain.Domain.Event
import ObsChain.Pipeline.Dedup

namespace ObsChain

/-- the txid, else the block hash, else the block height, else the title -/
inductive EventIdentity where
  | txid (id : String)
  | blockHash (hash : String)
  | blockHeight (height : ℕ)
  | title (text : String)
deriving DecidableEq, Repr

namespace EventIdentity

def kind : EventIdentity → String
  | .txid _ => "tx"
  | .blockHash _ => "block"
  | .blockHeight _ => "height"
  | .title _ => "title"

def text : EventIdentity → String
  | .txid id => id
  | .blockHash hash => hash
  | .blockHeight height => toString height
  | .title text => text

theorem colon_not_mem_kind (i : EventIdentity) : ':' ∉ i.kind.toList := by
  cases i <;> simp [kind]

/-- **Kind and text are the identity.** -/
theorem eq_iff {i j : EventIdentity} : i = j ↔ i.kind = j.kind ∧ i.text = j.text := by
  cases i with
  | blockHeight m =>
    cases j with
    | blockHeight n =>
      rw [blockHeight.injEq, ← Text.toString_inj]
      exact (and_iff_right rfl).symm
    | _ => simp [kind]
  | _ => cases j <;> simp [kind, text]

end EventIdentity

namespace EventType

theorem colon_not_mem_debug (t : EventType) : ':' ∉ t.debug.toList := by
  cases t <;> simp [debug]

theorem debug_injective : Function.Injective debug := by
  intro t t' h
  cases t <;> cases t' <;> simp [debug] at h ⊢

end EventType

namespace ChainEvent

def identity (event : ChainEvent) : EventIdentity :=
  match event.txid, event.blockHash, event.blockHeight with
  | some txid, _, _ => .txid txid
  | none, some blockHash, _ => .blockHash blockHash
  | none, none, some blockHeight => .blockHeight blockHeight
  | none, none, none => .title event.title

/-- the parts of the text -/
theorem identityKey_eq (event : ChainEvent) :
    event.identityKey = event.eventType.debug ++ (":" ++ (event.identity.kind ++ (":" ++ event.identity.text))) := by
  have happend : ∀ sep kind name text : String, sep = ":" ++ (kind ++ ":") →
      name ++ sep ++ text = name ++ (":" ++ (kind ++ (":" ++ text))) := by
    rintro sep kind name text rfl
    simp only [String.append_assoc]
  unfold identityKey identity
  cases event.txid with
  | some txid => exact happend ":tx:" "tx" _ txid (by decide)
  | none =>
    cases event.blockHash with
    | some blockHash => exact happend ":block:" "block" _ blockHash (by decide)
    | none =>
      cases event.blockHeight with
      | some blockHeight => exact happend ":height:" "height" _ (toString blockHeight) (by decide)
      | none => exact happend ":title:" "title" _ event.title (by decide)

/-- **What the text says**: the type and the identity. -/
theorem identityKey_iff (a b : ChainEvent) :
    a.identityKey = b.identityKey ↔ a.eventType = b.eventType ∧ a.identity = b.identity := by
  rw [identityKey_eq, identityKey_eq,
    Text.append_sep_inj rfl a.eventType.colon_not_mem_debug b.eventType.colon_not_mem_debug,
    Text.append_sep_inj rfl a.identity.colon_not_mem_kind b.identity.colon_not_mem_kind,
    EventType.debug_injective.eq_iff, EventIdentity.eq_iff]

end ChainEvent

/-- **The same events.** Two events have one deduplication key exactly when they have one type and one identity, and exactly
when `deterministic_id` hashes one text for both. -/
theorem EventDeduplicator.same_event_iff (a b : ChainEvent) :
    (eventKey a = eventKey b ↔ a.eventType = b.eventType ∧ a.identity = b.identity) ∧
      (eventKey a = eventKey b ↔ a.identityKey = b.identityKey) := by
  rw [eventKey_eq_identityKey, eventKey_eq_identityKey]
  exact ⟨ChainEvent.identityKey_iff a b, Iff.rfl⟩

end ObsChain
