/-
Chain events (`event.rs`): the canonical record of what happened, and its identity.

An event's deterministic id is a name-based UUID of its identity text: the type, and the txid, else the block hash, else
the height, else the title. The UUID function is outside the program and is the parameter `newV5`. The deduplicator
builds the same text as its key.
-/
import Mathlib.Tactic
import ObsChain.Domain.Observation
import ObsChain.Domain.Replay

namespace ObsChain

inductive EventSeverity where
  | info
  | low
  | medium
  | high
  | critical
deriving DecidableEq, Repr

inductive ConfidenceLevel where
  | verifiedOnChain
  | high
  | moderate
  | heuristic
  | low
deriving DecidableEq, Repr

inductive EventType where
  | largeTransfer
  | dormantCoinsMoved
  | consolidation
  | fanOut
  | extremeFee
  | transactionReplacement
  | longBlockInterval
  | reorgDetected
  | miningAnomaly
  | unusualFeeRatio
deriving DecidableEq, Repr

/-- the variant's name, as `{:?}` prints it -/
def EventType.debug : EventType → String
  | .largeTransfer => "LargeTransfer"
  | .dormantCoinsMoved => "DormantCoinsMoved"
  | .consolidation => "Consolidation"
  | .fanOut => "FanOut"
  | .extremeFee => "ExtremeFee"
  | .transactionReplacement => "TransactionReplacement"
  | .longBlockInterval => "LongBlockInterval"
  | .reorgDetected => "ReorgDetected"
  | .miningAnomaly => "MiningAnomaly"
  | .unusualFeeRatio => "UnusualFeeRatio"

inductive EventObservationKind where
  | firstSeen
  | mempoolSeen
  | confirmed
  | reorgedOut
  | witnessed
  | historicalReplay
deriving DecidableEq, Repr

structure EventObservation where
  id : Uuid
  eventId : Uuid
  mode : ObservationMode
  kind : EventObservationKind
  source : ObservationSource
  observedAt : DateTime
  bitcoinTime : Option DateTime
  replayJobId : Option Uuid
  blockHeight : Option ℕ
  blockHash : Option String
  confirmationStatus : Option String
  sourceSequence : Option ℕ
  mempoolSequence : Option ℕ
  witness : Option ObservationWitness
deriving Repr

structure ChainEvent where
  id : Uuid
  eventType : EventType
  severity : EventSeverity
  confidence : ConfidenceLevel
  title : String
  description : String
  eventTime : DateTime
  firstObservedAt : DateTime
  detectedAt : DateTime
  blockHeight : Option ℕ
  blockHash : Option String
  txid : Option String
  source : Option ObservationSource
  witnesses : List ObservationWitness
  observationMode : ObservationMode
  replayJobId : Option Uuid
  metadata : Value
  observations : List EventObservation
deriving Repr

namespace ChainEvent

/-- the text that identifies the event -/
def identityKey (event : ChainEvent) : String :=
  match event.txid, event.blockHash, event.blockHeight with
  | some txid, _, _ => event.eventType.debug ++ ":tx:" ++ txid
  | none, some blockHash, _ => event.eventType.debug ++ ":block:" ++ blockHash
  | none, none, some blockHeight => event.eventType.debug ++ ":height:" ++ toString blockHeight
  | none, none, none => event.eventType.debug ++ ":title:" ++ event.title

def deterministicId (newV5 : String → Uuid) (event : ChainEvent) : Uuid := newV5 event.identityKey

def withDeterministicId (newV5 : String → Uuid) (event : ChainEvent) : ChainEvent :=
  { event with id := event.deterministicId newV5 }

/-- append a witness unless its source is already among them -/
def addWitness (event : ChainEvent) (witness : ObservationWitness) : ChainEvent :=
  if event.witnesses.any (fun w => w.source == witness.source) then event
  else { event with witnesses := event.witnesses ++ [witness] }

/-- a witness changes nothing but the witnesses -/
theorem addWitness_frame (event : ChainEvent) (witness : ObservationWitness) :
    ∃ ws, event.addWitness witness = { event with witnesses := ws } := by
  unfold addWitness
  split_ifs
  · exact ⟨event.witnesses, rfl⟩
  · exact ⟨event.witnesses ++ [witness], rfl⟩

/-- the source of an added witness is among the witnesses -/
theorem exists_witness_addWitness (event : ChainEvent) (witness : ObservationWitness) :
    ∃ w ∈ (event.addWitness witness).witnesses, w.source = witness.source := by
  unfold addWitness
  split_ifs with hany
  · obtain ⟨w, hw, heq⟩ := List.any_eq_true.1 hany
    exact ⟨w, hw, by simpa using heq⟩
  · exact ⟨witness, by simp, rfl⟩

end ChainEvent

end ObsChain
