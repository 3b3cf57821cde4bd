/-
Observations of an event (`EventObservation` of `event.rs`): how and when the program learned of it.

The id of an observation is the name-based UUID of its key text. A replay's key names the event and the job; any other key
names the event, the mode, the source, the kind and a discriminator, which is the first present of block hash, mempool
sequence, source sequence and confirmation status. The UUID function is the parameter `newV5`.

`Built` are the observations that the constructors and the `with_*` methods make.
- `Built.id_eq`: their id is that of their fields, also after every change.
- `Built.replay_iff`: they name a job exactly when they are replays.
-/
import Mathlib.Tactic
import ObsChain.Domain.Event
import ObsChain.Domain.Watch

namespace ObsChain

def EventObservationKind.asStr : EventObservationKind → String
  | .firstSeen => "FIRST_SEEN"
  | .mempoolSeen => "MEMPOOL_SEEN"
  | .confirmed => "CONFIRMED"
  | .reorgedOut => "REORGED_OUT"
  | .witnessed => "WITNESSED"
  | .historicalReplay => "HISTORICAL_REPLAY"

namespace EventObservation

def buildDiscriminator (blockHash : Option String) (sourceSequence mempoolSequence : Option ℕ)
    (confirmationStatus : Option String) : String :=
  match blockHash, mempoolSequence, sourceSequence, confirmationStatus with
  | some bh, _, _, _ => bh
  | none, some mseq, _, _ => "mempool_seq:" ++ toString mseq
  | none, none, some sseq, _ => "source_seq:" ++ toString sseq
  | none, none, none, some status => status
  | none, none, none, none => ""

/-- the text an observation's id is made of -/
def identityKey (eventId : Uuid) (mode : ObservationMode) (source : ObservationSource) (kind : EventObservationKind)
    (replayJobId : Option Uuid) (discriminator : Option String) : String :=
  match mode, replayJobId with
  | .historicalReplay, some jobId => "obs:" ++ hyphenated eventId ++ ":replay:" ++ hyphenated jobId
  | _, _ =>
    "obs:" ++ hyphenated eventId ++ ":" ++ mode.asStr ++ ":" ++ source.provider ++ ":" ++ source.transport ++ ":" ++
      kind.asStr ++ ":" ++ discriminator.getD ""

section

variable (newV5 : String → Uuid)

def deterministicId (eventId : Uuid) (mode : ObservationMode) (source : ObservationSource) (kind : EventObservationKind)
    (replayJobId : Option Uuid) (discriminator : Option String) : Uuid :=
  newV5 (identityKey eventId mode source kind replayJobId discriminator)

def live (eventId : Uuid) (source : ObservationSource) (kind : EventObservationKind) (observedAt : DateTime)
    (bitcoinTime : Option DateTime) (blockHeight : Option ℕ) (blockHash : Option String) : EventObservation where
  id := deterministicId newV5 eventId .live source kind none (some (buildDiscriminator blockHash none none none))
  eventId := eventId
  mode := .live
  kind := kind
  source := source
  observedAt := observedAt
  bitcoinTime := bitcoinTime
  replayJobId := none
  blockHeight := blockHeight
  blockHash := blockHash
  confirmationStatus := none
  sourceSequence := none
  mempoolSequence := none
  witness := some ⟨source, observedAt, none⟩

/-- the id that the fields of an observation give -/
def idOf (o : EventObservation) : Uuid :=
  deterministicId newV5 o.eventId o.mode o.source o.kind o.replayJobId
    (some (buildDiscriminator o.blockHash o.sourceSequence o.mempoolSequence o.confirmationStatus))

def recomputeId (o : EventObservation) : EventObservation := { o with id := idOf newV5 o }

def withConfirmationStatus (o : EventObservation) (status : String) : EventObservation :=
  recomputeId newV5 { o with confirmationStatus := some status }

def withSourceSequence (o : EventObservation) (seq : ℕ) : EventObservation :=
  recomputeId newV5 { o with sourceSequence := some seq }

def withMempoolSequence (o : EventObservation) (seq : ℕ) : EventObservation :=
  recomputeId newV5 { o with mempoolSequence := some seq }

def historicalReplay (eventId replayJobId : Uuid) (source : ObservationSource) (observedAt : DateTime)
    (bitcoinTime : Option DateTime) (blockHeight : Option ℕ) (blockHash : Option String) : EventObservation where
  id := deterministicId newV5 eventId .historicalReplay source .historicalReplay (some replayJobId) none
  eventId := eventId
  mode := .historicalReplay
  kind := .historicalReplay
  source := source
  observedAt := observedAt
  bitcoinTime := bitcoinTime
  replayJobId := some replayJobId
  blockHeight := blockHeight
  blockHash := blockHash
  confirmationStatus := some "confirmed"
  sourceSequence := none
  mempoolSequence := none
  witness := none

/-- what the constructors make -/
inductive Built : EventObservation → Prop where
  | live (eventId : Uuid) (source : ObservationSource) (kind : EventObservationKind) (observedAt : DateTime)
      (bitcoinTime : Option DateTime) (blockHeight : Option ℕ) (blockHash : Option String) :
      Built (live newV5 eventId source kind observedAt bitcoinTime blockHeight blockHash)
  | historicalReplay (eventId replayJobId : Uuid) (source : ObservationSource) (observedAt : DateTime)
      (bitcoinTime : Option DateTime) (blockHeight : Option ℕ) (blockHash : Option String) :
      Built (historicalReplay newV5 eventId replayJobId source observedAt bitcoinTime blockHeight blockHash)
  | withConfirmationStatus {o : EventObservation} (status : String) (h : Built o) :
      Built (withConfirmationStatus newV5 o status)
  | withSourceSequence {o : EventObservation} (seq : ℕ) (h : Built o) : Built (withSourceSequence newV5 o seq)
  | withMempoolSequence {o : EventObservation} (seq : ℕ) (h : Built o) : Built (withMempoolSequence newV5 o seq)
  /-- the live worker puts the event's own witness in -/
  | withWitness {o : EventObservation} (witness : Option ObservationWitness) (h : Built o) :
      Built { o with witness := witness }

variable {newV5}

/-- a built observation bears the id of its fields -/
theorem Built.id_eq {o : EventObservation} (h : Built newV5 o) : o.id = idOf newV5 o := by
  induction h with
  | live => rfl
  | historicalReplay => rfl
  | withConfirmationStatus status h ih => rfl
  | withSourceSequence seq h ih => rfl
  | withMempoolSequence seq h ih => rfl
  | withWitness witness h ih => exact ih

/-- a built observation names a job exactly when it is a replay -/
theorem Built.replay_iff {o : EventObservation} (h : Built newV5 o) : o.replayJobId.isSome ↔ o.mode = .historicalReplay := by
  induction h with
  | live => simp [EventObservation.live]
  | historicalReplay => simp [EventObservation.historicalReplay]
  | withConfirmationStatus status h ih => exact ih
  | withSourceSequence seq h ih => exact ih
  | withMempoolSequence seq h ih => exact ih
  | withWitness witness h ih => exact ih

end

end EventObservation

end ObsChain
