/-
What is a block interval measured from?

The engine keeps the last block it saw. A block that comes without an interval gets the seconds since that one, unless it
is the same block again or not later. Blocks reach the engine from several feeds and from the gap reconciliation, so the
last block need not be the parent: after a gap, a stale sibling or a late delivery the distance to some other block is
reported as the time since the previous one. The hash of the parent comes with the block and is not looked at.

Model: `feed` runs the engine over any observations, live or replayed. `ToParent` is what the reports promise of one block
that comes without an interval and knows its parent.

- `interval_set_iff`: when the engine sets an interval.
- `intervals_to_parent_iff`: along every run, intervals are measured to the parent exactly when each such block follows its
  parent, or is no later than the block it follows, or repeats it.
- `gap_reported_as_interval`: a block two above the last one, two and a half hours later.
-/
import Mathlib.Tactic
import ObsChain.Core.Trace
import ObsChain.Detect.BlockIntervals

namespace ObsChain.DetectorEngine

open Trace

/-- an observation as the engine gets it, with its context and what the detectors draw -/
structure Fed where
  observation : Observation
  context : Option ObservationContext
  draws : ℕ → Fresh

/-- the last block is the parent of this one -/
def FollowsParent (last : Option BlockObservation) (block : BlockObservation) : Prop :=
  ∃ prev, last = some prev ∧ prev.blockHash = block.previousBlockHash

/-- the same block again, at no greater height -/
def Repeats (prev block : BlockObservation) : Prop := block.blockHash = prev.blockHash ∧ block.height ≤ prev.height

section

variable (newV5 : String → Uuid) (rfc3339 : DateTime → String)

def feed (engine : DetectorEngine) (fed : Fed) : DetectorEngine :=
  (processObservationWithContext newV5 rfc3339 engine fed.draws fed.observation fed.context).1

def fedEvents (engine : DetectorEngine) (fed : Fed) : List ChainEvent :=
  (processObservationWithContext newV5 rfc3339 engine fed.draws fed.observation fed.context).2

/-- a block without an interval and with a known parent gets one, or is reported as late, only after its parent -/
def ToParent (engine : DetectorEngine) (fed : Fed) : Prop :=
  ∀ block, fed.observation = .block block → block.intervalSeconds = none → block.previousBlockHash ≠ "" →
    ((settleBlock engine.lastBlock block).intervalSeconds.isSome → FollowsParent engine.lastBlock block) ∧
      ∀ event ∈ fedEvents newV5 rfc3339 engine fed, event.eventType = .longBlockInterval →
        FollowsParent engine.lastBlock block

/-- such a block follows its parent, or is no later than the block it follows, or repeats it -/
def InOrder (engine : DetectorEngine) (fed : Fed) : Prop :=
  ∀ block, fed.observation = .block block → block.intervalSeconds = none → block.previousBlockHash ≠ "" →
    ∀ prev, engine.lastBlock = some prev →
      prev.blockHash = block.previousBlockHash ∨ secondsSince block.timestamp prev.timestamp ≤ 0 ∨ Repeats prev block

end

/-- **When an interval is set.** The block is later than the last one, and not the same block again. -/
theorem interval_set_iff {last : Option BlockObservation} {block : BlockObservation}
    (hnone : block.intervalSeconds = none) :
    (settleBlock last block).intervalSeconds.isSome ↔
      ∃ prev, last = some prev ∧ 0 < secondsSince block.timestamp prev.timestamp ∧ ¬ Repeats prev block := by
  have hsettled : (settleBlock last block).intervalSeconds = deriveInterval last block := by
    simp only [settleBlock, hnone]
  rw [hsettled]
  cases last with
  | none => simp [deriveInterval]
  | some prev =>
    simp only [deriveInterval, Option.some.injEq, exists_eq_left']
    by_cases hrepeats : Repeats prev block
    · have hsame : ¬ (block.height > prev.height ∨ block.blockHash ≠ prev.blockHash) := by
        simpa [not_or] using ⟨hrepeats.2, hrepeats.1⟩
      simp [hsame, hrepeats]
    · have hother : block.height > prev.height ∨ block.blockHash ≠ prev.blockHash := by
        by_contra hboth
        rw [not_or, not_lt, not_not] at hboth
        exact hrepeats ⟨hboth.2, hboth.1⟩
      rw [if_pos hother]
      split_ifs with hlater
      · simp [hlater, hrepeats]
      · simp [hlater]

variable {newV5 : String → Uuid} {rfc3339 : DateTime → String}

/-- a late block is reported on its interval -/
theorem interval_of_longBlockInterval {detectors : List Detector} {draws : ℕ → Fresh} {block : BlockObservation}
    {context : Option ObservationContext} {event : ChainEvent}
    (hevent : event ∈ events newV5 rfc3339 detectors draws (.block block) context)
    (htype : event.eventType = .longBlockInterval) : block.intervalSeconds.isSome := by
  have halert : event.intervalAlert = some ⟨event.id, event.metadata.get "interval_seconds", event.severity⟩ :=
    if_pos htype
  have hmem : ⟨event.id, event.metadata.get "interval_seconds", event.severity⟩ ∈
      detectors.flatMap (alertOf newV5 block.blockHash block.intervalSeconds) := by
    rw [← intervalAlerts_block detectors draws block context]
    exact List.mem_filterMap.2 ⟨event, hevent, halert⟩
  obtain ⟨d, -, hd⟩ := List.mem_flatMap.1 hmem
  cases hinterval : block.intervalSeconds with
  | some i => rfl
  | none =>
    rw [hinterval] at hd
    cases d <;> simp [alertOf] at hd

/-- **One observation.** -/
theorem toParent_iff (engine : DetectorEngine) (fed : Fed) :
    ToParent newV5 rfc3339 engine fed ↔ InOrder engine fed := by
  constructor
  · intro h block hblock hnone hknown prev hprev
    by_cases hset : 0 < secondsSince block.timestamp prev.timestamp ∧ ¬ Repeats prev block
    · have hsome : (settleBlock engine.lastBlock block).intervalSeconds.isSome :=
        (interval_set_iff hnone).2 ⟨prev, hprev, hset⟩
      obtain ⟨prev', hprev', hparent⟩ := (h block hblock hnone hknown).1 hsome
      cases hprev.symm.trans hprev'
      exact Or.inl hparent
    · rw [not_and_or, not_lt, not_not] at hset
      exact Or.inr hset
  · intro h block hblock hnone hknown
    have hparent : (settleBlock engine.lastBlock block).intervalSeconds.isSome →
        FollowsParent engine.lastBlock block := by
      intro hsome
      obtain ⟨prev, hprev, hlater, hrepeats⟩ := (interval_set_iff hnone).1 hsome
      rcases h block hblock hnone hknown prev hprev with hparent | hearlier | hagain
      · exact ⟨prev, hprev, hparent⟩
      · exact absurd hlater (not_lt.2 hearlier)
      · exact absurd hagain hrepeats
    refine ⟨hparent, ?_⟩
    intro event hevent htype
    apply hparent
    simp only [fedEvents, processObservationWithContext, hblock, observe] at hevent
    exact interval_of_longBlockInterval hevent htype

/-- **Intervals are measured to the parent, exactly when** every block of the run that comes without an interval and with a
known parent follows it, or is no later than the block it follows, or repeats it. -/
theorem intervals_to_parent_iff (newV5 : String → Uuid) (rfc3339 : DateTime → String) (detectors : List Detector)
    (run : List Fed) :
    Steps (feed newV5 rfc3339) (ToParent newV5 rfc3339) (new detectors) run ↔
      Steps (feed newV5 rfc3339) InOrder (new detectors) run :=
  steps_iff_inv (I := fun _ => True) (fun _ _ _ => trivial) (fun engine fed _ => toParent_iff engine fed) trivial

/-! ## After a gap -/

/-- a block that names its parent -/
def childBlock (height : ℕ) (blockHash parent : String) (seconds : ℤ) : BlockObservation :=
  { feedBlock height blockHash seconds with previousBlockHash := parent }

/-- an observation of the live feed -/
def liveFed (block : BlockObservation) : Fed := ⟨.block block, none, fun _ => noDraw⟩

/-- block 101, the parent of the second one, is lost -/
def gap : List Fed := [liveFed (childBlock 100 "aa" "a0" 0), liveFed (childBlock 102 "cc" "bb" 9000)]

/-- **The parent was never seen.** Its child is given an interval to the block before, and reported as late. -/
theorem gap_reported_as_interval :
    ¬ Steps (feed (fun _ => 7) fun _ => "") (ToParent (fun _ => 7) fun _ => "") intervalEngine gap ∧
      ((fedEvents (fun _ => 7) (fun _ => "") (feed (fun _ => 7) (fun _ => "") intervalEngine
          (liveFed (childBlock 100 "aa" "a0" 0))) (liveFed (childBlock 102 "cc" "bb" 9000))).map
        fun event => (event.eventType, event.severity)) = [(.longBlockInterval, .critical)] := by
  refine ⟨?_, by decide +kernel⟩
  intro hsteps
  obtain ⟨-, hsecond, -⟩ := hsteps
  obtain ⟨prev, hprev, hparent⟩ := (hsecond (childBlock 102 "cc" "bb" 9000) rfl rfl (by decide)).1 (by decide +kernel)
  have hlast : prev = childBlock 100 "aa" "a0" 0 := by
    have hseen : (feed (fun _ => 7) (fun _ => "") intervalEngine (liveFed (childBlock 100 "aa" "a0" 0))).lastBlock =
        some (childBlock 100 "aa" "a0" 0) := by decide +kernel
    exact Option.some.inj (hprev.symm.trans hseen)
  rw [hlast] at hparent
  revert hparent
  decide

end ObsChain.DetectorEngine
