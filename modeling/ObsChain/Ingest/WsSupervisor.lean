/-
The supervisor of the mempool.space WebSocket (`run_supervisor` of `mempool_ws.rs`).

MODEL. One task: connect, send the two handshake messages, read frames until the stream ends, sleep, start again. A step
(`Ev`) is one turn of the task together with what the socket, the observation channel or the clock answers; the shutdown
signal may be given between any two turns. A turn the task is not at changes nothing. `frames`, `sent`, `attempts` and
`failures` are kept beside the state and read by no step.

- `inv_step`, `inv_run`: what every reachable state satisfies.
- `supervisor_sound`: **main result** on every run. The connected flag is up exactly while a connection is; the observations
  sent are those of the text frames received, in order; and the pauses double from one second to thirty.
- `shutdown_final`: once shutdown is signalled no new connection is attempted.
- `handshake_failure_repeats`: a failed handshake is followed by the next attempt without a pause.
-/
import Mathlib.Tactic
import ObsChain.Core.Backoff
import ObsChain.Core.Trace
import ObsChain.Ingest.MempoolWs

namespace ObsChain.WsSupervisor

/-! ## State -/

inductive Phase where
  /-- at the condition of the outer loop -/
  | top
  | connecting
  /-- sending `init`, then `want` -/
  | handshake (want : Bool)
  | reading
  /-- with the observations of the last frame that are still to be sent -/
  | sending (pending : List Observation)
  | sleeping (delay : ℕ)
  /-- the task has returned, because the observation channel was closed or because of the signal -/
  | returned (closed : Bool)

/-- a text frame, with the readings of the clock for its parts -/
structure Frame where
  clock : ℕ → DateTime
  text : String

structure Sup where
  phase : Phase
  /-- in seconds -/
  backoff : ℕ
  connected : Bool
  shutdown : Bool
  frames : List Frame
  sent : List Observation
  attempts : ℕ
  /-- the pauses since the last connection -/
  failures : ℕ

def maxBackoff : ℕ := 30

def init : Sup := ⟨.top, 1, false, false, [], [], 0, 0⟩

/-- the largest frame that is parsed, in bytes -/
def maxFrame : ℕ := 16 * 1024 * 1024

section

variable (fromStr : String → Option Value) (endpoint : String)

/-- the observations of a frame; none if it is oversized or not understood -/
def frameObservations (f : Frame) : List Observation :=
  if f.text.utf8ByteSize > maxFrame then [] else (MempoolWs.parseWsFrame fromStr f.clock f.text endpoint).getD []

def Phase.afterFrame : List Observation → Phase
  | [] => .reading
  | obs :: pending => .sending (obs :: pending)

/-! ## Steps -/

inductive Ev where
  /-- the signal is given -/
  | shutdown
  /-- the condition of the outer loop -/
  | turn
  | connect (ok : Bool)
  /-- a handshake message -/
  | write (ok : Bool)
  | text (f : Frame)
  /-- a ping, or a frame of another kind -/
  | other
  /-- a close frame, a read error, or the end of the stream -/
  | ended
  /-- an observation is sent -/
  | send (ok : Bool)
  /-- the task sees that the signal changed -/
  | changed
  | elapsed

def step (s : Sup) (ev : Ev) : Sup :=
  match s.phase, ev with
  | _, .shutdown => { s with shutdown := true }
  | .top, .turn =>
    if s.shutdown then { s with phase := .returned false }
    else { s with phase := .connecting, attempts := s.attempts + 1 }
  | .connecting, .connect true => { s with phase := .handshake false, connected := true, backoff := 1, failures := 0 }
  | .connecting, .connect false => { s with phase := .sleeping s.backoff, connected := false }
  | .handshake false, .write true => { s with phase := .handshake true }
  | .handshake true, .write true => { s with phase := .reading }
  -- `continue`: no pause
  | .handshake _, .write false => { s with phase := .top, connected := false }
  | .reading, .changed => if s.shutdown then { s with phase := .returned false, connected := false } else s
  | .reading, .text f =>
    { s with phase := .afterFrame (frameObservations fromStr endpoint f), frames := s.frames ++ [f] }
  | .reading, .ended => { s with phase := .sleeping s.backoff, connected := false }
  | .sending (obs :: pending), .send true => { s with phase := .afterFrame pending, sent := s.sent ++ [obs] }
  | .sending (_ :: _), .send false => { s with phase := .returned true, connected := false }
  | .sleeping _, .changed => if s.shutdown then { s with phase := .returned false } else { s with phase := .top }
  | .sleeping _, .elapsed =>
    { s with phase := .top, backoff := Backoff.grow 2 maxBackoff s.backoff, failures := s.failures + 1 }
  | _, _ => s

def run (evs : List Ev) : Sup := Trace.run (step fromStr endpoint) init evs

/-! ## The invariant -/

namespace Phase

/-- between the handshake and the end of the stream -/
def inSession : Phase → Bool
  | handshake _ | reading | sending _ => true
  | _ => false

def pending : Phase → List Observation
  | sending pending => pending
  | _ => []

@[simp] theorem pending_afterFrame (observations : List Observation) :
    (afterFrame observations).pending = observations := by
  cases observations <;> rfl

@[simp] theorem inSession_afterFrame (observations : List Observation) : (afterFrame observations).inSession = true := by
  cases observations <;> rfl

end Phase

/-- the observations of the frames received -/
def observed (s : Sup) : List Observation := s.frames.flatMap (frameObservations fromStr endpoint)

/-- what every reachable state satisfies -/
structure Inv (s : Sup) : Prop where
  flag : s.connected = s.phase.inSession
  exact : ∃ lost, s.sent ++ s.phase.pending ++ lost = observed fromStr endpoint s ∧
    (s.phase ≠ .returned true → lost = [])
  backoff : s.backoff = Backoff.delay 2 maxBackoff 1 s.failures
  pause : ∀ delay, s.phase = .sleeping delay → delay = s.backoff

variable {fromStr endpoint}

/-- the phase changes to one with nothing pending, from one with nothing pending -/
theorem Inv.move {s s' : Sup} (h : Inv fromStr endpoint s) (hflag : s'.connected = s'.phase.inSession)
    (hpending : s.phase.pending = []) (hpending' : s'.phase.pending = []) (hopen : s.phase ≠ .returned true)
    (hframes : s'.frames = s.frames) (hsent : s'.sent = s.sent)
    (hbackoff : s'.backoff = Backoff.delay 2 maxBackoff 1 s'.failures)
    (hpause : ∀ delay, s'.phase = .sleeping delay → delay = s'.backoff) : Inv fromStr endpoint s' where
  flag := hflag
  exact := by
    obtain ⟨lost, heq, hlost⟩ := h.exact
    rw [hpending, hlost hopen] at heq
    refine ⟨[], ?_, fun _ => rfl⟩
    rw [hpending', observed, hframes, hsent]
    exact heq
  backoff := hbackoff
  pause := hpause

theorem inv_step (s : Sup) (ev : Ev) (h : Inv fromStr endpoint s) : Inv fromStr endpoint (step fromStr endpoint s ev) := by
  obtain ⟨phase, backoff, connected, shutdown, frames, sent, attempts, failures⟩ := s
  have hbackoff : backoff = Backoff.delay 2 maxBackoff 1 failures := h.backoff
  unfold step
  dsimp only
  split
  · exact ⟨h.flag, h.exact, h.backoff, h.pause⟩
  · -- the condition of the outer loop
    split_ifs
    · exact h.move h.flag rfl rfl Phase.noConfusion rfl rfl hbackoff fun _ hsleep => nomatch hsleep
    · exact h.move h.flag rfl rfl Phase.noConfusion rfl rfl hbackoff fun _ hsleep => nomatch hsleep
  · exact h.move rfl rfl rfl Phase.noConfusion rfl rfl rfl fun _ hsleep => nomatch hsleep
  · exact h.move rfl rfl rfl Phase.noConfusion rfl rfl hbackoff fun _ hsleep => (Phase.sleeping.inj hsleep).symm
  · exact h.move h.flag rfl rfl Phase.noConfusion rfl rfl hbackoff fun _ hsleep => nomatch hsleep
  · exact h.move h.flag rfl rfl Phase.noConfusion rfl rfl hbackoff fun _ hsleep => nomatch hsleep
  · exact h.move rfl rfl rfl Phase.noConfusion rfl rfl hbackoff fun _ hsleep => nomatch hsleep
  · split_ifs
    · exact h.move rfl rfl rfl Phase.noConfusion rfl rfl hbackoff fun _ hsleep => nomatch hsleep
    · exact h
  · -- a text frame
    rename_i f
    obtain ⟨lost, heq, hlost⟩ := h.exact
    rw [hlost Phase.noConfusion] at heq
    constructor
    · rw [Phase.inSession_afterFrame]
      exact h.flag
    · refine ⟨[], ?_, fun _ => rfl⟩
      rw [Phase.pending_afterFrame]
      simp only [observed, List.flatMap_append, List.flatMap_singleton, List.append_nil]
      simpa [observed, Phase.pending] using heq
    · exact hbackoff
    · intro delay hsleep
      cases hobs : frameObservations fromStr endpoint f <;> simp [hobs, Phase.afterFrame] at hsleep
  · exact h.move rfl rfl rfl Phase.noConfusion rfl rfl hbackoff fun _ hsleep => (Phase.sleeping.inj hsleep).symm
  · -- an observation is sent
    rename_i obs pending
    obtain ⟨lost, heq, hlost⟩ := h.exact
    rw [hlost Phase.noConfusion] at heq
    constructor
    · rw [Phase.inSession_afterFrame]
      exact h.flag
    · refine ⟨[], ?_, fun _ => rfl⟩
      rw [Phase.pending_afterFrame]
      simpa [observed, Phase.pending] using heq
    · exact hbackoff
    · intro delay hsleep
      cases pending <;> simp [Phase.afterFrame] at hsleep
  · -- the channel is closed: what is left of the frame is lost
    rename_i obs pending
    obtain ⟨lost, heq, hlost⟩ := h.exact
    rw [hlost Phase.noConfusion] at heq
    exact ⟨rfl, ⟨obs :: pending, by simpa [observed, Phase.pending] using heq, fun hopen => absurd rfl hopen⟩, hbackoff,
      fun _ hsleep => nomatch hsleep⟩
  · split_ifs
    · exact h.move h.flag rfl rfl Phase.noConfusion rfl rfl hbackoff fun _ hsleep => nomatch hsleep
    · exact h.move h.flag rfl rfl Phase.noConfusion rfl rfl hbackoff fun _ hsleep => nomatch hsleep
  · refine h.move h.flag rfl rfl Phase.noConfusion rfl rfl ?_ fun _ hsleep => nomatch hsleep
    rw [Backoff.delay_succ, ← hbackoff]
  · exact h

theorem inv_run (evs : List Ev) : Inv fromStr endpoint (run fromStr endpoint evs) :=
  Trace.run_inv_all inv_step evs ⟨rfl, ⟨[], rfl, fun _ => rfl⟩, rfl, fun _ hsleep => nomatch hsleep⟩

/-! ## Every run -/

/-- **Every run of the supervisor.** The connected flag is up exactly while a connection is. The observations sent are the
first ones of the text frames received, in order and each once; what is missing of a running task is being sent. And a pause
after n pauses without a connection lasts 2 ^ n seconds, but no longer than thirty. -/
theorem supervisor_sound (evs : List Ev) :
    (run fromStr endpoint evs).connected = (run fromStr endpoint evs).phase.inSession ∧
      (run fromStr endpoint evs).sent <+: observed fromStr endpoint (run fromStr endpoint evs) ∧
      ((run fromStr endpoint evs).phase ≠ .returned true →
        (run fromStr endpoint evs).sent ++ (run fromStr endpoint evs).phase.pending =
          observed fromStr endpoint (run fromStr endpoint evs)) ∧
      ∀ delay, (run fromStr endpoint evs).phase = .sleeping delay →
        delay = min (2 ^ (run fromStr endpoint evs).failures) maxBackoff := by
  obtain ⟨hflag, ⟨lost, heq, hlost⟩, hbackoff, hpause⟩ := @inv_run fromStr endpoint evs
  refine ⟨hflag, ?_, fun hopen => ?_, fun delay hsleep => ?_⟩
  · rw [← heq, List.append_assoc]
    exact List.prefix_append _ _
  · rw [← heq, hlost hopen, List.append_nil]
  · rw [hpause delay hsleep, hbackoff]
    cases (run fromStr endpoint evs).failures with
    | zero => rfl
    | succ n => rw [Backoff.delay_succ_eq (by decide), one_mul]

/-- once the signal is given it stays, and no attempt is made -/
theorem step_shutdown {s : Sup} (ev : Ev) (h : s.shutdown = true) :
    (step fromStr endpoint s ev).shutdown = true ∧ (step fromStr endpoint s ev).attempts = s.attempts := by
  unfold step
  split <;> first | exact ⟨rfl, rfl⟩ | exact ⟨h, rfl⟩ | skip
  · rw [if_pos h]
    exact ⟨h, rfl⟩
  · split_ifs
    exact ⟨h, rfl⟩
  · split_ifs
    exact ⟨h, rfl⟩

/-- **Shutdown is final.** However a run goes on after the signal, it makes no further attempt to connect. -/
theorem shutdown_final (evs evs' : List Ev) :
    (run fromStr endpoint (evs ++ .shutdown :: evs')).attempts = (run fromStr endpoint evs).attempts := by
  have hkept : ∀ s : Sup, s.shutdown = true → (Trace.run (step fromStr endpoint) s evs').attempts = s.attempts := by
    intro s hs
    have hkeep : ∀ (t : Sup) ev, t.shutdown = true ∧ t.attempts = s.attempts →
        (step fromStr endpoint t ev).shutdown = true ∧ (step fromStr endpoint t ev).attempts = s.attempts :=
      fun t ev ht => ⟨(step_shutdown ev ht.1).1, (step_shutdown ev ht.1).2.trans ht.2⟩
    exact (Trace.run_inv_all hkeep evs' ⟨hs, rfl⟩).2
  have hsignal : ∀ s : Sup, step fromStr endpoint s .shutdown = { s with shutdown := true } := fun _ => rfl
  rw [run, Trace.run_append, run]
  change (Trace.run _ (step fromStr endpoint _ .shutdown) evs').attempts = _
  rw [hsignal, hkept _ rfl]

/-- **A failed handshake has no pause.** The task connects again at once, as often as it fails. -/
theorem handshake_failure_repeats (n : ℕ) :
    let s := run fromStr endpoint (List.replicate n [Ev.turn, .connect true, .write false]).flatten
    s.phase = .top ∧ s.shutdown = false ∧ s.attempts = n ∧ s.failures = 0 := by
  induction n with
  | zero => exact ⟨rfl, rfl, rfl, rfl⟩
  | succ n ih =>
    obtain ⟨hphase, hshutdown, hattempts, hfailures⟩ := ih
    rw [List.replicate_succ', List.flatten_append, run, Trace.run_append]
    rw [run] at hphase hshutdown hattempts hfailures
    generalize Trace.run (step fromStr endpoint) init _ = s at hphase hshutdown hattempts hfailures
    obtain ⟨phase, backoff, connected, shutdown, frames, sent, attempts, failures⟩ := s
    subst hphase hshutdown hattempts hfailures
    exact ⟨rfl, rfl, rfl, rfl⟩

end

end ObsChain.WsSupervisor
