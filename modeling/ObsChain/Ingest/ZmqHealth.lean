/-
What the topic states and the pauses of the subscriber say.

A topic's state is written by its loop, at every change of phase, and by the coordinator, which marks the topic when it takes
a gap message. The two race: a gap message can be taken after its connection is gone.

- `health_step`, `health_run`: what a topic state can be in each phase, in every reachable state.
- `health_sound`: **main result** on the states. A connection with a gap is shown as degraded, and a topic without a gap is
  shown as it is.
- `late_gap_shown`: a connection without a gap that is shown as degraded, for a gap of the one before.
- `pause_exact`: **main result** on the pauses. Each doubles the one before, up to the maximum, from the first failure after
  the last connection.
-/
import Mathlib.Tactic
import ObsChain.Ingest.ZmqDelivery

namespace ObsChain

namespace Coordinator.EndpointsStatus

/-- the state of a topic -/
def get (st : EndpointsStatus) : BitcoinZmqTopic → SourceHealthState
  | .rawTx => st.rawtx
  | .rawBlock => st.rawblock
  | .sequence => st.sequence

theorem get_set (st : EndpointsStatus) (t u : BitcoinZmqTopic) (state : SourceHealthState) :
    (st.set t state).get u = if u = t then state else st.get u := by
  cases t <;> cases u <;> rfl

end Coordinator.EndpointsStatus

namespace ZmqSubscriber

open Coordinator.EndpointsStatus

/-! ## States -/

/-- the subscriber's state of a topic -/
def Sys.status (s : Sys) (t : BitcoinZmqTopic) : SourceHealthState := s.coord.zmq.get t

namespace Phase

/-- what the loop itself writes for its phase -/
def ownState : Phase → SourceHealthState
  | starting | sleeping _ => .disconnected
  | connecting => .connecting
  | receiving _ | sending _ _ | stopped => .connected

/-- a connection was made and not given up -/
def inSession : Phase → Bool
  | receiving _ | sending _ _ | stopped => true
  | _ => false

@[simp] theorem ownState_after (tracker : ZmqSequenceTracker) (ms : List BitcoinZmqMessage) :
    (after tracker ms).ownState = .connected := by
  cases ms <;> rfl

end Phase

/-- the connection of the topic revealed a gap -/
def Sys.sessionGap (cfg : SysCfg) (s : Sys) (t : BitcoinZmqTopic) : Bool :=
  (session (cfg.topicCfg t) (s.history t).session).2.any (·.isGap)

/-- one of its connections did -/
def Sys.anyGap (cfg : SysCfg) (s : Sys) (t : BitcoinZmqTopic) : Bool :=
  (emitted (cfg.topicCfg t) (s.history t)).any (·.isGap)

/-- what a topic state can be -/
structure TopicHealth (cfg : SysCfg) (s : Sys) (t : BitcoinZmqTopic) (loop : Loop) : Prop where
  own : s.status t = loop.phase.ownState ∨ s.status t = .degraded
  shown : loop.phase.inSession = true → s.sessionGap cfg t = true → s.status t = .degraded
  caused : s.status t = .degraded → s.anyGap cfg t = true

structure Health (cfg : SysCfg) (s : Sys) : Prop where
  topics : ∀ t loop, s.loops t = some loop → TopicHealth cfg s t loop
  configured : ∀ t, s.loops t = none ↔ cfg.zmq.endpoint t = none
  unconfigured : ∀ t, s.loops t = none → s.status t = .notConfigured

section Turn

variable {cfg : SysCfg} {s : Sys} {t : BitcoinZmqTopic} {loop : Loop}

@[simp] theorem setTopicStatus_status (s : Sys) (t u : BitcoinZmqTopic) (state : SourceHealthState) :
    (s.setTopicStatus t state).status u = if u = t then state else s.status u :=
  get_set _ _ _ _

@[simp] theorem setLoop_status (s : Sys) (t u : BitcoinZmqTopic) (loop : Loop) : (s.setLoop t loop).status u = s.status u :=
  rfl

@[simp] theorem setHistory_status (s : Sys) (t u : BitcoinZmqTopic) (h : History) :
    (s.setHistory t h).status u = s.status u := rfl

/-- the loop has just written its own state, outside a connection -/
theorem TopicHealth.written {state : SourceHealthState} (hstatus : s.status t = state) (hown : loop.phase.ownState = state)
    (hne : state ≠ .degraded) (hout : loop.phase.inSession = true → s.sessionGap cfg t = false) :
    TopicHealth cfg s t loop where
  own := .inl (hstatus.trans hown.symm)
  shown := by
    intro hin hgap
    rw [hout hin] at hgap
    cases hgap
  caused := by
    intro hdegraded
    exact absurd (hstatus.symm.trans hdegraded) hne

theorem disconnect_health (backoff : ℕ) :
    ∃ loop', (disconnect cfg s t backoff).loops t = some loop' ∧ TopicHealth cfg (disconnect cfg s t backoff) t loop' := by
  have hstatus : (disconnect cfg s t backoff).status t = .disconnected := by
    rw [disconnect, setHistory_status, setLoop_status, setTopicStatus_status, if_pos rfl]
  exact ⟨_, setLoop_same _ _ _, TopicHealth.written hstatus rfl (by decide) Bool.noConfusion⟩

theorem recv_health (h : TopicHealth cfg s t loop) (hinv : TopicInv cfg s t loop) {endpoint : String}
    (hend : cfg.zmq.endpoint t = some endpoint) {tracker : ZmqSequenceTracker} (hphase : loop.phase = .receiving tracker)
    (received : Received) : ∃ loop', (recv cfg s t endpoint loop tracker received).loops t = some loop' ∧
      TopicHealth cfg (recv cfg s t endpoint loop tracker received) t loop' := by
  have hcfg : cfg.loop t endpoint = cfg.topicCfg t := by rw [SysCfg.topicCfg, hend]; rfl
  have htracker := hinv.tracker tracker (by rw [hphase]; rfl)
  let r := receive (cfg.loop t endpoint) tracker received
  have hr : r = receive (cfg.topicCfg t) tracker received := by rw [← hcfg]
  let s' := recv cfg s t endpoint loop tracker received
  have hhistory : s'.history t = { s.history t with session := (s.history t).session ++ [received] } := setHistory_same _ _ _
  have hsession : s'.sessionGap cfg t = (s.sessionGap cfg t || r.2.any (·.isGap)) := by
    rw [Sys.sessionGap, hhistory, session_append, ← htracker, ← hr, List.any_append]
    rfl
  have hany : s'.anyGap cfg t = (s.anyGap cfg t || r.2.any (·.isGap)) := by
    rw [Sys.anyGap, hhistory, emitted_received, ← htracker, ← hr, List.any_append]
    rfl
  have hstatus : s'.status t = if r.2.any (·.isGap) then .degraded else s.status t := by
    change (if r.2.any (·.isGap) then s.setTopicStatus t .degraded else s).status t = _
    split_ifs
    · rw [setTopicStatus_status, if_pos rfl]
    · rfl
  refine ⟨{ loop with phase := .after r.1 r.2 }, setLoop_same _ _ _, ?_⟩
  change TopicHealth cfg s' t _
  cases hgap : r.2.any (·.isGap) with
  | true =>
    rw [hgap, if_pos rfl] at hstatus
    rw [hgap, Bool.or_true] at hany
    exact ⟨.inr hstatus, fun _ _ => hstatus, fun _ => hany⟩
  | false =>
    rw [hgap, if_neg Bool.false_ne_true] at hstatus
    rw [hgap, Bool.or_false] at hsession hany
    constructor
    · rw [hstatus, Phase.ownState_after]
      have hown := h.own
      rwa [hphase] at hown
    · intro _ hs
      rw [hsession] at hs
      rw [hstatus]
      exact h.shown (by rw [hphase]; rfl) hs
    · intro hdegraded
      rw [hstatus] at hdegraded
      rw [hany]
      exact h.caused hdegraded

/-- a topic whose state, history and phase are kept as they are -/
theorem TopicHealth.congr {s' : Sys} {loop' : Loop} (h : TopicHealth cfg s t loop) (hstatus : s'.status t = s.status t)
    (hhistory : s'.history t = s.history t) (hown : loop'.phase.ownState = loop.phase.ownState)
    (hin : loop'.phase.inSession = loop.phase.inSession) : TopicHealth cfg s' t loop' where
  own := by rw [hstatus, hown]; exact h.own
  shown := by rw [hin, hstatus, Sys.sessionGap, hhistory]; exact h.shown
  caused := by rw [hstatus, Sys.anyGap, hhistory]; exact h.caused

end Turn

/-! ## Every step -/

/-- a turn of one topic writes nothing of the others -/
theorem topicStep_others (cfg : SysCfg) (s : Sys) (t : BitcoinZmqTopic) (ev : Ev) {u : BitcoinZmqTopic} (hu : u ≠ t) :
    (topicStep cfg s t ev).loops u = s.loops u ∧ (topicStep cfg s t ev).history u = s.history u ∧
      (topicStep cfg s t ev).status u = s.status u := by
  have hstatus : ∀ state, (s.setTopicStatus t state).status u = s.status u := by
    intro state
    rw [setTopicStatus_status, if_neg hu]
  have hdisconnect : ∀ backoff, (disconnect cfg s t backoff).loops u = s.loops u ∧
      (disconnect cfg s t backoff).history u = s.history u ∧ (disconnect cfg s t backoff).status u = s.status u :=
    fun _ => ⟨setLoop_ne _ _ hu, setHistory_ne _ _ hu, hstatus _⟩
  rcases topicStep_cases cfg s t ev with heq | ⟨loop, endpoint, -, -, hturn⟩
  · rw [heq]
    exact ⟨rfl, rfl, rfl⟩
  rcases hturn with ⟨-, -, heq⟩ | ⟨outcome, -, heq⟩ | ⟨tracker, received, -, heq⟩ | ⟨tracker, -, heq⟩ |
    ⟨tracker, m, pending, -, heq⟩ <;> rw [heq]
  · exact ⟨setLoop_ne _ _ hu, rfl, hstatus _⟩
  · cases outcome with
    | refused => exact hdisconnect _
    | notSubscribed => exact hdisconnect _
    | subscribed => exact ⟨setLoop_ne _ _ hu, setHistory_ne _ _ hu, hstatus _⟩
  · unfold recv
    dsimp only
    split
    · exact ⟨setLoop_ne _ _ hu, setHistory_ne _ _ hu, hstatus _⟩
    · exact ⟨setLoop_ne _ _ hu, setHistory_ne _ _ hu, rfl⟩
  · exact hdisconnect _
  · unfold send
    split_ifs
    · exact ⟨setLoop_ne _ _ hu, rfl, rfl⟩
    · exact ⟨rfl, rfl, rfl⟩
    · exact ⟨setLoop_ne _ _ hu, rfl, rfl⟩

/-- the turn of a topic keeps that topic's health -/
theorem topicStep_health {cfg : SysCfg} {s : Sys} (h : Health cfg s) (hinv : Inv cfg s) {t : BitcoinZmqTopic} {loop : Loop}
    (hloop : s.loops t = some loop) (ev : Ev) :
    ∃ loop', (topicStep cfg s t ev).loops t = some loop' ∧ TopicHealth cfg (topicStep cfg s t ev) t loop' := by
  have hh := h.topics t loop hloop
  rcases topicStep_cases cfg s t ev with heq | ⟨loop₀, endpoint, hloop₀, hend, hturn⟩
  · rw [heq]
    exact ⟨loop, hloop, hh⟩
  obtain rfl : loop₀ = loop := Option.some.inj (hloop₀.symm.trans hloop)
  rcases hturn with ⟨-, -, heq⟩ | ⟨outcome, -, heq⟩ | ⟨tracker, received, hphase, heq⟩ | ⟨tracker, hphase, heq⟩ |
    ⟨tracker, m, pending, hphase, heq⟩ <;> rw [heq]
  · have hstatus : (wake s t loop₀).status t = .connecting := by
      rw [wake, setLoop_status, setTopicStatus_status, if_pos rfl]
    exact ⟨_, setLoop_same _ _ _, TopicHealth.written hstatus rfl (by decide) Bool.noConfusion⟩
  · cases outcome with
    | refused => exact disconnect_health _
    | notSubscribed => exact disconnect_health _
    | subscribed =>
      have hstatus : (connect cfg s t loop₀ .subscribed).status t = .connected := by
        rw [connect, setHistory_status, setLoop_status, setTopicStatus_status, if_pos rfl]
      refine ⟨_, setLoop_same _ _ _, TopicHealth.written hstatus rfl (by decide) fun _ => ?_⟩
      rw [Sys.sessionGap, connect, setHistory_same]
      rfl
  · exact recv_health hh (hinv.topics t loop₀ hloop) hend hphase received
  · exact disconnect_health _
  · have hphases : ∀ tracker ms, (Phase.after tracker ms).inSession = true := by
      intro tracker ms
      cases ms <;> rfl
    unfold send
    split_ifs
    · refine ⟨_, setLoop_same _ _ _, hh.congr rfl rfl ?_ ?_⟩
      · rw [hphase, Phase.ownState_after]
        rfl
      · rw [hphase]
        exact hphases _ _
    · exact ⟨loop₀, hloop, hh⟩
    · refine ⟨_, setLoop_same _ _ _, hh.congr rfl rfl ?_ ?_⟩ <;> rw [hphase] <;> rfl

/-- a step that writes no topic state -/
theorem Health.congr {cfg : SysCfg} {s s' : Sys} (h : Health cfg s) (hloops : s'.loops = s.loops)
    (hhistory : s'.history = s.history) (hstatus : ∀ t, s'.status t = s.status t) : Health cfg s' where
  topics := by
    intro t loop hloop
    rw [hloops] at hloop
    exact (h.topics t loop hloop).congr (hstatus t) (by rw [hhistory]) rfl rfl
  configured := by rw [hloops]; exact h.configured
  unconfigured := by
    intro t hnone
    rw [hloops] at hnone
    rw [hstatus]
    exact h.unconfigured t hnone

/-- **The coordinator takes a message**: a gap marks its topic. -/
theorem take_status (cfg : SysCfg) (env : Coordinator.Env) (downstream : Bool) {s : Sys} {m : BitcoinZmqMessage}
    {rest : List BitcoinZmqMessage} (hchannel : s.channel = m :: rest) (t : BitcoinZmqTopic) :
    (take cfg env downstream s).status t = if m.isGap = true ∧ m.topic = t then .degraded else s.status t := by
  have hview := congrArg GapView.zmq (handleMessage_gapView cfg.coordinator env s.coord m)
  have hzmq : (take cfg env downstream s).coord.zmq =
      if m.isGap then s.coord.zmq.set m.topic .degraded else s.coord.zmq := by
    rw [take, hchannel]
    exact hview
  rw [Sys.status, hzmq]
  cases hgap : m.isGap with
  | true =>
    rw [if_pos rfl, get_set]
    simp only [true_and, eq_comm]
    rfl
  | false =>
    simp only [Bool.false_eq_true, false_and, if_false]
    rfl

theorem take_health {cfg : SysCfg} {s : Sys} (h : Health cfg s) (hinv : Inv cfg s) (env : Coordinator.Env)
    (downstream : Bool) : Health cfg (take cfg env downstream s) := by
  cases hchannel : s.channel with
  | nil =>
    unfold take
    rw [hchannel]
    dsimp only
    split_ifs
    · exact h.congr rfl rfl fun _ => rfl
    · exact h
  | cons m rest =>
    have hstatus := take_status cfg env downstream hchannel
    have hloops : (take cfg env downstream s).loops = s.loops := by rw [take, hchannel]
    have hhistory : (take cfg env downstream s).history = s.history := by rw [take, hchannel]
    -- a queued message is of a topic that emitted it
    have hmem : m ∈ s.delivered m.topic := by simp [Sys.delivered, hchannel]
    constructor
    · intro t loop hloop
      rw [hloops] at hloop
      have hh := h.topics t loop hloop
      by_cases hmark : m.isGap = true ∧ m.topic = t
      · have hdegraded : (take cfg env downstream s).status t = .degraded := by rw [hstatus, if_pos hmark]
        refine ⟨.inr hdegraded, fun _ _ => hdegraded, fun _ => ?_⟩
        obtain ⟨lost, heq, -⟩ := (hinv.topics t loop hloop).exact
        rw [Sys.anyGap, hhistory, ← heq, List.any_append, List.any_append]
        rw [hmark.2] at hmem
        simp [List.any_eq_true.2 ⟨m, hmem, hmark.1⟩]
      · exact hh.congr (by rw [hstatus, if_neg hmark]) (by rw [hhistory]) rfl rfl
    · rw [hloops]
      exact h.configured
    · intro t hnone
      rw [hloops] at hnone
      obtain ⟨hempty, -⟩ := hinv.unconfigured t hnone
      rw [hstatus, if_neg]
      · exact h.unconfigured t hnone
      · rintro ⟨-, rfl⟩
        rw [hempty] at hmem
        cases hmem

theorem topicTurn_health {cfg : SysCfg} {s : Sys} (h : Health cfg s) (hinv : Inv cfg s) (t : BitcoinZmqTopic) (ev : Ev) :
    Health cfg (topicStep cfg s t ev) := by
  cases hloop : s.loops t with
  | none =>
    have hsame : topicStep cfg s t ev = s := by simp [topicStep, hloop]
    rw [hsame]
    exact h
  | some loop =>
    obtain ⟨loop', hloop', hhealth⟩ := topicStep_health h hinv hloop ev
    constructor
    · intro u l hl
      by_cases hu : u = t
      · subst hu
        rw [hloop'] at hl
        obtain rfl := Option.some.inj hl
        exact hhealth
      · obtain ⟨hloops, hhistory, hstatus⟩ := topicStep_others cfg s t ev hu
        rw [hloops] at hl
        exact (h.topics u l hl).congr hstatus hhistory rfl rfl
    · intro u
      by_cases hu : u = t
      · subst hu
        rw [hloop', ← h.configured, hloop]
        simp only [reduceCtorEq]
      · rw [(topicStep_others cfg s t ev hu).1]
        exact h.configured u
    · intro u hnone
      by_cases hu : u = t
      · subst hu
        rw [hloop'] at hnone
        cases hnone
      · obtain ⟨hloops, -, hstatus⟩ := topicStep_others cfg s t ev hu
        rw [hloops] at hnone
        rw [hstatus]
        exact h.unconfigured u hnone

/-- **Every step** keeps what the topic states say. -/
theorem health_step {cfg : SysCfg} (s : Sys) (ev : Ev) (h : Inv cfg s ∧ Health cfg s) :
    Inv cfg (step cfg s ev) ∧ Health cfg (step cfg s ev) := by
  obtain ⟨hinv, hhealth⟩ := h
  refine ⟨inv_step s ev hinv, ?_⟩
  cases ev with
  | wake t | connect t _ | recv t _ | recvError t | send t => exact topicTurn_health hhealth hinv t _
  | take env downstream =>
    dsimp only [step]
    split_ifs
    · exact take_health hhealth hinv env downstream
    · exact hhealth
  | poll env =>
    dsimp only [step]
    split_ifs
    · have hview := congrArg GapView.zmq (reconcileTipAndGap_gapView cfg.coordinator env s.coord)
      exact hhealth.congr rfl rfl fun t => congrArg (fun zmq => zmq.get t) hview
    · exact hhealth
  | shutdown => exact hhealth.congr rfl rfl fun _ => rfl

theorem health_run (cfg : SysCfg) (evs : List Ev) : Inv cfg (run cfg evs) ∧ Health cfg (run cfg evs) := by
  apply Trace.run_inv_all health_step evs
  refine ⟨inv_init cfg, ?_, fun _ => Option.map_eq_none_iff, ?_⟩
  · intro t loop hloop
    obtain ⟨endpoint, hend, rfl⟩ := Option.map_eq_some_iff.1 hloop
    have hstatus : (init cfg).status t = .disconnected := by
      cases t <;> exact congrArg newStatus hend
    exact TopicHealth.written hstatus rfl (by decide) Bool.noConfusion
  · intro t hnone
    have hend := Option.map_eq_none_iff.1 hnone
    cases t <;> exact congrArg newStatus hend

/-- **What a topic state says.** In every reachable state of every interleaving: a topic with a connection that revealed a gap
is shown as degraded; a topic none of whose connections revealed one is shown as its loop is; and a topic that is not
configured is shown as such. -/
theorem health_sound (cfg : SysCfg) (evs : List Ev) (t : BitcoinZmqTopic) :
    (∀ loop, (run cfg evs).loops t = some loop →
      (loop.phase.inSession = true → (run cfg evs).sessionGap cfg t = true → (run cfg evs).status t = .degraded) ∧
      ((run cfg evs).anyGap cfg t = false → (run cfg evs).status t = loop.phase.ownState) ∧
      ((run cfg evs).status t = loop.phase.ownState ∨ (run cfg evs).status t = .degraded)) ∧
    (cfg.zmq.endpoint t = none → (run cfg evs).status t = .notConfigured) := by
  obtain ⟨-, htopics, hconfigured, hunconfigured⟩ := health_run cfg evs
  refine ⟨fun loop hloop => ?_, fun hend => hunconfigured t ((hconfigured t).2 hend)⟩
  obtain ⟨hown, hshown, hcaused⟩ := htopics t loop hloop
  refine ⟨hshown, fun hnone => ?_, hown⟩
  obtain hown | hdegraded := hown
  · exact hown
  · rw [hcaused hdegraded] at hnone
    cases hnone

/-- the connection with the gap is lost, and a new one is made before the gap message is taken -/
def lateGapRun : List Ev :=
  gapRun ++ [.recvError .sequence, .wake .sequence, .connect .sequence .subscribed,
    .take ⟨forkRpc, 0, fun _ => .error "eof"⟩ true]

/-- **A late mark**: the new connection has no gap, and is shown as degraded. -/
theorem late_gap_shown : (run oneTopic lateGapRun).sessionGap oneTopic .sequence = false ∧
    (run oneTopic lateGapRun).status .sequence = .degraded := by
  decide +kernel

/-! ## Pauses -/

/-- the backoff of a loop, and the pause it is in, from the failures since the last connection -/
structure Paced (cfg : SysCfg) (s : Sys) (t : BitcoinZmqTopic) (loop : Loop) : Prop where
  backoff : loop.backoff =
    Backoff.delay 2 cfg.zmq.maxReconnectMs cfg.zmq.initialReconnectMs (s.history t).failures
  pause : ∀ delay, loop.phase = .sleeping delay → ∃ n, (s.history t).failures = n + 1 ∧
    delay = Backoff.delay 2 cfg.zmq.maxReconnectMs cfg.zmq.initialReconnectMs n

def AllPaced (cfg : SysCfg) (s : Sys) : Prop := ∀ t loop, s.loops t = some loop → Paced cfg s t loop

theorem Paced.congr {cfg : SysCfg} {s s' : Sys} {t : BitcoinZmqTopic} {loop loop' : Loop} (h : Paced cfg s t loop)
    (hhistory : (s'.history t).failures = (s.history t).failures) (hbackoff : loop'.backoff = loop.backoff)
    (hphase : ∀ delay, loop'.phase = .sleeping delay → loop.phase = .sleeping delay) : Paced cfg s' t loop' where
  backoff := by rw [hbackoff, hhistory]; exact h.backoff
  pause := by rw [hhistory]; exact fun delay hsleep => h.pause delay (hphase delay hsleep)

section Turn

variable {cfg : SysCfg} {s : Sys} {t : BitcoinZmqTopic} {loop : Loop}

theorem Phase.after_ne_sleeping (tracker : ZmqSequenceTracker) (ms : List BitcoinZmqMessage) (delay : ℕ) :
    after tracker ms ≠ sleeping delay := by
  cases ms <;> exact Phase.noConfusion

/-- the pause is the backoff, which grows -/
theorem disconnect_paced (h : Paced cfg s t loop) :
    ∃ loop', (disconnect cfg s t loop.backoff).loops t = some loop' ∧
      Paced cfg (disconnect cfg s t loop.backoff) t loop' := by
  have hfailures : ((disconnect cfg s t loop.backoff).history t).failures = (s.history t).failures + 1 := by
    rw [disconnect, setHistory_same]
  refine ⟨_, setLoop_same _ _ _, ?_, ?_⟩
  · rw [hfailures, Backoff.delay_succ, ← h.backoff]
  · intro delay hsleep
    obtain rfl := Phase.sleeping.inj hsleep
    exact ⟨_, hfailures, h.backoff⟩

theorem topicStep_paced (h : Paced cfg s t loop) (hloop : s.loops t = some loop) (ev : Ev) :
    ∃ loop', (topicStep cfg s t ev).loops t = some loop' ∧ Paced cfg (topicStep cfg s t ev) t loop' := by
  rcases topicStep_cases cfg s t ev with heq | ⟨loop₀, endpoint, hloop₀, -, hturn⟩
  · rw [heq]
    exact ⟨loop, hloop, h⟩
  obtain rfl : loop₀ = loop := Option.some.inj (hloop₀.symm.trans hloop)
  rcases hturn with ⟨-, -, heq⟩ | ⟨outcome, -, heq⟩ | ⟨tracker, received, -, heq⟩ | ⟨tracker, -, heq⟩ |
    ⟨tracker, m, pending, -, heq⟩ <;> rw [heq]
  · refine ⟨_, setLoop_same _ _ _, h.congr rfl rfl fun _ hsleep => ?_⟩
    cases hsleep
  · cases outcome with
    | refused => exact disconnect_paced h
    | notSubscribed => exact disconnect_paced h
    | subscribed =>
      have hfailures : ((connect cfg s t loop₀ .subscribed).history t).failures = 0 := by
        rw [connect, setHistory_same]
      refine ⟨_, setLoop_same _ _ _, ?_, fun _ hsleep => ?_⟩
      · rw [hfailures, Backoff.delay_zero]
      · cases hsleep
  · refine ⟨_, setLoop_same _ _ _, h.congr ?_ rfl fun delay hsleep => ?_⟩
    · rw [recv, setHistory_same]
    · exact absurd hsleep (Phase.after_ne_sleeping _ _ _)
  · exact disconnect_paced h
  · unfold send
    split_ifs
    · exact ⟨_, setLoop_same _ _ _, h.congr rfl rfl fun delay hsleep => absurd hsleep (Phase.after_ne_sleeping _ _ _)⟩
    · exact ⟨loop₀, hloop, h⟩
    · refine ⟨_, setLoop_same _ _ _, h.congr rfl rfl fun _ hsleep => ?_⟩
      cases hsleep

end Turn

theorem paced_step {cfg : SysCfg} (s : Sys) (ev : Ev) (h : AllPaced cfg s) : AllPaced cfg (step cfg s ev) := by
  -- the coordinator's steps change neither the loops nor their history
  have hkeep : ∀ s' : Sys, s'.loops = s.loops → s'.history = s.history → AllPaced cfg s' := by
    intro s' hloops hhistory t loop hloop
    rw [hloops] at hloop
    exact (h t loop hloop).congr (by rw [hhistory]) rfl fun _ => id
  have hturn : ∀ t, AllPaced cfg (topicStep cfg s t ev) := by
    intro t u loop hloop
    by_cases hu : u = t
    · subst hu
      cases hbefore : s.loops u with
      | none => simp [topicStep, hbefore] at hloop
      | some before =>
        obtain ⟨loop', hloop', hpaced⟩ := topicStep_paced (h u before hbefore) hbefore ev
        rw [hloop'] at hloop
        obtain rfl := Option.some.inj hloop
        exact hpaced
    · obtain ⟨hloops, hhistory, -⟩ := topicStep_others cfg s t ev hu
      rw [hloops] at hloop
      exact (h u loop hloop).congr (by rw [hhistory]) rfl fun _ => id
  cases ev with
  | wake t | connect t _ | recv t _ | recvError t | send t => exact hturn t
  | take env downstream =>
    dsimp only [step]
    split_ifs
    · unfold take
      split
      · split_ifs <;> exact hkeep _ rfl rfl
      · exact hkeep _ rfl rfl
    · exact h
  | poll env =>
    dsimp only [step]
    split_ifs <;> exact hkeep _ rfl rfl
  | shutdown => exact hkeep _ rfl rfl

/-- **Every pause.** In every reachable state, a loop that sleeps after its (n + 1)-st failure since its last connection
sleeps for the initial delay doubled n times, but no longer than the maximum; so every pause lies between the smaller and the
larger of the two configured delays. -/
theorem pause_exact (cfg : SysCfg) (evs : List Ev) (t : BitcoinZmqTopic) (loop : Loop) (delay : ℕ)
    (hloop : (run cfg evs).loops t = some loop) (hsleep : loop.phase = .sleeping delay) :
    ∃ n, ((run cfg evs).history t).failures = n + 1 ∧
      delay = (if n = 0 then cfg.zmq.initialReconnectMs
        else min (cfg.zmq.initialReconnectMs * 2 ^ n) cfg.zmq.maxReconnectMs) ∧
      min cfg.zmq.initialReconnectMs cfg.zmq.maxReconnectMs ≤ delay ∧
      delay ≤ max cfg.zmq.initialReconnectMs cfg.zmq.maxReconnectMs := by
  have hpaced : AllPaced cfg (run cfg evs) := by
    apply Trace.run_inv_all paced_step evs
    intro t loop hloop
    obtain ⟨endpoint, -, rfl⟩ := Option.map_eq_some_iff.1 hloop
    exact ⟨rfl, fun _ hsleep => nomatch hsleep⟩
  obtain ⟨-, hpause⟩ := hpaced t loop hloop
  obtain ⟨n, hfailures, rfl⟩ := hpause delay hsleep
  refine ⟨n, hfailures, ?_, Backoff.le_delay (by decide) n, Backoff.delay_le n⟩
  cases n with
  | zero => rfl
  | succ n =>
    rw [if_neg (Nat.succ_ne_zero n)]
    exact Backoff.delay_succ_eq (by decide) n

/-- the third failure in a row: 500 milliseconds doubled twice -/
theorem pause_exact_third : ∃ loop,
    (run oneTopic [.wake .sequence, .connect .sequence .refused, .wake .sequence, .connect .sequence .notSubscribed,
      .wake .sequence, .connect .sequence .refused]).loops .sequence = some loop ∧ loop.phase = .sleeping 2000 ∧
    2000 ≤ max oneTopic.zmq.initialReconnectMs oneTopic.zmq.maxReconnectMs := by
  obtain ⟨loop, hloop, hsleep⟩ : ∃ loop,
      (run oneTopic [.wake .sequence, .connect .sequence .refused, .wake .sequence, .connect .sequence .notSubscribed,
        .wake .sequence, .connect .sequence .refused]).loops .sequence = some loop ∧ loop.phase = .sleeping 2000 :=
    ⟨_, rfl, rfl⟩
  obtain ⟨-, -, -, -, hmax⟩ := pause_exact oneTopic _ .sequence loop 2000 hloop hsleep
  exact ⟨loop, hloop, hsleep, hmax⟩

end ZmqSubscriber

end ObsChain
