/-
From the socket to the coordinator: nothing is lost, repeated or reordered between a topic's socket and the messages the
coordinator takes, over every order in which the tasks take their turns.

`emitted` is what the connections of a topic should give: for each of them a fresh tracker, for each well-formed multipart
message the gap it reveals and then its parsed payload.

- `session_append`, `receive_topic`: one more multipart message.
- `topicStep_cases`: what one turn of a topic loop can do.
- `inv_step`, `inv_run`: what is delivered, queued and pending make up what was emitted, in every reachable state.
- `delivery_exact`: **main result**, for every topic of every run.
- `handleMessage_gapView`, `gap_counters_taken`: the two gap counters are those of the messages taken.
-/
import Mathlib.Tactic
import ObsChain.Ingest.ZmqSubscriber

namespace ObsChain.ZmqSubscriber

open BitcoinZmqMessage

/-! ## What the connections of a topic give -/

/-- the tracker at the end of a connection, and the messages it gave -/
def session (cfg : LoopCfg) (rs : List Received) : ZmqSequenceTracker × List BitcoinZmqMessage :=
  rs.foldl (fun acc r => ((receive cfg acc.1 r).1, acc.2 ++ (receive cfg acc.1 r).2)) (.new, [])

def History.sessions (h : History) : List (List Received) := h.earlier ++ [h.session]

/-- the messages of all connections, one after another -/
def emitted (cfg : LoopCfg) (h : History) : List BitcoinZmqMessage := h.sessions.flatMap fun rs => (session cfg rs).2

/-- the loop of a topic, its endpoint filled in -/
def SysCfg.topicCfg (cfg : SysCfg) (t : BitcoinZmqTopic) : LoopCfg := cfg.loop t ((cfg.zmq.endpoint t).getD "")

/-- what of a topic was sent: taken by the coordinator, or still queued -/
def Sys.delivered (s : Sys) (t : BitcoinZmqTopic) : List BitcoinZmqMessage :=
  (s.taken ++ s.channel).filter fun m => m.topic = t

namespace Phase

/-- parsed and not yet sent -/
def pending : Phase → List BitcoinZmqMessage
  | sending _ pending => pending
  | _ => []

def tracker : Phase → Option ZmqSequenceTracker
  | receiving tracker | sending tracker _ => some tracker
  | _ => none

@[simp] theorem pending_after (tracker : ZmqSequenceTracker) (ms : List BitcoinZmqMessage) :
    (after tracker ms).pending = ms := by
  cases ms <;> rfl

@[simp] theorem tracker_after (tracker : ZmqSequenceTracker) (ms : List BitcoinZmqMessage) :
    (after tracker ms).tracker = some tracker := by
  cases ms <;> rfl

theorem after_ne_stopped (tracker : ZmqSequenceTracker) (ms : List BitcoinZmqMessage) : after tracker ms ≠ stopped := by
  cases ms <;> exact Phase.noConfusion

end Phase

theorem session_append (cfg : LoopCfg) (rs : List Received) (r : Received) :
    session cfg (rs ++ [r]) =
      ((receive cfg (session cfg rs).1 r).1, (session cfg rs).2 ++ (receive cfg (session cfg rs).1 r).2) := by
  simp [session, List.foldl_append]

theorem emitted_received (cfg : LoopCfg) (h : History) (r : Received) :
    emitted cfg { h with session := h.session ++ [r] } =
      emitted cfg h ++ (receive cfg (session cfg h.session).1 r).2 := by
  simp [emitted, History.sessions, session_append]

/-- a new connection starts with nothing -/
theorem emitted_connected (cfg : LoopCfg) (h : History) : emitted cfg ⟨h.earlier ++ [h.session], [], 0⟩ = emitted cfg h := by
  simp [emitted, History.sessions, session]

theorem gapMessage_topic {t : BitcoinZmqTopic} {result : SequenceCheckResult} {m : BitcoinZmqMessage}
    (h : m ∈ gapMessage t result) : m.topic = t := by
  cases result with
  | gap previous current missed =>
    obtain rfl := List.mem_singleton.1 h
    rfl
  | _ => cases h

theorem payloadMessage_topic {cfg : LoopCfg} {now : DateTime} {payload : List UInt8} {n : UInt32} {m : BitcoinZmqMessage}
    (h : m ∈ payloadMessage cfg now payload n) : m.topic = cfg.topic := by
  unfold payloadMessage at h
  cases ht : cfg.topic with
  | rawTx =>
    simp only [ht] at h
    split at h
    · obtain rfl := List.mem_singleton.1 h
      rfl
    · cases h
  | rawBlock =>
    simp only [ht] at h
    split at h
    · obtain rfl := List.mem_singleton.1 h
      rfl
    · cases h
  | sequence =>
    simp only [ht] at h
    split at h
    · obtain rfl := List.mem_singleton.1 h
      rfl
    · cases h

/-- a loop sends messages of its own topic -/
theorem receive_topic {cfg : LoopCfg} {tracker : ZmqSequenceTracker} {r : Received} {m : BitcoinZmqMessage}
    (h : m ∈ (receive cfg tracker r).2) : m.topic = cfg.topic := by
  unfold receive at h
  split at h
  · cases h
  · obtain hgap | hpayload := List.mem_append.1 h
    · exact gapMessage_topic hgap
    · exact payloadMessage_topic hpayload

/-! ## One turn of a topic loop -/

section Frame

variable (s : Sys) (t u : BitcoinZmqTopic) (loop : Loop) (h : History) (state : SourceHealthState)

@[simp] theorem setLoop_same : (s.setLoop t loop).loops t = some loop := Function.update_self _ _ _

@[simp] theorem setHistory_same : (s.setHistory t h).history t = h := Function.update_self _ _ _

variable {t u}

theorem setLoop_ne (hne : u ≠ t) : (s.setLoop t loop).loops u = s.loops u := Function.update_of_ne hne _ _

theorem setHistory_ne (hne : u ≠ t) : (s.setHistory t h).history u = s.history u := Function.update_of_ne hne _ _

@[simp] theorem setLoop_history : (s.setLoop t loop).history = s.history := rfl
@[simp] theorem setLoop_delivered : (s.setLoop t loop).delivered u = s.delivered u := rfl
@[simp] theorem setHistory_loops : (s.setHistory t h).loops = s.loops := rfl
@[simp] theorem setHistory_delivered : (s.setHistory t h).delivered u = s.delivered u := rfl
@[simp] theorem setTopicStatus_loops : (s.setTopicStatus t state).loops = s.loops := rfl
@[simp] theorem setTopicStatus_history : (s.setTopicStatus t state).history = s.history := rfl
@[simp] theorem setTopicStatus_delivered : (s.setTopicStatus t state).delivered u = s.delivered u := rfl

end Frame

/-- **One turn**: what the loop of a topic can do, and the phase it does it in. -/
theorem topicStep_cases (cfg : SysCfg) (s : Sys) (t : BitcoinZmqTopic) (ev : Ev) :
    topicStep cfg s t ev = s ∨ ∃ loop endpoint, s.loops t = some loop ∧ cfg.zmq.endpoint t = some endpoint ∧
      ((loop.phase.pending = [] ∧ loop.phase ≠ .stopped ∧ topicStep cfg s t ev = wake s t loop) ∨
        (∃ outcome, loop.phase = .connecting ∧ topicStep cfg s t ev = connect cfg s t loop outcome) ∨
        (∃ tracker received, loop.phase = .receiving tracker ∧
          topicStep cfg s t ev = recv cfg s t endpoint loop tracker received) ∨
        (∃ tracker, loop.phase = .receiving tracker ∧ topicStep cfg s t ev = disconnect cfg s t loop.backoff) ∨
        ∃ tracker m pending, loop.phase = .sending tracker (m :: pending) ∧
          topicStep cfg s t ev = send s t loop tracker m pending) := by
  cases hloop : s.loops t with
  | none => exact .inl (by simp [topicStep, hloop])
  | some loop =>
    cases hend : cfg.zmq.endpoint t with
    | none => exact .inl (by simp [topicStep, hloop, hend])
    | some endpoint =>
      obtain ⟨phase, backoff⟩ := loop
      have hstep : topicStep cfg s t ev = topicStep cfg s t ev := rfl
      conv_rhs at hstep => simp only [topicStep, hloop, hend]
      split at hstep
      · exact .inr ⟨_, _, rfl, rfl, .inl ⟨rfl, Phase.noConfusion, hstep⟩⟩
      · exact .inr ⟨_, _, rfl, rfl, .inl ⟨rfl, Phase.noConfusion, hstep⟩⟩
      · exact .inr ⟨_, _, rfl, rfl, .inr (.inl ⟨_, rfl, hstep⟩)⟩
      · exact .inr ⟨_, _, rfl, rfl, .inr (.inr (.inl ⟨_, _, rfl, hstep⟩))⟩
      · exact .inr ⟨_, _, rfl, rfl, .inr (.inr (.inr (.inl ⟨_, rfl, hstep⟩)))⟩
      · exact .inr ⟨_, _, rfl, rfl, .inr (.inr (.inr (.inr ⟨_, _, _, rfl, hstep⟩)))⟩
      · exact .inl hstep

/-! ## The invariant -/

/-- what holds of the loop of a topic: it has sent or still holds all that was emitted, unless it was stopped -/
structure TopicInv (cfg : SysCfg) (s : Sys) (t : BitcoinZmqTopic) (loop : Loop) : Prop where
  exact : ∃ lost, s.delivered t ++ loop.phase.pending ++ lost = emitted (cfg.topicCfg t) (s.history t) ∧
    (loop.phase ≠ .stopped → lost = [])
  tracker : ∀ tracker, loop.phase.tracker = some tracker →
    tracker = (session (cfg.topicCfg t) (s.history t).session).1
  own : ∀ m ∈ loop.phase.pending, m.topic = t
  closed : loop.phase = .stopped → s.receiving = false

structure Inv (cfg : SysCfg) (s : Sys) : Prop where
  topics : ∀ t loop, s.loops t = some loop → TopicInv cfg s t loop
  unconfigured : ∀ t, s.loops t = none → s.delivered t = [] ∧ emitted (cfg.topicCfg t) (s.history t) = []
  capacity : s.channel.length ≤ channelCapacity

/-- a turn of one topic leaves the others alone -/
structure Frame (s s' : Sys) (t : BitcoinZmqTopic) : Prop where
  loops : ∀ u, u ≠ t → s'.loops u = s.loops u
  history : ∀ u, u ≠ t → s'.history u = s.history u
  delivered : ∀ u, u ≠ t → s'.delivered u = s.delivered u
  receiving : s'.receiving = s.receiving

theorem TopicInv.congr {cfg : SysCfg} {s s' : Sys} {t : BitcoinZmqTopic} {loop : Loop} (hd : s'.delivered t = s.delivered t)
    (hh : s'.history t = s.history t) (hr : s.receiving = false → s'.receiving = false) (h : TopicInv cfg s t loop) :
    TopicInv cfg s' t loop where
  exact := by rw [hd, hh]; exact h.exact
  tracker := by rw [hh]; exact h.tracker
  own := h.own
  closed := fun hstop => hr (h.closed hstop)

/-- nothing is lost while the loop runs -/
theorem TopicInv.running {cfg : SysCfg} {s : Sys} {t : BitcoinZmqTopic} {loop : Loop} (h : TopicInv cfg s t loop)
    (hrun : loop.phase ≠ .stopped) :
    s.delivered t ++ loop.phase.pending = emitted (cfg.topicCfg t) (s.history t) := by
  obtain ⟨lost, heq, hlost⟩ := h.exact
  rw [← heq, hlost hrun, List.append_nil]

/-- a loop between connections: nothing pending, no tracker -/
theorem TopicInv.idle {cfg : SysCfg} {s : Sys} {t : BitcoinZmqTopic} {loop : Loop} (hpending : loop.phase.pending = [])
    (htracker : loop.phase.tracker = none) (hrun : loop.phase ≠ .stopped)
    (hexact : s.delivered t = emitted (cfg.topicCfg t) (s.history t)) : TopicInv cfg s t loop where
  exact := ⟨[], by rw [hpending, hexact, List.append_nil, List.append_nil], fun _ => rfl⟩
  tracker := by rw [htracker]; exact fun _ h => nomatch h
  own := by rw [hpending]; exact fun _ h => nomatch h
  closed := fun hstop => absurd hstop hrun

section Turn

variable {cfg : SysCfg} {s : Sys} {t : BitcoinZmqTopic} {loop : Loop}

theorem wake_inv (h : TopicInv cfg s t loop) (hpending : loop.phase.pending = []) (hrun : loop.phase ≠ .stopped) :
    Frame s (wake s t loop) t ∧ (wake s t loop).loops t = some { loop with phase := .connecting } ∧
      TopicInv cfg (wake s t loop) t { loop with phase := .connecting } := by
  have hexact := h.running hrun
  rw [hpending, List.append_nil] at hexact
  refine ⟨⟨fun u hu => setLoop_ne _ _ hu, fun _ _ => rfl, fun _ _ => rfl, rfl⟩, setLoop_same _ _ _, ?_⟩
  exact TopicInv.idle rfl rfl Phase.noConfusion hexact

theorem disconnect_inv (h : TopicInv cfg s t loop) (hpending : loop.phase.pending = []) (hrun : loop.phase ≠ .stopped)
    (backoff : ℕ) :
    Frame s (disconnect cfg s t backoff) t ∧ ∃ loop', (disconnect cfg s t backoff).loops t = some loop' ∧
      TopicInv cfg (disconnect cfg s t backoff) t loop' := by
  have hexact := h.running hrun
  rw [hpending, List.append_nil] at hexact
  refine ⟨⟨fun u hu => setLoop_ne _ _ hu, fun u hu => setHistory_ne _ _ hu, fun _ _ => rfl, rfl⟩, _, setLoop_same _ _ _, ?_⟩
  apply TopicInv.idle rfl rfl Phase.noConfusion
  rw [disconnect, setHistory_same]
  exact hexact

theorem connect_inv (h : TopicInv cfg s t loop) (hphase : loop.phase = .connecting) (outcome : ConnectOutcome) :
    Frame s (connect cfg s t loop outcome) t ∧ ∃ loop', (connect cfg s t loop outcome).loops t = some loop' ∧
      TopicInv cfg (connect cfg s t loop outcome) t loop' := by
  have hrun : loop.phase ≠ .stopped := by rw [hphase]; exact Phase.noConfusion
  have hpending : loop.phase.pending = [] := by rw [hphase]; rfl
  cases outcome with
  | refused => exact disconnect_inv h hpending hrun _
  | notSubscribed => exact disconnect_inv h hpending hrun _
  | subscribed =>
    have hexact := h.running hrun
    rw [hpending, List.append_nil, ← emitted_connected] at hexact
    refine ⟨⟨fun u hu => setLoop_ne _ _ hu, fun u hu => setHistory_ne _ _ hu, fun _ _ => rfl, rfl⟩, _,
      setLoop_same _ _ _, ?_⟩
    constructor
    · refine ⟨[], ?_, fun _ => rfl⟩
      rw [connect, setHistory_same, List.append_nil]
      exact (List.append_nil _).trans hexact
    · rw [connect, setHistory_same]
      exact fun tracker htracker => (Option.some.inj htracker).symm
    · exact fun _ hm => nomatch hm
    · exact fun hstop => Phase.noConfusion hstop

theorem recv_inv (h : TopicInv cfg s t loop) {endpoint : String} (hend : cfg.zmq.endpoint t = some endpoint)
    {tracker : ZmqSequenceTracker} (hphase : loop.phase = .receiving tracker) (received : Received) :
    Frame s (recv cfg s t endpoint loop tracker received) t ∧
      ∃ loop', (recv cfg s t endpoint loop tracker received).loops t = some loop' ∧
        TopicInv cfg (recv cfg s t endpoint loop tracker received) t loop' := by
  have hcfg : cfg.loop t endpoint = cfg.topicCfg t := by rw [SysCfg.topicCfg, hend]; rfl
  have hexact := h.running (by rw [hphase]; exact Phase.noConfusion)
  have htracker := h.tracker tracker (by rw [hphase]; rfl)
  have hpending : loop.phase.pending = [] := by rw [hphase]; rfl
  rw [hpending, List.append_nil] at hexact
  -- whether the topic is marked does not matter here
  have hmark : ∀ b : Bool, (if b then s.setTopicStatus t .degraded else s).loops = s.loops ∧
      (if b then s.setTopicStatus t .degraded else s).history = s.history ∧
      (∀ u, (if b then s.setTopicStatus t .degraded else s).delivered u = s.delivered u) ∧
      (if b then s.setTopicStatus t .degraded else s).receiving = s.receiving := by
    intro b
    cases b <;> exact ⟨rfl, rfl, fun _ => rfl, rfl⟩
  obtain ⟨hloops, hhistory, hdelivered, hreceiving⟩ :=
    hmark ((receive (cfg.loop t endpoint) tracker received).2.any (·.isGap))
  let r := receive (cfg.loop t endpoint) tracker received
  have hr : r = receive (cfg.topicCfg t) tracker received := by rw [← hcfg]
  refine ⟨⟨fun u hu => ?_, fun u hu => ?_, fun u _ => hdelivered u, hreceiving⟩, { loop with phase := .after r.1 r.2 },
    setLoop_same _ _ _, ?_⟩
  · rw [recv, setHistory_loops, setLoop_ne _ _ hu, hloops]
  · rw [recv, setHistory_ne _ _ hu, setLoop_history, hhistory]
  · constructor
    · refine ⟨[], ?_, fun _ => rfl⟩
      rw [recv, setHistory_same, setHistory_delivered, setLoop_delivered, hdelivered, Phase.pending_after, hr,
        emitted_received, hexact, ← htracker, List.append_nil]
    · intro tracker' htracker'
      rw [Phase.tracker_after] at htracker'
      rw [recv, setHistory_same, session_append, ← htracker, ← hr]
      exact (Option.some.inj htracker').symm
    · intro m hm
      rw [Phase.pending_after, hr] at hm
      exact receive_topic hm
    · exact fun hstop => absurd hstop (Phase.after_ne_stopped _ _)

/-- a message of the topic is sent -/
theorem delivered_push {m : BitcoinZmqMessage} (u : BitcoinZmqTopic) :
    ({ s with channel := s.channel ++ [m] } : Sys).delivered u = s.delivered u ++ if m.topic = u then [m] else [] := by
  by_cases h : m.topic = u <;> simp [Sys.delivered, h, ← List.append_assoc]

theorem send_inv (h : TopicInv cfg s t loop) (hcap : s.channel.length ≤ channelCapacity) {tracker : ZmqSequenceTracker}
    {m : BitcoinZmqMessage} {pending : List BitcoinZmqMessage} (hphase : loop.phase = .sending tracker (m :: pending)) :
    Frame s (send s t loop tracker m pending) t ∧ (∃ loop', (send s t loop tracker m pending).loops t = some loop' ∧
      TopicInv cfg (send s t loop tracker m pending) t loop' ∨ send s t loop tracker m pending = s) ∧
      (send s t loop tracker m pending).channel.length ≤ channelCapacity := by
  have hrun : loop.phase ≠ .stopped := by rw [hphase]; exact Phase.noConfusion
  have hpending : loop.phase.pending = m :: pending := by rw [hphase]; rfl
  have hexact := h.running hrun
  have htracker := h.tracker tracker (by rw [hphase]; rfl)
  have hown : ∀ m' ∈ m :: pending, m'.topic = t := by rw [← hpending]; exact h.own
  have hm : m.topic = t := hown m List.mem_cons_self
  rw [hpending] at hexact
  unfold send
  split_ifs with hopen hroom
  · refine ⟨⟨fun u hu => setLoop_ne _ _ hu, fun _ _ => rfl, fun u hu => ?_, rfl⟩,
      ⟨{ loop with phase := .after tracker pending }, .inl ⟨setLoop_same _ _ _, ?_⟩⟩, ?_⟩
    · rw [setLoop_delivered, delivered_push, hm, if_neg (Ne.symm hu), List.append_nil]
    · constructor
      · refine ⟨[], ?_, fun _ => rfl⟩
        rw [setLoop_delivered, delivered_push, hm, if_pos rfl, Phase.pending_after, List.append_nil, List.append_assoc]
        exact hexact
      · intro tracker' htracker'
        rw [Phase.tracker_after] at htracker'
        rw [← Option.some.inj htracker']
        exact htracker
      · intro m' hm'
        rw [Phase.pending_after] at hm'
        exact hown m' (List.mem_cons_of_mem m hm')
      · exact fun hstop => absurd hstop (Phase.after_ne_stopped _ _)
    · simpa [Sys.setLoop] using hroom
  · exact ⟨⟨fun _ _ => rfl, fun _ _ => rfl, fun _ _ => rfl, rfl⟩, ⟨loop, .inr rfl⟩, hcap⟩
  · -- the receiver is gone: what is left is lost
    refine ⟨⟨fun u hu => setLoop_ne _ _ hu, fun _ _ => rfl, fun _ _ => rfl, rfl⟩,
      ⟨_, .inl ⟨setLoop_same _ _ _, ?_⟩⟩, hcap⟩
    constructor
    · exact ⟨m :: pending, by simpa [Phase.pending] using hexact, fun hstop => absurd rfl hstop⟩
    · exact fun _ htracker' => nomatch htracker'
    · exact fun _ hm' => nomatch hm'
    · exact fun _ => Bool.eq_false_iff.2 hopen

end Turn

/-! ## Every step -/

/-- the invariant after a turn of one topic, from what the turn does to that topic -/
theorem Inv.turn {cfg : SysCfg} {s s' : Sys} {t : BitcoinZmqTopic} (h : Inv cfg s) (hframe : Frame s s' t)
    (hcap : s'.channel.length ≤ channelCapacity)
    (hturn : ∃ loop', s'.loops t = some loop' ∧ TopicInv cfg s' t loop') : Inv cfg s' where
  topics := by
    intro u loop hloop
    by_cases hu : u = t
    · subst hu
      obtain ⟨loop', hloop', hinv⟩ := hturn
      rw [hloop'] at hloop
      obtain rfl := Option.some.inj hloop
      exact hinv
    · rw [hframe.loops u hu] at hloop
      exact (h.topics u loop hloop).congr (hframe.delivered u hu) (hframe.history u hu) (hframe.receiving.trans ·)
  unconfigured := by
    intro u hnone
    by_cases hu : u = t
    · subst hu
      obtain ⟨loop', hloop', -⟩ := hturn
      rw [hloop'] at hnone
      cases hnone
    · rw [hframe.loops u hu] at hnone
      rw [hframe.delivered u hu, hframe.history u hu]
      exact h.unconfigured u hnone
  capacity := hcap

theorem topicStep_inv {cfg : SysCfg} {s : Sys} (h : Inv cfg s) (t : BitcoinZmqTopic) (ev : Ev) :
    Inv cfg (topicStep cfg s t ev) := by
  rcases topicStep_cases cfg s t ev with heq | ⟨loop, endpoint, hloop, hend, hturn⟩
  · rw [heq]
    exact h
  have hinv := h.topics t loop hloop
  rcases hturn with ⟨hpending, hrun, heq⟩ | ⟨outcome, hphase, heq⟩ | ⟨tracker, received, hphase, heq⟩ |
    ⟨tracker, hphase, heq⟩ | ⟨tracker, m, pending, hphase, heq⟩
  · obtain ⟨hframe, hloop', hinv'⟩ := wake_inv hinv hpending hrun
    rw [heq]
    exact h.turn hframe h.capacity ⟨_, hloop', hinv'⟩
  · obtain ⟨hframe, hturn⟩ := connect_inv hinv hphase outcome
    rw [heq]
    refine h.turn hframe ?_ hturn
    cases outcome <;> exact h.capacity
  · obtain ⟨hframe, hturn⟩ := recv_inv hinv hend hphase received
    rw [heq]
    refine h.turn hframe ?_ hturn
    unfold recv
    dsimp only [Sys.setHistory, Sys.setLoop]
    split <;> exact h.capacity
  · obtain ⟨hframe, hturn⟩ := disconnect_inv hinv (by rw [hphase]; rfl) (by rw [hphase]; exact Phase.noConfusion) loop.backoff
    rw [heq]
    exact h.turn hframe h.capacity hturn
  · obtain ⟨hframe, ⟨loop', hturn | hsame⟩, hcap⟩ := send_inv hinv h.capacity hphase
    · rw [heq]
      exact h.turn hframe hcap ⟨loop', hturn⟩
    · rw [heq, hsame]
      exact h

/-- the coordinator's steps leave the loops alone, and what was delivered -/
theorem Inv.coordinator {cfg : SysCfg} {s s' : Sys} (h : Inv cfg s) (hloops : s'.loops = s.loops)
    (hhistory : s'.history = s.history) (hdelivered : s'.taken ++ s'.channel = s.taken ++ s.channel)
    (hreceiving : s.receiving = false → s'.receiving = false) (hcap : s'.channel.length ≤ s.channel.length) :
    Inv cfg s' where
  topics := by
    intro t loop hloop
    rw [hloops] at hloop
    refine (h.topics t loop hloop).congr ?_ (by rw [hhistory]) hreceiving
    rw [Sys.delivered, hdelivered, Sys.delivered]
  unconfigured := by
    intro t hnone
    rw [hloops] at hnone
    rw [hhistory, Sys.delivered, hdelivered]
    exact h.unconfigured t hnone
  capacity := hcap.trans h.capacity

theorem take_inv {cfg : SysCfg} {s : Sys} (h : Inv cfg s) (hopen : s.receiving = true) (env : Coordinator.Env)
    (downstream : Bool) : Inv cfg (take cfg env downstream s) := by
  unfold take
  split
  · split_ifs with hnone
    · exact h.coordinator rfl rfl rfl (fun _ => rfl) le_rfl
    · exact h
  · rename_i m rest hchannel
    refine h.coordinator rfl rfl ?_ (fun hclosed => ?_) ?_
    · rw [hchannel, List.append_assoc, List.singleton_append]
    · rw [hopen] at hclosed
      cases hclosed
    · rw [hchannel]
      exact Nat.le_succ _

/-- **Every step** keeps the invariant. -/
theorem inv_step {cfg : SysCfg} (s : Sys) (ev : Ev) (h : Inv cfg s) : Inv cfg (step cfg s ev) := by
  cases ev with
  | wake t | connect t _ | recv t _ | recvError t | send t => exact topicStep_inv h t _
  | take env downstream =>
    dsimp only [step]
    split_ifs with hopen
    · exact take_inv h hopen env downstream
    · exact h
  | poll env =>
    dsimp only [step]
    split_ifs with hpoll
    · exact h.coordinator rfl rfl rfl id le_rfl
    · exact h
  | shutdown => exact h.coordinator rfl rfl rfl (fun _ => rfl) le_rfl

theorem inv_init (cfg : SysCfg) : Inv cfg (init cfg) where
  topics := by
    intro t loop hloop
    obtain ⟨endpoint, -, rfl⟩ := Option.map_eq_some_iff.1 hloop
    exact TopicInv.idle rfl rfl Phase.noConfusion rfl
  unconfigured := fun t _ => ⟨rfl, rfl⟩
  capacity := Nat.zero_le _

theorem inv_run (cfg : SysCfg) (evs : List Ev) : Inv cfg (run cfg evs) :=
  Trace.run_inv_all inv_step evs (inv_init cfg)

/-- **Delivery is exact.** Whatever the order in which the tasks take their turns, the messages of a topic that the
coordinator took are the first ones its connections gave, in order and each once; while its loop runs, what is missing is in
the channel or about to be sent. The channel holds at most its capacity, and a loop stops only when the coordinator has
stopped taking. -/
theorem delivery_exact (cfg : SysCfg) (evs : List Ev) (t : BitcoinZmqTopic) (loop : Loop)
    (hloop : (run cfg evs).loops t = some loop) :
    ((run cfg evs).taken.filter fun m => m.topic = t) <+: emitted (cfg.topicCfg t) ((run cfg evs).history t) ∧
      (loop.phase ≠ .stopped →
        ((run cfg evs).taken.filter fun m => m.topic = t) ++ ((run cfg evs).channel.filter fun m => m.topic = t) ++
          loop.phase.pending = emitted (cfg.topicCfg t) ((run cfg evs).history t)) ∧
      (loop.phase = .stopped → (run cfg evs).receiving = false) ∧
      (run cfg evs).channel.length ≤ channelCapacity := by
  have hinv := inv_run cfg evs
  have htopic := hinv.topics t loop hloop
  have hsplit : (run cfg evs).delivered t =
      ((run cfg evs).taken.filter fun m => m.topic = t) ++ ((run cfg evs).channel.filter fun m => m.topic = t) :=
    List.filter_append _ _
  refine ⟨?_, fun hrun => ?_, htopic.closed, hinv.capacity⟩
  · obtain ⟨lost, heq, -⟩ := htopic.exact
    rw [← heq, hsplit, List.append_assoc, List.append_assoc]
    exact List.prefix_append _ _
  · rw [← hsplit]
    exact htopic.running hrun

/-- only the topic `sequence` is configured -/
def oneTopic : SysCfg where
  zmq := { BitcoinZmqConfig.default with rawtxEndpoint := none, rawblockEndpoint := none }
  coordinator := ⟨100, none, "tcp://127.0.0.1:28333", 16 * 1024 * 1024⟩
  crate := ⟨fun _ => .error "no data", fun _ => .error "no data"⟩

/-- a notification with this number, its body empty -/
def shortNotification (n : UInt8) : Received := ⟨[Bytes.ascii "sequence".toList, [], [n, 0, 0, 0]], 0⟩

/-- the first and the fourth notification are received -/
def gapRun : List Ev :=
  [.wake .sequence, .connect .sequence .subscribed, .recv .sequence (shortNotification 1),
    .recv .sequence (shortNotification 4), .send .sequence]

/-- the gap message is queued, and nothing else is -/
theorem delivery_exact_gap :
    ((run oneTopic gapRun).channel.map (·.missedCount)) = [2] ∧
      ∃ loop, (run oneTopic gapRun).loops .sequence = some loop ∧
        ((run oneTopic gapRun).taken.filter fun m => m.topic = .sequence) <+:
          emitted (oneTopic.topicCfg .sequence) ((run oneTopic gapRun).history .sequence) := by
  have hsome : ((run oneTopic gapRun).loops .sequence).isSome = true := by decide +kernel
  obtain ⟨loop, hloop⟩ := Option.isSome_iff_exists.1 hsome
  exact ⟨by decide +kernel, loop, hloop, (delivery_exact oneTopic gapRun .sequence loop hloop).1⟩

/-! ## The gap counters -/

section Counters

open Coordinator

/-- what only `handle_sequence_gap` and the subscriber write -/
structure GapView where
  gaps : ℕ
  missed : ℕ
  zmq : EndpointsStatus

def gapView (c : Coordinator.St) : GapView := ⟨c.zmqSequenceGapsTotal, c.zmqNotificationsMissedEstimate, c.zmq⟩

theorem processZmqBlock_gapView (env : Env) (c : Coordinator.St) (block : BlockObservation)
    (txs : List TransactionObservation) : gapView (processZmqBlock env c block txs).1 = gapView c := by
  unfold processZmqBlock
  split
  · split_ifs <;> rfl
  · rfl

theorem investigateChainTips_gapView (env : Env) (c : Coordinator.St) :
    gapView (investigateChainTips env c).1 = gapView c := by
  unfold investigateChainTips
  dsimp only
  split
  · rfl
  · split
    · split_ifs <;> rfl
    · rfl

theorem reconcileHeight_gapView (env : Env) (acc : Coordinator.St × List Observation) (height : ℕ) :
    gapView (reconcileHeight env acc height).1 = gapView acc.1 := by
  unfold reconcileHeight
  dsimp only
  split
  · rfl
  · cases fetchBlock env height _ <;> rfl

theorem reconcileHeights_gapView (env : Env) (heights : List ℕ) (acc : Coordinator.St × List Observation) :
    gapView (heights.foldl (reconcileHeight env) acc).1 = gapView acc.1 := by
  induction heights generalizing acc with
  | nil => rfl
  | cons height heights ih => rw [List.foldl_cons, ih, reconcileHeight_gapView]

theorem reconcileTipAndGap_gapView (cfg : Coordinator.Config) (env : Env) (c : Coordinator.St) :
    gapView (reconcileTipAndGap cfg env c).1 = gapView c := by
  unfold reconcileTipAndGap
  dsimp only
  split
  · rfl
  · split_ifs
    · rw [reconcileHeights_gapView]
      rfl
    · split <;> rfl
    · rfl

/-- a gap is counted with what it missed, and its topic is marked -/
theorem handleSequenceGap_gapView (cfg : Coordinator.Config) (env : Env) (c : Coordinator.St) (t : BitcoinZmqTopic)
    (missed : ℕ) : gapView (handleSequenceGap cfg env c t missed).1 =
      ⟨c.zmqSequenceGapsTotal + 1, c.zmqNotificationsMissedEstimate + missed, c.zmq.set t .degraded⟩ := by
  unfold handleSequenceGap
  cases t
  · exact reconcileTipAndGap_gapView _ _ _
  · rfl
  · exact reconcileTipAndGap_gapView _ _ _

/-- **One message**: only a gap is counted. -/
theorem handleMessage_gapView (cfg : Coordinator.Config) (env : Env) (c : Coordinator.St) (m : BitcoinZmqMessage) :
    gapView (handleMessage cfg env c m).1 =
      ⟨c.zmqSequenceGapsTotal + if m.isGap then 1 else 0, c.zmqNotificationsMissedEstimate + m.missedCount,
        if m.isGap then c.zmq.set m.topic .degraded else c.zmq⟩ := by
  cases m with
  | rawBlock block txs n => exact processZmqBlock_gapView _ _ _ _
  | rawTx tx n => rfl
  | sequence event =>
    cases event with
    | blockDisconnected hash n => exact investigateChainTips_gapView _ _
    | _ => rfl
  | sequenceGap t previous current missed => exact handleSequenceGap_gapView _ _ _ _ _

end Counters

/-- the counters are those of the messages taken -/
def Counted (s : Sys) : Prop :=
  s.coord.zmqSequenceGapsTotal = s.taken.countP (·.isGap) ∧
    s.coord.zmqNotificationsMissedEstimate = (s.taken.map (·.missedCount)).sum

/-- a step that takes nothing and counts nothing -/
theorem Counted.congr {s s' : Sys} (h : Counted s) (htaken : s'.taken = s.taken)
    (hgaps : (gapView s'.coord).gaps = (gapView s.coord).gaps)
    (hmissed : (gapView s'.coord).missed = (gapView s.coord).missed) : Counted s' := by
  rw [Counted, htaken]
  exact ⟨hgaps.trans h.1, hmissed.trans h.2⟩

theorem topicStep_counted {cfg : SysCfg} {s : Sys} (h : Counted s) (t : BitcoinZmqTopic) (ev : Ev) :
    Counted (topicStep cfg s t ev) := by
  rcases topicStep_cases cfg s t ev with heq | ⟨loop, endpoint, -, -, hturn⟩
  · rw [heq]
    exact h
  rcases hturn with ⟨-, -, heq⟩ | ⟨outcome, -, heq⟩ | ⟨tracker, received, -, heq⟩ | ⟨tracker, -, heq⟩ |
    ⟨tracker, m, pending, -, heq⟩ <;> rw [heq]
  · exact h
  · cases outcome <;> exact h
  · unfold recv
    dsimp only [Sys.setHistory, Sys.setLoop]
    split <;> exact h
  · exact h
  · unfold send
    split_ifs <;> exact h

theorem take_counted {cfg : SysCfg} {s : Sys} (h : Counted s) (env : Coordinator.Env) (downstream : Bool) :
    Counted (take cfg env downstream s) := by
  unfold take
  split
  · split_ifs <;> exact h
  · rename_i m rest hchannel
    have hview := handleMessage_gapView cfg.coordinator env s.coord m
    have hgaps : (handleMessage cfg.coordinator env s.coord m).1.zmqSequenceGapsTotal =
      s.coord.zmqSequenceGapsTotal + if m.isGap then 1 else 0 := congrArg GapView.gaps hview
    have hmissed : (handleMessage cfg.coordinator env s.coord m).1.zmqNotificationsMissedEstimate =
      s.coord.zmqNotificationsMissedEstimate + m.missedCount := congrArg GapView.missed hview
    constructor
    · simp [hgaps, h.1, List.countP_append, List.countP_singleton]
    · simp [hmissed, h.2]

theorem counted_step {cfg : SysCfg} (s : Sys) (ev : Ev) (h : Counted s) : Counted (step cfg s ev) := by
  cases ev with
  | wake t | connect t _ | recv t _ | recvError t | send t => exact topicStep_counted h t _
  | take env downstream =>
    dsimp only [step]
    split_ifs
    · exact take_counted h env downstream
    · exact h
  | poll env =>
    have hview := reconcileTipAndGap_gapView cfg.coordinator env s.coord
    dsimp only [step]
    split_ifs
    · exact h.congr rfl (congrArg GapView.gaps hview) (congrArg GapView.missed hview)
    · exact h
  | shutdown => exact h

/-- the counters of a run are those of the messages taken -/
theorem gap_counters_taken (cfg : SysCfg) (evs : List Ev) : Counted (run cfg evs) :=
  Trace.run_inv_all counted_step evs ⟨rfl, rfl⟩

end ObsChain.ZmqSubscriber
