/-
The live feed of the clients (`with_metrics_and_watch_engine` and `handle_client_socket` of `api.rs`).

The worker sends events into one broadcast channel, and activities and alerts into another. A task forwards the events into
the second one, which every connected client reads: its handler takes a message or a frame of its client, whichever comes
first, and sends its text or its pong before it takes the next one. A client that is too slow is told how many messages it
missed and goes on. The forwarder is a `while let Ok(..)` loop, so for it the same news is the end.

Model: one `step` is a send of the worker, a turn of the forwarder, or a turn of one client. `serialize` is what becomes of a
message as JSON, nothing if it fails. The channels are those of `Broadcast`. `sent` is the texts that a socket took.

- `client_step`, `inv_step`: what one turn keeps.
- `forwarded_exact` (**main result**): the events forwarded are the first ones sent, in order and each once; when the
  forwarder has stopped, more than 1024 events are left, and none will be forwarded again.
- `forwarding_iff` (**main result**): it runs for as long as it takes no turn with more than 1024 events unread.
- `burst_stops_forwarder`: that happens.
- `client_feed_exact` (**main result**): a client is sent the texts of the messages it took, in order and each once; it took
  or was told it missed every message since it connected, and if it missed none, it took them all.
- `clients_isolated` (**main result**): what a client gets does not depend on the other clients.
-/
import Mathlib.Tactic
import ObsChain.Core.Broadcast
import ObsChain.Core.Trace
import ObsChain.Domain.Event
import ObsChain.Watch.Engine

namespace ObsChain.ClientFeed

open Broadcast

/-! ## The channels and the clients -/

inductive WebSocketBroadcast where
  | chainEvent (data compat : ChainEvent)
  | incidentActivity (data : IncidentActivity)
  | incidentAlert (data : IncidentAlert)

def chainEvent (event : ChainEvent) : WebSocketBroadcast := .chainEvent event event

/-- the event that a message forwards -/
def WebSocketBroadcast.event? : WebSocketBroadcast → Option ChainEvent
  | .chainEvent data _ => some data
  | _ => none

/-- what a client's socket gives -/
inductive ClientFrame where
  | close
  | ping (payload : List UInt8)
  | other
  | error
  /-- the stream has ended -/
  | ended

inductive ClientPhase where
  /-- waiting for a message or a frame -/
  | selecting
  | sendingText (json : String)
  | sendingPong (payload : List UInt8)
  | closed

def ClientPhase.pending : ClientPhase → List String
  | sendingText json => [json]
  | _ => []

structure Client where
  receiver : Receiver
  phase : ClientPhase
  sent : List String

structure Feed where
  events : Channel ChainEvent
  ws : Channel WebSocketBroadcast
  forwarder : Receiver
  forwarding : Bool
  clients : ℕ → Option Client

def eventCapacity : ℕ := 1024

def wsCapacity : ℕ := 2048

inductive Ev where
  | event (event : ChainEvent)
  | activity (activity : IncidentActivity)
  | alert (alert : IncidentAlert)
  /-- a turn of the forwarder -/
  | forward
  | connect (id : ℕ)
  /-- the client's handler takes a message -/
  | receive (id : ℕ)
  /-- the client's handler takes a frame -/
  | frame (id : ℕ) (frame : ClientFrame)
  /-- what the handler sends arrives, or fails -/
  | socket (id : ℕ) (ok : Bool)

namespace Client

section

variable (serialize : WebSocketBroadcast → Option String)

def receive (ws : Channel WebSocketBroadcast) (c : Client) : Client :=
  match c.phase with
  | .selecting =>
    { c with
      receiver := (ws.recv c.receiver).1
      phase :=
        match (ws.recv c.receiver).2 with
        | .message msg => ((serialize msg).map ClientPhase.sendingText).getD .selecting
        | _ => .selecting }
  | _ => c

end

def frame (frame : ClientFrame) (c : Client) : Client :=
  match c.phase with
  | .selecting =>
    { c with
      phase :=
        match frame with
        | .ping payload => .sendingPong payload
        | .other => .selecting
        | .close | .error | .ended => .closed }
  | _ => c

def socket (ok : Bool) (c : Client) : Client :=
  match c.phase with
  | .sendingText json => if ok then { c with phase := .selecting, sent := c.sent ++ [json] } else { c with phase := .closed }
  | .sendingPong _ => { c with phase := if ok then .selecting else .closed }
  | _ => c

end Client

section

variable (serialize : WebSocketBroadcast → Option String)

def Feed.onClient (s : Feed) (id : ℕ) (f : Client → Client) : Feed :=
  { s with clients := Function.update s.clients id ((s.clients id).map f) }

/-- `while let Ok(event)`: to lag is to stop -/
def Feed.forward (s : Feed) : Feed :=
  if s.forwarding then
    match (s.events.recv s.forwarder).2 with
    | .message event => { s with forwarder := (s.events.recv s.forwarder).1, ws := s.ws.send (chainEvent event) }
    | .lagged _ => { s with forwarder := (s.events.recv s.forwarder).1, forwarding := false }
    | .waiting => s
  else s

def step (s : Feed) : Ev → Feed
  | .event event => { s with events := s.events.send event }
  | .activity activity => { s with ws := s.ws.send (.incidentActivity activity) }
  | .alert alert => { s with ws := s.ws.send (.incidentAlert alert) }
  | .forward => s.forward
  -- an id that is taken keeps its client
  | .connect id =>
    { s with clients := Function.update s.clients id (some ((s.clients id).getD ⟨s.ws.subscribe, .selecting, []⟩)) }
  | .receive id => s.onClient id (Client.receive serialize s.ws)
  | .frame id frame => s.onClient id (Client.frame frame)
  | .socket id ok => s.onClient id (Client.socket ok)

def start : Feed where
  events := ⟨eventCapacity, []⟩
  ws := ⟨wsCapacity, []⟩
  forwarder := (⟨eventCapacity, []⟩ : Channel ChainEvent).subscribe
  forwarding := true
  clients := fun _ => none

def run (evs : List Ev) : Feed := Trace.run (step serialize) start evs

/-! ## A client -/

/-- the texts of the messages that a client took -/
def texts (ws : Channel WebSocketBroadcast) (r : Receiver) : List String := (ws.messages r).filterMap serialize

/-- what a client took, was sent and is being sent -/
structure ClientInv (ws : Channel WebSocketBroadcast) (c : Client) : Prop where
  sound : Sound ws c.receiver
  sent : ∃ lost, c.sent ++ c.phase.pending ++ lost = texts serialize ws c.receiver ∧ (c.phase ≠ .closed → lost = [])

variable {serialize}

theorem texts_send {ws : Channel WebSocketBroadcast} {r : Receiver} (h : Sound ws r) (msg : WebSocketBroadcast) :
    texts serialize (ws.send msg) r = texts serialize ws r := by
  unfold texts
  rw [messages_send h]

theorem ClientInv.send {ws : Channel WebSocketBroadcast} {c : Client} (h : ClientInv serialize ws c)
    (msg : WebSocketBroadcast) : ClientInv serialize (ws.send msg) c := by
  refine ⟨sound_send h.sound msg, ?_⟩
  rw [texts_send h.sound]
  exact h.sent

theorem ClientInv.subscribe (ws : Channel WebSocketBroadcast) :
    ClientInv serialize ws ⟨ws.subscribe, .selecting, []⟩ :=
  ⟨sound_subscribe ws, [], rfl, fun _ => rfl⟩

theorem ClientInv.receive {ws : Channel WebSocketBroadcast} {c : Client} (h : ClientInv serialize ws c) :
    ClientInv serialize ws (c.receive serialize ws) := by
  unfold Client.receive
  split
  · rename_i hphase
    refine ⟨sound_recv h.sound, [], ?_, fun _ => rfl⟩
    obtain ⟨lost, hsent, hlost⟩ := h.sent
    rw [hphase] at hsent hlost
    obtain rfl := hlost fun h => nomatch h
    have htaken : c.sent = texts serialize ws c.receiver := by simpa [ClientPhase.pending] using hsent
    have htexts : texts serialize ws (ws.recv c.receiver).1 =
        texts serialize ws c.receiver ++ (ws.recv c.receiver).2.messages.filterMap serialize := by
      unfold texts
      rw [messages_recv, List.filterMap_append]
    rw [htexts, ← htaken, List.append_nil]
    cases (ws.recv c.receiver).2 with
    | message msg => cases hjson : serialize msg <;> simp [hjson, ClientPhase.pending, Received.messages]
    | lagged skipped => rfl
    | waiting => rfl
  · exact h

theorem ClientInv.frame {ws : Channel WebSocketBroadcast} {c : Client} (h : ClientInv serialize ws c)
    (frame : ClientFrame) : ClientInv serialize ws (c.frame frame) := by
  unfold Client.frame
  split
  · rename_i hphase
    obtain ⟨lost, hsent, hlost⟩ := h.sent
    rw [hphase] at hsent hlost
    obtain rfl := hlost fun h => nomatch h
    refine ⟨h.sound, [], ?_, fun _ => rfl⟩
    cases frame <;> exact hsent
  · exact h

theorem ClientInv.socket {ws : Channel WebSocketBroadcast} {c : Client} (h : ClientInv serialize ws c) (ok : Bool) :
    ClientInv serialize ws (c.socket ok) := by
  obtain ⟨lost, hsent, hlost⟩ := h.sent
  unfold Client.socket
  split
  · rename_i json hphase
    rw [hphase] at hsent hlost
    obtain rfl := hlost fun h => nomatch h
    split_ifs
    · exact ⟨h.sound, [], by simpa [ClientPhase.pending] using hsent, fun _ => rfl⟩
    · exact ⟨h.sound, [json], by simpa [ClientPhase.pending] using hsent, fun hopen => absurd rfl hopen⟩
  · rename_i payload hphase
    rw [hphase] at hsent hlost
    obtain rfl := hlost fun h => nomatch h
    refine ⟨h.sound, [], ?_, fun _ => rfl⟩
    cases ok <;> exact hsent
  · exact h

/-! ## The forwarder -/

/-- the forwarder has taken the first events, all while it runs; it stopped with more unread than are retained -/
structure ForwarderInv (s : Feed) : Prop where
  sound : Sound s.events s.forwarder
  joined : s.forwarder.joined = 0
  forwarded : s.ws.log.filterMap WebSocketBroadcast.event? = s.events.messages s.forwarder
  first : s.forwarder.taken = List.range' 0 s.forwarder.taken.length
  running : s.forwarding = true → s.forwarder.skipped = 0
  stopped : s.forwarding = false → eventCapacity < s.events.log.length - s.forwarder.taken.length
  capacity : s.events.capacity = eventCapacity

theorem ForwarderInv.event {s : Feed} (h : ForwarderInv s) (event : ChainEvent) :
    ForwarderInv { s with events := s.events.send event } := by
  refine ⟨sound_send h.sound event, h.joined, ?_, h.first, h.running, fun hstopped => ?_, h.capacity⟩
  · dsimp only
    rw [messages_send h.sound]
    exact h.forwarded
  · have hlen : (s.events.send event).log.length = s.events.log.length + 1 := by simp [Channel.send]
    have hleft := h.stopped hstopped
    dsimp only
    omega

/-- an activity or an alert is no event -/
theorem ForwarderInv.notice {s : Feed} (h : ForwarderInv s) {msg : WebSocketBroadcast} (hmsg : msg.event? = none) :
    ForwarderInv { s with ws := s.ws.send msg } := by
  refine ⟨h.sound, h.joined, ?_, h.first, h.running, h.stopped, h.capacity⟩
  simp only [Channel.send, List.filterMap_append, List.filterMap_cons, hmsg, List.filterMap_nil, List.append_nil]
  exact h.forwarded

theorem ForwarderInv.clients {s : Feed} (h : ForwarderInv s) (clients : ℕ → Option Client) :
    ForwarderInv { s with clients := clients } :=
  ⟨h.sound, h.joined, h.forwarded, h.first, h.running, h.stopped, h.capacity⟩

/-- while it runs the forwarder has taken as many events as its position says -/
theorem ForwarderInv.position {s : Feed} (h : ForwarderInv s) (hrun : s.forwarding = true) :
    s.forwarder.taken.length = s.forwarder.cursor := by
  have haccount := h.sound.account
  rw [h.running hrun, h.joined] at haccount
  omega

theorem ForwarderInv.forward {s : Feed} (h : ForwarderInv s) : ForwarderInv s.forward := by
  unfold Feed.forward
  by_cases hrun : s.forwarding = true
  · rw [if_pos hrun]
    have hposition := h.position hrun
    have hsound := sound_recv h.sound
    have hmessages := messages_recv s.events s.forwarder
    have hlag := recv_lagged_iff (c := s.events) (r := s.forwarder)
    revert hsound hmessages hlag
    unfold Channel.recv
    split_ifs with hbehind
    · intro hsound hmessages hlag
      refine ⟨hsound, h.joined, h.forwarded, h.first, fun hrun' => (Bool.false_ne_true hrun').elim, fun _ => ?_, h.capacity⟩
      have hunread := hlag.1 ⟨_, rfl⟩
      rw [h.capacity, Channel.unread, ← hposition] at hunread
      exact hunread
    · cases hnext : s.events.log[s.forwarder.cursor]? with
      | none => exact fun _ _ _ => h
      | some event =>
        intro hsound hmessages _
        refine ⟨hsound, h.joined, ?_, ?_, h.running, fun hstopped => ?_, h.capacity⟩
        · rw [hmessages, ← h.forwarded]
          simp [Channel.send, chainEvent, WebSocketBroadcast.event?, Received.messages]
        · dsimp only
          rw [List.length_append, List.length_singleton, List.range'_concat, ← h.first, hposition, one_mul, Nat.zero_add]
        · rw [hrun] at hstopped
          cases hstopped
  · rw [if_neg hrun]
    exact h

/-! ## Every run -/

structure Inv (serialize : WebSocketBroadcast → Option String) (s : Feed) : Prop where
  forwarder : ForwarderInv s
  clients : ∀ id c, s.clients id = some c → ClientInv serialize s.ws c

/-- a client takes a turn -/
theorem Inv.onClient {s : Feed} (h : Inv serialize s) (id : ℕ) {f : Client → Client}
    (hf : ∀ c, ClientInv serialize s.ws c → ClientInv serialize s.ws (f c)) : Inv serialize (s.onClient id f) := by
  refine ⟨h.forwarder.clients _, fun j c hc => ?_⟩
  dsimp only [Feed.onClient] at hc
  rw [Function.update_apply] at hc
  split_ifs at hc with hj
  · obtain ⟨c', hc', rfl⟩ := Option.map_eq_some_iff.1 hc
    exact hf c' (h.clients id c' hc')
  · exact h.clients j c hc

/-- a message is sent to the clients -/
theorem Inv.send {s : Feed} (h : Inv serialize s) {msg : WebSocketBroadcast}
    (hforwarder : ForwarderInv { s with ws := s.ws.send msg }) : Inv serialize { s with ws := s.ws.send msg } :=
  ⟨hforwarder, fun id c hc => (h.clients id c hc).send msg⟩

theorem inv_step (s : Feed) (ev : Ev) (h : Inv serialize s) : Inv serialize (step serialize s ev) := by
  cases ev with
  | event event => exact ⟨h.forwarder.event event, h.clients⟩
  | activity activity => exact h.send (h.forwarder.notice rfl)
  | alert alert => exact h.send (h.forwarder.notice rfl)
  | forward =>
    refine ⟨h.forwarder.forward, ?_⟩
    dsimp only [step, Feed.forward]
    split_ifs
    · split
      · exact fun id c hc => (h.clients id c hc).send _
      · exact h.clients
      · exact h.clients
    · exact h.clients
  | connect id =>
    refine ⟨h.forwarder.clients _, fun j c hc => ?_⟩
    dsimp only [step] at hc
    rw [Function.update_apply] at hc
    split_ifs at hc with hj
    · obtain rfl := Option.some.inj hc
      cases hclient : s.clients id with
      | none => exact ClientInv.subscribe s.ws
      | some c' => exact h.clients id c' hclient
    · exact h.clients j c hc
  | receive id => exact h.onClient id fun c hc => hc.receive
  | frame id frame => exact h.onClient id fun c hc => hc.frame frame
  | socket id ok => exact h.onClient id fun c hc => hc.socket ok

theorem inv_run (evs : List Ev) : Inv serialize (run serialize evs) := by
  refine Trace.run_inv_all inv_step evs ⟨⟨sound_subscribe _, rfl, rfl, rfl, fun _ => rfl, fun h => ?_, rfl⟩, fun _ _ h => ?_⟩
  · cases h
  · cases h

/-- once it has stopped, no turn forwards an event -/
theorem stopped_step {s : Feed} (h : s.forwarding = false) (ev : Ev) : (step serialize s ev).forwarding = false ∧
    (step serialize s ev).ws.log.filterMap WebSocketBroadcast.event? = s.ws.log.filterMap WebSocketBroadcast.event? := by
  cases ev with
  | activity activity => exact ⟨h, by simp [step, Channel.send, WebSocketBroadcast.event?]⟩
  | alert alert => exact ⟨h, by simp [step, Channel.send, WebSocketBroadcast.event?]⟩
  | forward => simp [step, Feed.forward, h]
  | _ => exact ⟨h, rfl⟩

/-- **What is forwarded.** In every reachable state: the events among the clients' messages are the first events sent, in
order and each once. When the forwarder has stopped, more than 1024 events are left, and whatever follows, no event is
forwarded. -/
theorem forwarded_exact (evs : List Ev) :
    (run serialize evs).ws.log.filterMap WebSocketBroadcast.event? =
        (run serialize evs).events.log.take (run serialize evs).forwarder.taken.length ∧
      ((run serialize evs).forwarding = false →
        eventCapacity < (run serialize evs).events.log.length - (run serialize evs).forwarder.taken.length ∧
          ∀ more, (Trace.run (step serialize) (run serialize evs) more).ws.log.filterMap WebSocketBroadcast.event? =
            (run serialize evs).ws.log.filterMap WebSocketBroadcast.event?) := by
  have h := (@inv_run serialize evs).forwarder
  refine ⟨?_, fun hstopped => ⟨h.stopped hstopped, fun more => ?_⟩⟩
  · rw [h.forwarded, Channel.messages, h.first, filterMap_range', List.drop_zero, List.length_range']
  · have hkeep : ∀ (s : Feed) ev, s.forwarding = false ∧ s.ws.log.filterMap WebSocketBroadcast.event? =
        (run serialize evs).ws.log.filterMap WebSocketBroadcast.event? →
        (step serialize s ev).forwarding = false ∧ (step serialize s ev).ws.log.filterMap WebSocketBroadcast.event? =
          (run serialize evs).ws.log.filterMap WebSocketBroadcast.event? :=
      fun s ev hs => ⟨(stopped_step hs.1 ev).1, (stopped_step hs.1 ev).2.trans hs.2⟩
    exact (Trace.run_inv_all hkeep more ⟨hstopped, rfl⟩).2

/-- **When the forwarder runs.** It does in every state that a run reaches exactly if it takes no turn with more than 1024
events unread. -/
theorem forwarding_iff (evs : List Ev) :
    Trace.Always (step serialize) (fun s => s.forwarding = true) start evs ↔
      Trace.Steps (step serialize) (fun s ev => ev = .forward → s.events.unread s.forwarder ≤ eventCapacity) start evs := by
  have hcapacity : ∀ (s : Feed) (ev : Ev), Inv serialize s → Inv serialize (step serialize s ev) := inv_step
  refine Trace.always_iff_steps_inv hcapacity (fun s ev hs _ hrun => ?_)
    (Trace.steps_of_mem (A := fun _ => True) fun _ _ => trivial) (@inv_run serialize []) rfl
  have hlag := recv_lagged_iff (c := s.events) (r := s.forwarder)
  rw [hs.forwarder.capacity] at hlag
  cases ev with
  | forward =>
    simp only [forall_const]
    rw [← not_lt, ← hlag]
    dsimp only [step, Feed.forward]
    rw [if_pos hrun]
    cases hgot : (s.events.recv s.forwarder).2 with
    | message event => exact iff_of_true hrun (by simp)
    | lagged skipped => exact iff_of_false Bool.false_ne_true (by simp)
    | waiting => exact iff_of_true hrun (by simp)
  | _ => exact iff_of_true hrun (fun h => nomatch h)

/-- **What a client is sent.** In every reachable state, for every client: it is sent the texts of the messages it took, the
first ones where its socket has failed. They are the messages of increasing positions since it connected, and every other one
up to its position it was told it missed; a client that missed none took them all. -/
theorem client_feed_exact (evs : List Ev) (id : ℕ) (c : Client) (hc : (run serialize evs).clients id = some c) :
    c.sent <+: texts serialize (run serialize evs).ws c.receiver ∧
      (c.phase ≠ .closed → c.sent ++ c.phase.pending = texts serialize (run serialize evs).ws c.receiver) ∧
      c.receiver.taken.Pairwise (· < ·) ∧ (∀ i ∈ c.receiver.taken, c.receiver.joined ≤ i ∧ i < c.receiver.cursor) ∧
      c.receiver.taken.length + c.receiver.skipped = c.receiver.cursor - c.receiver.joined ∧
      (c.receiver.skipped = 0 → texts serialize (run serialize evs).ws c.receiver =
        (((run serialize evs).ws.log.drop c.receiver.joined).take
          (c.receiver.cursor - c.receiver.joined)).filterMap serialize) := by
  obtain ⟨hsound, lost, hsent, hlost⟩ := (@inv_run serialize evs).clients id c hc
  refine ⟨?_, fun hopen => ?_, hsound.ordered, hsound.within, hsound.account, fun hnone => ?_⟩
  · rw [← hsent, List.append_assoc]
    exact List.prefix_append _ _
  · rw [← hsent, hlost hopen, List.append_nil]
  · rw [texts, messages_eq hsound hnone]

theorem run_burst (event : ChainEvent) (n : ℕ) : run serialize (List.replicate n (.event event)) =
    { start with events := ⟨eventCapacity, List.replicate n event⟩ } := by
  induction n with
  | zero => rfl
  | succ n ih =>
    rw [List.replicate_succ', run, Trace.run_append]
    rw [run] at ih
    rw [ih]
    simp [Trace.run, step, Channel.send, List.replicate_succ']

/-- **A burst ends the events**: after more than 1024 of them before a turn of the forwarder, no event is forwarded again. -/
theorem burst_stops_forwarder (event : ChainEvent) {n : ℕ} (h : eventCapacity < n) :
    (run serialize (List.replicate n (.event event) ++ [.forward])).forwarding = false := by
  have hburst := @run_burst serialize event n
  rw [run] at hburst
  rw [run, Trace.run_append, hburst]
  simp [Trace.run, step, Feed.forward, Channel.recv, Channel.oldest, start, Channel.subscribe, h]

/-! ## Isolation -/

/-- the events that are not another client's -/
def concerns (id : ℕ) : Ev → Bool
  | .connect j | .receive j | .frame j _ | .socket j _ => decide (j = id)
  | _ => true

/-- the same for one client -/
structure Alike (id : ℕ) (s t : Feed) : Prop where
  events : s.events = t.events
  ws : s.ws = t.ws
  forwarder : s.forwarder = t.forwarder
  forwarding : s.forwarding = t.forwarding
  client : s.clients id = t.clients id

theorem alike_step {id : ℕ} {s t : Feed} (h : Alike id s t) (ev : Ev) :
    Alike id (step serialize s ev) (step serialize t ev) := by
  obtain ⟨events, ws, forwarder, forwarding, clients⟩ := s
  obtain ⟨events', ws', forwarder', forwarding', clients'⟩ := t
  obtain ⟨rfl, rfl, rfl, rfl, hclient⟩ := h
  replace hclient : clients id = clients' id := hclient
  have honClient : ∀ (j : ℕ) (f : Client → Client), Function.update clients j ((clients j).map f) id =
      Function.update clients' j ((clients' j).map f) id := by
    intro j f
    rw [Function.update_apply, Function.update_apply]
    split_ifs with hj
    · rw [← hj, hclient]
    · exact hclient
  cases ev with
  | forward =>
    dsimp only [step, Feed.forward]
    split_ifs
    · split
      · exact ⟨rfl, rfl, rfl, rfl, hclient⟩
      · exact ⟨rfl, rfl, rfl, rfl, hclient⟩
      · exact ⟨rfl, rfl, rfl, rfl, hclient⟩
    · exact ⟨rfl, rfl, rfl, rfl, hclient⟩
  | connect j =>
    refine ⟨rfl, rfl, rfl, rfl, ?_⟩
    dsimp only [step]
    rw [Function.update_apply, Function.update_apply]
    split_ifs with hj
    · rw [← hj, hclient]
    · exact hclient
  | receive j => exact ⟨rfl, rfl, rfl, rfl, honClient j _⟩
  | frame j frame => exact ⟨rfl, rfl, rfl, rfl, honClient j _⟩
  | socket j ok => exact ⟨rfl, rfl, rfl, rfl, honClient j _⟩
  | _ => exact ⟨rfl, rfl, rfl, rfl, hclient⟩

/-- another client's turn changes nothing for the client -/
theorem alike_other {id : ℕ} (s : Feed) {ev : Ev} (h : concerns id ev = false) : Alike id (step serialize s ev) s := by
  have honClient : ∀ (j : ℕ) (f : Client → Client), j ≠ id → Alike id (s.onClient j f) s :=
    fun j f hj => ⟨rfl, rfl, rfl, rfl, Function.update_of_ne hj.symm _ _⟩
  cases ev with
  | connect j => exact ⟨rfl, rfl, rfl, rfl, Function.update_of_ne (Ne.symm (of_decide_eq_false h)) _ _⟩
  | receive j => exact honClient j _ (of_decide_eq_false h)
  | frame j frame => exact honClient j _ (of_decide_eq_false h)
  | socket j ok => exact honClient j _ (of_decide_eq_false h)
  | _ => cases h

theorem Alike.trans {id : ℕ} {s t u : Feed} (h : Alike id s t) (h' : Alike id t u) : Alike id s u :=
  ⟨h.events.trans h'.events, h.ws.trans h'.ws, h.forwarder.trans h'.forwarder, h.forwarding.trans h'.forwarding,
    h.client.trans h'.client⟩

/-- **Clients are isolated.** Whatever the other clients do, and however slow they are: a client has taken and been sent what
it would without them, and the channels and the forwarder are as they would be. -/
theorem clients_isolated (evs : List Ev) (id : ℕ) :
    (run serialize evs).clients id = (run serialize (evs.filter (concerns id))).clients id ∧
      (run serialize evs).ws = (run serialize (evs.filter (concerns id))).ws ∧
      (run serialize evs).events = (run serialize (evs.filter (concerns id))).events ∧
      (run serialize evs).forwarder = (run serialize (evs.filter (concerns id))).forwarder ∧
      (run serialize evs).forwarding = (run serialize (evs.filter (concerns id))).forwarding := by
  have halike : ∀ (s t : Feed), Alike id s t →
      Alike id (Trace.run (step serialize) s evs) (Trace.run (step serialize) t (evs.filter (concerns id))) := by
    induction evs with
    | nil => exact fun _ _ h => h
    | cons ev evs ih =>
      intro s t h
      cases hconcerns : concerns id ev with
      | true =>
        rw [List.filter_cons_of_pos hconcerns]
        exact ih _ _ (alike_step h ev)
      | false =>
        rw [List.filter_cons_of_neg (by rw [hconcerns]; exact Bool.false_ne_true)]
        exact ih _ _ ((alike_other s hconcerns).trans h)
  have h := halike start start ⟨rfl, rfl, rfl, rfl, rfl⟩
  exact ⟨h.client, h.ws, h.events, h.forwarder, h.forwarding⟩

end

/-! ## A run -/

def reorgSeen : ChainEvent where
  id := 1
  eventType := .reorgDetected
  severity := .high
  confidence := .verifiedOnChain
  title := "reorg"
  description := ""
  eventTime := 0
  firstObservedAt := 0
  detectedAt := 0
  blockHeight := none
  blockHash := none
  txid := none
  source := none
  witnesses := []
  observationMode := .live
  replayJobId := none
  metadata := .null
  observations := []

/-- the titles of the events -/
def titles : WebSocketBroadcast → Option String
  | .chainEvent data _ => some data.title
  | _ => none

/-- one client, one event -/
def oneEvent : List Ev := [.connect 7, .event reorgSeen, .forward, .receive 7, .socket 7 true]

theorem client_feed_exact_one :
    (run titles oneEvent).clients 7 = some ⟨⟨0, 1, [0], 0⟩, .selecting, ["reorg"]⟩ ∧
      ["reorg"] <+: texts titles (run titles oneEvent).ws ⟨0, 1, [0], 0⟩ := by
  have hclient : (run titles oneEvent).clients 7 = some ⟨⟨0, 1, [0], 0⟩, .selecting, ["reorg"]⟩ := by
    simp [oneEvent, run, Trace.run, step, start, Channel.subscribe, Channel.send, Channel.recv, Channel.oldest, Feed.forward,
      Feed.onClient, Client.receive, Client.socket, eventCapacity, wsCapacity, chainEvent, titles, reorgSeen]
  exact ⟨hclient, (client_feed_exact oneEvent 7 _ hclient).1⟩

end ObsChain.ClientFeed
