/-
What the two gap counters are worth.

The publisher counts the notifications of a topic without a bound. `lost` are those it published between the first and the
last one that a connection received, and that the connection did not receive.

- `card_lost`: their number, gap by gap.
- `session_account`: one connection reports exactly those, one gap message for each interruption.
- `gap_counters_exact`: **main result**. Once everything is taken, the counters are the numbers of interruptions and of lost
  notifications over all connections of all topics. What is lost between two connections is in neither.
-/
import Mathlib.Tactic
import ObsChain.Ingest.ZmqDelivery

namespace ObsChain.ZmqSubscriber

open SequenceTracking ZmqSequenceTracker

/-! ## Losses, from the true counts -/

/-- published between the first and the last of `counts`, and not among them -/
def lost : List ℕ → Finset ℕ
  | [] => ∅
  | first :: rest => (Finset.Icc first (rest.getLastD first)).filter (· ∉ first :: rest)

/-- the same number, gap by gap -/
def missedBetween : List ℕ → ℕ
  | a :: b :: rest => b - a - 1 + missedBetween (b :: rest)
  | _ => 0

/-- the places where the counts are not consecutive -/
def interruptions : List ℕ → ℕ
  | a :: b :: rest => (if b = a + 1 then 0 else 1) + interruptions (b :: rest)
  | _ => 0

/-- published in this order, each less than half of the range after the one before -/
def InOrder (counts : List ℕ) : Prop := counts.IsChain fun a b => a < b ∧ b < a + 2 ^ 31

instance (counts : List ℕ) : Decidable (InOrder counts) := inferInstanceAs (Decidable (List.IsChain _ _))

theorem InOrder.pairwise {counts : List ℕ} (h : InOrder counts) : counts.Pairwise (· < ·) :=
  List.isChain_iff_pairwise.1 (h.imp fun _ _ hab => hab.1)

/-- what was received and what was missed add up to the distance covered -/
theorem missedBetween_add {first : ℕ} {rest : List ℕ} (h : (first :: rest).Pairwise (· < ·)) :
    first + (missedBetween (first :: rest) + rest.length) = rest.getLastD first := by
  induction rest generalizing first with
  | nil => rfl
  | cons b rest ih =>
    have hlt : first < b := List.rel_of_pairwise_cons h List.mem_cons_self
    have hrest := ih h.of_cons
    rw [List.getLastD_cons, ← hrest, missedBetween, List.length_cons]
    omega

theorem mem_le_getLastD {first : ℕ} {rest : List ℕ} (h : (first :: rest).Pairwise (· < ·)) {n : ℕ}
    (hn : n ∈ first :: rest) : first ≤ n ∧ n ≤ rest.getLastD first := by
  induction rest generalizing first n with
  | nil =>
    obtain rfl := List.mem_singleton.1 hn
    exact ⟨le_rfl, le_rfl⟩
  | cons b rest ih =>
    have hlt : first < b := List.rel_of_pairwise_cons h List.mem_cons_self
    obtain ⟨-, hlast⟩ := ih h.of_cons List.mem_cons_self
    rw [List.getLastD_cons]
    obtain rfl | hmem := List.mem_cons.1 hn
    · exact ⟨le_rfl, hlt.le.trans hlast⟩
    · obtain ⟨hge, hle⟩ := ih h.of_cons hmem
      exact ⟨hlt.le.trans hge, hle⟩

/-- **The lost notifications**, gap by gap. -/
theorem card_lost {counts : List ℕ} (h : counts.Pairwise (· < ·)) : (lost counts).card = missedBetween counts := by
  cases counts with
  | nil => rfl
  | cons first rest =>
    have hsub : (first :: rest).toFinset ⊆ Finset.Icc first (rest.getLastD first) := by
      intro n hn
      exact Finset.mem_Icc.2 (mem_le_getLastD h (List.mem_toFinset.1 hn))
    have hnodup : (first :: rest).Nodup := h.imp fun hab => hab.ne
    have hlost : lost (first :: rest) = Finset.Icc first (rest.getLastD first) \ (first :: rest).toFinset := by
      ext n
      simp [lost]
    have hlast := missedBetween_add h
    rw [hlost, Finset.card_sdiff_of_subset hsub, Nat.card_Icc, List.toFinset_card_of_nodup hnodup, List.length_cons,
      ← hlast]
    omega

theorem missedBetween_append (counts : List ℕ) (a b : ℕ) :
    missedBetween (counts ++ [a] ++ [b]) = missedBetween (counts ++ [a]) + (b - a - 1) := by
  induction counts with
  | nil => simp [missedBetween]
  | cons c counts ih =>
    cases counts with
    | nil => simp [missedBetween]
    | cons d counts =>
      have ih' : missedBetween (d :: (counts ++ [a] ++ [b])) = missedBetween (d :: (counts ++ [a])) + (b - a - 1) := ih
      simp only [List.cons_append, missedBetween]
      rw [ih', Nat.add_assoc]

theorem interruptions_append (counts : List ℕ) (a b : ℕ) :
    interruptions (counts ++ [a] ++ [b]) = interruptions (counts ++ [a]) + if b = a + 1 then 0 else 1 := by
  induction counts with
  | nil => simp [interruptions]
  | cons c counts ih =>
    cases counts with
    | nil => simp [interruptions]
    | cons d counts =>
      have ih' : interruptions (d :: (counts ++ [a] ++ [b])) =
        interruptions (d :: (counts ++ [a])) + if b = a + 1 then 0 else 1 := ih
      simp only [List.cons_append, interruptions]
      rw [ih', Nat.add_assoc]

/-! ## One connection -/

/-- the numbers of the well-formed multipart messages -/
def numbers (cfg : LoopCfg) (rs : List Received) : List UInt32 := rs.filterMap fun r => (extract cfg r).map (·.2)

/-- the well-formed messages of a connection carry the published numbers of these counts -/
structure PublishedAs (cfg : LoopCfg) (rs : List Received) (counts : List ℕ) : Prop where
  numbers : numbers cfg rs = counts.map published
  inOrder : InOrder counts

/-- what a connection reports, from its true counts -/
structure SessionAccount (cfg : LoopCfg) (rs : List Received) (counts : List ℕ) : Prop where
  tracker : (session cfg rs).1 = ⟨counts.getLast?.map published⟩
  missed : ((session cfg rs).2.map (·.missedCount)).sum = missedBetween counts
  gaps : (session cfg rs).2.countP (·.isGap) = interruptions counts

theorem payloadMessage_noGap (cfg : LoopCfg) (now : DateTime) (payload : List UInt8) (n : UInt32) :
    ((payloadMessage cfg now payload n).map (·.missedCount)).sum = 0 ∧
      (payloadMessage cfg now payload n).countP (·.isGap) = 0 := by
  unfold payloadMessage
  split <;> split <;> exact ⟨rfl, rfl⟩

theorem gapMessage_missed (t : BitcoinZmqTopic) (result : SequenceCheckResult) :
    ((gapMessage t result).map (·.missedCount)).sum = result.missedCount := by
  cases result with
  | gap previous current missed => exact Nat.add_zero _
  | _ => rfl

/-- a number that is ahead reveals what lies between, in one gap message -/
theorem gapMessage_ahead (t : BitcoinZmqTopic) {last count : ℕ} (h : last < count) (hhalf : count < last + 2 ^ 31) :
    ((gapMessage t (observe ⟨some (published last)⟩ (published count)).2).map (·.missedCount)).sum = count - last - 1 ∧
      (gapMessage t (observe ⟨some (published last)⟩ (published count)).2).countP (·.isGap) =
        if count = last + 1 then 0 else 1 := by
  obtain ⟨-, -, hmissed⟩ := observe_ahead h hhalf
  have hdiff : (published count - published last).toNat = count - last := by
    rw [toNat_published_sub]
    omega
  constructor
  · rw [gapMessage_missed]
    omega
  · rw [observe_some, hdiff, if_neg (by omega)]
    by_cases hone : count = last + 1
    · rw [if_pos (by omega), if_pos hone]
      rfl
    · rw [if_neg (by omega), if_pos (by omega), if_neg hone]
      rfl

/-- **One connection** reports what it lost, and each interruption once. -/
theorem session_account {cfg : LoopCfg} {rs : List Received} {counts : List ℕ} (h : PublishedAs cfg rs counts) :
    SessionAccount cfg rs counts := by
  induction rs using List.reverseRecOn generalizing counts with
  | nil =>
    obtain rfl : counts = [] := List.map_eq_nil_iff.1 h.numbers.symm
    exact ⟨rfl, rfl, rfl⟩
  | append_singleton rs r ih =>
    obtain ⟨hnumbers, horder⟩ := h
    rw [numbers, List.filterMap_append] at hnumbers
    cases hextract : extract cfg r with
    | none =>
      -- malformed: not seen by the tracker
      have hold : PublishedAs cfg rs counts := ⟨by simpa [numbers, hextract] using hnumbers, horder⟩
      have hreceive : ∀ tracker, receive cfg tracker r = (tracker, []) := fun tracker => by rw [receive, hextract]
      obtain ⟨htracker, hmissed, hgaps⟩ := ih hold
      constructor
      · rw [session_append, hreceive, htracker]
      · rw [session_append, hreceive, List.append_nil, hmissed]
      · rw [session_append, hreceive, List.append_nil, hgaps]
    | some res =>
      obtain ⟨payload, n⟩ := res
      have hsplit : numbers cfg rs ++ [n] = counts.map published := by simpa [hextract, numbers] using hnumbers
      obtain ⟨old, last, rfl, hold, hlast⟩ : ∃ old last, counts = old ++ [last] ∧ numbers cfg rs = old.map published ∧
          n = published last := by
        obtain ⟨old, rest, rfl, hold, hrest⟩ := List.map_eq_append_iff.1 hsplit.symm
        obtain ⟨last, rfl, hn⟩ := List.map_eq_singleton_iff.1 hrest
        exact ⟨old, last, rfl, hold.symm, hn.symm⟩
      obtain ⟨htracker, hmissed, hgaps⟩ := ih ⟨hold, horder.left_of_append⟩
      have hpayload := payloadMessage_noGap cfg r.now payload n
      have hreceive : ∀ tracker, receive cfg tracker r = ((observe tracker n).1,
          gapMessage cfg.topic (observe tracker n).2 ++ payloadMessage cfg r.now payload n) := fun tracker => by
        rw [receive, hextract]
      obtain rfl | ⟨older, before, rfl⟩ := List.eq_nil_or_concat' old
      · -- the first number of the connection
        rw [List.getLast?_nil] at htracker
        constructor
        · rw [session_append, hreceive, htracker, hlast]
          rfl
        · rw [session_append, hreceive, htracker, List.map_append, List.sum_append, hmissed, List.map_append,
            List.sum_append, hpayload.1]
          rfl
        · rw [session_append, hreceive, htracker, List.countP_append, hgaps, List.countP_append, hpayload.2]
          rfl
      · -- ahead of the number before it
        have hahead : before < last ∧ last < before + 2 ^ 31 := by
          have := List.isChain_append.1 horder
          exact this.2.2 before (by simp) last (by simp)
        rw [List.getLast?_concat] at htracker
        obtain ⟨hnext, -, -⟩ := observe_ahead hahead.1 hahead.2
        obtain ⟨hgapMissed, hgapCount⟩ := gapMessage_ahead cfg.topic hahead.1 hahead.2
        constructor
        · rw [session_append, hreceive, htracker, hlast]
          simpa using hnext
        · rw [session_append, hreceive, htracker, hlast, List.map_append, List.sum_append, hmissed, List.map_append,
            List.sum_append, ← hlast, hpayload.1, hlast, Nat.add_zero, missedBetween_append]
          congr 1
        · rw [session_append, hreceive, htracker, hlast, List.countP_append, hgaps, List.countP_append, ← hlast,
            hpayload.2, hlast, Nat.add_zero, interruptions_append]
          congr 1

/-! ## All connections -/

/-- taken to the last message, with every loop running -/
def Sys.Drained (s : Sys) : Prop :=
  s.channel = [] ∧ ∀ t loop, s.loops t = some loop → loop.phase.pending = [] ∧ loop.phase ≠ .stopped

def topics : List BitcoinZmqTopic := [.rawTx, .rawBlock, .sequence]

/-- the interruptions and the losses of the connections of all topics -/
def totalInterruptions (counts : BitcoinZmqTopic → List (List ℕ)) : ℕ :=
  (topics.map fun t => ((counts t).map interruptions).sum).sum

def totalLost (counts : BitcoinZmqTopic → List (List ℕ)) : ℕ :=
  (topics.map fun t => ((counts t).map fun cs => (lost cs).card).sum).sum

/-- the connections of one topic -/
theorem sessions_account {cfg : LoopCfg} {sessions : List (List Received)} {counts : List (List ℕ)}
    (h : List.Forall₂ (PublishedAs cfg) sessions counts) :
    ((sessions.flatMap fun rs => (session cfg rs).2).map (·.missedCount)).sum =
        (counts.map fun cs => (lost cs).card).sum ∧
      (sessions.flatMap fun rs => (session cfg rs).2).countP (·.isGap) = (counts.map interruptions).sum := by
  induction h with
  | nil => exact ⟨rfl, rfl⟩
  | cons hpub hrest ih =>
    obtain ⟨-, hmissed, hgaps⟩ := session_account hpub
    rw [List.flatMap_cons, List.map_append, List.sum_append, List.countP_append, hmissed, hgaps, ih.1, ih.2,
      List.map_cons, List.map_cons, List.sum_cons, List.sum_cons, card_lost hpub.inOrder.pairwise]
    exact ⟨rfl, rfl⟩

/-- every message belongs to one of the topics -/
theorem sum_topics (f : BitcoinZmqMessage → ℕ) (ms : List BitcoinZmqMessage) :
    (ms.map f).sum = (topics.map fun t => ((ms.filter fun m => m.topic = t).map f).sum).sum := by
  induction ms with
  | nil => rfl
  | cons m ms ih =>
    rw [List.map_cons, List.sum_cons, ih]
    simp only [topics, List.map_cons, List.map_nil, List.sum_cons, List.sum_nil, List.filter_cons]
    cases m.topic <;> simp only [decide_true, decide_false, reduceCtorEq, if_true, if_false, Bool.false_eq_true,
      List.map_cons, List.sum_cons] <;> omega

theorem countP_isGap (ms : List BitcoinZmqMessage) :
    ms.countP (·.isGap) = (ms.map fun m => if m.isGap then 1 else 0).sum := by
  induction ms with
  | nil => rfl
  | cons m ms ih => rw [List.countP_cons, ih, List.map_cons, List.sum_cons, Nat.add_comm]

/-- the messages taken of a topic are all that its connections gave -/
theorem delivered_drained {cfg : SysCfg} {s : Sys} (h : Inv cfg s) (hdrained : s.Drained) (t : BitcoinZmqTopic) :
    (s.taken.filter fun m => m.topic = t) = emitted (cfg.topicCfg t) (s.history t) := by
  obtain ⟨hchannel, hloops⟩ := hdrained
  have hdelivered : s.delivered t = s.taken.filter fun m => m.topic = t := by
    rw [Sys.delivered, hchannel, List.append_nil]
  rw [← hdelivered]
  cases hloop : s.loops t with
  | none =>
    obtain ⟨hnone, hempty⟩ := h.unconfigured t hloop
    rw [hnone, hempty]
  | some loop =>
    obtain ⟨hpending, hrun⟩ := hloops t loop hloop
    rw [← (h.topics t loop hloop).running hrun, hpending, List.append_nil]

/-- **The gap counters are exact.** When the messages received carry the numbers of true counts, in order and less than half
of the range apart in each connection, then whatever order the tasks took their turns in, once all is taken the counters are
the number of interruptions and the number of notifications lost within a connection, over all topics and connections. -/
theorem gap_counters_exact (cfg : SysCfg) (evs : List Ev) (counts : BitcoinZmqTopic → List (List ℕ))
    (hpub : ∀ t, List.Forall₂ (PublishedAs (cfg.topicCfg t)) ((run cfg evs).history t).sessions (counts t))
    (hdrained : (run cfg evs).Drained) :
    (run cfg evs).coord.zmqSequenceGapsTotal = totalInterruptions counts ∧
      (run cfg evs).coord.zmqNotificationsMissedEstimate = totalLost counts := by
  obtain ⟨hgaps, hmissed⟩ := gap_counters_taken cfg evs
  have htaken := delivered_drained (inv_run cfg evs) hdrained
  rw [hgaps, hmissed, countP_isGap, sum_topics, sum_topics]
  unfold totalInterruptions totalLost
  constructor
  · congr 1
    apply List.map_congr_left
    intro t _
    rw [← countP_isGap, htaken t]
    exact (sessions_account (hpub t)).2
  · congr 1
    apply List.map_congr_left
    intro t _
    rw [htaken t]
    exact (sessions_account (hpub t)).1

/-- the run of the gap, its message taken by a coordinator whose node is gone -/
def takenRun : List Ev :=
  gapRun ++ [.take ⟨{ forkRpc with getBlockchainInfo := .error (.http "connection refused") }, 0, fun _ => .error "eof"⟩ true]

/-- the second and the third notification are lost -/
theorem gap_counters_exact_gap :
    (run oneTopic takenRun).coord.zmqSequenceGapsTotal = 1 ∧
      (run oneTopic takenRun).coord.zmqNotificationsMissedEstimate = 2 := by
  let counts : BitcoinZmqTopic → List (List ℕ) := fun t => if t = .sequence then [[], [1, 4]] else [[]]
  have hnone : ∀ cfg, PublishedAs cfg [] [] := fun _ => ⟨rfl, List.isChain_nil⟩
  have hpub : ∀ t, List.Forall₂ (PublishedAs (oneTopic.topicCfg t)) ((run oneTopic takenRun).history t).sessions
      (counts t) := by
    intro t
    cases t with
    | sequence =>
      have hsessions : ((run oneTopic takenRun).history .sequence).sessions =
        [[], [shortNotification 1, shortNotification 4]] := by decide +kernel
      rw [hsessions]
      exact .cons (hnone _) (.cons ⟨by decide +kernel, by decide⟩ .nil)
    | rawBlock =>
      have hsessions : ((run oneTopic takenRun).history .rawBlock).sessions = [[]] := by decide +kernel
      rw [hsessions]
      exact .cons (hnone _) .nil
    | rawTx =>
      have hsessions : ((run oneTopic takenRun).history .rawTx).sessions = [[]] := by decide +kernel
      rw [hsessions]
      exact .cons (hnone _) .nil
  have hdrained : (run oneTopic takenRun).Drained := by
    have hchannel : (run oneTopic takenRun).channel.length = 0 := by decide +kernel
    have hloops : ∀ t ∈ topics, ((run oneTopic takenRun).loops t).all
        (fun loop => loop.phase.pending.isEmpty && loop.phase.tracker.isSome) = true := by decide +kernel
    refine ⟨List.length_eq_zero_iff.1 hchannel, ?_⟩
    intro t loop hloop
    have hall := hloops t (by cases t <;> decide)
    rw [hloop, Option.all_some, Bool.and_eq_true, List.isEmpty_iff] at hall
    refine ⟨hall.1, ?_⟩
    intro hstopped
    rw [hstopped] at hall
    cases hall.2
  obtain ⟨hgaps, hmissed⟩ := gap_counters_exact oneTopic takenRun counts hpub hdrained
  exact ⟨hgaps.trans (by decide +kernel), hmissed.trans (by decide +kernel)⟩

end ObsChain.ZmqSubscriber
