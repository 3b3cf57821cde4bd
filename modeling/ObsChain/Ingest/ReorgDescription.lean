/-
Is a reported reorganization described as it happened?

The walk of `handle_potential_reorg` starts at the stored tip and at the new block's parent and goes down both branches in
step. It compares at the top of an iteration and pushes before it asks for the headers, and it is cut after 100
iterations. When both ends are k blocks above their lowest common ancestor, the branches meet after exactly k steps
(`traceAncestor_meets`), and for k up to 99 an iteration is left to see it.

- `balanced_fork_described`: the report then names the ancestor, the k blocks that were disconnected, tip first, and the
  new block with the k blocks below it.

The depth has a counter of its own. It starts at one before any block is disconnected, so it counts the connected blocks.

- `depth_never_counts`: a report that names an ancestor has a depth of one more than the blocks it disconnects. The
  detector rates by the depth, and its rating is the documented one unless 1, 2 or 5 blocks are disconnected.

A disconnect notification makes the coordinator look at the node's chain tips. It does not know the parent of the active
tip and hands the walk the empty text instead, which no block is named by.

- `chain_tips_never_reported`: the walk ends after one iteration, so the report always lists the empty text among the
  connected blocks and never names an ancestor.
-/
import Mathlib.Tactic
import ObsChain.Ingest.BitcoinCoordinator
import ObsChain.Detect.Detectors

namespace ObsChain.Coordinator

/-- the node answers every header request for a block of the tree -/
def HeadersKnown (rpc : Rpc) (T : BlockTree) : Prop := ∀ i hash, T.mem hash → ∃ hdr, rpc.getBlockHeader i hash = .ok hdr

/-- the report of a fork at `ancestor`: k blocks from the old tip down, the new block and k blocks from its parent down -/
structure DescribesFork (T : BlockTree) (k : ℕ) (oldTip newTip newPrev ancestor : String) (r : ReorgObservation) :
    Prop where
  commonAncestorHash : r.commonAncestorHash = some ancestor
  disconnectedBlocks : r.disconnectedBlocks = T.path k oldTip
  connectedBlocks : r.connectedBlocks = newTip :: T.path k newPrev

/-- one iteration from two different blocks that have parents -/
theorem traceAncestor_step {rpc : Rpc} {T : BlockTree} (hserves : rpc.Serves T) (hheaders : HeadersKnown rpc T) (n : ℕ)
    {w : Walk} (hne : w.currentOld ≠ w.currentNew) {op np : String} (hop : T.parent w.currentOld = some op)
    (hnp : T.parent w.currentNew = some np) :
    traceAncestor rpc (n + 1) w = traceAncestor rpc n { w with
      currentOld := op
      currentNew := np
      disconnected := w.disconnected ++ [w.currentOld]
      connected := w.connected ++ [w.currentNew]
      depth := w.depth + 1 } := by
  obtain ⟨o, ho⟩ := hheaders n w.currentOld (T.parent_mem hop).1
  obtain ⟨m, hm⟩ := hheaders n w.currentNew (T.parent_mem hnp).1
  obtain ⟨-, -, -, hoprev⟩ := hserves.blockHeader n w.currentOld o ho
  obtain ⟨-, -, -, hmprev⟩ := hserves.blockHeader n w.currentNew m hm
  rw [hop] at hoprev
  rw [hnp] at hmprev
  simp only [traceAncestor, hne, if_false, ho, hm, hoprev, hmprev]

/-- **The walk meets after k steps.** The branches are recorded down to the ancestor, which is seen in the iteration
after. -/
theorem traceAncestor_meets {rpc : Rpc} {T : BlockTree} (hserves : rpc.Serves T) (hheaders : HeadersKnown rpc T)
    {k n : ℕ} (hn : k < n) {w : Walk} {a : String} (hold : T.ancestor k w.currentOld = some a)
    (hnew : T.ancestor k w.currentNew = some a)
    (hapart : ∀ j < k, ∀ d, T.ancestor j w.currentOld = some d → T.ancestor j w.currentNew ≠ some d) :
    (traceAncestor rpc n w).commonAncestor = some a ∧
      (traceAncestor rpc n w).disconnected = w.disconnected ++ T.path k w.currentOld ∧
      (traceAncestor rpc n w).connected = w.connected ++ T.path k w.currentNew := by
  induction k generalizing n w with
  | zero =>
    obtain ⟨m, rfl⟩ := Nat.exists_eq_add_of_lt hn
    have hsame : w.currentOld = a := Option.some.inj hold
    have hsame' : w.currentNew = a := Option.some.inj hnew
    have hstop : traceAncestor rpc (0 + m + 1) w = { w with commonAncestor := some w.currentOld } := by
      rw [traceAncestor, if_pos (hsame.trans hsame'.symm)]
    rw [hstop]
    refine ⟨congrArg some hsame, ?_, ?_⟩
    · exact (List.append_nil _).symm
    · exact (List.append_nil _).symm
  | succ k ih =>
    obtain ⟨m, rfl⟩ : ∃ m, n = m + 1 := ⟨n - 1, by omega⟩
    obtain ⟨op, hop, hopa⟩ := Forest.exists_parent_of_ancestor hold
    obtain ⟨np, hnp, hnpa⟩ := Forest.exists_parent_of_ancestor hnew
    have hne : w.currentOld ≠ w.currentNew := by
      intro heq
      exact hapart 0 (by omega) w.currentOld rfl (congrArg some heq.symm)
    rw [traceAncestor_step hserves hheaders m hne hop hnp]
    have hbelow : ∀ j < k, ∀ d, T.ancestor j op = some d → T.ancestor j np ≠ some d := by
      intro j hj d hd
      have hup := hapart (j + 1) (by omega) d
      rw [Forest.ancestor_succ hop, Forest.ancestor_succ hnp] at hup
      exact hup hd
    obtain ⟨hanc, hdis, hcon⟩ := ih (n := m) (by omega) (w := { w with
      currentOld := op
      currentNew := np
      disconnected := w.disconnected ++ [w.currentOld]
      connected := w.connected ++ [w.currentNew]
      depth := w.depth + 1 }) hopa hnpa hbelow
    refine ⟨hanc, ?_, ?_⟩
    · rw [hdis, Forest.path, hop]
      simp
    · rw [hcon, Forest.path, hnp]
      simp

/-- **A balanced fork is described exactly.** For an old tip and a new block's parent that are each k blocks above their
lowest common ancestor, with every header answered and k from 1 to 99. -/
theorem balanced_fork_described (T : BlockTree) (env : Env) (hserves : env.rpc.Serves T)
    (hheaders : HeadersKnown env.rpc T) (c : St) (oldTip newTip newPrev ancestor : String) (newHeight k : ℕ)
    (hcommon : T.LowestCommon ancestor oldTip newPrev) (hold : T.ancestor k oldTip = some ancestor)
    (hnew : T.ancestor k newPrev = some ancestor) (hpos : 1 ≤ k) (hbound : k ≤ 99) :
    ∃ r, (handlePotentialReorg env c oldTip newTip newHeight newPrev).2 = .reorg r ∧
      DescribesFork T k oldTip newTip newPrev ancestor r := by
  have hwalk := traceAncestor_meets hserves hheaders (n := 100) (by omega) (w := ⟨oldTip, newPrev, [], [newTip], none, 1⟩)
    hold hnew (fun j hj d hd => hcommon.ancestor_ne hold hj hd)
  obtain ⟨hanc, hdis, hcon⟩ := hwalk
  exact ⟨_, rfl, ⟨hanc, hdis, hcon⟩⟩

theorem forkRpc_headersKnown : HeadersKnown forkRpc forkTree := by
  intro i hash hmem
  refine ⟨⟨hash, forkTree.height hash, 0, forkTree.parent hash, none⟩, ?_⟩
  exact if_pos hmem

/-- the tip `b` is replaced by a block on top of its competitor `x`; both are one block above `a` -/
theorem balanced_fork_described_competing :
    ∃ r, (handlePotentialReorg ⟨forkRpc, 0, fun _ => .error ""⟩ new "b" "y" 3 "x").2 = .reorg r ∧
      DescribesFork forkTree 1 "b" "y" "x" "a" r := by
  have hparents : forkTree.parent "b" = some "a" ∧ forkTree.parent "x" = some "a" ∧ forkTree.parent "a" = none := by
    decide
  obtain ⟨hb, hx, ha⟩ := hparents
  have hancestors : ∀ d, forkTree.AncestorOrEq d "b" → forkTree.AncestorOrEq d "x" → d = "a" := by
    rintro d ⟨i, hi⟩ ⟨j, hj⟩
    have hcases : ∀ (tip : String), forkTree.parent tip = some "a" → ∀ i, forkTree.ancestor i tip = some d →
        d = tip ∨ d = "a" := by
      intro tip htip i hi
      match i with
      | 0 => exact Or.inl (Option.some.inj hi).symm
      | 1 => exact Or.inr (by simpa [Forest.ancestor, htip] using hi.symm)
      | i + 2 => simp [Forest.ancestor, htip, ha] at hi
    rcases hcases "b" hb i hi with rfl | hd
    · exact (hcases "x" hx j hj).resolve_left (by decide)
    · exact hd
  refine balanced_fork_described forkTree ⟨forkRpc, 0, fun _ => .error ""⟩ forkRpc_serves
    forkRpc_headersKnown new "b" "y" "x" "a" 3 1 ⟨⟨1, ?_⟩, ⟨1, ?_⟩, ?_⟩ ?_ ?_ (by omega) (by omega)
  · simp [Forest.ancestor, hb]
  · simp [Forest.ancestor, hx]
  · intro d hdb hdx
    exact ⟨0, congrArg some (hancestors d hdb hdx).symm⟩
  · simp [Forest.ancestor, hb]
  · simp [Forest.ancestor, hx]

/-! ## Depth -/

/-- the documented rating of a reorganization that disconnects this many blocks -/
def documentedSeverity : ℕ → EventSeverity
  | 0 | 1 => .low
  | 2 => .medium
  | 3 | 4 | 5 => .high
  | _ => .critical

/-- the depth is the number of disconnected blocks, and the detector rates the report by that number -/
structure CountsDisconnected (rfc3339 : DateTime → String) (fresh : Fresh) (r : ReorgObservation) : Prop where
  depth : r.depth = r.disconnectedBlocks.length
  rated : ∀ event ∈ ReorgDetector.detect rfc3339 fresh (.reorg r),
    event.severity = documentedSeverity r.disconnectedBlocks.length

/-- **The counter stays one ahead.** Every iteration that goes on records one block of the old branch and adds one, and an
iteration that finds the ancestor does neither. -/
theorem traceAncestor_depth {rpc : Rpc} {n : ℕ} {w : Walk} (hdepth : w.depth = w.disconnected.length + 1)
    (hnone : w.commonAncestor = none) (hfound : (traceAncestor rpc n w).commonAncestor.isSome) :
    (traceAncestor rpc n w).depth = (traceAncestor rpc n w).disconnected.length + 1 := by
  induction n generalizing w with
  | zero =>
    rw [traceAncestor, hnone] at hfound
    cases hfound
  | succ n ih =>
    rw [traceAncestor] at hfound ⊢
    split_ifs at hfound ⊢ with hsame
    · exact hdepth
    · dsimp only at hfound ⊢
      split at hfound
      · split at hfound
        · apply ih
          · simp [hdepth]
          · exact hnone
          · exact hfound
        · rw [hnone] at hfound
          cases hfound
      · rw [hnone] at hfound
        cases hfound

theorem severity_addWitness (event : ChainEvent) (w : ObservationWitness) :
    (event.addWitness w).severity = event.severity := by
  obtain ⟨ws, hws⟩ := event.addWitness_frame w
  rw [hws]

/-- the detector rates by the depth -/
theorem severity_of_detect {rfc3339 : DateTime → String} {fresh : Fresh} {r : ReorgObservation} {event : ChainEvent}
    (h : event ∈ ReorgDetector.detect rfc3339 fresh (.reorg r)) : event.severity = ReorgDetector.severityOf r.depth := by
  unfold ReorgDetector.detect at h
  dsimp only at h
  split at h
  · rw [List.mem_singleton.1 h]
    unfold ReorgDetector.report
    cases r.source with
    | none => rfl
    | some src => exact severity_addWitness _ _
  · cases h

/-- one block more than documented: where the two ratings still agree -/
theorem severityOf_succ_iff (k : ℕ) : ReorgDetector.severityOf (k + 1) = documentedSeverity k ↔ k ∉ [1, 2, 5] := by
  match k with
  | 0 | 1 | 2 | 3 | 4 | 5 => decide
  | k + 6 =>
    have hrated : ReorgDetector.severityOf (k + 6 + 1) = .critical := by
      unfold ReorgDetector.severityOf
      rw [if_neg (by omega), if_neg (by omega), if_neg (by omega)]
    simp [hrated, documentedSeverity]

/-- **The depth never counts the disconnected blocks.** A report that names a common ancestor has a depth of one more. -/
theorem depth_never_counts (rfc3339 : DateTime → String) (fresh : Fresh) (env : Env) (c : St)
    (oldTip newTip newPrev : String) (newHeight : ℕ) (r : ReorgObservation)
    (hr : (handlePotentialReorg env c oldTip newTip newHeight newPrev).2 = .reorg r)
    (hfound : r.commonAncestorHash.isSome) :
    ¬ CountsDisconnected rfc3339 fresh r ∧ r.depth = r.disconnectedBlocks.length + 1 ∧
      ∀ event ∈ ReorgDetector.detect rfc3339 fresh (.reorg r),
        (event.severity = documentedSeverity r.disconnectedBlocks.length ↔ r.disconnectedBlocks.length ∉ [1, 2, 5]) := by
  have hdepth : r.depth = r.disconnectedBlocks.length + 1 := by
    cases hr
    exact traceAncestor_depth rfl rfl hfound
  refine ⟨?_, hdepth, ?_⟩
  · intro hcounts
    have hequal := hcounts.depth
    omega
  · intro event hevent
    rw [severity_of_detect hevent, hdepth]
    exact severityOf_succ_iff r.disconnectedBlocks.length

/-- the tip `b` is replaced by a block on top of its competitor `x` -/
def competingReport : ReorgObservation where
  oldTipHash := "b"
  oldTipHeight := 2
  newTipHash := "y"
  newTipHeight := 3
  commonAncestorHash := some "a"
  depth := 2
  disconnectedBlocks := ["b"]
  connectedBlocks := ["y", "x"]
  observedAt := 0
  source := some (ObservationSource.bitcoinCoreZmq "zmq:sequence")

/-- a coordinator at the tip `b` -/
def atCompetitor : St := { new with lastTipHash := some "b", lastTipHeight := 2 }

/-- the node of the small tree, and no block to decode -/
def competingEnv : Env := ⟨forkRpc, 0, fun _ => .error ""⟩

theorem depth_never_counts_competing :
    (handlePotentialReorg competingEnv atCompetitor "b" "y" 3 "x").2 = .reorg competingReport ∧
      competingReport.depth = competingReport.disconnectedBlocks.length + 1 := by
  have hr : (handlePotentialReorg competingEnv atCompetitor "b" "y" 3 "x").2 = .reorg competingReport := by
    decide +kernel
  exact ⟨hr, (depth_never_counts (fun _ => "") ⟨0, 0, 0⟩ _ _ _ _ _ _ _ hr rfl).2.1⟩

/-- **One block is disconnected** and the report says depth 2, which the detector rates as two blocks. -/
theorem stale_block_rated_medium :
    forkRpc.Serves forkTree ∧
      (handlePotentialReorg competingEnv atCompetitor "b" "y" 3 "x").2 = .reorg competingReport ∧
      ((ReorgDetector.detect (fun _ => "") ⟨0, 0, 0⟩ (.reorg competingReport)).map fun event => event.severity) =
        [.medium] ∧
      documentedSeverity competingReport.disconnectedBlocks.length = .low ∧
      ¬ CountsDisconnected (fun _ => "") ⟨0, 0, 0⟩ competingReport := by
  refine ⟨forkRpc_serves, by decide +kernel, by decide +kernel, by decide, ?_⟩
  intro hcounts
  have hdepth : competingReport.depth = competingReport.disconnectedBlocks.length := hcounts.depth
  revert hdepth
  decide

/-! ## Chain tips -/

/-- the report names blocks of the tree only, and the lowest common ancestor of tips that fork at most 50 blocks below -/
structure ReportsFork (T : BlockTree) (last active : String) (r : ReorgObservation) : Prop where
  disconnectedBlocks : ∀ b ∈ r.disconnectedBlocks, T.mem b
  connectedBlocks : ∀ b ∈ r.connectedBlocks, T.mem b
  commonAncestorHash : ∀ a i j, T.LowestCommon a last active → T.ancestor i last = some a → i ≤ 50 →
    T.ancestor j active = some a → j ≤ 50 → r.commonAncestorHash = some a

/-- the walk from a block and the empty text, for which there is no header -/
theorem traceAncestor_empty {rpc : Rpc} {T : BlockTree} (hserves : rpc.Serves T) (hempty : ¬ T.mem "") (n : ℕ)
    {w : Walk} (hold : T.mem w.currentOld) (hnew : w.currentNew = "") :
    traceAncestor rpc (n + 1) w =
      { w with disconnected := w.disconnected ++ [w.currentOld], connected := w.connected ++ [""] } := by
  have hne : w.currentOld ≠ w.currentNew := by
    intro heq
    rw [heq, hnew] at hold
    exact hempty hold
  have hheader : ∃ error, rpc.getBlockHeader n "" = .error error := by
    cases hget : rpc.getBlockHeader n "" with
    | error error => exact ⟨error, rfl⟩
    | ok hdr => exact absurd (hserves.blockHeader n "" hdr hget).1 hempty
  obtain ⟨error, hheader⟩ := hheader
  rw [traceAncestor, if_neg hne, hnew]
  dsimp only
  rw [hheader]
  cases rpc.getBlockHeader n w.currentOld with
  | error _ => rfl
  | ok _ => rfl

/-- **No chain tip is reported as it forks.** Whatever the tree and the two tips, the report lists the empty text among
the connected blocks, and it names no ancestor. -/
theorem chain_tips_never_reported (T : BlockTree) (env : Env) (hserves : env.rpc.Serves T)
    (hempty : ¬ T.mem "") (c : St) (last : String) (hlast : c.lastTipHash = some last) (hmem : T.mem last)
    (tips : List ChainTip) (htips : env.rpc.getChainTips = .ok tips) (active : ChainTip)
    (hactive : tips.find? (fun t => t.status == "active") = some active) (hne : last ≠ active.hash) :
    ∃ r, (investigateChainTips env c).2 = [.reorg r] ∧ ¬ ReportsFork T last active.hash r ∧
      r.connectedBlocks = [active.hash, ""] ∧ r.commonAncestorHash = none := by
  have hwalk := traceAncestor_empty hserves hempty 99 (w := ⟨last, "", [], [active.hash], none, 1⟩) hmem rfl
  have hsent : (investigateChainTips env c).2 = [.reorg {
      oldTipHash := last
      oldTipHeight := c.lastTipHeight
      newTipHash := active.hash
      newTipHeight := active.height
      commonAncestorHash := none
      depth := 1
      disconnectedBlocks := [last]
      connectedBlocks := [active.hash, ""]
      observedAt := env.now
      source := some (ObservationSource.bitcoinCoreZmq "zmq:sequence") }] := by
    simp [investigateChainTips, htips, hactive, hlast, hne, handlePotentialReorg, hwalk]
  refine ⟨_, hsent, ?_, rfl, rfl⟩
  intro hreports
  exact hempty (hreports.connectedBlocks "" (by simp))

/-- the coordinator is at `x` and the node's active tip is `c`; they fork at `a` -/
def atStaleTip : St := { new with lastTipHash := some "x", lastTipHeight := 2 }

theorem chain_tips_never_reported_stale :
    ∃ r, (investigateChainTips competingEnv atStaleTip).2 = [.reorg r] ∧ ¬ ReportsFork forkTree "x" "c" r ∧
      r.connectedBlocks = ["c", ""] ∧ r.commonAncestorHash = none :=
  chain_tips_never_reported forkTree competingEnv forkRpc_serves (by simp [forkTree]) atStaleTip "x" rfl
    (by simp [forkTree]) [⟨3, "c", 0, "active"⟩, ⟨2, "x", 1, "valid-fork"⟩] rfl ⟨3, "c", 0, "active"⟩ rfl (by decide)

/-- **The tips `x` and `c` fork one and two blocks below them.** The report for them connects the empty text. -/
theorem chain_tips_connect_empty :
    forkRpc.Serves forkTree ∧ HeadersKnown forkRpc forkTree ∧
      (forkTree.ancestor 1 "x" = some "a" ∧ forkTree.ancestor 2 "c" = some "a") ∧
      ∃ r, (investigateChainTips competingEnv atStaleTip).2 = [.reorg r] ∧ "" ∈ r.connectedBlocks ∧
        ¬ forkTree.mem "" ∧ r.commonAncestorHash = none ∧ ¬ ReportsFork forkTree "x" "c" r := by
  have hempty : ¬ forkTree.mem "" := by simp [forkTree]
  refine ⟨forkRpc_serves, forkRpc_headersKnown, ⟨by decide, by decide⟩, _, rfl, by decide +kernel, hempty,
    by decide +kernel, ?_⟩
  intro hreports
  exact hempty (hreports.connectedBlocks "" (by decide +kernel))

end ObsChain.Coordinator
