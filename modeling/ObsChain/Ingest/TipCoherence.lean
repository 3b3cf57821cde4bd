/-
Do the stored tip hash and the stored tip height belong to the same block?

The two are separate cells, and five operations write them. `initializeCoordinator` and the large-gap branch of
`reconcileTipAndGap` write the height first and then ask the node for the hash; a raw block's height is what its
coinbase says, or 0.

- `step_coherent_iff`: from a coherent state, which steps keep it coherent, for every operation and every failure.
- `tip_coherent_iff`: a run from a new coordinator is coherent throughout exactly when every step meets `KeepsTip`.
- `large_gap_hash_lost`: a failed hash request in the large-gap branch leaves the old hash beside the node's height.
-/
import Mathlib.Tactic
import ObsChain.Core.Trace
import ObsChain.Ingest.BitcoinCoordinator

namespace ObsChain.Coordinator

open Trace

/-- the stored hash, when there is one, is a block of the tree at the stored height -/
def Coherent (T : BlockTree) (c : St) : Prop :=
  ∀ hash, c.lastTipHash = some hash → T.mem hash ∧ T.height hash = c.lastTipHeight

/-- the operation's answers come from the tree: the node's, and the block a `rawblock` notification carries -/
def Op.Genuine (T : BlockTree) : Op → Prop
  | .rawBlock env payload =>
    env.rpc.Serves T ∧ ∀ block, env.deserialize payload = .ok block → T.mem block.blockHash
  | o => o.env.rpc.Serves T

/-- the node's tip is further ahead than the reconciliation limit, and the hash request that follows fails -/
def LargeGapHashFails (cfg : Config) (env : Env) (c : St) : Prop :=
  ∃ info e, env.rpc.getBlockchainInfo = .ok info ∧ c.lastTipHeight < info.blocks ∧ 0 < c.lastTipHeight ∧
    cfg.reconcileMaxBlocks < info.blocks - c.lastTipHeight ∧ env.rpc.getBlockHash info.blocks = .error e

/-- the condition on one step: a raw block that is accepted carries its own height; where a height is written and its
hash then cannot be had, no hash is stored (or, at initialization, the height written is the one stored) -/
def KeepsTip (T : BlockTree) (cfg : Config) (c : St) : Op → Prop
  | .initializeCoordinator env =>
    ∀ caps e, inspectCapabilities cfg.expectedNetwork env.rpc = .ok caps → env.rpc.getBlockHash caps.blocks = .error e →
      c.lastTipHash = none ∨ c.lastTipHeight = caps.blocks
  | .rawBlock env payload =>
    payload.length ≤ cfg.maxMessageSize →
      ∀ block, env.deserialize payload = .ok block → block.bip34BlockHeight.getD 0 = T.height block.blockHash
  | .investigateChainTips _ => True
  | .handleSequenceGap env topic _ => topic ≠ .rawTx → LargeGapHashFails cfg env c → c.lastTipHash = none
  | .reconcileTipAndGap env => LargeGapHashFails cfg env c → c.lastTipHash = none

/-! ## One operation at a time -/

/-- coherence reads the two cells only -/
theorem coherent_congr {T : BlockTree} {c d : St} (hh : d.lastTipHash = c.lastTipHash)
    (hn : d.lastTipHeight = c.lastTipHeight) : Coherent T d ↔ Coherent T c := by
  simp only [Coherent, hh, hn]

/-- a tip written as a whole -/
theorem coherent_of_tip {T : BlockTree} {c : St} {hash : String} (hh : c.lastTipHash = some hash) :
    Coherent T c ↔ T.mem hash ∧ T.height hash = c.lastTipHeight := by
  constructor
  · exact fun h => h hash hh
  · intro h hash' hh'
    obtain rfl : hash = hash' := Option.some.inj (hh.symm.trans hh')
    exact h

/-- a height written without its hash -/
theorem coherent_of_height {T : BlockTree} {c d : St} {n : ℕ} (hc : Coherent T c) (hh : d.lastTipHash = c.lastTipHash)
    (hn : d.lastTipHeight = n) : Coherent T d ↔ c.lastTipHash = none ∨ c.lastTipHeight = n := by
  cases hl : c.lastTipHash with
  | none =>
    refine ⟨fun _ => Or.inl rfl, fun _ hash hhash => ?_⟩
    rw [hh, hl] at hhash; cases hhash
  | some hash =>
    rw [coherent_of_tip (hh.trans hl), hn]
    obtain ⟨hm, hheight⟩ := hc hash hl
    simp [hm, hheight]

theorem initialize_coherent_iff {T : BlockTree} {cfg : Config} {env : Env} {c : St} (hs : env.rpc.Serves T)
    (hc : Coherent T c) :
    Coherent T (initializeCoordinator cfg env c).1 ↔ KeepsTip T cfg c (.initializeCoordinator env) := by
  cases hcaps : inspectCapabilities cfg.expectedNetwork env.rpc with
  | error e =>
    have hh : (initializeCoordinator cfg env c).1.lastTipHash = c.lastTipHash := by simp [initializeCoordinator, hcaps]
    have hn : (initializeCoordinator cfg env c).1.lastTipHeight = c.lastTipHeight := by
      simp [initializeCoordinator, hcaps]
    rw [coherent_congr hh hn]
    exact ⟨fun _ caps e' h => (by rw [hcaps] at h; cases h), fun _ => hc⟩
  | ok caps =>
    have hn : (initializeCoordinator cfg env c).1.lastTipHeight = caps.blocks := by
      cases hhash : env.rpc.getBlockHash caps.blocks <;> simp [initializeCoordinator, hcaps, hhash]
    cases hhash : env.rpc.getBlockHash caps.blocks with
    | error e =>
      have hh : (initializeCoordinator cfg env c).1.lastTipHash = c.lastTipHash := by
        simp [initializeCoordinator, hcaps, hhash]
      rw [coherent_of_height hc hh hn]
      refine ⟨fun h caps' e' hcaps' _ => ?_, fun h => h caps e hcaps hhash⟩
      obtain rfl : caps = caps' := Except.ok.inj (hcaps.symm.trans hcaps')
      exact h
    | ok hash =>
      have hh : (initializeCoordinator cfg env c).1.lastTipHash = some hash := by
        simp [initializeCoordinator, hcaps, hhash]
      rw [coherent_of_tip hh, hn]
      refine ⟨fun _ caps' e' hcaps' hhash' => ?_, fun _ => hs.blockHash _ _ hhash⟩
      obtain rfl : caps = caps' := Except.ok.inj (hcaps.symm.trans hcaps')
      rw [hhash] at hhash'; cases hhash'

/-- every delivered block becomes the tip, with the height it carries -/
theorem processZmqBlock_tip (env : Env) (c : St) (b : BlockObservation) (txs : List TransactionObservation) :
    (processZmqBlock env c b txs).1.lastTipHash = some b.blockHash ∧
      (processZmqBlock env c b txs).1.lastTipHeight = b.height := by
  unfold processZmqBlock
  cases c.lastTipHash with
  | none => exact ⟨rfl, rfl⟩
  | some tip => dsimp only; split_ifs <;> exact ⟨rfl, rfl⟩

theorem rawBlock_coherent_iff {T : BlockTree} {cfg : Config} {env : Env} {c : St} {payload : List UInt8}
    (hg : ∀ block, env.deserialize payload = .ok block → T.mem block.blockHash) (hc : Coherent T c) :
    Coherent T (rawBlock cfg env c payload).1 ↔ KeepsTip T cfg c (.rawBlock env payload) := by
  unfold KeepsTip
  cases hp : parseRawBlock env.deserialize payload (some cfg.rawblockEndpoint) cfg.maxMessageSize with
  | error e =>
    have hsame : (rawBlock cfg env c payload).1 = c := by simp [rawBlock, hp]
    rw [hsame]
    refine ⟨fun _ hlen block hblock => ?_, fun _ => hc⟩
    -- within the limit, only the deserializer refuses
    simp [parseRawBlock, not_lt.2 hlen, hblock] at hp
  | ok r =>
    obtain ⟨b, txs⟩ := r
    obtain ⟨block, hblock, hhash, -, hheight⟩ := parseRawBlock_ok hp
    have hlen : payload.length ≤ cfg.maxMessageSize := by
      by_contra hlong
      simp [parseRawBlock, not_le.1 hlong] at hp
    have heq : (rawBlock cfg env c payload).1 =
        (processZmqBlock env { c with zmqBlocksReceived := c.zmqBlocksReceived + 1 } b txs).1 := by
      simp [rawBlock, hp]
    obtain ⟨htip, htipHeight⟩ := processZmqBlock_tip env { c with zmqBlocksReceived := c.zmqBlocksReceived + 1 } b txs
    rw [heq, coherent_of_tip htip, htipHeight, hhash, hheight]
    constructor
    · intro hboth _ block' hblock'
      obtain ⟨-, h⟩ := hboth
      obtain rfl : block = block' := Except.ok.inj (hblock.symm.trans hblock')
      exact h.symm
    · exact fun h => ⟨hg block hblock, (h hlen block hblock).symm⟩

theorem investigateChainTips_coherent {T : BlockTree} {env : Env} {c : St} (hs : env.rpc.Serves T)
    (hc : Coherent T c) : Coherent T (investigateChainTips env c).1 := by
  cases htips : env.rpc.getChainTips with
  | error e =>
    have hh : (investigateChainTips env c).1.lastTipHash = c.lastTipHash := by simp [investigateChainTips, htips]
    have hn : (investigateChainTips env c).1.lastTipHeight = c.lastTipHeight := by simp [investigateChainTips, htips]
    exact (coherent_congr hh hn).2 hc
  | ok tips =>
    unfold investigateChainTips
    simp only [htips]
    split
    · rename_i active last hactive hlast
      split_ifs
      · exact (coherent_of_tip rfl).2 (hs.chainTips tips htips active (List.mem_of_find?_eq_some hactive))
      · exact hc
    · exact hc

/-! ## Reconciliation -/

/-- hash and height of one reconciled height are written together -/
theorem reconcileHeight_coherent {T : BlockTree} {env : Env} (hs : env.rpc.Serves T) (acc : St × List Observation)
    (h : ℕ) (hc : Coherent T acc.1) : Coherent T (reconcileHeight env acc h).1 := by
  cases hh : env.rpc.getBlockHash h with
  | error e =>
    have h1 : (reconcileHeight env acc h).1.lastTipHash = acc.1.lastTipHash := by simp [reconcileHeight, hh]
    have h2 : (reconcileHeight env acc h).1.lastTipHeight = acc.1.lastTipHeight := by simp [reconcileHeight, hh]
    exact (coherent_congr h1 h2).2 hc
  | ok hash =>
    have h1 : (reconcileHeight env acc h).1.lastTipHash = some hash := by simp [reconcileHeight, hh]
    have h2 : (reconcileHeight env acc h).1.lastTipHeight = h := by simp [reconcileHeight, hh]
    rw [coherent_of_tip h1, h2]
    exact hs.blockHash h hash hh

theorem reconcile_loop_coherent {T : BlockTree} {env : Env} (hs : env.rpc.Serves T) (l : List ℕ)
    (acc : St × List Observation) (hc : Coherent T acc.1) : Coherent T (l.foldl (reconcileHeight env) acc).1 := by
  induction l generalizing acc with
  | nil => exact hc
  | cons h l ih => exact ih _ (reconcileHeight_coherent hs acc h hc)

theorem reconcileTipAndGap_coherent_iff {T : BlockTree} {cfg : Config} {env : Env} {c : St} (hs : env.rpc.Serves T)
    (hc : Coherent T c) :
    Coherent T (reconcileTipAndGap cfg env c).1 ↔ (LargeGapHashFails cfg env c → c.lastTipHash = none) := by
  cases hinfo : env.rpc.getBlockchainInfo with
  | error e =>
    have hh : (reconcileTipAndGap cfg env c).1.lastTipHash = c.lastTipHash := by simp [reconcileTipAndGap, hinfo]
    have hn : (reconcileTipAndGap cfg env c).1.lastTipHeight = c.lastTipHeight := by simp [reconcileTipAndGap, hinfo]
    rw [coherent_congr hh hn]
    refine ⟨fun _ ⟨info, _, hok, _⟩ => ?_, fun _ => hc⟩
    rw [hinfo] at hok; cases hok
  | ok info =>
    -- the state after the health poll, with the tip as it was
    set c' : St := { c with rpcRequestsTotal := c.rpcRequestsTotal + 1, status := pollStatus c.status info } with hc'
    have hcoh' : Coherent T c' := (coherent_congr (c := c) rfl rfl).2 hc
    have hnot : ¬ (c.lastTipHeight < info.blocks ∧ 0 < c.lastTipHeight ∧
        cfg.reconcileMaxBlocks < info.blocks - c.lastTipHeight) → ¬ LargeGapHashFails cfg env c := by
      intro hno hlarge
      obtain ⟨info', e, hok, h1, h2, h3, -⟩ := hlarge
      obtain rfl : info = info' := Except.ok.inj (hinfo.symm.trans hok)
      exact hno ⟨h1, h2, h3⟩
    by_cases hgap : info.blocks > c.lastTipHeight ∧ c.lastTipHeight > 0
    · by_cases hmax : info.blocks - c.lastTipHeight ≤ cfg.reconcileMaxBlocks
      · have heq : reconcileTipAndGap cfg env c =
            (List.range' (c.lastTipHeight + 1) (info.blocks - c.lastTipHeight)).foldl (reconcileHeight env)
              (c', []) := by
          simp [reconcileTipAndGap, hinfo, hgap, hmax, hc']
        rw [heq]
        exact ⟨fun _ hl => absurd hl (hnot fun h => absurd hmax (not_le.2 h.2.2)),
          fun _ => reconcile_loop_coherent hs _ _ hcoh'⟩
      · have hn : (reconcileTipAndGap cfg env c).1.lastTipHeight = info.blocks := by
          cases hhash : env.rpc.getBlockHash info.blocks <;> simp [reconcileTipAndGap, hinfo, hgap, hmax, hhash]
        cases hhash : env.rpc.getBlockHash info.blocks with
        | error e =>
          have hh : (reconcileTipAndGap cfg env c).1.lastTipHash = c.lastTipHash := by
            simp [reconcileTipAndGap, hinfo, hgap, hmax, hhash]
          have hl : LargeGapHashFails cfg env c := ⟨info, e, hinfo, hgap.1, hgap.2, not_le.1 hmax, hhash⟩
          rw [coherent_of_height hc hh hn]
          have hne : c.lastTipHeight ≠ info.blocks := Nat.ne_of_lt hgap.1
          simp [hl, hne]
        | ok hash =>
          have hh : (reconcileTipAndGap cfg env c).1.lastTipHash = some hash := by
            simp [reconcileTipAndGap, hinfo, hgap, hmax, hhash]
          rw [coherent_of_tip hh, hn]
          refine ⟨fun _ ⟨info', e, hok, _, _, _, he⟩ => ?_, fun _ => hs.blockHash _ _ hhash⟩
          obtain rfl : info = info' := Except.ok.inj (hinfo.symm.trans hok)
          rw [hhash] at he; cases he
    · have heq : (reconcileTipAndGap cfg env c).1 = c' := by
        simp only [reconcileTipAndGap, hinfo]
        rw [if_neg hgap]
      rw [heq]
      exact ⟨fun _ hl => absurd hl (hnot fun h => hgap ⟨h.1, h.2.1⟩), fun _ => hcoh'⟩

theorem handleSequenceGap_coherent_iff {T : BlockTree} {cfg : Config} {env : Env} {c : St} {topic : BitcoinZmqTopic}
    {missed : ℕ} (hs : env.rpc.Serves T) (hc : Coherent T c) :
    Coherent T (handleSequenceGap cfg env c topic missed).1 ↔
      KeepsTip T cfg c (.handleSequenceGap env topic missed) := by
  -- marking the topic degraded leaves the tip alone
  set d : St := { c with
    zmqSequenceGapsTotal := c.zmqSequenceGapsTotal + 1
    zmqNotificationsMissedEstimate := c.zmqNotificationsMissedEstimate + missed
    zmq := c.zmq.set topic .degraded
    status := { c.status with zmqStatus := c.status.zmqStatus.set topic .degraded } } with hd
  have hcoh : Coherent T d := (coherent_congr (c := c) rfl rfl).2 hc
  have hrec : Coherent T (reconcileTipAndGap cfg env d).1 ↔ (LargeGapHashFails cfg env d → d.lastTipHash = none) :=
    reconcileTipAndGap_coherent_iff hs hcoh
  cases topic with
  | rawTx => simpa [handleSequenceGap, KeepsTip] using hcoh
  | rawBlock => exact hrec.trans ⟨fun h _ hl => h hl, fun h hl => h (by decide) hl⟩
  | sequence => exact hrec.trans ⟨fun h _ hl => h hl, fun h hl => h (by decide) hl⟩

/-! ## Runs -/

/-- **One step.** From a coherent state the step ends in a coherent state exactly when it meets `KeepsTip`. -/
theorem step_coherent_iff {T : BlockTree} {cfg : Config} (c : St) (o : Op) (hg : o.Genuine T) (hc : Coherent T c) :
    Coherent T (step cfg c o) ↔ KeepsTip T cfg c o := by
  cases o with
  | initializeCoordinator env => exact initialize_coherent_iff hg hc
  | rawBlock env payload => exact rawBlock_coherent_iff hg.2 hc
  | investigateChainTips env => exact ⟨fun _ => trivial, fun _ => investigateChainTips_coherent hg hc⟩
  | handleSequenceGap env topic missed => exact handleSequenceGap_coherent_iff hg hc
  | reconcileTipAndGap env => exact reconcileTipAndGap_coherent_iff hg hc

/-- **Tip coherence, exactly.** Over any block tree and any operations whose answers come from it, every state of the
run is coherent if and only if every step meets `KeepsTip`. -/
theorem tip_coherent_iff (T : BlockTree) (cfg : Config) (ops : List Op) (hg : ∀ o ∈ ops, o.Genuine T) :
    Always (step cfg) (Coherent T) new ops ↔ Steps (step cfg) (KeepsTip T cfg) new ops :=
  always_iff_steps step_coherent_iff hg (by intro hash hh; cases hh)

/-! ## On the small tree -/

def tipConfig : Config := ⟨1, none, "tcp://127.0.0.1:28332", 4000000⟩

/-- a node that is still at block `a` -/
def earlyRpc : Rpc := { forkRpc with getBlockchainInfo := .ok ⟨"main", 1, 3, "a", 1, false, false, none⟩ }

def rpcEnv (rpc : Rpc) : Env := ⟨rpc, 0, fun _ => .error "unexpected end of file"⟩

/-- a node two blocks ahead that answers the health poll and no hash request -/
def hashlessRpc : Rpc := { forkRpc with getBlockHash := fun _ => .error (.http "operation timed out") }

theorem hashlessRpc_serves : hashlessRpc.Serves forkTree :=
  ⟨fun _ _ h => (by cases h), forkRpc_serves.blockHeader, forkRpc_serves.chainTips⟩

/-- the large gap is crossed and the hash of the new tip obtained -/
theorem tip_coherent_iff_large_gap :
    Always (step tipConfig) (Coherent forkTree) new
      [.initializeCoordinator (rpcEnv earlyRpc), .reconcileTipAndGap (rpcEnv forkRpc)] := by
  have hearly : earlyRpc.Serves forkTree :=
    ⟨forkRpc_serves.blockHash, forkRpc_serves.blockHeader, forkRpc_serves.chainTips⟩
  refine (tip_coherent_iff forkTree tipConfig _ ?_).2 ⟨?_, ?_, trivial⟩
  · intro o ho
    simp only [List.mem_cons, List.not_mem_nil, or_false] at ho
    rcases ho with rfl | rfl
    · exact hearly
    · exact forkRpc_serves
  · exact fun _ _ _ _ => Or.inl rfl
  · intro hlarge
    obtain ⟨info, e, hinfo, -, -, -, he⟩ := hlarge
    cases hinfo
    cases he

/-- **The old hash beside the new height.** The coordinator starts at `a`; the node is then two blocks ahead, which is
beyond the limit of one, and the hash request fails: `a` is stored with height 3. -/
theorem large_gap_hash_lost :
    let ops : List Op := [.initializeCoordinator (rpcEnv earlyRpc), .reconcileTipAndGap (rpcEnv hashlessRpc)]
    (∀ o ∈ ops, o.Genuine forkTree) ∧ (run (step tipConfig) new ops).lastTipHash = some "a" ∧
      (run (step tipConfig) new ops).lastTipHeight = 3 ∧ ¬ Coherent forkTree (run (step tipConfig) new ops) := by
  intro ops
  have hhash : (run (step tipConfig) new ops).lastTipHash = some "a" := rfl
  have hheight : (run (step tipConfig) new ops).lastTipHeight = 3 := rfl
  refine ⟨?_, hhash, hheight, ?_⟩
  · intro o ho
    simp only [ops, List.mem_cons, List.not_mem_nil, or_false] at ho
    rcases ho with rfl | rfl
    · exact ⟨forkRpc_serves.blockHash, forkRpc_serves.blockHeader, forkRpc_serves.chainTips⟩
    · exact hashlessRpc_serves
  · intro h
    have := (h "a" hhash).2
    rw [hheight] at this
    simp [forkTree] at this

end ObsChain.Coordinator
