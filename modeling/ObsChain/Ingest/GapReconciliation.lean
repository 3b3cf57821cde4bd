/-
Does gap reconciliation lose blocks?

One run of `reconcileTipAndGap` over the heights (H, T]: at each height it asks for the hash, the raw block, decodes the
hex and parses the bytes, and any of the four may fail. The block is sent only when all four succeed; the stored tip
moves as soon as the hash is known.

- `reconcile_spec`: what a run does for every pattern of failures. The heights sent are the ones obtained, in order, and
  the tip ends at the last height whose hash was known.
- `loses_no_block_iff`: nothing at or below the new tip is passed over exactly when every height whose hash is known is
  obtained together with all heights below it in the gap.
- `pruned_block_passed_over`: with the hash known and the raw block unavailable, the tip passes both blocks of the gap
  and neither is sent.
-/
import Mathlib.Tactic
import ObsChain.Ingest.BitcoinCoordinator

namespace ObsChain.Coordinator

/-- the heights of the blocks sent, in order -/
def blockHeights (sent : List Observation) : List ℕ :=
  sent.filterMap fun
    | .block b => some b.height
    | _ => none

/-- every height above `H` up to the new tip was sent exactly once, and in ascending order -/
def LosesNoBlock (H : ℕ) (r : St × List Observation) : Prop :=
  (∀ h, H < h → h ≤ r.1.lastTipHeight → (blockHeights r.2).count h = 1) ∧ (blockHeights r.2).Pairwise (· < ·)

/-- the node answers for the hash at this height -/
def HashKnown (env : Env) (h : ℕ) : Prop := ∃ hash, env.rpc.getBlockHash h = .ok hash

/-- all four calls succeed at this height -/
def Obtained (env : Env) (h : ℕ) : Prop :=
  ∃ hash hexStr bytes r, env.rpc.getBlockHash h = .ok hash ∧ env.rpc.getBlockRawHex h hash = .ok hexStr ∧
    fromHex hexStr = some bytes ∧
    parseRawBlock env.deserialize bytes (some "rpc:gap_reconciliation") (16 * 1024 * 1024) = .ok r

theorem blockHeights_append (a b : List Observation) : blockHeights (a ++ b) = blockHeights a ++ blockHeights b := by
  simp [blockHeights, List.filterMap_append]

theorem blockHeights_txs (txs : List TransactionObservation) (f : TransactionObservation → TransactionObservation) :
    blockHeights (txs.map fun tx => .transaction (f tx)) = [] := by
  simp [blockHeights]

/-- the three calls after the hash -/
theorem fetchBlock_isSome_iff (env : Env) (h : ℕ) (hash : String) :
    (fetchBlock env h hash).isSome ↔ ∃ hexStr bytes r, env.rpc.getBlockRawHex h hash = .ok hexStr ∧
      fromHex hexStr = some bytes ∧
      parseRawBlock env.deserialize bytes (some "rpc:gap_reconciliation") (16 * 1024 * 1024) = .ok r := by
  unfold fetchBlock
  constructor
  · intro hs
    split at hs
    · cases hs
    · rename_i hexStr hhex
      split at hs
      · cases hs
      · rename_i bytes hbytes
        split at hs
        · cases hs
        · rename_i r hr
          exact ⟨hexStr, bytes, r, hhex, hbytes, hr⟩
  · intro hcalls
    obtain ⟨hexStr, bytes, r, hhex, hbytes, hr⟩ := hcalls
    simp [hhex, hbytes, hr]

/-! ## One height -/

/-- without the hash nothing moves -/
theorem reconcileHeight_unknown {env : Env} {h : ℕ} (hk : ¬ HashKnown env h) (acc : St × List Observation) :
    (reconcileHeight env acc h).1.lastTipHeight = acc.1.lastTipHeight ∧ (reconcileHeight env acc h).2 = acc.2 := by
  cases hh : env.rpc.getBlockHash h with
  | error e => simp [reconcileHeight, hh]
  | ok hash => exact absurd ⟨hash, hh⟩ hk

/-- with the hash the tip moves -/
theorem reconcileHeight_known {env : Env} {h : ℕ} (hk : HashKnown env h) (acc : St × List Observation) :
    (reconcileHeight env acc h).1.lastTipHeight = h := by
  obtain ⟨hash, hh⟩ := hk
  simp [reconcileHeight, hh]

/-- the height is sent exactly when everything succeeds -/
theorem reconcileHeight_sent (env : Env) (h : ℕ) [Decidable (Obtained env h)] (acc : St × List Observation) :
    blockHeights (reconcileHeight env acc h).2 = blockHeights acc.2 ++ if Obtained env h then [h] else [] := by
  cases hh : env.rpc.getBlockHash h with
  | error e =>
    have hno : ¬ Obtained env h := by
      intro hob
      obtain ⟨hash, -, -, -, hok, -⟩ := hob
      rw [hh] at hok; cases hok
    simp [reconcileHeight, hh, hno]
  | ok hash =>
    cases hf : fetchBlock env h hash with
    | none =>
      have hno : ¬ Obtained env h := by
        intro hob
        obtain ⟨hash', hexStr, bytes, r, hok, hrest⟩ := hob
        rw [hh] at hok; cases hok
        have := (fetchBlock_isSome_iff env h hash).2 ⟨hexStr, bytes, r, hrest⟩
        simp [hf] at this
      simp [reconcileHeight, hh, hf, hno]
    | some r =>
      have hyes : Obtained env h := by
        obtain ⟨hexStr, bytes, r', hrest⟩ := (fetchBlock_isSome_iff env h hash).1 (by simp [hf])
        exact ⟨hash, hexStr, bytes, r', hh, hrest⟩
      have htx := blockHeights_txs r.2 fun tx => { tx with blockHeight := some h, blockHash := some hash }
      simp only [reconcileHeight, hh, hf, hyes, if_true, blockHeights_append]
      congr 1
      simp only [blockHeights] at htx
      simp [blockHeights, htx]

/-! ## The loop -/

open Classical in
/-- **What the loop does, for every pattern of failures.** -/
theorem reconcile_spec (env : Env) (l : List ℕ) (acc : St × List Observation) :
    (l.foldl (reconcileHeight env) acc).1.lastTipHeight =
        ((l.filter fun h => decide (HashKnown env h)).getLast?).getD acc.1.lastTipHeight ∧
      blockHeights (l.foldl (reconcileHeight env) acc).2 =
        blockHeights acc.2 ++ l.filter fun h => decide (Obtained env h) := by
  induction l generalizing acc with
  | nil => simp
  | cons h l ih =>
    obtain ⟨ih1, ih2⟩ := ih (reconcileHeight env acc h)
    rw [List.foldl_cons]
    refine ⟨?_, ?_⟩
    · rw [ih1]
      by_cases hk : HashKnown env h
      · simp [hk, reconcileHeight_known hk, List.getLast?_cons]
      · simp [hk, (reconcileHeight_unknown hk acc).1]
    · rw [ih2, reconcileHeight_sent]
      by_cases ho : Obtained env h <;> simp [ho]

/-- a gap within the limit is walked height by height -/
theorem reconcileTipAndGap_small {cfg : Config} {env : Env} {c : St} {info : GetBlockchainInfoResult}
    (hinfo : env.rpc.getBlockchainInfo = .ok info) (hpos : 0 < c.lastTipHeight)
    (hgap : c.lastTipHeight < info.blocks) (hmax : info.blocks - c.lastTipHeight ≤ cfg.reconcileMaxBlocks) :
    ∃ c', c'.lastTipHeight = c.lastTipHeight ∧ reconcileTipAndGap cfg env c =
      (List.range' (c.lastTipHeight + 1) (info.blocks - c.lastTipHeight)).foldl (reconcileHeight env) (c', []) := by
  unfold reconcileTipAndGap
  simp only [hinfo, gt_iff_lt, hgap, hpos, and_self, if_true, hmax]
  exact ⟨{ c with rpcRequestsTotal := c.rpcRequestsTotal + 1, status := pollStatus c.status info }, rfl, rfl⟩

/-- in an ascending list above `d`, the last element (or `d`) bounds every element, and is one of them unless it is `d` -/
theorem getLast_getD_bounds {l : List ℕ} (hl : l.Pairwise (· < ·)) (d : ℕ) :
    (∀ k ∈ l, k ≤ l.getLast?.getD d) ∧ (l.getLast?.getD d = d ∨ l.getLast?.getD d ∈ l) := by
  cases hlast : l.getLast? with
  | none =>
    rw [List.getLast?_eq_none_iff] at hlast
    simp [hlast]
  | some m =>
    obtain ⟨hne, rfl⟩ := List.mem_getLast?_eq_getLast (Option.mem_def.2 hlast)
    refine ⟨fun k hk => ?_, Or.inr (List.getLast_mem hne)⟩
    exact (hl.imp le_of_lt).rel_getLast hk

/-- **No block is lost, exactly when.** Over a gap within the limit and any failures of the individual calls: every
height up to the new tip is sent once and in order if and only if, whenever the hash at a height is known, the block at
that height and at every lower height of the gap is obtained. -/
theorem loses_no_block_iff (cfg : Config) (env : Env) (c : St) (info : GetBlockchainInfoResult)
    (hinfo : env.rpc.getBlockchainInfo = .ok info) (hpos : 0 < c.lastTipHeight)
    (hgap : c.lastTipHeight < info.blocks) (hmax : info.blocks - c.lastTipHeight ≤ cfg.reconcileMaxBlocks) :
    LosesNoBlock c.lastTipHeight (reconcileTipAndGap cfg env c) ↔
      ∀ k, c.lastTipHeight < k → k ≤ info.blocks → HashKnown env k →
        ∀ j, c.lastTipHeight < j → j ≤ k → Obtained env j := by
  classical
  obtain ⟨c', hc', heq⟩ := reconcileTipAndGap_small hinfo hpos hgap hmax
  rw [heq]
  set H := c.lastTipHeight with hH
  set l := List.range' (H + 1) (info.blocks - H) with hl
  obtain ⟨htip, hsent⟩ := reconcile_spec env l (c', [])
  have hsorted : l.Pairwise (· < ·) := by rw [hl]; exact List.pairwise_lt_range'
  have hmem : ∀ h, h ∈ l ↔ H < h ∧ h ≤ info.blocks := by
    intro h
    rw [hl, List.mem_range'_1]
    omega
  have hsent' : blockHeights (l.foldl (reconcileHeight env) (c', [])).2 = l.filter fun h => decide (Obtained env h) := by
    rw [hsent]; rfl
  have hcount : ∀ h, (l.filter fun h => decide (Obtained env h)).count h = 1 ↔ h ∈ l ∧ Obtained env h := by
    intro h
    have hnd : (l.filter fun h => decide (Obtained env h)).Nodup := (hsorted.imp Nat.ne_of_lt).filter _
    rw [hnd.count]
    simp [List.mem_filter]
  obtain ⟨hbound, hlast⟩ := getLast_getD_bounds (hsorted.filter fun h => decide (HashKnown env h)) H
  simp only [hc'] at htip
  rw [← htip] at hbound hlast
  unfold LosesNoBlock
  rw [hsent']
  constructor
  · intro hloses k hk1 hk2 hk3 j hj1 hj2
    obtain ⟨hall, -⟩ := hloses
    have hkl : k ∈ l.filter fun h => decide (HashKnown env h) := by
      simpa [List.mem_filter, hmem, hk3] using ⟨hk1, hk2⟩
    exact ((hcount j).1 (hall j hj1 (hj2.trans (hbound k hkl)))).2
  · intro hcond
    refine ⟨fun h h1 h2 => ?_, hsorted.filter _⟩
    rcases hlast with hd | hin
    · -- no hash was known: the tip did not move
      omega
    · simp only [List.mem_filter, hmem, decide_eq_true_eq] at hin
      have hob := hcond _ hin.1.1 hin.1.2 hin.2 h h1 h2
      exact (hcount h).2 ⟨(hmem h).2 ⟨h1, h2.trans hin.1.2⟩, hob⟩

/-! ## On the small tree -/

def gapConfig : Config := ⟨100, some "mainnet", "tcp://127.0.0.1:28332", 4000000⟩

/-- a coordinator at block `a`, two blocks behind the node -/
def behindByTwo : St := { new with lastTipHash := some "a", lastTipHeight := 1 }

/-- a header of zeros and no transactions -/
def zeroBlock : BtcBlock where
  blockHash := "14508459b221041eab257d2baaa7459775ba748246c8403609eb708f0e57e74b"
  prevBlockhash := "0000000000000000000000000000000000000000000000000000000000000000"
  time := 0
  bip34BlockHeight := none
  weight := 324
  txdata := []

/-- the node hands out a block at height 2, 81 bytes of zeros, and goes away before height 3 -/
def failingRpc : Rpc :=
  { forkRpc with
    getBlockHash := fun h => if h = 2 then .ok zeroBlock.blockHash else .error (.http "connection refused")
    getBlockRawHex := fun _ _ => .ok (String.ofList (List.replicate 162 '0')) }

def failingEnv : Env :=
  ⟨failingRpc, 0, fun bytes => if bytes = List.replicate 81 0 then .ok zeroBlock else .error "unexpected end of file"⟩

/-- one block arrives and the next does not: the tip moves to the first, and nothing is lost -/
theorem loses_no_block_iff_node_gone :
    (reconcileTipAndGap gapConfig failingEnv behindByTwo).1.lastTipHeight = 2 ∧
      LosesNoBlock 1 (reconcileTipAndGap gapConfig failingEnv behindByTwo) := by
  refine ⟨rfl, (loses_no_block_iff gapConfig failingEnv behindByTwo ⟨"main", 3, 3, "c", 1, false, false, none⟩
    rfl (by decide) (by decide) (by decide)).2 ?_⟩
  intro k _ _ hknown j hj1 hj2
  obtain ⟨hash, hh⟩ := hknown
  have hanswer : ∀ h, failingEnv.rpc.getBlockHash h =
      if h = 2 then .ok zeroBlock.blockHash else .error (.http "connection refused") := fun _ => rfl
  have hk : k = 2 := by
    by_contra hother
    rw [hanswer, if_neg hother] at hh
    cases hh
  have hlast : behindByTwo.lastTipHeight = 1 := rfl
  obtain rfl : j = 2 := by omega
  have hhex : fromHex (String.ofList (List.replicate 162 '0')) = some (List.replicate 81 0) := by decide +kernel
  have hparse : failingEnv.deserialize (List.replicate 81 0) = .ok zeroBlock := by decide +kernel
  have hblock : ∃ r, parseRawBlock failingEnv.deserialize (List.replicate 81 0) (some "rpc:gap_reconciliation")
      (16 * 1024 * 1024) = .ok r := by
    unfold parseRawBlock
    rw [if_neg (by rw [List.length_replicate]; decide), hparse]
    exact ⟨_, rfl⟩
  obtain ⟨r, hr⟩ := hblock
  exact ⟨zeroBlock.blockHash, _, _, r, rfl, rfl, hhex, hr⟩

/-- **Both blocks are passed over.** The hashes are known, the raw blocks are not available: nothing is sent and the tip
moves to the node's. -/
theorem pruned_block_passed_over :
    let r := reconcileTipAndGap gapConfig ⟨forkRpc, 0, fun _ => .error "eof"⟩ behindByTwo
    r.1.lastTipHeight = 3 ∧ blockHeights r.2 = [] ∧ ¬ LosesNoBlock 1 r := by
  intro r
  have htip : r.1.lastTipHeight = 3 := rfl
  have hsent : blockHeights r.2 = [] := rfl
  refine ⟨htip, hsent, ?_⟩
  intro hloses
  obtain ⟨hall, -⟩ := hloses
  have h2 := hall 2 (by decide) (by rw [htip]; decide)
  rw [hsent] at h2
  cases h2

end ObsChain.Coordinator
