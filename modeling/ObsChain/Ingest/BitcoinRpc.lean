/-
The Bitcoin Core JSON-RPC client (`bitcoin_rpc.rs`) as the coordinator and the replay engine use it.

The node is outside the program: an `Rpc` is the list of answers one operation gets, an error for a call that fails.
`getBlockHeader` and `getBlockRawHex` take the loop position of the call as well, so that a repeated request can be
answered differently. Requests carry no state of their own, so this is every pattern of answers and failures.
`Serves T` says that the answers come from one block tree `T`: what Bitcoin Core documents, and the only thing any
result here assumes of the node.
-/
import Mathlib.Tactic
import ObsChain.Core.Forest
import ObsChain.Domain.Observation

namespace ObsChain

inductive BitcoinRpcError where
  | http (message : String)
  | rpcError (code : ℤ) (message : String)
  | json (message : String)
  | authError (message : String)
  | invalidUrl (message : String)
  | nodeWarmingUp (message : String)
  | networkMismatch (expected reported : String)
  | txIndexUnavailable
deriving DecidableEq, Repr

structure GetBlockchainInfoResult where
  chain : String
  blocks : ℕ
  headers : ℕ
  bestblockhash : String
  verificationprogress : ℚ
  initialblockdownload : Bool
  pruned : Bool
  pruneheight : Option ℕ
deriving DecidableEq, Repr

structure GetNetworkInfoResult where
  version : ℕ
  subversion : String
deriving DecidableEq, Repr

structure GetBlockHeaderResult where
  hash : String
  height : ℕ
  time : ℕ
  previousblockhash : Option String
  nextblockhash : Option String
deriving DecidableEq, Repr

structure ChainTip where
  height : ℕ
  hash : String
  branchlen : ℕ
  status : String
deriving DecidableEq, Repr

structure BitcoinNodeCapabilities where
  network : String
  version : ℕ
  subversion : String
  blocks : ℕ
  headers : ℕ
  verificationProgress : ℚ
  initialBlockDownload : Bool
  pruned : Bool
  pruneHeight : Option ℕ
  txindexAvailable : Bool
  zmqRawtx : Bool
  zmqRawblock : Bool
  zmqSequence : Bool
deriving DecidableEq, Repr

/-- the node's answers to the calls of one operation -/
structure Rpc where
  getBlockchainInfo : Except BitcoinRpcError GetBlockchainInfoResult
  getNetworkInfo : Except BitcoinRpcError GetNetworkInfoResult
  /-- the names of the indices `getindexinfo` reports -/
  getIndexInfo : Except BitcoinRpcError (List String)
  getBlockHash : ℕ → Except BitcoinRpcError String
  getBlockHeader : ℕ → String → Except BitcoinRpcError GetBlockHeaderResult
  getBlockRawHex : ℕ → String → Except BitcoinRpcError String
  getChainTips : Except BitcoinRpcError (List ChainTip)

/-- the configured network under the node's name for it -/
def normalizedNetwork (expected : String) : String :=
  match toLowercase expected with
  | "bitcoin" => "main"
  | "mainnet" => "main"
  | "testnet" => "test"
  | other => other

def inspectCapabilities (expectedNetwork : Option String) (rpc : Rpc) :
    Except BitcoinRpcError BitcoinNodeCapabilities := do
  let btcInfo ← rpc.getBlockchainInfo
  let netInfo ← rpc.getNetworkInfo
  match expectedNetwork with
  | none => pure ()
  | some expected =>
    if toLowercase btcInfo.chain ≠ normalizedNetwork expected then
      throw (.networkMismatch expected btcInfo.chain)
  let txindexAvailable := match rpc.getIndexInfo with
    | .ok indices => indices.contains "txindex"
    | .error _ => false
  return {
    network := btcInfo.chain
    version := netInfo.version
    subversion := netInfo.subversion
    blocks := btcInfo.blocks
    headers := btcInfo.headers
    verificationProgress := btcInfo.verificationprogress
    initialBlockDownload := btcInfo.initialblockdownload
    pruned := btcInfo.pruned
    pruneHeight := btcInfo.pruneheight
    txindexAvailable := txindexAvailable
    zmqRawtx := true
    zmqRawblock := true
    zmqSequence := true }

/-- blocks named by their hashes -/
abbrev BlockTree := Forest String

/-- every answer that names a block names a block of the tree, with its height and parent there -/
structure Rpc.Serves (rpc : Rpc) (T : BlockTree) : Prop where
  blockHash : ∀ h hash, rpc.getBlockHash h = .ok hash → T.mem hash ∧ T.height hash = h
  blockHeader : ∀ i hash hdr, rpc.getBlockHeader i hash = .ok hdr →
    T.mem hash ∧ hdr.hash = hash ∧ hdr.height = T.height hash ∧ hdr.previousblockhash = T.parent hash
  chainTips : ∀ tips, rpc.getChainTips = .ok tips → ∀ t ∈ tips, T.mem t.hash ∧ T.height t.hash = t.height

/-! ## A small tree

Blocks `a - b - c` at heights 1, 2 and 3, and `x`, a competitor of `b`. Concrete runs use it. -/

def forkTree : BlockTree where
  mem h := h ∈ ["a", "b", "c", "x"]
  parent h := if h = "c" then some "b" else if h = "b" ∨ h = "x" then some "a" else none
  height h := if h = "c" then 3 else if h = "b" ∨ h = "x" then 2 else 1
  parent_mem := by
    intro b p h
    split_ifs at h with hc hbx
    · cases h; simp [hc]
    · cases h; rcases hbx with rfl | rfl <;> simp
  height_parent := by
    intro b p h
    split_ifs at h with hc hbx
    · cases h; simp [hc]
    · cases h; rcases hbx with rfl | rfl <;> simp

/-- a node on the branch `a - b - c` that answers every call from the tree, and has no raw blocks -/
def forkRpc : Rpc where
  getBlockchainInfo := .ok ⟨"main", 3, 3, "c", 1, false, false, none⟩
  getNetworkInfo := .ok ⟨270000, "/Satoshi:27.0.0/"⟩
  getIndexInfo := .ok []
  getBlockHash h :=
    if h = 1 then .ok "a" else if h = 2 then .ok "b" else if h = 3 then .ok "c"
    else .error (.rpcError (-8) "Block height out of range")
  getBlockHeader _ hash :=
    if hash ∈ ["a", "b", "c", "x"] then
      .ok ⟨hash, forkTree.height hash, 0, forkTree.parent hash, none⟩
    else .error (.rpcError (-5) "Block not found")
  getBlockRawHex _ _ := .error (.rpcError (-1) "Block not available (pruned data)")
  getChainTips := .ok [⟨3, "c", 0, "active"⟩, ⟨2, "x", 1, "valid-fork"⟩]

theorem forkRpc_serves : forkRpc.Serves forkTree where
  blockHash h hash hok := by
    simp only [forkRpc] at hok
    split_ifs at hok with h1 h2 h3 <;> cases hok <;> simp [forkTree, *]
  blockHeader i hash hdr hok := by
    simp only [forkRpc] at hok
    split_ifs at hok with hm
    cases hok
    exact ⟨hm, rfl, rfl, rfl⟩
  chainTips tips hok t ht := by
    simp only [forkRpc, Except.ok.injEq] at hok
    subst hok
    simp only [List.mem_cons, List.not_mem_nil, or_false] at ht
    rcases ht with rfl | rfl <;> simp [forkTree]

end ObsChain
