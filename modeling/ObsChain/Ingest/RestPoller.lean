/-
The poller of the mempool.space REST service (the task of `main.rs` that is started for `rest_client`, the requests of
`mempool_rest.rs`, the conversions of `mempool_types.rs`).

A task asks for the height of the tip every thirty seconds. When it is above every height it was told before, it asks for the
hash of the tip, and then for the block of that hash; an error of one of these is not looked at. The tip may move between
the requests.

MODEL. One step is one round of the task, with what its requests get from outside. A run is the rounds before the shutdown
signal. JSON is read by the parameters of `Client`. What is sent is sent whether or not the channel is open. `tip` is kept
beside the state and read by no step: the height of the service's tip at the last request.

- `start_spec`, `poll_spec`: what one round does to the heights.
- `tips_exact`: **main result**. Against a service whose tip never gets lower, the blocks sent never go back; at most two have
  one height, and no two unless the tip moved within a round; a height that was told and whose block was not obtained is never
  asked for again.
-/
import Mathlib.Tactic
import ObsChain.Core.Bytes
import ObsChain.Core.Text
import ObsChain.Core.Trace
import ObsChain.Ingest.GapReconciliation
import ObsChain.Ingest.MempoolWs
import ObsChain.Ingest.RestClient

namespace ObsChain.RestPoller

open Coordinator (blockHeights blockHeights_append)
open RestClient

/-! ## The answers -/

/-- a block as the service describes it; the other fields are not read -/
structure MempoolBlock where
  id : String
  height : ℕ
  timestamp : ℤ
  txCount : ℕ
  size : ℕ
  weight : ℕ
  previousblockhash : Option String
deriving DecidableEq, Repr

def MempoolBlock.intoObservation (block : MempoolBlock) (now : DateTime) (endpoint : String) : BlockObservation where
  blockHash := block.id
  height := block.height
  timestamp := (TransactionEnricher.timestamp block.timestamp).getD now
  previousBlockHash := block.previousblockhash.getD ""
  txCount := block.txCount
  sizeBytes := block.size
  weight := block.weight
  minerTag := none
  intervalSeconds := none
  source := some (ObservationSource.mempoolRest endpoint)

/-- an entry of `/mempool/recent` -/
structure MempoolRecentTx where
  txid : String
  fee : ℕ
  vsize : ℕ
  value : ℕ
deriving DecidableEq, Repr

def MempoolRecentTx.intoObservation (tx : MempoolRecentTx) (now : DateTime) (endpoint : String) :
    TransactionObservation where
  txid := tx.txid
  timestamp := now
  blockHash := none
  blockHeight := none
  feeSats := tx.fee
  size := tx.vsize
  weight := min (tx.vsize * 4) (2 ^ 64 - 1)
  vsize := tx.vsize
  feeRateSatVb := calculateFeeRateSatVb tx.fee tx.vsize
  totalInputSats := saturatingAdd tx.value tx.fee
  totalOutputSats := tx.value
  inputCount := 1
  outputCount := 1
  inputs := []
  outputs := []
  isRbf := false
  confirmed := false
  source := some (ObservationSource.mempoolRest endpoint)

/-! ## The requests -/

/-- the client, with the parsers of its answers and the text of a number's parse error -/
structure Client where
  config : MempoolRestConfig
  baseUrl : String
  parseBlock : List UInt8 → Except String MempoolBlock
  parseRecent : List UInt8 → Except String (List MempoolRecentTx)
  parseIntError : String → String

/-- the text of a successful response: the tip is asked for once, and its answer has no limit -/
def textOf : Reply → Except MempoolRestError String
  | .error err => .error (.http err)
  | .ok resp =>
    if ¬ isSuccess resp.status then .error (.status resp.status (resp.text.toOption.getD ""))
    else resp.text.mapError .http

namespace Client

variable (c : Client)

def getTipHeight (reply : Reply) : Except MempoolRestError ℕ :=
  match textOf reply with
  | .error e => .error e
  | .ok text =>
    match Text.parseUnsigned (2 ^ 64) (Text.trim text.toList) with
    | some height => .ok height
    | none => .error (.parse (c.parseIntError text))

def getTipHash (reply : Reply) : Except MempoolRestError String :=
  (textOf reply).map fun text => String.ofList (Text.trim text.toList)

def getBlock (hash : String) (replies : ℕ → Reply) : Except MempoolRestError MempoolBlock :=
  (executeGetWithRetry c.config c.parseBlock ("/block/" ++ hash) replies).1

def getMempoolRecent (replies : ℕ → Reply) : Except MempoolRestError (List MempoolRecentTx) :=
  (executeGetWithRetry c.config c.parseRecent "/mempool/recent" replies).1

end Client

/-! ## The rounds -/

/-- what a round gets from outside, if it asks -/
structure Poll where
  height : Reply
  hash : Reply
  block : String → ℕ → Reply
  recent : ℕ → Reply
  /-- the readings of the clock -/
  clock : ℕ → DateTime
  /-- the height of the service's tip at the first request, and at the second -/
  tipAtHeight : ℕ
  tipAtHash : ℕ

structure Poller where
  lastPolledHeight : ℕ
  /-- what it last wrote into the shared tip height, if anything -/
  tipHeight : Option ℕ
  /-- the state shown for the source -/
  mempoolRest : String
  sent : List Observation
  tip : ℕ

section

variable (c : Client)

/-- the block of the tip, if both requests succeed -/
def tipBlock (p : Poll) : List Observation :=
  match Client.getTipHash p.hash with
  | .error _ => []
  | .ok hash =>
    match c.getBlock hash (p.block hash) with
    | .error _ => []
    | .ok block => [.block (block.intoObservation (p.clock 0) c.baseUrl)]

def recentTxs (p : Poll) : List Observation :=
  match c.getMempoolRecent p.recent with
  | .error _ => []
  | .ok txs => txs.mapIdx fun i tx => .transaction (tx.intoObservation (p.clock (i + 1)) c.baseUrl)

/-- the first round, which asks for the block of any tip, and for the recent transactions -/
def start (p : Poll) : Poller :=
  match c.getTipHeight p.height with
  | .error _ => ⟨0, none, "error", [], p.tipAtHash⟩
  | .ok height => ⟨height, some height, "connected", tipBlock c p ++ recentTxs c p, p.tipAtHash⟩

def poll (s : Poller) (p : Poll) : Poller :=
  match c.getTipHeight p.height with
  | .error _ => { s with mempoolRest := "error", tip := p.tipAtHash }
  | .ok height =>
    let s := { s with mempoolRest := "connected", tip := p.tipAtHash }
    if height > s.lastPolledHeight then
      { s with tipHeight := some height, lastPolledHeight := height, sent := s.sent ++ tipBlock c p }
    else s

def run (first : Poll) (polls : List Poll) : Poller := Trace.run (poll c) (start c first) polls

/-- a round with a service whose tip was `tip` at the last request, and never gets lower: it tells the height of its tip, and
the block is that of a tip -/
structure Genuine (tip : ℕ) (p : Poll) : Prop where
  rises : tip ≤ p.tipAtHeight
  goesOn : p.tipAtHeight ≤ p.tipAtHash
  height : ∀ h, c.getTipHeight p.height = .ok h → h = p.tipAtHeight
  block : ∀ hash b, Client.getTipHash p.hash = .ok hash → c.getBlock hash (p.block hash) = .ok b → b.height = p.tipAtHash

/-- the block is obtained when the height is told -/
def Obtains (p : Poll) : Prop :=
  ∀ h, c.getTipHeight p.height = .ok h →
    ∃ hash b, Client.getTipHash p.hash = .ok hash ∧ c.getBlock hash (p.block hash) = .ok b

/-- the height told by a round -/
def told (p : Poll) : List ℕ := (c.getTipHeight p.height).toOption.toList

variable {c}

/-! ## One round -/

theorem tipBlock_heights {tip : ℕ} {p : Poll} (h : Genuine c tip p) :
    blockHeights (tipBlock c p) = [] ∨ blockHeights (tipBlock c p) = [p.tipAtHash] := by
  unfold tipBlock
  cases hhash : Client.getTipHash p.hash with
  | error e => exact Or.inl rfl
  | ok hash =>
    dsimp only
    cases hblock : c.getBlock hash (p.block hash) with
    | error e => exact Or.inl rfl
    | ok b =>
      right
      rw [← h.block hash b hhash hblock]
      rfl

theorem tipBlock_obtained {tip height : ℕ} {p : Poll} (h : Genuine c tip p) (hobtains : Obtains c p)
    (htold : c.getTipHeight p.height = .ok height) : blockHeights (tipBlock c p) = [p.tipAtHash] := by
  obtain ⟨hash, b, hhash, hblock⟩ := hobtains height htold
  rw [tipBlock, hhash]
  dsimp only
  rw [hblock, ← h.block hash b hhash hblock]
  rfl

theorem recentTxs_heights (p : Poll) : blockHeights (recentTxs c p) = [] := by
  unfold recentTxs
  cases c.getMempoolRecent p.recent with
  | error e => rfl
  | ok txs =>
    apply List.filterMap_eq_nil_iff.2
    intro o ho
    obtain ⟨i, hi, rfl⟩ := List.mem_mapIdx.1 ho
    rfl

/-- the first round sends the block of the tip, or nothing -/
theorem start_spec {p : Poll} (h : Genuine c 0 p) :
    (start c p).tip = p.tipAtHash ∧
      (((start c p).lastPolledHeight = 0 ∧ blockHeights (start c p).sent = []) ∨
        ((start c p).lastPolledHeight = p.tipAtHeight ∧ (∃ height, c.getTipHeight p.height = .ok height) ∧
          blockHeights (start c p).sent = blockHeights (tipBlock c p))) := by
  unfold start
  cases htold : c.getTipHeight p.height with
  | error e => exact ⟨rfl, Or.inl ⟨rfl, rfl⟩⟩
  | ok height =>
    obtain rfl := h.height height htold
    refine ⟨rfl, Or.inr ⟨rfl, ⟨_, rfl⟩, ?_⟩⟩
    rw [blockHeights_append, recentTxs_heights, List.append_nil]

/-- **One round.** It asks for a block exactly when it is told a height above all earlier ones; what it then sends is the
block of the tip, or nothing. -/
theorem poll_spec {s : Poller} {p : Poll} (h : Genuine c s.tip p) :
    (poll c s p).tip = p.tipAtHash ∧
      (((poll c s p).lastPolledHeight = s.lastPolledHeight ∧
          blockHeights (poll c s p).sent = blockHeights s.sent ∧
          ∀ height, c.getTipHeight p.height = .ok height → p.tipAtHeight ≤ s.lastPolledHeight) ∨
        (s.lastPolledHeight < p.tipAtHeight ∧ (poll c s p).lastPolledHeight = p.tipAtHeight ∧
          (∃ height, c.getTipHeight p.height = .ok height) ∧
          blockHeights (poll c s p).sent = blockHeights s.sent ++ blockHeights (tipBlock c p))) := by
  unfold poll
  cases htold : c.getTipHeight p.height with
  | error e =>
    refine ⟨rfl, Or.inl ⟨rfl, rfl, fun height hheight => ?_⟩⟩
    cases hheight
  | ok height =>
    obtain rfl := h.height height htold
    dsimp only
    split_ifs with hrises
    · exact ⟨rfl, Or.inr ⟨hrises, rfl, ⟨_, rfl⟩, blockHeights_append _ _⟩⟩
    · exact ⟨rfl, Or.inl ⟨rfl, rfl, fun _ _ => Nat.not_lt.1 hrises⟩⟩

/-! ## Every run -/

theorem poll_last (s : Poller) (p : Poll) : (poll c s p).lastPolledHeight = (told c p).foldl max s.lastPolledHeight := by
  unfold poll told
  cases c.getTipHeight p.height with
  | error e => rfl
  | ok height =>
    dsimp only
    split_ifs with hrises
    · exact (max_eq_right hrises.le).symm
    · exact (max_eq_left (Nat.not_lt.1 hrises)).symm

theorem start_last (p : Poll) : (start c p).lastPolledHeight = (told c p).foldl max 0 := by
  unfold start told
  cases c.getTipHeight p.height with
  | error e => rfl
  | ok height => exact (Nat.zero_max height).symm

/-- the height it compares with is the highest it was told -/
theorem run_last (first : Poll) (polls : List Poll) :
    (run c first polls).lastPolledHeight = ((first :: polls).flatMap (told c)).foldl max 0 := by
  have hrun : ∀ s, (Trace.run (poll c) s polls).lastPolledHeight =
      (polls.flatMap (told c)).foldl max s.lastPolledHeight := by
    induction polls with
    | nil => exact fun _ => rfl
    | cons p polls ih =>
      intro s
      rw [List.flatMap_cons, List.foldl_append, ← poll_last]
      exact ih _
  rw [run, hrun, start_last, List.flatMap_cons, List.foldl_append]

/-- what the rounds with a genuine service keep -/
structure Inv (s : Poller) : Prop where
  last_le : s.lastPolledHeight ≤ s.tip
  le_tip : ∀ h ∈ blockHeights s.sent, h ≤ s.tip
  sorted : (blockHeights s.sent).Pairwise (· ≤ ·)
  twice : ∀ h, (blockHeights s.sent).count h ≤ 2
  /-- only a block above the last height told may come again -/
  once : ∀ h, s.lastPolledHeight < h → (blockHeights s.sent).count h ≤ 1

/-- a round that sends no block -/
theorem Inv.silent {s s' : Poller} (hs : Inv s) (hheights : blockHeights s'.sent = blockHeights s.sent)
    (hlast : s.lastPolledHeight ≤ s'.lastPolledHeight) (htip : s.tip ≤ s'.tip) (hle : s'.lastPolledHeight ≤ s'.tip) :
    Inv s' where
  last_le := hle
  le_tip h hh := (hs.le_tip h (hheights ▸ hh)).trans htip
  sorted := hheights ▸ hs.sorted
  twice h := hheights ▸ hs.twice h
  once h hh := hheights ▸ hs.once h (hlast.trans_lt hh)

/-- a round that sends the block of the tip -/
theorem Inv.sends {s s' : Poller} (hs : Inv s) (hheights : blockHeights s'.sent = blockHeights s.sent ++ [s'.tip])
    (hlast : s.lastPolledHeight < s'.lastPolledHeight) (htip : s.tip ≤ s'.lastPolledHeight)
    (hle : s'.lastPolledHeight ≤ s'.tip) : Inv s' := by
  refine ⟨hle, ?_, ?_, ?_, ?_⟩ <;> rw [hheights]
  · intro h hh
    rcases List.mem_append.1 hh with hold | hnew
    · exact (hs.le_tip h hold).trans (htip.trans hle)
    · exact (List.mem_singleton.1 hnew).le
  · refine List.pairwise_append.2 ⟨hs.sorted, List.pairwise_singleton _ _, fun a ha b hb => ?_⟩
    rw [List.mem_singleton.1 hb]
    exact (hs.le_tip a ha).trans (htip.trans hle)
  · intro h
    rw [List.count_append, List.count_singleton]
    by_cases hh : s'.tip = h
    · -- the block is above the last height told before, so it came once at most
      subst hh
      have honce := hs.once s'.tip (hlast.trans_le hle)
      simpa using honce
    · simpa [hh] using hs.twice h
  · intro h hlater
    rw [List.count_append, List.count_singleton]
    have hnew : h ∉ blockHeights s.sent := fun hmem => absurd (hs.le_tip h hmem) (by omega)
    rw [List.count_eq_zero_of_not_mem hnew]
    split_ifs <;> omega

theorem inv_start {p : Poll} (h : Genuine c 0 p) : Inv (start c p) := by
  have hgoesOn := h.goesOn
  obtain ⟨htip, ⟨hlast, hnone⟩ | ⟨hlast, -, hheights⟩⟩ := start_spec h
  · refine ⟨by omega, ?_, ?_, ?_, ?_⟩ <;> simp [hnone]
  · rcases tipBlock_heights h with hnone | hsome
    · rw [hnone] at hheights
      refine ⟨by omega, ?_, ?_, ?_, ?_⟩ <;> simp [hheights]
    · rw [hsome, ← htip] at hheights
      have hcount : ∀ b, (blockHeights (start c p).sent).count b ≤ 1 := by
        intro b
        rw [hheights, List.count_singleton]
        split_ifs <;> omega
      refine ⟨by omega, ?_, ?_, fun b => (hcount b).trans one_le_two, fun b _ => hcount b⟩ <;> simp [hheights]

theorem inv_poll {s : Poller} {p : Poll} (hs : Inv s) (h : Genuine c s.tip p) : Inv (poll c s p) := by
  have hrises := h.rises
  have hgoesOn := h.goesOn
  have hlast_le := hs.last_le
  obtain ⟨htip, ⟨hlast, hheights, -⟩ | ⟨hhigher, hlast, -, hheights⟩⟩ := poll_spec h
  · exact hs.silent hheights hlast.ge (by omega) (by omega)
  · rcases tipBlock_heights h with hnone | hsome
    · rw [hnone, List.append_nil] at hheights
      exact hs.silent hheights (by omega) (by omega) (by omega)
    · rw [hsome, ← htip] at hheights
      exact hs.sends hheights (by omega) (by omega) (by omega)

/-- every block sent was told of, and each once -/
structure Steady (s : Poller) : Prop where
  below : ∀ h ∈ blockHeights s.sent, h ≤ s.lastPolledHeight
  increasing : (blockHeights s.sent).Pairwise (· < ·)

theorem steady_start {p : Poll} (h : Genuine c 0 p) (hquiet : p.tipAtHeight = p.tipAtHash) : Steady (start c p) := by
  obtain ⟨-, ⟨-, hnone⟩ | ⟨hlast, -, hheights⟩⟩ := start_spec h
  · exact ⟨by simp [hnone], by simp [hnone]⟩
  · rcases tipBlock_heights h with hnone | hsome
    · exact ⟨by simp [hheights, hnone], by simp [hheights, hnone]⟩
    · exact ⟨by simp [hheights, hsome, hlast, hquiet], by simp [hheights, hsome]⟩

theorem steady_poll {s : Poller} {p : Poll} (hs : Steady s) (h : Genuine c s.tip p)
    (hquiet : p.tipAtHeight = p.tipAtHash) : Steady (poll c s p) := by
  obtain ⟨-, ⟨hlast, hheights, -⟩ | ⟨hhigher, hlast, -, hheights⟩⟩ := poll_spec h
  · exact ⟨by rw [hheights, hlast]; exact hs.below, by rw [hheights]; exact hs.increasing⟩
  · have hbelow : ∀ b ∈ blockHeights s.sent, b < p.tipAtHeight := fun b hb => (hs.below b hb).trans_lt hhigher
    rcases tipBlock_heights h with hnone | hsome
    · rw [hnone, List.append_nil] at hheights
      refine ⟨fun b hb => ?_, hheights ▸ hs.increasing⟩
      rw [hheights] at hb
      exact hlast ▸ (hbelow b hb).le
    · rw [hsome, ← hquiet] at hheights
      refine ⟨fun b hb => ?_, ?_⟩
      · rw [hheights, List.mem_append, List.mem_singleton] at hb
        rw [hlast]
        rcases hb with hold | rfl
        · exact (hbelow b hold).le
        · exact le_rfl
      · rw [hheights]
        refine List.pairwise_append.2 ⟨hs.increasing, List.pairwise_singleton _ _, fun a ha b hb => ?_⟩
        rw [List.mem_singleton.1 hb]
        exact hbelow a ha

/-- a block at least as high as every height told was sent -/
def Covered (s : Poller) : Prop := 0 < s.lastPolledHeight → ∃ h ∈ blockHeights s.sent, s.lastPolledHeight ≤ h

theorem covered_start {p : Poll} (h : Genuine c 0 p) (hobtains : Obtains c p) : Covered (start c p) := by
  obtain ⟨-, ⟨hlast, -⟩ | ⟨hlast, htold, hheights⟩⟩ := start_spec h
  · exact fun hpos => absurd hpos (by omega)
  · obtain ⟨height, htold⟩ := htold
    rw [tipBlock_obtained h hobtains htold] at hheights
    refine fun _ => ⟨p.tipAtHash, ?_, hlast.le.trans h.goesOn⟩
    rw [hheights]
    exact List.mem_singleton.2 rfl

theorem covered_poll {s : Poller} {p : Poll} (hs : Covered s) (h : Genuine c s.tip p) (hobtains : Obtains c p) :
    Covered (poll c s p) := by
  obtain ⟨-, ⟨hlast, hheights, -⟩ | ⟨-, hlast, htold, hheights⟩⟩ := poll_spec h
  · rw [Covered, hlast, hheights]
    exact hs
  · obtain ⟨height, htold⟩ := htold
    rw [tipBlock_obtained h hobtains htold] at hheights
    refine fun _ => ⟨p.tipAtHash, ?_, hlast.le.trans h.goesOn⟩
    rw [hheights]
    exact List.mem_append_right _ (List.mem_singleton.2 rfl)

/-- **Later blocks** are above every height told before. -/
theorem later_blocks {s : Poller} {more : List Poll}
    (hmore : Trace.Steps (poll c) (fun s p => Genuine c s.tip p) s more) :
    ∃ later, blockHeights (Trace.run (poll c) s more).sent = blockHeights s.sent ++ later ∧
      ∀ h ∈ later, s.lastPolledHeight < h := by
  have hinv : (∃ later, blockHeights (Trace.run (poll c) s more).sent = blockHeights s.sent ++ later ∧
      ∀ h ∈ later, s.lastPolledHeight < h) ∧ s.lastPolledHeight ≤ (Trace.run (poll c) s more).lastPolledHeight := by
    refine Trace.run_inv (I := fun s' => (∃ later, blockHeights s'.sent = blockHeights s.sent ++ later ∧
      ∀ h ∈ later, s.lastPolledHeight < h) ∧ s.lastPolledHeight ≤ s'.lastPolledHeight) ?_ ?_ hmore
    · intro s' p hs' h
      obtain ⟨⟨later, hlater, habove⟩, hle⟩ := hs'
      obtain ⟨-, ⟨hlast, hheights, -⟩ | ⟨hhigher, hlast, -, hheights⟩⟩ := poll_spec h
      · exact ⟨⟨later, hheights.trans hlater, habove⟩, hle.trans hlast.ge⟩
      · refine ⟨⟨later ++ blockHeights (tipBlock c p), ?_, fun b hb => ?_⟩, by omega⟩
        · rw [hheights, hlater, List.append_assoc]
        · rcases List.mem_append.1 hb with hold | hnew
          · exact habove b hold
          · rcases tipBlock_heights h with hnone | hsome
            · rw [hnone] at hnew
              cases hnew
            · rw [hsome, List.mem_singleton] at hnew
              have hgoesOn := h.goesOn
              omega
    · exact ⟨⟨[], (List.append_nil _).symm, fun h hh => by cases hh⟩, le_rfl⟩
  exact hinv.1

/-- **The tips that are sent.** In every run against a service whose tip never gets lower, whatever requests fail: the height
compared with is the highest one told; the blocks sent never go back, and none is sent more than twice; if the tip does not
move within a round, each is higher than the one before; if every height told is followed by its block and one of them is
not 0, a block at least as high as each was sent. A round that does not obtain the block loses it: every block sent later is
above all heights told. -/
theorem tips_exact {first : Poll} {polls more : List Poll} (hfirst : Genuine c 0 first)
    (hpolls : Trace.Steps (poll c) (fun s p => Genuine c s.tip p) (start c first) (polls ++ more)) :
    (run c first polls).lastPolledHeight = ((first :: polls).flatMap (told c)).foldl max 0 ∧
      (blockHeights (run c first polls).sent).Pairwise (· ≤ ·) ∧
      (∀ h, (blockHeights (run c first polls).sent).count h ≤ 2) ∧
      ((∀ p ∈ first :: polls, p.tipAtHeight = p.tipAtHash) → (blockHeights (run c first polls).sent).Pairwise (· < ·)) ∧
      ((∀ p ∈ first :: polls, Obtains c p) → 0 < (run c first polls).lastPolledHeight →
        ∃ h ∈ blockHeights (run c first polls).sent, (run c first polls).lastPolledHeight ≤ h) ∧
      ∃ later, blockHeights (run c first (polls ++ more)).sent = blockHeights (run c first polls).sent ++ later ∧
        ∀ h ∈ later, (run c first polls).lastPolledHeight < h := by
  obtain ⟨hbefore, hafter⟩ := Trace.steps_append.1 hpolls
  have hinv : Inv (run c first polls) := Trace.run_inv (fun s p hs h => inv_poll hs h) (inv_start hfirst) hbefore
  refine ⟨run_last first polls, hinv.sorted, hinv.twice, fun hquiet => ?_, fun hobtains => ?_, ?_⟩
  · have hsteps := Trace.steps_and hbefore
      (Trace.steps_of_mem (A := fun p => p.tipAtHeight = p.tipAtHash) fun p hp => hquiet p (List.mem_cons_of_mem first hp))
    have hsteady : Steady (run c first polls) := Trace.run_inv (fun s p hs h => steady_poll hs h.1 h.2)
      (steady_start hfirst (hquiet first List.mem_cons_self)) hsteps
    exact hsteady.increasing
  · have hsteps := Trace.steps_and hbefore
      (Trace.steps_of_mem (A := Obtains c) fun p hp => hobtains p (List.mem_cons_of_mem first hp))
    have hcovered : Covered (run c first polls) := Trace.run_inv (fun s p hs h => covered_poll hs h.1 h.2)
      (covered_start hfirst (hobtains first List.mem_cons_self)) hsteps
    exact hcovered
  · rw [run, Trace.run_append]
    exact later_blocks hafter

end

def blockText (height : ℕ) : String :=
  "\x7b\"id\":\"b" ++ toString height ++ "\",\"height\":" ++ toString height ++
    ",\"version\":1,\"timestamp\":0,\"tx_count\":1,\"size\":100,\"weight\":400\x7d"

def blockAt (height : ℕ) : MempoolBlock := ⟨"b" ++ toString height, height, 0, 1, 100, 400, none⟩

/-- serde_json on three texts -/
def smallClient : Client where
  config := .default
  baseUrl := "api"
  parseBlock bytes :=
    if bytes = Bytes.ascii (blockText 6).toList then .ok (blockAt 6)
    else if bytes = Bytes.ascii (blockText 8).toList then .ok (blockAt 8)
    else .error "expected value at line 1 column 1"
  parseRecent bytes := if bytes = Bytes.ascii "[]".toList then .ok [] else .error "expected value at line 1 column 1"
  parseIntError _ := "invalid digit found in string"

def answer (text : String) : Reply := .ok ⟨200, none, .ok (Bytes.ascii text.toList), .ok text⟩

def round (told : String) (hash : Reply) (height tipAtHeight tipAtHash : ℕ) : Poll :=
  ⟨answer told, hash, fun _ _ => answer (blockText height), fun _ => answer "[]", fun _ => 0, tipAtHeight, tipAtHash⟩

/-- the tip moves from 5 to 6 within the first round, and the hash of 7 is not obtained -/
def movingTip : Poll × List Poll :=
  (round "5" (answer "b6") 6 5 6, [round "6" (answer "b6") 6 6 6, round "7" (.error ⟨true, false, "timed out"⟩) 6 7 7])

/-- block 6 is sent by both rounds, and block 7 by none that may follow -/
theorem tips_exact_moving :
    (blockHeights (run smallClient movingTip.1 movingTip.2).sent).count 6 = 2 ∧
      (run smallClient movingTip.1 movingTip.2).lastPolledHeight = 7 ∧
      ∃ later, blockHeights (run smallClient movingTip.1 (movingTip.2 ++ [round "8" (answer "b8") 8 8 8])).sent =
          blockHeights (run smallClient movingTip.1 movingTip.2).sent ++ later ∧ ∀ h ∈ later, 7 < h := by
  have hround : ∀ told hash height tip tipAtHeight tipAtHash, tip ≤ tipAtHeight → tipAtHeight ≤ tipAtHash →
      smallClient.getTipHeight (answer told) = .ok tipAtHeight →
      (∀ text, Client.getTipHash hash = .ok text →
        ∀ b, smallClient.getBlock text (fun _ => answer (blockText height)) = .ok b → b.height = tipAtHash) →
      Genuine smallClient tip (round told hash height tipAtHeight tipAtHash) := by
    intro told hash height tip tipAtHeight tipAtHash hrises hgoesOn htold hblock
    refine ⟨hrises, hgoesOn, fun h hh => ?_, fun text b htext hb => hblock text htext b hb⟩
    exact (Except.ok.inj (htold.symm.trans hh)).symm
  have hobtained : ∀ n, (∀ text, smallClient.getBlock text (fun _ => answer (blockText n)) = .ok (blockAt n)) →
      ∀ text b, smallClient.getBlock text (fun _ => answer (blockText n)) = .ok b → b.height = n := by
    intro n hread text b hb
    rw [← Except.ok.inj ((hread text).symm.trans hb)]
    rfl
  have hsix := hobtained 6 fun _ => rfl
  have hfirst : Genuine smallClient 0 movingTip.1 :=
    hround "5" _ 6 0 5 6 (by decide) (by decide) rfl fun text _ b => hsix text b
  have hpolls : Trace.Steps (poll smallClient) (fun s p => Genuine smallClient s.tip p) (start smallClient movingTip.1)
      (movingTip.2 ++ [round "8" (answer "b8") 8 8 8]) := by
    refine ⟨hround "6" _ 6 _ 6 6 ?_ le_rfl rfl fun text _ b => hsix text b,
      hround "7" _ 6 _ 7 7 ?_ le_rfl rfl fun text htext => ?_,
      hround "8" _ 8 _ 8 8 ?_ le_rfl rfl fun text _ b => hobtained 8 (fun _ => rfl) text b, trivial⟩
    · decide +kernel
    · decide +kernel
    · cases htext
    · decide +kernel
  obtain ⟨-, -, -, -, -, later, hlater, habove⟩ := tips_exact hfirst hpolls
  have hlast : (run smallClient movingTip.1 movingTip.2).lastPolledHeight = 7 := by decide +kernel
  rw [hlast] at habove
  exact ⟨by decide +kernel, hlast, later, hlater, habove⟩

end ObsChain.RestPoller
