/-
Does a replay ever fault?

`run_job` adds to six counters of the job after every block, then takes the number of blocks modulo the checkpoint
interval; a block that fails adds to the error counter. A sum that does not fit in 64 bits, and a remainder by zero, are
the faults of the loop (`Faults`). The interval is whatever 64-bit number the environment or the command line gives.

One call of `run_job` is meant, on the job of an accepted range. Everything else goes on as it likes: pauses,
cancellations, failing storage, the live pipeline, a crash.

- `Faultless`: no step of the call faults, and when every block succeeds a checkpoint of the last height is written.
- `Fits`: after `n` blocks no counter is above `n` times what one block can add (`Limited`). A range has at most 2^31
  blocks and a block at most 8 * 4,000,001 events, so the counters stay far below 2^64.
- `faultless_iff`: for every configuration and every accepted range, exactly when the interval is not 0.
- `zero_interval_faults`: with OBSCHAIN_REPLAY_CHECKPOINT_INTERVAL=0 the first block is processed, its events are
  stored, and the remainder panics.
-/
import Mathlib.Tactic
import ObsChain.Core.Trace
import ObsChain.Replay.Admission
import ObsChain.Replay.ProcessBlock
import ObsChain.Replay.Recovery

namespace ObsChain.Replay

open Trace Progress Overflow

variable {M : Type}

/-! ## Faults -/

/-- the counters a block adds to -/
def counters (job : ReplayJob) : List ℕ :=
  [job.blocksProcessed, job.transactionsProcessed, job.eventsGenerated, job.eventsCreated, job.eventsExisting,
    job.observationsRecorded]

/-- this step of the loop divides by zero, or a counter leaves its 64 bits -/
def Faults (checkpointInterval : ℕ) (chain : Chain M) (s : St M) : Op M → Prop
  | .runner inp =>
    match s.runner with
    | .processBlock job height prev =>
      match inp.block with
      | .persisted header =>
        let ids := detected chain s.mem height prev header
        checkpointInterval = 0 ∨
          ∃ c ∈ counters (countBlock chain job height ids.length (persist s.events ids)), 2 ^ 64 ≤ c
      | .unavailable e | .notPersisted _ _ e => 2 ^ 64 ≤ (failJob job inp.now e).errorCount
    | _ => False
  | _ => False

/-- the steps of one `run_job` call and of whatever goes on besides: no other call is made -/
def SameCall (o : Op M) : Prop := o ≠ .start ∧ o ≠ .resume

/-- from the call of `run_job` on: no fault, and a checkpoint at the end -/
structure Faultless (checkpointInterval : ℕ) (chain : Chain M) (endHeight : ℕ) (s : St M) : Prop where
  safe : ∀ ops, (∀ o ∈ ops, SameCall o) →
    Steps (step checkpointInterval chain) (fun s o => ¬ Faults checkpointInterval chain s o) s ops
  checkpoint : Eventually (runnerStep checkpointInterval chain) Succeeds
    (fun t => ∃ cp ∈ t.checkpoints, cp.completedHeight = endHeight) s

/-! ## What the counters can reach -/

/-- what one block can add to a counter, for an engine whose memory is in `Ok` -/
structure Limited (chain : Chain M) (Ok : M → Prop) (limit : ℕ) : Prop where
  positive : 0 < limit
  txCount : ∀ height, chain.txCount height ≤ limit
  events : ∀ mem height interval, Ok mem → (chain.detect mem height interval).1.length ≤ limit
  kept : ∀ mem height interval, Ok mem → Ok (chain.detect mem height interval).2

/-- the counters of a job after `n` blocks of the call, none of which has failed -/
structure Fit (limit n : ℕ) (job : ReplayJob) : Prop where
  counters : ∀ c ∈ counters job, c ≤ n * limit
  errors : job.errorCount = 0

/-- **One block** adds at most the limit to each counter. -/
theorem Fit.countBlock {chain : Chain M} {Ok : M → Prop} {limit n height : ℕ} {job : ReplayJob}
    (hlimited : Limited chain Ok limit) (hfit : Fit limit n job) {stored ids : List Uuid} (hids : ids.length ≤ limit) :
    Fit limit (n + 1) (countBlock chain job height ids.length (persist stored ids)) := by
  obtain ⟨hsplit, hobservations⟩ := persist_counts stored ids
  have hpositive := hlimited.positive
  have htxs := hlimited.txCount height
  have hcounters := hfit.counters
  simp only [Replay.counters, List.forall_mem_cons] at hcounters
  obtain ⟨h1, h2, h3, h4, h5, h6, -⟩ := hcounters
  have hsucc : (n + 1) * limit = n * limit + limit := Nat.succ_mul n limit
  refine ⟨?_, hfit.errors⟩
  simp only [Replay.counters, Replay.countBlock, List.forall_mem_cons, hsucc]
  refine ⟨by omega, by omega, by omega, by omega, by omega, by omega, by simp⟩

/-- the job of the range from `a` to `e`, as it was created -/
structure Untouched (a e : ℕ) (job : ReplayJob) : Prop where
  counters : ∀ c ∈ counters job, c = 0
  errors : job.errorCount = 0
  height : job.currentHeight = a
  stop : job.endHeight = e

theorem Untouched.fit {a e limit n : ℕ} {job : ReplayJob} (h : Untouched a e job) : Fit limit n job :=
  ⟨fun c hc => by rw [h.counters c hc]; exact Nat.zero_le _, h.errors⟩

/-- the runner's copy at each point of the call -/
def RunnerFits (limit a e : ℕ) : Runner → Prop
  | .resumeCheckpoint _ | .resumeWrite _ => False
  | .registerCancel job | .registerPause job | .startWrite job => Untouched a e job
  | .cancelCheck job height _ => Fit limit (height - a) job ∧ a ≤ height ∧ job.endHeight = e
  | .pauseCheck job height _ | .processBlock job height _ =>
    Fit limit (height - a) job ∧ a ≤ height ∧ height ≤ e ∧ job.endHeight = e
  | .saveCheckpoint job height _ | .updateJob job height _ =>
    Fit limit (height + 1 - a) job ∧ a ≤ height ∧ job.endHeight = e
  | _ => True

/-- the invariant of the call; until the runner has read the row, the row and its copies are untouched -/
structure Fits (Ok : M → Prop) (limit a e : ℕ) (s : St M) : Prop where
  row : s.runner = .getJob → Copies (Untouched a e) (fun _ => True) s
  runner : RunnerFits limit a e s.runner
  mem : s.runner = .idle ∨ Ok s.mem

section Call

variable {interval : ℕ} {chain : Chain M} {Ok : M → Prop} {limit a e : ℕ} {s : St M}

/-- the state with the runner elsewhere -/
theorem Fits.moved {r : Runner} {t : St M} (hr : t.runner = r) (hne : r ≠ .getJob) (hfits : RunnerFits limit a e r)
    (hmem : Ok t.mem) : Fits Ok limit a e t :=
  ⟨fun hget => absurd (hr.symm.trans hget) hne, by rw [hr]; exact hfits, Or.inr hmem⟩

theorem Fits.processStep (hlimited : Limited chain Ok limit) {job : ReplayJob} {height : ℕ}
    (hjob : Fit limit (height - a) job) (hle : a ≤ height) (hstop : job.endHeight = e) (hmem : Ok s.mem)
    (prev : Option DateTime) (inp : Input) : Fits Ok limit a e (processStep interval chain s job height prev inp) := by
  unfold Replay.processStep
  split
  · exact Fits.moved rfl (by simp) trivial hmem
  · exact Fits.moved rfl (by simp) trivial (hlimited.kept _ _ _ hmem)
  · rename_i header _
    have hids : (detected chain s.mem height prev header).length ≤ limit := hlimited.events _ _ _ hmem
    have hcounted : Fit limit (height - a + 1) (countBlock chain job height (detected chain s.mem height prev header).length
        (persist s.events (detected chain s.mem height prev header))) := Fit.countBlock hlimited hjob hids
    have hnext : height + 1 - a = height - a + 1 := by omega
    rw [← hnext] at hcounted
    refine ⟨fun hget => ?_, ?_, Or.inr (hlimited.kept _ _ _ hmem)⟩
    · dsimp only at hget
      split_ifs at hget
    · dsimp only
      split_ifs
      · trivial
      · exact ⟨hcounted, hle, hstop⟩
      · exact ⟨hcounted, by omega, hstop⟩

theorem Fits.runnerStep (hlimited : Limited chain Ok limit) (h : Fits Ok limit a e s) (inp : Input) :
    Fits Ok limit a e (runnerStep interval chain s inp) := by
  by_cases hidle : s.runner = .idle
  · have hsame : Replay.runnerStep interval chain s inp = s := by simp [Replay.runnerStep, hidle]
    rw [hsame]
    exact h
  have hmem : Ok s.mem := h.mem.resolve_left hidle
  have hr := h.runner
  unfold Replay.runnerStep
  generalize hrunner : s.runner = r at hr
  cases r with
  | idle => exact absurd hrunner hidle
  | resumeCheckpoint job | resumeWrite job => exact hr.elim
  | getJob =>
    have hrow := (h.row hrunner).row
    exact Fits.moved rfl (by simp) hrow hmem
  | registerCancel job => exact Fits.moved rfl (by simp) hr hmem
  | registerPause job =>
    refine Fits.moved rfl (by simp) ?_ hmem
    exact ⟨hr.counters, hr.errors, hr.height, hr.stop⟩
  | startWrite job =>
    refine Fits.moved rfl (by simp) ⟨hr.fit, ?_, hr.stop⟩ hmem
    exact hr.height.ge
  | cancelCheck job height prev =>
    obtain ⟨hfit, hle, hstop⟩ := hr
    dsimp only
    split_ifs with hend hc
    · exact Fits.moved rfl (by simp) trivial hmem
    · rw [hstop] at hend
      exact Fits.moved rfl (by simp) ⟨hfit, hle, hend, hstop⟩ hmem
    · exact Fits.moved rfl (by simp) trivial hmem
  | pauseCheck job height prev =>
    dsimp only
    split_ifs with hp
    · exact Fits.moved rfl (by simp) trivial hmem
    · exact Fits.moved rfl (by simp) hr hmem
  | processBlock job height prev =>
    obtain ⟨hfit, hle, -, hstop⟩ := hr
    exact Fits.processStep hlimited hfit hle hstop hmem prev inp
  | saveCheckpoint job height prev => exact Fits.moved rfl (by simp) hr hmem
  | updateJob job height prev =>
    obtain ⟨hfit, hle, hstop⟩ := hr
    exact Fits.moved rfl (by simp) ⟨hfit, by omega, hstop⟩ hmem
  | completion job =>
    dsimp only
    split_ifs with hc
    · exact Fits.moved rfl (by simp) trivial hmem
    · exact Fits.moved rfl (by simp) trivial hmem
  | cancelWrite job | pauseWrite job | failWrite job | completeWrite job | removeCancel | removePause =>
    exact Fits.moved rfl (by simp) trivial hmem

variable (interval chain s) in
/-- the other steps leave the runner and the memory alone, or end the call -/
theorem step_other {o : Op M} (ho : ∀ inp, o ≠ .runner inp) (hcall : SameCall o) :
    ((step interval chain s o).runner = s.runner ∧ (step interval chain s o).mem = s.mem) ∨
      (step interval chain s o).runner = .idle := by
  cases o with
  | runner inp => exact absurd rfl (ho inp)
  | start => exact absurd rfl hcall.1
  | resume => exact absurd rfl hcall.2
  | storageError =>
    simp only [step]
    split_ifs
    · exact Or.inr rfl
    · exact Or.inl ⟨rfl, rfl⟩
  | cancelRead i =>
    simp only [step]
    split
    · split_ifs <;> exact Or.inl ⟨rfl, rfl⟩
    · exact Or.inl ⟨rfl, rfl⟩
  | cancelWrite i now => simp only [step]; split <;> exact Or.inl ⟨rfl, rfl⟩
  | pause | cancelSignal | live => exact Or.inl ⟨rfl, rfl⟩
  | crash mem => exact Or.inr rfl

theorem Fits.step (hlimited : Limited chain Ok limit) (h : Fits Ok limit a e s) {o : Op M} (hcall : SameCall o) :
    Fits Ok limit a e (step interval chain s o) := by
  by_cases ho : ∃ inp, o = .runner inp
  · obtain ⟨inp, rfl⟩ := ho
    exact h.runnerStep hlimited inp
  have ho' : ∀ inp, o ≠ .runner inp := fun inp hinp => ho ⟨inp, hinp⟩
  rcases step_other interval chain s ho' hcall with ⟨hrunner, hmem⟩ | hidle
  · refine ⟨fun hget => ?_, by rw [hrunner]; exact h.runner, by rw [hrunner, hmem]; exact h.mem⟩
    rw [hrunner] at hget
    refine (h.row hget).step ⟨trivial, trivial, fun _ _ => trivial, ?_⟩ ho'
    exact fun job now hjob => ⟨hjob.counters, hjob.errors, hjob.height, hjob.stop⟩
  · refine ⟨fun hget => ?_, by rw [hidle]; trivial, Or.inl hidle⟩
    rw [hidle] at hget
    cases hget

/-- **No fault** while the counters fit, unless the interval is 0. -/
theorem Fits.not_faults (hlimited : Limited chain Ok limit) (h : Fits Ok limit a e s) (hinterval : interval ≠ 0)
    (hsize : (e - a + 1) * limit < 2 ^ 64) (o : Op M) : ¬ Faults interval chain s o := by
  intro hfault
  cases o with
  | runner inp =>
    have hr := h.runner
    have hmem := h.mem
    simp only [Faults] at hfault
    generalize s.runner = r at hr hmem hfault
    cases r with
    | processBlock job height prev =>
      obtain ⟨hfit, hle, hend, -⟩ := hr
      have hok : Ok s.mem := hmem.resolve_left (by simp)
      dsimp only at hfault
      split at hfault
      · rename_i header _
        rcases hfault with hzero | ⟨c, hc, hbig⟩
        · exact hinterval hzero
        · have hids : (detected chain s.mem height prev header).length ≤ limit := hlimited.events _ _ _ hok
          have hfits : c < 2 ^ 64 := calc
            c ≤ (height - a + 1) * limit := (Fit.countBlock hlimited hfit hids).counters c hc
            _ ≤ (e - a + 1) * limit := Nat.mul_le_mul_right limit (by omega)
            _ < 2 ^ 64 := hsize
          exact absurd hbig (not_le.2 hfits)
      · have herrors := hfit.errors
        simp only [failJob] at hfault
        omega
      · have herrors := hfit.errors
        simp only [failJob] at hfault
        omega
    | _ => exact hfault
  | _ => exact hfault

/-- **Without a zero interval** the call is faultless. -/
theorem faultless_of_ne_zero (hlimited : Limited chain Ok limit) (hinterval : interval ≠ 0)
    (hsize : (e - a + 1) * limit < 2 ^ 64) {job : ReplayJob} (hjob : Untouched a e job) (hrange : a ≤ e)
    (events : List Uuid) {mem : M} (hmem : Ok mem) :
    Faultless interval chain e (step interval chain (created job events mem) .start) := by
  have hinit : Fits Ok limit a e (step interval chain (created job events mem) .start) := by
    refine ⟨fun _ => ⟨hjob, trivial, fun job' hjob' => ?_⟩, trivial, Or.inr hmem⟩
    cases hjob'
  constructor
  · intro ops hops
    have hcalls : Steps (step interval chain) (fun _ o => SameCall o)
        (step interval chain (created job events mem) .start) ops := steps_of_mem hops
    exact steps_imp (fun s o hs hcall => hs.step hlimited hcall)
      (fun s o hs _ => hs.not_faults hlimited hinterval hsize o) hinit hcalls
  · refine eventually_trans (started_at_head rfl) ?_
    intro t hhead
    obtain ⟨job', ht⟩ := hhead
    have hstart : (step interval chain (created job events mem) .start).job = job := rfl
    rw [hstart, hjob.stop, hjob.height] at ht
    exact loop_checkpoints hinterval (e - a) ht (by omega)

/-- six steps into the call: get_job, the two tokens, the start write and the two token checks -/
theorem first_block {job : ReplayJob} (hjob : Untouched a e job) (hrange : a ≤ e) (events : List Uuid) (mem : M) :
    (run (step interval chain) (step interval chain (created job events mem) .start)
        (List.replicate 6 (.runner calm))).runner =
      .processBlock { job with status := .running, startedAt := job.startedAt.or (some calm.now) } a none := by
  simp [run, step, runnerStep, created, hjob.height, hjob.stop, hrange]

/-- **With a zero interval** the first block faults. -/
theorem zero_faults {job : ReplayJob} (hjob : Untouched a e job) (hrange : a ≤ e) (events : List Uuid) (mem : M) :
    ¬ Faultless 0 chain e (step 0 chain (created job events mem) .start) := by
  intro hfaultless
  have hops : ∀ o ∈ List.replicate 6 (.runner calm) ++ [.runner calm], SameCall (M := M) o := by
    intro o ho
    have hrunner : o = .runner calm := by simpa using ho
    rw [hrunner]
    exact ⟨by simp, by simp⟩
  have hlast := steps_last (hfaultless.safe _ hops)
  apply hlast
  unfold Faults
  rw [first_block hjob hrange events mem]
  exact Or.inl rfl

end Call

/-! ## Accepted ranges of a real chain -/

section Accepted

variable {mode : Mode} {config : ReplayConfig} {capabilities capabilities' : BitcoinNodeCapabilities}
  {startHeight endHeight : U64}

theorem checkTip_ok (h : checkTip capabilities endHeight = .ok capabilities') :
    endHeight.toNat ≤ capabilities.blocks := by
  unfold checkTip at h
  split_ifs at h with hbeyond
  exact not_lt.1 hbeyond

theorem checkCapabilities_ok (h : checkCapabilities capabilities startHeight endHeight = .ok capabilities') :
    endHeight.toNat ≤ capabilities.blocks := by
  unfold checkCapabilities checkPruned at h
  dsimp only at h
  split_ifs at h with hibd hpruned
  · split at h
    · split_ifs at h with hretained
      exact checkTip_ok h
    · exact checkTip_ok h
  · exact checkTip_ok h

/-- **The job of an accepted range** is untouched, and its range ends at or below the tip, in every build. -/
theorem accepted_job {id : Uuid} {now : DateTime} {job : ReplayJob}
    (h : createReplayJob mode config (.ok capabilities) startHeight endHeight id now = some (.ok job)) :
    startHeight.toNat ≤ endHeight.toNat ∧ endHeight.toNat ≤ capabilities.blocks ∧
      Untouched startHeight.toNat endHeight.toNat job := by
  obtain ⟨checked, hchecked, hjob⟩ := Option.map_eq_some_iff.1 h
  cases checked with
  | error err => cases hjob
  | ok capabilities' =>
    cases hjob
    unfold validateCapabilitiesAndRange at hchecked
    split_ifs at hchecked with horder
    · simp at hchecked
    · obtain ⟨requested, -, hrange⟩ := Option.map_eq_some_iff.1 hchecked
      split_ifs at hrange with hmax
      have hzero : ∀ c ∈ counters (ReplayJob.new id capabilities'.network startHeight.toNat endHeight.toNat
          ("bitcoin_core_rpc:" ++ capabilities'.network) now), c = 0 := by
        simp [counters, ReplayJob.new]
      exact ⟨not_lt.1 horder, checkCapabilities_ok hrange, hzero, rfl, rfl, rfl⟩

/-- what a block can add to a counter: eight detectors, and no more than 4,000,000 transactions -/
theorem limited_replayChain (node : Node) (host : Host) (job : ReplayJob) :
    Limited (replayChain node host job) (fun mem => mem.detectorEngine.detectors.length = 8) (4000001 * 8) where
  positive := by decide
  txCount height := (node.txdata_le height).trans (by decide)
  events mem height interval hmem := by
    calc (detectBlock node host job mem height interval).1.length
      _ ≤ ((node.block height).txdata.length + 1) * mem.detectorEngine.detectors.length :=
        length_detectBlock_le node host job mem height interval
      _ = ((node.block height).txdata.length + 1) * 8 := by rw [hmem]
      _ ≤ 4000001 * 8 := Nat.mul_le_mul_right 8 (Nat.succ_le_succ (node.txdata_le height))
  kept mem height interval hmem := by
    have hsame := detectors_detectBlock node host job mem height interval
    exact (congrArg List.length hsame).trans hmem

end Accepted

/-- **A replay is faultless exactly when the interval is not 0**: on every node and host, with the registered detectors at
any thresholds and whatever the engine remembers, for every configuration and every range it accepts. -/
theorem faultless_iff (node : Node) (host : Host) (largeTx : LargeTransactionDetector)
    (longInterval : LongBlockIntervalDetector) (dormant : DormantCoinDetector) (consolidation : ConsolidationDetector)
    (fanout : FanOutDetector) (extremeFee : ExtremeFeeDetector) (mode : Mode) (config : ReplayConfig)
    (startHeight endHeight : U64) (id : Uuid) (now : DateTime) (job : ReplayJob) (events : List Uuid)
    (txCache : HistoricalTxCache) (lastBlock : Option BlockObservation) (calls : ℕ)
    (hjob : createReplayJob mode config (.ok node.capabilities) startHeight endHeight id now = some (.ok job)) :
    Faultless config.checkpointInterval.toNat (replayChain node host job) endHeight.toNat
        (step config.checkpointInterval.toNat (replayChain node host job)
          (created job events ⟨txCache,
            ⟨registeredDetectors largeTx longInterval dormant consolidation fanout extremeFee, lastBlock⟩, calls⟩)
          .start) ↔
      config.checkpointInterval ≠ 0 := by
  obtain ⟨hrange, htip, huntouched⟩ := accepted_job hjob
  constructor
  · intro hfaultless hzero
    rw [hzero] at hfaultless
    exact zero_faults huntouched hrange _ _ hfaultless
  · intro hinterval
    have hpositive : config.checkpointInterval.toNat ≠ 0 := by
      simpa [BitVec.toNat_eq] using hinterval
    have hsize : (endHeight.toNat - startHeight.toNat + 1) * (4000001 * 8) < 2 ^ 64 := by
      have hblocks := node.blocks_lt
      omega
    exact faultless_of_ne_zero (limited_replayChain node host job) hpositive hsize huntouched hrange events rfl

/-! ## Two blocks, with and without an interval of 0 -/

/-- a block with its coinbase only -/
def coinbaseBlock (height : ℕ) : BtcBlock :=
  ⟨"hash", "prev", 600 * height, some height, 1000,
    [⟨"cb", 400, 100, 100, [⟨"0", 4294967295, true, 4294967295⟩], [⟨5000000000, "51", none, none⟩]⟩]⟩

/-- a regtest node of two such blocks -/
def smallNode : Node where
  capabilities := regtestNode
  block := coinbaseBlock
  rawSize _ := 250
  rpcUrl := "http://127.0.0.1:18443"
  rpc _ _ _ := .error .txIndexUnavailable
  blocks_lt := by decide
  txdata_le _ := by simp [coinbaseBlock]

def smallHost : Host where
  draws _ _ _ := ⟨0, 0, 0⟩
  walk _ txs := txs
  walk_perm _ _ := List.Perm.refl _
  newV5 _ := 0
  rfc3339 _ := ""

/-- a new engine with the detectors at their defaults -/
def newEngine (config : ReplayConfig) : EngineMemory :=
  ⟨HistoricalTxCache.new config.txCacheLimit.toNat,
    ⟨registeredDetectors LargeTransactionDetector.default LongBlockIntervalDetector.default DormantCoinDetector.default
      ConsolidationDetector.default FanOutDetector.default ExtremeFeeDetector.default, none⟩, 0⟩

/-- `run_job` is called on the job of blocks 1 and 2 -/
def smallCall (config : ReplayConfig) : St EngineMemory :=
  step config.checkpointInterval.toNat (replayChain smallNode smallHost twoBlockJob)
    (created twoBlockJob [] (newEngine config)) .start

/-- the default interval of 25 -/
theorem faultless_iff_default :
    Faultless 25 (replayChain smallNode smallHost twoBlockJob) 2 (smallCall defaultConfig) :=
  (faultless_iff smallNode smallHost LargeTransactionDetector.default LongBlockIntervalDetector.default
    DormantCoinDetector.default ConsolidationDetector.default FanOutDetector.default ExtremeFeeDetector.default .panics
    defaultConfig 1 2 1 0 twoBlockJob [] (HistoricalTxCache.new defaultConfig.txCacheLimit.toNat) none 0
    (by decide +kernel)).2 (by decide +kernel)

/-- OBSCHAIN_REPLAY_CHECKPOINT_INTERVAL=0, and nothing else -/
def zeroConfig : ReplayConfig :=
  ReplayConfig.fromEnv fun name => if name = "OBSCHAIN_REPLAY_CHECKPOINT_INTERVAL" then some "0" else none

/-- **An interval of 0.** The configuration comes from the environment and the range is accepted. The first block is
processed, the task is gone without a checkpoint, and the row still says "running". -/
theorem zero_interval_faults :
    let s := run (step 0 (replayChain smallNode smallHost twoBlockJob)) (smallCall zeroConfig)
      (List.replicate 7 (.runner calm))
    Obtainable zeroConfig ∧
      createReplayJob .panics zeroConfig (.ok smallNode.capabilities) 1 2 1 0 = some (.ok twoBlockJob) ∧
      s.processed = [1] ∧ s.checkpoints = [] ∧ s.runner = .idle ∧ s.job.status = .running ∧
      ¬ Faultless 0 (replayChain smallNode smallHost twoBlockJob) 2 (smallCall zeroConfig) := by
  have hcreated : createReplayJob .panics zeroConfig (.ok smallNode.capabilities) 1 2 1 0 = some (.ok twoBlockJob) := by
    decide +kernel
  obtain ⟨hrange, -, hjob⟩ := accepted_job hcreated
  refine ⟨Obtainable.environment _, hcreated, rfl, rfl, rfl, rfl, ?_⟩
  have hzero : zeroConfig.checkpointInterval.toNat = 0 := by decide +kernel
  rw [smallCall, hzero]
  exact zero_faults hjob hrange [] (newEngine zeroConfig)

end ObsChain.Replay
