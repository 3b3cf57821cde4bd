/-
When does the coordinator report a reorganization that did not happen?

A reorganization is real when the stored tip and the delivered block lie on different branches: neither is an ancestor
of the other. `processZmqBlock` compares the block's previous hash with the stored tip only, and every mismatch is
reported (`processZmqBlock_reorg_iff`); the walk down both branches fills in the report but never withholds it.

- `reorg_sound_iff`: for every block tree, stored tip and delivered block, the report is sound exactly when the block is
  not on the stored tip's own branch (the tip itself or below it) and the tip is not two or more blocks below it.
- `missed_and_repeated_blocks_reported`: a block that extends the tip after one missed notification, and a second
  delivery of the tip itself, are both reported as reorganizations.
-/
import Mathlib.Tactic
import ObsChain.Ingest.BitcoinCoordinator

namespace ObsChain.Coordinator

/-- the block is one of the tree's, and its header names its parent there (the first block's names no block) -/
def Delivered (T : BlockTree) (b : BlockObservation) : Prop :=
  T.mem b.blockHash ∧ match T.parent b.blockHash with
    | some p => b.previousBlockHash = p
    | none => ¬ T.mem b.previousBlockHash

/-- a reorganization is among the observations sent -/
def ReportsReorg (sent : List Observation) : Prop := ∃ r, Observation.reorg r ∈ sent

/-- the reorganizations sent at this delivery are real: stored tip and block are on different branches -/
def ReorgSound (T : BlockTree) (c : St) (b : BlockObservation) (sent : List Observation) : Prop :=
  ReportsReorg sent → ∀ tip, c.lastTipHash = some tip →
    ¬ T.AncestorOrEq tip b.blockHash ∧ ¬ T.Ancestor b.blockHash tip

theorem acceptBlock_no_reorg (c : St) (b : BlockObservation) (txs : List TransactionObservation) :
    ¬ ReportsReorg (acceptBlock c b txs).2 := by
  intro hreports
  obtain ⟨r, hr⟩ := hreports
  simp [acceptBlock] at hr

/-- **Every mismatch is reported**, and nothing else is -/
theorem processZmqBlock_reorg_iff (env : Env) (c : St) (b : BlockObservation) (txs : List TransactionObservation) :
    ReportsReorg (processZmqBlock env c b txs).2 ↔ ∃ tip, c.lastTipHash = some tip ∧ b.previousBlockHash ≠ tip := by
  unfold processZmqBlock
  cases hc : c.lastTipHash with
  | none => simpa using acceptBlock_no_reorg c b txs
  | some tip =>
    simp only [Option.some.injEq, exists_eq_left']
    split_ifs with hp
    · simpa [hp] using acceptBlock_no_reorg c b txs
    · exact ⟨fun _ => hp, fun _ => ⟨_, List.mem_cons_self⟩⟩

/-- a block whose previous hash is the tip is above it, and not below it -/
theorem delivered_on_tip {T : BlockTree} {b : BlockObservation} (hb : Delivered T b) :
    (∀ k, T.ancestor k b.previousBlockHash ≠ some b.blockHash) ∧
      ∀ k, T.ancestor (k + 2) b.blockHash ≠ some b.previousBlockHash := by
  obtain ⟨hmem, hprev⟩ := hb
  cases hp : T.parent b.blockHash with
  | none =>
    rw [hp] at hprev
    refine ⟨fun k hk => ?_, fun k hk => ?_⟩
    · have he := Forest.ancestor_of_not_mem hprev hk
      exact hprev (he ▸ hmem)
    · simp [Forest.ancestor, hp] at hk
  | some p =>
    rw [hp] at hprev
    have hh := T.height_parent hp
    refine ⟨fun k hk => ?_, fun k hk => ?_⟩
    · have := Forest.height_ancestor hk
      rw [hprev] at this; omega
    · have := Forest.height_ancestor hk
      rw [hprev] at this; omega

/-- **Reorganization soundness, exactly.** A delivery reports only real reorganizations if and only if the delivered
block is neither the stored tip nor one of its ancestors, and the stored tip is not two or more blocks below it. -/
theorem reorg_sound_iff (T : BlockTree) (env : Env) (c : St) (b : BlockObservation)
    (txs : List TransactionObservation) (hb : Delivered T b) :
    ReorgSound T c b (processZmqBlock env c b txs).2 ↔
      ∀ tip, c.lastTipHash = some tip →
        ¬ T.AncestorOrEq b.blockHash tip ∧ ∀ k, T.ancestor (k + 2) b.blockHash ≠ some tip := by
  unfold ReorgSound
  rw [processZmqBlock_reorg_iff]
  constructor
  · intro h tip htip
    by_cases hp : b.previousBlockHash = tip
    · -- a direct extension: the tree itself excludes the two bad cases
      obtain ⟨h1, h2⟩ := delivered_on_tip hb
      rw [hp] at h1 h2
      refine ⟨?_, h2⟩
      rintro ⟨k, hk⟩
      exact h1 k hk
    · obtain ⟨h1, h2⟩ := h ⟨tip, htip, hp⟩ tip htip
      refine ⟨?_, fun k hk => h1 ⟨k + 2, hk⟩⟩
      intro hanc
      obtain ⟨k, hk⟩ := hanc
      cases k with
      | zero =>
        simp only [Forest.ancestor, Option.some.injEq] at hk
        exact h1 ⟨0, by rw [hk]; rfl⟩
      | succ k => exact h2 ⟨k, hk⟩
  · intro h hmismatch tip htip
    obtain ⟨tip', htip', hp⟩ := hmismatch
    obtain rfl : tip' = tip := Option.some.inj (htip'.symm.trans htip)
    obtain ⟨h1, h2⟩ := h tip' htip
    constructor
    · rintro ⟨k, hk⟩
      rcases k with _ | _ | k
      · exact h1 ⟨0, by simpa [Forest.ancestor] using hk.symm⟩
      · -- one step above the block is its parent, which is its previous hash
        obtain ⟨-, hprev⟩ := hb
        cases hpar : T.parent b.blockHash with
        | none => simp [Forest.ancestor, hpar] at hk
        | some p =>
          rw [hpar] at hprev
          simp only [Forest.ancestor, hpar, Option.bind_some, Option.some.injEq] at hk
          exact hp (hprev.trans hk)
      · exact h2 k hk
    · rintro ⟨k, hk⟩
      exact h1 ⟨k + 1, hk⟩

/-! ## On the small tree -/

def forkEnv : Env := ⟨forkRpc, 0, fun _ => .error "unexpected end of file"⟩

/-- a coordinator that last accepted this block -/
def atTip (hash : String) (height : ℕ) : St := { new with lastTipHash := some hash, lastTipHeight := height }

/-- an empty block observation -/
def emptyBlock (hash prev : String) (height : ℕ) : BlockObservation :=
  ⟨hash, height, 0, prev, 0, 0, 0, none, none, none⟩

/-- a competing block at the tip's height is reported, and the report is right -/
theorem reorg_sound_iff_competing :
    Delivered forkTree (emptyBlock "x" "a" 2) ∧
      ReorgSound forkTree (atTip "b" 2) (emptyBlock "x" "a" 2)
        (processZmqBlock forkEnv (atTip "b" 2) (emptyBlock "x" "a" 2) []).2 := by
  have hb : Delivered forkTree (emptyBlock "x" "a" 2) := by
    simp [Delivered, emptyBlock, forkTree]
  refine ⟨hb, (reorg_sound_iff forkTree forkEnv (atTip "b" 2) _ [] hb).2 ?_⟩
  intro tip htip
  obtain rfl : "b" = tip := Option.some.inj htip
  refine ⟨?_, fun k => by simp [Forest.ancestor, forkTree, emptyBlock]⟩
  intro hanc
  obtain ⟨k, hk⟩ := hanc
  rcases k with _ | _ | k
  · simp [Forest.ancestor, emptyBlock] at hk
  · simp [Forest.ancestor, forkTree, emptyBlock] at hk
  · simp [Forest.ancestor, forkTree] at hk

/-- **The tip is `a` and the notification for `b` is lost.** `c`, which extends `a`, is reported as a reorganization;
so is a second delivery of the tip `b` itself. -/
theorem missed_and_repeated_blocks_reported :
    forkRpc.Serves forkTree ∧
    (Delivered forkTree (emptyBlock "c" "b" 3) ∧
      ¬ ReorgSound forkTree (atTip "a" 1) (emptyBlock "c" "b" 3)
        (processZmqBlock forkEnv (atTip "a" 1) (emptyBlock "c" "b" 3) []).2) ∧
    (Delivered forkTree (emptyBlock "b" "a" 2) ∧
      ¬ ReorgSound forkTree (atTip "b" 2) (emptyBlock "b" "a" 2)
        (processZmqBlock forkEnv (atTip "b" 2) (emptyBlock "b" "a" 2) []).2) := by
  refine ⟨forkRpc_serves, ⟨by simp [Delivered, emptyBlock, forkTree], ?_⟩,
    ⟨by simp [Delivered, emptyBlock, forkTree], ?_⟩⟩
  · intro h
    have hr := (processZmqBlock_reorg_iff forkEnv (atTip "a" 1) (emptyBlock "c" "b" 3) []).2
      ⟨"a", rfl, by decide⟩
    exact (h hr "a" rfl).1 ⟨2, by simp [Forest.ancestor, forkTree, emptyBlock]⟩
  · intro h
    have hr := (processZmqBlock_reorg_iff forkEnv (atTip "b" 2) (emptyBlock "b" "a" 2) []).2
      ⟨"b", rfl, by decide⟩
    exact (h hr "b" rfl).1 ⟨0, rfl⟩

end ObsChain.Coordinator
