/-
Exactness of the feed's arithmetic (`mempool_ws.rs`, `rbf.rs`).

Numbers and texts of a frame are whatever u64 and UTF-8 the feed sends. A block without a weight gets four times its size,
fees are cast to i64 and subtracted in the conversion and again in the detector, and the title of an event shows the first
12 bytes of a txid. `FeedItem.Exact` is what is meant of a part and its observation; `FeedItem.Fits` is when it holds.

- `slicePrefix_isSome_iff`: the slice panics exactly inside a character.
- `subI64_castI64`: casts and difference together are the difference modulo 2^64.
- `feed_arithmetic_iff`: a whole frame, by its results and, in the second part, with no step that wraps on the way.
-/
import Mathlib.Tactic
import ObsChain.Ingest.MempoolWs

namespace ObsChain

/-! ## Character boundaries -/

/-- the UTF-8 length of a text -/
def utf8Length (cs : List Char) : ℕ := (cs.map Char.utf8Size).sum

/-- byte `n` of a text is not inside a character -/
def IsCharBoundary (n : ℕ) (cs : List Char) : Prop := ∃ front, front <+: cs ∧ utf8Length front = n

@[simp] theorem utf8Length_nil : utf8Length [] = 0 := rfl

@[simp] theorem utf8Length_cons (c : Char) (cs : List Char) : utf8Length (c :: cs) = c.utf8Size + utf8Length cs := by
  simp [utf8Length]

theorem isCharBoundary_zero (cs : List Char) : IsCharBoundary 0 cs := ⟨[], List.nil_prefix, rfl⟩

/-- past its first character a boundary is one of the rest -/
theorem isCharBoundary_cons {n : ℕ} {c : Char} {cs : List Char} (hn : 0 < n) :
    IsCharBoundary n (c :: cs) ↔ c.utf8Size ≤ n ∧ IsCharBoundary (n - c.utf8Size) cs := by
  constructor
  · intro ⟨front, hpre, hlen⟩
    cases front with
    | nil =>
      rw [utf8Length_nil] at hlen
      omega
    | cons d front =>
      obtain ⟨rfl, htail⟩ := List.cons_prefix_cons.1 hpre
      rw [utf8Length_cons] at hlen
      exact ⟨by omega, front, htail, by omega⟩
  · intro ⟨hle, front, hpre, hlen⟩
    refine ⟨c :: front, List.cons_prefix_cons.2 ⟨rfl, hpre⟩, ?_⟩
    rw [utf8Length_cons]
    omega

/-- **The slice panics exactly inside a character.** -/
theorem slicePrefix_isSome_iff (n : ℕ) (cs : List Char) :
    (slicePrefix n cs).isSome ↔ IsCharBoundary (min n (utf8Length cs)) cs := by
  induction cs generalizing n with
  | nil => simp [slicePrefix, isCharBoundary_zero]
  | cons c cs ih =>
    have hsize := c.utf8Size_pos
    by_cases hzero : n = 0
    · simp [slicePrefix, hzero, isCharBoundary_zero]
    rw [isCharBoundary_cons (by rw [utf8Length_cons]; omega), utf8Length_cons, slicePrefix, if_neg hzero]
    by_cases hle : c.utf8Size ≤ n
    · have hmin : min n (c.utf8Size + utf8Length cs) - c.utf8Size = min (n - c.utf8Size) (utf8Length cs) := by omega
      rw [if_pos hle, Option.isSome_map, ih, hmin]
      simp only [iff_and_self]
      omega
    · rw [if_neg hle]
      simp only [Option.isSome_none, Bool.false_eq_true, false_iff, not_and]
      omega

namespace MempoolWs

/-! ## Signed differences -/

/-- casts and difference together wrap once -/
theorem subI64_castI64 (a b : ℕ) : subI64 (castI64 a) (castI64 b) = ((a : ℤ) - b).bmod (2 ^ 64) := by
  have hbmod : ∀ (x y : ℤ) (n : ℕ), (x.bmod n - y.bmod n).bmod n = (x - y).bmod n := by
    intro x y n
    rw [Int.sub_bmod_bmod, Int.bmod_sub_bmod]
  exact hbmod a b (2 ^ 64)

/-- a number that fits an i64 is its own residue -/
theorem bmod_eq_self_iff (x : ℤ) : x.bmod (2 ^ 64) = x ↔ -2 ^ 63 ≤ x ∧ x < 2 ^ 63 := by
  rw [Int.bmod_def]
  constructor
  · intro h
    split_ifs at h <;> omega
  · intro h
    split_ifs <;> omega

/-- a fee keeps its value as an i64 exactly below 2^63 -/
theorem castI64_eq_self_iff (n : ℕ) : castI64 n = n ↔ n < 2 ^ 63 := by
  unfold castI64
  rw [bmod_eq_self_iff]
  omega

/-! ## What is meant -/

/-- the fee delta of a replacement -/
def MempoolWsRbfTx.feeDelta (rbf : MempoolWsRbfTx) : ℤ := (rbf.newFeeSats : ℤ) - rbf.oldFeeSats

/-- the observation of a part is exact, and the detector sees the replacement -/
def FeedItem.Exact : FeedItem → Observation → Prop
  | .block w, .block b => b.weight = if w.weight > 0 then w.weight else 4 * w.size
  | .rbf x, .replacement r =>
    r.feeDeltaSats = x.feeDelta ∧ RbfDetector.feeDelta r = x.feeDelta ∧
      (r.replacementTxid ≠ "" → r.replacedTxids ≠ [] → ∀ fresh, ∃ event ∈ RbfDetector.detect fresh (.replacement r),
        event.metadata.get "fee_delta_sats" = some (.int x.feeDelta))
  | .info _, .mempool _ => True
  | .tx _, .transaction _ => True
  | _, _ => False

/-- no product, cast or difference wraps -/
def FeedItem.NoWrap : FeedItem → Prop
  | .block w => w.weight = 0 → w.size * 4 < 2 ^ 64
  | .rbf x =>
    castI64 x.newFeeSats = x.newFeeSats ∧ castI64 x.oldFeeSats = x.oldFeeSats ∧
      -2 ^ 63 ≤ castI64 x.newFeeSats - castI64 x.oldFeeSats ∧ castI64 x.newFeeSats - castI64 x.oldFeeSats < 2 ^ 63
  | _ => True

/-- the title's 12 bytes do not cut a character, where there is a title -/
def MempoolWsRbfTx.Sliceable (rbf : MempoolWsRbfTx) : Prop :=
  rbf.txid ≠ "" → rbf.replaced ≠ [] → IsCharBoundary (min 12 (utf8Length rbf.txid.toList)) rbf.txid.toList

/-- when the observation is exact -/
def FeedItem.Fits : FeedItem → Prop
  | .block w => 0 < w.weight ∨ w.size < 2 ^ 62
  | .rbf x => (-2 ^ 63 ≤ x.feeDelta ∧ x.feeDelta < 2 ^ 63) ∧ x.Sliceable
  | _ => True

/-- when nothing wraps either -/
def FeedItem.FitsThroughout : FeedItem → Prop
  | .block w => 0 < w.weight ∨ w.size < 2 ^ 62
  | .rbf x => (x.newFeeSats < 2 ^ 63 ∧ x.oldFeeSats < 2 ^ 63) ∧ x.Sliceable
  | _ => True

theorem FeedItem.FitsThroughout.fits {item : FeedItem} (h : item.FitsThroughout) : item.Fits := by
  cases item with
  | info i => exact h
  | tx t => exact h
  | block w => exact h
  | rbf x =>
    obtain ⟨⟨hnew, hold⟩, hsliceable⟩ := h
    refine ⟨⟨?_, ?_⟩, hsliceable⟩ <;> unfold MempoolWsRbfTx.feeDelta <;> omega

/-! ## One part -/

theorem detect_replacement (fresh : Fresh) (r : TransactionReplacement) (htxid : r.replacementTxid ≠ "")
    (hreplaced : r.replacedTxids ≠ []) :
    RbfDetector.detect fresh (.replacement r) =
      ((slicePrefix 12 r.replacementTxid.toList).map (RbfDetector.report fresh r)).toList := by
  unfold RbfDetector.detect
  dsimp only
  rw [if_neg (by simp [htxid, hreplaced])]

theorem get_report_feeDelta (fresh : Fresh) (r : TransactionReplacement) (shown : List Char) :
    (RbfDetector.report fresh r shown).metadata.get "fee_delta_sats" = some (.int (RbfDetector.feeDelta r)) := by
  unfold RbfDetector.report
  generalize RbfDetector.feeDelta r = delta
  rfl

/-- conversion and detector compute one residue -/
theorem feeDelta_intoObservation (x : MempoolWsRbfTx) (now : DateTime) (endpoint : String) :
    (x.intoObservation now endpoint).feeDeltaSats = x.feeDelta.bmod (2 ^ 64) ∧
      RbfDetector.feeDelta (x.intoObservation now endpoint) = x.feeDelta.bmod (2 ^ 64) := by
  unfold MempoolWsRbfTx.intoObservation MempoolWsRbfTx.feeDelta RbfDetector.feeDelta
  dsimp only
  exact ⟨subI64_castI64 x.newFeeSats x.oldFeeSats, rfl⟩

theorem exact_iff (now : DateTime) (endpoint : String) (item : FeedItem) :
    item.Exact (item.intoObservation now endpoint) ↔ item.Fits := by
  cases item with
  | info i => exact Iff.rfl
  | tx t => exact Iff.rfl
  | block w =>
    show (if w.weight > 0 then w.weight else w.size * 4 % 2 ^ 64) = _ ↔ _
    by_cases hweight : w.weight > 0
    · simp [FeedItem.Fits, hweight]
    · rw [if_neg hweight, if_neg hweight, FeedItem.Fits]
      omega
  | rbf x =>
    obtain ⟨hconversion, hdelta⟩ := feeDelta_intoObservation x now endpoint
    have hslice := slicePrefix_isSome_iff 12 x.txid.toList
    simp only [FeedItem.intoObservation, FeedItem.Exact, FeedItem.Fits, hdelta, hconversion]
    constructor
    · intro ⟨hexact, _, hevent⟩
      refine ⟨(bmod_eq_self_iff _).1 hexact, ?_⟩
      intro htxid hreplaced
      obtain ⟨event, hmem, -⟩ := hevent htxid hreplaced ⟨0, 0, 0⟩
      rw [detect_replacement _ _ htxid hreplaced, Option.mem_toList, Option.map_eq_some_iff] at hmem
      obtain ⟨shown, hshown, -⟩ := hmem
      exact hslice.1 (Option.isSome_of_eq_some hshown)
    · intro ⟨hrange, hsliceable⟩
      have hexact : x.feeDelta.bmod (2 ^ 64) = x.feeDelta := (bmod_eq_self_iff _).2 hrange
      refine ⟨hexact, hexact, ?_⟩
      intro htxid hreplaced fresh
      obtain ⟨shown, hshown⟩ := Option.isSome_iff_exists.1 (hslice.2 (hsliceable htxid hreplaced))
      refine ⟨RbfDetector.report fresh (x.intoObservation now endpoint) shown, ?_, ?_⟩
      · rw [detect_replacement _ _ htxid hreplaced, Option.mem_toList, Option.map_eq_some_iff]
        exact ⟨shown, hshown, rfl⟩
      · have hget := get_report_feeDelta fresh (x.intoObservation now endpoint) shown
        rwa [hdelta, hexact] at hget

theorem noWrap_iff (item : FeedItem) (hfits : item.Fits) : item.NoWrap ↔ item.FitsThroughout := by
  cases item with
  | info i => exact Iff.rfl
  | tx t => exact Iff.rfl
  | block w =>
    simp only [FeedItem.NoWrap, FeedItem.FitsThroughout]
    omega
  | rbf x =>
    have hsliceable : x.Sliceable := hfits.2
    simp only [FeedItem.NoWrap, FeedItem.FitsThroughout]
    constructor
    · intro ⟨hnew, hold, _⟩
      exact ⟨⟨(castI64_eq_self_iff _).1 hnew, (castI64_eq_self_iff _).1 hold⟩, hsliceable⟩
    · intro ⟨⟨hnew, hold⟩, _⟩
      -- of two fees below 2^63 the difference is in range too
      rw [(castI64_eq_self_iff _).2 hnew, (castI64_eq_self_iff _).2 hold]
      refine ⟨rfl, rfl, ?_, ?_⟩ <;> omega

/-! ## A frame -/

/-- the parts are observed one by one -/
theorem forall₂_mapIdx_iff {α β : Type} {R : α → β → Prop} {P : α → Prop} (l : List α) (f : ℕ → α → β)
    (h : ∀ i a, R a (f i a) ↔ P a) : List.Forall₂ R l (l.mapIdx f) ↔ ∀ a ∈ l, P a := by
  induction l generalizing f with
  | nil => simp
  | cons a l ih =>
    rw [List.mapIdx_cons, List.forall₂_cons, List.forall_mem_cons, h, ih (fun i => f (i + 1)) fun i b => h (i + 1) b]

/-- a frame with a block without weight and two replacements -/
def frame (size fee : ℕ) (txid : String) : Value :=
  .object [
    ("block", .object [("id", .string "b"), ("height", .nat 1), ("timestamp", .nat 0), ("tx_count", .nat 1),
      ("size", .nat size)]),
    ("rbfTransaction", .object [("txid", .string "a"), ("replaces", .array [.string "c"]), ("fee", .nat fee)]),
    ("rbfTransactions", .array [.object [("txid", .string txid), ("replaces", .array [.string "c"])]])]

def frameText (size fee : ℕ) (txid : String) : String :=
  "\x7b\"block\":\x7b\"id\":\"b\",\"height\":1,\"timestamp\":0,\"tx_count\":1,\"size\":" ++ toString size ++
    "\x7d,\"rbfTransaction\":\x7b\"txid\":\"a\",\"replaces\":[\"c\"],\"fee\":" ++ toString fee ++
    "\x7d,\"rbfTransactions\":[\x7b\"txid\":\"" ++ txid ++ "\",\"replaces\":[\"c\"]\x7d]\x7d"

/-- serde_json on the one text -/
def frameFromStr (size fee : ℕ) (txid text : String) : Option Value :=
  if text = frameText size fee txid then some (frame size fee txid) else none

def frameEnvelope (size fee : ℕ) (txid : String) : MempoolWsEnvelope where
  block := some ⟨"b", 1, none, 0, 1, size, 0, none⟩
  blocks := none
  mempoolInfo := none
  tx := none
  transactions := none
  rbfTransaction := some ⟨"a", ["c"], none, some fee, none, none, none, none⟩
  rbfTransactions := some [⟨txid, ["c"], none, none, none, none, none, none⟩]

/-- **The feed's arithmetic is exact for every part exactly when every part fits**, and nothing wraps on the way exactly
when every part fits throughout. -/
theorem feed_arithmetic_iff (fromStr : String → Option Value) (clock : ℕ → DateTime) (text endpoint : String)
    (observations : List Observation) (hparse : parseWsFrame fromStr clock text endpoint = some observations) :
    ∃ envelope, decodeFrame fromStr text = some envelope ∧
      (List.Forall₂ FeedItem.Exact envelope.items observations ↔ ∀ item ∈ envelope.items, item.Fits) ∧
      (List.Forall₂ (fun item observation => item.Exact observation ∧ item.NoWrap) envelope.items observations ↔
        ∀ item ∈ envelope.items, item.FitsThroughout) := by
  obtain ⟨envelope, hdecode, rfl⟩ := Option.map_eq_some_iff.1 hparse
  refine ⟨envelope, hdecode, ?_, ?_⟩
  · exact forall₂_mapIdx_iff _ _ fun i item => exact_iff (clock i) endpoint item
  · refine forall₂_mapIdx_iff _ _ fun i item => ?_
    rw [exact_iff (clock i) endpoint item, and_congr_right_iff.2 (noWrap_iff item), and_iff_right_iff_imp]
    exact FeedItem.FitsThroughout.fits

theorem feed_arithmetic_iff_plain :
    parseWsFrame (frameFromStr 100 500 "ab") (fun _ => 0) (frameText 100 500 "ab") "wss" =
        some ((frameEnvelope 100 500 "ab").items.map (FeedItem.intoObservation 0 "wss")) ∧
      List.Forall₂ (fun item observation => item.Exact observation ∧ item.NoWrap) (frameEnvelope 100 500 "ab").items
        ((frameEnvelope 100 500 "ab").items.map (FeedItem.intoObservation 0 "wss")) := by
  have hdecode : decodeFrame (frameFromStr 100 500 "ab") (frameText 100 500 "ab") = some (frameEnvelope 100 500 "ab") := by
    rw [decodeFrame, frameFromStr, if_pos rfl, Option.bind_some]
    rfl
  have hparse : parseWsFrame (frameFromStr 100 500 "ab") (fun _ => 0) (frameText 100 500 "ab") "wss" =
      some ((frameEnvelope 100 500 "ab").items.map (FeedItem.intoObservation 0 "wss")) := by
    rw [parseWsFrame, hdecode]
    rfl
  obtain ⟨envelope, henvelope, -, hwrap⟩ := feed_arithmetic_iff _ _ _ _ _ hparse
  obtain rfl : frameEnvelope 100 500 "ab" = envelope := Option.some.inj (hdecode.symm.trans henvelope)
  refine ⟨hparse, hwrap.2 ?_⟩
  intro item hitem
  have hcases : item = .block ⟨"b", 1, none, 0, 1, 100, 0, none⟩ ∨
      item = .rbf ⟨"a", ["c"], none, some 500, none, none, none, none⟩ ∨
      item = .rbf ⟨"ab", ["c"], none, none, none, none, none, none⟩ := by
    simpa [frameEnvelope, MempoolWsEnvelope.items] using hitem
  rcases hcases with rfl | rfl | rfl
  · exact Or.inr (by decide)
  · exact ⟨⟨by decide, by decide⟩, fun _ _ => ⟨['a'], by decide, by decide⟩⟩
  · exact ⟨⟨by decide, by decide⟩, fun _ _ => ⟨['a', 'b'], by decide, by decide⟩⟩

/-- **Wrapped and lost**: a weight of zero for a block of 2^62 bytes, a fee of 2^63 as a negative delta, and no event for a
replacement whose txid has a character across byte 12. -/
theorem feed_arithmetic_lost : ∃ b r c,
    parseWsFrame (frameFromStr (2 ^ 62) (2 ^ 63) "aaaaaaaaaaaé") (fun _ => 0)
        (frameText (2 ^ 62) (2 ^ 63) "aaaaaaaaaaaé") "wss" = some [.block b, .replacement r, .replacement c] ∧
      (b.sizeBytes = 2 ^ 62 ∧ b.weight = 0) ∧
      (r.newFeeSats = 2 ^ 63 ∧ r.oldFeeSats = 0 ∧ r.feeDeltaSats = -2 ^ 63 ∧ RbfDetector.feeDelta r = -2 ^ 63) ∧
      (c.replacementTxid = "aaaaaaaaaaaé" ∧ c.replacedTxids = ["c"] ∧
        ∀ fresh, RbfDetector.detect fresh (.replacement c) = []) := by
  refine ⟨MempoolWsBlock.intoObservation ⟨"b", 1, none, 0, 1, 2 ^ 62, 0, none⟩ 0 "wss",
    MempoolWsRbfTx.intoObservation ⟨"a", ["c"], none, some (2 ^ 63), none, none, none, none⟩ 0 "wss",
    MempoolWsRbfTx.intoObservation ⟨"aaaaaaaaaaaé", ["c"], none, none, none, none, none, none⟩ 0 "wss", ?_, ⟨rfl, ?_⟩,
    ⟨rfl, rfl, ?_, ?_⟩, rfl, rfl, ?_⟩
  · rw [parseWsFrame, decodeFrame, frameFromStr, if_pos rfl, Option.bind_some]
    rfl
  · decide
  · decide
  · decide
  · intro fresh
    rfl

end MempoolWs

end ObsChain
