/-
Dormant coins, as a statement about the spent outputs (`dormant.rs`).

`qualifying` is the definition: the inputs with a context whose age, as an unbounded number, is at least the threshold. The
loop over the inputs keeps six accumulators; `Sums` says what each of them is over the outputs counted so far, a step
preserves it (`Sums.add`) and so does the run (`sums_tally`).

- `dormant_detection`: on transactions of fewer than 2^16 inputs and heights below 2^54 the detector reports exactly when
  an input qualifies and the saturating sum reaches the threshold, and the record it builds describes the qualifying
  inputs, in whatever order they stand.
-/
import Mathlib.Tactic
import ObsChain.Core.OrderStatistics
import ObsChain.Domain.Ranges
import ObsChain.Detect.Detectors

namespace ObsChain.DormantCoinDetector

open ObsChain.OrderStatistics

/-! ## The definition -/

/-- the outputs a transaction spends, where their context is known -/
def contexts (tx : TransactionObservation) : List SpentOutputContext := tx.inputs.filterMap (·.historicalUtxo)

/-- the age of a spent output in seconds, unbounded -/
def age (tx : TransactionObservation) (utxo : SpentOutputContext) : ℕ :=
  match utxo.confirmedAt, utxo.confirmedHeight, tx.blockHeight with
  | some confirmedAt, _, _ => (secondsSince tx.timestamp confirmedAt).toNat
  | none, some confirmedHeight, some txHeight => (txHeight - confirmedHeight) * 600
  | none, _, _ => 0

/-- the spent outputs that are old enough -/
def qualifying (d : DormantCoinDetector) (tx : TransactionObservation) : List SpentOutputContext :=
  (contexts tx).filter fun u => d.minAgeDays ≤ age tx u / 86400

/-- the value of some outputs, at most `u64::MAX` -/
def saturatingValue (l : List SpentOutputContext) : ℕ := min (l.map (·.valueSats)).sum (2 ^ 64 - 1)

/-- satoshi-days that some outputs destroy -/
def coinAge (tx : TransactionObservation) (l : List SpentOutputContext) : ℕ :=
  (l.map fun u => u.valueSats * (age tx u / 86400)).sum

/-- the record of an event -/
def record (tx : TransactionObservation) (t : Tally) : DormantCoinsMetadata where
  totalDormantSats := t.totalDormantSats
  totalDormantBtc := btcOfSats t.totalDormantSats
  dormantInputCount := t.qualifyingInputsCount
  totalInputCount := tx.inputCount % 2 ^ 32
  oldestInputAgeDays := t.oldestAgeSeconds / 86400
  oldestInputAgeSeconds := t.oldestAgeSeconds
  youngestQualifyingAgeDays := t.youngestQualifyingAgeSeconds / 86400
  totalInputSats := tx.totalInputSats
  totalOutputSats := tx.totalOutputSats
  dormantRatio := if tx.totalInputSats > 0 then t.totalDormantSats / tx.totalInputSats else 1
  coinAgeDestroyedSatsDays := t.coinAgeDestroyedSatsDays
  coinAgeDestroyedBtcDays := btcOfSats t.coinAgeDestroyedSatsDays
  coinAgeDestroyedBtcYears := btcOfSats t.coinAgeDestroyedSatsDays / (36525 / 100)
  classification := classify (t.oldestAgeSeconds / 86400) t.oldestConfirmedAt t.oldestConfirmedHeight

theorem metadata_report (fresh : Fresh) (tx : TransactionObservation) (t : Tally) :
    (report fresh tx t).metadata = (record tx t).toValue.getD (.object []) := rfl

/-- what a record says of the outputs that are old enough -/
structure Describes (d : DormantCoinDetector) (tx : TransactionObservation) (m : DormantCoinsMetadata) : Prop where
  count : m.dormantInputCount = (qualifying d tx).length
  sats : m.totalDormantSats = saturatingValue (qualifying d tx)
  coinAge : m.coinAgeDestroyedSatsDays = coinAge tx (qualifying d tx)
  oldestSeconds : IsGreatest {a | a ∈ (qualifying d tx).map (age tx)} m.oldestInputAgeSeconds
  oldestDays : IsGreatest {a | a ∈ (qualifying d tx).map (age tx · / 86400)} m.oldestInputAgeDays
  youngestDays : IsLeast {a | a ∈ (qualifying d tx).map (age tx · / 86400)} m.youngestQualifyingAgeDays

/-- the numbers of a record that are about the inputs that are old enough -/
def figures (m : DormantCoinsMetadata) : List ℕ :=
  [m.dormantInputCount, m.totalDormantSats, m.coinAgeDestroyedSatsDays, m.oldestInputAgeSeconds, m.oldestInputAgeDays,
    m.youngestQualifyingAgeDays]

/-! ## The loop -/

/-- what the accumulators are after the outputs `l` -/
structure Sums (tx : TransactionObservation) (l : List SpentOutputContext) (t : Tally) : Prop where
  count : t.qualifyingInputsCount = l.length % 2 ^ 32
  sats : t.totalDormantSats = saturatingValue l
  coinAge : t.coinAgeDestroyedSatsDays = min (l.map fun u => u.valueSats * (ageSecs tx u / 86400)).sum (2 ^ 128 - 1)
  oldest : t.oldestAgeSeconds = (l.map (ageSecs tx)).foldl max 0
  youngest : t.youngestQualifyingAgeSeconds = (l.map (ageSecs tx)).foldl min (2 ^ 64 - 1)
  /-- where the oldest output was confirmed; nothing is kept while every age is 0 -/
  origin : (t.oldestAgeSeconds = 0 ∧ t.oldestConfirmedAt = none ∧ t.oldestConfirmedHeight = none) ∨
    ∃ u ∈ l, ageSecs tx u = t.oldestAgeSeconds ∧ 0 < t.oldestAgeSeconds ∧ t.oldestConfirmedAt = u.confirmedAt ∧
      t.oldestConfirmedHeight = u.confirmedHeight

theorem Sums.start (tx : TransactionObservation) : Sums tx [] .start := by
  refine ⟨rfl, rfl, rfl, rfl, rfl, .inl ⟨rfl, rfl, rfl⟩⟩

/-- one more qualifying output -/
theorem Sums.add {tx : TransactionObservation} {l : List SpentOutputContext} {t : Tally} (h : Sums tx l t)
    (u : SpentOutputContext) : Sums tx (l ++ [u]) (t.add u (ageSecs tx u)) where
  count := by
    simp only [Tally.add, h.count, List.length_append, List.length_singleton]
    omega
  sats := by
    simp only [Tally.add, h.sats, saturatingAdd, saturatingValue, List.map_append, List.map_cons, List.map_nil,
      List.sum_append, List.sum_singleton]
    omega
  coinAge := by
    simp only [Tally.add, h.coinAge, List.map_append, List.map_cons, List.map_nil, List.sum_append, List.sum_singleton]
    omega
  oldest := by
    simp only [Tally.add, List.map_append, List.map_cons, List.map_nil, List.foldl_append, List.foldl_cons,
      List.foldl_nil, ← h.oldest]
    split_ifs <;> omega
  youngest := by
    simp only [Tally.add, List.map_append, List.map_cons, List.map_nil, List.foldl_append, List.foldl_cons,
      List.foldl_nil, ← h.youngest]
    exact min_comm _ _
  origin := by
    by_cases holder : ageSecs tx u > t.oldestAgeSeconds
    · refine .inr ⟨u, by simp, ?_⟩
      simp only [Tally.add, if_pos holder, true_and, and_true]
      omega
    · simp only [Tally.add, if_neg holder]
      rcases h.origin with hzero | ⟨v, hv, hage⟩
      · exact .inl hzero
      · exact .inr ⟨v, List.mem_append_left _ hv, hage⟩

theorem sums_foldl (tx : TransactionObservation) (l : List SpentOutputContext) :
    Sums tx l (l.foldl (fun t u => t.add u (ageSecs tx u)) .start) := by
  induction l using List.reverseRecOn with
  | nil => exact Sums.start tx
  | append_singleton l u ih =>
    rw [List.foldl_concat]
    exact ih.add u

/-- the outputs the loop counts -/
def counted (d : DormantCoinDetector) (tx : TransactionObservation) : List SpentOutputContext :=
  (contexts tx).filter fun u => d.minAgeDays ≤ ageSecs tx u / 86400

theorem tally_eq_foldl (d : DormantCoinDetector) (tx : TransactionObservation) :
    tally d tx = (counted d tx).foldl (fun t u => t.add u (ageSecs tx u)) .start := by
  unfold tally counted contexts
  generalize Tally.start = t
  induction tx.inputs generalizing t with
  | nil => rfl
  | cons input inputs ih =>
    rw [List.foldl_cons, ih, List.filterMap_cons]
    cases input.historicalUtxo with
    | none => rfl
    | some u =>
      dsimp only
      by_cases hage : ageSecs tx u / 86400 ≥ d.minAgeDays
      · rw [if_pos hage, List.filter_cons_of_pos (by simpa using hage), List.foldl_cons]
      · rw [if_neg hage, List.filter_cons_of_neg (by simpa using hage)]

/-- **The run of the loop.** -/
theorem sums_tally (d : DormantCoinDetector) (tx : TransactionObservation) : Sums tx (counted d tx) (tally d tx) := by
  rw [tally_eq_foldl]
  exact sums_foldl tx (counted d tx)

/-! ## Within the bounds of the types -/

variable {d : DormantCoinDetector} {tx : TransactionObservation}

/-- ten minutes a block do not wrap below 2^54 blocks -/
theorem ageSecs_eq_age (hheight : Below (2 ^ 54) tx.blockHeight) (u : SpentOutputContext) :
    ageSecs tx u = age tx u := by
  unfold ageSecs age
  cases hat : u.confirmedAt with
  | some t => rfl
  | none =>
    cases hconf : u.confirmedHeight with
    | none => rfl
    | some c =>
      cases hh : tx.blockHeight with
      | none => rfl
      | some h =>
        have hlt : h < 2 ^ 54 := hheight h hh
        dsimp only
        split_ifs with hgt
        · exact Nat.mod_eq_of_lt (by omega)
        · rw [Nat.sub_eq_zero_of_le (not_lt.1 hgt), zero_mul]

theorem counted_eq_qualifying (hheight : Below (2 ^ 54) tx.blockHeight) : counted d tx = qualifying d tx := by
  unfold counted qualifying
  simp only [ageSecs_eq_age hheight]

theorem length_qualifying_le (d : DormantCoinDetector) (tx : TransactionObservation) :
    (qualifying d tx).length ≤ tx.inputs.length :=
  (List.length_filter_le _ _).trans (List.length_filterMap_le _ _)

theorem typed_of_mem_qualifying (htx : tx.Typed) {u : SpentOutputContext} (hu : u ∈ qualifying d tx) : u.Typed := by
  obtain ⟨input, hinput, hu⟩ := List.mem_filterMap.1 (List.mem_of_mem_filter hu)
  exact htx.spent input hinput u hu

theorem age_lt (htx : tx.Typed) (hheight : Below (2 ^ 54) tx.blockHeight) {u : SpentOutputContext} (hu : u.Typed) :
    age tx u < 2 ^ 64 := by
  unfold age
  split
  next t hat =>
    have hlt := secondsSince_lt htx.timestamp (hu.confirmedAt t hat)
    omega
  next c h hnone hconf hh =>
    have hlt : h < 2 ^ 54 := hheight h hh
    omega
  next => norm_num

/-- **No overflow of the u128.** Fewer than 2^16 terms, each below 2^112. -/
theorem coinAge_lt (htx : tx.Typed) (hheight : Below (2 ^ 54) tx.blockHeight) (hinputs : tx.inputs.length < 2 ^ 16) :
    coinAge tx (qualifying d tx) < 2 ^ 128 := by
  have hterm : ∀ x ∈ (qualifying d tx).map (fun u => u.valueSats * (age tx u / 86400)), x ≤ 2 ^ 112 := by
    intro x hx
    obtain ⟨u, hu, rfl⟩ := List.mem_map.1 hx
    have htyped := typed_of_mem_qualifying htx hu
    have hdays : age tx u / 86400 ≤ 2 ^ 48 := by
      have hage := age_lt htx hheight htyped
      omega
    calc u.valueSats * (age tx u / 86400) ≤ 2 ^ 64 * 2 ^ 48 := Nat.mul_le_mul htyped.valueSats.le hdays
      _ = 2 ^ 112 := by norm_num
  have hlen := (length_qualifying_le d tx).trans_lt hinputs
  calc coinAge tx (qualifying d tx)
      ≤ (qualifying d tx).length * 2 ^ 112 := by simpa [coinAge] using List.sum_le_card_nsmul _ _ hterm
    _ < 2 ^ 16 * 2 ^ 112 := by omega
    _ = 2 ^ 128 := by norm_num

/-- whole days keep the order of the seconds -/
theorem days_mono : Monotone fun secs : ℕ => secs / 86400 := fun _ _ h => Nat.div_le_div_right h

theorem map_days (l : List SpentOutputContext) :
    {a | a ∈ l.map (age tx · / 86400)} = (fun secs => secs / 86400) '' {a | a ∈ l.map (age tx)} := by
  ext a
  simp

theorem describes_record (htx : tx.Typed) (hheight : Below (2 ^ 54) tx.blockHeight)
    (hinputs : tx.inputs.length < 2 ^ 16) (hsome : qualifying d tx ≠ []) :
    Describes d tx (record tx (tally d tx)) := by
  have hsums : Sums tx (qualifying d tx) (tally d tx) := counted_eq_qualifying (d := d) hheight ▸ sums_tally d tx
  have hages : (qualifying d tx).map (ageSecs tx) = (qualifying d tx).map (age tx) :=
    List.map_congr_left fun u _ => ageSecs_eq_age hheight u
  have hne : (qualifying d tx).map (age tx) ≠ [] := by simpa using hsome
  have hlen := (length_qualifying_le d tx).trans_lt hinputs
  have hold : IsGreatest {a | a ∈ (qualifying d tx).map (age tx)} (tally d tx).oldestAgeSeconds := by
    rw [hsums.oldest, hages]
    exact isGreatest_foldl_max hne fun _ _ => Nat.zero_le _
  have hyoung : IsLeast {a | a ∈ (qualifying d tx).map (age tx)} (tally d tx).youngestQualifyingAgeSeconds := by
    rw [hsums.youngest, hages]
    refine isLeast_foldl_min hne ?_
    intro x hx
    obtain ⟨u, hu, rfl⟩ := List.mem_map.1 hx
    have hlt := age_lt htx hheight (typed_of_mem_qualifying htx hu)
    omega
  refine ⟨?_, hsums.sats, ?_, hold, ?_, ?_⟩
  · show (tally d tx).qualifyingInputsCount = _
    rw [hsums.count]
    omega
  · show (tally d tx).coinAgeDestroyedSatsDays = _
    have hlt := coinAge_lt (d := d) htx hheight hinputs
    rw [hsums.coinAge]
    simp only [ageSecs_eq_age hheight]
    exact min_eq_left (by unfold coinAge at hlt; omega)
  · rw [map_days]
    exact days_mono.map_isGreatest hold
  · rw [map_days]
    exact days_mono.map_isLeast hyoung

/-- reported, when an output is counted and the sum reaches the threshold -/
theorem detect_eq (d : DormantCoinDetector) (fresh : Fresh) (tx : TransactionObservation) :
    d.detect fresh (.transaction tx) =
      if (counted d tx).length % 2 ^ 32 ≠ 0 ∧ d.minValueSats ≤ saturatingValue (counted d tx) then
        [report fresh tx (tally d tx)]
      else [] := by
  have hsums := sums_tally d tx
  simp only [detect, hsums.count, hsums.sats]
  split_ifs <;> first | rfl | omega

theorem detect_ne_nil_iff (fresh : Fresh) (hheight : Below (2 ^ 54) tx.blockHeight)
    (hinputs : tx.inputs.length < 2 ^ 16) :
    d.detect fresh (.transaction tx) ≠ [] ↔
      qualifying d tx ≠ [] ∧ d.minValueSats ≤ saturatingValue (qualifying d tx) := by
  have hlen := (length_qualifying_le d tx).trans_lt hinputs
  have hcount : (qualifying d tx).length % 2 ^ 32 ≠ 0 ↔ qualifying d tx ≠ [] := by
    rw [Nat.mod_eq_of_lt (by omega), Ne, List.length_eq_zero_iff]
  rw [detect_eq, counted_eq_qualifying hheight, ← hcount]
  split_ifs with hreport
  · simpa using hreport
  · simpa using hreport

/-! ## The order of the inputs -/

/-- the transaction with its inputs in another order -/
def reordered (tx : TransactionObservation) (inputs : List TxInputObservation) : TransactionObservation :=
  { tx with inputs := inputs }

theorem qualifying_reordered {inputs : List TxInputObservation} (hperm : inputs.Perm tx.inputs) :
    (qualifying d (reordered tx inputs)).Perm (qualifying d tx) :=
  (hperm.filterMap _).filter _

theorem Sums.perm {l m : List SpentOutputContext} {t t' : Tally} (h : Sums tx l t) (h' : Sums tx m t')
    (hperm : l.Perm m) :
    t.qualifyingInputsCount = t'.qualifyingInputsCount ∧ t.totalDormantSats = t'.totalDormantSats ∧
      t.coinAgeDestroyedSatsDays = t'.coinAgeDestroyedSatsDays ∧ t.oldestAgeSeconds = t'.oldestAgeSeconds ∧
      t.youngestQualifyingAgeSeconds = t'.youngestQualifyingAgeSeconds := by
  refine ⟨?_, ?_, ?_, ?_, ?_⟩
  · rw [h.count, h'.count, hperm.length_eq]
  · rw [h.sats, h'.sats, saturatingValue, saturatingValue, (hperm.map _).sum_eq]
  · rw [h.coinAge, h'.coinAge, (hperm.map _).sum_eq]
  · rw [h.oldest, h'.oldest, (hperm.map _).foldl_eq]
  · rw [h.youngest, h'.youngest, (hperm.map _).foldl_eq]

/-- **The figures do not depend on the order of the inputs.** -/
theorem figures_reordered {inputs : List TxInputObservation} (hperm : inputs.Perm tx.inputs) :
    figures (record (reordered tx inputs) (tally d (reordered tx inputs))) = figures (record tx (tally d tx)) := by
  have hcounted : (counted d (reordered tx inputs)).Perm (counted d tx) := (hperm.filterMap _).filter _
  have hsums : Sums tx (counted d (reordered tx inputs)) (tally d (reordered tx inputs)) := by
    obtain ⟨h1, h2, h3, h4, h5, h6⟩ := sums_tally d (reordered tx inputs)
    exact ⟨h1, h2, h3, h4, h5, h6⟩
  obtain ⟨hcount, hsats, hage, hold, hyoung⟩ := hsums.perm (sums_tally d tx) hcounted
  simp only [figures, record, hcount, hsats, hage, hold, hyoung]

/-! ## Dormant detection -/

/-- **Dormant detection is its definition.** -/
theorem dormant_detection (d : DormantCoinDetector) (fresh : Fresh) (tx : TransactionObservation) (htx : tx.Typed)
    (hinputs : tx.inputs.length < 2 ^ 16) (hheight : Below (2 ^ 54) tx.blockHeight) :
    (d.detect fresh (.transaction tx) ≠ [] ↔
      qualifying d tx ≠ [] ∧ d.minValueSats ≤ saturatingValue (qualifying d tx)) ∧
    (∀ event ∈ d.detect fresh (.transaction tx),
      event.metadata = (record tx (tally d tx)).toValue.getD (.object []) ∧ Describes d tx (record tx (tally d tx)) ∧
        coinAge tx (qualifying d tx) < 2 ^ 128) ∧
    ∀ inputs : List TxInputObservation, inputs.Perm tx.inputs →
      (d.detect fresh (.transaction (reordered tx inputs)) ≠ [] ↔ d.detect fresh (.transaction tx) ≠ []) ∧
      figures (record (reordered tx inputs) (tally d (reordered tx inputs))) = figures (record tx (tally d tx)) := by
  refine ⟨detect_ne_nil_iff fresh hheight hinputs, ?_, ?_⟩
  · intro event hevent
    have hsome := ((detect_ne_nil_iff fresh hheight hinputs).1 (List.ne_nil_of_mem hevent)).1
    rw [detect_eq] at hevent
    split_ifs at hevent
    · rw [List.mem_singleton.1 hevent]
      exact ⟨metadata_report fresh tx _, describes_record htx hheight hinputs hsome, coinAge_lt htx hheight hinputs⟩
    · cases hevent
  · intro inputs hperm
    refine ⟨?_, figures_reordered hperm⟩
    have hqual := qualifying_reordered (d := d) hperm
    have hheight' : Below (2 ^ 54) (reordered tx inputs).blockHeight := hheight
    have hinputs' : (reordered tx inputs).inputs.length < 2 ^ 16 := hperm.length_eq ▸ hinputs
    rw [detect_ne_nil_iff fresh hheight' hinputs', detect_ne_nil_iff fresh hheight hinputs, saturatingValue,
      saturatingValue, (hqual.map _).sum_eq, Ne, ← List.length_eq_zero_iff, hqual.length_eq, List.length_eq_zero_iff]

/-! ## A spend of each kind -/

/-- an input that spends an output of `value` with the given confirmation -/
def spending (value : ℕ) (height : Option ℕ) (time : Option DateTime) : TxInputObservation :=
  ⟨"aa", 0, 0, none, none, false, some ⟨"aa", 0, value, height, time⟩⟩

/-- a transaction at block 900000, in November 2023, with the given inputs -/
def spendAll (inputs : List TxInputObservation) : TransactionObservation :=
  ⟨"bb", fromTimestamp 1700000000, none, some 900000, 0, 0, 0, 0, none, 0, 0, inputs.length, 0, inputs, [], false, true,
    none⟩

theorem typed_spendAll {inputs : List TxInputObservation} (hlen : inputs.length < 2 ^ 64)
    (hspent : ∀ input ∈ inputs, ∀ u ∈ input.historicalUtxo, u.Typed) : (spendAll inputs).Typed := by
  refine ⟨?_, ?_, ?_, ?_, ?_, ?_, hlen, ?_, hspent, ?_⟩
  all_goals simp [spendAll, Representable, Below, fromTimestamp]

/-- one output known by its time, one by its height, one without a context and one that is young -/
def mixedSpend : TransactionObservation :=
  spendAll [spending 100000000 none (some (fromTimestamp 1300000000)), spending 7 (some 500000) none,
    { spending 5 none none with historicalUtxo := none }, spending 9 (some 899999) none]

theorem typed_mixedSpend : mixedSpend.Typed := by
  refine typed_spendAll (by decide) ?_
  simp [spending, SpentOutputContext.typed_iff, Representable, Below, fromTimestamp]

theorem dormant_detection_mixed : mixedSpend.Typed ∧
    (DormantCoinDetector.default.detect ⟨0, 0, 0⟩ (.transaction mixedSpend) ≠ [] ↔
      qualifying .default mixedSpend ≠ [] ∧ satsPerBtc ≤ saturatingValue (qualifying .default mixedSpend)) ∧
    (qualifying .default mixedSpend).length = 2 :=
  ⟨typed_mixedSpend,
    (dormant_detection .default ⟨0, 0, 0⟩ mixedSpend typed_mixedSpend (by decide) (by simp [mixedSpend, spendAll, Below])).1,
    by decide⟩

end ObsChain.DormantCoinDetector
