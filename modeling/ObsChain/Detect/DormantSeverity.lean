/-
Dormant severity, as more inputs qualify (`dormant.rs`).

Live RPC enrichment gives a spent output a confirmation time in whole seconds and no height. On such contexts the time that
`classify` reads is the spending time less the largest age, so the class depends on that age alone (`classification_eq`) and
grows with it. `needed` is the value from which a class reaches a severity: the four ladders are its rows, and an older
class never needs more.

- `event_kept`: one more input keeps an event, its class and its severity, unless the count of qualifying inputs is then a
  multiple of 2^32, where the u32 counter is back at zero (`counter_wraps_event_lost`).
- `dormant_severity_monotone`: a transaction has fewer inputs, so it always keeps them.
-/
import Mathlib.Tactic
import ObsChain.Detect.DormantCoins

namespace ObsChain

/-- the order of `EventSeverity` -/
def EventSeverity.level : EventSeverity → ℕ
  | .info => 0
  | .low => 1
  | .medium => 2
  | .high => 3
  | .critical => 4

/-- Dormant < VeryOld < Ancient < EarlyBitcoin -/
def DormantClassification.level : DormantClassification → ℕ
  | .dormant => 0
  | .veryOld => 1
  | .ancient => 2
  | .earlyBitcoin => 3

namespace DormantCoinDetector

open ObsChain.OrderStatistics

/-! ## The value ladders -/

/-- the value in BTC from which a class has at least a severity -/
def needed : DormantClassification → EventSeverity → ℕ
  | .earlyBitcoin, .critical => 50
  | .earlyBitcoin, .high => 1
  | .ancient, .critical => 100
  | .ancient, .high => 10
  | .veryOld, .critical => 200
  | .veryOld, .high => 50
  | .veryOld, .medium => 5
  | .dormant, .critical => 500
  | .dormant, .high => 100
  | .dormant, .medium => 10
  | _, _ => 0

theorem le_btcOfSats {n sats : ℕ} : (n : ℚ) ≤ btcOfSats sats ↔ n * satsPerBtc ≤ sats := by
  unfold btcOfSats
  rw [le_div_iff₀ (by norm_num [satsPerBtc])]
  exact_mod_cast Iff.rfl

/-- the ladder of a class, in satoshis -/
theorem determineSeverity_eq (c : DormantClassification) (sats : ℕ) :
    determineSeverity c sats =
      if needed c .critical * satsPerBtc ≤ sats then .critical
      else if needed c .high * satsPerBtc ≤ sats then .high
      else if needed c .medium * satsPerBtc ≤ sats then .medium
      else .low := by
  have hpos : (0 : ℚ) ≤ btcOfSats sats := by
    unfold btcOfSats
    positivity
  cases c <;> simp only [determineSeverity, needed, ge_iff_le, ← le_btcOfSats, Nat.cast_ofNat, Nat.cast_one, Nat.cast_zero,
    hpos, if_true]

theorem needed_rungs (c : DormantClassification) :
    needed c .info = 0 ∧ needed c .low = 0 ∧ needed c .medium ≤ needed c .high ∧ needed c .high ≤ needed c .critical := by
  cases c <;> decide

/-- where a value stands on a ladder -/
theorem level_le_of_ladder {sats medium high critical : ℕ} (hmedium : medium ≤ high) (hhigh : high ≤ critical)
    {severity : EventSeverity}
    (h : severity = if critical ≤ sats then .critical else if high ≤ sats then .high
      else if medium ≤ sats then .medium else .low) :
    1 ≤ severity.level ∧ (2 ≤ severity.level ↔ medium ≤ sats) ∧ (3 ≤ severity.level ↔ high ≤ sats) ∧
      (4 ≤ severity.level ↔ critical ≤ sats) := by
  subst h
  split_ifs <;> simp only [EventSeverity.level] <;> omega

/-- a severity is reached exactly from the value it needs -/
theorem level_le_determineSeverity (c : DormantClassification) (sats : ℕ) (s : EventSeverity) :
    s.level ≤ (determineSeverity c sats).level ↔ needed c s * satsPerBtc ≤ sats := by
  obtain ⟨hinfo, hlow, hmedium, hhigh⟩ := needed_rungs c
  obtain ⟨hleast, hladder⟩ := level_le_of_ladder (Nat.mul_le_mul_right satsPerBtc hmedium)
    (Nat.mul_le_mul_right satsPerBtc hhigh) (determineSeverity_eq c sats)
  cases s with
  | info => simp [EventSeverity.level, hinfo]
  | low => simpa [EventSeverity.level, hlow] using hleast
  | medium => exact hladder.1
  | high => exact hladder.2.1
  | critical => exact hladder.2.2

/-- an older class never needs more -/
theorem needed_anti {c c' : DormantClassification} (h : c.level ≤ c'.level) (s : EventSeverity) :
    needed c' s ≤ needed c s := by
  cases c <;> cases c' <;> cases s <;> simp [DormantClassification.level, needed] at h ⊢

/-- **The ladders are ordered**: an older class with more value is no less severe. -/
theorem determineSeverity_mono {c c' : DormantClassification} {sats sats' : ℕ} (hc : c.level ≤ c'.level)
    (hsats : sats ≤ sats') : (determineSeverity c sats).level ≤ (determineSeverity c' sats').level := by
  have hreach : needed c (determineSeverity c sats) * satsPerBtc ≤ sats :=
    (level_le_determineSeverity c sats _).1 le_rfl
  apply (level_le_determineSeverity c' sats' _).2
  calc needed c' (determineSeverity c sats) * satsPerBtc
      ≤ needed c (determineSeverity c sats) * satsPerBtc := Nat.mul_le_mul_right _ (needed_anti hc _)
    _ ≤ sats := hreach
    _ ≤ sats' := hsats

/-! ## The class of an age -/

/-- the class of an output of the given age, spent at second `now` -/
def classOfAge (now : ℤ) (age : ℕ) : DormantClassification :=
  if age = 0 then .dormant else classify (age / 86400) (some (fromTimestamp (now - age))) none

theorem timestampSecs_fromTimestamp (secs : ℤ) : timestampSecs (fromTimestamp secs) = secs := by
  unfold timestampSecs fromTimestamp
  rw [Int.fdiv_eq_ediv_of_nonneg _ (by norm_num)]
  exact Int.mul_ediv_cancel secs (by norm_num)

theorem classOfAge_mono (now : ℤ) {age age' : ℕ} (h : age ≤ age') :
    (classOfAge now age).level ≤ (classOfAge now age').level := by
  by_cases hzero : age = 0
  · simp [classOfAge, hzero, DormantClassification.level]
  have hzero' : age' ≠ 0 := by omega
  have hdays : age / 86400 ≤ age' / 86400 := Nat.div_le_div_right h
  simp only [classOfAge, if_neg hzero, if_neg hzero', classify, Option.any_none, Option.any_some,
    timestampSecs_fromTimestamp, decide_eq_true_eq, Bool.false_eq_true, if_false]
  split_ifs <;> simp only [DormantClassification.level] <;> omega

/-! ## Contexts of live enrichment -/

/-- confirmed at a whole second, at no known height -/
def Stamped (u : SpentOutputContext) : Prop := u.confirmedHeight = none ∧ ∃ secs, u.confirmedAt = some (fromTimestamp secs)

/-- the spending second -/
def now (tx : TransactionObservation) : ℤ := tx.timestamp / 1000000000

variable {d : DormantCoinDetector} {tx tx' : TransactionObservation}

/-- a positive age and the spending second give the confirmation second -/
theorem secs_of_age {t : DateTime} {secs : ℤ} (hpos : 0 < (secondsSince t (fromTimestamp secs)).toNat) :
    secs = t / 1000000000 - (secondsSince t (fromTimestamp secs)).toNat := by
  have hsince : 0 < secondsSince t (fromTimestamp secs) := by omega
  have hdiff : 0 ≤ t - fromTimestamp secs := by
    by_contra hneg
    have hnonpos : secondsSince t (fromTimestamp secs) ≤ 0 := seconds_nonpos (not_le.1 hneg).le
    omega
  have hsecs : secondsSince t (fromTimestamp secs) = t / 1000000000 - secs := by
    unfold secondsSince
    rw [Int.tdiv_eq_ediv_of_nonneg hdiff, fromTimestamp, Int.sub_mul_ediv_right t secs (by norm_num)]
  omega

theorem ageSecs_of_time {u : SpentOutputContext} {t : DateTime} (hat : u.confirmedAt = some t) :
    ageSecs tx u = (secondsSince tx.timestamp t).toNat := by
  unfold ageSecs
  rw [hat]

theorem ageSecs_stamped {u : SpentOutputContext} (hu : Stamped u) : ageSecs tx u = age tx u := by
  obtain ⟨-, secs, hat⟩ := hu
  unfold ageSecs age
  rw [hat]

/-- **The class depends on the largest age alone.** -/
theorem classification_eq (hctx : ∀ u ∈ contexts tx, Stamped u) :
    (record tx (tally d tx)).classification = classOfAge (now tx) (tally d tx).oldestAgeSeconds := by
  show classify ((tally d tx).oldestAgeSeconds / 86400) (tally d tx).oldestConfirmedAt (tally d tx).oldestConfirmedHeight = _
  rcases (sums_tally d tx).origin with ⟨hzero, hat, hheight⟩ | ⟨u, hu, hage, hpos, hat, hheight⟩
  · rw [hzero, hat, hheight]
    rfl
  · obtain ⟨hnone, secs, htime⟩ := hctx u (List.mem_of_mem_filter hu)
    rw [ageSecs_of_time htime] at hage
    have hsecs : secs = now tx - (tally d tx).oldestAgeSeconds := hage ▸ secs_of_age (hage ▸ hpos)
    rw [hat, hheight, hnone, htime, hsecs, classOfAge, if_neg (by omega)]

/-! ## One more input -/

/-- `tx'` spends one more input, somewhere among those of `tx` -/
structure Inserts (tx tx' : TransactionObservation) (input : TxInputObservation) : Prop where
  timestamp : tx'.timestamp = tx.timestamp
  inputs : ∃ pre post, tx.inputs = pre ++ post ∧ tx'.inputs = pre ++ input :: post

theorem Inserts.contexts_sublist {input : TxInputObservation} (h : Inserts tx tx' input) :
    (contexts tx).Sublist (contexts tx') := by
  obtain ⟨pre, post, hin, hin'⟩ := h.inputs
  unfold contexts
  rw [hin, hin']
  exact ((List.sublist_cons_self input post).append_left pre).filterMap _

/-- the ages are those of the earlier transaction -/
theorem Inserts.age_eq {input : TxInputObservation} (h : Inserts tx tx' input) {u : SpentOutputContext}
    (hu : Stamped u) : age tx' u = age tx u := by
  obtain ⟨-, secs, hat⟩ := hu
  unfold age
  rw [hat, h.timestamp]

theorem counted_stamped (hctx : ∀ u ∈ contexts tx, Stamped u) : counted d tx = qualifying d tx := by
  apply List.filter_congr
  intro u hu
  rw [ageSecs_stamped (hctx u hu)]

theorem Inserts.qualifying_sublist {input : TxInputObservation} (h : Inserts tx tx' input)
    (hctx : ∀ u ∈ contexts tx', Stamped u) : (qualifying d tx).Sublist (qualifying d tx') := by
  have hages : qualifying d tx = (contexts tx).filter fun u => d.minAgeDays ≤ age tx' u / 86400 := by
    apply List.filter_congr
    intro u hu
    rw [h.age_eq (hctx u (h.contexts_sublist.subset hu))]
  rw [hages]
  exact h.contexts_sublist.filter _

theorem Inserts.ages_subset {input : TxInputObservation} (h : Inserts tx tx' input)
    (hctx : ∀ u ∈ contexts tx', Stamped u) :
    (qualifying d tx).map (ageSecs tx) ⊆ (qualifying d tx').map (ageSecs tx') := by
  intro x hx
  obtain ⟨u, hu, rfl⟩ := List.mem_map.1 hx
  have hu' : u ∈ qualifying d tx' := (h.qualifying_sublist hctx).subset hu
  have hstamped : Stamped u := hctx u (List.mem_of_mem_filter hu')
  rw [ageSecs_stamped hstamped, ← h.age_eq hstamped, ← ageSecs_stamped hstamped]
  exact List.mem_map_of_mem hu'

/-- more outputs, no smaller a value -/
theorem saturatingValue_mono {l m : List SpentOutputContext} (h : l.Sublist m) : saturatingValue l ≤ saturatingValue m :=
  min_le_min_right _ ((h.map _).sum_le_sum fun _ _ => Nat.zero_le _)

/-- one more input keeps an event, where the counter is not back at zero -/
theorem event_kept (d : DormantCoinDetector) (fresh fresh' : Fresh) (tx tx' : TransactionObservation)
    (input : TxInputObservation) (hins : Inserts tx tx' input) (hctx : ∀ u ∈ contexts tx', Stamped u)
    (hcount : (qualifying d tx').length % 2 ^ 32 ≠ 0) :
    ∀ event ∈ d.detect fresh (.transaction tx), ∃ event' ∈ d.detect fresh' (.transaction tx'),
      event.severity.level ≤ event'.severity.level ∧
      (record tx (tally d tx)).classification.level ≤ (record tx' (tally d tx')).classification.level := by
  intro event hevent
  have hctx0 : ∀ u ∈ contexts tx, Stamped u := fun u hu => hctx u (hins.contexts_sublist.subset hu)
  have hsub : (qualifying d tx).Sublist (qualifying d tx') := hins.qualifying_sublist hctx
  have hsums : Sums tx (qualifying d tx) (tally d tx) := counted_stamped (d := d) hctx0 ▸ sums_tally d tx
  have hsums' : Sums tx' (qualifying d tx') (tally d tx') := counted_stamped (d := d) hctx ▸ sums_tally d tx'
  have hsats : (tally d tx).totalDormantSats ≤ (tally d tx').totalDormantSats := by
    rw [hsums.sats, hsums'.sats]
    exact saturatingValue_mono hsub
  have hold : (tally d tx).oldestAgeSeconds ≤ (tally d tx').oldestAgeSeconds := by
    rw [hsums.oldest, hsums'.oldest]
    exact foldl_max_mono (hins.ages_subset hctx) 0
  have hclass : (record tx (tally d tx)).classification.level ≤ (record tx' (tally d tx')).classification.level := by
    rw [classification_eq hctx0, classification_eq hctx, now, now, hins.timestamp]
    exact classOfAge_mono _ hold
  rw [detect_eq, counted_stamped hctx0] at hevent
  split_ifs at hevent with hreport
  · refine ⟨report fresh' tx' (tally d tx'), ?_, ?_, hclass⟩
    · rw [detect_eq, counted_stamped hctx, if_pos ⟨hcount, hreport.2.trans (saturatingValue_mono hsub)⟩]
      exact List.mem_singleton_self _
    · rw [List.mem_singleton.1 hevent]
      exact determineSeverity_mono hclass hsats
  · cases hevent

/-- **One more input**, qualifying or not, keeps an event and lowers neither its class nor its severity. -/
theorem dormant_severity_monotone (d : DormantCoinDetector) (fresh fresh' : Fresh) (tx tx' : TransactionObservation)
    (input : TxInputObservation) (hins : Inserts tx tx' input) (hctx : ∀ u ∈ contexts tx', Stamped u)
    (hfew : tx'.inputs.length < 2 ^ 32) :
    ∀ event ∈ d.detect fresh (.transaction tx), ∃ event' ∈ d.detect fresh' (.transaction tx'),
      event.severity.level ≤ event'.severity.level ∧
      (record tx (tally d tx)).classification.level ≤ (record tx' (tally d tx')).classification.level := by
  intro event hevent
  refine event_kept d fresh fresh' tx tx' input hins hctx ?_ event hevent
  -- an event has a qualifying input, which the later transaction has too
  have hsub := hins.qualifying_sublist (d := d) hctx
  have hsome : (qualifying d tx).length ≠ 0 := by
    intro hzero
    have hctx0 : ∀ u ∈ contexts tx, Stamped u := fun u hu => hctx u (hins.contexts_sublist.subset hu)
    rw [detect_eq, counted_stamped hctx0, if_neg (by simp [hzero])] at hevent
    cases hevent
  have hle := hsub.length_le
  have hbound := length_qualifying_le d tx'
  rw [Nat.mod_eq_of_lt (by omega)]
  omega

/-- one BTC of 2013, known by its time -/
def oneBtc : TxInputObservation := spending satsPerBtc none (some (fromTimestamp 1370000000))

/-- an output of 2010 -/
def fiftyBtc : TxInputObservation := spending (50 * satsPerBtc) none (some (fromTimestamp 1280000000))

theorem contexts_spendAll_oneBtc (n : ℕ) : ∀ u ∈ contexts (spendAll (List.replicate n oneBtc)), Stamped u := by
  intro u hu
  obtain ⟨input, hinput, hu⟩ := List.mem_filterMap.1 hu
  rw [List.eq_of_mem_replicate hinput] at hu
  cases hu
  exact ⟨rfl, _, rfl⟩

theorem dormant_severity_monotone_second :
    Inserts (spendAll [oneBtc]) (spendAll [oneBtc, fiftyBtc]) fiftyBtc ∧
    ∀ event ∈ DormantCoinDetector.default.detect ⟨0, 0, 0⟩ (.transaction (spendAll [oneBtc])),
      ∃ event' ∈ DormantCoinDetector.default.detect ⟨0, 0, 0⟩ (.transaction (spendAll [oneBtc, fiftyBtc])),
        event.severity.level ≤ event'.severity.level ∧
        (record (spendAll [oneBtc]) (tally .default (spendAll [oneBtc]))).classification.level ≤
          (record (spendAll [oneBtc, fiftyBtc]) (tally .default (spendAll [oneBtc, fiftyBtc]))).classification.level := by
  have hins : Inserts (spendAll [oneBtc]) (spendAll [oneBtc, fiftyBtc]) fiftyBtc :=
    ⟨rfl, [oneBtc], [], rfl, rfl⟩
  refine ⟨hins, dormant_severity_monotone .default _ _ _ _ fiftyBtc hins ?_ (by decide)⟩
  intro u hu
  simp only [contexts, spendAll, oneBtc, fiftyBtc, spending, List.filterMap_cons, List.filterMap_nil, List.mem_cons,
    List.not_mem_nil, or_false] at hu
  rcases hu with rfl | rfl <;> exact ⟨rfl, _, rfl⟩

theorem counted_spendAll_oneBtc (n : ℕ) : counted .default (spendAll (List.replicate n oneBtc)) =
    List.replicate n ⟨"aa", 0, satsPerBtc, none, some (fromTimestamp 1370000000)⟩ := by
  unfold counted contexts
  rw [spendAll, List.filterMap_replicate_of_some (show oneBtc.historicalUtxo = some _ from rfl)]
  apply List.filter_replicate_of_pos
  rw [ageSecs_of_time rfl]
  simp only [decide_eq_true_eq]
  decide

theorem detect_spendAll_oneBtc (n : ℕ) :
    DormantCoinDetector.default.detect ⟨0, 0, 0⟩ (.transaction (spendAll (List.replicate n oneBtc))) ≠ [] ↔
      n % 2 ^ 32 ≠ 0 := by
  have hvalue : n ≠ 0 → satsPerBtc ≤ min (n * satsPerBtc) (2 ^ 64 - 1) := by
    intro hn
    have hle : 1 * satsPerBtc ≤ n * satsPerBtc := Nat.mul_le_mul_right _ (Nat.one_le_iff_ne_zero.2 hn)
    unfold satsPerBtc at hle ⊢
    omega
  have hsats : saturatingValue (counted .default (spendAll (List.replicate n oneBtc))) =
      min (n * satsPerBtc) (2 ^ 64 - 1) := by
    rw [counted_spendAll_oneBtc, saturatingValue, List.map_replicate, List.sum_replicate, smul_eq_mul]
  rw [detect_eq, hsats, counted_spendAll_oneBtc, List.length_replicate]
  split_ifs with hreport
  · simpa using hreport.1
  · have hzero : n % 2 ^ 32 = 0 := by
      by_contra hne
      exact hreport ⟨hne, hvalue fun hn => hne (by rw [hn, Nat.zero_mod])⟩
    simpa using hzero

theorem inserts_oneBtc (n : ℕ) :
    Inserts (spendAll (List.replicate n oneBtc)) (spendAll (List.replicate (n + 1) oneBtc)) oneBtc :=
  ⟨rfl, [], List.replicate n oneBtc, rfl, List.replicate_succ⟩

/-- with 2^32 qualifying inputs the counter is zero, and the event of one input fewer is gone -/
theorem counter_wraps_event_lost :
    Inserts (spendAll (List.replicate (2 ^ 32 - 1) oneBtc)) (spendAll (List.replicate (2 ^ 32) oneBtc)) oneBtc ∧
    (∀ u ∈ contexts (spendAll (List.replicate (2 ^ 32) oneBtc)), Stamped u) ∧
    DormantCoinDetector.default.detect ⟨0, 0, 0⟩ (.transaction (spendAll (List.replicate (2 ^ 32 - 1) oneBtc))) ≠ [] ∧
    DormantCoinDetector.default.detect ⟨0, 0, 0⟩ (.transaction (spendAll (List.replicate (2 ^ 32) oneBtc))) = [] := by
  refine ⟨?_, contexts_spendAll_oneBtc _, ?_, ?_⟩
  · exact inserts_oneBtc (2 ^ 32 - 1)
  · exact (detect_spendAll_oneBtc _).2 (by norm_num)
  · by_contra hne
    exact (detect_spendAll_oneBtc _).1 hne (by norm_num)

end DormantCoinDetector

end ObsChain
