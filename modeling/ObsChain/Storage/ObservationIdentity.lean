/-
The identity of an observation, in Rust and in SQL (`build_discriminator` and `recompute_id` of `event.rs`, the index
`idx_event_obs_live_lifecycle_uniq` of `0005_event_observation_lifecycle.sql`, `save_event_observation` of
`postgres.rs`).

Rust makes the id of the text `obs:event:mode:provider:transport:kind:discriminator`; the discriminator is the block
hash, else the mempool sequence, else the source sequence, else the status, and a sequence is marked with a word before
it. SQL keeps one row per event, mode, provider, transport, kind and `COALESCE`; there the source sequence comes before
the mempool sequence, and no word marks a number. The two agree on what they tell apart unless both sequences are
present, or a number stands in one column of one observation and as a text or in another column of the other.

Model: `lifecycleKey` is the index expression. `Mark` says which of the four fields decides, with the fields that the
other side would have taken. `newV5` is the name-based UUID, injective on the key texts. `saveEventObservation` is the
insert with its conflict clause on the id.

Results, for every two observations that name no job and bear the id of their fields:
- `discriminator_agrees_iff`: two discriminators are equal in Rust exactly when in SQL iff the marks agree;
- `identity_agrees_iff`: equal ids go with equal index keys exactly when the observations are `ToldApart`;
- `not_runTogether_of_plain`, `toldApart_of_plain`: sources without a colon never run together: only the marks count there;
- `saveEventObservation_isSome`: where identities agree with the rows, the index refuses nothing;
  `saveEventObservation_eq_none`: a new id under a stored key is refused.
Witness: `two_sequences_collide` (two mempool sequences under one source sequence).

Not modelled: column widths, and `NUL` characters, which Postgres texts cannot hold.
-/
import Mathlib.Tactic
import ObsChain.Core.Text
import ObsChain.Core.Upsert
import ObsChain.Domain.Provenance
import ObsChain.Storage.InMemory

namespace ObsChain

namespace EventObservation

/-! ## The index -/

/-- `COALESCE(block_hash, source_sequence::text, mempool_sequence::text, confirmation_status, '')` -/
def coalesce (o : EventObservation) : String :=
  match o.blockHash, o.sourceSequence, o.mempoolSequence, o.confirmationStatus with
  | some bh, _, _, _ => bh
  | none, some sseq, _, _ => toString sseq
  | none, none, some mseq, _ => toString mseq
  | none, none, none, some status => status
  | none, none, none, none => ""

/-- the columns of `idx_event_obs_live_lifecycle_uniq` -/
structure LifecycleKey where
  eventId : Uuid
  observationMode : String
  provider : String
  transport : String
  observationKind : String
  discriminator : String
deriving DecidableEq, Repr

def lifecycleKey (o : EventObservation) : LifecycleKey :=
  ⟨o.eventId, o.mode.asStr, o.source.provider, o.source.transport, o.kind.asStr, o.coalesce⟩

/-- equal ids go with equal keys -/
def IdentityAgrees (o o' : EventObservation) : Prop := o.id = o'.id ↔ o.lifecycleKey = o'.lifecycleKey

/-! ## What decides -/

/-- a text is the block hash, or the status where there is no number -/
inductive Mark where
  | text (x : String)
  | mempool (mseq : ℕ) (sseq : Option ℕ)
  | source (sseq : ℕ)
deriving DecidableEq, Repr

def mark (o : EventObservation) : Mark :=
  match o.blockHash, o.mempoolSequence, o.sourceSequence with
  | some bh, _, _ => .text bh
  | none, some mseq, sseq => .mempool mseq sseq
  | none, none, some sseq => .source sseq
  | none, none, none => .text (o.confirmationStatus.getD "")

/-- a text is not the marked number, nor the bare one -/
def Unmistaken (x word : String) (marked bare : ℕ) : Prop := x ≠ word ++ toString marked ∧ x ≠ toString bare

/-- the marks that Rust and SQL tell apart alike; with both sequences SQL reads the source sequence -/
def Mark.Agrees : Mark → Mark → Prop
  | .text _, .text _ => True
  | .source _, .source _ => True
  | .mempool m s, .mempool m' s' => m = m' ↔ s.getD m = s'.getD m'
  | .mempool m s, .source s' => s.getD m ≠ s'
  | .source s, .mempool m' s' => s ≠ s'.getD m'
  | .text x, .mempool m s => Unmistaken x "mempool_seq:" m (s.getD m)
  | .mempool m s, .text x => Unmistaken x "mempool_seq:" m (s.getD m)
  | .text x, .source s => Unmistaken x "source_seq:" s s
  | .source s, .text x => Unmistaken x "source_seq:" s s

/-- the same event, mode, provider, transport and kind -/
def SameOrigin (o o' : EventObservation) : Prop :=
  o.eventId = o'.eventId ∧ o.mode = o'.mode ∧ o.source.provider = o'.source.provider ∧
    o.source.transport = o'.source.transport ∧ o.kind = o'.kind

def Mark.discriminator : Mark → String
  | .text x => x
  | .mempool m _ => "mempool_seq:" ++ toString m
  | .source s => "source_seq:" ++ toString s

/-- what the key text says after the event and the mode -/
def keyTail (o : EventObservation) : String :=
  o.source.provider ++ (":" ++ (o.source.transport ++ (":" ++ (o.kind.asStr ++ (":" ++ o.mark.discriminator)))))

/-- the parts of a text between its colons -/
def colonPieces (s : String) : List (List Char) := s.toList.splitOn ':'

/-- what lies between the colons of source, kind and deciding field -/
def pieces (o : EventObservation) : List (List Char) :=
  colonPieces o.source.provider ++ (colonPieces o.source.transport ++ (o.kind.asStr.toList :: colonPieces o.mark.discriminator))

/-- source, kind and deciding field of the same event and mode have the same pieces, wherever one field ends and the next
begins -/
def RunTogether (o o' : EventObservation) : Prop :=
  o.eventId = o'.eventId ∧ o.mode = o'.mode ∧ pieces o = pieces o'

/-- observations of one origin have marks that agree; others do not run together -/
def ToldApart (o o' : EventObservation) : Prop :=
  (SameOrigin o o' → o.mark.Agrees o'.mark) ∧ (¬ SameOrigin o o' → ¬ RunTogether o o')

/-! ## Discriminators -/

/-- the text SQL compares -/
def Mark.coalesced : Mark → String
  | .text x => x
  | .mempool m s => toString (s.getD m)
  | .source s => toString s

theorem buildDiscriminator_eq (o : EventObservation) :
    buildDiscriminator o.blockHash o.sourceSequence o.mempoolSequence o.confirmationStatus = o.mark.discriminator := by
  unfold buildDiscriminator mark
  rcases o.blockHash with _ | bh
  · rcases o.mempoolSequence with _ | mseq
    · rcases o.sourceSequence with _ | sseq
      · rcases o.confirmationStatus with _ | status
        · rfl
        · rfl
      · rfl
    · rfl
  · rfl

theorem coalesce_eq (o : EventObservation) : o.coalesce = o.mark.coalesced := by
  unfold coalesce mark
  rcases o.blockHash with _ | bh
  · rcases o.mempoolSequence with _ | mseq
    · rcases o.sourceSequence with _ | sseq
      · rcases o.confirmationStatus with _ | status
        · rfl
        · rfl
      · rfl
    · rcases o.sourceSequence with _ | sseq
      · rfl
      · rfl
  · rfl

/-- a word and a number -/
theorem word_inj {word : String} {n m : ℕ} : word ++ toString n = word ++ toString m ↔ n = m := by
  rw [Text.append_inj_of_length rfl, Text.toString_inj]
  exact and_iff_right rfl

theorem mempool_ne_source (m s : ℕ) : "mempool_seq:" ++ toString m ≠ "source_seq:" ++ toString s := by
  intro h
  have hhead := congrArg (fun x => x.toList.head?) h
  simp [String.toList_append] at hhead

/-- a text that is compared with a marked number in Rust and with a bare one in SQL -/
theorem unmistaken_iff {x word : String} {m n : ℕ} {c : Char} (hword : c ∈ word.toList) (hc : c.isDigit = false) :
    (x = word ++ toString m ↔ x = toString n) ↔ Unmistaken x word m n := by
  constructor
  · intro h
    refine ⟨fun hx => ?_, fun hx => ?_⟩
    · exact Text.toString_ne_of_not_digit hword hc (hx.symm.trans (h.1 hx))
    · exact Text.toString_ne_of_not_digit hword hc ((h.2 hx).symm.trans hx)
  · rintro ⟨hmarked, hbare⟩
    exact ⟨fun hx => absurd hx hmarked, fun hx => absurd hx hbare⟩

theorem unmistaken_mempool_iff {x : String} {m n : ℕ} :
    (x = "mempool_seq:" ++ toString m ↔ x = toString n) ↔ Unmistaken x "mempool_seq:" m n :=
  unmistaken_iff (c := 'm') (by decide) (by decide)

theorem unmistaken_source_iff {x : String} {m n : ℕ} :
    (x = "source_seq:" ++ toString m ↔ x = toString n) ↔ Unmistaken x "source_seq:" m n :=
  unmistaken_iff (c := 's') (by decide) (by decide)

/-- **Discriminators.** Rust and SQL tell two of them apart alike exactly when the marks agree. -/
theorem discriminator_agrees_iff (a b : Mark) :
    (a.discriminator = b.discriminator ↔ a.coalesced = b.coalesced) ↔ a.Agrees b := by
  cases a with
  | text x =>
    cases b with
    | text x' => exact ⟨fun _ => trivial, fun _ => Iff.rfl⟩
    | mempool m' s' => exact unmistaken_mempool_iff
    | source s' => exact unmistaken_source_iff
  | mempool m s =>
    cases b with
    | text x' =>
      simp only [Mark.discriminator, Mark.coalesced]
      rw [eq_comm, eq_comm (b := x')]
      exact unmistaken_mempool_iff
    | mempool m' s' =>
      simp only [Mark.discriminator, Mark.coalesced, Mark.Agrees]
      rw [word_inj, Text.toString_inj]
    | source s' =>
      simp only [Mark.discriminator, Mark.coalesced, Mark.Agrees]
      rw [Text.toString_inj, iff_false_left (mempool_ne_source m s')]
  | source s =>
    cases b with
    | text x' =>
      simp only [Mark.discriminator, Mark.coalesced]
      rw [eq_comm, eq_comm (b := x')]
      exact unmistaken_source_iff
    | mempool m' s' =>
      simp only [Mark.discriminator, Mark.coalesced, Mark.Agrees]
      rw [Text.toString_inj, iff_false_left (mempool_ne_source m' s).symm]
    | source s' =>
      simp only [Mark.discriminator, Mark.coalesced, Mark.Agrees]
      rw [word_inj, Text.toString_inj]
      exact ⟨fun _ => trivial, fun _ => Iff.rfl⟩

/-! ## Key texts -/

theorem kind_asStr_inj {k k' : EventObservationKind} (h : k.asStr = k'.asStr) : k = k' := by
  cases k <;> cases k' <;> first | rfl | exact absurd h (by decide)

theorem mode_asStr_inj {m m' : ObservationMode} (h : m.asStr = m'.asStr) : m = m' := by
  cases m <;> cases m' <;> first | rfl | exact absurd h (by decide)

theorem kind_asStr_no_colon (k : EventObservationKind) : ':' ∉ k.asStr.toList := by
  cases k <;> decide

theorem mode_asStr_no_colon (m : ObservationMode) : ':' ∉ m.asStr.toList := by
  cases m <;> decide

/-- the text that the id of an observation is made of -/
def keyText (o : EventObservation) : String :=
  identityKey o.eventId o.mode o.source o.kind o.replayJobId
    (some (buildDiscriminator o.blockHash o.sourceSequence o.mempoolSequence o.confirmationStatus))

theorem keyText_eq {o : EventObservation} (hjob : o.replayJobId = none) :
    keyText o = "obs:" ++ (hyphenated o.eventId ++ (":" ++ (o.mode.asStr ++ (":" ++ keyTail o)))) := by
  unfold keyText
  rw [buildDiscriminator_eq, hjob]
  unfold identityKey keyTail
  cases o.mode with
  | live => simp only [String.append_assoc, Option.getD_some]
  | historicalReplay => simp only [String.append_assoc, Option.getD_some]

theorem splitOn_keyTail (o : EventObservation) : (keyTail o).toList.splitOn ':' = pieces o := by
  have hcolon : ":".toList = [':'] := rfl
  have hkind : o.kind.asStr.toList.splitOn ':' = [o.kind.asStr.toList] := List.splitOn_eq_singleton (kind_asStr_no_colon o.kind)
  simp only [keyTail, String.toList_append, hcolon, List.singleton_append, List.splitOn_append_cons_self, hkind]
  rfl

/-- the pieces are the text -/
theorem keyTail_eq_iff {o o' : EventObservation} : keyTail o = keyTail o' ↔ pieces o = pieces o' := by
  rw [← splitOn_keyTail, ← splitOn_keyTail]
  constructor
  · intro h
    rw [h]
  · intro h
    have hjoined := congrArg (List.intercalate [':']) h
    rw [List.intercalate_splitOn, List.intercalate_splitOn] at hjoined
    exact String.toList_inj.1 hjoined

/-- event and mode are read back from the key text -/
theorem keyText_eq_iff {o o' : EventObservation} (hjob : o.replayJobId = none) (hjob' : o'.replayJobId = none) :
    keyText o = keyText o' ↔ RunTogether o o' := by
  have hlen : (hyphenated o.eventId).length = (hyphenated o'.eventId).length := by
    rw [length_hyphenated, length_hyphenated]
  rw [keyText_eq hjob, keyText_eq hjob', Text.append_inj_of_length rfl, Text.append_inj_of_length hlen,
    Text.append_inj_of_length rfl,
    Text.append_sep_inj (c := ':') rfl (mode_asStr_no_colon o.mode) (mode_asStr_no_colon o'.mode)]
  constructor
  · rintro ⟨-, hevent, -, hmode, htail⟩
    exact ⟨hyphenated_inj hevent, mode_asStr_inj hmode, keyTail_eq_iff.1 htail⟩
  · rintro ⟨hevent, hmode, hpieces⟩
    rw [hevent, hmode, keyTail_eq_iff.2 hpieces]
    exact ⟨rfl, rfl, rfl, rfl, rfl⟩

theorem lifecycleKey_eq_iff {o o' : EventObservation} :
    o.lifecycleKey = o'.lifecycleKey ↔ SameOrigin o o' ∧ o.mark.coalesced = o'.mark.coalesced := by
  simp only [lifecycleKey, LifecycleKey.mk.injEq, SameOrigin, coalesce_eq]
  constructor
  · rintro ⟨hevent, hmode, hprovider, htransport, hkind, hdisc⟩
    exact ⟨⟨hevent, mode_asStr_inj hmode, hprovider, htransport, kind_asStr_inj hkind⟩, hdisc⟩
  · rintro ⟨⟨hevent, hmode, hprovider, htransport, hkind⟩, hdisc⟩
    exact ⟨hevent, by rw [hmode], hprovider, htransport, by rw [hkind], hdisc⟩

/-- of one origin, observations run together when their discriminators are equal -/
theorem runTogether_iff {o o' : EventObservation} (h : SameOrigin o o') :
    RunTogether o o' ↔ o.mark.discriminator = o'.mark.discriminator := by
  obtain ⟨hevent, hmode, hprovider, htransport, hkind⟩ := h
  unfold RunTogether
  rw [← keyTail_eq_iff, keyTail, keyTail, hprovider, htransport, hkind]
  simp only [Text.append_inj_of_length rfl, true_and]
  exact ⟨fun h => h.2.2, fun h => ⟨hevent, hmode, h⟩⟩

/-- a source whose texts have no colon -/
def Plain (o : EventObservation) : Prop := ':' ∉ o.source.provider.toList ∧ ':' ∉ o.source.transport.toList

/-- **Plain sources.** Without a colon in provider and transport, only observations of one origin run together. -/
theorem not_runTogether_of_plain {o o' : EventObservation} (hplain : Plain o) (hplain' : Plain o')
    (h : ¬ SameOrigin o o') : ¬ RunTogether o o' := by
  rintro ⟨hevent, hmode, hpieces⟩
  have htail := keyTail_eq_iff.2 hpieces
  unfold keyTail at htail
  rw [Text.append_sep_inj (c := ':') rfl hplain.1 hplain'.1, Text.append_sep_inj (c := ':') rfl hplain.2 hplain'.2,
    Text.append_sep_inj (c := ':') rfl (kind_asStr_no_colon o.kind) (kind_asStr_no_colon o'.kind)] at htail
  obtain ⟨hprovider, htransport, hkind, -⟩ := htail
  exact h ⟨hevent, hmode, hprovider, htransport, kind_asStr_inj hkind⟩

/-- of plain sources only the marks must agree -/
theorem toldApart_of_plain {o o' : EventObservation} (hplain : Plain o) (hplain' : Plain o')
    (hmarks : SameOrigin o o' → o.mark.Agrees o'.mark) : ToldApart o o' :=
  ⟨hmarks, not_runTogether_of_plain hplain hplain'⟩

/-- **Identity.** Of two observations that name no job and bear the id of their fields, equal ids go with equal index
keys exactly when they are told apart. -/
theorem identity_agrees_iff (newV5 : String → Uuid) (o o' : EventObservation) (hjob : o.replayJobId = none)
    (hjob' : o'.replayJobId = none) (hid : o.id = idOf newV5 o) (hid' : o'.id = idOf newV5 o')
    (hinj : Set.InjOn newV5 {keyText o, keyText o'}) : IdentityAgrees o o' ↔ ToldApart o o' := by
  have hids : o.id = o'.id ↔ RunTogether o o' := by
    rw [hid, hid', ← keyText_eq_iff hjob hjob']
    exact hinj.eq_iff (Set.mem_insert _ _) (Set.mem_insert_of_mem _ rfl)
  unfold IdentityAgrees ToldApart
  by_cases horigin : SameOrigin o o'
  · have hkeys : o.lifecycleKey = o'.lifecycleKey ↔ o.mark.coalesced = o'.mark.coalesced := by
      rw [lifecycleKey_eq_iff]
      exact and_iff_right horigin
    rw [hids, runTogether_iff horigin, hkeys, discriminator_agrees_iff]
    exact ⟨fun h => ⟨fun _ => h, fun hnot => absurd horigin hnot⟩, fun h => h.1 horigin⟩
  · have hkeys : ¬ o.lifecycleKey = o'.lifecycleKey := fun h => horigin (lifecycleKey_eq_iff.1 h).1
    rw [iff_false_right hkeys, hids]
    exact ⟨fun h => ⟨fun h' => absurd h' horigin, fun _ => h⟩, fun h => h.2 horigin⟩

/-! ## Saving -/

/-- `ON CONFLICT (id) DO UPDATE` -/
def updateRow (o row : EventObservation) : EventObservation :=
  { row with
    source := o.source
    witness := o.witness
    confirmationStatus := o.confirmationStatus
    sourceSequence := o.sourceSequence
    mempoolSequence := o.mempoolSequence }

/-- the rows that name no job, after the upsert; the unique index is checked on them, and `none` is a refusal -/
def saveEventObservation (rows : List EventObservation) (o : EventObservation) : Option (List EventObservation) :=
  if !(fitsI64 o.blockHeight && fitsI64 o.mempoolSequence) then none
  else
    let rows' :=
      if rows.any (fun row => row.id == o.id) then rows.map fun row => if row.id = o.id then updateRow o row else row
      else rows ++ [o]
    if (rows'.map lifecycleKey).Nodup then some rows' else none

/-- an update of a row of the same key and block leaves the key -/
theorem lifecycleKey_updateRow {o row : EventObservation} (hkey : row.lifecycleKey = o.lifecycleKey)
    (hhash : row.blockHash = o.blockHash) : (updateRow o row).lifecycleKey = row.lifecycleKey := by
  have hcoalesce : (updateRow o row).coalesce = o.coalesce := by
    simp only [coalesce, updateRow, hhash]
  simp only [lifecycleKey, LifecycleKey.mk.injEq] at hkey ⊢
  obtain ⟨-, -, hprovider, htransport, -, hdisc⟩ := hkey
  exact ⟨rfl, rfl, hprovider.symm, htransport.symm, rfl, hcoalesce.trans hdisc.symm⟩

/-- **The index refuses nothing.** Where identities agree with the rows, and a row of the same id has the same block
hash, an observation whose values fit is saved. -/
theorem saveEventObservation_isSome {rows : List EventObservation} {o : EventObservation}
    (hrows : (rows.map lifecycleKey).Nodup) (hheight : fitsI64 o.blockHeight = true)
    (hseq : fitsI64 o.mempoolSequence = true) (hagree : ∀ row ∈ rows, IdentityAgrees row o)
    (hhash : ∀ row ∈ rows, row.id = o.id → row.blockHash = o.blockHash) :
    (saveEventObservation rows o).isSome = true := by
  unfold saveEventObservation
  rw [if_neg (by simp [hheight, hseq])]
  dsimp only
  rw [if_pos]
  · rfl
  · by_cases hany : rows.any (fun row => row.id == o.id) = true
    · have hkeys : (rows.map fun row => if row.id = o.id then updateRow o row else row).map lifecycleKey =
          rows.map lifecycleKey := by
        rw [List.map_map]
        apply List.map_congr_left
        intro row hrow
        by_cases hid : row.id = o.id
        · simp only [Function.comp_apply, if_pos hid]
          exact lifecycleKey_updateRow ((hagree row hrow).1 hid) (hhash row hrow hid)
        · simp only [Function.comp_apply, if_neg hid]
      rw [if_pos hany, hkeys]
      exact hrows
    · have hfresh : ∀ row ∈ rows, row.id ≠ o.id := by
        simpa using hany
      rw [if_neg hany, nodup_map_concat]
      refine ⟨?_, hrows⟩
      intro row hrow hkey
      exact hfresh row hrow ((hagree row hrow).2 hkey)

/-- a new id under a stored key is refused -/
theorem saveEventObservation_eq_none {rows : List EventObservation} {o row : EventObservation}
    (hfresh : ∀ row ∈ rows, row.id ≠ o.id) (hrow : row ∈ rows) (hkey : row.lifecycleKey = o.lifecycleKey) :
    saveEventObservation rows o = none := by
  have hany : ¬ rows.any (fun row => row.id == o.id) = true := by
    simpa using hfresh
  have hdup : ¬ ((rows ++ [o]).map lifecycleKey).Nodup := by
    rw [nodup_map_concat]
    intro h
    exact h.1 row hrow hkey
  unfold saveEventObservation
  dsimp only
  rw [if_neg hany, if_neg hdup, ite_self]

/-! ## Sequences -/

/-- a name-based id for the examples: the length of the text -/
def textLengthV5 (key : String) : Uuid := BitVec.ofNat 128 key.length

theorem length_keyText {o : EventObservation} (hjob : o.replayJobId = none) :
    (keyText o).length = 42 + o.mode.asStr.length + (keyTail o).length := by
  have hobs : "obs:".length = 4 := rfl
  have hcolon : ":".length = 1 := rfl
  rw [keyText_eq hjob]
  simp only [String.length_append, length_hyphenated, hobs, hcolon]
  ring

/-- an event, seen by the node's feed -/
def feedSeen : EventObservation :=
  live textLengthV5 0x0c7d8e9fa0b14c2dbe3f405162738495 ⟨"bitcoin_core", "zmq", none⟩ .mempoolSeen 0 none none none

theorem feedSeen_built : Built textLengthV5 feedSeen := Built.live _ _ _ _ _ _ _

instance (o o' : EventObservation) : Decidable (SameOrigin o o') := by
  unfold SameOrigin
  infer_instance

def mempoolSeven : EventObservation := withMempoolSequence textLengthV5 feedSeen 7

def sourceFive : EventObservation := withSourceSequence textLengthV5 feedSeen 5

/-- a mempool sequence and a source sequence, with other numbers: told apart on both sides -/
theorem identity_agrees_iff_one_sequence :
    SameOrigin mempoolSeven sourceFive ∧ IdentityAgrees mempoolSeven sourceFive := by
  have horigin : SameOrigin mempoolSeven sourceFive := by
    decide
  have hid : mempoolSeven.id = idOf textLengthV5 mempoolSeven := (Built.withMempoolSequence 7 feedSeen_built).id_eq
  have hid' : sourceFive.id = idOf textLengthV5 sourceFive := (Built.withSourceSequence 5 feedSeen_built).id_eq
  have hinj : Set.InjOn textLengthV5 {keyText mempoolSeven, keyText sourceFive} := by
    rw [Set.injOn_pair]
    intro h
    rw [textLengthV5, textLengthV5, length_keyText rfl, length_keyText rfl] at h
    exact absurd h (by decide +kernel)
  have hmarks : mempoolSeven.mark.Agrees sourceFive.mark := by
    have hnumbers : (7 : ℕ) ≠ 5 := by decide
    exact hnumbers
  have hplain : Plain mempoolSeven ∧ Plain sourceFive := by
    unfold Plain
    decide +kernel
  have happart : ToldApart mempoolSeven sourceFive := toldApart_of_plain hplain.1 hplain.2 fun _ => hmarks
  exact ⟨horigin, (identity_agrees_iff textLengthV5 _ _ rfl rfl hid hid' hinj).2 happart⟩

/-- the two sequences of one message -/
def bothSequences (sseq mseq : ℕ) : EventObservation :=
  withMempoolSequence textLengthV5 (withSourceSequence textLengthV5 feedSeen sseq) mseq

theorem bothSequences_id (sseq mseq : ℕ) :
    (bothSequences sseq mseq).id = textLengthV5 (keyText (bothSequences sseq mseq)) :=
  (Built.withMempoolSequence mseq (Built.withSourceSequence sseq feedSeen_built)).id_eq

/-- **Two mempool sequences under one source sequence.** Rust gives them two ids, SQL one key: the second observation is
inserted, not merged, and the index refuses it. -/
theorem two_sequences_collide :
    (bothSequences 5 7).id ≠ (bothSequences 5 10).id ∧
      (bothSequences 5 7).lifecycleKey = (bothSequences 5 10).lifecycleKey ∧
      ¬ IdentityAgrees (bothSequences 5 7) (bothSequences 5 10) ∧
      saveEventObservation [bothSequences 5 7] (bothSequences 5 10) = none := by
  have hids : (bothSequences 5 7).id ≠ (bothSequences 5 10).id := by
    rw [bothSequences_id, bothSequences_id, textLengthV5, textLengthV5, length_keyText rfl, length_keyText rfl]
    decide +kernel
  have hkeys : (bothSequences 5 7).lifecycleKey = (bothSequences 5 10).lifecycleKey := by
    have horigin : SameOrigin (bothSequences 5 7) (bothSequences 5 10) := by
      decide
    have hfive : (bothSequences 5 7).mark.coalesced = (bothSequences 5 10).mark.coalesced := by
      decide +kernel
    exact lifecycleKey_eq_iff.2 ⟨horigin, hfive⟩
  have hdisagree : ¬ IdentityAgrees (bothSequences 5 7) (bothSequences 5 10) := by
    intro h
    exact hids (h.2 hkeys)
  have hfresh : ∀ row ∈ [bothSequences 5 7], row.id ≠ (bothSequences 5 10).id := by
    intro row hrow
    rw [List.mem_singleton.1 hrow]
    exact hids
  have hstored : bothSequences 5 7 ∈ [bothSequences 5 7] := List.mem_singleton_self _
  exact ⟨hids, hkeys, hdisagree, saveEventObservation_eq_none hfresh hstored hkeys⟩

end EventObservation

end ObsChain
