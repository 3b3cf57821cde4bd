/-
Which live observations the in-memory store keeps apart (`save_event_observation` of `repository.rs`).

The scan overwrites a record when its id is equal, or when all nine fields of the live tuple are. The id is made of fewer
fields: of block hash, mempool sequence, source sequence and status only the first one present counts. So the id is the
coarser of the two keys, and between observations that their constructors built the scan compares ids alone
(`sameObservation_iff`).

- `Mark.Differs`: the deciding fields give two ids.
- `keptApart_iff_ids`: in a store of built observations two of them are both kept exactly when their ids differ.
- `lifecycle_kept_apart_iff`: so observations of one origin are kept apart exactly when their marks differ.
Witness: `confirmed_status_overwrites` (a block hash, without and with a status).
-/
import Mathlib.Tactic
import ObsChain.Storage.CanonicalSamples
import ObsChain.Storage.ObservationIdentity

namespace ObsChain.EventObservation

open InMemoryStorage (Op step Tables)

/-- after saving both, in this order, the store holds both -/
def HoldsBoth (st : InMemoryStorage) (o o' : EventObservation) : Prop :=
  o ∈ ((st.saveEventObservation o).saveEventObservation o').eventObservations ∧
    o' ∈ ((st.saveEventObservation o).saveEventObservation o').eventObservations

def KeptApart (st : InMemoryStorage) (o o' : EventObservation) : Prop := HoldsBoth st o o' ∧ HoldsBoth st o' o

/-- the fields in which two observations of one origin may differ -/
def DiffersIn (o o' : EventObservation) : Prop :=
  o.blockHash ≠ o'.blockHash ∨ o.sourceSequence ≠ o'.sourceSequence ∨ o.mempoolSequence ≠ o'.mempoolSequence ∨
    o.confirmationStatus ≠ o'.confirmationStatus

/-- the deciding fields are two: other texts, other numbers, or a number and a text that does not spell it -/
def Mark.Differs : Mark → Mark → Prop
  | .text x, .text x' => x ≠ x'
  | .mempool m _, .mempool m' _ => m ≠ m'
  | .source s, .source s' => s ≠ s'
  | .mempool _ _, .source _ => True
  | .source _, .mempool _ _ => True
  | .text x, .mempool m _ => x ≠ "mempool_seq:" ++ toString m
  | .mempool m _, .text x => x ≠ "mempool_seq:" ++ toString m
  | .text x, .source s => x ≠ "source_seq:" ++ toString s
  | .source s, .text x => x ≠ "source_seq:" ++ toString s

theorem discriminator_ne_iff (a b : Mark) : a.discriminator ≠ b.discriminator ↔ a.Differs b := by
  cases a with
  | text x => cases b <;> exact Iff.rfl
  | mempool m s =>
    cases b with
    | text x' => exact ne_comm
    | mempool m' s' => exact not_congr word_inj
    | source s' => exact iff_of_true (mempool_ne_source m s') trivial
  | source s =>
    cases b with
    | text x' => exact ne_comm
    | mempool m' s' => exact iff_of_true (mempool_ne_source m' s).symm trivial
    | source s' => exact not_congr word_inj

section

variable {newV5 : String → Uuid}

/-- a built observation takes the place of the record with its id -/
theorem mem_saveEventObservation {st : InMemoryStorage} (h : Tables newV5 st) {o z : EventObservation}
    (hbuilt : Built newV5 o) :
    z ∈ (st.saveEventObservation o).eventObservations ↔ z = o ∨ (z ∈ st.eventObservations ∧ z.id ≠ o.id) :=
  mem_upsert_iff (·.id) (fun y hy => InMemoryStorage.sameObservation_iff hbuilt (h.built y hy)) h.observations

theorem saveEventObservation_tables {st : InMemoryStorage} (h : Tables newV5 st) {o : EventObservation}
    (hbuilt : Built newV5 o) : Tables newV5 (st.saveEventObservation o) := by
  have hstep : Tables newV5 (step st (.saveEventObservation o)) := by
    apply InMemoryStorage.step_tables h
    intro o' heq
    cases heq
    exact hbuilt
  exact hstep

theorem holdsBoth_iff {st : InMemoryStorage} (h : Tables newV5 st) {o o' : EventObservation} (hbuilt : Built newV5 o)
    (hbuilt' : Built newV5 o') (hne : o ≠ o') : HoldsBoth st o o' ↔ o.id ≠ o'.id := by
  unfold HoldsBoth
  simp only [mem_saveEventObservation (saveEventObservation_tables h hbuilt) hbuilt', mem_saveEventObservation h hbuilt]
  constructor
  · intro hboth
    exact (hboth.1.resolve_left hne).2
  · intro hids
    simp [hids]

theorem keptApart_iff_ids {st : InMemoryStorage} (h : Tables newV5 st) {o o' : EventObservation} (hbuilt : Built newV5 o)
    (hbuilt' : Built newV5 o') (hne : o ≠ o') : KeptApart st o o' ↔ o.id ≠ o'.id := by
  unfold KeptApart
  rw [holdsBoth_iff h hbuilt hbuilt' hne, holdsBoth_iff h hbuilt' hbuilt hne.symm, ne_comm, and_self]

theorem ne_of_differsIn {o o' : EventObservation} (h : DiffersIn o o') : o ≠ o' := by
  intro heq
  subst heq
  simp [DiffersIn] at h

/-- of one origin, live and built: equal ids exactly when the marks do not differ -/
theorem id_ne_iff {o o' : EventObservation} (hbuilt : Built newV5 o) (hbuilt' : Built newV5 o') (hlive : o.mode = .live)
    (horigin : SameOrigin o o') (hinj : Set.InjOn newV5 {keyText o, keyText o'}) : o.id ≠ o'.id ↔ o.mark.Differs o'.mark := by
  have hnojob : ∀ x : EventObservation, Built newV5 x → x.mode = .live → x.replayJobId = none := by
    intro x hx hmode
    have hreplay := hx.replay_iff
    rw [hmode] at hreplay
    simpa using hreplay
  have hkeys : keyText o = keyText o' ↔ RunTogether o o' :=
    keyText_eq_iff (hnojob o hbuilt hlive) (hnojob o' hbuilt' (horigin.2.1 ▸ hlive))
  have hids : o.id = o'.id ↔ keyText o = keyText o' := by
    rw [hbuilt.id_eq, hbuilt'.id_eq]
    exact hinj.eq_iff (Set.mem_insert _ _) (Set.mem_insert_of_mem _ rfl)
  rw [← discriminator_ne_iff, ne_eq, hids, hkeys, runTogether_iff horigin]

end

/-- **Lifecycle records.** In every store that saves of events, metrics and built observations lead to, two live
observations of one origin that differ in one of the four fields are both kept, whichever is saved first, exactly when
their deciding fields differ. -/
theorem lifecycle_kept_apart_iff (newV5 : String → Uuid) (maxEvents : ℕ) (ops : List Op)
    (hops : ∀ o, Op.saveEventObservation o ∈ ops → Built newV5 o) (o o' : EventObservation) (hbuilt : Built newV5 o)
    (hbuilt' : Built newV5 o') (hlive : o.mode = .live) (horigin : SameOrigin o o') (hdiffers : DiffersIn o o')
    (hinj : Set.InjOn newV5 {keyText o, keyText o'}) :
    KeptApart (Trace.run step (InMemoryStorage.empty maxEvents) ops) o o' ↔ o.mark.Differs o'.mark := by
  have htables : Tables newV5 (Trace.run step (InMemoryStorage.empty maxEvents) ops) := by
    apply Trace.run_inv_mem (A := fun op => ∀ o, op = .saveEventObservation o → Built newV5 o)
    · intro st op hst hop
      exact InMemoryStorage.step_tables hst hop
    · intro op hop x hx
      exact hops x (hx ▸ hop)
    · exact ⟨List.nodup_nil, List.nodup_nil, by simp [InMemoryStorage.empty], List.nodup_nil⟩
  rw [keptApart_iff_ids htables hbuilt hbuilt' (ne_of_differsIn hdiffers),
    id_ne_iff hbuilt hbuilt' hlive horigin hinj]

/-- a mempool sequence and a source sequence are kept apart -/
theorem lifecycle_kept_apart_iff_two_sequences :
    DiffersIn mempoolSeven sourceFive ∧ KeptApart (InMemoryStorage.empty 10) mempoolSeven sourceFive := by
  have hdiffers : DiffersIn mempoolSeven sourceFive := .inr (.inl (by decide))
  have hinj : Set.InjOn textLengthV5 {keyText mempoolSeven, keyText sourceFive} := by
    rw [Set.injOn_pair]
    intro h
    rw [textLengthV5, textLengthV5, length_keyText rfl, length_keyText rfl] at h
    exact absurd h (by decide +kernel)
  exact ⟨hdiffers, (lifecycle_kept_apart_iff textLengthV5 10 [] (by simp) mempoolSeven sourceFive
    (Built.withMempoolSequence 7 feedSeen_built) (Built.withSourceSequence 5 feedSeen_built) rfl (by decide) hdiffers
    hinj).2 trivial⟩

/-- a transfer, seen confirmed in its block -/
def confirmedSeen : EventObservation :=
  live textLengthV5 0x0c7d8e9fa0b14c2dbe3f405162738495 ⟨"bitcoin_core", "zmq", none⟩ .confirmed 0 none (some 840001)
    (some "block840001")

def confirmedWithStatus : EventObservation := withConfirmationStatus textLengthV5 confirmedSeen "confirmed"

/-- **The status does not count beside a block hash.** Both observations have the id of the block hash, so the one that is
saved later overwrites the other. -/
theorem confirmed_status_overwrites :
    Built textLengthV5 confirmedSeen ∧ Built textLengthV5 confirmedWithStatus ∧
      SameOrigin confirmedSeen confirmedWithStatus ∧ DiffersIn confirmedSeen confirmedWithStatus ∧
      ¬ KeptApart (InMemoryStorage.empty 10) confirmedSeen confirmedWithStatus ∧
      (((InMemoryStorage.empty 10).saveEventObservation confirmedSeen).saveEventObservation
        confirmedWithStatus).eventObservations = [confirmedWithStatus] := by
  have hbuilt : Built textLengthV5 confirmedSeen := Built.live _ _ _ _ _ _ _
  have hbuilt' : Built textLengthV5 confirmedWithStatus := Built.withConfirmationStatus "confirmed" hbuilt
  have hdiffers : DiffersIn confirmedSeen confirmedWithStatus := .inr (.inr (.inr (by decide)))
  have htables : Tables textLengthV5 (InMemoryStorage.empty 10) :=
    ⟨List.nodup_nil, List.nodup_nil, by simp [InMemoryStorage.empty], List.nodup_nil⟩
  have hids : confirmedSeen.id = confirmedWithStatus.id := rfl
  refine ⟨hbuilt, hbuilt', by decide, hdiffers, ?_, ?_⟩
  · rw [keptApart_iff_ids htables hbuilt hbuilt' (ne_of_differsIn hdiffers)]
    exact fun hne => hne hids
  · simp [InMemoryStorage.saveEventObservation, InMemoryStorage.empty, upsert, InMemoryStorage.sameObservation, hids]

end ObsChain.EventObservation
