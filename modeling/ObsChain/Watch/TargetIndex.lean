/-
The watch index under `add_target`, `load_targets` and `remove_target`.

The four indices are read as one table of buckets (`bucket`), with a key per kind of target (`indexKey`). An addition
writes the target under its id and appends it to its bucket, without looking for an older version; a removal finds the
bucket through the version under the id.

- `Indexed`: the buckets hold the targets of `all_targets`, each once and under its own key.
- `Integrity`: the engine is indexed, no bucket is empty, and `all_targets` holds the last version of each id, where it is
  active. The versions are kept beside the engine, as the operations name them.
- `integrity_iff`: a run keeps the integrity exactly when no addition names an id that `all_targets` holds. An older
  version is then never replaced: it stays in its bucket, or in `all_targets` if the new one is inactive.
-/
import Mathlib.Tactic
import Mathlib.Data.List.AList
import ObsChain.Core.Trace
import ObsChain.Watch.Engine
import ObsChain.Watch.Pass

namespace ObsChain

open Trace

/-- a key of one of the four indices -/
inductive IndexKey where
  | outpoint (key : OutpointKey)
  | script (scriptHex : String)
  | address (addr : String)
  | txid (txid : String)
deriving DecidableEq, Repr

def WatchTargetKind.indexKey : WatchTargetKind → IndexKey
  | .outPoint txid vout => .outpoint (outpointKey txid vout)
  | .scriptPubKey scriptHex => .script (toLowercase scriptHex)
  | .address addr _ => .address addr
  | .transaction txid => .txid (toLowercase txid)

namespace IncidentWatchEngine

/-- the bucket under a key, of the index that the key belongs to -/
def bucket (e : IncidentWatchEngine) : IndexKey → Option (List WatchTarget)
  | .outpoint key => e.outpointIndex.lookup key
  | .script scriptHex => e.scriptIndex.lookup scriptHex
  | .address addr => e.addressIndex.lookup addr
  | .txid txid => e.txidIndex.lookup txid

/-- the targets found under a key -/
def found (e : IncidentWatchEngine) (key : IndexKey) : List WatchTarget := (e.bucket key).getD []

/-- what is done to the engine -/
inductive Operation where
  | addTarget (target : WatchTarget)
  | loadTargets (targets : List WatchTarget)
  | removeTarget (targetId : Uuid)
  | registerIncidentTitle (caseId title : String)
  | call (call : Call)

def operate (e : IncidentWatchEngine) : Operation → IncidentWatchEngine
  | .addTarget target => e.addTarget target
  | .loadTargets targets => e.loadTargets targets
  | .removeTarget targetId => e.removeTarget targetId
  | .registerIncidentTitle caseId title => e.registerIncidentTitle caseId title
  | .call call => e.step call

/-! ## One bucket -/

/-- what is left of a bucket after a removal -/
def retained (targetId : Uuid) (bucket : List WatchTarget) : Option (List WatchTarget) :=
  let kept := bucket.filter fun t => t.id != targetId
  if kept.isEmpty then none else some kept

theorem retained_ne_nil (targetId : Uuid) (bucket : List WatchTarget) : retained targetId bucket ≠ some [] := by
  unfold retained
  intro h
  dsimp only at h
  split_ifs at h with hempty
  simp only [Option.some.injEq] at h
  rw [h] at hempty
  exact hempty rfl

theorem retained_getD (targetId : Uuid) (bucket : List WatchTarget) :
    (retained targetId bucket).getD [] = bucket.filter fun t => t.id != targetId := by
  unfold retained
  dsimp only
  split_ifs with hempty
  · exact (List.isEmpty_iff.1 hempty).symm
  · rfl

section Bucket

variable {κ : Type} [DecidableEq κ]

theorem lookup_indexPush (index : AList (fun _ : κ => List WatchTarget)) (key key' : κ) (target : WatchTarget) :
    (indexPush index key target).lookup key' =
      if key' = key then some ((index.lookup key').getD [] ++ [target]) else index.lookup key' := by
  unfold indexPush
  split_ifs with h
  · rw [h, AList.lookup_insert]
  · exact AList.lookup_insert_ne h

theorem lookup_indexRemove (index : AList (fun _ : κ => List WatchTarget)) (key key' : κ) (targetId : Uuid) :
    (indexRemove index key targetId).lookup key' =
      if key' = key then (index.lookup key').bind (retained targetId) else index.lookup key' := by
  unfold indexRemove
  cases hb : index.lookup key with
  | none =>
    dsimp only
    split_ifs with h
    · rw [h, hb]
      rfl
    · rfl
  | some bucket =>
    dsimp only
    split_ifs with hempty h h
    · rw [h, AList.lookup_erase, hb]
      simp [retained, hempty]
    · exact AList.lookup_erase_ne h
    · rw [h, AList.lookup_insert, hb]
      simp [retained, hempty]
    · exact AList.lookup_insert_ne h

end Bucket

/-! ## What the operations do to the table -/

variable {e : IncidentWatchEngine} {target : WatchTarget} {targetId : Uuid}

/-- an inactive target is not added -/
theorem addTarget_of_inactive (h : target.active = false) : e.addTarget target = e := by
  simp [addTarget, h]

theorem bucket_addTarget (h : target.active = true) (key : IndexKey) :
    (e.addTarget target).bucket key =
      if key = target.kind.indexKey then some (e.found key ++ [target]) else e.bucket key := by
  unfold addTarget
  rw [if_neg (by simp [h])]
  dsimp only
  cases target.kind <;> cases key <;>
    simp [WatchTargetKind.indexKey, bucket, found, lookup_indexPush]

theorem allTargets_addTarget (h : target.active = true) :
    (e.addTarget target).allTargets = e.allTargets.insert target.id target := by
  unfold addTarget
  rw [if_neg (by simp [h])]
  cases target.kind <;> rfl

theorem descendants_addTarget (e : IncidentWatchEngine) (target : WatchTarget) :
    (e.addTarget target).descendants = e.descendants := by
  unfold addTarget
  split_ifs
  · rfl
  · cases target.kind <;> rfl

theorem descendants_loadTargets (e : IncidentWatchEngine) (targets : List WatchTarget) :
    (e.loadTargets targets).descendants = e.descendants := by
  induction targets generalizing e with
  | nil => rfl
  | cons target targets ih => exact (ih (e.addTarget target)).trans (descendants_addTarget e target)

/-- an unknown id removes nothing -/
theorem removeTarget_of_none (h : e.allTargets.lookup targetId = none) : e.removeTarget targetId = e := by
  simp [removeTarget, h]

theorem bucket_removeTarget (h : e.allTargets.lookup targetId = some target) (key : IndexKey) :
    (e.removeTarget targetId).bucket key =
      if key = target.kind.indexKey then (e.bucket key).bind (retained targetId) else e.bucket key := by
  unfold removeTarget
  rw [h]
  dsimp only
  cases target.kind <;> cases key <;>
    simp [WatchTargetKind.indexKey, bucket, lookup_indexRemove]

theorem allTargets_removeTarget (h : e.allTargets.lookup targetId = some target) :
    (e.removeTarget targetId).allTargets = e.allTargets.erase targetId := by
  unfold removeTarget
  rw [h]
  dsimp only
  cases target.kind <;> rfl

theorem descendants_removeTarget (e : IncidentWatchEngine) (targetId : Uuid) :
    (e.removeTarget targetId).descendants = e.descendants := by
  unfold removeTarget
  cases e.allTargets.lookup targetId with
  | none => rfl
  | some target =>
    dsimp only
    cases target.kind <;> rfl

theorem found_addTarget (h : target.active = true) (key : IndexKey) :
    (e.addTarget target).found key = if key = target.kind.indexKey then e.found key ++ [target] else e.found key := by
  unfold found
  rw [bucket_addTarget h]
  split_ifs <;> rfl

theorem found_removeTarget (h : e.allTargets.lookup targetId = some target) (key : IndexKey) :
    (e.removeTarget targetId).found key =
      if key = target.kind.indexKey then (e.found key).filter (fun t => t.id != targetId) else e.found key := by
  unfold found
  rw [bucket_removeTarget h]
  split_ifs
  · cases e.bucket key with
    | none => rfl
    | some bucket => exact retained_getD targetId bucket
  · rfl

/-- nothing is taken out of a bucket by an addition -/
theorem found_addTarget_sublist (e : IncidentWatchEngine) (target : WatchTarget) (key : IndexKey) :
    (e.found key).Sublist ((e.addTarget target).found key) := by
  cases hactive : target.active with
  | false => rw [addTarget_of_inactive hactive]
  | true =>
    rw [found_addTarget hactive]
    split_ifs
    · exact List.sublist_append_left _ _
    · exact List.Sublist.refl _

/-- an addition leaves no bucket empty -/
theorem occupied_addTarget (h : ∀ key, e.bucket key ≠ some []) (target : WatchTarget) (key : IndexKey) :
    (e.addTarget target).bucket key ≠ some [] := by
  intro hempty
  cases hactive : target.active with
  | false =>
    rw [addTarget_of_inactive hactive] at hempty
    exact h key hempty
  | true =>
    rw [bucket_addTarget hactive] at hempty
    split_ifs at hempty with hkey
    · simp at hempty
    · exact h key hempty

/-- nor does a removal -/
theorem occupied_removeTarget (h : ∀ key, e.bucket key ≠ some []) (targetId : Uuid) (key : IndexKey) :
    (e.removeTarget targetId).bucket key ≠ some [] := by
  intro hempty
  cases hlookup : e.allTargets.lookup targetId with
  | none =>
    rw [removeTarget_of_none hlookup] at hempty
    exact h key hempty
  | some target =>
    rw [bucket_removeTarget hlookup] at hempty
    split_ifs at hempty with hkey
    · obtain ⟨bucket, -, hretained⟩ := Option.bind_eq_some_iff.1 hempty
      exact retained_ne_nil targetId bucket hretained
    · exact h key hempty

/-! ## What is found in the table -/

section Found

variable {tx : TransactionObservation} {blockHeight : Option ℕ} {blockHash : Option String}

/-- **Where a direct match comes from.** -/
theorem directMatches_cases {m : Match} (h : m ∈ e.directMatches tx blockHeight) :
    (∃ t ∈ e.found (.txid (toLowercase tx.txid)), m = txidMatch tx blockHeight t) ∨
      (∃ vin, ∃ i ∈ tx.inputs, ∃ t ∈ e.found (.outpoint i.key), m = outpointMatch tx vin i t) ∨
      (∃ vin i addr, ∃ t ∈ e.found (.address addr), m = addressSpentMatch tx vin i addr t) ∨
      (∃ vout o scriptHex, ∃ t ∈ e.found (.script (toLowercase scriptHex)), m = scriptMatch tx vout o scriptHex t) ∨
      (∃ vout o addr, ∃ t ∈ e.found (.address addr), m = addressReceivedMatch tx vout o addr t) := by
  simp only [directMatches, spendAndReceiveMatches, inputMatches, List.mem_append, List.mem_flatMap] at h
  rcases h with htxid | ⟨⟨i, vin⟩, hi, houtpoint | haddress⟩ | ⟨⟨o, vout⟩, -, houtput⟩
  · obtain ⟨t, ht, rfl⟩ := List.mem_map.1 htxid
    exact Or.inl ⟨t, ht, rfl⟩
  · obtain ⟨t, ht, rfl⟩ := List.mem_map.1 houtpoint
    exact Or.inr (Or.inl ⟨vin, i, List.fst_mem_of_mem_zipIdx hi, t, ht, rfl⟩)
  · unfold addressSpentMatches at haddress
    cases haddr : i.prevOutAddress with
    | none => simp [haddr] at haddress
    | some addr =>
      rw [haddr] at haddress
      obtain ⟨t, ht, rfl⟩ := List.mem_map.1 haddress
      exact Or.inr (Or.inr (Or.inl ⟨vin, i, addr, t, ht, rfl⟩))
  · unfold outputMatches at houtput
    rcases List.mem_append.1 houtput with hscript | haddress
    · cases hhex : o.scriptpubkeyHex with
      | none => simp [hhex] at hscript
      | some scriptHex =>
        rw [hhex] at hscript
        obtain ⟨t, ht, rfl⟩ := List.mem_map.1 hscript
        exact Or.inr (Or.inr (Or.inr (Or.inl ⟨vout, o, scriptHex, t, ht, rfl⟩)))
    · cases haddr : o.address with
      | none => simp [haddr] at haddress
      | some addr =>
        rw [haddr] at haddress
        obtain ⟨t, ht, rfl⟩ := List.mem_map.1 haddress
        exact Or.inr (Or.inr (Or.inr (Or.inr ⟨vout, o, addr, t, ht, rfl⟩)))

/-- so its target is in the table -/
theorem directMatches_found {m : Match} (h : m ∈ e.directMatches tx blockHeight) : ∃ key, m.target ∈ e.found key := by
  rcases directMatches_cases h with ⟨t, ht, rfl⟩ | ⟨vin, i, -, t, ht, rfl⟩ | ⟨vin, i, addr, t, ht, rfl⟩ |
    ⟨vout, o, hex, t, ht, rfl⟩ | ⟨vout, o, addr, t, ht, rfl⟩
  all_goals exact ⟨_, ht⟩

/-- so is the target of a replacement -/
theorem replacementTarget_found {repl : TransactionReplacement} {t : WatchTarget}
    (h : e.replacementTarget repl = some t) : ∃ txid, t ∈ e.found (.txid txid) := by
  have hbucket : ∀ {txid : String} {ts : List WatchTarget}, e.txidIndex.lookup txid = some ts →
      ts.head? = some t → t ∈ e.found (.txid txid) := by
    intro txid ts hlookup hhead
    simp only [found, bucket, hlookup, Option.getD_some]
    exact List.mem_of_head? hhead
  unfold replacementTarget at h
  split at h
  · rename_i target hnew
    cases h
    obtain ⟨bucket, hlookup, hhead⟩ := Option.bind_eq_some_iff.1 hnew
    exact ⟨_, hbucket hlookup hhead⟩
  · obtain ⟨bucket, hold, hhead⟩ := Option.bind_eq_some_iff.1 h
    obtain ⟨old, -, hlookup⟩ := List.exists_of_findSome?_eq_some hold
    exact ⟨_, hbucket hlookup hhead⟩

/-- **Where a report comes from.** A direct match, a tracked descendant, or a replacement. -/
theorem reports_cases {Q : OutpointKey → TrackedDescendantOutpoint → Prop} {c : Call} (ht : Records Q e.descendants)
    (hclosed : ∀ tx ∈ c.observed, Closed Q e tx) {r : Report} (hr : r ∈ e.reports c) :
    (∃ tx ∈ c.observed, ∃ h hash, ∃ m ∈ e.directMatches tx h, r = e.targetReport tx h hash m) ∨
      (∃ tx ∈ c.observed, ∃ h hash, ∃ i ∈ tx.inputs, ∃ d, Q i.key d ∧ r = e.descendantReport tx h hash i d) ∨
      (∃ repl txid, ∃ t ∈ e.found (.txid txid), r = e.replacementReport repl t) := by
  cases c with
  | transaction tx h hash =>
    cases hd : isDirect r with
    | true =>
      have hmem : r ∈ (e.observe tx h hash).2.filter isDirect := List.mem_filter.2 ⟨hr, hd⟩
      rw [observe_direct] at hmem
      obtain ⟨m, hm, rfl⟩ := List.mem_map.1 hmem
      exact Or.inl ⟨tx, rfl, h, hash, m, hm, rfl⟩
    | false =>
      obtain ⟨i, hi, d, hq, rfl⟩ := ht.reported (hclosed tx rfl) hr hd
      exact Or.inr (Or.inl ⟨tx, rfl, h, hash, i, hi, d, hq, rfl⟩)
  | replacement repl =>
    obtain ⟨t, htarget, rfl⟩ := List.mem_map.1 hr
    obtain ⟨txid, hfound⟩ := replacementTarget_found (Option.mem_toList.1 htarget)
    exact Or.inr (Or.inr ⟨repl, txid, t, hfound, rfl⟩)
  | block block => cases hr

end Found

/-! ## Indexed engines -/

/-- the buckets hold the targets of `all_targets`: each once, under its own key, and nothing else -/
structure Indexed (e : IncidentWatchEngine) : Prop where
  keyed : ∀ id t, e.allTargets.lookup id = some t → t.id = id
  held : ∀ key t, (e.found key).count t =
    if e.allTargets.lookup t.id = some t ∧ t.kind.indexKey = key then 1 else 0

theorem Indexed.of_mem (h : e.Indexed) {key : IndexKey} {t : WatchTarget} (ht : t ∈ e.found key) :
    e.allTargets.lookup t.id = some t ∧ t.kind.indexKey = key := by
  by_contra hnot
  have hcount := h.held key t
  rw [if_neg hnot, List.count_eq_zero] at hcount
  exact hcount ht

theorem Indexed.mem (h : e.Indexed) {t : WatchTarget} (ht : e.allTargets.lookup t.id = some t) :
    t ∈ e.found t.kind.indexKey := by
  have hcount := h.held t.kind.indexKey t
  rw [if_pos ⟨ht, rfl⟩] at hcount
  exact List.count_pos_iff.1 (by omega)

/-- an addition under a new id keeps the engine indexed -/
theorem Indexed.addTarget (h : e.Indexed) (hnew : target.id ∉ e.allTargets) : (e.addTarget target).Indexed := by
  cases hactive : target.active with
  | false => rwa [addTarget_of_inactive hactive]
  | true =>
    have hnone : e.allTargets.lookup target.id = none := AList.lookup_eq_none.2 hnew
    constructor
    · intro id t ht
      rw [allTargets_addTarget hactive] at ht
      by_cases hid : id = target.id
      · rw [hid, AList.lookup_insert] at ht
        cases ht
        exact hid.symm
      · rw [AList.lookup_insert_ne hid] at ht
        exact h.keyed id t ht
    · intro key t
      have hheld := h.held key t
      rw [found_addTarget hactive, allTargets_addTarget hactive]
      by_cases hid : t.id = target.id
      · -- no version of the id was there
        rw [hid, hnone, if_neg (by simp)] at hheld
        rw [hid, AList.lookup_insert]
        by_cases ht : t = target
        · subst ht
          by_cases hkey : key = t.kind.indexKey
          · simp [hkey, hkey ▸ hheld]
          · simp [hkey, hheld, Ne.symm hkey]
        · have hne : ¬ target = t := Ne.symm ht
          split_ifs with hkey hsome hsome
          · exact absurd (Option.some.inj hsome.1) hne
          · rw [List.count_append, hheld, List.count_singleton, beq_eq_false_iff_ne.2 hne]
            rfl
          · exact absurd (Option.some.inj hsome.1) hne
          · exact hheld
      · have hne : ¬ target = t := fun heq => hid (heq ▸ rfl)
        rw [AList.lookup_insert_ne hid, ← hheld]
        split_ifs with hkey
        · rw [List.count_append, List.count_singleton, beq_eq_false_iff_ne.2 hne]
          rfl
        · rfl

/-- so does a removal -/
theorem Indexed.removeTarget (h : e.Indexed) (targetId : Uuid) : (e.removeTarget targetId).Indexed := by
  cases hlookup : e.allTargets.lookup targetId with
  | none => rwa [removeTarget_of_none hlookup]
  | some target =>
    constructor
    · intro id t ht
      rw [allTargets_removeTarget hlookup] at ht
      by_cases hid : id = targetId
      · rw [hid, AList.lookup_erase] at ht
        cases ht
      · rw [AList.lookup_erase_ne hid] at ht
        exact h.keyed id t ht
    · intro key t
      have hheld := h.held key t
      rw [found_removeTarget hlookup, allTargets_removeTarget hlookup]
      by_cases hid : t.id = targetId
      · have hgone : ¬ (none = some t ∧ t.kind.indexKey = key) := by
          rintro ⟨heq, -⟩
          cases heq
        rw [hid, AList.lookup_erase, if_neg hgone]
        rw [hid, hlookup] at hheld
        split_ifs with hkey
        · rw [List.count_eq_zero]
          intro hmem
          simpa [hid] using (List.mem_filter.1 hmem).2
        · rw [hheld, if_neg]
          rintro ⟨heq, hown⟩
          cases heq
          exact hkey hown.symm
      · rw [AList.lookup_erase_ne hid, ← hheld]
        split_ifs with hkey
        · rw [List.count_filter]
          simpa using hid
        · rfl

/-- a call does not touch the targets -/
theorem Indexed.step (h : e.Indexed) (c : Call) : (e.step c).Indexed := by
  obtain ⟨t, ht⟩ := e.step_frame c
  rw [ht]
  exact ⟨h.keyed, h.held⟩

/-! ## Versions -/

/-- an engine, and the last version added of each id that has not been removed since -/
structure Registered where
  engine : IncidentWatchEngine
  versions : Uuid → Option WatchTarget

namespace Registered

def newVersion (versions : Uuid → Option WatchTarget) (target : WatchTarget) : Uuid → Option WatchTarget :=
  Function.update versions target.id (some target)

def versionsAfter (versions : Uuid → Option WatchTarget) : Operation → Uuid → Option WatchTarget
  | .addTarget target => newVersion versions target
  | .loadTargets targets => targets.foldl newVersion versions
  | .removeTarget targetId => Function.update versions targetId none
  | .registerIncidentTitle _ _ => versions
  | .call _ => versions

def operate (s : Registered) (op : Operation) : Registered := ⟨s.engine.operate op, versionsAfter s.versions op⟩

/-- a new engine -/
def start (maxDepth : ℕ) : Registered := ⟨withFollowDepth maxDepth, fun _ => none⟩

structure Integrity (s : Registered) : Prop where
  indexed : s.engine.Indexed
  occupied : ∀ key, s.engine.bucket key ≠ some []
  current : ∀ id, s.engine.allTargets.lookup id = (s.versions id).filter (·.active)

/-- every target that is added has an id that `all_targets` does not hold then -/
def AddsNew (s : Registered) : Operation → Prop
  | .addTarget target => target.id ∉ s.engine.allTargets
  | .loadTargets targets =>
    (∀ t ∈ targets, t.id ∉ s.engine.allTargets) ∧ targets.Pairwise fun a b => a.active = true → a.id ≠ b.id
  | .removeTarget _ | .registerIncidentTitle _ _ | .call _ => True

instance (s : Registered) (op : Operation) : Decidable (s.AddsNew op) := by
  cases op <;> unfold AddsNew <;> infer_instance

theorem start_integrity (maxDepth : ℕ) : (start maxDepth).Integrity := by
  refine ⟨⟨fun id t ht => ?_, fun key t => ?_⟩, fun key => ?_, fun id => ?_⟩
  · simp [start, withFollowDepth] at ht
  · cases key <;> simp [start, withFollowDepth, found, bucket]
  · cases key <;> simp [start, withFollowDepth, bucket]
  · simp [start, withFollowDepth]

/-! ## Additions -/

def add (s : Registered) (target : WatchTarget) : Registered :=
  ⟨s.engine.addTarget target, newVersion s.versions target⟩

/-- `load_targets` adds one target after the other -/
theorem operate_loadTargets (s : Registered) (targets : List WatchTarget) :
    s.operate (.loadTargets targets) = targets.foldl add s := by
  induction targets generalizing s with
  | nil => rfl
  | cons target targets ih => exact ih (s.add target)

theorem mem_allTargets_add (s : Registered) (target : WatchTarget) (id : Uuid) :
    id ∈ (s.add target).engine.allTargets ↔ (target.active = true ∧ id = target.id) ∨ id ∈ s.engine.allTargets := by
  cases hactive : target.active with
  | false => simp [add, addTarget_of_inactive hactive]
  | true => simp [add, allTargets_addTarget hactive]

theorem versions_add (s : Registered) (target : WatchTarget) (id : Uuid) :
    (s.add target).versions id = if id = target.id then some target else s.versions id :=
  Function.update_apply s.versions target.id (some target) id

variable {s : Registered} {target : WatchTarget}

/-- an addition under a new id keeps the integrity -/
theorem Integrity.add (h : s.Integrity) (hnew : target.id ∉ s.engine.allTargets) : (s.add target).Integrity := by
  refine ⟨h.indexed.addTarget hnew, occupied_addTarget h.occupied target, fun id => ?_⟩
  have hcurrent := h.current id
  by_cases hid : id = target.id
  · subst hid
    rw [versions_add, if_pos rfl, Option.filter_some]
    cases hactive : target.active with
    | false =>
      simp only [Registered.add, addTarget_of_inactive hactive]
      exact AList.lookup_eq_none.2 hnew
    | true =>
      simp only [Registered.add, allTargets_addTarget hactive]
      exact AList.lookup_insert s.engine.allTargets
  · rw [versions_add, if_neg hid, ← hcurrent]
    cases hactive : target.active with
    | false => rw [Registered.add, addTarget_of_inactive hactive]
    | true =>
      simp only [Registered.add, allTargets_addTarget hactive]
      exact AList.lookup_insert_ne hid

/-- a target in the table that is not the last version of its id, or is there twice, or under a foreign key -/
def Spoiled (s : Registered) : Prop :=
  ∃ key, ∃ t ∈ s.engine.found key,
    key ≠ t.kind.indexKey ∨ 2 ≤ (s.engine.found key).count t ∨ (s.versions t.id).filter (·.active) ≠ some t

theorem Integrity.not_spoiled (h : s.Integrity) : ¬ s.Spoiled := by
  rintro ⟨key, t, ht, hspoiled⟩
  obtain ⟨hlookup, hkey⟩ := h.indexed.of_mem ht
  have hcount := h.indexed.held key t
  rw [if_pos ⟨hlookup, hkey⟩] at hcount
  rcases hspoiled with hforeign | htwice | hold
  · exact hforeign hkey.symm
  · omega
  · exact hold ((h.current t.id).symm.trans hlookup)

/-- an older version stays in the table when its id is added again -/
theorem spoiled_of_added_again {key : IndexKey} {t : WatchTarget} (ht : t ∈ s.engine.found key)
    (hid : t.id = target.id) : (s.add target).Spoiled := by
  have hsub := found_addTarget_sublist s.engine target key
  refine ⟨key, t, hsub.subset ht, ?_⟩
  rw [versions_add, if_pos hid, Option.filter_some]
  cases hactive : target.active with
  | false => exact Or.inr (Or.inr (by simp))
  | true =>
    by_cases hkey : key = t.kind.indexKey
    · by_cases heq : t = target
      · -- the very same target: the bucket now holds it twice
        have hone : 0 < (s.engine.found key).count t := List.count_pos_iff.2 ht
        subst heq
        right
        left
        rw [Registered.add, found_addTarget hactive, if_pos hkey, List.count_append, List.count_singleton_self]
        omega
      · right
        right
        rw [if_pos rfl]
        intro hsome
        exact heq (Option.some.inj hsome).symm
    · exact Or.inl hkey

/-- no addition repairs the table -/
theorem Spoiled.add (h : s.Spoiled) (target : WatchTarget) : (s.add target).Spoiled := by
  obtain ⟨key, t, ht, hspoiled⟩ := h
  by_cases hid : t.id = target.id
  · exact spoiled_of_added_again ht hid
  · have hsub := found_addTarget_sublist s.engine target key
    refine ⟨key, t, hsub.subset ht, ?_⟩
    rw [versions_add, if_neg hid]
    rcases hspoiled with hforeign | htwice | hold
    · exact Or.inl hforeign
    · exact Or.inr (Or.inl (htwice.trans (hsub.count_le t)))
    · exact Or.inr (Or.inr hold)

/-- an id that `all_targets` holds cannot be added again -/
theorem Integrity.spoiled_add (h : s.Integrity) (hold : target.id ∈ s.engine.allTargets) : (s.add target).Spoiled := by
  obtain ⟨t, ht⟩ := Option.isSome_iff_exists.1 (AList.lookup_isSome.2 hold)
  have hid := h.indexed.keyed target.id t ht
  rw [← hid] at ht
  exact spoiled_of_added_again (h.indexed.mem ht) hid

theorem Spoiled.foldl_add (h : s.Spoiled) (targets : List WatchTarget) : (targets.foldl Registered.add s).Spoiled := by
  induction targets generalizing s with
  | nil => exact h
  | cons target targets ih => exact ih (h.add target)

/-- **Loading.** The integrity survives exactly when every target is new when its turn comes. -/
theorem Integrity.foldl_add_iff (h : s.Integrity) (targets : List WatchTarget) :
    (targets.foldl Registered.add s).Integrity ↔ s.AddsNew (.loadTargets targets) := by
  induction targets generalizing s with
  | nil => simpa [AddsNew] using h
  | cons target targets ih =>
    rw [List.foldl_cons]
    by_cases hold : target.id ∈ s.engine.allTargets
    · constructor
      · intro hafter
        exact absurd ((h.spoiled_add hold).foldl_add targets) hafter.not_spoiled
      · intro hnew
        exact absurd hold (hnew.1 target List.mem_cons_self)
    · rw [ih (h.add hold)]
      simp only [AddsNew, mem_allTargets_add, List.pairwise_cons, List.forall_mem_cons, not_or, not_and]
      constructor
      · rintro ⟨hall, hpairs⟩
        refine ⟨⟨hold, fun t ht => (hall t ht).2⟩, fun t ht hactive heq => ?_, hpairs⟩
        exact (hall t ht).1 hactive heq.symm
      · rintro ⟨⟨-, hall⟩, hhead, hpairs⟩
        exact ⟨fun t ht => ⟨fun hactive heq => hhead t ht hactive heq.symm, hall t ht⟩, hpairs⟩

/-! ## Removals and runs -/

theorem Integrity.removeTarget (h : s.Integrity) (targetId : Uuid) : (s.operate (.removeTarget targetId)).Integrity := by
  refine ⟨h.indexed.removeTarget targetId, occupied_removeTarget h.occupied targetId, fun id => ?_⟩
  have hcurrent := h.current id
  simp only [operate, IncidentWatchEngine.operate, versionsAfter, Function.update_apply]
  cases hlookup : s.engine.allTargets.lookup targetId with
  | none =>
    rw [removeTarget_of_none hlookup]
    split_ifs with hid
    · rw [hid]
      exact hlookup
    · exact hcurrent
  | some target =>
    rw [allTargets_removeTarget hlookup]
    split_ifs with hid
    · rw [hid]
      exact AList.lookup_erase targetId s.engine.allTargets
    · rw [AList.lookup_erase_ne hid]
      exact hcurrent

/-- **One operation.** -/
theorem Integrity.operate_iff (h : s.Integrity) (op : Operation) : (s.operate op).Integrity ↔ s.AddsNew op := by
  cases op with
  | addTarget target =>
    constructor
    · intro hafter hold
      exact hafter.not_spoiled (h.spoiled_add hold)
    · exact h.add
  | loadTargets targets =>
    rw [operate_loadTargets]
    exact h.foldl_add_iff targets
  | removeTarget targetId => exact ⟨fun _ => trivial, fun _ => h.removeTarget targetId⟩
  | registerIncidentTitle caseId title =>
    exact ⟨fun _ => trivial, fun _ => ⟨⟨h.indexed.keyed, h.indexed.held⟩, h.occupied, h.current⟩⟩
  | call call =>
    refine ⟨fun _ => trivial, fun _ => ⟨h.indexed.step call, fun key => ?_, fun id => ?_⟩⟩
    · obtain ⟨t, ht⟩ := s.engine.step_frame call
      simp only [operate, IncidentWatchEngine.operate, ht]
      exact h.occupied key
    · obtain ⟨t, ht⟩ := s.engine.step_frame call
      simp only [operate, IncidentWatchEngine.operate, ht]
      exact h.current id

/-- **Watch-index integrity.** From a new engine on, the four indices hold exactly the targets of `all_targets`, these are
the last versions that are active, and no bucket is empty, in every state of exactly the runs in which no addition names
an id that `all_targets` holds at that moment. -/
theorem integrity_iff (maxDepth : ℕ) (ops : List Operation) :
    Always operate Integrity (start maxDepth) ops ↔ Steps operate AddsNew (start maxDepth) ops :=
  always_iff_steps (A := fun _ => True) (fun _ op _ h => h.operate_iff op) (fun _ _ => trivial)
    (start_integrity maxDepth)

/-- the watched outpoint is found to be the output of a script, and the target corrected -/
def corrected : WatchTarget :=
  { watchedOutpoint with kind := .scriptPubKey "00141122334455667788990011223344556677889900" }

def correction : List Operation := [.addTarget watchedOutpoint, .addTarget corrected]

/-- **The version before the correction stays.** `all_targets` holds the new version, the outpoint index the old one. -/
theorem correction_leaves_old_version :
    (run operate (start 3) correction).engine.allTargets.lookup watchedOutpoint.id = some corrected ∧
      (run operate (start 3) correction).engine.found watchedOutpoint.kind.indexKey = [watchedOutpoint] ∧
      ¬ (run operate (start 3) correction).Integrity := by
  have hlookup : (run operate (start 3) correction).engine.allTargets.lookup watchedOutpoint.id = some corrected := by
    decide +kernel
  have hfound : (run operate (start 3) correction).engine.found watchedOutpoint.kind.indexKey = [watchedOutpoint] := by
    decide +kernel
  refine ⟨hlookup, hfound, fun h => ?_⟩
  have hmem : watchedOutpoint ∈ (run operate (start 3) correction).engine.found watchedOutpoint.kind.indexKey := by
    rw [hfound]
    exact List.mem_cons_self
  obtain ⟨hold, -⟩ := h.indexed.of_mem hmem
  rw [hlookup] at hold
  exact absurd (Option.some.inj hold) (by decide)

end Registered

end IncidentWatchEngine

end ObsChain
