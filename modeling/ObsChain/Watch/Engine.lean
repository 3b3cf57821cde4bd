/-
The incident watch engine (`watch_engine.rs`): observed transactions against the watch targets of incidents.

The engine holds four indices over its targets, and the outpoints it tracks because they descend from a spent watched
outpoint (`descendant_outpoints`, `descendant_fifo` and `max_tracked_descendants` are one `BoundedMap`). An observed
transaction reads the indices and changes the tracking only, so the pass is written as a function of the engine that
carries the tracking along: `Tracking` goes in, the new one and the reports come out.

One report is built in one place (`targetReport`) from what the match kinds differ in (`Match`); a descendant's report has
its own body, since its target may be gone. Ids and times are added by `Stamp.seal` in the order of the reports.

An output index fits u32. Not modelled: `created_at` of a tracked outpoint, which nothing reads, log lines, and the
timeline entries and incident updates made from an activity.
-/
import Mathlib.Tactic
import Mathlib.Data.List.AList
import ObsChain.Core.BoundedMap
import ObsChain.Domain.Watch

namespace ObsChain

structure TrackedDescendantOutpoint where
  incidentId : Uuid
  caseId : String
  originTargetId : Uuid
  depth : ℕ
  confidence : ProvenanceClassification
deriving DecidableEq, Repr

/-- a txid in lower case, and an output index -/
abbrev OutpointKey := String × ℕ

abbrev Tracking := BoundedMap OutpointKey TrackedDescendantOutpoint

def maxAllowedFollowDepth : ℕ := 5

def defaultMaxTrackedDescendants : ℕ := 1000

/-- how far descendants are followed -/
abbrev FollowDepth := { depth : ℕ // 1 ≤ depth ∧ depth ≤ maxAllowedFollowDepth }

/-- `clamp(1, MAX_ALLOWED_FOLLOW_DEPTH)` -/
def FollowDepth.clamp (depth : ℕ) : FollowDepth :=
  ⟨max 1 (min depth maxAllowedFollowDepth), by unfold maxAllowedFollowDepth; omega⟩

structure IncidentWatchEngine where
  outpointIndex : AList (fun _ : OutpointKey => List WatchTarget)
  scriptIndex : AList (fun _ : String => List WatchTarget)
  addressIndex : AList (fun _ : String => List WatchTarget)
  txidIndex : AList (fun _ : String => List WatchTarget)
  allTargets : AList (fun _ : Uuid => WatchTarget)
  descendants : Tracking
  maxDescendantDepth : FollowDepth
  incidentTitles : AList (fun _ : String => String)

/-- an activity and the alert it raises -/
abbrev Report := ActivityDraft × Option AlertDraft

def outpointKey (txid : String) (vout : ℕ) : OutpointKey := (toLowercase txid, vout)

def TxInputObservation.key (input : TxInputObservation) : OutpointKey := outpointKey input.txid input.vout

/-- the outputs that can be spent, in order, with their keys; an OP_RETURN output cannot -/
def TransactionObservation.spendable (tx : TransactionObservation) : List OutpointKey :=
  (tx.outputs.zipIdx.filter fun o => !o.1.isOpReturn).map fun o => outpointKey tx.txid o.2

namespace IncidentWatchEngine

def withFollowDepth (maxDepth : ℕ) : IncidentWatchEngine :=
  ⟨∅, ∅, ∅, ∅, ∅, BoundedMap.empty defaultMaxTrackedDescendants, FollowDepth.clamp maxDepth, ∅⟩

def registerIncidentTitle (e : IncidentWatchEngine) (caseId title : String) : IncidentWatchEngine :=
  { e with incidentTitles := e.incidentTitles.insert caseId title }

/-! ## Targets -/

/-- `entry(key).or_default().push(target)` -/
def indexPush {κ : Type} [DecidableEq κ] (index : AList (fun _ : κ => List WatchTarget)) (key : κ)
    (target : WatchTarget) : AList (fun _ : κ => List WatchTarget) :=
  index.insert key ((index.lookup key).getD [] ++ [target])

/-- drop a target from a bucket, and the bucket when it is empty -/
def indexRemove {κ : Type} [DecidableEq κ] (index : AList (fun _ : κ => List WatchTarget)) (key : κ) (targetId : Uuid) :
    AList (fun _ : κ => List WatchTarget) :=
  match index.lookup key with
  | none => index
  | some bucket =>
    let kept := bucket.filter fun t => t.id != targetId
    if kept.isEmpty then index.erase key else index.insert key kept

def addTarget (e : IncidentWatchEngine) (target : WatchTarget) : IncidentWatchEngine :=
  if !target.active then e
  else
    let e := { e with allTargets := e.allTargets.insert target.id target }
    match target.kind with
    | .outPoint txid vout => { e with outpointIndex := indexPush e.outpointIndex (outpointKey txid vout) target }
    | .scriptPubKey scriptHex => { e with scriptIndex := indexPush e.scriptIndex (toLowercase scriptHex) target }
    | .address address _ => { e with addressIndex := indexPush e.addressIndex address target }
    | .transaction txid => { e with txidIndex := indexPush e.txidIndex (toLowercase txid) target }

def loadTargets (e : IncidentWatchEngine) (targets : List WatchTarget) : IncidentWatchEngine :=
  targets.foldl addTarget e

def removeTarget (e : IncidentWatchEngine) (targetId : Uuid) : IncidentWatchEngine :=
  match e.allTargets.lookup targetId with
  | none => e
  | some target =>
    let e := { e with allTargets := e.allTargets.erase targetId }
    match target.kind with
    | .outPoint txid vout => { e with outpointIndex := indexRemove e.outpointIndex (outpointKey txid vout) targetId }
    | .scriptPubKey scriptHex => { e with scriptIndex := indexRemove e.scriptIndex (toLowercase scriptHex) targetId }
    | .address address _ => { e with addressIndex := indexRemove e.addressIndex address targetId }
    | .transaction txid => { e with txidIndex := indexRemove e.txidIndex (toLowercase txid) targetId }

/-! ## Alerts -/

def calculateAlertSeverity (activityType : IncidentActivityType) (correlation : CorrelationStrength)
    (_confidence : ProvenanceClassification) (valueSats : Option ℕ) : EventSeverity :=
  let value := valueSats.getD 0
  if activityType = .watchedOutpointSpent then
    if value ≥ 10000000000 then .critical else if value ≥ 1000000000 then .high else .high
  else if correlation = .heuristic then .medium
  else if value ≥ 10000000000 ∧ correlation = .direct then .critical
  else if value ≥ 1000000000 then .high
  else
    match activityType with
    | .watchedOutpointSpent => .high
    | .watchedScriptReceived => .medium
    | .watchedAddressReceived => .medium
    | .watchedAddressSpent => .medium
    | .watchedTransactionConfirmed => .medium
    | .watchedTransactionObserved => .low
    | .transactionReplacement => .medium
    | .newDescendantObserved => if value ≥ 500000000 then .high else .low

def alertTitle : IncidentActivityType → String
  | .watchedOutpointSpent => "Watched Outpoint Spent"
  | .watchedScriptReceived => "Watched Script Received Funds"
  | .watchedAddressReceived => "Monitored Address Received Funds"
  | .watchedAddressSpent => "Monitored Address Spent Funds"
  | .watchedTransactionConfirmed => "Watched Transaction Confirmed"
  | .watchedTransactionObserved => "Watched Transaction Observed"
  | .transactionReplacement => "Transaction Replacement (RBF)"
  | .newDescendantObserved => "New Descendant Activity"

/-- every activity is significant -/
def createAlertIfSignificant (e : IncidentWatchEngine) (activity : ActivityDraft) (target : WatchTarget) :
    Option AlertDraft :=
  some
    { incidentId := activity.incidentId
      caseId := activity.caseId
      incidentTitle := (e.incidentTitles.lookup activity.caseId).getD ("Incident " ++ activity.caseId)
      severity := calculateAlertSeverity activity.activityType activity.correlationStrength activity.confidence
        activity.valueSats
      title := s!"[{activity.caseId}] {alertTitle activity.activityType}"
      summary := s!"{activity.description}. Target: {target.label.getD target.kind.summary} (Provenance: " ++
        s!"{activity.confidence.debug}, Strength: {activity.correlationStrength.debug})"
      confidence := activity.confidence
      correlationStrength := activity.correlationStrength
      valueSats := activity.valueSats
      triggerTxid := activity.triggerTxid }

/-! ## Matches -/

/-- what the match kinds differ in -/
structure Match where
  target : WatchTarget
  activityType : IncidentActivityType
  valueSats : Option ℕ
  correlationStrength : CorrelationStrength
  description : String
  details : Value

/-- `ActivityStatus` of an observation at this height -/
def statusAt (blockHeight : Option ℕ) : ActivityStatus := if blockHeight.isSome then .confirmed else .mempool

def fallbackSource : ObservationSource := ⟨"bitcoin", "unknown", none⟩

/-- the report of a target that an observed transaction matches -/
def targetReport (e : IncidentWatchEngine) (tx : TransactionObservation) (blockHeight : Option ℕ)
    (blockHash : Option String) (m : Match) : Report :=
  let activity : ActivityDraft :=
    { incidentId := m.target.incidentId
      caseId := m.target.caseId
      activityType := m.activityType
      triggerTxid := some tx.txid
      blockHeight := blockHeight
      blockHash := blockHash
      valueSats := m.valueSats
      watchTargetId := m.target.id
      confidence := m.target.classification
      correlationStrength := m.correlationStrength
      status := statusAt blockHeight
      source := tx.source.getD fallbackSource
      evidence := m.target.evidenceId.toList
      description := m.description
      details := some m.details
      dedupKey := IncidentActivity.generateDedupKey m.target.incidentId m.activityType (some tx.txid) m.target.id }
  (activity, e.createAlertIfSignificant activity m.target)

def txidMatch (tx : TransactionObservation) (blockHeight : Option ℕ) (target : WatchTarget) : Match where
  target := target
  activityType := if blockHeight.isSome then .watchedTransactionConfirmed else .watchedTransactionObserved
  valueSats := some tx.totalOutputSats
  correlationStrength := .direct
  description := s!"Monitored transaction {tx.txid} observed on-chain ({(statusAt blockHeight).debug})"
  details := .object [
    ("fee_sats", .nat tx.feeSats),
    ("total_output_sats", .nat tx.totalOutputSats),
    ("txid", .string tx.txid),
    ("vin_count", .nat tx.inputs.length),
    ("vout_count", .nat tx.outputs.length)]

def outpointJson (input : TxInputObservation) : Value :=
  .object [("txid", .string input.txid), ("vout", .nat input.vout)]

def outpointMatch (tx : TransactionObservation) (vin : ℕ) (input : TxInputObservation) (target : WatchTarget) :
    Match where
  target := target
  activityType := .watchedOutpointSpent
  valueSats := input.prevOutValueSats
  correlationStrength := .direct
  description :=
    s!"Watched outpoint {input.txid}:{input.vout} spent by transaction {tx.txid} (input #{vin})"
  details := .object [
    ("spending_txid", .string tx.txid),
    ("spent_outpoint", outpointJson input),
    ("value_sats", .optNat input.prevOutValueSats),
    ("vin_index", .nat vin)]

/-- a heuristic address match is never a direct proof of ownership -/
def addressStrength : ProvenanceClassification → CorrelationStrength
  | .onChainVerified => .direct
  | .officiallyAttributed => .structural
  | .reputableReporting | .heuristic | .unverified | .disputed => .heuristic

def addressSpentMatch (tx : TransactionObservation) (vin : ℕ) (input : TxInputObservation) (addr : String)
    (target : WatchTarget) : Match where
  target := target
  activityType := .watchedAddressSpent
  valueSats := input.prevOutValueSats
  correlationStrength := addressStrength target.classification
  description := s!"Monitored address {addr} spent {input.prevOutValueSats.getD 0} sats in tx {tx.txid}"
  details := .object [
    ("address", .string addr),
    ("co_spent_inputs_count", .nat tx.inputs.length),
    ("spent_txid", .string tx.txid),
    ("vin_index", .nat vin)]

def scriptMatch (tx : TransactionObservation) (vout : ℕ) (output : TxOutputObservation) (scriptHex : String)
    (target : WatchTarget) : Match where
  target := target
  activityType := .watchedScriptReceived
  valueSats := some output.valueSats
  correlationStrength := .direct
  description := s!"Watched scriptPubKey received {output.valueSats} sats in tx {tx.txid} (output #{vout})"
  details := .object [
    ("script_pubkey", .string scriptHex),
    ("value_sats", .nat output.valueSats),
    ("vout_index", .nat vout)]

def addressReceivedMatch (tx : TransactionObservation) (vout : ℕ) (output : TxOutputObservation) (addr : String)
    (target : WatchTarget) : Match where
  target := target
  activityType := .watchedAddressReceived
  valueSats := some output.valueSats
  correlationStrength := addressStrength target.classification
  description :=
    s!"Monitored address {addr} received {output.valueSats} sats in tx {tx.txid} (output #{vout})"
  details := .object [
    ("address", .string addr),
    ("value_sats", .nat output.valueSats),
    ("vout_index", .nat vout)]

/-- the targets of an index under a key -/
def watching {κ : Type} [DecidableEq κ] (index : AList (fun _ : κ => List WatchTarget)) (key : κ) : List WatchTarget :=
  (index.lookup key).getD []

def txidMatches (e : IncidentWatchEngine) (tx : TransactionObservation) (blockHeight : Option ℕ) : List Match :=
  (watching e.txidIndex (toLowercase tx.txid)).map (txidMatch tx blockHeight)

def outpointMatches (e : IncidentWatchEngine) (tx : TransactionObservation) (vin : ℕ) (input : TxInputObservation) :
    List Match :=
  (watching e.outpointIndex input.key).map (outpointMatch tx vin input)

def addressSpentMatches (e : IncidentWatchEngine) (tx : TransactionObservation) (vin : ℕ)
    (input : TxInputObservation) : List Match :=
  match input.prevOutAddress with
  | none => []
  | some addr => (watching e.addressIndex addr).map (addressSpentMatch tx vin input addr)

/-- 3. outputs: watched scripts, then watched addresses -/
def outputMatches (e : IncidentWatchEngine) (tx : TransactionObservation) (vout : ℕ) (output : TxOutputObservation) :
    List Match :=
  (match output.scriptpubkeyHex with
    | none => []
    | some scriptHex =>
      (watching e.scriptIndex (toLowercase scriptHex)).map (scriptMatch tx vout output scriptHex)) ++
  match output.address with
  | none => []
  | some addr => (watching e.addressIndex addr).map (addressReceivedMatch tx vout output addr)

/-! ## Observed transactions -/

/-- the spendable outputs are tracked, unless they are too far from the watched outpoint -/
def enrollDescendants (e : IncidentWatchEngine) (tx : TransactionObservation) (tracking : Tracking)
    (d : TrackedDescendantOutpoint) : Tracking :=
  if d.depth > e.maxDescendantDepth then tracking else tracking.insertAll tx.spendable d

/-- the record under which the outputs of a spent watched outpoint are tracked -/
def firstLayer (target : WatchTarget) : TrackedDescendantOutpoint :=
  ⟨target.incidentId, target.caseId, target.id, 1, target.classification⟩

/-- 2A. a watched outpoint: its targets are reported, and each enrols the outputs; an alert does not read the tracking -/
def spendOutpoint (e : IncidentWatchEngine) (tx : TransactionObservation) (blockHeight : Option ℕ)
    (blockHash : Option String) (tracking : Tracking) (vin : ℕ) (input : TxInputObservation) :
    Tracking × List Report :=
  let found := e.outpointMatches tx vin input
  (found.foldl (fun t m => e.enrollDescendants tx t (firstLayer m.target)) tracking,
    found.map (e.targetReport tx blockHeight blockHash))

def descendantReport (e : IncidentWatchEngine) (tx : TransactionObservation) (blockHeight : Option ℕ)
    (blockHash : Option String) (input : TxInputObservation) (d : TrackedDescendantOutpoint) : Report :=
  let activity : ActivityDraft :=
    { incidentId := d.incidentId
      caseId := d.caseId
      activityType := .newDescendantObserved
      triggerTxid := some tx.txid
      blockHeight := blockHeight
      blockHash := blockHash
      valueSats := input.prevOutValueSats
      watchTargetId := d.originTargetId
      confidence := d.confidence
      correlationStrength := .structural
      status := statusAt blockHeight
      source := tx.source.getD fallbackSource
      evidence := []
      description := s!"Incident descendant outpoint {input.txid}:{input.vout} (depth {d.depth}) " ++
        s!"spent by transaction {tx.txid}"
      details := some (.object [
        ("descendant_depth", .nat d.depth),
        ("spending_txid", .string tx.txid),
        ("spent_outpoint", outpointJson input)])
      dedupKey := IncidentActivity.generateDedupKey d.incidentId .newDescendantObserved (some tx.txid)
        d.originTargetId }
  (activity, (e.allTargets.lookup d.originTargetId).bind (e.createAlertIfSignificant activity))

/-- 2B. a tracked descendant: it is tracked no longer, and the outputs are the next generation -/
def spendDescendant (e : IncidentWatchEngine) (tx : TransactionObservation) (blockHeight : Option ℕ)
    (blockHash : Option String) (tracking : Tracking) (input : TxInputObservation) : Tracking × List Report :=
  match tracking.get input.key with
  | none => (tracking, [])
  | some d =>
    let spent := tracking.remove input.key
    (if d.depth < e.maxDescendantDepth then e.enrollDescendants tx spent { d with depth := d.depth + 1 } else spent,
      [e.descendantReport tx blockHeight blockHash input d])

/-- 2. one input: the watched outpoint, the tracked descendant, the watched address -/
def processInput (e : IncidentWatchEngine) (tx : TransactionObservation) (blockHeight : Option ℕ)
    (blockHash : Option String) (tracking : Tracking) (vin : ℕ) (input : TxInputObservation) :
    Tracking × List Report :=
  let a := e.spendOutpoint tx blockHeight blockHash tracking vin input
  let b := e.spendDescendant tx blockHeight blockHash a.1 input
  (b.1, a.2 ++ b.2 ++ (e.addressSpentMatches tx vin input).map (e.targetReport tx blockHeight blockHash))

/-- the inputs from the `vin`-th on -/
def processInputs (e : IncidentWatchEngine) (tx : TransactionObservation) (blockHeight : Option ℕ)
    (blockHash : Option String) : Tracking → ℕ → List TxInputObservation → Tracking × List Report
  | tracking, _, [] => (tracking, [])
  | tracking, vin, input :: inputs =>
    let r := e.processInput tx blockHeight blockHash tracking vin input
    let rest := processInputs e tx blockHeight blockHash r.1 (vin + 1) inputs
    (rest.1, r.2 ++ rest.2)

/-- the reports of an observed transaction, and the engine after it -/
def observe (e : IncidentWatchEngine) (tx : TransactionObservation) (blockHeight : Option ℕ)
    (blockHash : Option String) : IncidentWatchEngine × List Report :=
  let txids := (e.txidMatches tx blockHeight).map (e.targetReport tx blockHeight blockHash)
  let spends := e.processInputs tx blockHeight blockHash e.descendants 0 tx.inputs
  let receipts := (tx.outputs.zipIdx.flatMap fun o => e.outputMatches tx o.2 o.1).map
    (e.targetReport tx blockHeight blockHash)
  ({ e with descendants := spends.1 }, txids ++ spends.2 ++ receipts)

/-! ## Replacements -/

/-- the first target watching the replacement, else the first one watching a replaced transaction -/
def replacementTarget (e : IncidentWatchEngine) (repl : TransactionReplacement) : Option WatchTarget :=
  match (e.txidIndex.lookup (toLowercase repl.replacementTxid)).bind List.head? with
  | some target => some target
  | none => (repl.replacedTxids.findSome? fun old => e.txidIndex.lookup (toLowercase old)).bind List.head?

def replacementReport (e : IncidentWatchEngine) (repl : TransactionReplacement) (target : WatchTarget) : Report :=
  let activity : ActivityDraft :=
    { incidentId := target.incidentId
      caseId := target.caseId
      activityType := .transactionReplacement
      triggerTxid := some repl.replacementTxid
      blockHeight := none
      blockHash := none
      valueSats := none
      watchTargetId := target.id
      confidence := target.classification
      correlationStrength := .structural
      status := .mempool
      source := repl.source.getD fallbackSource
      evidence := target.evidenceId.toList
      description := "RBF replacement observed for incident tx " ++ String.intercalate ", " repl.replacedTxids ++
        s!": replaced by {repl.replacementTxid} (fee delta: {repl.feeDeltaSats} sats)"
      details := some (.object [
        ("fee_delta_sats", .number (if repl.feeDeltaSats < 0 then .negInt repl.feeDeltaSats
          else .posInt repl.feeDeltaSats.toNat)),
        ("replaced_txids", .array (repl.replacedTxids.map .string)),
        ("replacement_txid", .string repl.replacementTxid)])
      dedupKey := IncidentActivity.generateDedupKey target.incidentId .transactionReplacement
        (some repl.replacementTxid) target.id }
  (activity, e.createAlertIfSignificant activity target)

def observeReplacement (e : IncidentWatchEngine) (repl : TransactionReplacement) : List Report :=
  (e.replacementTarget repl).toList.map (e.replacementReport repl)

/-! ## Results -/

/-- the clock reading of one call, and the ids it draws for its reports, in order -/
structure Stamp where
  now : DateTime
  activityId : ℕ → Uuid
  alertId : ℕ → Uuid

def Stamp.seal (stamp : Stamp) (i : ℕ) (r : Report) : IncidentActivity × Option IncidentAlert :=
  ({ r.1 with id := stamp.activityId i, observedAt := stamp.now },
    r.2.map fun alert =>
      { alert with id := stamp.alertId i, activityId := stamp.activityId i, observedAt := stamp.now })

/-- a result up to ids and times -/
def unsealed (r : IncidentActivity × Option IncidentAlert) : Report :=
  (r.1.toActivityDraft, r.2.map IncidentAlert.toAlertDraft)

def processTransaction (stamp : Stamp) (e : IncidentWatchEngine) (tx : TransactionObservation)
    (blockHeight : Option ℕ) (blockHash : Option String) :
    IncidentWatchEngine × List (IncidentActivity × Option IncidentAlert) :=
  let r := e.observe tx blockHeight blockHash
  (r.1, r.2.mapIdx stamp.seal)

def processReplacement (stamp : Stamp) (e : IncidentWatchEngine) (repl : TransactionReplacement) :
    List (IncidentActivity × Option IncidentAlert) :=
  (e.observeReplacement repl).mapIdx stamp.seal

/-- a block as such matches nothing -/
def processBlock (_e : IncidentWatchEngine) (_block : BlockObservation) :
    List (IncidentActivity × Option IncidentAlert) := []

@[simp] theorem unsealed_seal (stamp : Stamp) (i : ℕ) (r : Report) : unsealed (stamp.seal i r) = r := by
  obtain ⟨a, alert⟩ := r
  cases alert <;> rfl

/-- up to ids and times, the results are the reports -/
theorem map_unsealed_mapIdx (stamp : Stamp) (rs : List Report) : (rs.mapIdx stamp.seal).map unsealed = rs := by
  apply List.ext_getElem?
  intro i
  cases h : rs[i]? with
  | none => simp [h]
  | some r => simp [h]

/-! ## Calls -/

/-- what the observation feeds call -/
inductive Call where
  | transaction (tx : TransactionObservation) (blockHeight : Option ℕ) (blockHash : Option String)
  | replacement (repl : TransactionReplacement)
  | block (block : BlockObservation)

def step (e : IncidentWatchEngine) : Call → IncidentWatchEngine
  | .transaction tx blockHeight blockHash => (e.observe tx blockHeight blockHash).1
  | .replacement _ => e
  | .block _ => e

def returned (stamp : Stamp) (e : IncidentWatchEngine) : Call → List (IncidentActivity × Option IncidentAlert)
  | .transaction tx blockHeight blockHash => (processTransaction stamp e tx blockHeight blockHash).2
  | .replacement repl => processReplacement stamp e repl
  | .block block => e.processBlock block

/-- the reports of a call -/
def reports (e : IncidentWatchEngine) : Call → List Report
  | .transaction tx blockHeight blockHash => (e.observe tx blockHeight blockHash).2
  | .replacement repl => e.observeReplacement repl
  | .block _ => []

/-- up to ids and times, what a call returns are its reports -/
theorem map_unsealed_returned (stamp : Stamp) (e : IncidentWatchEngine) (c : Call) :
    (e.returned stamp c).map unsealed = e.reports c := by
  cases c with
  | transaction tx blockHeight blockHash => exact map_unsealed_mapIdx stamp _
  | replacement repl => exact map_unsealed_mapIdx stamp _
  | block block => rfl

/-- a call changes nothing but the tracking -/
theorem step_frame (e : IncidentWatchEngine) (c : Call) : ∃ t, e.step c = { e with descendants := t } := by
  cases c with
  | transaction tx blockHeight blockHash => exact ⟨_, rfl⟩
  | replacement repl => exact ⟨e.descendants, rfl⟩
  | block block => exact ⟨e.descendants, rfl⟩

end IncidentWatchEngine

end ObsChain
