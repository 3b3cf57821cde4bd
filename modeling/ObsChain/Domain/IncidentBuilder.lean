/-
Building an incident dossier (`builder.rs` and `validation.rs` of `obschain-incidents`, the graph of `incident.rs`).

A dossier is built by a chain of calls, in any order and number, and `build` validates what they left: the amounts, the graph,
the order of timeline and updates, the evidence and the messages. Validation stops at the first item that is wrong, and the
error names it.

Model: `BuilderCall` is one call and `build` the chain. A loop of the validation is one of `Checks`. `display` is how a time
is printed. `new` draws an id and reads the clock; both are arguments.

- `validateIncident_ok_iff`: what passes is `Valid`.
- `validateIncident_error` (**main result**): an error is a `Fault` of the dossier, the first of its check, and everything that
  is checked before it is in order.
- `build_ok_iff` (**main result**): a chain of calls builds exactly when it is `Buildable`, a condition on the calls alone,
  and its graph has no duplicate nodes in any case.
- `timeline_sorted_iff`: the timeline is in order exactly when no entry that is earlier than one before it is added after the
  last sort.

Not modelled: entities and technical findings, which are only appended, with their calls, and the two amounts in BTC.
-/
import Mathlib.Tactic
import ObsChain.Core.Checks
import ObsChain.Domain.Incident

namespace ObsChain

inductive CoreError where
  | validation (message : String)
  | provenanceViolation (message : String)
deriving DecidableEq, Repr

structure IncidentBlock where
  chain : Chain
  height : ℕ
  hash : String
  timestamp : DateTime
  txCount : Option ℕ
  evidenceId : Option Uuid
deriving DecidableEq, Repr

structure OnChainMessage where
  txid : String
  chain : Chain
  encoding : String
  decodedText : String
  rawHex : String
  confirmedAt : Option DateTime
  blockHeight : Option ℕ
  attributedSender : Option String
  senderAttributionConfidence : ProvenanceClassification
deriving DecidableEq, Repr

structure IncidentUpdate where
  id : Uuid
  timestamp : DateTime
  title : String
  summary : String
  sourceId : Option Uuid
  recoveryState : Option RecoverySummary
deriving DecidableEq, Repr

inductive GraphNodeType where
  | transaction
  | block
  | address
  | entity
  | source
  | evidence
deriving DecidableEq, Repr

inductive GraphEdgeType where
  | spends
  | confirmedIn
  | forwardsTo
  | returnsTo
  | references
  | supports
  | attributedTo
  | possiblyRelated
deriving DecidableEq, Repr

structure GraphNode where
  id : String
  label : String
  nodeType : GraphNodeType
  chain : Option Chain
  metadata : Option Value
deriving Repr

structure GraphEdge where
  source : String
  target : String
  relationship : GraphEdgeType
  confidence : ProvenanceClassification
deriving DecidableEq, Repr

structure IncidentGraph where
  nodes : List GraphNode
  edges : List GraphEdge
deriving Repr

namespace IncidentGraph

/-- a node of a known id is dropped -/
def addNode (graph : IncidentGraph) (node : GraphNode) : IncidentGraph :=
  if graph.nodes.any fun n => decide (n.id = node.id) then graph else { graph with nodes := graph.nodes ++ [node] }

def addEdge (graph : IncidentGraph) (edge : GraphEdge) : IncidentGraph := { graph with edges := graph.edges ++ [edge] }

end IncidentGraph

/-- an incident with its blocks, messages, updates and graph -/
structure Dossier extends Incident where
  blocks : List IncidentBlock
  onChainMessages : List OnChainMessage
  updates : List IncidentUpdate
  graph : IncidentGraph
deriving Repr

def ProvenanceClassification.isCryptographicallyVerified : ProvenanceClassification → Bool
  | .onChainVerified => true
  | _ => false

/-! ## Validation -/

section Validation

variable (display : DateTime → String)

def validateSenderIdentityClaim (isSelfAttributed : Bool) (claimedClassification : ProvenanceClassification) :
    Except CoreError Unit :=
  if isSelfAttributed && claimedClassification.isCryptographicallyVerified then
    .error (.provenanceViolation ("Self-attributed on-chain communication cannot be classified as ON_CHAIN_VERIFIED identity. " ++
      "Message existence is verified on-chain, but identity attribution remains UNVERIFIED or HEURISTIC."))
  else .ok ()

def hasNode (graph : IncidentGraph) (id : String) : Bool := graph.nodes.any fun n => decide (n.id = id)

/-- the first end of an edge that is no node -/
def validateEdge (graph : IncidentGraph) (edge : GraphEdge) : Except CoreError Unit :=
  if !hasNode graph edge.source then
    .error (.validation s!"Dangling graph edge: source node '{edge.source}' does not exist in graph nodes")
  else if !hasNode graph edge.target then
    .error (.validation s!"Dangling graph edge: target node '{edge.target}' does not exist in graph nodes")
  else .ok ()

def validateIncidentGraph (graph : IncidentGraph) : Except CoreError Unit :=
  match Checks.firstDuplicate (·.id) graph.nodes with
  | some node => .error (.validation s!"Duplicate graph node id detected: '{node.id}'")
  | none => graph.edges.forM (validateEdge graph)

def validateFundArithmetic (recovery : RecoverySummary) : Except CoreError Unit :=
  if recovery.recoveredSats > recovery.affectedSats then
    .error (.validation (s!"Invalid fund balance: recovered_sats ({recovery.recoveredSats}) exceeds " ++
      s!"affected_sats ({recovery.affectedSats})"))
  else
    let calculatedOutstanding := recovery.affectedSats - recovery.recoveredSats
    if !recovery.isEstimate && recovery.outstandingSats != calculatedOutstanding then
      .error (.validation (s!"Fund balance discrepancy: recorded outstanding_sats ({recovery.outstandingSats}) " ++
        s!"does not match affected - recovered ({calculatedOutstanding})"))
    else .ok ()

def validateTimeline (timeline : List TimelineEntry) : Except CoreError Unit :=
  match Checks.firstDisorder (·.timestamp) timeline with
  | some (entry, prev) =>
    .error (.validation (s!"Timeline entries must be sorted chronologically: entry '{entry.title}' " ++
      s!"({display entry.timestamp}) occurs before previous entry ({display prev})"))
  | none => .ok ()

def validateEvidence (evidence : List Evidence) : Except CoreError Unit :=
  match Checks.firstDuplicate (·.id) evidence with
  | some ev => .error (.validation s!"Duplicate evidence ID detected: '{hyphenated ev.id}'")
  | none => .ok ()

def validateMessage (msg : OnChainMessage) : Except CoreError Unit :=
  if msg.attributedSender.isSome then validateSenderIdentityClaim true msg.senderAttributionConfidence else .ok ()

def validateUpdates (updates : List IncidentUpdate) : Except CoreError Unit :=
  match Checks.firstDisorder (·.timestamp) updates with
  | some (update, prev) =>
    .error (.validation (s!"Incident updates must be in chronological order: update '{update.title}' " ++
      s!"({display update.timestamp}) occurs before previous update ({display prev})"))
  | none => .ok ()

def validateIncident (d : Dossier) : Except CoreError Unit := do
  validateFundArithmetic d.recovery
  validateIncidentGraph d.graph
  validateTimeline display d.timeline
  validateEvidence d.evidence
  d.onChainMessages.forM validateMessage
  validateUpdates display d.updates

end Validation

/-- what the amounts say of each other -/
structure Balanced (recovery : RecoverySummary) : Prop where
  recovered : recovery.recoveredSats ≤ recovery.affectedSats
  outstanding : recovery.isEstimate = false →
    recovery.outstandingSats = recovery.affectedSats - recovery.recoveredSats

/-- both ends of an edge are nodes -/
def Anchored (graph : IncidentGraph) (edge : GraphEdge) : Prop :=
  edge.source ∈ graph.nodes.map (·.id) ∧ edge.target ∈ graph.nodes.map (·.id)

/-- one node for each id, and no dangling edge -/
structure GraphValid (graph : IncidentGraph) : Prop where
  nodes : (graph.nodes.map (·.id)).Nodup
  edges : ∀ edge ∈ graph.edges, Anchored graph edge

/-- who a message is attributed to is not on the chain -/
def Honest (msg : OnChainMessage) : Prop :=
  msg.attributedSender.isSome → msg.senderAttributionConfidence ≠ .onChainVerified

/-- a dossier that passes -/
structure Valid (d : Dossier) : Prop where
  balanced : Balanced d.recovery
  graph : GraphValid d.graph
  timeline : d.timeline.Pairwise fun a b => a.timestamp ≤ b.timestamp
  evidence : (d.evidence.map (·.id)).Nodup
  messages : ∀ msg ∈ d.onChainMessages, Honest msg
  updates : d.updates.Pairwise fun a b => a.timestamp ≤ b.timestamp

/-! ## Each check -/

theorem validateFundArithmetic_ok_iff (recovery : RecoverySummary) :
    validateFundArithmetic recovery = .ok () ↔ Balanced recovery := by
  unfold validateFundArithmetic
  dsimp only
  split_ifs with hover hdiff
  · refine iff_of_false (by simp) fun h => ?_
    exact absurd h.recovered (by omega)
  · simp only [Bool.and_eq_true, Bool.not_eq_true', bne_iff_ne] at hdiff
    refine iff_of_false (by simp) fun h => ?_
    exact hdiff.2 (h.outstanding hdiff.1)
  · simp only [Bool.and_eq_true, Bool.not_eq_true', bne_iff_ne, not_and, not_not] at hdiff
    exact iff_of_true rfl ⟨by omega, hdiff⟩

theorem hasNode_iff (graph : IncidentGraph) (id : String) : hasNode graph id = true ↔ id ∈ graph.nodes.map (·.id) := by
  simp [hasNode, List.mem_map]

theorem validateEdge_ok_iff (graph : IncidentGraph) (edge : GraphEdge) :
    validateEdge graph edge = .ok () ↔ Anchored graph edge := by
  unfold validateEdge Anchored
  rw [← hasNode_iff, ← hasNode_iff]
  split_ifs with hsource htarget
  · simp_all
  · simp_all
  · simp_all

theorem validateMessage_ok_iff (msg : OnChainMessage) : validateMessage msg = .ok () ↔ Honest msg := by
  unfold validateMessage validateSenderIdentityClaim Honest
  cases msg.attributedSender with
  | none => simp
  | some sender => cases msg.senderAttributionConfidence <;> simp [ProvenanceClassification.isCryptographicallyVerified]

theorem validateIncidentGraph_ok_iff (graph : IncidentGraph) : validateIncidentGraph graph = .ok () ↔ GraphValid graph := by
  unfold validateIncidentGraph
  cases hdup : Checks.firstDuplicate (fun n : GraphNode => n.id) graph.nodes with
  | some node =>
    refine iff_of_false (by simp) fun h => ?_
    rw [Checks.firstDuplicate_eq_none.2 h.nodes] at hdup
    cases hdup
  | none =>
    simp only [Checks.forM_ok_iff, validateEdge_ok_iff]
    exact ⟨fun h => ⟨Checks.firstDuplicate_eq_none.1 hdup, h⟩, fun h => h.edges⟩

theorem validateTimeline_ok_iff (display : DateTime → String) (timeline : List TimelineEntry) :
    validateTimeline display timeline = .ok () ↔ timeline.Pairwise fun a b => a.timestamp ≤ b.timestamp := by
  unfold validateTimeline
  rw [← Checks.firstDisorder_eq_none]
  cases Checks.firstDisorder (fun e : TimelineEntry => e.timestamp) timeline <;> simp

theorem validateUpdates_ok_iff (display : DateTime → String) (updates : List IncidentUpdate) :
    validateUpdates display updates = .ok () ↔ updates.Pairwise fun a b => a.timestamp ≤ b.timestamp := by
  unfold validateUpdates
  rw [← Checks.firstDisorder_eq_none]
  cases Checks.firstDisorder (fun u : IncidentUpdate => u.timestamp) updates <;> simp

theorem validateEvidence_ok_iff (evidence : List Evidence) :
    validateEvidence evidence = .ok () ↔ (evidence.map (·.id)).Nodup := by
  unfold validateEvidence
  rw [← Checks.firstDuplicate_eq_none]
  cases Checks.firstDuplicate (fun ev : Evidence => ev.id) evidence <;> simp

/-! ## Validation as a whole -/

/-- **What passes is valid.** -/
theorem validateIncident_ok_iff (display : DateTime → String) (d : Dossier) :
    validateIncident display d = .ok () ↔ Valid d := by
  unfold validateIncident
  rw [Checks.then_ok_iff, Checks.then_ok_iff, Checks.then_ok_iff, Checks.then_ok_iff, Checks.then_ok_iff,
    validateFundArithmetic_ok_iff, validateIncidentGraph_ok_iff, validateTimeline_ok_iff, validateEvidence_ok_iff,
    Checks.forM_ok_iff, validateUpdates_ok_iff]
  simp only [validateMessage_ok_iff]
  constructor
  · rintro ⟨hfunds, hgraph, htimeline, hevidence, hmessages, hupdates⟩
    exact ⟨hfunds, hgraph, htimeline, hevidence, hmessages, hupdates⟩
  · rintro ⟨hfunds, hgraph, htimeline, hevidence, hmessages, hupdates⟩
    exact ⟨hfunds, hgraph, htimeline, hevidence, hmessages, hupdates⟩

/-- the errors, each with the first item that is wrong and with what was in order before it -/
inductive Fault (display : DateTime → String) (d : Dossier) : CoreError → Prop where
  | overRecovered (h : d.recovery.affectedSats < d.recovery.recoveredSats) :
    Fault display d (.validation (s!"Invalid fund balance: recovered_sats ({d.recovery.recoveredSats}) exceeds " ++
      s!"affected_sats ({d.recovery.affectedSats})"))
  | outstanding (h : d.recovery.recoveredSats ≤ d.recovery.affectedSats) (hexact : d.recovery.isEstimate = false)
      (hdiff : d.recovery.outstandingSats ≠ d.recovery.affectedSats - d.recovery.recoveredSats) :
    Fault display d (.validation (s!"Fund balance discrepancy: recorded outstanding_sats ({d.recovery.outstandingSats}) " ++
      s!"does not match affected - recovered ({d.recovery.affectedSats - d.recovery.recoveredSats})"))
  | duplicateNode (hfunds : Balanced d.recovery) (before after : List GraphNode) (node : GraphNode)
      (hnodes : d.graph.nodes = before ++ node :: after) (hbefore : (before.map (·.id)).Nodup)
      (hdup : node.id ∈ before.map (·.id)) :
    Fault display d (.validation s!"Duplicate graph node id detected: '{node.id}'")
  | danglingSource (hfunds : Balanced d.recovery) (hnodes : (d.graph.nodes.map (·.id)).Nodup) (before after : List GraphEdge)
      (edge : GraphEdge) (hedges : d.graph.edges = before ++ edge :: after)
      (hbefore : ∀ other ∈ before, Anchored d.graph other) (hsource : edge.source ∉ d.graph.nodes.map (·.id)) :
    Fault display d
      (.validation s!"Dangling graph edge: source node '{edge.source}' does not exist in graph nodes")
  | danglingTarget (hfunds : Balanced d.recovery) (hnodes : (d.graph.nodes.map (·.id)).Nodup) (before after : List GraphEdge)
      (edge : GraphEdge) (hedges : d.graph.edges = before ++ edge :: after)
      (hbefore : ∀ other ∈ before, Anchored d.graph other) (hsource : edge.source ∈ d.graph.nodes.map (·.id))
      (htarget : edge.target ∉ d.graph.nodes.map (·.id)) :
    Fault display d
      (.validation s!"Dangling graph edge: target node '{edge.target}' does not exist in graph nodes")
  | timeline (hfunds : Balanced d.recovery) (hgraph : GraphValid d.graph) (before after : List TimelineEntry)
      (prev entry : TimelineEntry) (htimeline : d.timeline = before ++ prev :: entry :: after)
      (hbefore : (before ++ [prev]).Pairwise fun a b => a.timestamp ≤ b.timestamp)
      (hlate : entry.timestamp < prev.timestamp) :
    Fault display d (.validation (s!"Timeline entries must be sorted chronologically: entry '{entry.title}' " ++
      s!"({display entry.timestamp}) occurs before previous entry ({display prev.timestamp})"))
  | duplicateEvidence (hfunds : Balanced d.recovery) (hgraph : GraphValid d.graph)
      (htimeline : d.timeline.Pairwise fun a b => a.timestamp ≤ b.timestamp) (before after : List Evidence) (ev : Evidence)
      (hevidence : d.evidence = before ++ ev :: after) (hbefore : (before.map (·.id)).Nodup)
      (hdup : ev.id ∈ before.map (·.id)) :
    Fault display d (.validation s!"Duplicate evidence ID detected: '{hyphenated ev.id}'")
  | message (hfunds : Balanced d.recovery) (hgraph : GraphValid d.graph)
      (htimeline : d.timeline.Pairwise fun a b => a.timestamp ≤ b.timestamp) (hevidence : (d.evidence.map (·.id)).Nodup)
      (before after : List OnChainMessage) (msg : OnChainMessage) (hmessages : d.onChainMessages = before ++ msg :: after)
      (hbefore : ∀ other ∈ before, Honest other) (hdishonest : ¬Honest msg) :
    Fault display d
      (.provenanceViolation ("Self-attributed on-chain communication cannot be classified as ON_CHAIN_VERIFIED identity. " ++
        "Message existence is verified on-chain, but identity attribution remains UNVERIFIED or HEURISTIC."))
  | updates (hfunds : Balanced d.recovery) (hgraph : GraphValid d.graph)
      (htimeline : d.timeline.Pairwise fun a b => a.timestamp ≤ b.timestamp) (hevidence : (d.evidence.map (·.id)).Nodup)
      (hmessages : ∀ msg ∈ d.onChainMessages, Honest msg) (before after : List IncidentUpdate)
      (prev update : IncidentUpdate) (hupdates : d.updates = before ++ prev :: update :: after)
      (hbefore : (before ++ [prev]).Pairwise fun a b => a.timestamp ≤ b.timestamp)
      (hlate : update.timestamp < prev.timestamp) :
    Fault display d (.validation (s!"Incident updates must be in chronological order: update '{update.title}' " ++
      s!"({display update.timestamp}) occurs before previous update ({display prev.timestamp})"))

section Errors

variable {display : DateTime → String} {d : Dossier} {e : CoreError}

theorem fault_of_funds (h : validateFundArithmetic d.recovery = .error e) : Fault display d e := by
  unfold validateFundArithmetic at h
  dsimp only at h
  split_ifs at h with hover hdiff
  · cases h
    exact .overRecovered (by omega)
  · cases h
    simp only [Bool.and_eq_true, Bool.not_eq_true', bne_iff_ne] at hdiff
    exact .outstanding (by omega) hdiff.1 hdiff.2

theorem fault_of_graph (hfunds : Balanced d.recovery) (h : validateIncidentGraph d.graph = .error e) :
    Fault display d e := by
  unfold validateIncidentGraph at h
  cases hdup : Checks.firstDuplicate (fun n : GraphNode => n.id) d.graph.nodes with
  | some node =>
    rw [hdup] at h
    cases h
    obtain ⟨before, after, hnodes, hbefore, hmem⟩ := Checks.firstDuplicate_eq_some hdup
    exact .duplicateNode hfunds before after node hnodes hbefore hmem
  | none =>
    rw [hdup] at h
    have hnodes := Checks.firstDuplicate_eq_none.1 hdup
    obtain ⟨before, edge, after, hedges, hpassed, hedge⟩ := Checks.forM_error h
    have hbefore : ∀ other ∈ before, Anchored d.graph other := fun other hother =>
      (validateEdge_ok_iff d.graph other).1 (hpassed other hother)
    unfold validateEdge at hedge
    split_ifs at hedge with hsource htarget
    · cases hedge
      refine .danglingSource hfunds hnodes before after edge hedges hbefore fun hin => ?_
      simp [(hasNode_iff d.graph edge.source).2 hin] at hsource
    · cases hedge
      have hknown : edge.source ∈ d.graph.nodes.map (·.id) := (hasNode_iff d.graph edge.source).1 (by simpa using hsource)
      refine .danglingTarget hfunds hnodes before after edge hedges hbefore hknown fun hin => ?_
      simp [(hasNode_iff d.graph edge.target).2 hin] at htarget

/-- **An error says what is wrong**, and everything that is checked before it is in order. -/
theorem validateIncident_error (h : validateIncident display d = .error e) : Fault display d e := by
  unfold validateIncident at h
  rcases Checks.then_error h with hf | ⟨hf, h⟩
  · exact fault_of_funds hf
  have hfunds := (validateFundArithmetic_ok_iff _).1 hf
  rcases Checks.then_error h with hf | ⟨hf, h⟩
  · exact fault_of_graph hfunds hf
  have hgraph := (validateIncidentGraph_ok_iff _).1 hf
  rcases Checks.then_error h with hf | ⟨hf, h⟩
  · unfold validateTimeline at hf
    cases hdis : Checks.firstDisorder (fun e : TimelineEntry => e.timestamp) d.timeline with
    | none => simp [hdis] at hf
    | some p =>
      simp only [hdis, Except.error.injEq] at hf
      obtain ⟨before, prev, after, heq, hbefore, htime, hlate⟩ := Checks.firstDisorder_eq_some hdis
      rw [← hf, ← htime]
      exact .timeline hfunds hgraph before after prev p.1 heq hbefore (htime ▸ hlate)
  have htimeline := (validateTimeline_ok_iff display _).1 hf
  rcases Checks.then_error h with hf | ⟨hf, h⟩
  · unfold validateEvidence at hf
    cases hdup : Checks.firstDuplicate (fun ev : Evidence => ev.id) d.evidence with
    | none => simp [hdup] at hf
    | some ev =>
      simp only [hdup, Except.error.injEq] at hf
      obtain ⟨before, after, heq, hbefore, hmem⟩ := Checks.firstDuplicate_eq_some hdup
      rw [← hf]
      exact .duplicateEvidence hfunds hgraph htimeline before after ev heq hbefore hmem
  have hevidence := (validateEvidence_ok_iff _).1 hf
  rcases Checks.then_error h with hf | ⟨hf, h⟩
  · obtain ⟨before, msg, after, heq, hpassed, hmsg⟩ := Checks.forM_error hf
    have hdishonest : ¬Honest msg := fun hok => by simp [(validateMessage_ok_iff msg).2 hok] at hmsg
    have hbefore : ∀ other ∈ before, Honest other := fun other hother =>
      (validateMessage_ok_iff other).1 (hpassed other hother)
    unfold validateMessage validateSenderIdentityClaim at hmsg
    split_ifs at hmsg
    cases hmsg
    exact .message hfunds hgraph htimeline hevidence before after msg heq hbefore hdishonest
  have hmessages : ∀ msg ∈ d.onChainMessages, Honest msg := fun msg hmsg =>
    (validateMessage_ok_iff msg).1 (Checks.forM_ok_iff.1 hf msg hmsg)
  unfold validateUpdates at h
  cases hdis : Checks.firstDisorder (fun u : IncidentUpdate => u.timestamp) d.updates with
  | none => simp [hdis] at h
  | some p =>
    simp only [hdis, Except.error.injEq] at h
    obtain ⟨before, prev, after, heq, hbefore, htime, hlate⟩ := Checks.firstDisorder_eq_some hdis
    rw [← h, ← htime]
    exact .updates hfunds hgraph htimeline hevidence hmessages before after prev p.1 heq hbefore (htime ▸ hlate)

end Errors

/-! ## The builder -/

inductive BuilderCall where
  | withId (id : Uuid)
  | status (status : IncidentStatus)
  | observedAt (time : DateTime)
  | updatedAt (time : DateTime)
  | recovery (recovery : RecoverySummary)
  | addVerifiedFact (text : String)
  | addOfficialClaim (text : String)
  | addReportedClaim (text : String)
  | addHeuristicClaim (text : String)
  | addUnknownClaim (text : String)
  | addTransaction (tx : IncidentTransaction)
  | addBlock (block : IncidentBlock)
  | addOnChainMessage (msg : OnChainMessage)
  | addTimelineEntry (entry : TimelineEntry)
  | addEvidence (evidence : Evidence)
  | addSource (source : Source)
  | addUpdate (update : IncidentUpdate)
  | addGraphNode (node : GraphNode)
  | addGraphEdge (edge : GraphEdge)
  | sortTimeline
deriving Repr

namespace IncidentBuilder

def new (id : Uuid) (caseId title summary : String) (severity : EventSeverity) (now : DateTime) : Dossier where
  id := id
  caseId := caseId
  title := title
  summary := summary
  status := .detected
  severity := severity
  recovery := RecoverySummary.new 0 0 now
  firstObservedAt := now
  lastUpdatedAt := now
  structuredClaims := ⟨[], [], [], [], []⟩
  transactions := []
  timeline := []
  evidence := []
  sources := []
  facts := []
  reportedClaims := []
  unverifiedClaims := []
  associatedTxids := []
  associatedBlockHeights := []
  blocks := []
  onChainMessages := []
  updates := []
  graph := ⟨[], []⟩

/-- a value that is not there yet is appended -/
def pushNew {α : Type} [DecidableEq α] (l : List α) (x : α) : List α := if x ∈ l then l else l ++ [x]

def apply (d : Dossier) : BuilderCall → Dossier
  | .withId id => { d with id := id }
  | .status status => { d with status := status }
  | .observedAt time => { d with firstObservedAt := time }
  | .updatedAt time => { d with lastUpdatedAt := time }
  | .recovery recovery => { d with recovery := recovery }
  | .addVerifiedFact text =>
    { d with
      structuredClaims := { d.structuredClaims with verifiedOnChain := d.structuredClaims.verifiedOnChain ++ [text] }
      facts := d.facts ++ [text] }
  | .addOfficialClaim text =>
    { d with
      structuredClaims :=
        { d.structuredClaims with officiallyAttributed := d.structuredClaims.officiallyAttributed ++ [text] }
      reportedClaims := d.reportedClaims ++ [text] }
  | .addReportedClaim text =>
    { d with
      structuredClaims := { d.structuredClaims with reported := d.structuredClaims.reported ++ [text] }
      reportedClaims := d.reportedClaims ++ [text] }
  | .addHeuristicClaim text =>
    { d with
      structuredClaims := { d.structuredClaims with heuristic := d.structuredClaims.heuristic ++ [text] }
      unverifiedClaims := d.unverifiedClaims ++ [text] }
  | .addUnknownClaim text =>
    { d with
      structuredClaims := { d.structuredClaims with unknown := d.structuredClaims.unknown ++ [text] }
      unverifiedClaims := d.unverifiedClaims ++ [text] }
  | .addTransaction tx =>
    { d with associatedTxids := pushNew d.associatedTxids tx.txid, transactions := d.transactions ++ [tx] }
  | .addBlock block =>
    { d with
      associatedBlockHeights := pushNew d.associatedBlockHeights block.height
      blocks := d.blocks ++ [block] }
  | .addOnChainMessage msg => { d with onChainMessages := d.onChainMessages ++ [msg] }
  | .addTimelineEntry entry => { d with timeline := d.timeline ++ [entry] }
  | .addEvidence evidence => { d with evidence := d.evidence ++ [evidence] }
  | .addSource source => { d with sources := d.sources ++ [source] }
  | .addUpdate update => { d with updates := d.updates ++ [update] }
  | .addGraphNode node => { d with graph := d.graph.addNode node }
  | .addGraphEdge edge => { d with graph := d.graph.addEdge edge }
  -- a stable sort
  | .sortTimeline => { d with timeline := d.timeline.mergeSort fun a b => decide (a.timestamp ≤ b.timestamp) }

/-- a chain of calls -/
def chain (d : Dossier) (calls : List BuilderCall) : Dossier := calls.foldl apply d

def build (display : DateTime → String) (d : Dossier) : Except CoreError Dossier := do
  validateIncident display d
  return d

/-! ## What the calls add -/

def evidenceOf : BuilderCall → Option Evidence
  | .addEvidence evidence => some evidence
  | _ => none

def messageOf : BuilderCall → Option OnChainMessage
  | .addOnChainMessage msg => some msg
  | _ => none

def updateOf : BuilderCall → Option IncidentUpdate
  | .addUpdate update => some update
  | _ => none

def edgeOf : BuilderCall → Option GraphEdge
  | .addGraphEdge edge => some edge
  | _ => none

def nodeOf : BuilderCall → Option GraphNode
  | .addGraphNode node => some node
  | _ => none

def recoveryOf : BuilderCall → Option RecoverySummary
  | .recovery recovery => some recovery
  | _ => none

def entryOf : BuilderCall → Option TimelineEntry
  | .addTimelineEntry entry => some entry
  | _ => none

/-- **A list that every call leaves or appends to** is what the calls append, in order. -/
theorem chain_field {α : Type} (field : Dossier → List α) (added : BuilderCall → Option α)
    (h : ∀ d call, field (apply d call) = field d ++ (added call).toList) (d : Dossier) (calls : List BuilderCall) :
    field (chain d calls) = field d ++ calls.filterMap added := by
  induction calls generalizing d with
  | nil => simp [chain]
  | cons call calls ih =>
    have hstep := ih (apply d call)
    rw [h] at hstep
    rw [chain, List.foldl_cons]
    refine hstep.trans ?_
    cases hadded : added call with
    | none => simp [hadded]
    | some x => simp [hadded]

theorem chain_concat (d : Dossier) (calls : List BuilderCall) (call : BuilderCall) :
    chain d (calls ++ [call]) = apply (chain d calls) call := by
  simp [chain]

/-- what every call keeps, the chain keeps -/
theorem chain_keeps {P : Dossier → Prop} (h : ∀ d call, P d → P (apply d call)) {d : Dossier} (hd : P d)
    (calls : List BuilderCall) : P (chain d calls) := by
  induction calls generalizing d with
  | nil => exact hd
  | cons call calls ih => exact ih (h d call hd)

/-- the last recovery counts -/
theorem chain_recovery (d : Dossier) (calls : List BuilderCall) :
    (chain d calls).recovery = (calls.filterMap recoveryOf).getLast?.getD d.recovery := by
  induction calls using List.reverseRecOn with
  | nil => rfl
  | append_singleton calls call ih =>
    rw [chain_concat, List.filterMap_append]
    cases call with
    | recovery recovery => simp [apply, recoveryOf]
    | _ => simpa [apply, recoveryOf] using ih

/-! ## The graph -/

theorem mem_addNode {graph : IncidentGraph} {node : GraphNode} {id : String} :
    id ∈ (graph.addNode node).nodes.map (·.id) ↔ id ∈ graph.nodes.map (·.id) ∨ id = node.id := by
  unfold IncidentGraph.addNode
  split_ifs with hknown
  · refine ⟨Or.inl, fun h => h.elim (fun h => h) ?_⟩
    rintro rfl
    exact (hasNode_iff graph node.id).1 hknown
  · simp

theorem nodup_addNode {graph : IncidentGraph} (node : GraphNode) (h : (graph.nodes.map (·.id)).Nodup) :
    ((graph.addNode node).nodes.map (·.id)).Nodup := by
  unfold IncidentGraph.addNode
  split_ifs with hknown
  · exact h
  · have hnew : node.id ∉ graph.nodes.map (·.id) := fun hmem => hknown ((hasNode_iff graph node.id).2 hmem)
    rw [List.map_append, List.nodup_append]
    refine ⟨h, List.nodup_singleton _, fun x hx y hy => ?_⟩
    rintro rfl
    obtain rfl := List.mem_singleton.1 hy
    exact hnew hx

/-- no chain of calls has a node twice -/
theorem chain_nodup {d : Dossier} (h : (d.graph.nodes.map (·.id)).Nodup) (calls : List BuilderCall) :
    ((chain d calls).graph.nodes.map (·.id)).Nodup := by
  refine @chain_keeps (fun d => (d.graph.nodes.map (·.id)).Nodup) (fun d call hd => ?_) d h calls
  cases call with
  | addGraphNode node => exact nodup_addNode node hd
  | _ => exact hd

theorem chain_nodes (d : Dossier) (calls : List BuilderCall) (id : String) :
    id ∈ (chain d calls).graph.nodes.map (·.id) ↔
      id ∈ d.graph.nodes.map (·.id) ∨ id ∈ (calls.filterMap nodeOf).map (·.id) := by
  induction calls generalizing d with
  | nil => simp [chain]
  | cons call calls ih =>
    refine (ih (apply d call)).trans ?_
    cases call with
    | addGraphNode node =>
      have hadd : id ∈ (d.graph.addNode node).nodes.map (·.id) ↔ _ := mem_addNode
      rw [apply, hadd, or_assoc]
      simp [nodeOf]
    | _ => rfl

/-! ## The timeline -/

/-- an entry that no sort follows is not earlier than what was added before it -/
def Dated (calls : List BuilderCall) : Prop :=
  ∀ before entry after, calls = before ++ .addTimelineEntry entry :: after → .sortTimeline ∉ after →
    ∀ earlier ∈ before.filterMap entryOf, earlier.timestamp ≤ entry.timestamp

theorem chain_entries (d : Dossier) (calls : List BuilderCall) (entry : TimelineEntry) :
    entry ∈ (chain d calls).timeline ↔ entry ∈ d.timeline ∨ entry ∈ calls.filterMap entryOf := by
  induction calls generalizing d with
  | nil => simp [chain]
  | cons call calls ih =>
    refine (ih (apply d call)).trans ?_
    cases call with
    | addTimelineEntry added => simp [apply, entryOf, or_assoc]
    | sortTimeline => simp [apply, entryOf]
    | _ => rfl

theorem dated_concat {calls : List BuilderCall} {call : BuilderCall} :
    Dated (calls ++ [call]) ↔ (call = .sortTimeline ∨ Dated calls) ∧
      ∀ entry, call = .addTimelineEntry entry →
        ∀ earlier ∈ calls.filterMap entryOf, earlier.timestamp ≤ entry.timestamp := by
  constructor
  · intro h
    refine ⟨or_iff_not_imp_left.2 fun hcall before entry after heq hsort => ?_, fun entry hcall => ?_⟩
    · refine h before entry (after ++ [call]) (by simp [heq]) ?_
      simp only [List.mem_append, List.mem_singleton, not_or]
      exact ⟨hsort, Ne.symm hcall⟩
    · exact h calls entry [] (by rw [hcall]) List.not_mem_nil
  · rintro ⟨hcalls, hlast⟩ before entry after heq hsort
    rcases List.eq_nil_or_concat after with rfl | ⟨after, last, rfl⟩
    · obtain ⟨rfl, hcall⟩ := List.append_inj' heq rfl
      exact hlast entry (List.singleton_inj.1 hcall)
    · have hsplit : calls ++ [call] = (before ++ .addTimelineEntry entry :: after) ++ [last] := by simpa using heq
      obtain ⟨rfl, hcall⟩ := List.append_inj' hsplit rfl
      obtain rfl := List.singleton_inj.1 hcall
      simp only [List.concat_eq_append, List.mem_append, List.mem_singleton, not_or] at hsort
      exact (hcalls.resolve_left (Ne.symm hsort.2)) before entry after rfl hsort.1

/-- **The timeline is in order** exactly when the calls are dated. -/
theorem timeline_sorted_iff {d : Dossier} (hd : d.timeline = []) (calls : List BuilderCall) :
    (chain d calls).timeline.Pairwise (fun a b => a.timestamp ≤ b.timestamp) ↔ Dated calls := by
  induction calls using List.reverseRecOn with
  | nil =>
    refine iff_of_true (by simp [chain, hd]) fun before entry after heq => ?_
    simp at heq
  | append_singleton calls call ih =>
    rw [chain_concat, dated_concat, ← ih]
    cases call with
    | sortTimeline =>
      refine iff_of_true ?_ ⟨Or.inl rfl, fun entry h => by cases h⟩
      have hsorted := @List.pairwise_mergeSort _ (fun a b : TimelineEntry => decide (a.timestamp ≤ b.timestamp))
        (fun a b c hab hbc => decide_eq_true ((of_decide_eq_true hab).trans (of_decide_eq_true hbc)))
        (fun a b => by simpa using le_total a.timestamp b.timestamp) (chain d calls).timeline
      exact hsorted.imp of_decide_eq_true
    | addTimelineEntry entry =>
      have hentries (e : TimelineEntry) : e ∈ (chain d calls).timeline ↔ e ∈ calls.filterMap entryOf := by
        rw [chain_entries, hd]
        simp
      simp [apply, List.pairwise_append, hentries]
    | _ => simp [apply]

/-! ## What builds -/

/-- the calls of a dossier that passes -/
structure Buildable (calls : List BuilderCall) : Prop where
  recovery : ∀ recovery, (calls.filterMap recoveryOf).getLast? = some recovery → Balanced recovery
  edges : ∀ edge ∈ calls.filterMap edgeOf,
    edge.source ∈ (calls.filterMap nodeOf).map (·.id) ∧ edge.target ∈ (calls.filterMap nodeOf).map (·.id)
  timeline : Dated calls
  evidence : ((calls.filterMap evidenceOf).map (·.id)).Nodup
  messages : ∀ msg ∈ calls.filterMap messageOf, Honest msg
  updates : (calls.filterMap updateOf).Pairwise fun a b => a.timestamp ≤ b.timestamp

section Built

variable (id : Uuid) (caseId title summary : String) (severity : EventSeverity) (now : DateTime)
  (calls : List BuilderCall)

theorem chain_evidence :
    (chain (new id caseId title summary severity now) calls).evidence = calls.filterMap evidenceOf :=
  chain_field (·.evidence) evidenceOf (fun d call => by cases call <;> simp [apply, evidenceOf]) _ calls

theorem chain_messages :
    (chain (new id caseId title summary severity now) calls).onChainMessages = calls.filterMap messageOf :=
  chain_field (·.onChainMessages) messageOf (fun d call => by cases call <;> simp [apply, messageOf]) _ calls

theorem chain_updates :
    (chain (new id caseId title summary severity now) calls).updates = calls.filterMap updateOf :=
  chain_field (·.updates) updateOf (fun d call => by cases call <;> simp [apply, updateOf]) _ calls

theorem addNode_edges (graph : IncidentGraph) (node : GraphNode) : (graph.addNode node).edges = graph.edges := by
  unfold IncidentGraph.addNode
  split_ifs <;> rfl

theorem chain_edges :
    (chain (new id caseId title summary severity now) calls).graph.edges = calls.filterMap edgeOf :=
  chain_field (·.graph.edges) edgeOf
    (fun d call => by cases call <;> simp [apply, edgeOf, addNode_edges, IncidentGraph.addEdge]) _ calls

theorem chain_balanced :
    Balanced (chain (new id caseId title summary severity now) calls).recovery ↔
      ∀ recovery, (calls.filterMap recoveryOf).getLast? = some recovery → Balanced recovery := by
  rw [chain_recovery]
  cases (calls.filterMap recoveryOf).getLast? with
  | none =>
    refine iff_of_true ?_ fun recovery h => by cases h
    exact ⟨le_refl 0, fun _ => rfl⟩
  | some recovery => exact ⟨fun h _ heq => Option.some.inj heq ▸ h, fun h => h recovery rfl⟩

theorem valid_iff_buildable :
    Valid (chain (new id caseId title summary severity now) calls) ↔ Buildable calls := by
  have hnodes (x : String) : x ∈ (chain (new id caseId title summary severity now) calls).graph.nodes.map (·.id) ↔
      x ∈ (calls.filterMap nodeOf).map (·.id) := by
    rw [chain_nodes]
    exact or_iff_right List.not_mem_nil
  have htimeline := @timeline_sorted_iff (new id caseId title summary severity now) rfl calls
  constructor
  · intro h
    refine ⟨(chain_balanced id caseId title summary severity now calls).1 h.balanced, fun edge hedge => ?_,
      htimeline.1 h.timeline, ?_, ?_, ?_⟩
    · have hends := h.graph.edges edge (by rwa [chain_edges])
      exact ⟨(hnodes _).1 hends.1, (hnodes _).1 hends.2⟩
    · simpa only [chain_evidence] using h.evidence
    · simpa only [chain_messages] using h.messages
    · simpa only [chain_updates] using h.updates
  · intro h
    refine ⟨(chain_balanced id caseId title summary severity now calls).2 h.recovery, ⟨?_, fun edge hedge => ?_⟩,
      htimeline.2 h.timeline, ?_, ?_, ?_⟩
    · exact @chain_nodup (new id caseId title summary severity now) List.nodup_nil calls
    · have hends := h.edges edge (by rwa [chain_edges] at hedge)
      exact ⟨(hnodes _).2 hends.1, (hnodes _).2 hends.2⟩
    · simpa only [chain_evidence] using h.evidence
    · simpa only [chain_messages] using h.messages
    · simpa only [chain_updates] using h.updates

/-- **A chain of calls builds** exactly when it is buildable, and then the dossier is what the calls left. Whether it builds
or not, no node is there twice. -/
theorem build_ok_iff (display : DateTime → String) (d : Dossier) :
    (build display (chain (new id caseId title summary severity now) calls) = .ok d ↔
      d = chain (new id caseId title summary severity now) calls ∧ Buildable calls) ∧
    ((chain (new id caseId title summary severity now) calls).graph.nodes.map (·.id)).Nodup := by
  refine ⟨?_, @chain_nodup (new id caseId title summary severity now) List.nodup_nil calls⟩
  rw [← valid_iff_buildable id caseId title summary severity now calls, ← validateIncident_ok_iff display]
  unfold build
  cases hcheck : validateIncident display (chain (new id caseId title summary severity now) calls) with
  | error e => exact iff_of_false (by simp [bind, Except.bind]) fun h => by cases h.2
  | ok u => exact ⟨fun h => ⟨(Except.ok.inj h).symm, rfl⟩, fun h => congrArg Except.ok h.1.symm⟩

end Built

/-- a dossier that recovers more than was taken -/
def overRecoveredDossier : Dossier := chain (new 1 "case" "title" "summary" .critical 0) [.recovery (.new 1 2 0)]

/-- the theorem at that dossier -/
theorem validateIncident_error_overRecovered :
    Fault (fun _ => "") overRecoveredDossier
      (.validation (s!"Invalid fund balance: recovered_sats ({2}) exceeds " ++ s!"affected_sats ({1})")) :=
  @validateIncident_error (fun _ => "") overRecoveredDossier _ rfl

end IncidentBuilder

end ObsChain
