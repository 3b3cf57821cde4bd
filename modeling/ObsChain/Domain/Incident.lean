/-
The incident dossier (`incident.rs`): its own fields, the recovery summary, and the lists of sources, evidence,
transactions and timeline entries.

Satoshis and heights are u64 in the source and naturals here. A reliability score is an f32 that is only stored and
compared, so it is the rational it stands for. Not modelled: entities, blocks, messages, findings, updates and the graph,
each of which has tables of its own, and the two amounts in BTC, which are computed from the recovery.
-/
import Mathlib.Tactic
import ObsChain.Domain.Event
import ObsChain.Domain.Watch

namespace ObsChain

inductive Chain where
  | bitcoin
  | liquid
deriving DecidableEq, Repr

inductive IncidentStatus where
  | detected
  | investigating
  | verified
  | monitoring
  | recovery
  | resolved
  | closed
  | open
  | mitigated
  | disputed
deriving DecidableEq, Repr

inductive EvidenceType where
  | onChainTransaction
  | onChainBlock
  | mempoolSnapshot
  | officialStatement
  | officialTechnicalReport
  | securityAdvisory
  | sourceRepository
  | heuristicCluster
  | disputedClaim
  | independentReporting
deriving DecidableEq, Repr

inductive SourceCategory where
  | bitcoinBlockchain
  | liquidBlockchain
  | officialTechnicalReport
  | officialPublicStatement
  | sourceRepository
  | securityAdvisory
  | independentReporting
deriving DecidableEq, Repr

inductive TransactionRole where
  | exploit
  | pegOut
  | transfer
  | forwarding
  | return
  | recovery
  | communication
  | other
deriving DecidableEq, Repr

inductive TimelineCategory where
  | exploit
  | onChainMovement
  | discovery
  | containment
  | communication
  | disclosure
  | patch
  | recovery
  | networkRestart
  | other
deriving DecidableEq, Repr

@[ext]
structure Source where
  id : Uuid
  publisher : String
  title : String
  url : Option String
  publicationTimestamp : Option DateTime
  retrievedTimestamp : Option DateTime
  sourceCategory : SourceCategory
  reliabilityScore : ℚ
  name : Option String
deriving DecidableEq, Repr

@[ext]
structure Evidence where
  id : Uuid
  incidentId : Uuid
  evidenceType : EvidenceType
  confidence : ProvenanceClassification
  title : String
  description : String
  observedAt : Option DateTime
  sourceId : Option Uuid
  sourceReference : Option String
  txid : Option String
  blockHash : Option String
  blockHeight : Option ℕ
  chain : Chain
  verified : Bool
  rawData : Option Value
  createdAt : DateTime
  reference : Option String
  classification : Option ProvenanceClassification
deriving Repr

@[ext]
structure IncidentTransaction where
  chain : Chain
  txid : String
  role : TransactionRole
  amountSats : Option ℕ
  blockHeight : Option ℕ
  blockHash : Option String
  confirmedAt : Option DateTime
  evidenceId : Option Uuid
  notes : Option String
deriving DecidableEq, Repr

@[ext]
structure TimelineEntry where
  id : Uuid
  timestamp : DateTime
  title : String
  description : String
  category : TimelineCategory
  sourceId : Option Uuid
  evidenceIds : List Uuid
  transactionTxids : List String
  blockHeights : List ℕ
  classification : ProvenanceClassification
deriving DecidableEq, Repr

@[ext]
structure RecoverySummary where
  affectedSats : ℕ
  recoveredSats : ℕ
  outstandingSats : ℕ
  asOfTimestamp : DateTime
  source : Option String
  isEstimate : Bool
deriving DecidableEq, Repr

/-- `RecoverySummary::new`: what is not recovered is outstanding -/
def RecoverySummary.new (affectedSats recoveredSats : ℕ) (asOf : DateTime) : RecoverySummary :=
  ⟨affectedSats, recoveredSats, affectedSats - recoveredSats, asOf, none, false⟩

structure StructuredClaimsSummary where
  verifiedOnChain : List String
  officiallyAttributed : List String
  reported : List String
  heuristic : List String
  unknown : List String
deriving DecidableEq, Repr

structure Incident where
  id : Uuid
  caseId : String
  title : String
  summary : String
  status : IncidentStatus
  severity : EventSeverity
  recovery : RecoverySummary
  firstObservedAt : DateTime
  lastUpdatedAt : DateTime
  structuredClaims : StructuredClaimsSummary
  transactions : List IncidentTransaction
  timeline : List TimelineEntry
  evidence : List Evidence
  sources : List Source
  facts : List String
  reportedClaims : List String
  unverifiedClaims : List String
  associatedTxids : List String
  associatedBlockHeights : List ℕ
deriving Repr

end ObsChain
