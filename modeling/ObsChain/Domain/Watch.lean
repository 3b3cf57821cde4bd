/-
Watch targets and what is reported about them (`watch.rs`, and `ProvenanceClassification` of `incident.rs`).

An activity and its alert are built in two parts. A draft holds every field that follows from the observation and the
target; the random ids and the clock reading are added when it is returned. Two results agree up to ids and times
exactly when their drafts are equal. A printed `Uuid` has 36 characters and determines the id (`hyphenated_inj`).

Txids, scripts and addresses are ASCII, so the byte slices of `summary` are character slices. A `serde_json` object
lists its fields by key. Not modelled: the fields of a target that the engine does not read (`source`, `created_at`), and
the redacted public view.
-/
import Mathlib.Tactic
import ObsChain.Domain.Observation
import ObsChain.Domain.Event

namespace ObsChain

inductive ProvenanceClassification where
  | onChainVerified
  | officiallyAttributed
  | reputableReporting
  | heuristic
  | unverified
  | disputed
deriving DecidableEq, Repr

def ProvenanceClassification.debug : ProvenanceClassification → String
  | .onChainVerified => "OnChainVerified"
  | .officiallyAttributed => "OfficiallyAttributed"
  | .reputableReporting => "ReputableReporting"
  | .heuristic => "Heuristic"
  | .unverified => "Unverified"
  | .disputed => "Disputed"

inductive WatchTargetKind where
  | outPoint (txid : String) (vout : ℕ)
  | scriptPubKey (scriptHex : String)
  | address (address : String) (attribution : ProvenanceClassification)
  | transaction (txid : String)
deriving DecidableEq, Repr

/-- a text longer than `limit`, cut to its first and last `k` characters -/
def shorten (limit k : ℕ) (s : String) : String :=
  let cs := s.toList
  if cs.length > limit then String.ofList (cs.take k) ++ "..." ++ String.ofList (cs.drop (cs.length - k)) else s

def WatchTargetKind.summary : WatchTargetKind → String
  | .outPoint txid vout => s!"OutPoint: {shorten 12 6 txid}:{vout}"
  | .scriptPubKey scriptHex => s!"Script: {shorten 16 8 scriptHex}"
  | .address addr attribution => s!"Address: {shorten 14 6 addr} [{attribution.debug}]"
  | .transaction txid => s!"Tx: {shorten 12 6 txid}"

structure WatchTarget where
  id : Uuid
  incidentId : Uuid
  caseId : String
  kind : WatchTargetKind
  classification : ProvenanceClassification
  evidenceId : Option Uuid
  label : Option String
  active : Bool
deriving DecidableEq, Repr

inductive IncidentActivityType where
  | watchedTransactionObserved
  | watchedTransactionConfirmed
  | watchedOutpointSpent
  | watchedScriptReceived
  | watchedAddressReceived
  | watchedAddressSpent
  | transactionReplacement
  | newDescendantObserved
deriving DecidableEq, Repr

def IncidentActivityType.debug : IncidentActivityType → String
  | .watchedTransactionObserved => "WatchedTransactionObserved"
  | .watchedTransactionConfirmed => "WatchedTransactionConfirmed"
  | .watchedOutpointSpent => "WatchedOutpointSpent"
  | .watchedScriptReceived => "WatchedScriptReceived"
  | .watchedAddressReceived => "WatchedAddressReceived"
  | .watchedAddressSpent => "WatchedAddressSpent"
  | .transactionReplacement => "TransactionReplacement"
  | .newDescendantObserved => "NewDescendantObserved"

inductive ActivityStatus where
  | mempool
  | confirmed
  | reorgedOut
deriving DecidableEq, Repr

def ActivityStatus.debug : ActivityStatus → String
  | .mempool => "Mempool"
  | .confirmed => "Confirmed"
  | .reorgedOut => "ReorgedOut"

inductive CorrelationStrength where
  | direct
  | structural
  | heuristic
deriving DecidableEq, Repr

def CorrelationStrength.debug : CorrelationStrength → String
  | .direct => "Direct"
  | .structural => "Structural"
  | .heuristic => "Heuristic"

/-! ## Activities and alerts -/

/-- the last `k` hex digits -/
def hexDigits (n : ℕ) : ℕ → List Char
  | 0 => []
  | k + 1 => hexDigits (n / 16) k ++ [Nat.digitChar (n % 16)]

/-- a `Uuid` as `{}` prints it -/
def hyphenated (id : Uuid) : String :=
  let ds := hexDigits id.toNat 32
  String.ofList (ds.take 8) ++ "-" ++ String.ofList ((ds.drop 8).take 4) ++ "-" ++
    String.ofList ((ds.drop 12).take 4) ++ "-" ++ String.ofList ((ds.drop 16).take 4) ++ "-" ++
    String.ofList (ds.drop 20)

theorem length_hexDigits (n k : ℕ) : (hexDigits n k).length = k := by
  induction k generalizing n with
  | zero => rfl
  | succ k ih => simp [hexDigits, ih]

theorem digitChar_inj {a b : ℕ} (ha : a < 16) (hb : b < 16) (h : Nat.digitChar a = Nat.digitChar b) : a = b := by
  have hall : ∀ a < 16, ∀ b < 16, Nat.digitChar a = Nat.digitChar b → a = b := by decide
  exact hall a ha b hb h

/-- the digits determine the number up to their count -/
theorem hexDigits_inj {n m k : ℕ} (h : hexDigits n k = hexDigits m k) : n % 16 ^ k = m % 16 ^ k := by
  induction k generalizing n m with
  | zero => simp [Nat.mod_one]
  | succ k ih =>
    obtain ⟨hfront, hlast⟩ := List.append_inj' h rfl
    have hdigit : n % 16 = m % 16 := by
      apply digitChar_inj (Nat.mod_lt n (by omega)) (Nat.mod_lt m (by omega))
      exact List.singleton_inj.1 hlast
    rw [pow_succ', Nat.mod_mul, Nat.mod_mul, hdigit, ih hfront]

theorem notMem_hexDigits (n k : ℕ) : '-' ∉ hexDigits n k := by
  induction k generalizing n with
  | zero => exact List.not_mem_nil
  | succ k ih =>
    have hdigit : ∀ d < 16, '-' ≠ Nat.digitChar d := by decide
    intro h
    rcases List.mem_append.1 h with hfront | hlast
    · exact ih _ hfront
    · exact hdigit (n % 16) (Nat.mod_lt n (by omega)) (List.mem_singleton.1 hlast)

/-- without the hyphens, the digits -/
theorem filter_hyphenated (id : Uuid) :
    (hyphenated id).toList.filter (fun c => c != '-') = hexDigits id.toNat 32 := by
  have hkeep : ∀ l : List Char, (∀ c ∈ l, c ∈ hexDigits id.toNat 32) → l.filter (fun c => c != '-') = l := by
    intro l hl
    rw [List.filter_eq_self]
    intro c hc
    simp only [bne_iff_ne]
    rintro rfl
    exact notMem_hexDigits _ _ (hl _ hc)
  have hhyphen : "-".toList.filter (fun c => c != '-') = [] := by decide
  simp only [hyphenated, String.toList_append, List.filter_append, String.toList_ofList, hhyphen, List.append_nil]
  rw [hkeep _ (fun c hc => List.mem_of_mem_take hc),
    hkeep _ (fun c hc => List.mem_of_mem_drop (List.mem_of_mem_take hc)),
    hkeep _ (fun c hc => List.mem_of_mem_drop (List.mem_of_mem_take hc)),
    hkeep _ (fun c hc => List.mem_of_mem_drop (List.mem_of_mem_take hc)), hkeep _ (fun c hc => List.mem_of_mem_drop hc)]
  generalize hexDigits id.toNat 32 = ds
  calc ds.take 8 ++ (ds.drop 8).take 4 ++ (ds.drop 12).take 4 ++ (ds.drop 16).take 4 ++ ds.drop 20
      = ds.take 12 ++ (ds.drop 12).take 4 ++ (ds.drop 16).take 4 ++ ds.drop 20 := by rw [← List.take_add]
    _ = ds.take 16 ++ (ds.drop 16).take 4 ++ ds.drop 20 := by rw [← List.take_add]
    _ = ds.take 20 ++ ds.drop 20 := by rw [← List.take_add]
    _ = ds := List.take_append_drop 20 ds

theorem hyphenated_inj {a b : Uuid} (h : hyphenated a = hyphenated b) : a = b := by
  have hdigits : hexDigits a.toNat 32 = hexDigits b.toNat 32 := by
    rw [← filter_hyphenated, ← filter_hyphenated, h]
  have hmod := hexDigits_inj hdigits
  have ha : a.toNat < 16 ^ 32 := a.isLt
  have hb : b.toNat < 16 ^ 32 := b.isLt
  rw [Nat.mod_eq_of_lt ha, Nat.mod_eq_of_lt hb] at hmod
  exact BitVec.eq_of_toNat_eq hmod

theorem length_hyphenated (id : Uuid) : (hyphenated id).length = 36 := by
  have hhyphen : "-".length = 1 := rfl
  simp [hyphenated, length_hexDigits, hhyphen]

/-- an activity without its id and its time -/
structure ActivityDraft where
  incidentId : Uuid
  caseId : String
  activityType : IncidentActivityType
  triggerTxid : Option String
  blockHeight : Option ℕ
  blockHash : Option String
  valueSats : Option ℕ
  watchTargetId : Uuid
  confidence : ProvenanceClassification
  correlationStrength : CorrelationStrength
  status : ActivityStatus
  source : ObservationSource
  evidence : List Uuid
  description : String
  details : Option Value
  dedupKey : String
deriving Repr

structure IncidentActivity extends ActivityDraft where
  id : Uuid
  observedAt : DateTime
deriving Repr

/-- the key under which the store keeps one activity -/
def IncidentActivity.generateDedupKey (incidentId : Uuid) (activityType : IncidentActivityType)
    (triggerTxid : Option String) (watchTargetId : Uuid) : String :=
  hyphenated incidentId ++ ":" ++ activityType.debug ++ ":" ++ triggerTxid.getD "none" ++ ":" ++
    hyphenated watchTargetId

/-- an alert without its id, its activity's id and its time -/
structure AlertDraft where
  incidentId : Uuid
  caseId : String
  incidentTitle : String
  severity : EventSeverity
  title : String
  summary : String
  confidence : ProvenanceClassification
  correlationStrength : CorrelationStrength
  valueSats : Option ℕ
  triggerTxid : Option String
deriving DecidableEq, Repr

structure IncidentAlert extends AlertDraft where
  id : Uuid
  activityId : Uuid
  observedAt : DateTime
deriving Repr

end ObsChain
