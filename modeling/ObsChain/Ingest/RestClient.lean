/-
The requests of the mempool.space client (`execute_get_with_retry` of `mempool_rest.rs`).

MODEL. `replies i` is what the i-th request of a call gets from outside: a transport error, or a response with its status,
its announced length and its body. The JSON of a body is read by the parameter `parse`. Sleeping is not modelled; the pauses
are those of `Retry.pauses`.

- `settle`: what the client makes of one reply, when it does not retry.
- `execute_exact`: the answer is that of the first reply that is not transient, or of the last request.
- `execute_ok_iff`: **main result** on values: which are returned, after how many requests and how long a wait.
-/
import Mathlib.Tactic
import ObsChain.Core.Retry

namespace ObsChain.RestClient

/-- `reqwest::Error` -/
structure ReqwestError where
  isTimeout : Bool
  isConnect : Bool
  display : String
deriving DecidableEq, Repr

inductive MempoolRestError where
  | http (error : ReqwestError)
  | status (status : ℕ) (message : String)
  | notFound (resource : String)
  | responseTooLarge (limit : ℕ)
  | json (error : String)
  | parse (error : String)
deriving DecidableEq, Repr

structure MempoolRestConfig where
  maxRetries : ℕ
  maxResponseBytes : ℕ
deriving DecidableEq, Repr

/-- `MempoolRestConfig::default` -/
def MempoolRestConfig.default : MempoolRestConfig := ⟨3, 10 * 1024 * 1024⟩

structure Response where
  status : ℕ
  contentLength : Option ℕ
  body : Except ReqwestError (List UInt8)
  /-- the body as text -/
  text : Except ReqwestError String

abbrev Reply := Except ReqwestError Response

def isSuccess (status : ℕ) : Bool := 200 ≤ status && status < 300

def isServerError (status : ℕ) : Bool := 500 ≤ status && status < 600

/-- a reply after which the request is repeated, if a retry is left -/
def transient : Reply → Bool
  | .error err => err.isTimeout || err.isConnect
  | .ok resp => isServerError resp.status || resp.status == 429

section

variable {T : Type} (cfg : MempoolRestConfig) (parse : List UInt8 → Except String T) (endpoint : String)

/-- the body of a successful response, within the limit announced and read -/
def readBody (resp : Response) : Except MempoolRestError T :=
  if resp.contentLength.any (· > cfg.maxResponseBytes) then .error (.responseTooLarge cfg.maxResponseBytes)
  else
    match resp.body with
    | .error err => .error (.http err)
    | .ok bytes =>
      if bytes.length > cfg.maxResponseBytes then .error (.responseTooLarge cfg.maxResponseBytes)
      else
        match parse bytes with
        | .error e => .error (.json e)
        | .ok parsed => .ok parsed

/-- what a reply is returned as -/
def settle : Reply → Except MempoolRestError T
  | .error err => .error (.http err)
  | .ok resp =>
    if resp.status = 404 then .error (.notFound endpoint)
    else if ¬ isSuccess resp.status then .error (.status resp.status (resp.text.toOption.getD ""))
    else readBody cfg parse resp

/-- one request: an error remembers whether its reply is transient -/
def attempt (replies : ℕ → Reply) (i : ℕ) (_ : Unit) : Unit × Except (MempoolRestError × Bool) T :=
  ((), (settle cfg parse endpoint (replies i)).mapError fun e => (e, transient (replies i)))

/-- the answer, and the number of requests -/
def executeGetWithRetry (replies : ℕ → Reply) : Except MempoolRestError T × ℕ :=
  let r := Retry.retry (·.2) (attempt cfg parse endpoint replies) (cfg.maxRetries - 1) 0 ()
  (r.result.mapError (·.1), r.attempts)

variable {cfg parse endpoint}

/-- a transient reply is never returned as a value -/
theorem settle_transient {reply : Reply} (h : transient reply = true) :
    ∃ e, settle cfg parse endpoint reply = .error e := by
  cases reply with
  | error err => exact ⟨_, rfl⟩
  | ok resp =>
    have hsuccess : isSuccess resp.status = false := by
      rw [transient, Bool.or_eq_true, beq_iff_eq, isServerError, Bool.and_eq_true, decide_eq_true_eq, decide_eq_true_eq] at h
      rw [isSuccess, Bool.and_eq_false_iff, decide_eq_false_iff_not, decide_eq_false_iff_not]
      omega
    rw [settle]
    by_cases h404 : resp.status = 404
    · rw [if_pos h404]
      exact ⟨_, rfl⟩
    · rw [if_neg h404, if_pos (by rw [hsuccess]; exact Bool.false_ne_true)]
      exact ⟨_, rfl⟩

theorem mapError_mapError {ε : Type} (r : Except ε T) (b : Bool) :
    (r.mapError fun e => (e, b)).mapError (·.1) = r := by
  cases r <;> rfl

/-- **The answer** is what the client makes of one reply: the first one that is not transient, or the last one it may ask
for. It is the only one looked at; the requests before it got transient replies, and none comes after it. -/
theorem execute_exact (replies : ℕ → Reply) :
    ∃ k ≤ cfg.maxRetries - 1,
      executeGetWithRetry cfg parse endpoint replies = (settle cfg parse endpoint (replies k), k + 1) ∧
      (∀ j < k, transient (replies j) = true) ∧ (transient (replies k) = true → k = cfg.maxRetries - 1) := by
  have hatomic : ∀ i (s : Unit) e, (attempt cfg parse endpoint replies i s).2 = .error e →
      (attempt cfg parse endpoint replies i s).1 = s := fun _ _ _ _ => rfl
  obtain ⟨k, hk, heq, hbefore, hlast⟩ :=
    @Retry.retry_atomic Unit (MempoolRestError × Bool) T (·.2) _ hatomic (cfg.maxRetries - 1) 0 ()
  rw [Nat.zero_add] at heq hlast
  refine ⟨k, hk, ?_, fun j hj => ?_, fun htransient => ?_⟩
  · unfold executeGetWithRetry
    dsimp only
    rw [heq]
    dsimp only [attempt]
    rw [mapError_mapError]
  · obtain ⟨e, he, ht⟩ := hbefore j hj
    rw [Nat.zero_add, attempt] at he
    cases hsettle : settle cfg parse endpoint (replies j) with
    | ok parsed =>
      rw [hsettle] at he
      cases he
    | error err =>
      rw [hsettle] at he
      obtain rfl := Except.error.inj he
      exact ht
  · obtain ⟨e, hsettle⟩ : ∃ e, settle cfg parse endpoint (replies k) = .error e := settle_transient htransient
    refine hlast (e, transient (replies k)) ?_ htransient
    rw [attempt, hsettle]
    rfl

/-- a value comes from a successful response within the limit, announced and read -/
theorem settle_ok_iff (reply : Reply) (parsed : T) : settle cfg parse endpoint reply = .ok parsed ↔
    ∃ resp bytes, reply = .ok resp ∧ isSuccess resp.status = true ∧ resp.body = .ok bytes ∧
      (∀ n ∈ resp.contentLength, n ≤ cfg.maxResponseBytes) ∧ bytes.length ≤ cfg.maxResponseBytes ∧
      parse bytes = .ok parsed := by
  constructor
  · intro h
    cases reply with
    | error err => cases h
    | ok resp =>
      unfold settle readBody at h
      dsimp only at h
      split_ifs at h with h404 hsuccess hannounced
      cases hbody : resp.body with
      | error err => simp [hbody] at h
      | ok bytes =>
        simp only [hbody] at h
        split_ifs at h with hlen
        cases hparse : parse bytes with
        | error e => simp [hparse] at h
        | ok value =>
          rw [hparse] at h
          obtain rfl := Except.ok.inj h
          refine ⟨resp, bytes, rfl, hsuccess, hbody, ?_, by omega, hparse⟩
          intro n hn
          have hlength : resp.contentLength = some n := hn
          simpa [hlength] using hannounced
  · rintro ⟨resp, bytes, rfl, hsuccess, hbody, hannounced, hlen, hparse⟩
    have h404 : resp.status ≠ 404 := by
      intro h
      rw [h] at hsuccess
      cases hsuccess
    have hany : resp.contentLength.any (· > cfg.maxResponseBytes) = false := by
      cases hlength : resp.contentLength with
      | none => rfl
      | some n => simpa using hannounced n hlength
    unfold settle readBody
    dsimp only
    rw [if_neg h404, if_neg (by simp [hsuccess]), if_neg (by simp [hany]), hbody]
    dsimp only
    rw [if_neg (by omega), hparse]

/-- **The values returned**: those of the first reply that is not transient, if it is a successful response within the limit
whose body parses; at most one request more than there are retries is made, and the pauses between them are together less
than the one that would come next. -/
theorem execute_ok_iff (replies : ℕ → Reply) (parsed : T) :
    ((executeGetWithRetry cfg parse endpoint replies).1 = .ok parsed ↔
      ∃ k ≤ cfg.maxRetries - 1, (∀ j < k, transient (replies j) = true) ∧
        ∃ resp bytes, replies k = .ok resp ∧ isSuccess resp.status = true ∧ resp.body = .ok bytes ∧
          (∀ n ∈ resp.contentLength, n ≤ cfg.maxResponseBytes) ∧ bytes.length ≤ cfg.maxResponseBytes ∧
          parse bytes = .ok parsed) ∧
      (executeGetWithRetry cfg parse endpoint replies).2 ≤ max cfg.maxRetries 1 ∧
      (Retry.pauses 200 (executeGetWithRetry cfg parse endpoint replies).2).sum + 200 =
        200 * 2 ^ ((executeGetWithRetry cfg parse endpoint replies).2 - 1) := by
  obtain ⟨k, hk, heq, hbefore, hlast⟩ := @execute_exact T cfg parse endpoint replies
  rw [heq]
  refine ⟨?_, by dsimp only; omega, Retry.pause_total 200 _⟩
  rw [settle_ok_iff]
  constructor
  · rintro ⟨resp, bytes, h⟩
    exact ⟨k, hk, hbefore, resp, bytes, h⟩
  · rintro ⟨k', hk', hbefore', resp, bytes, hreply, hsuccess, h⟩
    -- a successful reply is not transient, so both are the first that is not
    have hsettled : transient (replies k') = false := by
      rw [hreply, transient, Bool.or_eq_false_iff, beq_eq_false_iff_ne, isServerError, Bool.and_eq_false_iff,
        decide_eq_false_iff_not, decide_eq_false_iff_not]
      rw [isSuccess, Bool.and_eq_true, decide_eq_true_eq, decide_eq_true_eq] at hsuccess
      omega
    have hle : k ≤ k' := by
      by_contra hlt
      rw [hbefore k' (by omega)] at hsettled
      cases hsettled
    have hge : k' ≤ k := by
      by_contra hlt
      have hlast' := hlast (hbefore' k (by omega))
      omega
    obtain rfl : k = k' := le_antisymm hle hge
    exact ⟨resp, bytes, hreply, hsuccess, h⟩

end

end ObsChain.RestClient
