/-
The credentials of the RPC client (`resolve_auth`, `read_cookie_file`, `call` and `parse_response` of `bitcoin_rpc.rs`).

Any number of calls run at once and share one cached cookie. A call without configured credentials takes the cookie from the
cache, or from its file if the cache is empty. When it is refused (401) it empties the cache and tries once more. Bitcoin Core
writes a new cookie when it starts, so the file and what the node accepts change while calls are under way.

Model: one `step` is one lock, file or network operation of one call, or a change from outside. What the file holds, what the
node answers and which call goes on come with the steps. `contents` and `requests` are kept beside the state and read by no
step: what the file has held so far, and what each call sent and whether it was refused.

- `requests_genuine` (**main result**): a request carries the configured credentials, or a cookie that the file has held, or
  none, as configured.
- `refused_iff` (**main result**): a call ends as refused exactly when every request it may send was refused: two with a cookie
  file, and one without.
- `rotation_recovers` (**main result**): once the file has the node's cookie and nobody is about to cache an older one, no call
  fails to authenticate that has not been refused yet, whatever the cache holds and the other calls do.
- `late_read_refused`: a call that read the old cookie and caches it late makes another one fail.
-/
import Mathlib.Tactic
import ObsChain.Core.Text
import ObsChain.Core.Trace
import ObsChain.Ingest.BitcoinRpc

namespace ObsChain.RpcAuth

/-! ## The response -/

structure RpcErrorPayload where
  code : ℤ
  message : String

structure RpcResponse (τ : Type) where
  result : Option τ
  error : Option RpcErrorPayload

/-- what comes of a request: a failed transport, or a response with its status and its body as JSON -/
inductive Reply (τ : Type) where
  | failed (error : String)
  | response (unauthorized : Bool) (body : Except String (RpcResponse τ))

section Response

variable {τ : Type}

def Reply.refused : Reply τ → Bool
  | .failed _ => false
  | .response unauthorized _ => unauthorized

def refusedError : BitcoinRpcError := .authError "Bitcoin Core RPC authentication failed (401 Unauthorized)"

def parseBody (body : Except String (RpcResponse τ)) : Except BitcoinRpcError τ :=
  match body with
  | .error e => .error (.http e)
  | .ok res =>
    match res.error with
    | some err =>
      if err.code = -28 then .error (.nodeWarmingUp err.message)
      else if err.code = -5 ∧ "No such mempool or blockchain transaction".toList <:+: err.message.toList then
        .error .txIndexUnavailable
      else .error (.rpcError err.code err.message)
    | none =>
      match res.result with
      | some result => .ok result
      | none => .error (.rpcError (-1) "Empty result in RPC response")

def parseResponse (unauthorized : Bool) (body : Except String (RpcResponse τ)) : Except BitcoinRpcError τ :=
  if unauthorized then .error refusedError else parseBody body

/-- the end of a call after its last reply -/
def Reply.result : Reply τ → Except BitcoinRpcError τ
  | .failed error => .error (.http error)
  | .response unauthorized body => parseResponse unauthorized body

theorem parseBody_ne_auth (body : Except String (RpcResponse τ)) (message : String) :
    parseBody body ≠ .error (.authError message) := by
  intro h
  unfold parseBody at h
  split at h
  · cases h
  · split at h
    · split_ifs at h <;> cases h
    · split at h <;> cases h

theorem Reply.result_of_not_refused {r : Reply τ} (h : r.refused = false) (message : String) :
    r.result ≠ .error (.authError message) := by
  cases r with
  | failed error => exact fun heq => nomatch heq
  | response unauthorized body =>
    cases unauthorized with
    | true => cases h
    | false => exact parseBody_ne_auth body message

theorem Reply.result_eq_refused (r : Reply τ) : r.result = .error refusedError ↔ r.refused = true := by
  cases hrefused : r.refused with
  | false => exact iff_of_false (Reply.result_of_not_refused hrefused _) Bool.false_ne_true
  | true =>
    cases r with
    | failed error => cases hrefused
    | response unauthorized body =>
      cases unauthorized with
      | true => exact iff_of_true rfl rfl
      | false => cases hrefused

end Response

/-! ## Credentials -/

/-- a user and a password -/
abbrev Credentials := String × String

structure AuthConfig where
  rpcUser : Option String
  rpcPassword : Option String
  cookieFile : Option String

/-- the configured credentials; a user without a password counts for nothing -/
def AuthConfig.configured (cfg : AuthConfig) : Option Credentials :=
  match cfg.rpcUser, cfg.rpcPassword with
  | some u, some p => some (u, p)
  | _, _ => none

/-- a file that cannot be read, or one without a colon, is an error -/
def readCookieFile (file : Except String String) : Except BitcoinRpcError Credentials :=
  match file with
  | .error e => .error (.authError s!"Failed to read Bitcoin Core cookie file: {e}")
  | .ok content =>
    match Text.splitOnce ':' (Text.trim content.toList) with
    | some (user, password) => .ok (String.ofList user, String.ofList password)
    | none => .error (.authError "Malformed Bitcoin Core cookie file format (expected user:password)")

/-- no error of the cookie file looks like a refusal -/
theorem readCookieFile_ne_refused (file : Except String String) : readCookieFile file ≠ .error refusedError := by
  intro h
  unfold readCookieFile at h
  split at h
  · simp only [refusedError, Except.error.injEq, BitcoinRpcError.authError.injEq] at h
    have hfirst := congrArg (fun s : String => s.toList.head?) h
    simp [toString] at hfirst
  · split at h
    · cases h
    · simp [refusedError] at h

/-! ## The calls -/

/-- where a call is; `again` is after a refusal -/
inductive Phase (τ : Type) where
  | idle
  | readCache (again : Bool)
  | readFile (again : Bool)
  | writeCache (again : Bool) (auth : Credentials)
  | send (again : Bool) (auth : Option Credentials)
  /-- refused, and about to empty the cache -/
  | clear
  | done (result : Except BitcoinRpcError τ)
  /-- its caller gave up -/
  | dropped

structure Client (τ : Type) where
  file : Except String String
  cachedCookie : Option Credentials
  calls : ℕ → Phase τ
  /-- what the file has held so far, the last first -/
  contents : List (Except String String)
  /-- the requests of each call that have a reply, and whether they were refused -/
  requests : ℕ → List (Option Credentials × Bool)

inductive Ev (τ : Type) where
  | start (id : ℕ)
  /-- one operation on the cache or the file -/
  | turn (id : ℕ)
  /-- the request of a call, and what comes of it -/
  | reply (id : ℕ) (reply : Reply τ)
  | drop (id : ℕ)
  | file (content : Except String String)

section

variable {τ : Type} (cfg : AuthConfig)

/-- what `resolve_auth` does first -/
def resolveAuth (again : Bool) : Phase τ :=
  match cfg.configured with
  | some auth => .send again (some auth)
  | none => if cfg.cookieFile.isSome then .readCache again else .send again none

def Client.goTo (s : Client τ) (id : ℕ) (phase : Phase τ) : Client τ :=
  { s with calls := Function.update s.calls id phase }

/-- the call has a reply: it ends, or has been refused and may try again -/
def Client.answer (s : Client τ) (id : ℕ) (again : Bool) (auth : Option Credentials) (reply : Reply τ) : Client τ :=
  { s with
    calls := Function.update s.calls id
      (if reply.refused && cfg.cookieFile.isSome && !again then .clear else .done reply.result)
    requests := Function.update s.requests id (s.requests id ++ [(auth, reply.refused)]) }

def step (s : Client τ) : Ev τ → Client τ
  | .start id =>
    match s.calls id with
    | .idle => s.goTo id (resolveAuth cfg false)
    | _ => s
  | .turn id =>
    match s.calls id with
    | .readCache again =>
      match s.cachedCookie with
      | some auth => s.goTo id (.send again (some auth))
      | none => s.goTo id (.readFile again)
    | .readFile again =>
      match readCookieFile s.file with
      | .ok auth => s.goTo id (.writeCache again auth)
      | .error e => s.goTo id (.done (.error e))
    | .writeCache again auth => { s.goTo id (.send again (some auth)) with cachedCookie := some auth }
    | .clear => { s.goTo id (resolveAuth cfg true) with cachedCookie := none }
    | _ => s
  | .reply id reply =>
    match s.calls id with
    | .send again auth => s.answer cfg id again auth reply
    | _ => s
  | .drop id =>
    match s.calls id with
    | .done _ => s
    | _ => s.goTo id .dropped
  | .file content => { s with file := content, contents := content :: s.contents }

/-- a client that has not called yet -/
def start (content : Except String String) : Client τ := ⟨content, none, fun _ => .idle, [content], fun _ => []⟩

def run (content : Except String String) (evs : List (Ev τ)) : Client τ := Trace.run (step cfg) (start content) evs

@[simp] theorem goTo_calls (s : Client τ) (id j : ℕ) (phase : Phase τ) :
    (s.goTo id phase).calls j = if j = id then phase else s.calls j :=
  Function.update_apply s.calls id phase j

@[simp] theorem goTo_requests (s : Client τ) (id : ℕ) (phase : Phase τ) : (s.goTo id phase).requests = s.requests := rfl

@[simp] theorem goTo_file (s : Client τ) (id : ℕ) (phase : Phase τ) : (s.goTo id phase).file = s.file := rfl

@[simp] theorem goTo_cachedCookie (s : Client τ) (id : ℕ) (phase : Phase τ) :
    (s.goTo id phase).cachedCookie = s.cachedCookie := rfl

@[simp] theorem goTo_contents (s : Client τ) (id : ℕ) (phase : Phase τ) : (s.goTo id phase).contents = s.contents := rfl

/-! ## What is sent -/

/-- the file has held this cookie -/
def Held (contents : List (Except String String)) (auth : Credentials) : Prop :=
  ∃ content ∈ contents, readCookieFile content = .ok auth

def FromFile : Prop := cfg.configured = none ∧ cfg.cookieFile.isSome = true

/-- what a request may carry -/
structure Genuine (contents : List (Except String String)) (auth : Option Credentials) : Prop where
  configured : ∀ c, cfg.configured = some c → auth = some c
  file : FromFile cfg → ∃ c, auth = some c ∧ Held contents c
  none : cfg.configured = none → cfg.cookieFile = none → auth = none

/-- what a call holds -/
def Phase.Genuine (contents : List (Except String String)) : Phase τ → Prop
  | readCache _ | readFile _ => FromFile cfg
  | writeCache _ auth => FromFile cfg ∧ Held contents auth
  | send _ auth => RpcAuth.Genuine cfg contents auth
  | _ => True

variable {cfg}

theorem Held.cons {contents : List (Except String String)} {auth : Credentials} (h : Held contents auth)
    (content : Except String String) : Held (content :: contents) auth := by
  obtain ⟨held, hmem, hread⟩ := h
  exact ⟨held, List.mem_cons_of_mem _ hmem, hread⟩

theorem Genuine.cons {contents : List (Except String String)} {auth : Option Credentials} (h : Genuine cfg contents auth)
    (content : Except String String) : Genuine cfg (content :: contents) auth := by
  refine ⟨h.configured, fun hfile => ?_, h.none⟩
  obtain ⟨c, hauth, hheld⟩ := h.file hfile
  exact ⟨c, hauth, hheld.cons content⟩

theorem Phase.Genuine.cons {contents : List (Except String String)} {phase : Phase τ} (h : phase.Genuine cfg contents)
    (content : Except String String) : phase.Genuine cfg (content :: contents) := by
  cases phase with
  | writeCache again auth => exact ⟨h.1, h.2.cons content⟩
  | send again auth => exact RpcAuth.Genuine.cons h content
  | _ => exact h

theorem genuine_of_held {contents : List (Except String String)} {auth : Credentials} (hfile : FromFile cfg)
    (h : Held contents auth) : Genuine cfg contents (some auth) := by
  refine ⟨fun c hc => ?_, fun _ => ⟨auth, rfl, h⟩, fun _ hnone => ?_⟩
  · rw [hfile.1] at hc
    cases hc
  · have hsome := hfile.2
    rw [hnone] at hsome
    cases hsome

theorem resolveAuth_genuine (contents : List (Except String String)) (again : Bool) :
    (resolveAuth cfg again : Phase τ).Genuine cfg contents := by
  unfold resolveAuth
  split
  · rename_i c hconfigured
    refine ⟨fun c' hc' => ?_, fun hfile => ?_, fun hnone => ?_⟩
    · rw [hconfigured] at hc'
      exact hc'
    · rw [hfile.1] at hconfigured
      cases hconfigured
    · rw [hnone] at hconfigured
      cases hconfigured
  · rename_i hconfigured
    split_ifs with hsome
    · exact ⟨hconfigured, hsome⟩
    · refine ⟨fun c hc => ?_, fun hfile => absurd hfile.2 hsome, fun _ _ => rfl⟩
      rw [hconfigured] at hc
      cases hc

/-- what the cache, the calls and their requests hold -/
structure Inv (cfg : AuthConfig) (s : Client τ) : Prop where
  file : s.file ∈ s.contents
  cache : ∀ auth ∈ s.cachedCookie, Held s.contents auth
  calls : ∀ id, (s.calls id).Genuine cfg s.contents
  requests : ∀ id, ∀ q ∈ s.requests id, Genuine cfg s.contents q.1

theorem Inv.goTo {s : Client τ} (h : Inv cfg s) {id : ℕ} {phase : Phase τ} (hphase : phase.Genuine cfg s.contents) :
    Inv cfg (s.goTo id phase) := by
  refine ⟨h.file, h.cache, fun j => ?_, h.requests⟩
  rw [goTo_calls]
  split_ifs
  · exact hphase
  · exact h.calls j

theorem Inv.caches {s : Client τ} (h : Inv cfg s) {cookie : Option Credentials}
    (hcookie : ∀ auth ∈ cookie, Held s.contents auth) : Inv cfg { s with cachedCookie := cookie } :=
  ⟨h.file, hcookie, h.calls, h.requests⟩

theorem inv_step (s : Client τ) (ev : Ev τ) (h : Inv cfg s) : Inv cfg (step cfg s ev) := by
  cases ev with
  | start id =>
    dsimp only [step]
    split
    · exact h.goTo (resolveAuth_genuine _ _)
    · exact h
  | turn id =>
    have hcall := h.calls id
    dsimp only [step]
    split
    · rename_i again hphase
      rw [hphase] at hcall
      split
      · rename_i auth hcached
        exact h.goTo (genuine_of_held hcall (h.cache auth hcached))
      · exact h.goTo hcall
    · rename_i again hphase
      rw [hphase] at hcall
      split
      · rename_i auth hread
        exact h.goTo ⟨hcall, s.file, h.file, hread⟩
      · exact h.goTo trivial
    · rename_i again auth hphase
      rw [hphase] at hcall
      have hsend : (Phase.send again (some auth) : Phase τ).Genuine cfg s.contents := genuine_of_held hcall.1 hcall.2
      refine (h.goTo hsend).caches fun c hc => ?_
      obtain rfl := Option.some.inj hc
      exact hcall.2
    · exact (h.goTo (resolveAuth_genuine _ _)).caches fun c hc => nomatch hc
    · exact h
  | reply id reply =>
    have hcall := h.calls id
    dsimp only [step]
    split
    · rename_i again auth hphase
      rw [hphase] at hcall
      refine ⟨h.file, h.cache, fun j => ?_, fun j q hq => ?_⟩
      · dsimp only [Client.answer]
        rw [Function.update_apply]
        split_ifs
        · trivial
        · trivial
        · exact h.calls j
      · dsimp only [Client.answer] at hq
        rw [Function.update_apply] at hq
        split_ifs at hq with hj
        · rcases List.mem_append.1 hq with hq | hq
          · exact h.requests id q hq
          · obtain rfl := List.mem_singleton.1 hq
            exact hcall
        · exact h.requests j q hq
    · exact h
  | drop id =>
    dsimp only [step]
    split
    · exact h
    · exact h.goTo trivial
  | file content =>
    refine ⟨List.mem_cons_self, fun auth hauth => (h.cache auth hauth).cons content, fun id => (h.calls id).cons content,
      fun id q hq => (h.requests id q hq).cons content⟩

theorem inv_run (content : Except String String) (evs : List (Ev τ)) : Inv cfg (run cfg content evs) := by
  refine Trace.run_inv_all inv_step evs ⟨List.mem_singleton_self _, ?_, fun _ => trivial, ?_⟩
  · exact fun auth hauth => nomatch hauth
  · exact fun id q hq => absurd hq List.not_mem_nil

/-- **Only genuine credentials are sent.** In every reachable state of every interleaving, what a call has sent and what it is
about to send are the configured credentials, or a cookie that the file has held, or nothing where neither is configured. -/
theorem requests_genuine (content : Except String String) (evs : List (Ev τ)) (id : ℕ) :
    (∀ q ∈ (run cfg content evs).requests id, Genuine cfg (run cfg content evs).contents q.1) ∧
      ∀ again auth, (run cfg content evs).calls id = .send again auth →
        Genuine cfg (run cfg content evs).contents auth := by
  have h := @inv_run τ cfg content evs
  refine ⟨h.requests id, fun again auth hphase => ?_⟩
  have hcall := h.calls id
  rw [hphase] at hcall
  exact hcall

/-! ## Refusals -/

/-- how many requests a call may send -/
def maxRequests (cfg : AuthConfig) : ℕ := if cfg.cookieFile.isSome then 2 else 1

/-- what a call has sent before its request -/
def SentBefore (cfg : AuthConfig) (again : Bool) (requests : List (Option Credentials × Bool)) : Prop :=
  if again then cfg.cookieFile.isSome = true ∧ ∃ auth, requests = [(auth, true)] else requests = []

/-- what a call has sent in each phase -/
def Sent (cfg : AuthConfig) (requests : List (Option Credentials × Bool)) : Phase τ → Prop
  | .idle => requests = []
  | .readCache again | .readFile again | .writeCache again _ | .send again _ => SentBefore cfg again requests
  | .clear => SentBefore cfg true requests
  | .done result => requests.length ≤ maxRequests cfg ∧
    (result = .error refusedError ↔ requests.length = maxRequests cfg ∧ ∀ q ∈ requests, q.2 = true)
  | .dropped => requests.length ≤ maxRequests cfg

theorem SentBefore.lt {again : Bool} {requests : List (Option Credentials × Bool)} (h : SentBefore cfg again requests) :
    requests.length < maxRequests cfg := by
  cases again with
  | false =>
    obtain rfl : requests = [] := h
    unfold maxRequests
    split_ifs <;> simp
  | true =>
    obtain ⟨hfile, auth, rfl⟩ := h
    simp [maxRequests, hfile]

theorem Sent.le {requests : List (Option Credentials × Bool)} {phase : Phase τ} (h : Sent cfg requests phase) :
    requests.length ≤ maxRequests cfg := by
  cases phase with
  | idle =>
    obtain rfl : requests = [] := h
    exact Nat.zero_le _
  | readCache again => exact (SentBefore.lt h).le
  | readFile again => exact (SentBefore.lt h).le
  | writeCache again auth => exact (SentBefore.lt h).le
  | send again auth => exact (SentBefore.lt h).le
  | clear => exact (SentBefore.lt h).le
  | done result => exact h.1
  | dropped => exact h

theorem sent_resolveAuth {again : Bool} {requests : List (Option Credentials × Bool)}
    (h : SentBefore cfg again requests) : Sent cfg requests (resolveAuth cfg again : Phase τ) := by
  unfold resolveAuth
  split
  · exact h
  · split_ifs
    · exact h
    · exact h

/-- a call that fails before its request -/
theorem sent_failed {again : Bool} {requests : List (Option Credentials × Bool)} (h : SentBefore cfg again requests)
    {e : BitcoinRpcError} (he : e ≠ refusedError) : Sent cfg requests (.done (.error e) : Phase τ) := by
  refine ⟨h.lt.le, iff_of_false (fun heq => he (Except.error.inj heq)) fun hall => ?_⟩
  exact absurd hall.1 h.lt.ne

/-- a call that has a reply -/
theorem sent_answer {again : Bool} {requests : List (Option Credentials × Bool)} (h : SentBefore cfg again requests)
    (auth : Option Credentials) (reply : Reply τ) :
    Sent cfg (requests ++ [(auth, reply.refused)])
      (if reply.refused && cfg.cookieFile.isSome && !again then .clear else .done reply.result) := by
  split_ifs with htry
  · simp only [Bool.and_eq_true, Bool.not_eq_true'] at htry
    obtain ⟨⟨hrefused, hfile⟩, rfl⟩ := htry
    obtain rfl : requests = [] := h
    exact ⟨hfile, auth, by rw [hrefused, List.nil_append]⟩
  · have hlt := h.lt
    refine ⟨by simpa using hlt, ?_⟩
    rw [Reply.result_eq_refused]
    cases hrefused : reply.refused with
    | false =>
      refine iff_of_false Bool.false_ne_true fun hall => ?_
      exact absurd (hall.2 (auth, false) (by simp)) Bool.false_ne_true
    | true =>
      refine iff_of_true rfl ?_
      cases again with
      | false =>
        obtain rfl : requests = [] := h
        simp only [hrefused, Bool.not_false, Bool.and_true, Bool.true_and, Bool.not_eq_true] at htry
        simp [maxRequests, htry]
      | true =>
        obtain ⟨hfile, first, rfl⟩ := h
        simp [maxRequests, hfile]

def SentInv (cfg : AuthConfig) (s : Client τ) : Prop := ∀ id, Sent cfg (s.requests id) (s.calls id)

theorem SentInv.goTo {s : Client τ} (h : SentInv cfg s) {id : ℕ} {phase : Phase τ}
    (hphase : Sent cfg (s.requests id) phase) : SentInv cfg (s.goTo id phase) := by
  intro j
  rw [goTo_calls, goTo_requests]
  split_ifs with hj
  · exact hj ▸ hphase
  · exact h j

theorem sent_step (s : Client τ) (ev : Ev τ) (h : SentInv cfg s) : SentInv cfg (step cfg s ev) := by
  cases ev with
  | start id =>
    have hcall := h id
    dsimp only [step]
    split
    · rename_i hphase
      rw [hphase] at hcall
      exact h.goTo (sent_resolveAuth hcall)
    · exact h
  | turn id =>
    have hcall := h id
    dsimp only [step]
    split
    · rename_i again hphase
      rw [hphase] at hcall
      split
      · exact h.goTo hcall
      · exact h.goTo hcall
    · rename_i again hphase
      rw [hphase] at hcall
      split
      · exact h.goTo hcall
      · rename_i e hread
        exact h.goTo (sent_failed hcall fun he => readCookieFile_ne_refused s.file (he ▸ hread))
    · rename_i again auth hphase
      rw [hphase] at hcall
      have hsent : Sent cfg (s.requests id) (.send again (some auth) : Phase τ) := hcall
      exact fun j => (h.goTo hsent) j
    · rename_i hphase
      rw [hphase] at hcall
      have hsent : Sent cfg (s.requests id) (resolveAuth cfg true : Phase τ) := sent_resolveAuth hcall
      exact fun j => (h.goTo hsent) j
    · exact h
  | reply id reply =>
    have hcall := h id
    dsimp only [step]
    split
    · rename_i again auth hphase
      rw [hphase] at hcall
      intro j
      dsimp only [Client.answer]
      rw [Function.update_apply, Function.update_apply]
      by_cases hj : j = id
      · rw [if_pos hj, if_pos hj]
        exact sent_answer hcall auth reply
      · rw [if_neg hj, if_neg hj]
        exact h j
    · exact h
  | drop id =>
    have hle := (h id).le
    dsimp only [step]
    split
    · exact h
    · exact h.goTo hle
  | file content => exact h

/-- **When a call is refused.** In every reachable state of every interleaving, a call has had at most two requests refused or
answered, one where there is no cookie file; and one that has ended was refused exactly if all the requests that it may send
were. -/
theorem refused_iff (content : Except String String) (evs : List (Ev τ)) (id : ℕ) :
    ((run cfg content evs).requests id).length ≤ maxRequests cfg ∧
      ∀ result, (run cfg content evs).calls id = .done result →
        (result = .error refusedError ↔ ((run cfg content evs).requests id).length = maxRequests cfg ∧
          ∀ q ∈ (run cfg content evs).requests id, q.2 = true) := by
  have hsent : SentInv cfg (run cfg content evs) := Trace.run_inv_all sent_step evs fun _ => rfl
  refine ⟨(hsent id).le, fun result hphase => ?_⟩
  have hcall := hsent id
  rw [hphase] at hcall
  exact hcall.2

/-! ## A new cookie -/

/-- a call that has not been refused -/
def Phase.unrefused : Phase τ → Bool
  | idle | readCache false | readFile false | writeCache false _ | send false _ => true
  | _ => false

/-- the file keeps its cookie, and the node does not refuse it -/
def Settled (auth : Credentials) (s : Client τ) : Ev τ → Prop
  | .file content => readCookieFile content = .ok auth
  | .reply id reply => ∀ again, s.calls id = .send again (some auth) → reply.refused = false
  | _ => True

/-- after its refusal the call has the cookie, or finds no other in the cache -/
def OnTrack (auth : Credentials) (cachedCookie : Option Credentials) : Phase τ → Prop
  | .readCache true => ∀ c ∈ cachedCookie, c = auth
  | .send true sent => sent = some auth
  | .done result => ∀ message, result ≠ .error (.authError message)
  | _ => True

structure Recovering (auth : Credentials) (id : ℕ) (s : Client τ) : Prop where
  file : readCookieFile s.file = .ok auth
  writing : ∀ j again c, s.calls j = .writeCache again c → c = auth
  own : OnTrack auth s.cachedCookie (s.calls id)

theorem onTrack_of_unrefused {auth : Credentials} {cachedCookie : Option Credentials} {phase : Phase τ}
    (h : phase.unrefused = true) : OnTrack auth cachedCookie phase := by
  cases phase with
  | readCache again => cases again with
    | false => trivial
    | true => cases h
  | send again sent => cases again with
    | false => trivial
    | true => cases h
  | done result => cases h
  | _ => trivial

/-- the next phase of one call, with the cache as it is -/
theorem Recovering.goTo {auth : Credentials} {id j : ℕ} {s : Client τ} {phase : Phase τ} (h : Recovering auth id s)
    (hwriting : ∀ again c, phase = .writeCache again c → c = auth)
    (hown : j = id → OnTrack auth s.cachedCookie phase) : Recovering auth id (s.goTo j phase) := by
  refine ⟨h.file, fun k again c hk => ?_, ?_⟩
  · rw [goTo_calls] at hk
    split_ifs at hk
    · exact hwriting again c hk
    · exact h.writing k again c hk
  · rw [goTo_calls]
    split_ifs with hj
    · exact hown hj.symm
    · exact h.own

/-- the cache gets the cookie, or is emptied -/
theorem Recovering.caches {auth : Credentials} {id : ℕ} {s : Client τ} (h : Recovering auth id s)
    {cookie : Option Credentials} (hcookie : ∀ c ∈ cookie, c = auth) :
    Recovering auth id { s with cachedCookie := cookie } := by
  refine ⟨h.file, h.writing, ?_⟩
  have hown := h.own
  dsimp only
  generalize s.calls id = phase at hown
  cases phase with
  | readCache again => cases again with
    | false => trivial
    | true => exact hcookie
  | send again sent => cases again with
    | false => trivial
    | true => exact hown
  | done result => exact hown
  | _ => trivial

theorem resolveAuth_fromFile (hcfg : FromFile cfg) (again : Bool) : (resolveAuth cfg again : Phase τ) = .readCache again := by
  unfold resolveAuth
  rw [hcfg.1]
  exact if_pos hcfg.2

theorem recovering_step (hcfg : FromFile cfg) {auth : Credentials} {id : ℕ} (s : Client τ) (ev : Ev τ)
    (h : Recovering auth id s) (hev : Settled auth s ev) : Recovering auth id (step cfg s ev) := by
  cases ev with
  | start j =>
    dsimp only [step]
    split
    · rw [resolveAuth_fromFile hcfg]
      exact h.goTo (fun _ _ hw => nomatch hw) fun _ => trivial
    · exact h
  | turn j =>
    dsimp only [step]
    split
    · rename_i again hphase
      split
      · rename_i c hcached
        refine h.goTo (fun _ _ hw => nomatch hw) fun hj => ?_
        -- a call that was refused finds no older cookie
        have hown := h.own
        rw [← hj, hphase, hcached] at hown
        cases again with
        | false => trivial
        | true => exact congrArg some (hown c rfl)
      · exact h.goTo (fun _ _ hw => nomatch hw) fun _ => trivial
    · rename_i again hphase
      rw [h.file]
      refine h.goTo (fun again' c hw => ?_) fun _ => trivial
      cases hw
      rfl
    · rename_i again c hphase
      have hc := h.writing j again c hphase
      have hsend : Recovering auth id (s.goTo j (.send again (some c))) := by
        refine h.goTo (fun _ _ hw => nomatch hw) fun _ => ?_
        cases again with
        | false => trivial
        | true => exact congrArg some hc
      exact hsend.caches fun c' hc' => (Option.some.inj hc').symm.trans hc
    · rename_i hphase
      rw [resolveAuth_fromFile hcfg]
      -- the cache is emptied before it is read again
      have hcleared : Recovering auth id { s with cachedCookie := none } := h.caches fun c hc => nomatch hc
      exact hcleared.goTo (fun _ _ hw => nomatch hw) fun _ c hc => nomatch hc
    · exact h
  | reply j reply =>
    dsimp only [step]
    split
    · rename_i again sent hphase
      have hnext : Recovering auth id (s.goTo j
          (if reply.refused && cfg.cookieFile.isSome && !again then .clear else .done reply.result)) := by
        refine h.goTo (fun _ _ hw => ?_) fun hj => ?_
        · split_ifs at hw
        · split_ifs with htry
          · trivial
          · rw [hcfg.2, Bool.and_true, Bool.and_eq_true, Bool.not_eq_true', not_and, Bool.not_eq_false] at htry
            have hown := h.own
            rw [← hj, hphase] at hown
            refine Reply.result_of_not_refused ?_
            by_contra hrefused
            rw [Bool.not_eq_false] at hrefused
            obtain rfl := htry hrefused
            obtain rfl : sent = some auth := hown
            rw [hev true hphase] at hrefused
            cases hrefused
      exact ⟨hnext.file, hnext.writing, hnext.own⟩
    · exact h
  | drop j =>
    dsimp only [step]
    split
    · exact h
    · exact h.goTo (fun _ _ hw => nomatch hw) fun _ => trivial
  | file content => exact ⟨hev, h.writing, h.own⟩

/-- **A new cookie is found.** From any state whose file has the node's cookie and in which no call is about to cache another
one: while file and node stay so, a call that has not been refused yet does not fail to authenticate, whatever the cache
holds and the other calls do. -/
theorem rotation_recovers (hcfg : FromFile cfg) (s : Client τ) (auth : Credentials) (id : ℕ) (evs : List (Ev τ))
    (hfile : readCookieFile s.file = .ok auth)
    (hwriting : ∀ j again c, s.calls j = .writeCache again c → c = auth) (hcall : (s.calls id).unrefused = true)
    (hsettled : Trace.Steps (step cfg) (Settled auth) s evs) (message : String) :
    (Trace.run (step cfg) s evs).calls id ≠ .done (.error (.authError message)) := by
  have hrecovering : Recovering auth id (Trace.run (step cfg) s evs) :=
    Trace.run_inv (recovering_step hcfg) ⟨hfile, hwriting, onTrack_of_unrefused hcall⟩ hsettled
  intro hdone
  have hown := hrecovering.own
  rw [hdone] at hown
  exact hown message rfl

end

/-! ## Two runs -/

def cookieOnly : AuthConfig := ⟨none, none, some ".cookie"⟩

def refusal : Reply ℕ := .response true (.ok ⟨none, none⟩)

/-- the node has started again, and the old cookie is still cached -/
def restarted : Client ℕ :=
  ⟨.ok "__cookie__:new", some ("__cookie__", "old"), fun _ => .idle, [.ok "__cookie__:new", .ok "__cookie__:old"], fun _ => []⟩

/-- a call finds the new cookie -/
def secondTry : List (Ev ℕ) :=
  [.start 2, .turn 2, .reply 2 refusal, .turn 2, .turn 2, .turn 2, .turn 2, .reply 2 (.response false (.ok ⟨some 7, none⟩))]

theorem rotation_recovers_second_try :
    (Trace.run (step cookieOnly) restarted secondTry).requests 2 =
        [(some ("__cookie__", "old"), true), (some ("__cookie__", "new"), false)] ∧
      (Trace.run (step cookieOnly) restarted secondTry).calls 2 ≠
        .done (.error (.authError "Bitcoin Core RPC authentication failed (401 Unauthorized)")) := by
  refine ⟨rfl, rotation_recovers ⟨rfl, rfl⟩ restarted ("__cookie__", "new") 2 secondTry rfl ?_ rfl ?_ _⟩
  · exact fun _ _ _ hwriting => nomatch hwriting
  · refine ⟨trivial, trivial, fun again hsend => ?_, trivial, trivial, trivial, trivial, fun _ _ => rfl, trivial⟩
    -- the request that is refused carries the old cookie
    have hauth : (some ("__cookie__", "old") : Option Credentials) = some ("__cookie__", "new") := by
      change (Phase.send false (some ("__cookie__", "old")) : Phase ℕ) = .send again (some ("__cookie__", "new")) at hsend
      exact (Phase.send.inj hsend).2
    simp at hauth

/-- two calls have read the old cookie; the first one caches it after the second has emptied the cache -/
def lateRead : List (Ev ℕ) :=
  [.start 1, .turn 1, .turn 1, .start 2, .turn 2, .turn 2, .turn 2, .file (.ok "__cookie__:new"), .reply 2 refusal, .turn 2,
    .turn 1, .turn 2, .reply 2 refusal]

/-- **A late read**: the second try of a call takes the old cookie, though the file has the new one. -/
theorem late_read_refused :
    (run cookieOnly (.ok "__cookie__:old") lateRead).calls 2 = .done (.error refusedError) ∧
      (run cookieOnly (.ok "__cookie__:old") lateRead).requests 2 =
        [(some ("__cookie__", "old"), true), (some ("__cookie__", "old"), true)] ∧
      readCookieFile (run cookieOnly (.ok "__cookie__:old") lateRead).file = .ok ("__cookie__", "new") :=
  ⟨rfl, rfl, rfl⟩

end ObsChain.RpcAuth
