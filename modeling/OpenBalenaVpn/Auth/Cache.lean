import OpenBalenaVpn.Auth.Lemmas
import OpenBalenaVpn.Foundation.Memo

namespace OpenBalenaVpn.Auth

section Calls

structure Login where
  username : JsString
  password : JsString
  deriving DecidableEq

def Login.id (login : Login) : JsString := callId login.username login.password

def Login.check (config : Config) (login : Login) : Check :=
  Auth.check config login.username login.password

-- What a request asks `checkDeviceAuth` for, if it gets so far.
def Request.login (config : Config) (req : Request) : Option Login :=
  match credentials req with
  | .error _ => none
  | .ok (username, password) => do
      let username ← username.asText config.numberText
      let password ← password.asText config.numberText
      some ⟨username, password⟩

theorem askedId_eq (config : Config) (req : Request) :
    askedId config req = (req.login config).map Login.id := by
  unfold askedId Request.login
  cases credentials req with
  | error status => rfl
  | ok pair =>
      obtain ⟨username, password⟩ := pair
      cases husername : username.asText config.numberText with
      | none => simp [husername]
      | some user =>
          cases hpassword : password.asText config.numberText with
          | none => simp [husername, hpassword]
          | some pass => simp [husername, hpassword, Login.id]

-- The status with which a request ends that gets no further.
def Request.refusal (req : Request) : Nat :=
  match credentials req with
  | .error status => status
  | .ok _ => respond none

-- A request that calls the memoized function.
structure Call (config : Config) where
  req : Request
  login : Login
  asked : req.login config = some login

def Call.id {config : Config} (call : Call config) : JsString := call.login.id

def Result.value : Result → Option Nat
  | .returned statusCode => some statusCode
  | _ => none

end Calls

section Endpoint

variable {config : Config}

-- The cache with its clock, the checks that were made, the answers of the API and the
-- responses of the endpoint.
structure Endpoint (config : Config) where
  memo : Memo.Cache JsString (Call config) Nat
  asked : List Check
  answers : List (Memo.Stamp Check Nat)
  responses : List (Memo.Stamp Request Nat)

def Endpoint.initial : Endpoint config := ⟨.empty, [], [], []⟩

inductive TimedEvent where
  | tick (time : Nat)
  | post (req : Request)
  | answer (id : JsString) (statusCode : Option Nat)

variable (client : Client) (VPN_AUTH_CACHE_TIMEOUT : Nat)

def Endpoint.send (endpoint : Endpoint config) (req : Request) (status : Nat) :
    Endpoint config :=
  { endpoint with responses := endpoint.responses ++ [⟨req, status, endpoint.memo.now⟩] }

def Endpoint.checkDeviceAuth (endpoint : Endpoint config) (call : Call config) :
    Endpoint config :=
  let called := { endpoint with memo := endpoint.memo.call Call.id VPN_AUTH_CACHE_TIMEOUT call }
  match endpoint.memo.live VPN_AUTH_CACHE_TIMEOUT call.id with
  | none => { called with asked := endpoint.asked ++ [call.login.check config] }
  | some (.pending _ _) => called
  | some (.settled _ statusCode _) => called.send call.req (respond (some statusCode))

def Endpoint.post (endpoint : Endpoint config) (req : Request) : Endpoint config :=
  match h : req.login config with
  | some login => endpoint.checkDeviceAuth VPN_AUTH_CACHE_TIMEOUT ⟨req, login, h⟩
  | none => endpoint.send req req.refusal

-- The API answers what was sent to it. A request that was not sent fails.
def Endpoint.answer (endpoint : Endpoint config) (id : JsString) (statusCode : Option Nat) :
    Option (Endpoint config) :=
  match endpoint.memo.entries id with
  | some (.pending call waiting) =>
      if statusCode ≠ none ∧ client (call.login.check config) = none then none
      else (endpoint.memo.settle id (result statusCode).value).map fun memo =>
        { memo
          asked := endpoint.asked
          answers := endpoint.answers ++ (statusCode.map fun statusCode =>
            ⟨call.login.check config, statusCode, endpoint.memo.now⟩).toList
          responses := endpoint.responses ++ waiting.map fun caller =>
            ⟨caller.req, respond (result statusCode).checked, endpoint.memo.now⟩ }
  | _ => none

def Endpoint.step (endpoint : Endpoint config) : TimedEvent → Option (Endpoint config)
  | .tick time =>
      some { endpoint with memo := { endpoint.memo with now := endpoint.memo.now + time } }
  | .post req => some (endpoint.post VPN_AUTH_CACHE_TIMEOUT req)
  | .answer id statusCode => endpoint.answer client id statusCode

end Endpoint

section Steps

variable {config : Config} {client : Client} {VPN_AUTH_CACHE_TIMEOUT : Nat}

-- What a request does: it ends before the cache, it asks the API, it waits with another
-- request, or it gets a remembered status.
theorem post_cases (endpoint : Endpoint config) (req : Request) :
    (req.login config = none ∧
        endpoint.post VPN_AUTH_CACHE_TIMEOUT req = endpoint.send req req.refusal) ∨
      ∃ call : Call config, call.req = req ∧
        endpoint.post VPN_AUTH_CACHE_TIMEOUT req =
          endpoint.checkDeviceAuth VPN_AUTH_CACHE_TIMEOUT call := by
  unfold Endpoint.post
  split
  · rename_i login hlogin
    exact Or.inr ⟨⟨req, login, hlogin⟩, rfl, rfl⟩
  · rename_i hnone
    exact Or.inl ⟨hnone, rfl⟩

theorem checkDeviceAuth_memo (endpoint : Endpoint config) (call : Call config) :
    (endpoint.checkDeviceAuth VPN_AUTH_CACHE_TIMEOUT call).memo =
      endpoint.memo.call Call.id VPN_AUTH_CACHE_TIMEOUT call := by
  unfold Endpoint.checkDeviceAuth
  simp only
  split <;> rfl

theorem answer_cases {endpoint next : Endpoint config} {id : JsString} {statusCode : Option Nat}
    (h : endpoint.answer client id statusCode = some next) :
    ∃ call waiting memo, endpoint.memo.entries id = some (.pending call waiting) ∧
      (statusCode ≠ none → client (call.login.check config) ≠ none) ∧
      endpoint.memo.settle id (result statusCode).value = some memo ∧
      next = ⟨memo, endpoint.asked, endpoint.answers ++ (statusCode.map fun statusCode =>
          ⟨call.login.check config, statusCode, endpoint.memo.now⟩).toList,
        endpoint.responses ++ waiting.map fun caller =>
          ⟨caller.req, respond (result statusCode).checked, endpoint.memo.now⟩⟩ := by
  unfold Endpoint.answer at h
  split at h
  · rename_i call waiting hentry
    split at h
    · cases h
    · rename_i hsent
      obtain ⟨memo, hmemo, rfl⟩ := Option.map_eq_some_iff.mp h
      exact ⟨call, waiting, memo, hentry, fun hs hc => hsent ⟨hs, hc⟩, hmemo, rfl⟩
  · cases h

end Steps

section Untimed

variable {config : Config} {client : Client} {VPN_AUTH_CACHE_TIMEOUT : Nat}

def untimed : Memo.Entry (Call config) Nat → Entry
  | .pending call waiting => .pending (call.login.check config) (waiting.map Call.req)
  | .settled _ statusCode _ => .settled statusCode

-- The endpoint without its clock. An entry that is too old is still there until it expires.
structure Follows (endpoint : Endpoint config) (state : State) : Prop where
  cache : ∀ id, state.cache id = (endpoint.memo.entries id).map untimed
  checks : state.checks = endpoint.answers.map fun answer => (answer.arg, answer.value)
  responses : state.responses =
    endpoint.responses.map fun response => (response.arg, response.value)

theorem follows_initial : Follows (Endpoint.initial : Endpoint config) State.initial :=
  ⟨fun _ => rfl, rfl, rfl⟩

theorem Follows.send {endpoint : Endpoint config} {state : State} (h : Follows endpoint state)
    (req : Request) (status : Nat) : Follows (endpoint.send req status) (state.send req status) where
  cache := h.cache
  checks := h.checks
  responses := by
    rw [State.send, h.responses, Endpoint.send, List.map_append]
    rfl

theorem Follows.update {endpoint : Endpoint config} {state : State} (h : Follows endpoint state)
    (id : JsString) (entry : Option (Memo.Entry (Call config) Nat)) (other : JsString) :
    Function.update state.cache id (entry.map untimed) other =
      (Function.update endpoint.memo.entries id entry other).map untimed := by
  by_cases hother : other = id
  · subst hother
    rw [Function.update_self, Function.update_self]
  · rw [Function.update_of_ne hother, Function.update_of_ne hother]
    exact h.cache other

theorem post_of_login_none {req : Request} (h : req.login config = none) (state : State) :
    state.post config req = state.send req req.refusal := by
  unfold Request.login at h
  unfold State.post Request.refusal
  cases hcredentials : credentials req with
  | error status => rfl
  | ok pair =>
      obtain ⟨username, password⟩ := pair
      rw [hcredentials] at h
      simp only at h ⊢
      cases husername : username.asText config.numberText with
      | none => rfl
      | some user =>
          cases hpassword : password.asText config.numberText with
          | none => rfl
          | some pass =>
              rw [husername, hpassword] at h
              cases h

theorem post_of_call (call : Call config) (state : State) : state.post config call.req =
    state.checkDeviceAuth config call.req call.login.username call.login.password := by
  have hasked := call.asked
  unfold Request.login at hasked
  unfold State.post
  cases hcredentials : credentials call.req with
  | error status =>
      rw [hcredentials] at hasked
      cases hasked
  | ok pair =>
      obtain ⟨username, password⟩ := pair
      rw [hcredentials] at hasked
      simp only at hasked ⊢
      obtain ⟨user, husername, hrest⟩ := Option.bind_eq_some_iff.mp hasked
      obtain ⟨pass, hpassword, hlogin⟩ := Option.bind_eq_some_iff.mp hrest
      rw [husername, hpassword, ← Option.some.inj hlogin]

-- Where there is no live entry, the state without a clock can be one without an entry.
theorem Follows.expire {endpoint : Endpoint config} {state : State} (h : Follows endpoint state)
    {id : JsString} (hlive : endpoint.memo.live VPN_AUTH_CACHE_TIMEOUT id = none) :
    ∃ events, Transition.run (Auth.step config) state events = some (state.setEntry id none) := by
  have hcache := h.cache id
  cases hentry : endpoint.memo.entries id with
  | none =>
      rw [hentry, Option.map_none] at hcache
      refine ⟨[], congrArg some ?_⟩
      rw [State.setEntry, ← hcache, Function.update_eq_self]
  | some entry =>
      cases entry with
      | pending first waiting =>
          rw [Memo.Cache.live, hentry] at hlive
          cases hlive
      | settled first statusCode time =>
          rw [hentry] at hcache
          have hexpire : state.expire id = some (state.setEntry id none) := by
            rw [State.expire, hcache]
            rfl
          exact ⟨[.expire id], by rw [Transition.run_singleton, ← hexpire]; rfl⟩

theorem checkDeviceAuth_of_none {state : State} (call : Call config)
    (h : state.cache call.id = none) :
    state.checkDeviceAuth config call.req call.login.username call.login.password =
      state.setEntry call.id (some (.pending (call.login.check config) [call.req])) := by
  unfold State.checkDeviceAuth
  simp only
  rw [show callId call.login.username call.login.password = call.id from rfl, h]
  rfl

theorem checkDeviceAuth_of_pending {state : State} (call : Call config) {made : Check}
    {waiting : List Request} (h : state.cache call.id = some (.pending made waiting)) :
    state.checkDeviceAuth config call.req call.login.username call.login.password =
      state.setEntry call.id (some (.pending made (waiting ++ [call.req]))) := by
  unfold State.checkDeviceAuth
  simp only
  rw [show callId call.login.username call.login.password = call.id from rfl, h]

theorem checkDeviceAuth_of_settled {state : State} (call : Call config) {statusCode : Nat}
    (h : state.cache call.id = some (.settled statusCode)) :
    state.checkDeviceAuth config call.req call.login.username call.login.password =
      state.send call.req (respond (some statusCode)) := by
  unfold State.checkDeviceAuth
  simp only
  rw [show callId call.login.username call.login.password = call.id from rfl, h]

theorem setEntry_setEntry (state : State) (id : JsString) (first second : Option Entry) :
    (state.setEntry id first).setEntry id second = state.setEntry id second := by
  simp only [State.setEntry, Function.update_idem]

theorem Follows.checkDeviceAuth {endpoint : Endpoint config} {state : State}
    (h : Follows endpoint state) (call : Call config) :
    ∃ events next, Transition.run (Auth.step config) state events = some next ∧
      Follows (endpoint.checkDeviceAuth VPN_AUTH_CACHE_TIMEOUT call) next := by
  have hpost : ∀ state : State, Auth.step config state (.post call.req) =
      some (state.checkDeviceAuth config call.req call.login.username call.login.password) :=
    fun state => congrArg some (post_of_call call state)
  have hcache := h.cache call.id
  unfold Endpoint.checkDeviceAuth
  simp only
  cases hlive : endpoint.memo.live VPN_AUTH_CACHE_TIMEOUT call.id with
  | none =>
      obtain ⟨events, hrun⟩ := h.expire hlive
      have hnone : (state.setEntry call.id none).cache call.id = none := Function.update_self _ _ _
      have hasked := hpost (state.setEntry call.id none)
      rw [checkDeviceAuth_of_none call hnone, setEntry_setEntry] at hasked
      refine ⟨events ++ [.post call.req], _,
        (Transition.run_concat_eq_some _ _ _ _ _).mpr ⟨_, hrun, hasked⟩, ?_⟩
      rw [Memo.call_of_none hlive]
      exact ⟨h.update call.id (some (.pending call [call])), h.checks, h.responses⟩
  | some entry =>
      have hentry := Memo.Cache.entries_of_live hlive
      rw [hentry] at hcache
      refine ⟨[.post call.req], _, (Transition.run_singleton _ _ _).trans (hpost _), ?_⟩
      cases entry with
      | pending first waiting =>
          rw [checkDeviceAuth_of_pending call hcache]
          simp only
          rw [Memo.call_of_pending hlive]
          refine ⟨fun id => ?_, h.checks, h.responses⟩
          have hupdate := h.update call.id (some (.pending first (waiting ++ [call]))) id
          rw [Option.map_some, untimed, List.map_append] at hupdate
          exact hupdate
      | settled first statusCode time =>
          rw [checkDeviceAuth_of_settled call hcache]
          simp only
          rw [Memo.call_of_settled hlive]
          have hsend := h.send call.req (respond (some statusCode))
          exact ⟨hsend.cache, hsend.checks, hsend.responses⟩

-- An answer leaves what the memoized function returned.
theorem entries_settle {endpoint : Endpoint config} {id : JsString} {statusCode : Option Nat}
    {memo : Memo.Cache JsString (Call config) Nat}
    (h : endpoint.memo.settle id (result statusCode).value = some memo) :
    ∃ settled, memo.entries = Function.update endpoint.memo.entries id settled ∧
      settled.map untimed = entry (result statusCode) := by
  obtain ⟨call, waiting, _, ⟨value, hvalue, rfl⟩ | ⟨hvalue, rfl⟩⟩ := Memo.settle_cases h
  · refine ⟨_, rfl, ?_⟩
    cases houtcome : result statusCode with
    | returned status =>
        rw [houtcome] at hvalue
        obtain rfl := Option.some.inj hvalue
        rfl
    | expectedAuthError | error =>
        rw [houtcome] at hvalue
        cases hvalue
  · refine ⟨none, rfl, ?_⟩
    cases houtcome : result statusCode with
    | returned status =>
        rw [houtcome] at hvalue
        cases hvalue
    | expectedAuthError | error => rfl

theorem Follows.answer {endpoint next : Endpoint config} {state : State}
    (h : Follows endpoint state) {id : JsString} {statusCode : Option Nat}
    (hs : endpoint.answer client id statusCode = some next) :
    ∃ state', state.answer id statusCode = some state' ∧ Follows next state' := by
  obtain ⟨call, waiting, memo, hentry, _, hmemo, rfl⟩ := answer_cases hs
  have hcache := h.cache id
  rw [hentry] at hcache
  unfold State.answer
  rw [hcache]
  refine ⟨_, rfl, fun other => ?_, ?_, ?_⟩
  · obtain ⟨settled, hentries, hsettled⟩ := entries_settle hmemo
    simp only [hentries, ← hsettled]
    exact h.update id settled other
  · rw [h.checks, List.map_append]
    cases statusCode <;> rfl
  · rw [h.responses, List.map_append, List.map_map, List.map_map]
    rfl

theorem Follows.step {endpoint next : Endpoint config} {state : State}
    (h : Follows endpoint state) {event : TimedEvent}
    (hs : endpoint.step client VPN_AUTH_CACHE_TIMEOUT event = some next) :
    ∃ events state', Transition.run (Auth.step config) state events = some state' ∧
      Follows next state' := by
  cases event with
  | tick time =>
      obtain rfl := Option.some.inj hs
      exact ⟨[], state, rfl, h.cache, h.checks, h.responses⟩
  | post req =>
      obtain rfl := Option.some.inj hs
      rcases post_cases endpoint req with ⟨hnone, hpost⟩ | ⟨call, rfl, hpost⟩
      · rw [hpost]
        refine ⟨[.post req], _, ?_, h.send req req.refusal⟩
        rw [Transition.run_singleton, ← post_of_login_none hnone]
        rfl
      · rw [hpost]
        exact h.checkDeviceAuth call
  | answer id statusCode =>
      obtain ⟨state', hanswer, hfollows⟩ := h.answer hs
      exact ⟨[.answer id statusCode], state', by rw [Transition.run_singleton, ← hanswer]; rfl,
        hfollows⟩

-- With its clock the endpoint answers as it may without one.
theorem follows_run {last : Endpoint config} {events : List TimedEvent}
    (h : Transition.run (Endpoint.step client VPN_AUTH_CACHE_TIMEOUT) .initial events =
      some last) :
    ∃ events state, Transition.run (Auth.step config) .initial events = some state ∧
      Follows last state := by
  have hkeep : ∀ (endpoint : Endpoint config) event next,
      (∃ events state, Transition.run (Auth.step config) State.initial events = some state ∧
        Follows endpoint state) →
      endpoint.step client VPN_AUTH_CACHE_TIMEOUT event = some next →
      ∃ events state, Transition.run (Auth.step config) State.initial events = some state ∧
        Follows next state := by
    rintro endpoint event next ⟨before, state, hrun, hfollows⟩ hs
    obtain ⟨more, state', hmore, hnext⟩ := hfollows.step hs
    exact ⟨before ++ more, state', (Transition.run_append_eq_some _ _ _ _ _).mpr
      ⟨state, hrun, hmore⟩, hnext⟩
  exact Transition.run_invariant hkeep ⟨[], _, rfl, follows_initial⟩ h

end Untimed

end OpenBalenaVpn.Auth
