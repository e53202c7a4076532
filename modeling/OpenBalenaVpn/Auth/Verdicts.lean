import OpenBalenaVpn.Auth.Cache
import OpenBalenaVpn.Auth.Theorems

namespace OpenBalenaVpn.Auth

open Transition

section Properties

variable {config : Config} (client : Client) (VPN_AUTH_CACHE_TIMEOUT : Nat)

-- A login gets OK only from a 200 of the API to a request for this login, that is not
-- older than the cache allows.
def Verdicts (endpoint : Endpoint config) : Prop :=
  ∀ response ∈ endpoint.responses, response.value = 200 → ∀ username password,
    credentials response.arg = .ok (.string username, .string password) →
      ∃ answer ∈ endpoint.answers, answer.value = 200 ∧ answer.time ≤ response.time ∧
        response.time ≤ answer.time + VPN_AUTH_CACHE_TIMEOUT ∧
        Named client answer.arg username password

-- The API answers 200 only to requests of logins that are not changed on the way to it.
def AnswersKept (endpoint : Endpoint config) : TimedEvent → Prop
  | .answer id statusCode => statusCode = some 200 → ∀ call waiting,
      endpoint.memo.entries id = some (.pending call waiting) →
      Kept call.login.username ∧ Whole call.login.password
  | _ => True

def Posts (config : Config) (id : JsString) : TimedEvent → Prop
  | .post req => askedId config req = some id
  | _ => False

-- After another answer than the three that are remembered, the next request for the same
-- login asks the API again.
def AsksAgain (config : Config) (events : List TimedEvent) : Prop :=
  ∀ before id statusCode between req login later,
    events = before ++ .answer id statusCode :: (between ++ .post req :: later) →
    statusCode ≠ some 200 ∧ statusCode ≠ some 401 ∧ statusCode ≠ some 403 →
    req.login config = some login → login.id = id →
    (∀ event ∈ between, ¬Posts config id event) → ∀ endpoint : Endpoint config,
      run (Endpoint.step client VPN_AUTH_CACHE_TIMEOUT) .initial
        (before ++ .answer id statusCode :: between) = some endpoint →
      endpoint.memo.entries id = none ∧
        (endpoint.post VPN_AUTH_CACHE_TIMEOUT req).asked =
          endpoint.asked ++ [login.check config]

end Properties

section Invariant

variable {config : Config} {client : Client} {VPN_AUTH_CACHE_TIMEOUT : Nat}

def SameId (first second : Call config) : Prop := first.id = second.id

-- An OK is a 200 that the memoized function returned, and that is an answer of the API to
-- a request that was sent.
structure Inv (client : Client) (VPN_AUTH_CACHE_TIMEOUT : Nat) (endpoint : Endpoint config) :
    Prop where
  recorded : Memo.Recorded Call.id endpoint.memo
  agreeing : Memo.Agreeing VPN_AUTH_CACHE_TIMEOUT SameId endpoint.memo
  responses : ∀ response ∈ endpoint.responses, response.value = 200 →
    ∃ call : Call config, call.req = response.arg ∧
      ⟨call, 200, response.time⟩ ∈ endpoint.memo.returned
  answers : ∀ stamp ∈ endpoint.memo.computed,
    ⟨stamp.arg.login.check config, stamp.value, stamp.time⟩ ∈ endpoint.answers ∧
      client (stamp.arg.login.check config) ≠ none

theorem inv_initial :
    Inv client VPN_AUTH_CACHE_TIMEOUT (Endpoint.initial : Endpoint config) where
  recorded := Memo.recorded_empty Call.id
  agreeing := ⟨nofun, nofun⟩
  responses := nofun
  answers := nofun

theorem refusal_ne (req : Request) : req.refusal ≠ 200 := by
  unfold Request.refusal
  split
  · rename_i status hstatus
    have hle := credentials_error hstatus
    omega
  · decide

theorem Inv.send {endpoint : Endpoint config} (h : Inv client VPN_AUTH_CACHE_TIMEOUT endpoint)
    {req : Request} {status : Nat} (hstatus : status = 200 → ∃ call : Call config,
      call.req = req ∧ ⟨call, 200, endpoint.memo.now⟩ ∈ endpoint.memo.returned) :
    Inv client VPN_AUTH_CACHE_TIMEOUT (endpoint.send req status) where
  recorded := h.recorded
  agreeing := h.agreeing
  responses := by
    intro response hresponse hvalue
    rcases List.mem_append.mp hresponse with hold | hnew
    · exact h.responses response hold hvalue
    · obtain rfl := List.mem_singleton.mp hnew
      exact hstatus hvalue
  answers := h.answers

theorem respond_eq_200 {checked : Option Nat} (h : respond checked = 200) :
    checked = some 200 :=
  checked_of_respond_lt (by omega)

section Requests

variable (htimeout : 0 < VPN_AUTH_CACHE_TIMEOUT)

include htimeout

-- The memoized function is called, and the check may be made.
theorem Inv.call {endpoint : Endpoint config} (h : Inv client VPN_AUTH_CACHE_TIMEOUT endpoint)
    (call : Call config) (asked : List Check) :
    Inv client VPN_AUTH_CACHE_TIMEOUT { endpoint with
      memo := endpoint.memo.call Call.id VPN_AUTH_CACHE_TIMEOUT call
      asked } where
  recorded := Memo.recorded_call h.recorded call
  agreeing := by
    have hrefl : ∀ call : Call config, SameId call call := fun _ => rfl
    exact Memo.agreeing_call htimeout hrefl h.recorded h.agreeing
      (Memo.joins_key h.recorded (.call call))
  responses response hresponse hvalue := by
    obtain ⟨caller, hreq, hreturned⟩ := h.responses response hresponse hvalue
    exact ⟨caller, hreq, Memo.mem_returned_call endpoint.memo call hreturned⟩
  answers stamp hstamp := by
    rw [Memo.call_computed] at hstamp
    exact h.answers stamp hstamp

theorem Inv.checkDeviceAuth {endpoint : Endpoint config}
    (h : Inv client VPN_AUTH_CACHE_TIMEOUT endpoint) (call : Call config) :
    Inv client VPN_AUTH_CACHE_TIMEOUT
      (endpoint.checkDeviceAuth VPN_AUTH_CACHE_TIMEOUT call) := by
  unfold Endpoint.checkDeviceAuth
  simp only
  split
  · exact h.call htimeout call _
  · exact h.call htimeout call _
  · rename_i first statusCode time hlive
    refine (h.call htimeout call endpoint.asked).send fun hstatus => ⟨call, rfl, ?_⟩
    obtain rfl := Option.some.inj (respond_eq_200 hstatus)
    simp only
    rw [Memo.call_of_settled hlive]
    exact List.mem_append_right _ List.mem_cons_self

end Requests

theorem value_eq_some {statusCode : Option Nat} {value : Nat}
    (h : (result statusCode).value = some value) : statusCode = some value := by
  cases statusCode with
  | none => cases h
  | some status =>
      unfold result at h
      simp only at h
      split at h
      · exact h
      · split at h <;> cases h

theorem value_of_checked {statusCode : Option Nat}
    (h : (result statusCode).checked = some 200) : (result statusCode).value = some 200 := by
  rw [result_checked_200 h]
  rfl

-- What an answer leaves in the cache.
theorem Inv.answer {endpoint next : Endpoint config}
    (h : Inv client VPN_AUTH_CACHE_TIMEOUT endpoint) {id : JsString} {statusCode : Option Nat}
    (hs : endpoint.answer client id statusCode = some next) :
    Inv client VPN_AUTH_CACHE_TIMEOUT next := by
  obtain ⟨call, waiting, memo, hentry, hsent, hmemo, rfl⟩ := answer_cases hs
  have hrecorded := Memo.recorded_settle h.recorded hmemo
  have hagreeing := Memo.agreeing_settle h.agreeing hmemo
  obtain ⟨other, callers, hpending, hsettled⟩ := Memo.settle_cases hmemo
  obtain ⟨rfl, rfl⟩ := Memo.Entry.pending.inj (Option.some.inj (hentry.symm.trans hpending))
  refine ⟨hrecorded, hagreeing, fun response hresponse hvalue => ?_, fun stamp hstamp => ?_⟩
  · rcases List.mem_append.mp hresponse with hold | hnew
    · obtain ⟨caller, hreq, hreturned⟩ := h.responses response hold hvalue
      refine ⟨caller, hreq, ?_⟩
      obtain ⟨value, _, rfl⟩ | ⟨_, rfl⟩ := hsettled
      · exact List.mem_append_left _ hreturned
      · exact hreturned
    · obtain ⟨caller, hcaller, rfl⟩ := List.mem_map.mp hnew
      have hstatus := value_of_checked (respond_eq_200 hvalue)
      obtain ⟨value, hresult, rfl⟩ | ⟨hnone, _⟩ := hsettled
      · obtain rfl := Option.some.inj (hstatus.symm.trans hresult)
        exact ⟨caller, rfl, List.mem_append_right _ (List.mem_map.mpr ⟨caller, hcaller, rfl⟩)⟩
      · cases hnone.symm.trans hstatus
  · obtain ⟨value, hresult, rfl⟩ | ⟨_, rfl⟩ := hsettled
    · obtain rfl := value_eq_some hresult
      rcases List.mem_append.mp hstamp with hold | hnew
      · obtain ⟨hanswer, hclient⟩ := h.answers stamp hold
        exact ⟨List.mem_append_left _ hanswer, hclient⟩
      · obtain rfl := List.mem_singleton.mp hnew
        exact ⟨List.mem_append_right _ List.mem_cons_self, hsent nofun⟩
    · obtain ⟨hanswer, hclient⟩ := h.answers stamp hstamp
      exact ⟨List.mem_append_left _ hanswer, hclient⟩

theorem Inv.step (htimeout : 0 < VPN_AUTH_CACHE_TIMEOUT) {endpoint next : Endpoint config}
    (h : Inv client VPN_AUTH_CACHE_TIMEOUT endpoint) {event : TimedEvent}
    (hs : endpoint.step client VPN_AUTH_CACHE_TIMEOUT event = some next) :
    Inv client VPN_AUTH_CACHE_TIMEOUT next := by
  cases event with
  | tick time =>
      obtain rfl := Option.some.inj hs
      have hrecorded := @Memo.recorded_step _ _ _ _ Call.id VPN_AUTH_CACHE_TIMEOUT _ _ h.recorded
        (.tick time) rfl
      exact ⟨hrecorded, h.agreeing, h.responses, h.answers⟩
  | post req =>
      obtain rfl := Option.some.inj hs
      rcases post_cases endpoint req with ⟨_, hpost⟩ | ⟨call, rfl, hpost⟩
      · rw [hpost]
        exact h.send fun hstatus => absurd hstatus (refusal_ne req)
      · rw [hpost]
        exact h.checkDeviceAuth htimeout call
  | answer id statusCode => exact h.answer hs

-- The remembered logins are those that the API was asked for.
def KeptOk (endpoint : Endpoint config) : Prop :=
  ∀ stamp ∈ endpoint.memo.computed, stamp.value = 200 →
    Kept stamp.arg.login.username ∧ Whole stamp.arg.login.password

theorem KeptOk.step {endpoint next : Endpoint config} (h : KeptOk endpoint) {event : TimedEvent}
    (hanswers : AnswersKept endpoint event)
    (hs : endpoint.step client VPN_AUTH_CACHE_TIMEOUT event = some next) : KeptOk next := by
  cases event with
  | tick time =>
      obtain rfl := Option.some.inj hs
      exact h
  | post req =>
      obtain rfl := Option.some.inj hs
      rcases post_cases endpoint req with ⟨_, hpost⟩ | ⟨call, rfl, hpost⟩
      · rw [hpost]
        exact h
      · rw [hpost, KeptOk, checkDeviceAuth_memo, Memo.call_computed]
        exact h
  | answer id statusCode =>
      obtain ⟨call, waiting, memo, hentry, _, hmemo, rfl⟩ := answer_cases hs
      obtain ⟨other, callers, hpending, ⟨value, hresult, rfl⟩ | ⟨_, rfl⟩⟩ :=
        Memo.settle_cases hmemo
      · intro stamp hstamp hvalue
        rcases List.mem_append.mp hstamp with hold | hnew
        · exact h stamp hold hvalue
        · obtain rfl := List.mem_singleton.mp hnew
          obtain rfl : value = 200 := hvalue
          exact hanswers (value_eq_some hresult) other callers hpending
      · exact h

end Invariant

section Theorems

variable {config : Config} {client : Client} {VPN_AUTH_CACHE_TIMEOUT : Nat}

theorem login_of_credentials {req : Request} {username password : JsString}
    (h : credentials req = .ok (.string username, .string password)) :
    req.login config = some ⟨username, password⟩ := by
  unfold Request.login
  rw [h]
  rfl

-- A login that the API has accepted has no separator, and so its id is that of no other
-- login.
theorem login_of_id {asked got : Login} (hclient : Documented config client)
    (hkept : Kept asked.username) (hsent : client (asked.check config) ≠ none)
    (h : asked.id = got.id) : got = asked := by
  obtain ⟨path, hpath⟩ := Option.ne_none_iff_exists'.mp hsent
  have husername : 0x01 ∉ asked.username := fun hmem => (hkept.units _ hmem).2.2.2.2 rfl
  have hpassword : 0x01 ∉ asked.password := fun hmem =>
    (hclient.header _ path hpath).1 (List.mem_append_right _ hmem)
  obtain ⟨hu, hp⟩ := callId_inj husername hpassword h
  exact congrArg₂ Login.mk hu hp

theorem verdicts_of_inv (hclient : Documented config client) {endpoint : Endpoint config}
    (h : Inv client VPN_AUTH_CACHE_TIMEOUT endpoint) (hkept : KeptOk endpoint) :
    Verdicts client VPN_AUTH_CACHE_TIMEOUT endpoint := by
  intro response hresponse hvalue username password hcredentials
  obtain ⟨call, hreq, hreturned⟩ := h.responses response hresponse hvalue
  obtain ⟨stamp, hstamp, hid, hstatus, hbefore, hafter⟩ := h.agreeing.1 _ hreturned
  obtain ⟨hanswer, hsent⟩ := h.answers stamp hstamp
  obtain ⟨husername, hpassword⟩ := hkept stamp hstamp hstatus
  have hlogin := call.asked
  rw [hreq, login_of_credentials hcredentials] at hlogin
  have hsame := login_of_id hclient husername hsent hid
  rw [← Option.some.inj hlogin] at hsame
  have hnamed := named_of_kept hclient husername hpassword hsent
  refine ⟨_, hanswer, hstatus, hbefore, hafter, ?_⟩
  simp only [← hsame] at hnamed ⊢
  exact hnamed

-- An id without an entry stays without one until a request for it.
theorem entries_none_step {endpoint next : Endpoint config} {id : JsString}
    (h : endpoint.memo.entries id = none) {event : TimedEvent} (hposts : ¬Posts config id event)
    (hs : endpoint.step client VPN_AUTH_CACHE_TIMEOUT event = some next) :
    next.memo.entries id = none := by
  cases event with
  | tick time =>
      obtain rfl := Option.some.inj hs
      exact h
  | post req =>
      obtain rfl := Option.some.inj hs
      rcases post_cases endpoint req with ⟨_, hpost⟩ | ⟨call, rfl, hpost⟩
      · rw [hpost]
        exact h
      · have hne : call.id ≠ id := by
          rintro rfl
          refine hposts ((askedId_eq config call.req).trans ?_)
          exact congrArg (Option.map Login.id) call.asked
        rw [hpost, checkDeviceAuth_memo, Memo.entries_call_of_ne endpoint.memo hne]
        exact h
  | answer other statusCode =>
      obtain ⟨_, _, memo, _, _, hmemo, rfl⟩ := answer_cases hs
      exact Memo.entries_settle_of_none h hmemo

theorem entries_none_run {endpoint last : Endpoint config} {id : JsString}
    (h : endpoint.memo.entries id = none) {events : List TimedEvent}
    (hposts : ∀ event ∈ events, ¬Posts config id event)
    (hrun : run (Endpoint.step client VPN_AUTH_CACHE_TIMEOUT) endpoint events = some last) :
    last.memo.entries id = none := by
  induction events generalizing endpoint with
  | nil => exact Option.some.inj hrun ▸ h
  | cons event events ih =>
      obtain ⟨next, hs, hrest⟩ := (run_cons_eq_some _ _ _ _ _).mp hrun
      exact ih (entries_none_step h (hposts event List.mem_cons_self) hs)
        (fun other ho => hposts other (List.mem_cons_of_mem _ ho)) hrest

theorem value_of_other {statusCode : Option Nat} (h : statusCode ≠ some 200 ∧
    statusCode ≠ some 401 ∧ statusCode ≠ some 403) : (result statusCode).value = none := by
  cases statusCode with
  | none => rfl
  | some status =>
      have hother : status ∉ [200, 401, 403] := by simpa using h
      rw [result]
      simp only [if_neg hother]
      split <;> rfl

theorem asked_of_none {endpoint : Endpoint config} {call : Call config}
    (h : endpoint.memo.entries call.id = none) :
    (endpoint.checkDeviceAuth VPN_AUTH_CACHE_TIMEOUT call).asked =
      endpoint.asked ++ [call.login.check config] := by
  unfold Endpoint.checkDeviceAuth
  simp only
  rw [Memo.Cache.live_of_none h]

theorem asksAgain (events : List TimedEvent) :
    AsksAgain client VPN_AUTH_CACHE_TIMEOUT config events := by
  intro before id statusCode between req login later _ hother hlogin hid hposts endpoint hrun
  obtain ⟨middle, _, hafter⟩ := (run_append_eq_some _ _ _ _ _).mp hrun
  obtain ⟨next, hanswer, hbetween⟩ := (run_cons_eq_some _ _ _ _ _).mp hafter
  obtain ⟨_, _, memo, _, _, hmemo, rfl⟩ := answer_cases hanswer
  rw [value_of_other hother] at hmemo
  have hnone := entries_none_run (Memo.entries_settle_none hmemo) hposts hbetween
  refine ⟨hnone, ?_⟩
  subst hid
  rcases post_cases endpoint req with ⟨hno, _⟩ | ⟨call, rfl, hpost⟩
  · rw [hlogin] at hno
    cases hno
  · obtain rfl := Option.some.inj (hlogin.symm.trans call.asked)
    rw [hpost]
    exact asked_of_none hnone

-- As long as the API answers 200 only to requests of logins that are not changed on the
-- way to it, and the remembered statuses expire, every OK is that of a fresh answer for the
-- same login. Other answers are not remembered in any case.
theorem verdicts_of_answersKept (hclient : Documented config client)
    {VPN_AUTH_CACHE_TIMEOUT : Nat} (htimeout : 0 < VPN_AUTH_CACHE_TIMEOUT)
    (events : List TimedEvent)
    (h : StepsMeet (Endpoint.step client VPN_AUTH_CACHE_TIMEOUT) AnswersKept
      (Endpoint.initial : Endpoint config) events) :
    Throughout (Endpoint.step client VPN_AUTH_CACHE_TIMEOUT)
        (Verdicts client VPN_AUTH_CACHE_TIMEOUT) (Endpoint.initial : Endpoint config) events ∧
      AsksAgain client VPN_AUTH_CACHE_TIMEOUT config events := by
  refine ⟨?_, asksAgain events⟩
  have hkept : Throughout (Endpoint.step client VPN_AUTH_CACHE_TIMEOUT)
      (fun endpoint => Inv client VPN_AUTH_CACHE_TIMEOUT endpoint ∧ KeptOk endpoint)
      (Endpoint.initial : Endpoint config) events :=
    throughout_of_stepsMeet (fun _ _ _ hinv hs => hinv.step htimeout hs)
      (fun _ _ _ _ hk hc hs => ⟨hk.1.step htimeout hs, hk.2.step hc hs⟩) inv_initial
      ⟨inv_initial, nofun⟩ h
  exact hkept.imp fun _ hk => verdicts_of_inv hclient hk.1 hk.2

def remembered : List TimedEvent :=
  [.post (posted "c0ffee".toList "k3y".toList),
    .answer (callId (utf16 "c0ffee".toList) (utf16 "k3y".toList)) (some 200), .tick 1000,
    .post (posted "c0ffee".toList "k3y".toList)]

theorem verdicts_of_answersKept_c0ffee :
    Throughout (Endpoint.step (plainClient exampleConfig.host) 60000)
        (Verdicts (plainClient exampleConfig.host) 60000)
        (Endpoint.initial : Endpoint exampleConfig) remembered ∧
      AsksAgain (plainClient exampleConfig.host) 60000 exampleConfig remembered := by
  refine verdicts_of_answersKept (documented_plainClient exampleConfig) (by decide) remembered ?_
  refine ⟨trivial, fun next hs => ⟨fun _ call waiting hentry => ?_, fun _ _ =>
    ⟨trivial, fun _ _ => ⟨trivial, fun _ _ => trivial⟩⟩⟩⟩
  have hinv := inv_initial.step (by decide) hs
  have hid := hinv.recorded.keyed _ _ hentry
  obtain ⟨husername, hpassword⟩ := callId_inj (by decide +kernel) (by decide +kernel) hid.symm
  have hkept : Kept (utf16 "c0ffee".toList) := ⟨by decide +kernel, by decide +kernel⟩
  have hwhole : Whole (utf16 "k3y".toList) := ⟨by decide +kernel, by decide +kernel⟩
  exact ⟨husername ▸ hkept, hpassword ▸ hwhole⟩

-- The path of the check ends at the question mark, and so the check is made for "a".
theorem verdicts_query :
    ∃ last, run (Endpoint.step (plainClient exampleConfig.host) 60000)
        (Endpoint.initial : Endpoint exampleConfig)
        [.post (posted "a?b".toList "k".toList),
          .answer (callId (utf16 "a?b".toList) (utf16 "k".toList)) (some 200)] = some last ∧
      last.responses.map (fun response => (response.arg, response.value)) =
        [(posted "a?b".toList "k".toList, 200)] ∧
      ¬Verdicts (plainClient exampleConfig.host) 60000 last := by
  have hrun : (run (Endpoint.step (plainClient exampleConfig.host) 60000)
      (Endpoint.initial : Endpoint exampleConfig)
      [.post (posted "a?b".toList "k".toList),
        .answer (callId (utf16 "a?b".toList) (utf16 "k".toList)) (some 200)]).map
      (fun last => (last.answers.map Memo.Stamp.arg,
        last.responses.map fun response => (response.arg, response.value))) =
      some ([check exampleConfig (utf16 "a?b".toList) (utf16 "k".toList)],
        [(posted "a?b".toList "k".toList, 200)]) := by
    decide +kernel
  obtain ⟨last, hlast, heq⟩ := Option.map_eq_some_iff.mp hrun
  obtain ⟨hanswers, hresponses⟩ := Prod.mk.inj heq
  refine ⟨last, hlast, hresponses, fun h => ?_⟩
  obtain ⟨response, hresponse, hvalues⟩ := List.map_eq_singleton_iff.mp hresponses
  obtain ⟨hreq, hstatus⟩ := Prod.mk.inj hvalues
  have hcredentials : credentials response.arg =
      .ok (.string (utf16 "a?b".toList), .string (utf16 "k".toList)) := by
    rw [hreq]
    exact credentials_posted (by decide) (by decide) (by decide) (by decide)
  obtain ⟨answer, hanswer, _, _, _, name, hsent, hdecoded⟩ :=
    h response (hresponse ▸ List.mem_singleton_self _) hstatus _ _ hcredentials
  have hmade : answer.arg ∈ last.answers.map Memo.Stamp.arg := List.mem_map_of_mem hanswer
  rw [hanswers, List.mem_singleton] at hmade
  have hreceived : plainClient exampleConfig.host
      (check exampleConfig (utf16 "a?b".toList) (utf16 "k".toList)) =
      some ⟨authPath ++ utf16 "a".toList, bearer ++ utf16 "k".toList⟩ := by
    decide +kernel
  rw [hmade, hreceived] at hsent
  obtain rfl := List.append_cancel_left (Received.mk.inj (Option.some.inj hsent)).1
  have hother : Uri.decodeURIComponent (utf16 "a".toList) ≠ some (utf16 "a?b".toList) := by
    decide +kernel
  exact hother hdecoded

end Theorems

end OpenBalenaVpn.Auth
