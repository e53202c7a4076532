import OpenBalenaVpn.Proxy.Tunnel.Lookups

namespace OpenBalenaVpn.Proxy

open Program

variable {Address Socket : Type}

namespace Tunnel

section Verdict

variable {α : Type}

theorem yields_parse_seq {req : Request} {next : Target → Tunneling Address Socket α}
    {last : Calls Address Socket → Except Error α → Prop}
    (hok : ∀ target, parseRequest req = .ok target → Yields (next target) last)
    (herror : ∀ error, parseRequest req = .error error → last [] (.error error.toError)) :
    Yields (parse req >>= next) last := by
  unfold parse
  split
  · next target htarget => exact hok target htarget
  · next error herr =>
      have hthrow : Yields (throw error.toError : Tunneling Address Socket Target)
          fun calls result => calls = [] ∧ result = .error error.toError := .throw ⟨rfl, rfl⟩
      refine .seq hthrow (fun before value h => ?_) fun before other h => ?_
      · cases h.2
      · obtain ⟨rfl, heq⟩ := h
        rw [Except.error.inj heq]
        exact herror error herr

def checkAccess (target : Target) (deviceId : Option Nat) :
    Call (Command Address) (Reply Address Socket) :=
  ⟨.canAccessDevice target.uuid target.port target.auth, deviceId⟩

def checkConnected (id : Nat) (device : Except Text Bool) :
    Call (Command Address) (Reply Address Socket) :=
  ⟨.isDeviceConnectedToVpnQuery id, device⟩

def endCall (response : Text) : Call (Command Address) (Reply Address Socket) :=
  ⟨.clientEnd response, ()⟩

def retarget (req : Request) (target : Target) : Request :=
  { req with url := some (target.uuid ++ ".vpn:".toList ++ target.port.text) }

-- The error responses of `tunnelToDevice`.
def responses : List Text := [HTTP_400, HTTP_403, HTTP_407, HTTP_503, HTTP_500]

-- The runs of `authorize`.
inductive Authorized (req : Request) : Calls Address Socket → Except Error Unit → Prop where
  | unread {error : TunnelError} (h : parseRequest req = .error error) :
      Authorized req [] (.error error.toError)
  | refused {target : Target} (h : parseRequest req = .ok target) (deviceId : Option Nat)
      (message : Text) :
      Authorized req [checkAccess target deviceId, endCall HTTP_407]
        (.error (.handledTunneling message))
  | unknown {target : Target} (h : parseRequest req = .ok target) (id : Nat) (message : Text) :
      Authorized req [checkAccess target (some id), checkConnected id (.error message)]
        (.error (.api message))
  | unavailable {target : Target} (h : parseRequest req = .ok target) (id : Nat)
      (message : Text) :
      Authorized req [checkAccess target (some id), checkConnected id (.ok false), endCall HTTP_503]
        (.error (.handledTunneling message))
  | granted {target : Target} (h : parseRequest req = .ok target) (id : Nat) (hid : id ≠ 0) :
      Authorized req [checkAccess target (some id), checkConnected id (.ok true),
        ⟨.next (retarget req target), ()⟩] (.ok ())

theorem isDeviceConnectedToVpn_yields (id : Nat) :
    Yields (isDeviceConnectedToVpn id : Tunneling Address Socket Bool) fun calls result =>
      ∃ device, calls = [checkConnected id device] ∧ result = device.mapError .api := by
  refine .perform_seq fun device => ?_
  cases device with
  | ok device => exact .pure ⟨.ok device, rfl, rfl⟩
  | error message => exact .throw ⟨.error message, rfl, rfl⟩

-- Each error is answered once: before it is thrown, or here.
theorem refuse_yields (error : Error) :
    Yields (refuse error : Tunneling Address Socket Unit) fun calls result => result = .ok () ∧
      ((∃ message, error = .handledTunneling message ∧ calls = []) ∨
        (∀ message, error ≠ .handledTunneling message) ∧
          ∃ response ∈ responses, calls = [endCall response]) := by
  cases error with
  | handledTunneling message => exact .pure ⟨rfl, Or.inl ⟨message, rfl, rfl⟩⟩
  | badRequest => exact .perform fun _ => ⟨rfl, Or.inr ⟨nofun, HTTP_400, by simp [responses], rfl⟩⟩
  | invalidHostname message =>
      exact .perform fun _ => ⟨rfl, Or.inr ⟨nofun, HTTP_403, by simp [responses], rfl⟩⟩
  | api message | remoteTunnelling message | other message =>
      exact .perform fun _ => ⟨rfl, Or.inr ⟨nofun, HTTP_500, by simp [responses], rfl⟩⟩

theorem authorize_yields (req : Request) :
    Yields (authorize req : Tunneling Address Socket Unit) (Authorized req) := by
  refine yields_parse_seq ?_ fun error herror => .unread herror
  rintro ⟨uuid, port, auth⟩ htarget
  refine .perform_seq fun deviceId => ?_
  have hrefused : Yields (do
      clientEnd HTTP_407
      throw (.handledTunneling ("device not accessible: ".toList ++ uuid)) :
      Tunneling Address Socket Unit) fun after result =>
        Authorized req (checkAccess ⟨uuid, port, auth⟩ deviceId :: after) result :=
    .perform_seq fun _ => .throw (.refused htarget deviceId _)
  cases deviceId with
  | none => exact hrefused
  | some id =>
      cases id with
      | zero => exact hrefused
      | succ id =>
          refine .seq (isDeviceConnectedToVpn_yields (id + 1)) ?_ ?_
          · rintro before connected ⟨device, rfl, hdevice⟩
            obtain rfl : device = .ok connected := by
              cases device with
              | error message => cases hdevice
              | ok device => rw [Except.ok.inj hdevice]
            cases connected with
            | true => exact .perform fun _ => .granted htarget (id + 1) (Nat.succ_ne_zero id)
            | false => exact .perform_seq fun _ => .throw (.unavailable htarget (id + 1) _)
          · rintro before error ⟨device, rfl, hdevice⟩
            cases device with
            | error message =>
                obtain rfl := Except.error.inj hdevice
                exact .unknown htarget (id + 1) message
            | ok device => cases hdevice

-- Before the request goes on, both checks passed, for exactly what it asks for.
def Checked (req : Request) (calls : Calls Address Socket) : Prop :=
  ∀ before after rewritten, calls = before ++ ⟨.next rewritten, ()⟩ :: after →
    ∃ target id, parseRequest req = .ok target ∧ id ≠ 0 ∧
      checkAccess target (some id) ∈ before ∧ checkConnected id (.ok true) ∈ before

-- The request goes on, or the client gets one error response.
inductive Decided : List Effect → Prop where
  | next (req : Request) : Decided [.next req]
  | refused {response : Text} (h : response ∈ responses) : Decided [.ended response]

theorem checked_of_effects {req : Request} {calls : Calls Address Socket}
    (h : ∀ rewritten, .next rewritten ∉ effects calls) : Checked req calls := by
  rintro before after rewritten rfl
  refine absurd ?_ (h rewritten)
  rw [effects_append]
  exact List.mem_append_right _ List.mem_cons_self

theorem tunnelToDevice_yields (req : Request) :
    Yields (tunnelToDevice req : Tunneling Address Socket Unit) fun calls result =>
      result = .ok () ∧ Checked req calls ∧ Decided (effects calls) := by
  have hrefused : ∀ (before after : Calls Address Socket) (response : Text),
      response ∈ responses → effects (before ++ after) = [.ended response] →
      Checked req (before ++ after) ∧ Decided (effects (before ++ after)) := by
    intro before after response hresponse heffects
    refine ⟨checked_of_effects fun rewritten hmem => ?_, ?_⟩
    · rw [heffects] at hmem
      cases List.mem_singleton.mp hmem
    · rw [heffects]
      exact .refused hresponse
  refine .catch (authorize_yields req) ?_ ?_
  · rintro calls value h
    cases h with
    | @granted target htarget id hid =>
        refine ⟨rfl, ?_, .next _⟩
        intro before after rewritten heq
        obtain ⟨first, second, rest, rfl⟩ : ∃ first second rest, before = first :: second :: rest := by
          match before with
          | [] => cases (List.cons.inj heq).1
          | [first] => cases (List.cons.inj (List.cons.inj heq).2).1
          | first :: second :: rest => exact ⟨first, second, rest, rfl⟩
        obtain ⟨rfl, hrest⟩ := List.cons.inj heq
        obtain ⟨rfl, _⟩ := List.cons.inj hrest
        exact ⟨target, id, htarget, hid, List.mem_cons_self,
          List.mem_cons_of_mem _ List.mem_cons_self⟩
  · rintro before error h
    refine (refuse_yields error).imp ?_
    rintro after result ⟨rfl, hafter⟩
    refine ⟨rfl, ?_⟩
    cases h with
    | unread herror =>
        rcases hafter with ⟨message, heq, _⟩ | ⟨_, response, hresponse, rfl⟩
        · exact absurd heq (toError_ne_handled herror message)
        · exact hrefused [] _ response hresponse rfl
    | refused htarget deviceId message =>
        rcases hafter with ⟨_, _, rfl⟩ | ⟨hne, _⟩
        · exact hrefused _ [] HTTP_407 (by simp [responses]) rfl
        · exact absurd rfl (hne message)
    | unknown htarget id message =>
        rcases hafter with ⟨_, heq, _⟩ | ⟨_, response, hresponse, rfl⟩
        · cases heq
        · exact hrefused _ _ response hresponse rfl
    | unavailable htarget id message =>
        rcases hafter with ⟨_, _, rfl⟩ | ⟨hne, _⟩
        · exact hrefused _ [] HTTP_503 (by simp [responses]) rfl
        · exact absurd rfl (hne message)

end Verdict

section Relay

-- Of the relay nothing is seen but a response that comes before its error is thrown.
inductive Relayed : List Effect → Except Error Socket → Prop where
  | socket (socket : Socket) : Relayed [] (.ok socket)
  | responded (message : Text) : Relayed [.ended HTTP_500] (.error (.handledTunneling message))
  | failed {error : Error} (h : ∀ message, error ≠ .handledTunneling message) :
      Relayed [] (.error error)

theorem Relayed.of_ok {seen : List Effect} {socket : Socket}
    (h : Relayed seen (.ok socket)) : seen = [] := by
  cases h with
  | socket => rfl

theorem Relayed.of_error {seen : List Effect} {error : Error}
    (h : Relayed seen (.error error : Except Error Socket)) :
    (∃ message, error = .handledTunneling message ∧ seen = [.ended HTTP_500]) ∨
      (∀ message, error ≠ .handledTunneling message) ∧ seen = [] := by
  cases h with
  | responded message => exact Or.inl ⟨message, rfl, rfl⟩
  | failed hne => exact Or.inr ⟨hne, rfl⟩

variable (port : Number) (host uuid : Text) (auth : Option (List UInt8))

-- What is checked and forwarded is what was asked for, and what is dialled is what
-- node-tunnel passed on.
def Aims : Command Address → Prop
  | .canAccessDevice uuid' port' auth' => uuid' = uuid ∧ port' = port ∧ auth' = auth
  | .superConnect port' host' => port' = port ∧ host' = host
  | .forwardRequest _ uuid' port' auth' => uuid' = uuid ∧ port' = port ∧ auth' = auth
  | _ => True

structure Relays (calls : Calls Address Socket) (result : Except Error Socket) : Prop where
  relayed : Relayed (effects calls) result
  aims : ∀ call ∈ calls, Aims port host uuid auth call.command

variable {port host uuid auth}

theorem Relays.nil {result : Except Error Socket} (h : Relayed [] result) :
    Relays port host uuid auth ([] : Calls Address Socket) result := ⟨h, nofun⟩

-- A call that the client does not see.
theorem Relays.cons {call : Call (Command Address) (Reply Address Socket)}
    {calls : Calls Address Socket} {result : Except Error Socket} (hidden : effect call.command = none)
    (haims : Aims port host uuid auth call.command) (h : Relays port host uuid auth calls result) :
    Relays port host uuid auth (call :: calls) result := by
  refine ⟨?_, fun other ho => ?_⟩
  · have hsame : effects (call :: calls) = effects calls := List.filterMap_cons_none hidden
    rw [hsame]
    exact h.relayed
  · rcases List.mem_cons.mp ho with rfl | ho
    · exact haims
    · exact h.aims other ho

theorem endAndThrow_yields (message : Text) :
    Yields (endAndThrow message : Tunneling Address Socket Socket) fun calls result =>
      calls = [endCall HTTP_500] ∧ result = .error (.handledTunneling message) :=
  .perform_seq fun _ => .throw ⟨rfl, rfl⟩

theorem endAndThrow_relays (message : Text) :
    Yields (endAndThrow message : Tunneling Address Socket Socket)
      (Relays port host uuid auth) := by
  refine (endAndThrow_yields message).imp ?_
  rintro calls result ⟨rfl, rfl⟩
  refine ⟨.responded message, fun call hcall => ?_⟩
  rw [List.mem_singleton.mp hcall]
  trivial

theorem localConnect_relays :
    Yields (localConnect port host : Tunneling Address Socket Socket)
      (Relays port host uuid auth) := by
  refine .perform_seq fun reply => ?_
  cases reply with
  | ok socket => exact .pure (.cons rfl ⟨rfl, rfl⟩ (.nil (.socket socket)))
  | error message => exact .throw (.cons rfl ⟨rfl, rfl⟩ (.nil (.failed nofun)))

theorem forwardRequest_relays (vpnHost : Address) :
    Yields (forwardRequest vpnHost uuid port auth : Tunneling Address Socket Socket)
      (Relays port host uuid auth) := by
  refine .perform_seq fun reply => ?_
  cases reply with
  | ok socket => exact .pure (.cons rfl ⟨rfl, rfl, rfl⟩ (.nil (.socket socket)))
  | error failure =>
      cases failure with
      | remoteTunnelling message =>
          exact .throw (.cons rfl ⟨rfl, rfl, rfl⟩ (.nil (.failed nofun)))
      | other message => exact .throw (.cons rfl ⟨rfl, rfl, rfl⟩ (.nil (.failed nofun)))

theorem retry_relays :
    Yields (retry port host uuid : Tunneling Address Socket Socket)
      (Relays port host uuid auth) := by
  refine .perform_seq fun _ => .perform_seq fun found => ?_
  cases found with
  | true => exact localConnect_relays.imp fun _ _ h => .cons rfl trivial (.cons rfl trivial h)
  | false =>
      exact (endAndThrow_relays _).imp fun _ _ h => .cons rfl trivial (.cons rfl trivial h)

theorem getDeviceVpnHost_yields :
    Yields (getDeviceVpnHost uuid auth : Tunneling Address Socket (VpnHost Address))
      fun calls result => (∃ reply, calls = [⟨.serviceInstances uuid auth, reply⟩]) ∧
        ∀ error, result = .error error → ∃ message, error = .api message := by
  refine .perform_seq fun reply => ?_
  have hpure : ∀ host : VpnHost Address, Yields (pure host : Tunneling Address Socket _)
      fun after result => (∃ reply' : Reply Address Socket (.serviceInstances uuid auth),
        (⟨.serviceInstances uuid auth, reply⟩ :: after : Calls Address Socket) =
          [⟨.serviceInstances uuid auth, reply'⟩]) ∧
        ∀ error, result = .error error → ∃ message, error = .api message :=
    fun host => .pure ⟨⟨reply, rfl⟩, nofun⟩
  cases reply with
  | ok services =>
      cases services with
      | nil => exact hpure .undefined
      | cons service services => exact hpure (.service service.1 service.2)
  | error failure =>
      by_cases hstatus : failure.statusCode = some 401
      · simp only [hstatus, if_true]
        exact hpure .unauthorized
      · simp only [hstatus, if_false]
        exact .throw ⟨⟨_, rfl⟩, fun error heq => ⟨_, (Except.error.inj heq).symm⟩⟩

theorem relayTo_relays (serviceId : Nat) (req : Request) (id : Nat) (ip_address : Address) :
    Yields (relayTo serviceId port host req uuid auth id ip_address :
      Tunneling Address Socket Socket) (Relays port host uuid auth) := by
  unfold relayTo
  split
  · exact retry_relays
  · cases extendForwarded serviceId (req.headers.get "forwarded".toList) with
    | none => exact endAndThrow_relays _
    | some forwarded =>
        exact .perform_seq fun _ =>
          (forwardRequest_relays ip_address).imp fun _ _ h => .cons rfl trivial h

theorem relay_relays (serviceId : Nat) (req : Request) :
    Yields (relay serviceId port host req uuid auth : Tunneling Address Socket Socket)
      (Relays port host uuid auth) := by
  refine .perform_seq fun found => ?_
  cases found with
  | true => exact localConnect_relays.imp fun _ _ h => .cons rfl trivial h
  | false =>
      refine .seq getDeviceVpnHost_yields ?_ ?_
      · rintro before vpnHost ⟨⟨reply, rfl⟩, _⟩
        have hseen : ∀ {program : Tunneling Address Socket Socket},
            Yields program (Relays port host uuid auth) → Yields program fun after result =>
              Relays port host uuid auth (⟨.lookup (uuid ++ ".vpn".toList), false⟩ ::
                ([⟨.serviceInstances uuid auth, reply⟩] ++ after)) result :=
          fun h => h.imp fun _ _ hr => .cons rfl trivial (.cons rfl trivial hr)
        cases vpnHost with
        | undefined => exact hseen (endAndThrow_relays _)
        | unauthorized => exact hseen retry_relays
        | service id ip_address => exact hseen (relayTo_relays serviceId req id ip_address)
      · rintro before error ⟨⟨reply, rfl⟩, herror⟩
        obtain ⟨message, rfl⟩ := herror error rfl
        exact .cons rfl trivial (.cons rfl trivial (.nil (.failed nofun)))

-- Each error that the client does not know of yet is answered here.
theorem giveUp_yields (error : Error) :
    Yields (giveUp error : Tunneling Address Socket Socket) fun calls result =>
      ∃ message, result = .error (.handledTunneling message) ∧
        ((error = .handledTunneling message ∧ calls = []) ∨
          (∀ message, error ≠ .handledTunneling message) ∧ calls = [endCall HTTP_500]) := by
  cases error with
  | handledTunneling message => exact .throw ⟨message, rfl, Or.inl ⟨rfl, rfl⟩⟩
  | _ => exact (endAndThrow_yields _).imp fun _ _ h => ⟨_, h.2, Or.inr ⟨nofun, h.1⟩⟩

-- The client has the socket, or one response before the error.
inductive Connected : List Effect → Except Error Socket → Prop where
  | socket (socket : Socket) : Connected [] (.ok socket)
  | responded (message : Text) :
      Connected [.ended HTTP_500] (.error (.handledTunneling message))

theorem connect_yields (serviceId : Nat) {req : Request} {target : Target}
    (h : parseRequest req = .ok target) :
    Yields (connect serviceId port host req : Tunneling Address Socket Socket)
      fun calls result => Connected (effects calls) result ∧
        ∀ call ∈ calls, Aims port host target.uuid target.auth call.command := by
  refine yields_parse_seq ?_ fun error herror => ?_
  · rintro ⟨uuid, _, auth⟩ htarget
    obtain rfl := Except.ok.inj (h.symm.trans htarget)
    refine .catch (relay_relays serviceId req) ?_ ?_
    · rintro calls socket ⟨hrelayed, haims⟩
      refine ⟨?_, haims⟩
      rw [hrelayed.of_ok]
      exact .socket socket
    · rintro before error ⟨hrelayed, haims⟩
      refine (giveUp_yields error).imp ?_
      rintro after result ⟨message, rfl, hafter⟩
      rcases hrelayed.of_error with ⟨first, rfl, hresponded⟩ | ⟨hfailed, hnothing⟩
      · rcases hafter with ⟨heq, rfl⟩ | ⟨hne, _⟩
        · refine ⟨?_, by rwa [List.append_nil]⟩
          rw [List.append_nil, hresponded]
          exact .responded message
        · exact absurd rfl (hne first)
      · rcases hafter with ⟨rfl, _⟩ | ⟨_, rfl⟩
        · exact absurd rfl (hfailed message)
        · refine ⟨?_, fun call hcall => ?_⟩
          · rw [effects_append, hnothing]
            exact .responded message
          · rcases List.mem_append.mp hcall with hcall | hcall
            · exact haims call hcall
            · rw [List.mem_singleton.mp hcall]
              trivial
  · rw [h] at herror
    cases herror

end Relay

section Theorems

-- Each request has one verdict: the middleware lets it go on after both checks or refuses
-- it with one response, and the connection succeeds in silence or fails with one response.
theorem one_verdict (serviceId : Nat) (port : Number) (host : Text) (req : Request) :
    Yields (tunnelToDevice req : Tunneling Address Socket Unit)
        (fun calls _ => Checked req calls ∧ Decided (effects calls)) ∧
      ∀ target, parseRequest req = .ok target →
        Yields (connect serviceId port host req : Tunneling Address Socket Socket)
          (fun calls result => Connected (effects calls) result) :=
  ⟨(tunnelToDevice_yields req).imp fun _ _ h => h.2,
    fun _ htarget => (connect_yields serviceId htarget).imp fun _ _ h => h.1⟩

-- The device is on the instance that is asked for it: the request goes on, and its connection
-- is the socket.
theorem one_verdict_local :
    (∃ calls rewritten, Runs (tunnelToDevice exampleRequest : Tunneling String Unit Unit).run
        calls (.ok ()) ∧ effects calls = [.next rewritten] ∧ Checked exampleRequest calls ∧
        Decided (effects calls)) ∧
      ∃ calls, Runs (connect 2 (.finite 8080) "c0ffee.vpn".toList exampleRequest :
        Tunneling String Unit Unit).run calls (.ok ()) ∧ Connected (effects calls) (.ok ()) := by
  have hparse : parseRequest exampleRequest = .ok ⟨"c0ffee".toList, .finite 8080, none⟩ := by
    decide +kernel
  obtain ⟨hmiddleware, hconnect⟩ := @one_verdict String Unit 2 (.finite 8080)
    "c0ffee.vpn".toList exampleRequest
  obtain ⟨calls, hcalls, hrun⟩ := runs_exec (answer (exampleHop true 2 "b").toLookups)
    (tunnelToDevice exampleRequest : Tunneling String Unit Unit).run false
  obtain ⟨later, _, hlater⟩ := runs_exec (answer (exampleHop true 2 "b").toLookups)
    (connect 2 (.finite 8080) "c0ffee.vpn".toList exampleRequest :
      Tunneling String Unit Unit).run false
  have hverdict : Proxy.tunnelToDevice (exampleHop true 2 "b").toLookups exampleRequest =
      .next (retarget exampleRequest ⟨"c0ffee".toList, .finite 8080, none⟩) := by
    rw [Proxy.tunnelToDevice, hparse]
    rfl
  have hnext := tunnelToDevice_effects (exampleHop true 2 "b").toLookups exampleRequest
  rw [← hcalls, List.filterMap_map, hverdict] at hnext
  have hconnected : Proxy.connect 2 (exampleHop true 2 "b").toLookups exampleRequest =
      .connected := by
    rw [Proxy.connect, hparse]
    rfl
  obtain ⟨hsocket, _⟩ := connect_result 2 (exampleHop true 2 "b").toLookups hparse
    "c0ffee.vpn".toList
  rw [hsocket, hconnected] at hlater
  have hdone := (tunnelToDevice_yields exampleRequest _ _ hrun).1
  rw [hdone] at hrun
  exact ⟨⟨calls, _, hrun, hnext, hmiddleware calls _ hrun⟩, later, hlater,
    hconnect _ hparse later _ hlater⟩

end Theorems

end Tunnel

end OpenBalenaVpn.Proxy
