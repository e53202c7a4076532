import OpenBalenaVpn.Proxy.Tunnel

namespace OpenBalenaVpn.Proxy

open Program

variable {Address : Type}

namespace Tunnel

section Lookups

-- The answers of an instance. The device is looked up anew after the timeout.
def answer (lookups : Lookups Address) :
    (command : Command Address) → Bool → Reply Address Unit command × Bool
  | .canAccessDevice _ _ _, waited => (lookups.canAccessDevice, waited)
  | .isDeviceConnectedToVpnQuery _, waited => (match lookups.isDeviceConnectedToVpn with
      | none => .error []
      | some device => .ok device, waited)
  | .lookup _, waited =>
      (if waited then lookups.deviceIsLocalRetry else lookups.deviceIsLocal, waited)
  | .serviceInstances _ _, waited => (match lookups.getDeviceVpnHost with
      | .found id ip_address => .ok [(id, ip_address)]
      | .missing => .ok []
      | .unauthorized => .error ⟨some 401, []⟩
      | .failed message => .error ⟨none, message⟩, waited)
  | .setTimeout, _ => ((), true)
  | .superConnect _ _, waited => (lookups.localConnect, waited)
  | .forwardRequest _ _ _ _, waited => (.ok (), waited)
  | .setForwarded _, waited | .clientEnd _, waited | .next _, waited => ((), waited)

def Verdict.effect : Verdict → Effect
  | .next req => .next req
  | .ended response => .ended response

def Connection.result : Connection Address → Except Error Unit
  | .connected | .forwarded _ _ _ => .ok ()
  | .rejected message => .error (.handledTunneling message)
  | .threw error => .error error.toError

def Connection.sent : Connection Address → List (Address × Text)
  | .forwarded _ ip_address head => [(ip_address, head)]
  | _ => []

def sent : Command Address → Option (Address × Text)
  | .forwardRequest vpnHost uuid port auth =>
      some (vpnHost, Proxy.forwardRequest uuid port auth)
  | _ => none

theorem toError_ne_handled {req : Request} {error : TunnelError}
    (h : parseRequest req = .error error) (message : Text) :
    error.toError ≠ .handledTunneling message := by
  unfold parseRequest at h
  split at h
  · cases h
    nofun
  · split at h
    · cases h
      nofun
    · cases h

-- With the answers of an instance the middleware gives its verdict.
theorem tunnelToDevice_effects (lookups : Lookups Address) (req : Request) :
    (Program.calls (answer lookups) (tunnelToDevice req).run false).filterMap effect =
      [Verdict.effect (Proxy.tunnelToDevice lookups req)] := by
  cases lookups with
  | mk canAccessDevice isDeviceConnectedToVpn _ _ _ _ =>
  unfold tunnelToDevice authorize parse Proxy.tunnelToDevice
  cases hparse : parseRequest req with
  | error error =>
      cases error with
      | badRequest => rfl
      | invalidHostname message => rfl
      | handledTunneling message => exact absurd rfl (toError_ne_handled hparse message)
  | ok target =>
      cases canAccessDevice with
      | none => rfl
      | some id =>
          cases id with
          | zero => rfl
          | succ id =>
              cases isDeviceConnectedToVpn with
              | none => rfl
              | some connected => cases connected <;> rfl

theorem relayTo_result (serviceId : Nat) (lookups : Lookups Address) {req : Request}
    {uuid : Text} {port : Number} {auth : Option (List UInt8)}
    (h : parseRequest req = .ok ⟨uuid, port, auth⟩) (host : Text) {id : Nat}
    {ip_address : Address} (hlocal : lookups.deviceIsLocal = false)
    (hfound : lookups.getDeviceVpnHost = .found id ip_address) :
    let program := tryCatch (relayTo serviceId port host req uuid auth id ip_address) giveUp
    (Program.exec (answer lookups) program.run false).1 =
        Connection.result (Proxy.connect serviceId lookups req) ∧
      (Program.calls (answer lookups) program.run false).filterMap sent =
        Connection.sent (Proxy.connect serviceId lookups req) := by
  intro program
  unfold Proxy.connect
  rw [h]
  simp only [hlocal, hfound, Bool.false_eq_true, if_false]
  by_cases hid : id = serviceId
  · have hprogram : program = tryCatch (retry port host uuid) giveUp := by
      rw [show program = tryCatch (relayTo _ _ _ _ _ _ _ _) giveUp from rfl, relayTo, if_pos hid]
    rw [hprogram, if_pos hid]
    cases lookups with
    | mk _ _ _ deviceIsLocalRetry localConnect _ =>
    cases deviceIsLocalRetry with
    | true => cases localConnect <;> exact ⟨rfl, rfl⟩
    | false => exact ⟨rfl, rfl⟩
  · rw [if_neg hid]
    unfold program relayTo
    rw [if_neg hid]
    cases extendForwarded serviceId (req.headers.get "forwarded".toList) with
    | none => exact ⟨rfl, rfl⟩
    | some forwarded => exact ⟨rfl, rfl⟩

theorem connect_result (serviceId : Nat) (lookups : Lookups Address) {req : Request}
    {target : Target} (h : parseRequest req = .ok target) (host : Text) :
    (Program.exec (answer lookups) (connect serviceId target.port host req).run false).1 =
        Connection.result (Proxy.connect serviceId lookups req) ∧
      (Program.calls (answer lookups) (connect serviceId target.port host req).run
        false).filterMap sent = Connection.sent (Proxy.connect serviceId lookups req) := by
  obtain ⟨uuid, port, auth⟩ := target
  cases lookups with
  | mk canAccessDevice isDeviceConnectedToVpn deviceIsLocal deviceIsLocalRetry localConnect
      getDeviceVpnHost =>
  have hparse : (parse req : Tunneling Address Unit Target) = pure ⟨uuid, port, auth⟩ := by
    unfold parse
    rw [h]
  unfold connect
  rw [hparse]
  unfold Proxy.connect
  rw [h]
  cases deviceIsLocal with
  | true => cases localConnect <;> exact ⟨rfl, rfl⟩
  | false =>
      cases getDeviceVpnHost with
      | found id ip_address =>
          have hrelay := relayTo_result serviceId
            ⟨canAccessDevice, isDeviceConnectedToVpn, false, deviceIsLocalRetry, localConnect,
              .found id ip_address⟩ h host rfl rfl
          unfold Proxy.connect at hrelay
          rw [h] at hrelay
          exact hrelay
      | missing | failed => exact ⟨rfl, rfl⟩
      | unauthorized =>
          cases deviceIsLocalRetry with
          | true => cases localConnect <;> exact ⟨rfl, rfl⟩
          | false => exact ⟨rfl, rfl⟩

end Lookups

end Tunnel

end OpenBalenaVpn.Proxy
