import OpenBalenaVpn.Proxy.Lemmas

namespace OpenBalenaVpn.Proxy

variable {Address : Type}

-- What the world answers while a request is at one instance, and which instance
-- listens on an address when the request is forwarded there.
structure Hop (Address : Type) extends Lookups Address where
  owner : Address → Option Nat

-- The instances that let the request through, in order: each of them connects it
-- to the device or forwards it.
def chain (basicAuth : Text → Option Text) : List (Hop Address) → Nat → Request → List Nat
  | [], _, _ => []
  | hop :: hops, serviceId, req => match handle serviceId hop.toLookups req with
    | some .connected => [serviceId]
    | some (.forwarded _ ip_address head) =>
        serviceId :: match hop.owner ip_address, receive basicAuth head with
          | some next, some req => chain basicAuth hops next req
          | _, _ => []
    | _ => []

-- What the answers alone make of a request, whatever it carries.
inductive Passage (Address : Type) where
  | stops
  | arrives
  | onward (ip_address : Address)

def Lookups.admits (lookups : Lookups Address) : Bool :=
  (match lookups.canAccessDevice with
  | none | some 0 => false
  | some _ => true) && lookups.isDeviceConnectedToVpn = some true

def Lookups.arrival (lookups : Lookups Address) : Passage Address :=
  match lookups.localConnect with
  | .ok () => .arrives
  | .error _ => .stops

def Lookups.passage (serviceId : Nat) (lookups : Lookups Address) : Passage Address :=
  if !lookups.admits then .stops
  else if lookups.deviceIsLocal then lookups.arrival
  else match lookups.getDeviceVpnHost with
    | .failed _ | .missing => .stops
    | .unauthorized => if lookups.deviceIsLocalRetry then lookups.arrival else .stops
    | .found id ip_address =>
        if id = serviceId then if lookups.deviceIsLocalRetry then lookups.arrival else .stops
        else .onward ip_address

-- The instances that the addresses of the answers lead to.
def route : List (Hop Address) → Nat → List Nat
  | [], _ => []
  | hop :: hops, serviceId => match hop.passage serviceId with
    | .stops => []
    | .arrives => [serviceId]
    | .onward ip_address => serviceId :: match hop.owner ip_address with
      | some next => route hops next
      | none => []

-- The url names a device, and a port that prints as digits.
def Tunnels (req : Request) : Prop :=
  ∃ target, parseRequest req = .ok target ∧ target.port.Plain

section Handle

theorem tunnelToDevice_of_ok (lookups : Lookups Address) {req : Request} {target : Target}
    (h : parseRequest req = .ok target) :
    (lookups.admits = true ∧ tunnelToDevice lookups req = .next { req with
        url := some (target.uuid ++ ".vpn:".toList ++ target.port.text) }) ∨
      (lookups.admits = false ∧ ∃ response, tunnelToDevice lookups req = .ended response) := by
  simp only [tunnelToDevice, h, Lookups.admits]
  cases lookups.canAccessDevice with
  | none => exact Or.inr ⟨rfl, _, rfl⟩
  | some deviceId =>
      cases deviceId with
      | zero => exact Or.inr ⟨rfl, _, rfl⟩
      | succ deviceId =>
          cases lookups.isDeviceConnectedToVpn with
          | none => exact Or.inr ⟨rfl, _, rfl⟩
          | some connected =>
              cases connected with
              | false => exact Or.inr ⟨rfl, _, rfl⟩
              | true => exact Or.inl ⟨rfl, rfl⟩

theorem tunnelToDevice_of_error (lookups : Lookups Address) {req : Request} {error : TunnelError}
    (h : parseRequest req = .error error) :
    ∃ response, tunnelToDevice lookups req = .ended response := by
  simp only [tunnelToDevice, h]
  cases error <;> exact ⟨_, rfl⟩

theorem localConnect_cases (lookups : Lookups Address) :
    (lookups.arrival = .arrives ∧ localConnect lookups = .connected) ∨
      (lookups.arrival = .stops ∧ ∃ message, localConnect lookups = .rejected message) := by
  unfold Lookups.arrival localConnect
  cases lookups.localConnect with
  | ok => exact Or.inl ⟨rfl, rfl⟩
  | error message => exact Or.inr ⟨rfl, message, rfl⟩

theorem retryLocal_cases (lookups : Lookups Address) :
    let passage := if lookups.deviceIsLocalRetry then lookups.arrival else .stops
    (passage = .arrives ∧ retryLocal lookups = .connected) ∨
      (passage = .stops ∧ ∃ message, retryLocal lookups = .rejected message) := by
  unfold retryLocal
  cases lookups.deviceIsLocalRetry with
  | true => exact localConnect_cases lookups
  | false => exact Or.inr ⟨rfl, _, rfl⟩

-- Without a Forwarded header the loop check lets every request pass.
theorem connect_of_ok (serviceId : Nat) (lookups : Lookups Address) {req : Request}
    {target : Target} (h : parseRequest req = .ok target)
    (hfresh : req.headers.get "forwarded".toList = none) (hadmits : lookups.admits = true) :
    (lookups.passage serviceId = .arrives ∧ connect serviceId lookups req = .connected) ∨
    (lookups.passage serviceId = .stops ∧
      ∃ message, connect serviceId lookups req = .rejected message) ∨
    ∃ ip_address extended, lookups.passage serviceId = .onward ip_address ∧
      connect serviceId lookups req = .forwarded extended ip_address
        (forwardRequest target.uuid target.port target.auth) := by
  have hretry := retryLocal_cases lookups
  have hlocal := localConnect_cases lookups
  simp only [connect, h, hfresh, extendForwarded, Lookups.passage, hadmits, Bool.not_true,
    Bool.false_eq_true, if_false]
  cases lookups.deviceIsLocal with
  | true =>
      simp only [if_true]
      exact hlocal.imp_right Or.inl
  | false =>
      simp only [Bool.false_eq_true, if_false]
      cases lookups.getDeviceVpnHost with
      | failed message => exact Or.inr (Or.inl ⟨rfl, _, rfl⟩)
      | missing => exact Or.inr (Or.inl ⟨rfl, _, rfl⟩)
      | unauthorized => exact hretry.imp_right Or.inl
      | found id ip_address =>
          by_cases hid : id = serviceId
          · simp only [hid, if_true]
            exact hretry.imp_right Or.inl
          · simp only [hid, if_false]
            exact Or.inr (Or.inr ⟨ip_address, _, rfl, rfl⟩)

-- A request of the chain, wherever it is: no instance ever sees a Forwarded header.
theorem handle_of_tunnels (serviceId : Nat) (lookups : Lookups Address) {req : Request}
    {target : Target} (h : parseRequest req = .ok target) (hplain : target.port.Plain)
    (hfresh : req.headers.get "forwarded".toList = none) :
    (lookups.passage serviceId = .arrives ∧ handle serviceId lookups req = some .connected) ∨
    (lookups.passage serviceId = .stops ∧ (handle serviceId lookups req = none ∨
      ∃ message, handle serviceId lookups req = some (.rejected message))) ∨
    ∃ ip_address extended, lookups.passage serviceId = .onward ip_address ∧
      handle serviceId lookups req = some (.forwarded extended ip_address
        (forwardRequest target.uuid target.port target.auth)) := by
  obtain ⟨huuid, ⟨digits, hdigits⟩, hauth⟩ := parseRequest_ok h
  rcases tunnelToDevice_of_ok lookups h with ⟨hadmits, hnext⟩ | ⟨hrefused, response, hended⟩
  · have hparse := (parseRequest_written { req with
      url := some (target.uuid ++ ".vpn:".toList ++ target.port.text) } rfl hdigits
      (matchHostname_vpn huuid target.port.text)).1 hplain
    simp only [handle, hnext]
    rw [hauth]
    rcases connect_of_ok serviceId lookups hparse hfresh hadmits with
      ⟨hp, hc⟩ | ⟨hp, message, hc⟩ | ⟨ip_address, extended, hp, hc⟩
    · exact Or.inl ⟨hp, congrArg some hc⟩
    · exact Or.inr (Or.inl ⟨hp, Or.inr ⟨message, congrArg some hc⟩⟩)
    · exact Or.inr (Or.inr ⟨ip_address, extended, hp, congrArg some hc⟩)
  · refine Or.inr (Or.inl ⟨?_, Or.inl ?_⟩)
    · simp [Lookups.passage, hrefused]
    · simp [handle, hended]

end Handle

-- The chain is the route of the answers: nothing that a request carries stops it.
theorem chain_eq_route (basicAuth : Text → Option Text) (hops : List (Hop Address))
    (serviceId : Nat) (req : Request) (htunnels : Tunnels req)
    (hfresh : req.headers.get "forwarded".toList = none) :
    chain basicAuth hops serviceId req = route hops serviceId := by
  induction hops generalizing serviceId req with
  | nil => rfl
  | cons hop hops ih =>
      obtain ⟨target, hok, hplain⟩ := htunnels
      rcases handle_of_tunnels serviceId hop.toLookups hok hplain hfresh with
        ⟨hp, hh⟩ | ⟨hp, hh⟩ | ⟨ip_address, extended, hp, hh⟩
      · simp only [chain, route, hp, hh]
      · rcases hh with hh | ⟨message, hh⟩ <;> simp only [chain, route, hp, hh]
      · simp only [chain, route, hp, hh]
        congr 1
        obtain ⟨huuid, ⟨digits, hdigits⟩, hauth⟩ := parseRequest_ok hok
        obtain ⟨next, hreceive, hurl, hnone, _⟩ :=
          receive_forwardRequest basicAuth huuid target.port target.auth
        have hparse := (parseRequest_written _ hurl hdigits
          (matchHostname_balena huuid target.port.text)).1 hplain
        rw [hreceive]
        cases hop.owner ip_address with
        | none => rfl
        | some owner => exact ih owner next ⟨_, hparse, hplain⟩ hnone

theorem handle_of_not_tunnels (serviceId : Nat) (lookups : Lookups Address) {req : Request}
    (h : ¬Tunnels req) : handle serviceId lookups req = none ∨
      ∃ error, handle serviceId lookups req = some (.threw error) := by
  cases hparse : parseRequest req with
  | error error =>
      obtain ⟨response, hended⟩ := tunnelToDevice_of_error lookups hparse
      exact Or.inl (by simp only [handle, hended])
  | ok target =>
      have hplain : ¬target.port.Plain := fun hp => h ⟨target, hparse, hp⟩
      obtain ⟨huuid, ⟨digits, hdigits⟩, hauth⟩ := parseRequest_ok hparse
      rcases tunnelToDevice_of_ok lookups hparse with ⟨_, hnext⟩ | ⟨_, response, hended⟩
      · -- the url that `tunnelToDevice` writes is not one that `connect` reads
        obtain ⟨message, hreparse⟩ := (parseRequest_written { req with
          url := some (target.uuid ++ ".vpn:".toList ++ target.port.text) } rfl hdigits
          (matchHostname_vpn huuid target.port.text)).2 hplain
        exact Or.inr ⟨.invalidHostname message, by simp only [handle, hnext, connect, hreparse]⟩
      · exact Or.inl (by simp only [handle, hended])

theorem chain_of_not_tunnels (basicAuth : Text → Option Text) (hops : List (Hop Address))
    (serviceId : Nat) {req : Request} (h : ¬Tunnels req) :
    chain basicAuth hops serviceId req = [] := by
  cases hops with
  | nil => rfl
  | cons hop hops =>
      rcases handle_of_not_tunnels serviceId hop.toLookups h with hh | ⟨error, hh⟩ <;>
        simp only [chain, hh]

-- A request that starts without a Forwarded header never comes twice through an
-- instance exactly when the answered addresses alone never lead back to one.
theorem chain_nodup_iff (basicAuth : Text → Option Text) (hops : List (Hop Address))
    (serviceId : Nat) (req : Request) (hfresh : req.headers.get "forwarded".toList = none) :
    (chain basicAuth hops serviceId req).Nodup ↔ (Tunnels req → (route hops serviceId).Nodup) := by
  by_cases h : Tunnels req
  · rw [chain_eq_route basicAuth hops serviceId req h hfresh]
    exact ⟨fun hn _ => hn, fun hn => hn h⟩
  · rw [chain_of_not_tunnels basicAuth hops serviceId h]
    exact ⟨fun _ ht => absurd ht h, fun _ => List.nodup_nil⟩

-- Instance 1 has the address "a" and instance 2 the address "b".
def exampleHop (deviceIsLocal : Bool) (id : Nat) (ip_address : String) : Hop String where
  canAccessDevice := some 3
  isDeviceConnectedToVpn := some true
  deviceIsLocal
  deviceIsLocalRetry := false
  localConnect := .ok ()
  getDeviceVpnHost := .found id ip_address
  owner address := if address = "a" then some 1 else if address = "b" then some 2 else none

def exampleRequest : Request := ⟨some "c0ffee.balena:8080".toList, .empty, none⟩

-- The device is on instance 2, as instance 1 is told.
theorem chain_nodup_direct :
    (chain some [exampleHop false 2 "b", exampleHop true 2 "b"] 1 exampleRequest).Nodup :=
  (chain_nodup_iff some _ 1 exampleRequest rfl).mpr fun _ => by decide

-- Instance 2 gets a stale answer, with the id of instance 3 and an address that now
-- belongs to instance 1. The request goes round.
theorem chain_revisits :
    ¬(chain some [exampleHop false 2 "b", exampleHop false 3 "a", exampleHop false 2 "b"] 1
      exampleRequest).Nodup := by
  decide +kernel

end OpenBalenaVpn.Proxy
