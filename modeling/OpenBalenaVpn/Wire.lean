import OpenBalenaVpn.ClientScript
import OpenBalenaVpn.Deployment

namespace OpenBalenaVpn

-- The instance with the requests themselves: openvpn runs the script with the variables of
-- a session, and the API server parses the body of what arrives.
structure Wire where
  cluster : Cluster.State JsString
  service : Service JsString
  live : List (Sessions.Session Text)
  lost : List (Sessions.Session Text)
  curls : List ClientScript.Curl

namespace Wire

open ClientScript

deriving instance DecidableEq for Curl

def initial (config : Cluster.Config) : Wire := ⟨.initial config, .initial, [], [], []⟩

-- A request that comes from the local host is one of the script.
inductive Event where
  | session (workerId : Nat) (event : ClientScript.Event)
  | crash (workerId : Nat)
  | request (ip : String) (curl : Curl)
  | settle (id : Nat) (response : Option Nat)
  | wake (index : Nat)

-- The requests that are refused before a handler counts change nothing. Left out is what the
-- handlers do for the local host under a name that is not a string.
def request (batchSize : Int) (serviceId : Nat) (service : Service JsString) (ip : String)
    (curl : Curl) : Option (Service JsString) :=
  match receive serviceId service.history.api ip curl with
  | none =>
      if RefCount.fromLocalHost ip ∧ (parseBody curl.body).isSome then none else some service
  | some handled =>
      let history := ⟨handled.api, service.history.calls ++ handled.call.toList⟩
      match handled.call with
      | none => some { service with history }
      | some call =>
          (service.reporter.setConnected batchSize call.uuid call.serviceId call.workerId
            call.connected).map fun reporter => ⟨history, reporter⟩

-- The openvpn process of a worker dies and a new worker is forked.
def crash (config : Cluster.Config) (wire : Wire) (workerId : Nat) :
    Option (Cluster.State JsString) :=
  (Cluster.step config wire.cluster (.worker workerId .fatalError)).bind fun cluster =>
    Cluster.step config cluster (.exit workerId)

def step (config : Cluster.Config) (serviceId : Nat) (batchSize : Int) (wire : Wire) :
    Event → Option Wire
  | .session workerId event =>
      let session := ⟨workerId, event.common_name⟩
      let curls := wire.curls ++ [script workerId event.env]
      match event with
      | .connect _ =>
          if (wire.cluster.processes.get workerId).any (·.alive) then
            some { wire with live := wire.live ++ [session], curls }
          else none
      | .disconnect .. =>
          if session ∈ wire.live then some { wire with live := wire.live.erase session, curls }
          else none
  | .crash workerId => (wire.crash config workerId).map fun cluster =>
      { wire with
        cluster
        live := wire.live.filter fun session => !decide (session.workerId = workerId)
        lost := wire.lost ++ wire.live.filter fun session => session.workerId = workerId }
  | .request ip curl =>
      if RefCount.fromLocalHost ip then
        if curl ∈ wire.curls then
          (request batchSize serviceId wire.service ip curl).map fun service =>
            { wire with service, curls := wire.curls.erase curl }
        else none
      else
        (request batchSize serviceId wire.service ip curl).map fun service =>
          { wire with service }
  | .settle id response =>
      (wire.service.reporter.settle id response).map fun reporter =>
        { wire with service := { wire.service with reporter } }
  | .wake index =>
      (wire.service.reporter.wake batchSize index).map fun reporter =>
        { wire with service := { wire.service with reporter } }

end Wire

end OpenBalenaVpn
