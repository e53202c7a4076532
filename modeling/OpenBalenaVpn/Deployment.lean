import OpenBalenaVpn.Service
import OpenBalenaVpn.Sessions

namespace OpenBalenaVpn

-- The instance as a whole: the sessions on its workers with their notifications, the
-- handlers of the primary, and the reporter that those handlers feed.
structure Deployment (Uuid : Type) where
  sessions : Sessions.State Uuid
  reporter : Reporter.State Uuid

namespace Deployment

open RefCount

variable {Uuid : Type}

def initial (config : Cluster.Config) : Deployment Uuid := ⟨.initial config, .initial⟩

inductive Event (Uuid : Type) where
  | session (event : Sessions.Event Uuid)
  | settle (id : Nat) (response : Option Nat)
  | wake (index : Nat)

-- The API server and the reporter, which share the primary process.
def service (deployment : Deployment Uuid) : Service Uuid :=
  ⟨deployment.sessions.history, deployment.reporter⟩

variable [DecidableEq Uuid]

-- A notification that arrives is handled in one turn of the primary: the handler counts it
-- and calls `setConnected` before anything else runs.
def step (config : Cluster.Config) (serviceId : Nat) (batchSize : Int)
    (deployment : Deployment Uuid) : Event Uuid → Option (Deployment Uuid)
  | .session event => do
      let sessions ← Sessions.step config serviceId deployment.sessions event
      match event with
      | .deliver notification => do
          let service ← deployment.service.notify batchSize serviceId notification
          some ⟨sessions, service.reporter⟩
      | _ => some { deployment with sessions }
  | .settle id response =>
      (deployment.reporter.settle id response).map fun reporter => { deployment with reporter }
  | .wake index =>
      (deployment.reporter.wake batchSize index).map fun reporter => { deployment with reporter }

end Deployment

end OpenBalenaVpn
