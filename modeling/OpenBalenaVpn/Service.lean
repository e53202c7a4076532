import OpenBalenaVpn.RefCount
import OpenBalenaVpn.Reporter

namespace OpenBalenaVpn

-- The API server of the primary process and the reporter it feeds.
structure Service (Uuid : Type) where
  history : RefCount.History Uuid
  reporter : Reporter.State Uuid

namespace Service

open RefCount Reporter

variable {Uuid : Type}

def initial : Service Uuid := ⟨.initial, .initial⟩

inductive Event (Uuid : Type) where
  | notify (notification : Notification Uuid)
  | settle (id : Nat) (response : Option Nat)
  | wake (index : Nat)
  deriving DecidableEq

def notifications (events : List (Event Uuid)) : List (Notification Uuid) :=
  events.filterMap fun
    | .notify notification => some notification
    | .settle _ _ => none
    | .wake _ => none

variable [DecidableEq Uuid]

-- A handler calls `setConnected` in its own turn of the event loop.
def notify (batchSize : Int) (serviceId : Nat) (service : Service Uuid)
    (notification : Notification Uuid) : Option (Service Uuid) :=
  let history := service.history.receive serviceId notification
  match (handle serviceId service.history.api notification).call with
  | none => some { service with history }
  | some call =>
      (service.reporter.setConnected batchSize call.uuid call.serviceId call.workerId
        call.connected).map fun reporter => ⟨history, reporter⟩

def step (batchSize : Int) (serviceId : Nat) (service : Service Uuid) :
    Event Uuid → Option (Service Uuid)
  | .notify notification => service.notify batchSize serviceId notification
  | .settle id response =>
      (service.reporter.settle id response).map fun reporter => { service with reporter }
  | .wake index =>
      (service.reporter.wake batchSize index).map fun reporter => { service with reporter }

end Service

end OpenBalenaVpn
