import OpenBalenaVpn.Foundation.OrderedMap
import Mathlib.Data.Rat.Defs

namespace OpenBalenaVpn.RefCount

variable {Uuid : Type}

-- A request on `/api/v2/:worker/clients/`, with the two fields of its JSON body
-- that the handlers read.
structure ClientRequest (Uuid : Type) where
  ip : String
  worker : Nat
  common_name : Option Uuid
  time_duration : Option ℚ

structure SetConnectedCall (Uuid : Type) where
  uuid : Uuid
  serviceId : Nat
  workerId : Nat
  connected : Bool
  deriving DecidableEq

-- The state that `apiFactory` closes over, with the metrics its handlers write.
structure Api (Uuid : Type) where
  clientRefCount : OrderedMap Uuid Int
  onlineDevices : Int
  totalDevices : Nat
  sessionDurations : List ℚ

structure Handled (Uuid : Type) where
  api : Api Uuid
  statusCode : Nat
  call : Option (SetConnectedCall Uuid)

def Api.initial : Api Uuid := ⟨.empty, 0, 0, []⟩

-- '::ffff:127.0.0.1' is the ipv4 mapped ipv6 address and ::1 is the ipv6 loopback
def fromLocalHost (ip : String) : Bool :=
  ["127.0.0.1", "::ffff:127.0.0.1", "::1"].contains ip

variable [DecidableEq Uuid]

def Api.refCount (api : Api Uuid) (uuid : Uuid) : Int := (api.clientRefCount.get uuid).getD 0

-- The connect handler once it has a common name.
def connect (serviceId : Nat) (api : Api Uuid) (workerId : Nat) (uuid : Uuid) : Handled Uuid :=
  let startingRefCount := api.refCount uuid
  { api := { api with
      clientRefCount := api.clientRefCount.set uuid (startingRefCount + 1)
      onlineDevices :=
        if startingRefCount = 0 then api.onlineDevices + 1 else api.onlineDevices
      totalDevices := api.totalDevices + 1 }
    statusCode := 200
    -- below zero the disconnect came first, so this connect only cancels it
    call := if 0 ≤ startingRefCount then some ⟨uuid, serviceId, workerId, true⟩ else none }

-- The disconnect handler once it has a common name.
def disconnect (serviceId : Nat) (api : Api Uuid) (workerId : Nat) (uuid : Uuid)
    (time_duration : Option ℚ) : Handled Uuid :=
  let startingRefCount := api.refCount uuid
  let counted := { api with
    sessionDurations := api.sessionDurations ++ time_duration.toList
    clientRefCount := api.clientRefCount.set uuid (startingRefCount - 1) }
  if startingRefCount ≠ 1 then ⟨counted, 400, none⟩
  else
    { api := { counted with onlineDevices := counted.onlineDevices - 1 }
      statusCode := 200
      call := some ⟨uuid, serviceId, workerId, false⟩ }

def postClients (serviceId : Nat) (api : Api Uuid) (request : ClientRequest Uuid) :
    Handled Uuid :=
  if !fromLocalHost request.ip then ⟨api, 401, none⟩
  else match request.common_name with
    | none => ⟨api, 400, none⟩
    | some uuid => connect serviceId api request.worker uuid

def deleteClients (serviceId : Nat) (api : Api Uuid) (request : ClientRequest Uuid) :
    Handled Uuid :=
  if !fromLocalHost request.ip then ⟨api, 401, none⟩
  else match request.common_name with
    | none => ⟨api, 400, none⟩
    | some uuid => disconnect serviceId api request.worker uuid request.time_duration

-- A notification that the handlers act on.
inductive Notification (Uuid : Type) where
  | connect (uuid : Uuid) (workerId : Nat)
  | disconnect (uuid : Uuid) (workerId : Nat) (time_duration : Option ℚ)
  deriving DecidableEq

def Notification.uuid : Notification Uuid → Uuid
  | .connect uuid _ => uuid
  | .disconnect uuid _ _ => uuid

def handle (serviceId : Nat) (api : Api Uuid) : Notification Uuid → Handled Uuid
  | .connect uuid workerId => RefCount.connect serviceId api workerId uuid
  | .disconnect uuid workerId time_duration =>
      RefCount.disconnect serviceId api workerId uuid time_duration

-- The handlers together with the calls of `setConnected` they made, oldest first.
structure History (Uuid : Type) where
  api : Api Uuid
  calls : List (SetConnectedCall Uuid)

def History.initial : History Uuid := ⟨.initial, []⟩

def History.receive (serviceId : Nat) (history : History Uuid)
    (notification : Notification Uuid) : History Uuid :=
  let handled := handle serviceId history.api notification
  ⟨handled.api, history.calls ++ handled.call.toList⟩

def History.receiveAll (serviceId : Nat) (notifications : List (Notification Uuid)) :
    History Uuid :=
  notifications.foldl (History.receive serviceId) .initial

def History.callsFor (history : History Uuid) (uuid : Uuid) : List (SetConnectedCall Uuid) :=
  history.calls.filter fun call => call.uuid = uuid

def History.firstCall (history : History Uuid) (uuid : Uuid) : Option (SetConnectedCall Uuid) :=
  (history.callsFor uuid).head?

def History.lastCall (history : History Uuid) (uuid : Uuid) : Option (SetConnectedCall Uuid) :=
  (history.callsFor uuid).getLast?

-- The connected flag last passed to `setConnected`. No call counts as disconnected.
def History.target (history : History Uuid) (uuid : Uuid) : Bool :=
  (history.lastCall uuid).any (·.connected)

end OpenBalenaVpn.RefCount
