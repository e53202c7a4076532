import OpenBalenaVpn.RefCount
import OpenBalenaVpn.Cluster

namespace OpenBalenaVpn.Sessions

open RefCount

variable {Uuid : Type}

structure Session (Uuid : Type) where
  workerId : Nat
  uuid : Uuid
  deriving DecidableEq

inductive SessionEvent where
  | start
  | stop
  | crash
  deriving DecidableEq

-- The openvpn sessions on all workers, the cluster that runs them and the handlers
-- of the primary, with the notifications on their way to them. `lost` are the
-- sessions that crashes have ended.
structure State (Uuid : Type) where
  cluster : Cluster.State Uuid
  history : History Uuid
  live : List (Session Uuid)
  inFlight : List (Notification Uuid)
  lost : List (Session Uuid)
  lastEvent : Uuid → Option SessionEvent

def State.initial (config : Cluster.Config) : State Uuid :=
  ⟨.initial config, .initial, [], [], [], fun _ => none⟩

inductive Event (Uuid : Type) where
  | start (session : Session Uuid)
  | stop (session : Session Uuid) (time_duration : Option ℚ)
  | crash (workerId : Nat)
  | deliver (notification : Notification Uuid)

-- The openvpn process of a worker dies: its 'process:exit' handler exits the
-- worker, and the primary forks a new one. Neither tells the API.
def State.crash (config : Cluster.Config) (state : State Uuid) (workerId : Nat) :
    Option (Cluster.State Uuid) :=
  (Cluster.step config state.cluster (.worker workerId .fatalError)).bind fun cluster =>
    Cluster.step config cluster (.exit workerId)

variable [DecidableEq Uuid]

def count (uuid : Uuid) (sessions : List (Session Uuid)) : Nat :=
  sessions.countP fun session => session.uuid = uuid

-- The script that openvpn runs at the start and at the end of a session sends
-- the notification in the background.
def step (config : Cluster.Config) (serviceId : Nat) (state : State Uuid) :
    Event Uuid → Option (State Uuid)
  | .start session =>
      if (state.cluster.processes.get session.workerId).any (·.alive) then
        some { state with
          live := state.live ++ [session]
          inFlight := state.inFlight ++ [.connect session.uuid session.workerId]
          lastEvent := Function.update state.lastEvent session.uuid (some .start) }
      else none
  | .stop session time_duration =>
      if session ∈ state.live then
        some { state with
          live := state.live.erase session
          inFlight :=
            state.inFlight ++ [.disconnect session.uuid session.workerId time_duration]
          lastEvent := Function.update state.lastEvent session.uuid (some .stop) }
      else none
  | .crash workerId => (state.crash config workerId).map fun cluster =>
      let crashed := state.live.filter fun session => session.workerId = workerId
      { state with
        cluster
        live := state.live.filter fun session => !decide (session.workerId = workerId)
        lost := state.lost ++ crashed
        lastEvent := fun uuid =>
          if 0 < count uuid crashed then some .crash else state.lastEvent uuid }
  | .deliver notification =>
      if notification ∈ state.inFlight then
        some { state with
          history := state.history.receive serviceId notification
          inFlight := state.inFlight.erase notification }
      else none

-- The device is shown as online exactly when it has a session, unless its last
-- session event was a crash.
def Recovered (state : State Uuid) (uuid : Uuid) : Prop :=
  state.lastEvent uuid ≠ some .crash →
    (state.history.target uuid = true ↔ 0 < count uuid state.live)

end OpenBalenaVpn.Sessions
