import OpenBalenaVpn.Cluster
import OpenBalenaVpn.HAProxy

namespace OpenBalenaVpn.Routing

open HAProxy

variable {Uuid Table : Type}

-- `servers` is the end of the range in the configuration of HAProxy.
structure Config (Table : Type) where
  cluster : Cluster.Config
  VPN_BASE_PORT : Nat
  servers : Nat
  haproxy : Runtime Table

-- The promise that the startup of a worker awaits, or none once it is over.
inductive Stage where
  | start
  | connect
  | enableBytecountReporting
  | releaseHold
  | register
  | ready
  deriving DecidableEq

def Stage.next : Stage → Stage
  | start => connect
  | connect => enableBytecountReporting
  | enableBytecountReporting => releaseHold
  | releaseHold => register
  | register => ready
  | ready => ready

structure Startup where
  workerId : Nat
  stage : Stage
  deriving DecidableEq

-- The primary and its workers, with the startups of the processes by their pid, what the
-- workers have written to the sockets of HAProxy, and its table.
structure State (Uuid Table : Type) where
  cluster : Cluster.State Uuid
  startups : OrderedMap Nat Startup
  written : List Text
  table : Table

def initial (config : Config Table) : State Uuid Table :=
  ⟨.initial config.cluster, .empty, [], config.haproxy.start config.servers⟩

-- The servers that HAProxy routes to.
def State.servers (config : Config Table) (state : State Uuid Table) : Servers :=
  config.haproxy.servers state.table

def State.stage (state : State Uuid Table) (pid : Nat) : Stage :=
  ((state.startups.get pid).map (·.stage)).getD .start

def registerLine (config : Config Table) (workerId : Nat) : Text :=
  register (workerName workerId) (config.VPN_BASE_PORT + workerId) localhost

-- What a worker writes on an event: the connection of a drain succeeds.
def drainLine : Cluster.Event Uuid → List Text
  | .worker workerId (.haproxy _ true) => [drain (workerName workerId)]
  | _ => []

inductive Event (Uuid : Type) where
  | startup (workerId : Nat) (fulfilled : Bool)
  | cluster (event : Cluster.Event Uuid)
  | perform (index : Nat)

-- The promise settles that the startup awaits. A rejected one is fatal.
def State.settle (config : Config Table) (state : State Uuid Table) (workerId : Nat)
    (fulfilled : Bool) : Option (State Uuid Table) := do
  let process ← state.cluster.processes.get workerId
  let stage := state.stage process.pid
  let startups := state.startups.set process.pid ⟨workerId, stage.next⟩
  if stage = .ready then none
  else if fulfilled = false then
    (Cluster.step config.cluster state.cluster (.worker workerId .fatalError)).map
      fun cluster => { state with cluster }
  else if stage = .register then
    (Cluster.step config.cluster state.cluster (.worker workerId .ready)).map fun cluster =>
      { state with cluster, startups, written := state.written ++ [registerLine config workerId] }
  else if process.alive ∧ state.cluster.exitCode = none then some { state with startups }
  else none

-- A worker is ready by its startup alone.
def State.turn (config : Config Table) (state : State Uuid Table) :
    Cluster.Event Uuid → Option (State Uuid Table)
  | .worker _ .ready => none
  | event => (Cluster.step config.cluster state.cluster event).map fun cluster =>
      { state with cluster, written := state.written ++ drainLine event }

-- HAProxy takes what was written from its sockets in any order, a line at a time.
def step (config : Config Table) (state : State Uuid Table) :
    Event Uuid → Option (State Uuid Table)
  | .startup workerId fulfilled => state.settle config workerId fulfilled
  | .cluster event => state.turn config event
  | .perform index => (state.written[index]?).map fun line =>
      { state with
        written := state.written.eraseIdx index
        table := config.haproxy.execute state.table line }

end OpenBalenaVpn.Routing
