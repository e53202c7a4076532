import OpenBalenaVpn.Worker

namespace OpenBalenaVpn.Cluster

variable {Uuid : Type}

structure Config where
  VPN_INSTANCE_COUNT : Nat
  DEFAULT_VERBOSE_LOGS : Bool
  DEFAULT_SIGTERM_TIMEOUT : Int
  MAXIMUM_DRAIN_DELAY : Int

-- What the primary sends to its workers.
inductive Order where
  | prepareShutdown
  | toggleVerbosity
  deriving DecidableEq

-- A worker process with the messages on their way to it. A process may also be
-- killed from outside.
structure Process (Uuid : Type) where
  pid : Nat
  inbox : List Order
  worker : Worker.State Uuid
  killed : Bool

def Process.alive (process : Process Uuid) : Bool :=
  !process.killed && process.worker.exitCode.isNone

-- A message on its way to the primary, with the process that sent it.
structure Sent (Uuid : Type) where
  pid : Nat
  message : Worker.Message Uuid
  deriving DecidableEq

-- An entry of `workerStates`. The pid is not in the message: it records which
-- process the entry came from.
structure WorkerState where
  instanceId : Nat
  finished : Bool
  pid : Nat
  deriving DecidableEq

-- The primary and its worker processes. A process stays in the map until
-- `restartWorker` replaces it.
structure State (Uuid : Type) where
  verbose : Bool
  workerStates : OrderedMap Nat WorkerState
  exitCode : Option Nat
  processes : OrderedMap Nat (Process Uuid)
  sent : List (Sent Uuid)
  nextPid : Nat

-- `restartWorker` passes its own verbosity on as VPN_VERBOSE_LOGS, and a worker
-- reads DEFAULT_VERBOSE_LOGS.
def State.restartWorker (config : Config) (cluster : State Uuid) (workerId : Nat) : State Uuid :=
  { cluster with
    processes := cluster.processes.set workerId
      ⟨cluster.nextPid, [], .initial config.DEFAULT_VERBOSE_LOGS, false⟩
    nextPid := cluster.nextPid + 1 }

-- The loop that spawns the workers.
def State.initial (config : Config) : State Uuid :=
  (List.range config.VPN_INSTANCE_COUNT).foldl
    (fun cluster i => cluster.restartWorker config (i + 1))
    ⟨config.DEFAULT_VERBOSE_LOGS, .empty, none, .empty, [], 0⟩

def Config.worker (config : Config) (instanceId : Nat) : Worker.Config :=
  ⟨instanceId, config.DEFAULT_SIGTERM_TIMEOUT, config.MAXIMUM_DRAIN_DELAY⟩

def Order.event : Order → Worker.Event Uuid
  | .prepareShutdown => .prepareShutdown
  | .toggleVerbosity => .toggleVerbosity

-- A process handles an event, and what it sends is on its way.
def State.turn (config : Config) (cluster : State Uuid) (workerId : Nat) (process : Process Uuid)
    (event : Worker.Event Uuid) : Option (State Uuid) :=
  if process.killed then none
  else (Worker.step (config.worker workerId) process.worker event).map fun worker =>
    { cluster with
      processes := cluster.processes.set workerId { process with worker }
      sent := cluster.sent ++
        (worker.sent.drop process.worker.sent.length).map fun message => ⟨process.pid, message⟩ }

def State.broadcast (cluster : State Uuid) (order : Order) : State Uuid :=
  { cluster with
    processes := cluster.processes.mapValues fun process =>
      { process with inbox := process.inbox ++ [order] } }

-- The handler of 'drain' messages. The other handler of messages has no part in it.
def State.onMessage (config : Config) (cluster : State Uuid) (sent : Sent Uuid) : State Uuid :=
  match sent.message with
  | .drain instanceId finished =>
      let workerStates := cluster.workerStates.set instanceId ⟨instanceId, finished, sent.pid⟩
      let drainCount := workerStates.size
      { cluster with
        workerStates
        exitCode :=
          if drainCount ≥ config.VPN_INSTANCE_COUNT then some 0 else cluster.exitCode }
  | .bitrate .. => cluster

inductive Event (Uuid : Type) where
  | SIGTERM
  | SIGUSR2
  | worker (workerId : Nat) (event : Worker.Event Uuid)
  | receive (workerId : Nat)
  | kill (workerId : Nat)
  | exit (workerId : Nat)
  | message (pid : Nat)
  deriving DecidableEq

-- The messages between the primary and a process arrive in the order in which they
-- were sent, and a dead process is replaced when the primary sees it exit.
def step (config : Config) (cluster : State Uuid) (event : Event Uuid) : Option (State Uuid) :=
  if cluster.exitCode.isSome then none
  else match event with
    | .SIGTERM => some (cluster.broadcast .prepareShutdown)
    | .SIGUSR2 => some { cluster.broadcast .toggleVerbosity with verbose := !cluster.verbose }
    -- these two only come from the primary
    | .worker _ .prepareShutdown | .worker _ .toggleVerbosity => none
    | .worker workerId event => do
        let process ← cluster.processes.get workerId
        cluster.turn config workerId process event
    | .receive workerId => do
        let process ← cluster.processes.get workerId
        match process.inbox with
        | [] => none
        | order :: inbox => cluster.turn config workerId { process with inbox } order.event
    | .kill workerId => do
        let process ← cluster.processes.get workerId
        if process.alive then
          some { cluster with
            processes := cluster.processes.set workerId { process with killed := true } }
        else none
    | .exit workerId => do
        let process ← cluster.processes.get workerId
        if process.alive then none else some (cluster.restartWorker config workerId)
    | .message pid => do
        let sent ← cluster.sent.find? (·.pid = pid)
        let rest := cluster.sent.eraseP (·.pid = pid)
        some ({ cluster with sent := rest }.onMessage config sent)

end OpenBalenaVpn.Cluster
