import OpenBalenaVpn.Cluster
import OpenBalenaVpn.Foundation.Http

namespace OpenBalenaVpn.Registration

section Service

-- What `register` and `sendHeartbeat` catch, with its message.
inductive Error where
  | rejected (message : Text)
  | ServiceRegistrationError (message : Text)
  deriving DecidableEq

structure Captured where
  err : Error
  fingerprint : Text
  instance_id : Option Text
  deriving DecidableEq

structure ServiceInstance where
  id : Option Nat := none
  interval : Nat := 10 * 1000

def ServiceInstance.getId (service : ServiceInstance) : Except Error Nat :=
  match service.id with
  | none => .error (.ServiceRegistrationError "Not Registered".toList)
  | some id => .ok id

def ServiceInstance.setId (service : ServiceInstance) (id : Nat) : Except Error ServiceInstance :=
  match service.id with
  | some _ => .error (.ServiceRegistrationError "Already Registered".toList)
  | none => .ok { service with id := some id }

-- Without an id there is no tag.
def ServiceInstance.captureException (service : ServiceInstance) (err : Error)
    (fingerprint : Text) : Captured :=
  ⟨err, fingerprint,
    match service.getId with
    | .ok id => some (Nat.toDigits 10 id)
    | .error _ => none⟩

-- The requests to the resource service_instance. A PATCH says that `is_alive` is true.
inductive Request where
  | post (ip_address : Option Text)
  | patch (id : Nat)
  deriving DecidableEq

-- What became of a request. The id is that of the response, which only `register` reads.
inductive Answer where
  | rejected (message : Text)
  | resolved (id : Option Nat)
  deriving DecidableEq

-- The part of `register` after the request.
def ServiceInstance.registered (service : ServiceInstance) : Answer → Except Error ServiceInstance
  | .rejected message => .error (.rejected message)
  | .resolved none =>
      .error (.ServiceRegistrationError "No service ID received on response".toList)
  | .resolved (some id) => service.setId id

end Service

-- Where a call of `register` or `scheduleHeartbeat` stands: at its request, or at a timer
-- that is due at some time.
inductive Task where
  | registering
  | retrying (due : Nat)
  | waiting (due : Nat)
  | beating
  deriving DecidableEq

-- Where the call of `func` stands: it spawns the workers when the API server listens,
-- which it started for the service id.
inductive Func where
  | uncalled
  | listening (serviceId : Nat)
  | spawned
  deriving DecidableEq

-- The environment that a worker is forked with.
structure Fork where
  WORKER_ID : Nat
  SERVICE_ID : Nat
  VPN_VERBOSE_LOGS : Bool
  deriving DecidableEq

structure Config extends Cluster.Config where
  VPN_SERVICE_ADDRESS : Option Text

-- The primary from its start. Times are in milliseconds, and `requests` has the time at
-- which each was sent. An error that nothing catches ends the process.
structure State (Uuid : Type) where
  now : Nat
  service : ServiceInstance
  tasks : List Task
  requests : List (Nat × Request)
  captured : List Captured
  func : Func
  forks : List Fork
  cluster : Cluster.State Uuid
  uncaught : Option Error

variable {Uuid : Type}

-- `wrap` starts with a call of `register`.
def State.initial (config : Config) (service : ServiceInstance) : State Uuid where
  now := 0
  service
  tasks := [.registering]
  requests := [(0, .post config.VPN_SERVICE_ADDRESS)]
  captured := []
  func := .uncalled
  forks := []
  cluster := ⟨config.DEFAULT_VERBOSE_LOGS, .empty, none, .empty, [], 0⟩
  uncaught := none

def State.setTask (state : State Uuid) (index : Nat) (task : Task) : State Uuid :=
  { state with tasks := state.tasks.set index task }

def State.register (config : Config) (state : State Uuid) (index : Nat) : State Uuid :=
  { state.setTask index .registering with
    requests := state.requests ++ [(state.now, .post config.VPN_SERVICE_ADDRESS)] }

def State.scheduleHeartbeat (state : State Uuid) (index : Nat) : State Uuid :=
  state.setTask index (.waiting (state.now + state.service.interval))

-- `func` runs until it waits for the API server.
def State.callFunc (state : State Uuid) : State Uuid :=
  match state.service.getId with
  | .ok id => { state with func := .listening id }
  | .error err => { state with uncaught := some err }

def State.registerAnswered (state : State Uuid) (index : Nat) (answer : Answer) : State Uuid :=
  match state.service.registered answer with
  | .ok service => { state with service }.callFunc.scheduleHeartbeat index
  | .error err =>
      { state.setTask index (.retrying (state.now + state.service.interval)) with
        captured := state.captured ++
          [state.service.captureException err "service-registration-error".toList] }

-- `sendHeartbeat` catches its error, and the next heartbeat is scheduled in any case.
def State.heartbeatFailed (state : State Uuid) (index : Nat) (err : Error) : State Uuid :=
  { state.scheduleHeartbeat index with
    captured := state.captured ++
      [state.service.captureException err "service-heartbeart-error".toList] }

def State.sendHeartbeat (state : State Uuid) (index : Nat) : State Uuid :=
  match state.service.getId with
  | .ok id => { state.setTask index .beating with
      requests := state.requests ++ [(state.now, .patch id)] }
  | .error err => state.heartbeatFailed index err

def State.heartbeatAnswered (state : State Uuid) (index : Nat) : Answer → State Uuid
  | .rejected message => state.heartbeatFailed index (.rejected message)
  | .resolved _ => state.scheduleHeartbeat index

def State.restartWorker (config : Config) (state : State Uuid) (workerId : Nat) : State Uuid :=
  match state.service.getId with
  | .ok id => { state with
      forks := state.forks ++ [⟨workerId, id, state.cluster.verbose⟩]
      cluster := state.cluster.restartWorker config.toConfig workerId }
  | .error err => { state with uncaught := some err }

def State.spawn (config : Config) (state : State Uuid) : State Uuid :=
  (List.range config.VPN_INSTANCE_COUNT).foldl
    (fun state i => state.restartWorker config (i + 1)) { state with func := .spawned }

inductive Event (Uuid : Type) where
  | elapse (ms : Nat)
  | answer (index : Nat) (answer : Answer)
  | timer (index : Nat)
  | listening
  | cluster (event : Cluster.Event Uuid)

-- The handlers of the signals are there from the start. A worker that exits is replaced by
-- `restartWorker`.
def step (config : Config) (state : State Uuid) (event : Event Uuid) : Option (State Uuid) :=
  if state.uncaught.isSome || state.cluster.exitCode.isSome then none
  else match event with
    | .elapse ms => some { state with now := state.now + ms }
    | .answer index answer => match state.tasks[index]? with
        | some .registering => some (state.registerAnswered index answer)
        | some .beating => some (state.heartbeatAnswered index answer)
        | _ => none
    | .timer index => match state.tasks[index]? with
        | some (.retrying due) =>
            if due ≤ state.now then some (state.register config index) else none
        | some (.waiting due) =>
            if due ≤ state.now then some (state.sendHeartbeat index) else none
        | _ => none
    | .listening => match state.func with
        | .listening _ => some (state.spawn config)
        | _ => none
    | .cluster (.exit workerId) =>
        (Cluster.step config.toConfig state.cluster (.exit workerId)).map fun _ =>
          state.restartWorker config workerId
    | .cluster event =>
        (Cluster.step config.toConfig state.cluster event).map fun cluster =>
          { state with cluster }

end OpenBalenaVpn.Registration
