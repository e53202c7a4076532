import OpenBalenaVpn.Cluster

namespace OpenBalenaVpn.Cluster

variable {Uuid : Type}

-- What each fork keeps holds once the workers are spawned.
theorem initial_keeps (config : Config) (property : State Uuid → Prop)
    (hblank : property ⟨config.DEFAULT_VERBOSE_LOGS, .empty, none, .empty, [], 0⟩)
    (hfork : ∀ cluster workerId, 1 ≤ workerId ∧ workerId ≤ config.VPN_INSTANCE_COUNT →
      property cluster → property (cluster.restartWorker config workerId)) :
    property (State.initial config) := by
  have hfold : ∀ (ids : List Nat) (cluster : State Uuid), property cluster →
      (∀ i ∈ ids, i < config.VPN_INSTANCE_COUNT) →
      property (ids.foldl (fun cluster i => cluster.restartWorker config (i + 1)) cluster) := by
    intro ids
    induction ids with
    | nil => exact fun _ h _ => h
    | cons i ids ih =>
        intro cluster h hlt
        have hi := hlt i List.mem_cons_self
        exact ih _ (hfork cluster (i + 1) ⟨by omega, by omega⟩ h)
          fun j hj => hlt j (List.mem_cons_of_mem i hj)
  exact hfold _ _ hblank fun i hi => List.mem_range.mp hi

theorem initial_exitCode (config : Config) :
    (State.initial config : State Uuid).exitCode = none :=
  initial_keeps config (fun cluster => cluster.exitCode = none) rfl fun _ _ _ h => h

theorem initial_verbose (config : Config) :
    (State.initial config : State Uuid).verbose = config.DEFAULT_VERBOSE_LOGS :=
  initial_keeps config (fun cluster => cluster.verbose = config.DEFAULT_VERBOSE_LOGS) rfl
    fun _ _ _ h => h

theorem onMessage_frame (config : Config) (cluster : State Uuid) (sent : Sent Uuid) :
    (cluster.onMessage config sent).processes = cluster.processes ∧
      (cluster.onMessage config sent).nextPid = cluster.nextPid ∧
      (cluster.onMessage config sent).sent = cluster.sent ∧
      (cluster.onMessage config sent).verbose = cluster.verbose := by
  unfold State.onMessage
  split <;> exact ⟨rfl, rfl, rfl, rfl⟩

-- A turn of a process is a step of its worker.
theorem turn_eq_some {config : Config} {cluster next : State Uuid} {workerId : Nat}
    {process : Process Uuid} {event : Worker.Event Uuid}
    (hs : cluster.turn config workerId process event = some next) :
    process.killed = false ∧ ∃ worker,
      Worker.step (config.worker workerId) process.worker event = some worker ∧
      next = { cluster with
        processes := cluster.processes.set workerId { process with worker }
        sent := cluster.sent ++
          (worker.sent.drop process.worker.sent.length).map fun message =>
            ⟨process.pid, message⟩ } := by
  unfold State.turn at hs
  split at hs
  · cases hs
  · obtain ⟨worker, hworker, rfl⟩ := Option.map_eq_some_iff.mp hs
    exact ⟨Bool.not_eq_true _ ▸ ‹_›, worker, hworker, rfl⟩

-- What an event does to the primary and its workers.
inductive Stepped (config : Config) (cluster : State Uuid) : Event Uuid → State Uuid → Prop
  | SIGTERM : Stepped config cluster .SIGTERM (cluster.broadcast .prepareShutdown)
  | SIGUSR2 : Stepped config cluster .SIGUSR2
      { cluster.broadcast .toggleVerbosity with verbose := !cluster.verbose }
  | worker {next : State Uuid} {workerId : Nat} {event : Worker.Event Uuid}
      {process : Process Uuid} (hevent : event ≠ .prepareShutdown ∧ event ≠ .toggleVerbosity)
      (hget : cluster.processes.get workerId = some process)
      (hturn : cluster.turn config workerId process event = some next) :
      Stepped config cluster (.worker workerId event) next
  | receive {next : State Uuid} {workerId : Nat} {process : Process Uuid} {order : Order}
      {inbox : List Order} (hget : cluster.processes.get workerId = some process)
      (hinbox : process.inbox = order :: inbox)
      (hturn : cluster.turn config workerId { process with inbox } order.event = some next) :
      Stepped config cluster (.receive workerId) next
  | kill {workerId : Nat} {process : Process Uuid}
      (hget : cluster.processes.get workerId = some process) (halive : process.alive = true) :
      Stepped config cluster (.kill workerId) { cluster with
        processes := cluster.processes.set workerId { process with killed := true } }
  | exit {workerId : Nat} {process : Process Uuid}
      (hget : cluster.processes.get workerId = some process) (hdead : process.alive = false) :
      Stepped config cluster (.exit workerId) (cluster.restartWorker config workerId)
  | message {pid : Nat} {sent : Sent Uuid}
      (hfind : cluster.sent.find? (·.pid = pid) = some sent) :
      Stepped config cluster (.message pid)
        ({ cluster with sent := cluster.sent.eraseP (·.pid = pid) }.onMessage config sent)

theorem step_stepped {config : Config} {cluster next : State Uuid} {event : Event Uuid}
    (hs : step config cluster event = some next) :
    cluster.exitCode = none ∧ Stepped config cluster event next := by
  unfold step at hs
  split at hs
  · cases hs
  · rename_i hrunning
    refine ⟨by simpa using hrunning, ?_⟩
    split at hs
    · exact (Option.some.inj hs) ▸ .SIGTERM
    · exact (Option.some.inj hs) ▸ .SIGUSR2
    · cases hs
    · cases hs
    · rename_i hshutdown htoggle
      obtain ⟨process, hget, hturn⟩ := Option.bind_eq_some_iff.mp hs
      exact .worker ⟨hshutdown, htoggle⟩ hget hturn
    · obtain ⟨process, hget, ht⟩ := Option.bind_eq_some_iff.mp hs
      split at ht
      · cases ht
      · rename_i hinbox
        exact .receive hget hinbox ht
    · obtain ⟨process, hget, ht⟩ := Option.bind_eq_some_iff.mp hs
      split at ht
      · rename_i halive
        exact (Option.some.inj ht) ▸ .kill hget halive
      · cases ht
    · obtain ⟨process, hget, ht⟩ := Option.bind_eq_some_iff.mp hs
      split at ht
      · cases ht
      · rename_i hdead
        exact (Option.some.inj ht) ▸ .exit hget (Bool.not_eq_true _ ▸ hdead)
    · obtain ⟨sent, hfind, ht⟩ := Option.bind_eq_some_iff.mp hs
      exact (Option.some.inj ht) ▸ .message hfind

end OpenBalenaVpn.Cluster
