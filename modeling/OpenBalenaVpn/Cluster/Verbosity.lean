import OpenBalenaVpn.Cluster.Lemmas
import OpenBalenaVpn.Worker.Lemmas
import OpenBalenaVpn.Foundation.Transition

namespace OpenBalenaVpn.Cluster

open Transition

variable {Uuid : Type}

-- The primary once it has spawned its workers. A SIGUSR2 may come before that.
def State.spawned (config : Config) (verbose : Bool) : State Uuid :=
  { State.initial config with verbose }

-- Each 'toggleVerbosity' message has been handled by its worker, if that runs.
def Delivered (cluster : State Uuid) : Prop :=
  ∀ workerId process, cluster.processes.get workerId = some process → process.alive = true →
    .toggleVerbosity ∉ process.inbox

def Agrees (cluster : State Uuid) : Prop :=
  Delivered cluster → ∀ workerId process, cluster.processes.get workerId = some process →
    process.alive = true → process.worker.verbose = cluster.verbose

-- The primary replaces a worker while its flag is the one that a worker reads.
def ForksInStep (config : Config) (cluster : State Uuid) : Event Uuid → Prop
  | .exit _ => cluster.verbose = config.DEFAULT_VERBOSE_LOGS
  | _ => True

section InStep

def Order.toggles : Order → Bool
  | .toggleVerbosity => true
  | .prepareShutdown => false

theorem event_toggles (order : Order) :
    (order.event : Worker.Event Uuid).toggles = order.toggles := by
  cases order <;> rfl

-- The flag of a process when it has handled its inbox.
def Process.flag (process : Process Uuid) : Bool :=
  process.inbox.foldl (fun verbose order => verbose ^^ order.toggles) process.worker.verbose

theorem flag_of_delivered {process : Process Uuid} (h : .toggleVerbosity ∉ process.inbox) :
    process.flag = process.worker.verbose := by
  unfold Process.flag
  generalize process.worker.verbose = verbose
  generalize process.inbox = inbox at h
  induction inbox with
  | nil => rfl
  | cons order inbox ih =>
      have horder : order.toggles = false := by
        cases order with
        | prepareShutdown => rfl
        | toggleVerbosity => exact absurd List.mem_cons_self h
      rw [List.foldl_cons, horder, Bool.xor_false]
      exact ih fun hmem => h (List.mem_cons_of_mem _ hmem)

-- The invariant: a worker that runs has the flag of the primary once it has caught up.
def InStep (cluster : State Uuid) : Prop :=
  ∀ workerId process, cluster.processes.get workerId = some process → process.alive = true →
    process.flag = cluster.verbose

theorem InStep.agrees {cluster : State Uuid} (h : InStep cluster) : Agrees cluster :=
  fun hdelivered workerId process hget halive =>
    (flag_of_delivered (hdelivered workerId process hget halive)).symm.trans
      (h workerId process hget halive)

variable {config : Config} {cluster next : State Uuid}

theorem InStep.set (h : InStep cluster) {workerId : Nat} {process : Process Uuid}
    (hflag : process.alive = true → process.flag = cluster.verbose)
    (hverbose : next.verbose = cluster.verbose)
    (hset : next.processes = cluster.processes.set workerId process) : InStep next := by
  intro other changed hget halive
  rw [hset, OrderedMap.get_set] at hget
  rw [hverbose]
  by_cases ho : workerId = other
  · rw [if_pos ho] at hget
    obtain rfl := Option.some.inj hget
    exact hflag halive
  · rw [if_neg ho] at hget
    exact h other changed hget halive

theorem InStep.restartWorker (h : InStep cluster)
    (hverbose : cluster.verbose = config.DEFAULT_VERBOSE_LOGS) (workerId : Nat) :
    InStep (cluster.restartWorker config workerId) := by
  refine h.set ?_ rfl rfl
  exact fun _ => hverbose.symm

-- Each message that the primary sends comes with the change of its own flag.
theorem InStep.broadcast (h : InStep cluster) (order : Order)
    (hverbose : next.verbose = (cluster.verbose ^^ order.toggles))
    (hprocesses : next.processes = (cluster.broadcast order).processes) : InStep next := by
  intro workerId changed hget halive
  rw [hprocesses, State.broadcast, OrderedMap.get_mapValues] at hget
  obtain ⟨process, hprocess, rfl⟩ := Option.map_eq_some_iff.mp hget
  have hflag := h workerId process hprocess halive
  rw [hverbose, ← hflag, Process.flag, List.foldl_append]
  rfl

-- A worker that takes a turn ran before it, and had all the orders after this one to come.
theorem InStep.turn (h : InStep cluster) {workerId : Nat} {old : Process Uuid}
    (process : Process Uuid) {event : Worker.Event Uuid}
    (hget : cluster.processes.get workerId = some old)
    (hworker : process.worker = old.worker) (hkilled : process.killed = old.killed)
    (hinbox : process.inbox.foldl (fun verbose order => verbose ^^ order.toggles)
      (old.worker.verbose ^^ event.toggles) = old.flag)
    (hs : cluster.turn config workerId process event = some next) : InStep next := by
  obtain ⟨hrunning, worker, hstep, rfl⟩ := turn_eq_some hs
  have halive : old.alive = true := by
    simp [Process.alive, ← hkilled, hrunning, ← hworker, Worker.exitCode_of_step hstep]
  refine h.set (fun _ => ?_) rfl rfl
  rw [← h workerId old hget halive, ← hinbox, Process.flag, Worker.step_verbose hstep, hworker]

theorem inStep_step {event : Event Uuid} (h : InStep cluster)
    (hfork : ForksInStep config cluster event) (hs : step config cluster event = some next) :
    InStep next := by
  cases (step_stepped hs).2 with
  | SIGTERM => exact h.broadcast .prepareShutdown (Bool.xor_false _).symm rfl
  | SIGUSR2 => exact h.broadcast .toggleVerbosity (Bool.xor_true _).symm rfl
  | @worker _ workerId event process hevent hget hturn =>
      have hquiet : event.toggles = false := by
        cases event with
        | toggleVerbosity => exact absurd rfl hevent.2
        | _ => rfl
      exact h.turn process hget rfl rfl (by rw [hquiet, Bool.xor_false]; rfl) hturn
  | @receive _ workerId process order inbox hget hinbox hturn =>
      refine h.turn { process with inbox } hget rfl rfl ?_ hturn
      rw [event_toggles, Process.flag, hinbox, List.foldl_cons]
  | kill => exact h.set (by simp [Process.alive]) rfl rfl
  | exit => exact h.restartWorker hfork _
  | @message pid sent =>
      obtain ⟨hprocesses, _, _, hverbose⟩ := onMessage_frame config
        { cluster with sent := cluster.sent.eraseP (·.pid = pid) } sent
      intro workerId process hget halive
      rw [hprocesses] at hget
      rw [hverbose]
      exact h workerId process hget halive

theorem inStep_initial (config : Config) : InStep (State.initial config : State Uuid) := by
  have hboth := initial_keeps config (fun cluster : State Uuid =>
    cluster.verbose = config.DEFAULT_VERBOSE_LOGS ∧ InStep cluster) ⟨rfl, by simp [InStep]⟩
    fun _ workerId _ h => ⟨h.1, h.2.restartWorker h.1 workerId⟩
  exact hboth.2

end InStep

section Theorems

-- As long as no worker is forked while the flag of the primary differs from the one that
-- the worker reads, the workers agree with the primary once they have all messages.
theorem verbosity_agrees (config : Config) {verbose : Bool}
    (hspawn : 0 < config.VPN_INSTANCE_COUNT → verbose = config.DEFAULT_VERBOSE_LOGS)
    {events : List (Event Uuid)}
    (hfork : StepsMeet (step config) (ForksInStep config) (State.spawned config verbose) events) :
    Throughout (step config) Agrees (State.spawned config verbose) events := by
  have hspawned : InStep (State.spawned config verbose : State Uuid) := by
    rcases Nat.eq_zero_or_pos config.VPN_INSTANCE_COUNT with hzero | hpos
    · intro workerId process hget
      simp [State.spawned, State.initial, hzero] at hget
    · intro workerId process hget halive
      have hflag := inStep_initial config workerId process hget halive
      rw [initial_verbose] at hflag
      exact hflag.trans (hspawn hpos).symm
  have hinStep := throughout_of_keeps
    (fun _ _ _ h hcondition hs => inStep_step h hcondition hs) hspawned hfork
  exact hinStep.imp fun _ h => h.agrees

-- The worker dies while the flag is the one it started from, and its successor toggles.
theorem verbosity_agrees_replaced :
    Throughout (step ⟨1, false, 30, 120⟩) Agrees
      (State.spawned ⟨1, false, 30, 120⟩ false : State String)
      [.kill 1, .exit 1, .SIGUSR2, .receive 1] := by
  refine verbosity_agrees ⟨1, false, 30, 120⟩ (fun _ => rfl) ⟨trivial, fun c₁ h₁ => ⟨?_, ?_⟩⟩
  · obtain rfl := Option.some.inj h₁
    rfl
  · exact fun _ _ => ⟨trivial, fun _ _ => ⟨trivial, fun _ _ => trivial⟩⟩

-- The worker dies after it has toggled. The new one starts from the environment again.
theorem verbosity_disagrees :
    ∃ events last, run (step ⟨1, false, 30, 120⟩)
      (State.spawned ⟨1, false, 30, 120⟩ false : State String) events = some last ∧
        ¬Agrees last := by
  let died : Process String := ⟨0, [], .initial true, true⟩
  let cluster : State String := ⟨true, .empty, none, OrderedMap.empty.set 1 died, [], 1⟩
  refine ⟨[.SIGUSR2, .receive 1, .kill 1, .exit 1],
    cluster.restartWorker ⟨1, false, 30, 120⟩ 1, rfl, fun hagrees => ?_⟩
  have hflag := hagrees (fun workerId process hget _ => ?_) 1 ⟨1, [], .initial false, false⟩ rfl
    rfl
  · cases hflag
  · rw [State.restartWorker, OrderedMap.get_set] at hget
    by_cases hid : 1 = workerId
    · rw [if_pos hid] at hget
      obtain rfl := Option.some.inj hget
      exact List.not_mem_nil
    · rw [if_neg hid, OrderedMap.get_set, if_neg hid] at hget
      cases hget

end Theorems

end OpenBalenaVpn.Cluster
