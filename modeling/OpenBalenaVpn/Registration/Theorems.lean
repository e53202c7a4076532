import OpenBalenaVpn.Cluster.Completion
import OpenBalenaVpn.Cluster.Verbosity
import OpenBalenaVpn.Registration

namespace OpenBalenaVpn.Registration

open Transition

variable {Uuid : Type} {config : Config} {state next : State Uuid}

section Step

-- What an event does to a primary that runs.
inductive Stepped (config : Config) (state : State Uuid) : Event Uuid → State Uuid → Prop
  | elapse (ms : Nat) : Stepped config state (.elapse ms) { state with now := state.now + ms }
  | registered {index : Nat} (answer : Answer) (htask : state.tasks[index]? = some .registering) :
      Stepped config state (.answer index answer) (state.registerAnswered index answer)
  | beaten {index : Nat} (answer : Answer) (htask : state.tasks[index]? = some .beating) :
      Stepped config state (.answer index answer) (state.heartbeatAnswered index answer)
  | retried {index due : Nat} (htask : state.tasks[index]? = some (.retrying due))
      (hdue : due ≤ state.now) : Stepped config state (.timer index) (state.register config index)
  | waited {index due : Nat} (htask : state.tasks[index]? = some (.waiting due))
      (hdue : due ≤ state.now) : Stepped config state (.timer index) (state.sendHeartbeat index)
  | listening {serviceId : Nat} (hfunc : state.func = .listening serviceId) :
      Stepped config state .listening (state.spawn config)
  | exit {workerId : Nat} {cluster : Cluster.State Uuid}
      (hcluster : Cluster.step config.toConfig state.cluster (.exit workerId) = some cluster) :
      Stepped config state (.cluster (.exit workerId)) (state.restartWorker config workerId)
  | cluster {event : Cluster.Event Uuid} {cluster : Cluster.State Uuid}
      (hevent : ∀ workerId, event ≠ .exit workerId)
      (hcluster : Cluster.step config.toConfig state.cluster event = some cluster) :
      Stepped config state (.cluster event) { state with cluster }

theorem step_stepped {event : Event Uuid} (hs : step config state event = some next) :
    Stepped config state event next := by
  unfold step at hs
  split at hs
  · cases hs
  · split at hs
    · exact Option.some.inj hs ▸ .elapse _
    · split at hs
      · rename_i htask
        exact Option.some.inj hs ▸ .registered _ htask
      · rename_i htask
        exact Option.some.inj hs ▸ .beaten _ htask
      · cases hs
    · split at hs
      · rename_i htask
        split at hs
        · rename_i hdue
          exact Option.some.inj hs ▸ .retried htask hdue
        · cases hs
      · rename_i htask
        split at hs
        · rename_i hdue
          exact Option.some.inj hs ▸ .waited htask hdue
        · cases hs
      · cases hs
    · split at hs
      · rename_i hfunc
        exact Option.some.inj hs ▸ .listening hfunc
      · cases hs
    · obtain ⟨cluster, hcluster, rfl⟩ := Option.map_eq_some_iff.mp hs
      exact .exit hcluster
    · rename_i hevent
      obtain ⟨cluster, hcluster, rfl⟩ := Option.map_eq_some_iff.mp hs
      exact .cluster hevent hcluster

end Step

section Paced

def Task.due : Task → Option Nat
  | .retrying due => some due
  | .waiting due => some due
  | .registering => none
  | .beating => none

-- The interval passes between a request and the next one.
structure Paced (state : State Uuid) : Prop where
  past : ∀ request ∈ state.requests, request.1 ≤ state.now
  spaced : state.requests.Pairwise fun earlier later =>
    earlier.1 + state.service.interval ≤ later.1
  due : ∀ task ∈ state.tasks, ∀ due, task.due = some due →
    due ≤ state.now + state.service.interval ∧
      ∀ request ∈ state.requests, request.1 + state.service.interval ≤ due

theorem paced_initial (config : Config) (service : ServiceInstance) :
    Paced (State.initial config service : State Uuid) where
  past := by simp [State.initial]
  spaced := List.pairwise_singleton _ _
  due := by simp [State.initial, Task.due]

theorem Paced.setTask (h : Paced state) {index : Nat} {task : Task}
    (htask : ∀ due, task.due = some due → due = state.now + state.service.interval) :
    Paced (state.setTask index task) := by
  refine ⟨h.past, h.spaced, fun other hmem due hdue => ?_⟩
  rcases List.mem_or_eq_of_mem_set hmem with hold | rfl
  · exact h.due other hold due hdue
  · obtain rfl := htask due hdue
    exact ⟨Nat.le_refl _, fun request hr => Nat.add_le_add_right (h.past request hr) _⟩

-- A timer that is due sends the next request.
theorem Paced.send (h : Paced state) {index due : Nat} {task : Task} (request : Request)
    (htask : state.tasks[index]? = some task) (htimer : task.due = some due)
    (hdue : due ≤ state.now) {sending : Task} (hsending : sending.due = none)
    (hone : state.tasks.length = 1) :
    Paced { state.setTask index sending with
      requests := state.requests ++ [(state.now, request)] } := by
  have hspaced := (h.due task (List.mem_of_getElem? htask) due htimer).2
  refine ⟨fun other hmem => ?_, ?_, fun other hmem due hother => ?_⟩
  · rcases List.mem_append.mp hmem with hold | hnew
    · exact h.past other hold
    · obtain rfl := List.mem_singleton.mp hnew
      exact Nat.le_refl _
  · refine List.pairwise_append.mpr ⟨h.spaced, List.pairwise_singleton _ _, fun earlier he => ?_⟩
    intro later hl
    obtain rfl := List.mem_singleton.mp hl
    exact Nat.le_trans (hspaced earlier he) hdue
  · obtain ⟨only, hlist⟩ := List.length_eq_one_iff.mp hone
    obtain ⟨hlt, _⟩ := List.getElem?_eq_some_iff.mp htask
    obtain rfl : index = 0 := by omega
    simp only [State.setTask, hlist, List.set_cons_zero, List.mem_singleton] at hmem
    subst hmem
    rw [hsending] at hother
    cases hother

end Paced

section Stages

-- The cluster before the workers are spawned.
def unspawned (verbose : Bool) : Cluster.State Uuid := ⟨verbose, .empty, none, .empty, [], 0⟩

-- What makes `register` try again.
def Error.Refusal (err : Error) : Prop :=
  (∃ message, err = .rejected message) ∨
    err = .ServiceRegistrationError "No service ID received on response".toList

def Captured.Unregistered (captured : Captured) : Prop :=
  captured.fingerprint = "service-registration-error".toList ∧ captured.instance_id = none ∧
    captured.err.Refusal

def Captured.Unheard (id : Nat) (captured : Captured) : Prop :=
  captured.fingerprint = "service-heartbeart-error".toList ∧
    captured.instance_id = some (Nat.toDigits 10 id) ∧ ∃ message, captured.err = .rejected message

-- The primary until the API has given the instance an id.
structure Registers (config : Config) (state : State Uuid) : Prop where
  unregistered : state.service.id = none
  func : state.func = .uncalled
  task : state.tasks = [.registering] ∨ ∃ due, state.tasks = [.retrying due]
  requests : ∀ request ∈ state.requests, request.2 = .post config.VPN_SERVICE_ADDRESS
  captured : ∀ captured ∈ state.captured, captured.Unregistered
  forks : state.forks = []
  cluster : ∃ verbose, state.cluster = unspawned verbose
  uncaught : state.uncaught = none

-- The first workers are those that the loop forks, and the cluster has run since.
def Spawned (config : Config) (id : Nat) (state : State Uuid) : Prop :=
  ∃ verbose events, run (Cluster.step config.toConfig)
      (Cluster.State.spawned config.toConfig verbose) events = some state.cluster ∧
    (List.range config.VPN_INSTANCE_COUNT).map (fun i => Fork.mk (i + 1) id verbose) <+:
      state.forks

-- The primary from then on.
structure Beats (config : Config) (id : Nat) (state : State Uuid) : Prop where
  registered : state.service.id = some id
  task : state.tasks = [.beating] ∨ ∃ due, state.tasks = [.waiting due]
  requests : ∃ posts patches, state.requests = posts ++ patches ∧
    (∀ request ∈ posts, request.2 = .post config.VPN_SERVICE_ADDRESS) ∧
    ∀ request ∈ patches, request.2 = .patch id
  captured : ∀ captured ∈ state.captured, captured.Unregistered ∨ captured.Unheard id
  forks : ∀ fork ∈ state.forks, fork.SERVICE_ID = id ∧ 1 ≤ fork.WORKER_ID ∧
    fork.WORKER_ID ≤ config.VPN_INSTANCE_COUNT
  cluster : (state.func = .listening id ∧ state.forks = [] ∧
      ∃ verbose, state.cluster = unspawned verbose) ∨
    (state.func = .spawned ∧ Spawned config id state)
  uncaught : state.uncaught = none

theorem registers_initial (config : Config) {service : ServiceInstance} (hid : service.id = none) :
    Registers config (State.initial config service : State Uuid) where
  unregistered := hid
  func := rfl
  task := Or.inl rfl
  requests := by simp [State.initial]
  captured := nofun
  forks := rfl
  cluster := ⟨_, rfl⟩
  uncaught := rfl

theorem getId_of_some {service : ServiceInstance} {id : Nat} (h : service.id = some id) :
    service.getId = .ok id := by
  rw [ServiceInstance.getId, h]

-- What the API answers gives an unregistered instance its id, or is a refusal.
theorem registered_cases {service : ServiceInstance} (h : service.id = none) (answer : Answer) :
    (∃ registered id, service.registered answer = .ok registered ∧ registered.id = some id ∧
        registered.interval = service.interval) ∨
      ∃ err, service.registered answer = .error err ∧ err.Refusal := by
  cases answer with
  | rejected message => exact Or.inr ⟨_, rfl, Or.inl ⟨message, rfl⟩⟩
  | resolved id =>
      cases id with
      | none => exact Or.inr ⟨_, rfl, Or.inr rfl⟩
      | some id =>
          refine Or.inl ⟨{ service with id := some id }, id, ?_, rfl, rfl⟩
          simp [ServiceInstance.registered, ServiceInstance.setId, h]

theorem callFunc_of_some {id : Nat} (h : state.service.id = some id) :
    state.callFunc = { state with func := .listening id } := by
  rw [State.callFunc, getId_of_some h]

theorem captureException_of_none {service : ServiceInstance} (h : service.id = none) {err : Error}
    (hrefusal : err.Refusal) :
    (service.captureException err "service-registration-error".toList).Unregistered := by
  refine ⟨rfl, ?_, hrefusal⟩
  simp [ServiceInstance.captureException, ServiceInstance.getId, h]

theorem captureException_of_some {service : ServiceInstance} {id : Nat} (h : service.id = some id)
    (message : Text) :
    (service.captureException (.rejected message)
      "service-heartbeart-error".toList).Unheard id := by
  refine ⟨rfl, ?_, message, rfl⟩
  simp [ServiceInstance.captureException, getId_of_some h]

-- No worker runs yet: the signals find nobody to tell.
theorem unspawned_step {clusterConfig : Cluster.Config} {verbose : Bool}
    {event : Cluster.Event Uuid} {cluster : Cluster.State Uuid}
    (hs : Cluster.step clusterConfig (unspawned verbose) event = some cluster) :
    (∀ workerId, event ≠ .exit workerId) ∧ ∃ verbose, cluster = unspawned verbose := by
  cases (Cluster.step_stepped hs).2 with
  | SIGTERM => exact ⟨nofun, verbose, rfl⟩
  | SIGUSR2 => exact ⟨nofun, !verbose, rfl⟩
  | worker _ hget => cases hget
  | receive hget => cases hget
  | kill hget => cases hget
  | exit hget => cases hget
  | message hfind => cases hfind

theorem restartWorker_of_some {id : Nat} (h : state.service.id = some id) (workerId : Nat) :
    state.restartWorker config workerId = { state with
      forks := state.forks ++ [⟨workerId, id, state.cluster.verbose⟩]
      cluster := state.cluster.restartWorker config.toConfig workerId } := by
  rw [State.restartWorker, getId_of_some h]

theorem sound_spawned (config : Cluster.Config) (verbose : Bool) :
    Cluster.Sound config (Cluster.State.spawned config verbose : Cluster.State Uuid) := by
  have h : Cluster.Sound config (Cluster.State.initial config : Cluster.State Uuid) :=
    Cluster.sound_initial config
  have htraced :
      Cluster.Traced config (Cluster.State.spawned config verbose : Cluster.State Uuid) :=
    h.traced.continue (Cluster.continues_of_eq rfl rfl) rfl fun sent hs => Or.inl hs
  exact { h with traced := htraced }

-- The loop forks the workers in turn, each with the id and the current verbosity.
theorem spawn_of_some {id : Nat} (h : state.service.id = some id) {verbose : Bool}
    (hcluster : state.cluster = unspawned verbose) :
    state.spawn config = { state with
      func := .spawned
      forks := state.forks ++
        (List.range config.VPN_INSTANCE_COUNT).map fun i => ⟨i + 1, id, verbose⟩
      cluster := Cluster.State.spawned config.toConfig verbose } := by
  have hfold : ∀ (ids : List Nat) (state : State Uuid), state.service.id = some id →
      ids.foldl (fun state i => state.restartWorker config (i + 1)) state = { state with
        forks := state.forks ++ ids.map fun i => ⟨i + 1, id, state.cluster.verbose⟩
        cluster := ids.foldl (fun cluster i =>
          cluster.restartWorker config.toConfig (i + 1)) state.cluster } := by
    intro ids
    induction ids with
    | nil => exact fun state _ => by simp
    | cons i ids ih =>
        intro state hid
        have hlater := ih { state with
          forks := state.forks ++ [⟨i + 1, id, state.cluster.verbose⟩]
          cluster := state.cluster.restartWorker config.toConfig (i + 1) } hid
        rw [List.foldl_cons, restartWorker_of_some hid]
        refine hlater.trans ?_
        simp [Cluster.State.restartWorker]
  have hverbose : ∀ (ids : List Nat) (cluster : Cluster.State Uuid),
      ids.foldl (fun cluster i => cluster.restartWorker config.toConfig (i + 1))
        { cluster with verbose } = { ids.foldl (fun cluster i =>
          cluster.restartWorker config.toConfig (i + 1)) cluster with verbose } := by
    intro ids
    induction ids with
    | nil => exact fun _ => rfl
    | cons i ids ih => exact fun cluster => ih (cluster.restartWorker config.toConfig (i + 1))
  have hall := hfold (List.range config.VPN_INSTANCE_COUNT) { state with func := .spawned } h
  refine hall.trans ?_
  simp only [hcluster]
  rw [Cluster.State.spawned, Cluster.State.initial, ← hverbose]
  rfl

theorem getElem?_only {task only : Task} {tasks : List Task} {index : Nat} (h : tasks = [only])
    (htask : tasks[index]? = some task) : index = 0 ∧ task = only := by
  subst h
  obtain ⟨hlt, heq⟩ := List.getElem?_eq_some_iff.mp htask
  obtain rfl : index = 0 := by simpa using hlt
  exact ⟨rfl, heq.symm⟩

theorem Registers.task_cases (h : Registers config state) {index : Nat} {task : Task}
    (htask : state.tasks[index]? = some task) :
    index = 0 ∧ state.tasks = [task] ∧ (task = .registering ∨ ∃ due, task = .retrying due) := by
  rcases h.task with hlist | ⟨due, hlist⟩
  · obtain ⟨rfl, rfl⟩ := getElem?_only hlist htask
    exact ⟨rfl, hlist, Or.inl rfl⟩
  · obtain ⟨rfl, rfl⟩ := getElem?_only hlist htask
    exact ⟨rfl, hlist, Or.inr ⟨due, rfl⟩⟩

theorem Beats.task_cases {id : Nat} (h : Beats config id state) {index : Nat} {task : Task}
    (htask : state.tasks[index]? = some task) :
    index = 0 ∧ state.tasks = [task] ∧ (task = .beating ∨ ∃ due, task = .waiting due) := by
  rcases h.task with hlist | ⟨due, hlist⟩
  · obtain ⟨rfl, rfl⟩ := getElem?_only hlist htask
    exact ⟨rfl, hlist, Or.inl rfl⟩
  · obtain ⟨rfl, rfl⟩ := getElem?_only hlist htask
    exact ⟨rfl, hlist, Or.inr ⟨due, rfl⟩⟩

theorem registers_answered (h : Registers config state) (answer : Answer)
    (htasks : state.tasks = [.registering]) :
    Registers config (state.registerAnswered 0 answer) ∨
      ∃ id, Beats config id (state.registerAnswered 0 answer) := by
  unfold State.registerAnswered
  rcases registered_cases h.unregistered answer with
    ⟨service, id, hok, hid, _⟩ | ⟨err, herror, hrefusal⟩
  · rw [hok]
    refine Or.inr ⟨id, ?_⟩
    have hcall : { state with service }.callFunc = { state with service, func := .listening id } :=
      callFunc_of_some hid
    simp only [hcall]
    refine ⟨hid, Or.inr ⟨state.now + service.interval, ?_⟩,
      ⟨state.requests, [], ?_, h.requests, nofun⟩,
      fun captured hm => Or.inl (h.captured captured hm), ?_, Or.inl ⟨rfl, h.forks, h.cluster⟩,
      h.uncaught⟩
    · simp only [State.scheduleHeartbeat, State.setTask, htasks, List.set_cons_zero]
    · exact (List.append_nil _).symm
    · intro fork hmem
      rw [State.scheduleHeartbeat, State.setTask, h.forks] at hmem
      cases hmem
  · rw [herror]
    refine Or.inl ⟨h.unregistered, h.func, Or.inr ⟨state.now + state.service.interval, ?_⟩,
      h.requests, fun captured hm => ?_, h.forks, h.cluster, h.uncaught⟩
    · simp only [State.setTask, htasks, List.set_cons_zero]
    · rcases List.mem_append.mp hm with hold | hnew
      · exact h.captured captured hold
      · exact List.mem_singleton.mp hnew ▸ captureException_of_none h.unregistered hrefusal

theorem registers_step {event : Event Uuid} (h : Registers config state)
    (hs : step config state event = some next) :
    Registers config next ∨ ∃ id, Beats config id next := by
  obtain ⟨verbose, hcluster⟩ := h.cluster
  cases step_stepped hs with
  | elapse => exact Or.inl { h with }
  | registered answer htask =>
      obtain ⟨rfl, hlist, _⟩ := h.task_cases htask
      exact registers_answered h answer hlist
  | beaten _ htask => rcases (h.task_cases htask).2.2 with hother | ⟨_, hother⟩ <;> cases hother
  | @retried index due htask =>
      obtain ⟨rfl, hlist, _⟩ := h.task_cases htask
      refine Or.inl ⟨h.unregistered, h.func, Or.inl ?_, fun request hm => ?_, h.captured, h.forks,
        h.cluster, h.uncaught⟩
      · simp only [State.register, State.setTask, hlist, List.set_cons_zero]
      · rcases List.mem_append.mp hm with hold | hnew
        · exact h.requests request hold
        · exact List.mem_singleton.mp hnew ▸ rfl
  | waited htask => rcases (h.task_cases htask).2.2 with hother | ⟨_, hother⟩ <;> cases hother
  | listening hfunc => cases h.func.symm.trans hfunc
  | @exit workerId _ hexit =>
      rw [hcluster] at hexit
      exact absurd rfl ((unspawned_step hexit).1 workerId)
  | cluster _ hevent =>
      rw [hcluster] at hevent
      exact Or.inl { h with cluster := (unspawned_step hevent).2 }

theorem Beats.scheduleHeartbeat {id : Nat} (h : Beats config id state) {task : Task}
    (hlist : state.tasks = [task]) : Beats config id (state.scheduleHeartbeat 0) := by
  refine { h with task := Or.inr ⟨state.now + state.service.interval, ?_⟩ }
  simp only [State.scheduleHeartbeat, State.setTask, hlist, List.set_cons_zero]

theorem Beats.heartbeatAnswered {id : Nat} (h : Beats config id state) (answer : Answer)
    (hlist : state.tasks = [.beating]) : Beats config id (state.heartbeatAnswered 0 answer) := by
  have hnext := h.scheduleHeartbeat hlist
  cases answer with
  | resolved => exact hnext
  | rejected message =>
      refine { hnext with captured := fun captured hm => ?_ }
      rcases List.mem_append.mp hm with hold | hnew
      · exact h.captured captured hold
      · exact Or.inr (List.mem_singleton.mp hnew ▸ captureException_of_some h.registered message)

theorem Beats.sendHeartbeat {id : Nat} (h : Beats config id state) {task : Task}
    (hlist : state.tasks = [task]) : Beats config id (state.sendHeartbeat 0) := by
  rw [State.sendHeartbeat, getId_of_some h.registered]
  obtain ⟨posts, patches, hrequests, hposts, hpatches⟩ := h.requests
  refine { h with
    task := Or.inl ?_
    requests := ⟨posts, patches ++ [(state.now, .patch id)], ?_, hposts, ?_⟩ }
  · simp only [State.setTask, hlist, List.set_cons_zero]
  · simp only [hrequests, List.append_assoc]
  · intro request hm
    rcases List.mem_append.mp hm with hold | hnew
    · exact hpatches request hold
    · exact List.mem_singleton.mp hnew ▸ rfl

-- A worker that exits is replaced by one with its number and the same service id.
theorem Beats.exit {id workerId : Nat} (h : Beats config id state) {cluster : Cluster.State Uuid}
    (hs : Cluster.step config.toConfig state.cluster (.exit workerId) = some cluster) :
    Beats config id (state.restartWorker config workerId) := by
  rw [restartWorker_of_some h.registered]
  rcases h.cluster with ⟨_, _, verbose, hcluster⟩ | ⟨hfunc, verbose, events, hrun, hfirst⟩
  · rw [hcluster] at hs
    exact absurd rfl ((unspawned_step hs).1 workerId)
  · have hsound := run_invariant Cluster.sound_step (sound_spawned config.toConfig verbose) hrun
    have hnext : cluster = state.cluster.restartWorker config.toConfig workerId := by
      cases (Cluster.step_stepped hs).2
      rfl
    have hrange : 1 ≤ workerId ∧ workerId ≤ config.VPN_INSTANCE_COUNT := by
      cases (Cluster.step_stepped hs).2 with
      | exit hget => exact (hsound.traced.processes _ _ hget).1
    refine { h with
      forks := fun fork hm => ?_
      cluster := Or.inr ⟨hfunc, verbose, events ++ [.exit workerId], ?_, ?_⟩ }
    · rcases List.mem_append.mp hm with hold | hnew
      · exact h.forks fork hold
      · obtain rfl := List.mem_singleton.mp hnew
        exact ⟨rfl, hrange⟩
    · rw [run_concat_eq_some]
      exact ⟨state.cluster, hrun, hnext ▸ hs⟩
    · exact hfirst.trans (List.prefix_append _ _)

theorem Beats.cluster_step {id : Nat} (h : Beats config id state) {event : Cluster.Event Uuid}
    {cluster : Cluster.State Uuid}
    (hs : Cluster.step config.toConfig state.cluster event = some cluster) :
    Beats config id { state with cluster } := by
  refine { h with cluster := ?_ }
  rcases h.cluster with ⟨hfunc, hforks, verbose, hcluster⟩ | ⟨hfunc, verbose, events, hrun, hfirst⟩
  · rw [hcluster] at hs
    exact Or.inl ⟨hfunc, hforks, (unspawned_step hs).2⟩
  · refine Or.inr ⟨hfunc, verbose, events ++ [event], ?_, hfirst⟩
    exact (run_concat_eq_some _ _ _ _ _).mpr ⟨state.cluster, hrun, hs⟩

theorem Beats.spawn {id : Nat} (h : Beats config id state) {serviceId : Nat}
    (hfunc : state.func = .listening serviceId) : Beats config id (state.spawn config) := by
  rcases h.cluster with ⟨_, hforks, verbose, hcluster⟩ | ⟨hother, _⟩
  · rw [spawn_of_some h.registered hcluster, hforks]
    refine { h with forks := fun fork hm => ?_, cluster := Or.inr ⟨rfl, verbose, [], rfl, ?_⟩ }
    · obtain ⟨i, hi, rfl⟩ := List.mem_map.mp hm
      have hlt := List.mem_range.mp hi
      exact ⟨rfl, Nat.le_add_left 1 i, hlt⟩
    · exact List.prefix_refl _
  · cases hfunc.symm.trans hother

theorem beats_step {id : Nat} {event : Event Uuid} (h : Beats config id state)
    (hs : step config state event = some next) : Beats config id next := by
  cases step_stepped hs with
  | elapse => exact { h with }
  | registered _ htask => rcases (h.task_cases htask).2.2 with hother | ⟨_, hother⟩ <;> cases hother
  | beaten answer htask =>
      obtain ⟨rfl, hlist, _⟩ := h.task_cases htask
      exact h.heartbeatAnswered answer hlist
  | retried htask => rcases (h.task_cases htask).2.2 with hother | ⟨_, hother⟩ <;> cases hother
  | waited htask =>
      obtain ⟨rfl, hlist, _⟩ := h.task_cases htask
      exact h.sendHeartbeat hlist
  | listening hfunc => exact h.spawn hfunc
  | exit hexit => exact h.exit hexit
  | cluster _ hevent => exact h.cluster_step hevent

-- The primary at any time.
def Standing (config : Config) (state : State Uuid) : Prop :=
  Registers config state ∨ ∃ id, Beats config id state

theorem standing_step (state : State Uuid) (event : Event Uuid) (next : State Uuid)
    (h : Standing config state) (hs : step config state event = some next) :
    Standing config next := by
  rcases h with hregisters | ⟨id, hbeats⟩
  · exact registers_step hregisters hs
  · exact Or.inr ⟨id, beats_step hbeats hs⟩

theorem Standing.one_task (h : Standing config state) : state.tasks.length = 1 := by
  rcases h with hregisters | ⟨id, hbeats⟩
  · rcases hregisters.task with hlist | ⟨due, hlist⟩ <;> rw [hlist] <;> rfl
  · rcases hbeats.task with hlist | ⟨due, hlist⟩ <;> rw [hlist] <;> rfl

theorem registered_interval {service registered : ServiceInstance} {answer : Answer}
    (h : service.registered answer = .ok registered) :
    registered.interval = service.interval := by
  cases answer with
  | rejected message => cases h
  | resolved id =>
      cases id with
      | none => cases h
      | some id =>
          rw [ServiceInstance.registered, ServiceInstance.setId] at h
          split at h
          · cases h
          · exact Except.ok.inj h ▸ rfl

theorem paced_registerAnswered (h : Paced state) (answer : Answer) :
    Paced (state.registerAnswered 0 answer) := by
  unfold State.registerAnswered
  split
  · rename_i service hok
    have hinterval := registered_interval hok
    have hsame : Paced { state with service } := by
      refine ⟨h.past, ?_, ?_⟩
      · simp only [hinterval]
        exact h.spaced
      · simp only [hinterval]
        exact h.due
    have hcalled : Paced { state with service }.callFunc := by
      unfold State.callFunc
      split <;> exact { hsame with }
    exact hcalled.setTask fun _ hdue => (Option.some.inj hdue).symm
  · have hset : Paced (state.setTask 0 (.retrying (state.now + state.service.interval))) :=
      h.setTask fun _ hdue => (Option.some.inj hdue).symm
    exact { hset with }

theorem paced_scheduleHeartbeat (h : Paced state) (index : Nat) :
    Paced (state.scheduleHeartbeat index) :=
  h.setTask fun _ hdue => (Option.some.inj hdue).symm

theorem paced_step (state : State Uuid) (event : Event Uuid) (next : State Uuid)
    (hstanding : Standing config state) (h : Paced state)
    (hs : step config state event = some next) : Paced next := by
  have hone := hstanding.one_task
  have hindex : ∀ {index task}, state.tasks[index]? = some task → index = 0 := by
    intro index task htask
    obtain ⟨hlt, _⟩ := List.getElem?_eq_some_iff.mp htask
    omega
  cases step_stepped hs with
  | elapse =>
      refine ⟨fun request hr => Nat.le_add_right_of_le (h.past request hr), h.spaced, ?_⟩
      intro task hmem due htimer
      obtain ⟨hle, hspaced⟩ := h.due task hmem due htimer
      refine ⟨?_, hspaced⟩
      simp only
      omega
  | registered answer htask =>
      obtain rfl := hindex htask
      exact paced_registerAnswered h answer
  | beaten answer htask =>
      have hnext := fun index => paced_scheduleHeartbeat h index
      cases answer with
      | rejected message => exact { hnext _ with }
      | resolved id => exact hnext _
  | retried htask hdue => exact h.send _ htask rfl hdue rfl hone
  | waited htask hdue =>
      unfold State.sendHeartbeat
      split
      · exact h.send _ htask rfl hdue rfl hone
      · exact { paced_scheduleHeartbeat h _ with }
  | listening hfunc =>
      rcases hstanding with hregisters | ⟨id, hbeats⟩
      · cases hregisters.func.symm.trans hfunc
      · rcases hbeats.cluster with ⟨_, _, verbose, hcluster⟩ | ⟨hother, _⟩
        · rw [spawn_of_some hbeats.registered hcluster]
          exact { h with }
        · cases hfunc.symm.trans hother
  | exit =>
      unfold State.restartWorker
      split <;> exact { h with }
  | cluster => exact { h with }

end Stages

-- In every run of the primary there is one chain of requests, a POST until the API gives
-- the instance an id and then PATCHes for that id, with the interval between them. Nothing
-- escapes it, the id stays, and workers are forked for it only, when the API server
-- listens; from then on they run as a cluster.
theorem registration_sound (config : Config) (service : ServiceInstance)
    (hid : service.id = none) (events later : List (Event Uuid)) (state last : State Uuid)
    (hrun : run (step config) (State.initial config service) events = some state)
    (hlater : run (step config) state later = some last) :
    Paced last ∧ (Registers config last ∨ ∃ id, Beats config id last) ∧
      ∀ id, Beats config id state → Beats config id last := by
  have hboth : ∀ (state : State Uuid) event next, Standing config state ∧ Paced state →
      step config state event = some next → Standing config next ∧ Paced next :=
    fun state event next h hs =>
      ⟨standing_step state event next h.1 hs, paced_step state event next h.1 h.2 hs⟩
  have hinitial : Standing config (State.initial config service : State Uuid) ∧
      Paced (State.initial config service : State Uuid) :=
    ⟨Or.inl (registers_initial config hid), paced_initial config service⟩
  obtain ⟨hstanding, hpaced⟩ := run_invariant hboth (run_invariant hboth hinitial hrun) hlater
  refine ⟨hpaced, hstanding, fun id hbeats => ?_⟩
  exact run_invariant (fun _ _ _ h hs => beats_step h hs) hbeats hlater

-- The API is down at first, then answers without an id. After the registration a worker is
-- killed and a heartbeat fails.
theorem registration_sound_retried :
    ∃ last : State String, last.service.id = some 7 ∧ last.func = .spawned ∧ Paced last ∧
      (Registers ⟨⟨2, false, 30, 120⟩, none⟩ last ∨
        ∃ id, Beats ⟨⟨2, false, 30, 120⟩, none⟩ id last) :=
  have hsound := registration_sound ⟨⟨2, false, 30, 120⟩, none⟩ {} rfl
    [.answer 0 (.rejected []), .elapse 10000, .timer 0, .answer 0 (.resolved none), .elapse 10000,
      .timer 0, .answer 0 (.resolved (some 7)), .listening]
    [.elapse 10000, .timer 0, .cluster (.kill 1), .cluster (.exit 1), .answer 0 (.rejected [])]
    _ _ (Option.some_get (by decide)).symm (Option.some_get (by decide)).symm
  ⟨_, by decide, by decide, hsound.1, hsound.2.1⟩

section Lost

def Event.asks : Event Uuid → Bool
  | .cluster event => event.asks
  | _ => false

-- What asks for a drain comes before the workers are spawned.
def Early (state : State Uuid) (event : Event Uuid) : Prop :=
  event.asks = true → state.func ≠ .spawned

theorem undue_unspawned (verbose : Bool) (workerId : Nat) :
    ¬(unspawned verbose : Cluster.State Uuid).Due workerId := by
  rintro ((⟨entry, he⟩ | ⟨sent, hmem, _⟩) | ⟨process, hget, _⟩)
  · cases he
  · cases hmem
  · cases hget

theorem undue_spawned (clusterConfig : Cluster.Config) (verbose : Bool) (workerId : Nat) :
    ¬(Cluster.State.spawned clusterConfig verbose : Cluster.State Uuid).Due workerId := by
  obtain ⟨hfresh, hstates, hsent⟩ := Cluster.initial_fresh clusterConfig
    (Cluster.State.initial clusterConfig : Cluster.State Uuid) rfl
  rintro ((⟨entry, he⟩ | ⟨sent, hmem, _⟩) | ⟨process, hget, _, hheads⟩)
  · rw [Cluster.State.spawned, hstates] at he
    cases he
  · rw [Cluster.State.spawned, hsent] at hmem
    cases hmem
  · obtain ⟨hworker, hinbox⟩ := hfresh workerId process hget
    rw [hworker, hinbox] at hheads
    rcases hheads with ⟨drain, hmem, _⟩ | hmem <;> cases hmem

theorem Beats.sound {id : Nat} (h : Beats config id state) (hfunc : state.func = .spawned) :
    Cluster.Sound config.toConfig state.cluster := by
  rcases h.cluster with ⟨hother, _⟩ | ⟨_, verbose, events, hrun, _⟩
  · cases hfunc.symm.trans hother
  · exact run_invariant Cluster.sound_step (sound_spawned config.toConfig verbose) hrun

theorem undue_cluster {event : Cluster.Event Uuid} {cluster : Cluster.State Uuid}
    (h : Standing config state) (hundue : ∀ workerId, ¬state.cluster.Due workerId)
    (hquiet : event.asks = true → state.func ≠ .spawned)
    (hs : Cluster.step config.toConfig state.cluster event = some cluster) (workerId : Nat) :
    ¬cluster.Due workerId := by
  have hblank : ∀ {verbose}, state.cluster = unspawned verbose → ¬cluster.Due workerId := by
    intro verbose hcluster
    rw [hcluster] at hs
    obtain ⟨_, later, rfl⟩ := unspawned_step hs
    exact undue_unspawned later workerId
  rcases h with hregisters | ⟨id, hbeats⟩
  · exact hblank hregisters.cluster.choose_spec
  · rcases hbeats.cluster with ⟨_, _, verbose, hcluster⟩ | ⟨hfunc, _⟩
    · exact hblank hcluster
    · have hno : event.asks = false := Bool.not_eq_true _ ▸ fun hasks => hquiet hasks hfunc
      exact mt (Cluster.due_back (hbeats.sound hfunc) hs hno) (hundue workerId)

theorem undue_step (state : State Uuid) (event : Event Uuid) (next : State Uuid)
    (h : Standing config state) (hundue : ∀ workerId, ¬state.cluster.Due workerId)
    (hearly : Early state event) (hs : step config state event = some next) :
    ∀ workerId, ¬next.cluster.Due workerId := by
  cases step_stepped hs with
  | elapse => exact hundue
  | registered answer =>
      unfold State.registerAnswered State.callFunc
      split
      · split <;> exact hundue
      · exact hundue
  | beaten answer => cases answer <;> exact hundue
  | retried => exact hundue
  | waited =>
      unfold State.sendHeartbeat
      split <;> exact hundue
  | listening hfunc =>
      rcases h with hregisters | ⟨id, hbeats⟩
      · cases hregisters.func.symm.trans hfunc
      · rcases hbeats.cluster with ⟨_, _, verbose, hcluster⟩ | ⟨hother, _⟩
        · rw [spawn_of_some hbeats.registered hcluster]
          exact undue_spawned config.toConfig verbose
        · cases hfunc.symm.trans hother
  | @exit workerId cluster hcluster =>
      have hnext : cluster = state.cluster.restartWorker config.toConfig workerId := by
        cases (Cluster.step_stepped hcluster).2
        rfl
      have hquiet : (Cluster.Event.exit workerId : Cluster.Event Uuid).asks = true →
          state.func ≠ .spawned := fun hasks => absurd hasks Bool.false_ne_true
      have hlater := undue_cluster h hundue hquiet hcluster
      unfold State.restartWorker
      split
      · exact hnext ▸ hlater
      · exact hundue
  | cluster _ hcluster => exact undue_cluster h hundue hearly hcluster

theorem running_of_undue {clusterConfig : Cluster.Config} {cluster : Cluster.State Uuid}
    (h : Cluster.Sound clusterConfig cluster) (hundue : ∀ workerId, ¬cluster.Due workerId) :
    cluster.exitCode = none := by
  refine h.running.resolve_right fun hexit => ?_
  obtain ⟨hpos, _⟩ := h.exitCode.mp hexit
  rw [OrderedMap.size_eq_length_keys] at hpos
  obtain ⟨key, hkey⟩ := List.exists_mem_of_length_pos hpos
  rw [OrderedMap.mem_keys_iff] at hkey
  exact hundue key (Or.inl (Or.inl (Option.isSome_iff_exists.mp hkey)))

end Lost

-- A SIGTERM that comes while the primary registers is lost: if nothing asks for a drain once
-- the workers are there, none of them ever drains, and the primary does not exit.
theorem early_sigterm_lost (config : Config) (service : ServiceInstance)
    (hid : service.id = none) (events : List (Event Uuid)) (last : State Uuid)
    (hrun : run (step config) (State.initial config service) events = some last)
    (hearly : StepsMeet (step config) Early (State.initial config service) events) :
    last.cluster.exitCode = none ∧ last.uncaught = none ∧
      ∀ workerId, ¬last.cluster.Due workerId := by
  have hinitial : Standing config (State.initial config service : State Uuid) :=
    Or.inl (registers_initial config hid)
  have hstanding : Standing config last := run_invariant standing_step hinitial hrun
  have hblank : ∀ workerId,
      ¬(State.initial config service : State Uuid).cluster.Due workerId :=
    undue_unspawned config.DEFAULT_VERBOSE_LOGS
  have hundue := (throughout_of_stepsMeet standing_step undue_step hinitial hblank hearly).last hrun
  rcases hstanding with hregisters | ⟨id, hbeats⟩
  · obtain ⟨verbose, hcluster⟩ := hregisters.cluster
    exact ⟨by rw [hcluster]; rfl, hregisters.uncaught, hundue⟩
  · refine ⟨?_, hbeats.uncaught, hundue⟩
    rcases hbeats.cluster with ⟨_, _, verbose, hcluster⟩ | ⟨hfunc, _⟩
    · rw [hcluster]
      rfl
    · exact running_of_undue (hbeats.sound hfunc) hundue

-- The SIGTERM finds no worker to tell. Later both workers run and serve.
theorem early_sigterm_lost_registering :
    ∃ last : State String, last.func = .spawned ∧ last.cluster.exitCode = none ∧
      ∀ workerId, ¬last.cluster.Due workerId := by
  have hlost := early_sigterm_lost ⟨⟨2, false, 30, 120⟩, none⟩ {} rfl
    ([.cluster .SIGTERM, .answer 0 (.resolved (some 7)), .listening,
      .cluster (.worker 1 .ready), .cluster (.worker 2 .ready)] : List (Event String))
    _ (Option.some_get (by decide)).symm ?_
  · exact ⟨_, by decide, hlost.1, hlost.2.2⟩
  · refine ⟨fun _ => nofun, fun _ _ => ⟨nofun, fun _ _ => ⟨nofun, fun _ _ => ⟨nofun, fun _ _ =>
      ⟨nofun, fun _ _ => trivial⟩⟩⟩⟩⟩

end OpenBalenaVpn.Registration
