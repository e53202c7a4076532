import OpenBalenaVpn.Cluster.Completion
import OpenBalenaVpn.Worker.Turns

namespace OpenBalenaVpn.Cluster

open Transition

variable {Uuid : Type} {config : Config} {cluster next : State Uuid}

-- A message to a process may start a drain.
def Process.turnsLeft (clients : Nat) (process : Process Uuid) : Nat :=
  if process.alive then process.inbox.length * (clients + 4) + process.worker.turnsLeft clients
  else 0

def State.turnsLeft (clients : Nat) (cluster : State Uuid) : Nat :=
  cluster.sent.length + (cluster.processes.values.map (Process.turnsLeft clients)).sum

def Event.cost (config : Config) (clients : Nat) : Event Uuid → Nat
  | .SIGTERM | .SIGUSR2 => config.VPN_INSTANCE_COUNT * (clients + 4) + 1
  | .worker _ event => event.cost clients
  | .kill _ | .exit _ => 1
  | .receive _ | .message _ => 0

def Event.establishes : Event Uuid → Bool
  | .worker _ event => event.establishes
  | _ => false

-- No cache will hold more clients than this when the events are over.
structure Ahead (config : Config) (clients : Nat) (events : List (Event Uuid))
    (cluster : State Uuid) : Prop where
  sound : Sound config cluster
  size : ∀ workerId process, cluster.processes.get workerId = some process →
    process.worker.clientCache.size + events.countP Event.establishes ≤ clients

theorem ahead_step (clients : Nat) (cluster : State Uuid) (event : Event Uuid)
    (events : List (Event Uuid)) (next : State Uuid)
    (h : Ahead config clients (event :: events) cluster)
    (hs : step config cluster event = some next) : Ahead config clients events next := by
  refine ⟨sound_step cluster event next h.sound hs, fun workerId later hget => ?_⟩
  obtain ⟨process, hold, hcontinued⟩ := h.sound.before hs hget
  have hsize := h.size workerId process hold
  have hregistered := (h.sound.underway workerId process hold).reported.registered
  rw [List.countP_cons] at hsize
  have hkept : ∀ {size : Nat}, size ≤ process.worker.clientCache.size →
      size + events.countP Event.establishes ≤ clients := fun hle => by omega
  cases hcontinued with
  | same | SIGTERM | SIGUSR2 | kill => exact hkept (Nat.le_refl _)
  | @worker workerEvent worker _ _ hworker =>
      have hgrown := Worker.size_step hregistered hworker
      have hsame : (Event.worker workerId workerEvent).establishes = workerEvent.establishes := rfl
      rw [hsame] at hsize
      simp only
      cases he : workerEvent.establishes <;> simp only [he, if_true] at hsize hgrown <;> omega
  | @receive order inbox worker _ _ hworker =>
      have hgrown := Worker.size_step hregistered hworker
      have horder : (order.event : Worker.Event Uuid).establishes = false := by cases order <;> rfl
      rw [horder, if_neg Bool.false_ne_true] at hgrown
      exact hkept hgrown
  | exit => exact hkept (Nat.zero_le _)

theorem size_processes_le (h : Sound config cluster) :
    cluster.processes.size ≤ config.VPN_INSTANCE_COUNT := by
  have hsub : cluster.processes.keys.toFinset ⊆ Finset.Icc 1 config.VPN_INSTANCE_COUNT := by
    intro workerId hmem
    rw [List.mem_toFinset, OrderedMap.mem_keys_iff] at hmem
    obtain ⟨process, hget⟩ := Option.isSome_iff_exists.mp hmem
    exact Finset.mem_Icc.mpr (h.traced.processes workerId process hget).1
  have hcard := Finset.card_le_card hsub
  rw [List.toFinset_card_of_nodup cluster.processes.keys_nodup, Nat.card_Icc,
    ← OrderedMap.size_eq_length_keys] at hcard
  omega

theorem sum_map_le_add {α : Type*} {f g : α → Nat} {bound : Nat} (h : ∀ a, f a ≤ g a + bound)
    (list : List α) : (list.map f).sum ≤ (list.map g).sum + list.length * bound := by
  induction list with
  | nil => exact Nat.zero_le _
  | cons head list ih =>
      have hhead := h head
      simp only [List.map_cons, List.sum_cons, List.length_cons, Nat.succ_mul]
      omega

theorem broadcast_turnsLeft (clients : Nat) (h : Sound config cluster) (order : Order) :
    (cluster.broadcast order).turnsLeft clients ≤
      cluster.turnsLeft clients + config.VPN_INSTANCE_COUNT * (clients + 4) := by
  have hone : ∀ process : Process Uuid,
      Process.turnsLeft clients { process with inbox := process.inbox ++ [order] } ≤
        process.turnsLeft clients + (clients + 4) := by
    intro process
    have halive : Process.alive { process with inbox := process.inbox ++ [order] } =
        process.alive := rfl
    simp only [Process.turnsLeft, halive, List.length_append, List.length_singleton, Nat.succ_mul]
    split <;> omega
  have hvalues : (cluster.broadcast order).processes.values =
      cluster.processes.values.map fun process =>
        { process with inbox := process.inbox ++ [order] } := by
    simp [State.broadcast, OrderedMap.values, OrderedMap.mapValues]
  have hsum := sum_map_le_add hone cluster.processes.values
  have hsize := Nat.mul_le_mul_right (clients + 4) (size_processes_le h)
  rw [OrderedMap.length_values] at hsum
  rw [State.turnsLeft, State.turnsLeft, hvalues, List.map_map]
  simp only [Function.comp_def]
  change cluster.sent.length + _ ≤ _
  omega

-- What a turn of a process adds, to the process and to the messages that are on their way.
theorem turn_turnsLeft {clients workerId : Nat} {old process : Process Uuid}
    {event : Worker.Event Uuid} {saved : Nat} (hget : cluster.processes.get workerId = some old)
    (hs : cluster.turn config workerId process event = some next)
    (hturn : ∀ worker, process.killed = false →
      Worker.step (config.worker workerId) process.worker event = some worker →
      process.inbox.length * (clients + 4) + worker.turnsLeft clients +
        (worker.sent.length - process.worker.sent.length) + 1 ≤ old.turnsLeft clients + saved) :
    next.turnsLeft clients + 1 ≤ cluster.turnsLeft clients + saved := by
  obtain ⟨hkilled, worker, hworker, rfl⟩ := turn_eq_some hs
  have hone := hturn worker hkilled hworker
  have hsum := OrderedMap.sum_values_set_add hget (Process.turnsLeft clients)
    { process with worker }
  have hleft : Process.turnsLeft clients { process with worker } ≤
      process.inbox.length * (clients + 4) + worker.turnsLeft clients := by
    simp only [Process.turnsLeft]
    split <;> omega
  simp only [State.turnsLeft, List.length_append, List.length_map, List.length_drop]
  omega

theorem Process.turnsLeft_of_alive (clients : Nat) {process : Process Uuid}
    (halive : process.alive = true) : process.turnsLeft clients =
      process.inbox.length * (clients + 4) + process.worker.turnsLeft clients := by
  rw [Process.turnsLeft, if_pos halive]

-- The cluster's own turns use up those that it has left.
theorem turnsLeft_step (clients : Nat) (cluster : State Uuid) (event : Event Uuid)
    (events : List (Event Uuid)) (next : State Uuid)
    (h : Ahead config clients (event :: events) cluster)
    (hs : step config cluster event = some next) :
    next.turnsLeft clients + 1 ≤ cluster.turnsLeft clients + event.cost config clients := by
  have hstep : ∀ {workerId : Nat} {process : Process Uuid} {workerEvent worker},
      cluster.processes.get workerId = some process → process.killed = false →
      Worker.step (config.worker workerId) process.worker workerEvent = some worker →
      process.alive = true ∧ worker.turnsLeft clients +
          (worker.sent.length - process.worker.sent.length) + 1 ≤
        process.worker.turnsLeft clients + workerEvent.cost clients := by
    intro workerId process workerEvent worker hget hkilled hworker
    have hsize := h.size workerId process hget
    refine ⟨by simp [Process.alive, hkilled, Worker.exitCode_of_step hworker], ?_⟩
    exact Worker.turnsLeft_step (h.sound.underway workerId process hget) (by omega) hworker
  cases (step_stepped hs).2 with
  | SIGTERM | SIGUSR2 =>
      have hbroadcast := fun order => broadcast_turnsLeft clients h.sound order
      exact Nat.succ_le_succ (hbroadcast _)
  | @worker _ workerId workerEvent process _ hget hturn =>
      refine turn_turnsLeft hget hturn fun worker hkilled hworker => ?_
      obtain ⟨halive, hone⟩ := hstep hget hkilled hworker
      rw [Process.turnsLeft_of_alive clients halive, Event.cost]
      omega
  | @receive _ workerId process order inbox hget hinbox hturn =>
      refine turn_turnsLeft hget hturn fun worker hkilled hworker => ?_
      obtain ⟨halive, hone⟩ := hstep hget hkilled hworker
      have hcost : (order.event : Worker.Event Uuid).cost clients ≤ clients + 4 := by
        cases order <;> simp [Order.event, Worker.Event.cost]
      rw [Process.turnsLeft_of_alive clients halive, hinbox, List.length_cons, Nat.succ_mul]
      simp only at hone ⊢
      omega
  | @kill workerId process hget halive =>
      have hsum := OrderedMap.sum_values_set_add hget (Process.turnsLeft clients)
        { process with killed := true }
      have hdead : Process.turnsLeft clients { process with killed := true } = 0 := by
        simp [Process.turnsLeft, Process.alive]
      simp only [State.turnsLeft, Event.cost]
      omega
  | @exit workerId process hget hdead =>
      have hsum := OrderedMap.sum_values_set_add hget (Process.turnsLeft clients)
        ⟨cluster.nextPid, [], .initial config.DEFAULT_VERBOSE_LOGS, false⟩
      have hfresh : Process.turnsLeft clients (⟨cluster.nextPid, [],
          .initial config.DEFAULT_VERBOSE_LOGS, false⟩ : Process Uuid) = 0 := by
        simp [Process.turnsLeft, Process.alive, Worker.State.initial, Worker.State.turnsLeft]
      simp only [State.turnsLeft, State.restartWorker, Event.cost]
      omega
  | @message pid sent hfind =>
      obtain ⟨hprocesses, _, hsent, _⟩ := onMessage_frame config
        { cluster with sent := cluster.sent.eraseP (·.pid = pid) } sent
      obtain ⟨hmem, hpid⟩ := find_sent hfind
      have hlength : (cluster.sent.eraseP (·.pid = pid)).length = cluster.sent.length - 1 :=
        List.length_eraseP_of_mem hmem (decide_eq_true hpid)
      have hpos := List.length_pos_of_mem hmem
      simp only [State.turnsLeft, Event.cost, hprocesses, hsent]
      omega

theorem cost_of_turns (config : Config) (clients : Nat) {event : Event Uuid}
    (h : event.turns = true) :
    event.cost config clients = 0 ∧ event.establishes = false := by
  unfold Event.turns at h
  split at h
  · exact ⟨rfl, rfl⟩
  · exact ⟨rfl, rfl⟩
  · exact ⟨rfl, rfl⟩
  · exact ⟨rfl, rfl⟩
  · cases h

theorem ahead_initial (config : Config) (events : List (Event Uuid)) :
    Ahead config (events.countP Event.establishes) events (State.initial config) := by
  refine ⟨sound_initial config, fun workerId process hget => ?_⟩
  rw [((initial_fresh config _ rfl).1 workerId process hget).1]
  exact Nat.le_of_eq (Nat.zero_add _)

theorem Ahead.turns {clients : Nat} {events : List (Event Uuid)}
    (h : Ahead config clients [] cluster) (hturns : ∀ event ∈ events, event.turns = true) :
    Ahead config clients events cluster := by
  refine ⟨h.sound, fun workerId process hget => ?_⟩
  have hnone : events.countP Event.establishes = 0 := List.countP_eq_zero.mpr fun event hmem => by
    simp [(cost_of_turns config clients (hturns event hmem)).2]
  rw [hnone]
  exact h.size workerId process hget

theorem turnsLeft_initial (config : Config) (clients : Nat) :
    (State.initial config : State Uuid).turnsLeft clients = 0 := by
  obtain ⟨hfresh, _, hsent⟩ := initial_fresh config (State.initial config : State Uuid) rfl
  have hzero : ∀ process ∈ (State.initial config : State Uuid).processes.values,
      process.turnsLeft clients = 0 := by
    intro process hmem
    obtain ⟨workerId, hget⟩ := OrderedMap.exists_get_of_mem hmem
    obtain ⟨hworker, hinbox⟩ := hfresh workerId process hget
    simp [Process.turnsLeft, hworker, hinbox, Worker.State.turnsLeft, Worker.State.initial]
  rw [State.turnsLeft, hsent, List.length_nil, Nat.zero_add, List.map_congr_left hzero]
  simp

-- The turns that the primary and its workers take by themselves are limited by what
-- happened to them, and however they take them they come to rest.
theorem cluster_comes_to_rest (config : Config) (events : List (Event Uuid))
    (cluster : State Uuid)
    (hrun : run (step config) (State.initial config) events = some cluster) :
    let clients := events.countP Event.establishes
    events.length + cluster.turnsLeft clients ≤ (events.map (Event.cost config clients)).sum ∧
      (∀ turns last, (∀ event ∈ turns, event.turns = true) →
        run (step config) cluster turns = some last → turns.length ≤ cluster.turnsLeft clients) ∧
      ∃ turns last, (∀ event ∈ turns, event.turns = true) ∧
        run (step config) cluster turns = some last ∧ last.Rest config := by
  intro clients
  have hinitial := ahead_initial config events
  have hahead : Ahead config clients [] cluster := run_ahead (ahead_step clients) hinitial hrun
  refine ⟨?_, fun turns last hturns hlater => ?_, ?_⟩
  · have hbound := length_add_rank_le_of_ahead (ahead_step clients) (turnsLeft_step clients)
      hinitial hrun
    rwa [turnsLeft_initial, Nat.zero_add] at hbound
  · have hbound := length_add_rank_le_of_ahead (ahead_step clients) (turnsLeft_step clients)
      (hahead.turns hturns) hlater
    have hfree : (turns.map (Event.cost config clients)).sum = 0 := by
      rw [List.map_congr_left fun event hmem =>
        (cost_of_turns config clients (hturns event hmem)).1]
      simp
    omega
  · have hone : ∀ (cluster : State Uuid) event next, Ahead config clients [] cluster →
        event.turns = true → step config cluster event = some next →
          Ahead config clients [] next ∧ next.turnsLeft clients < cluster.turnsLeft clients := by
      intro cluster event next h hturn hs
      have hsingle := h.turns (List.forall_mem_singleton.mpr hturn)
      have hleft := turnsLeft_step clients cluster event [] next hsingle hs
      rw [(cost_of_turns config clients hturn).1] at hleft
      exact ⟨ahead_step clients cluster event [] next hsingle hs, hleft⟩
    obtain ⟨turns, last, hturns, hlater, hrest, _⟩ := exists_run_to_rest
      (fun cluster event next h ht hs => (hone cluster event next h ht hs).1)
      (fun cluster event next h ht hs => (hone cluster event next h ht hs).2) cluster hahead
    exact ⟨turns, last, hturns, hlater, hrest⟩

-- A worker with one client is left to itself after a SIGTERM.
theorem cluster_comes_to_rest_single :
    ∃ turns last, (∀ event ∈ turns, (event : Event String).turns = true) ∧
      ((run (step ⟨1, false, 30, 120⟩) (State.initial ⟨1, false, 30, 120⟩)
        [.worker 1 .ready, .worker 1 (.established 7 "uuid" 0), .SIGTERM]).bind
          fun cluster => run (step ⟨1, false, 30, 120⟩) cluster turns) = some last ∧
      last.Rest ⟨1, false, 30, 120⟩ := by
  have hrun := (Option.some_get (x := run (step ⟨1, false, 30, 120⟩)
    (State.initial ⟨1, false, 30, 120⟩ : State String)
    [.worker 1 .ready, .worker 1 (.established 7 "uuid" 0), .SIGTERM]) (by decide)).symm
  obtain ⟨_, _, turns, last, hturns, hlater, hrest⟩ := cluster_comes_to_rest _ _ _ hrun
  exact ⟨turns, last, hturns, by rw [hrun]; exact hlater, hrest⟩

end OpenBalenaVpn.Cluster
