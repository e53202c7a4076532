import OpenBalenaVpn.Cluster.Shutdown
import OpenBalenaVpn.Worker.Underway

namespace OpenBalenaVpn.Cluster

open Transition

variable {Uuid : Type} {config : Config} {cluster next : State Uuid}

-- The primary has been told, or will be, that the instance is drained.
def State.Told (cluster : State Uuid) (instanceId : Nat) : Prop :=
  (∃ entry, cluster.workerStates.get instanceId = some entry) ∨
    ∃ sent ∈ cluster.sent, ∃ finished, sent.message = .drain instanceId finished

-- A live process that drains, or has yet to read that it should.
def Process.Heads (process : Process Uuid) : Prop :=
  process.alive = true ∧ (process.worker.Drains ∨ .prepareShutdown ∈ process.inbox)

def State.Due (cluster : State Uuid) (instanceId : Nat) : Prop :=
  cluster.Told instanceId ∨
    ∃ process, cluster.processes.get instanceId = some process ∧ process.Heads

def AllDue (config : Config) (cluster : State Uuid) : Prop :=
  ∀ workerId, 1 ≤ workerId ∧ workerId ≤ config.VPN_INSTANCE_COUNT → cluster.Due workerId

section Processes

-- What the worker of a process sends on a turn is on its way.
def State.Carries (cluster : State Uuid) (process : Process Uuid) (worker : Worker.State Uuid) :
    Prop :=
  ∀ message ∈ worker.sent.drop process.worker.sent.length, ⟨process.pid, message⟩ ∈ cluster.sent

-- What an event does to the process of an instance.
inductive Continued (config : Config) (next : State Uuid) (workerId : Nat)
    (process : Process Uuid) : Event Uuid → Process Uuid → Prop
  | same (event : Event Uuid) : Continued config next workerId process event process
  | SIGTERM : Continued config next workerId process .SIGTERM
      { process with inbox := process.inbox ++ [.prepareShutdown] }
  | SIGUSR2 : Continued config next workerId process .SIGUSR2
      { process with inbox := process.inbox ++ [.toggleVerbosity] }
  | worker {event : Worker.Event Uuid} {worker : Worker.State Uuid}
      (hevent : event ≠ .prepareShutdown) (hkilled : process.killed = false)
      (hworker : Worker.step (config.worker workerId) process.worker event = some worker)
      (hsent : next.Carries process worker) :
      Continued config next workerId process (.worker workerId event) { process with worker }
  | receive {order : Order} {inbox : List Order} {worker : Worker.State Uuid}
      (hinbox : process.inbox = order :: inbox) (hkilled : process.killed = false)
      (hworker : Worker.step (config.worker workerId) process.worker order.event = some worker)
      (hsent : next.Carries process worker) :
      Continued config next workerId process (.receive workerId) { process with inbox, worker }
  | kill : Continued config next workerId process (.kill workerId) { process with killed := true }
  | exit (hdead : process.alive = false) (pid : Nat) :
      Continued config next workerId process (.exit workerId)
        ⟨pid, [], .initial config.DEFAULT_VERBOSE_LOGS, false⟩

theorem get_set_cases {processes : OrderedMap Nat (Process Uuid)} {workerId other : Nat}
    {process changed old : Process Uuid} {event : Event Uuid}
    (hget : processes.get workerId = some process)
    (hchanged : Continued config next workerId process event changed)
    (hold : processes.get other = some old) :
    ∃ later, (processes.set workerId changed).get other = some later ∧
      Continued config next other old event later := by
  rw [OrderedMap.get_set]
  by_cases he : workerId = other
  · subst he
    obtain rfl := Option.some.inj (hget.symm.trans hold)
    exact ⟨changed, if_pos rfl, hchanged⟩
  · exact ⟨old, by rw [if_neg he, hold], .same event⟩

theorem step_continued {event : Event Uuid} (hs : step config cluster event = some next)
    {workerId : Nat} {process : Process Uuid}
    (hget : cluster.processes.get workerId = some process) :
    ∃ later, next.processes.get workerId = some later ∧
      Continued config next workerId process event later := by
  cases (step_stepped hs).2 with
  | SIGTERM => exact ⟨_, by rw [State.broadcast, OrderedMap.get_mapValues, hget]; rfl, .SIGTERM⟩
  | SIGUSR2 => exact ⟨_, by simp only [State.broadcast, OrderedMap.get_mapValues, hget]; rfl,
      .SIGUSR2⟩
  | worker hevent hown hturn =>
      obtain ⟨hkilled, worker, hworker, rfl⟩ := turn_eq_some hturn
      refine get_set_cases hown (.worker hevent.1 hkilled hworker ?_) hget
      exact fun message hm => List.mem_append_right _ (List.mem_map_of_mem hm)
  | receive hown hinbox hturn =>
      obtain ⟨hkilled, worker, hworker, rfl⟩ := turn_eq_some hturn
      refine get_set_cases hown (.receive hinbox hkilled hworker ?_) hget
      exact fun message hm => List.mem_append_right _ (List.mem_map_of_mem hm)
  | kill hown => exact get_set_cases hown .kill hget
  | exit hown hdead => exact get_set_cases hown (.exit hdead _) hget
  | message =>
      refine ⟨process, ?_, .same _⟩
      rw [(onMessage_frame config _ _).1]
      exact hget

end Processes

section Told

theorem mem_eraseP_or {α : Type*} {p : α → Bool} {list : List α} {first other : α}
    (hfind : list.find? p = some first) (hmem : other ∈ list) :
    other = first ∨ other ∈ list.eraseP p := by
  induction list with
  | nil => cases hmem
  | cons head list ih =>
      cases hp : p head with
      | true =>
          rw [List.find?_cons_of_pos hp] at hfind
          rw [List.eraseP_cons_of_pos hp]
          obtain rfl := Option.some.inj hfind
          exact List.mem_cons.mp hmem
      | false =>
          have hneg : ¬p head = true := by simp [hp]
          rw [List.find?_cons_of_neg hneg] at hfind
          rw [List.eraseP_cons_of_neg hneg, List.mem_cons]
          rcases List.mem_cons.mp hmem with rfl | hlater
          · exact Or.inr (Or.inl rfl)
          · exact (ih hfind hlater).imp_right Or.inr

-- An event other than a message of the primary leaves its entries, and the messages on
-- their way to it.
theorem step_sent {event : Event Uuid} (hs : step config cluster event = some next) :
    (∃ pid sent, event = .message pid ∧ cluster.sent.find? (·.pid = pid) = some sent ∧
      next = { cluster with sent := cluster.sent.eraseP (·.pid = pid) }.onMessage config sent) ∨
    next.workerStates = cluster.workerStates ∧ next.exitCode = none ∧
      ∃ messages, next.sent = cluster.sent ++ messages := by
  obtain ⟨hnone, hstepped⟩ := step_stepped hs
  cases hstepped with
  | SIGTERM | SIGUSR2 | kill | exit =>
      exact Or.inr ⟨rfl, hnone, [], (List.append_nil _).symm⟩
  | worker _ _ hturn | receive _ _ hturn =>
      obtain ⟨_, worker, _, rfl⟩ := turn_eq_some hturn
      exact Or.inr ⟨rfl, hnone, _, rfl⟩
  | @message pid sent hfind => exact Or.inl ⟨pid, sent, rfl, hfind, rfl⟩

theorem told_step {event : Event Uuid} {instanceId : Nat} (h : cluster.Told instanceId)
    (hs : step config cluster event = some next) : next.Told instanceId := by
  rcases step_sent hs with ⟨pid, sent, _, hfind, rfl⟩ | ⟨hstates, _, messages, hsent⟩
  · have hsame := (onMessage_frame config
      { cluster with sent := cluster.sent.eraseP (·.pid = pid) } sent).2.2.1
    rcases h with ⟨entry, he⟩ | ⟨other, hmem, finished, hdrain⟩
    · left
      unfold State.onMessage
      split
      · rename_i key _ _
        by_cases hk : key = instanceId
        · exact ⟨_, by simp only [hk, OrderedMap.get_set_self]; rfl⟩
        · exact ⟨entry, by simp only [OrderedMap.get_set_of_ne _ _ _ _ hk, he]⟩
      · exact ⟨entry, he⟩
    · rcases mem_eraseP_or hfind hmem with rfl | hrest
      · left
        simp only [State.onMessage, hdrain, OrderedMap.get_set_self]
        exact ⟨_, rfl⟩
      · exact Or.inr ⟨other, hsame ▸ hrest, finished, hdrain⟩
  · rcases h with he | ⟨other, hmem, hdrain⟩
    · exact Or.inl (hstates ▸ he)
    · refine Or.inr ⟨other, ?_, hdrain⟩
      rw [hsent]
      exact List.mem_append_left _ hmem

-- A drain message comes from the process of its instance, which was draining.
theorem told_back {event : Event Uuid} {instanceId : Nat}
    (hregistered : ∀ workerId process, cluster.processes.get workerId = some process →
      Worker.Registered process.worker)
    (hs : step config cluster event = some next) (h : next.Told instanceId) :
    cluster.Told instanceId ∨ ∃ process, cluster.processes.get instanceId = some process ∧
      process.alive = true ∧ process.worker.Drains := by
  have hturn : ∀ {workerId : Nat} {process : Process Uuid} (changed : Process Uuid) {workerEvent},
      cluster.processes.get workerId = some process → changed.worker = process.worker →
      changed.killed = process.killed →
      cluster.turn config workerId changed workerEvent = some next →
      cluster.Told instanceId ∨ ∃ process, cluster.processes.get instanceId = some process ∧
        process.alive = true ∧ process.worker.Drains := by
    intro workerId process changed workerEvent hget hsame hkill hturn
    obtain ⟨hkilled, worker, hworker, rfl⟩ := turn_eq_some hturn
    rw [hsame] at hworker
    rcases h with he | ⟨sent, hmem, finished, hdrain⟩
    · exact Or.inl (Or.inl he)
    · rcases List.mem_append.mp hmem with hold | hnew
      · exact Or.inl (Or.inr ⟨sent, hold, finished, hdrain⟩)
      · obtain ⟨message, hm, rfl⟩ := List.mem_map.mp hnew
        obtain rfl : message = .drain instanceId finished := hdrain
        obtain ⟨messages, hsent, hown⟩ := Worker.step_sends _ hworker
        rw [hsame] at hm
        have hin := hm
        rw [hsent, List.drop_left] at hin
        obtain ⟨rfl, rfl⟩ := hown instanceId finished hin
        obtain ⟨index, drain, ⟨⟨earlier, hearlier, hrunning⟩, _⟩, _⟩ :=
          (Worker.step_drainStep (hregistered _ _ hget) hworker).ends_of_sends hm
        have halive : process.alive = true := by
          simp [Process.alive, ← hkill, hkilled, Worker.exitCode_of_step hworker]
        exact Or.inr ⟨process, hget, halive, earlier, List.mem_of_getElem? hearlier, hrunning⟩
  cases (step_stepped hs).2 with
  | SIGTERM | SIGUSR2 | kill | exit => exact Or.inl h
  | worker _ hget ht => exact hturn _ hget rfl rfl ht
  | @receive _ workerId process order inbox hget _ ht =>
      exact hturn { process with inbox } hget rfl rfl ht
  | @message pid sent hfind =>
      obtain ⟨hmem, _⟩ := find_sent hfind
      left
      rcases h with ⟨entry, he⟩ | ⟨other, hother, hdrain⟩
      · rcases onMessage_workerStates config _ sent he with hold | ⟨finished, hdrain, _⟩
        · exact Or.inl ⟨entry, hold⟩
        · exact Or.inr ⟨sent, hmem, finished, hdrain⟩
      · rw [(onMessage_frame config _ sent).2.2.1] at hother
        exact Or.inr ⟨other, List.mem_of_mem_eraseP hother, hdrain⟩

end Told

section Sound

-- What every run of the cluster keeps.
structure Sound (config : Config) (cluster : State Uuid) : Prop where
  traced : Traced config cluster
  spawned : ∀ workerId, 1 ≤ workerId ∧ workerId ≤ config.VPN_INSTANCE_COUNT →
    ∃ process, cluster.processes.get workerId = some process
  underway : ∀ workerId process, cluster.processes.get workerId = some process →
    Worker.Underway (config.worker workerId) process.worker
  told : ∀ workerId process, cluster.processes.get workerId = some process →
    process.worker.Finished workerId → cluster.Told workerId
  exitCode : cluster.exitCode = some 0 ↔
    0 < cluster.workerStates.size ∧ config.VPN_INSTANCE_COUNT ≤ cluster.workerStates.size
  running : cluster.exitCode = none ∨ cluster.exitCode = some 0

theorem Continued.finished {event : Event Uuid} {workerId : Nat} {process later : Process Uuid}
    (h : Continued config next workerId process event later)
    (hfinished : later.worker.Finished workerId) :
    process.worker.Finished workerId ∨ next.Told workerId := by
  have hturn : ∀ {workerEvent worker},
      Worker.step (config.worker workerId) process.worker workerEvent = some worker →
      next.Carries process worker → worker.Finished workerId →
      process.worker.Finished workerId ∨ next.Told workerId := by
    intro workerEvent worker hworker hcarries hfin
    obtain ⟨messages, hsent, _⟩ := Worker.step_sends _ hworker
    rw [Worker.State.Finished, hsent] at hfin
    refine (List.mem_append.mp hfin).imp_right fun hnew => Or.inr ⟨_, hcarries _ ?_, true, rfl⟩
    rw [hsent, List.drop_left]
    exact hnew
  cases h with
  | same | SIGTERM | SIGUSR2 | kill => exact Or.inl hfinished
  | worker _ _ hworker hsent => exact hturn hworker hsent hfinished
  | receive _ _ hworker hsent => exact hturn hworker hsent hfinished
  | exit => cases hfinished

theorem Continued.underway {event : Event Uuid} {workerId : Nat} {process later : Process Uuid}
    (h : Continued config next workerId process event later)
    (hu : Worker.Underway (config.worker workerId) process.worker) :
    Worker.Underway (config.worker workerId) later.worker := by
  cases h with
  | same | SIGTERM | SIGUSR2 | kill => exact hu
  | worker _ _ hworker => exact hu.step hworker
  | receive _ _ hworker => exact hu.step hworker
  | exit => exact Worker.underway_initial _ _

-- A process after an event continues one before it.
theorem Sound.before {event : Event Uuid} (h : Sound config cluster)
    (hs : step config cluster event = some next) {workerId : Nat} {later : Process Uuid}
    (hget : next.processes.get workerId = some later) :
    ∃ process, cluster.processes.get workerId = some process ∧
      Continued config next workerId process event later := by
  have hrange := ((traced_step config cluster event next h.traced hs).processes _ _ hget).1
  obtain ⟨process, hold⟩ := h.spawned workerId hrange
  obtain ⟨same, hsame, hcontinued⟩ := step_continued hs hold
  obtain rfl := Option.some.inj (hsame.symm.trans hget)
  exact ⟨process, hold, hcontinued⟩

theorem exitCode_onMessage {sent : Sent Uuid} (hnone : cluster.exitCode = none)
    (h : ¬(0 < cluster.workerStates.size ∧
      config.VPN_INSTANCE_COUNT ≤ cluster.workerStates.size)) :
    ((cluster.onMessage config sent).exitCode = some 0 ↔
      0 < (cluster.onMessage config sent).workerStates.size ∧
        config.VPN_INSTANCE_COUNT ≤ (cluster.onMessage config sent).workerStates.size) ∧
    ((cluster.onMessage config sent).exitCode = none ∨
      (cluster.onMessage config sent).exitCode = some 0) := by
  unfold State.onMessage
  split
  · rename_i instanceId finished _
    have hpos : 0 < (cluster.workerStates.set instanceId
        ⟨instanceId, finished, sent.pid⟩).size := by
      rw [OrderedMap.size_set]
      exact List.length_pos_of_mem List.mem_insert_self
    simp only [ge_iff_le]
    split
    · rename_i hcount
      exact ⟨iff_of_true rfl ⟨hpos, hcount⟩, Or.inr rfl⟩
    · rename_i hcount
      exact ⟨iff_of_false (by simp [hnone]) fun hc => hcount hc.2, Or.inl hnone⟩
  · exact ⟨iff_of_false (by simp [hnone]) h, Or.inl hnone⟩

theorem sound_step (cluster : State Uuid) (event : Event Uuid) (next : State Uuid)
    (h : Sound config cluster) (hs : step config cluster event = some next) :
    Sound config next := by
  have hnone := (step_stepped hs).1
  have hcount := mt h.exitCode.mpr (by simp [hnone])
  have hexit : (next.exitCode = some 0 ↔ 0 < next.workerStates.size ∧
      config.VPN_INSTANCE_COUNT ≤ next.workerStates.size) ∧
      (next.exitCode = none ∨ next.exitCode = some 0) := by
    rcases step_sent hs with ⟨pid, sent, _, _, rfl⟩ | ⟨hstates, hsame, _⟩
    · exact exitCode_onMessage hnone hcount
    · rw [hstates, hsame]
      exact ⟨iff_of_false nofun hcount, Or.inl rfl⟩
  refine ⟨traced_step config cluster event next h.traced hs, fun workerId hrange => ?_,
    fun workerId later hget => ?_, fun workerId later hget hfinished => ?_, hexit.1, hexit.2⟩
  · obtain ⟨process, hold⟩ := h.spawned workerId hrange
    obtain ⟨later, hlater, _⟩ := step_continued hs hold
    exact ⟨later, hlater⟩
  · obtain ⟨process, hold, hcontinued⟩ := h.before hs hget
    exact hcontinued.underway (h.underway workerId process hold)
  · obtain ⟨process, hold, hcontinued⟩ := h.before hs hget
    rcases hcontinued.finished hfinished with hbefore | hnow
    · exact told_step (h.told workerId process hold hbefore) hs
    · exact hnow

theorem get_initial {workerId : Nat}
    (hrange : 1 ≤ workerId ∧ workerId ≤ config.VPN_INSTANCE_COUNT) :
    ∃ process, (State.initial config : State Uuid).processes.get workerId = some process := by
  have hfold : ∀ (ids : List Nat) (cluster : State Uuid),
      ((∃ process, cluster.processes.get workerId = some process) ∨ workerId - 1 ∈ ids) →
      ∃ process, (ids.foldl (fun cluster i => cluster.restartWorker config (i + 1))
        cluster).processes.get workerId = some process := by
    intro ids
    induction ids with
    | nil => exact fun cluster h => h.resolve_right List.not_mem_nil
    | cons i ids ih =>
        intro cluster h
        refine ih _ ?_
        by_cases hi : i + 1 = workerId
        · subst hi
          exact Or.inl ⟨_, OrderedMap.get_set_self ..⟩
        · rcases h with ⟨process, hget⟩ | hmem
          · exact Or.inl ⟨process, (OrderedMap.get_set_of_ne _ _ _ _ hi).trans hget⟩
          · exact Or.inr ((List.mem_cons.mp hmem).resolve_left (by omega))
  exact hfold _ _ (Or.inr (List.mem_range.mpr (by omega)))

-- What the processes are when the primary has spawned them.
theorem initial_fresh (config : Config) (cluster : State Uuid)
    (hinitial : cluster = State.initial config) :
    (∀ workerId process, cluster.processes.get workerId = some process →
      process.worker = .initial config.DEFAULT_VERBOSE_LOGS ∧ process.inbox = []) ∧
    cluster.workerStates = .empty ∧ cluster.sent = [] := by
  subst hinitial
  refine initial_keeps config (fun cluster => (∀ workerId process,
    cluster.processes.get workerId = some process →
      process.worker = .initial config.DEFAULT_VERBOSE_LOGS ∧ process.inbox = []) ∧
    cluster.workerStates = .empty ∧ cluster.sent = [])
    ⟨nofun, rfl, rfl⟩ fun cluster forked _ h => ⟨fun workerId process hget => ?_, h.2⟩
  rw [State.restartWorker, OrderedMap.get_set] at hget
  split at hget
  · exact Option.some.inj hget ▸ ⟨rfl, rfl⟩
  · exact h.1 workerId process hget

theorem sound_initial (config : Config) : Sound config (State.initial config : State Uuid) := by
  obtain ⟨hworker, hstates, _⟩ := initial_fresh config (State.initial config : State Uuid) rfl
  refine ⟨traced_initial config, fun workerId => get_initial, fun workerId process hget => ?_,
    fun workerId process hget hfinished => ?_, ?_, Or.inl (initial_exitCode config)⟩
  · rw [(hworker workerId process hget).1]
    exact Worker.underway_initial _ _
  · rw [(hworker workerId process hget).1] at hfinished
    cases hfinished
  · rw [initial_exitCode, hstates]
    exact iff_of_false nofun fun h => Nat.lt_irrefl 0 h.1

end Sound

section Due

-- A process hears the order while its worker is ready to drain, and none dies before its
-- worker has told the primary.
def Spares (cluster : State Uuid) : Event Uuid → Prop
  | .SIGTERM => ∀ workerId process, cluster.processes.get workerId = some process →
      process.alive = true ∨ cluster.Told workerId
  | .kill workerId | .worker workerId .fatalError => cluster.Told workerId
  | .receive workerId => ∀ process inbox, cluster.processes.get workerId = some process →
      process.inbox = .prepareShutdown :: inbox →
        process.worker.preparesShutdown = true ∨ process.worker.Drains ∨
          .prepareShutdown ∈ inbox ∨ cluster.Told workerId
  | _ => True

-- A turn of a worker that is to report: it goes on, reports, or dies.
theorem heads_turn {event : Worker.Event Uuid} {workerId : Nat} {process : Process Uuid}
    {worker : Worker.State Uuid} (inbox : List Order)
    (hu : Worker.Underway (config.worker workerId) process.worker)
    (hkilled : process.killed = false)
    (hs : Worker.step (config.worker workerId) process.worker event = some worker)
    (hfatal : event ≠ .fatalError)
    (h : worker.Drains ∨ worker.Finished workerId ∨ .prepareShutdown ∈ inbox) :
    worker.Finished workerId ∨ Process.Heads { process with inbox, worker } := by
  by_cases hfinished : worker.Finished workerId
  · exact Or.inl hfinished
  · have hexit : worker.exitCode = none := by
      by_contra hsome
      exact ((hu.exits hs hsome).resolve_left hfatal |> hfinished)
    refine Or.inr ⟨by simp [Process.alive, hkilled, hexit], ?_⟩
    exact h.imp_right fun hrest => hrest.resolve_left hfinished

theorem due_step {event : Event Uuid} (h : Sound config cluster)
    (hs : step config cluster event = some next) {workerId : Nat} (hdue : cluster.Due workerId)
    (hspares : Spares cluster event) : next.Due workerId := by
  have hsound := sound_step cluster event next h hs
  rcases hdue with htold | ⟨process, hget, halive, hheads⟩
  · exact Or.inl (told_step htold hs)
  · obtain ⟨later, hlater, hcontinued⟩ := step_continued hs hget
    have hu := h.underway workerId process hget
    have hreport : later.worker.Finished workerId ∨ later.Heads → next.Due workerId := by
      rintro (hfinished | hnow)
      · exact Or.inl (hsound.told workerId later hlater hfinished)
      · exact Or.inr ⟨later, hlater, hnow⟩
    cases hcontinued with
    | same => exact hreport (Or.inr ⟨halive, hheads⟩)
    | SIGTERM | SIGUSR2 =>
        exact hreport (Or.inr ⟨halive, hheads.imp_right (List.mem_append_left _)⟩)
    | @worker workerEvent worker _ hkilled hworker =>
        by_cases hfatal : workerEvent = .fatalError
        · subst hfatal
          exact Or.inl (told_step hspares hs)
        · refine hreport (heads_turn process.inbox hu hkilled hworker hfatal ?_)
          rcases hheads with hdrains | hinbox
          · exact (Worker.drains_step hdrains
              (Worker.step_drainStep hu.reported.registered hworker)).imp_right Or.inl
          · exact Or.inr (Or.inr hinbox)
    | @receive order inbox worker hinbox hkilled hworker =>
        have hfatal : (order.event : Worker.Event Uuid) ≠ .fatalError := by cases order <;> nofun
        have hdrains : process.worker.Drains → worker.Drains ∨ worker.Finished workerId ∨
            .prepareShutdown ∈ inbox := fun hdrains =>
          (Worker.drains_step hdrains
            (Worker.step_drainStep hu.reported.registered hworker)).imp_right Or.inl
        by_cases htold : cluster.Told workerId
        · exact Or.inl (told_step htold hs)
        · refine hreport (heads_turn inbox hu hkilled hworker hfatal ?_)
          rcases hheads with hnow | hmem
          · exact hdrains hnow
          · rw [hinbox, List.mem_cons] at hmem
            cases order with
            | toggleVerbosity => exact Or.inr (Or.inr (hmem.resolve_left nofun))
            | prepareShutdown =>
                rcases hspares process inbox hget hinbox with hready | hnow | hmore | htold'
                · exact (hu.prepareShutdown hready hworker).imp_right Or.inl
                · exact hdrains hnow
                · exact Or.inr (Or.inr hmore)
                · exact absurd htold' htold
    | kill => exact Or.inl (told_step hspares hs)
    | exit hdead => exact absurd (halive.symm.trans hdead) Bool.noConfusion

-- What asks a worker to drain.
def Event.asks : Event Uuid → Bool
  | .SIGTERM => true
  | .worker _ event => event.asks
  | _ => false

theorem drains_of_turn {event : Worker.Event Uuid} {workerId : Nat} {process : Process Uuid}
    {worker : Worker.State Uuid} (h : Sound config cluster)
    (hget : cluster.processes.get workerId = some process) (hquiet : event.asks = false)
    (hkilled : process.killed = false)
    (hs : Worker.step (config.worker workerId) process.worker event = some worker)
    (hdrains : worker.Drains) : cluster.Due workerId := by
  have halive : process.alive = true := by
    simp [Process.alive, hkilled, Worker.exitCode_of_step hs]
  have hsome : process.worker.drains ≠ [] := by
    intro hnil
    obtain ⟨drain, hmem, _⟩ := hdrains
    rw [Worker.drains_nil_step hnil hquiet hs] at hmem
    cases hmem
  rcases (h.underway workerId process hget).drains hsome with hnow | hfinished
  · exact Or.inr ⟨process, hget, halive, Or.inl hnow⟩
  · exact Or.inl (h.told workerId process hget hfinished)

-- An instance that is not due stays so until something asks for a drain again.
theorem due_back {event : Event Uuid} (h : Sound config cluster)
    (hs : step config cluster event = some next) (hquiet : event.asks = false) {workerId : Nat}
    (hdue : next.Due workerId) : cluster.Due workerId := by
  have hregistered := fun id process hget => (h.underway id process hget).reported.registered
  rcases hdue with htold | ⟨later, hlater, halive, hheads⟩
  · rcases told_back hregistered hs htold with hbefore | ⟨process, hget, halive, hdrains⟩
    · exact Or.inl hbefore
    · exact Or.inr ⟨process, hget, halive, Or.inl hdrains⟩
  · obtain ⟨process, hget, hcontinued⟩ := h.before hs hlater
    cases hcontinued with
    | same => exact Or.inr ⟨_, hget, halive, hheads⟩
    | SIGTERM => cases hquiet
    | SIGUSR2 =>
        refine Or.inr ⟨process, hget, halive, hheads.imp_right fun hmem => ?_⟩
        exact (List.mem_append.mp hmem).resolve_right (by simp)
    | worker _ hkilled hworker =>
        rcases hheads with hdrains | hinbox
        · exact drains_of_turn h hget hquiet hkilled hworker hdrains
        · refine Or.inr ⟨process, hget, ?_, Or.inr hinbox⟩
          simp [Process.alive, hkilled, Worker.exitCode_of_step hworker]
    | @receive order inbox worker hinbox hkilled hworker =>
        have hrunning : process.alive = true := by
          simp [Process.alive, hkilled, Worker.exitCode_of_step hworker]
        have hasked : ∀ {order}, order ∈ process.inbox → order = .prepareShutdown →
            cluster.Due workerId := fun hmem he =>
          Or.inr ⟨process, hget, hrunning, Or.inr (he ▸ hmem)⟩
        rcases hheads with hdrains | hmem
        · cases order with
          | prepareShutdown => exact hasked (hinbox ▸ List.mem_cons_self) rfl
          | toggleVerbosity => exact drains_of_turn h hget rfl hkilled hworker hdrains
        · exact hasked (hinbox ▸ List.mem_cons_of_mem order hmem) rfl
    | kill => simp [Process.alive] at halive
    | exit =>
        rcases hheads with ⟨drain, hmem, _⟩ | hmem <;> cases hmem

-- While every instance is due, an event that leaves them so spares them.
theorem spares_of_due {event : Event Uuid} (h : Sound config cluster)
    (hs : step config cluster event = some next)
    (hdue : AllDue config next) : Spares cluster event := by
  have hnone := (step_stepped hs).1
  -- an event that is no message of a worker tells the primary nothing
  have hback : ∀ {workerId : Nat}, next.workerStates = cluster.workerStates →
      next.sent = cluster.sent → next.Told workerId → cluster.Told workerId :=
    fun hstates hsent htold => by rwa [State.Told, hstates, hsent] at htold
  have hdead : ∀ {workerId : Nat} {process later : Process Uuid},
      cluster.processes.get workerId = some process →
      next.processes.get workerId = some later → ¬later.Heads → next.Told workerId := by
    intro workerId process later hget hlater hnot
    refine (hdue workerId (h.traced.processes workerId process hget).1).resolve_right ?_
    rintro ⟨other, hother, hheads⟩
    obtain rfl := Option.some.inj (hlater.symm.trans hother)
    exact hnot hheads
  cases (step_stepped hs).2 with
  | SIGTERM =>
      intro workerId process hget
      have hlater : (cluster.broadcast .prepareShutdown).processes.get workerId =
          some { process with inbox := process.inbox ++ [.prepareShutdown] } := by
        rw [State.broadcast, OrderedMap.get_mapValues, hget]
        rfl
      by_cases halive : process.alive = true
      · exact Or.inl halive
      · exact Or.inr (hback rfl rfl (hdead hget hlater fun hheads => halive hheads.1))
  | SIGUSR2 | message | exit => trivial
  | @kill workerId process hget =>
      exact hback rfl rfl (hdead hget (OrderedMap.get_set_self ..)
        fun hheads => by simp [Process.Heads, Process.alive] at hheads)
  | @worker _ workerId event process hevent hget hturn =>
      cases event with
      | fatalError =>
          obtain ⟨hkilled, worker, hworker, rfl⟩ := turn_eq_some hturn
          obtain rfl : { process.worker with exitCode := some 1 } = worker := by
            cases (Worker.step_stepped hworker).2
            rfl
          refine hback rfl (by simp) (hdead hget (OrderedMap.get_set_self ..)
            fun hheads => by simp [Process.Heads, Process.alive] at hheads)
      | _ => trivial
  | @receive _ workerId process order inbox hget hinbox hturn =>
      intro other rest hother hrest
      obtain rfl := Option.some.inj (hget.symm.trans hother)
      obtain ⟨rfl, rfl⟩ := List.cons.inj (hinbox.symm.trans hrest)
      obtain ⟨hkilled, worker, hworker, rfl⟩ := turn_eq_some hturn
      by_cases hready : process.worker.preparesShutdown = true
      · exact Or.inl hready
      · obtain rfl := Worker.prepareShutdown_tooEarly (Bool.not_eq_true _ ▸ hready) hworker
        by_cases hheads : process.worker.Drains ∨ .prepareShutdown ∈ inbox
        · exact Or.inr (hheads.imp_right Or.inl)
        · refine Or.inr (Or.inr (Or.inr (hback rfl (by simp) (hdead hget
            (OrderedMap.get_set_self ..) fun hnow => hheads hnow.2))))

end Due

section Rest

-- What the processes do by themselves: a message is read, HAProxy takes a command, or a
-- timer fires.
def Event.turns : Event Uuid → Bool
  | .receive _ | .message _ | .worker _ (.haproxy _ true) | .worker _ (.timeout _) => true
  | _ => false

def State.Rest (config : Config) (cluster : State Uuid) : Prop :=
  ∀ event : Event Uuid, event.turns = true → step config cluster event = none

theorem turn_isSome {process : Process Uuid} {workerId : Nat} {event : Worker.Event Uuid}
    (hkilled : process.killed = false)
    (hs : (Worker.step (config.worker workerId) process.worker event).isSome = true) :
    cluster.turn config workerId process event ≠ none := by
  obtain ⟨worker, hworker⟩ := Option.isSome_iff_exists.mp hs
  simp [State.turn, hkilled, hworker]

theorem order_isSome {worker : Worker.State Uuid} (hrunning : worker.exitCode = none)
    (workerConfig : Worker.Config) (order : Order) :
    (Worker.step workerConfig worker order.event).isSome = true := by
  cases order <;> simp [Worker.step, Order.event, hrunning]

-- An instance that is due has been counted, or something can still happen.
theorem counted_of_due (hnone : cluster.exitCode = none) (hrest : cluster.Rest config)
    {workerId : Nat} (hdue : cluster.Due workerId) :
    ∃ entry, cluster.workerStates.get workerId = some entry := by
  rcases hdue with (hentry | ⟨sent, hmem, _⟩) | ⟨process, hget, halive, hheads⟩
  · exact hentry
  · obtain ⟨first, hfirst⟩ : ∃ first, cluster.sent.find? (·.pid = sent.pid) = some first :=
      Option.isSome_iff_exists.mp (List.find?_isSome.mpr ⟨sent, hmem, by simp⟩)
    exact absurd (hrest (.message sent.pid) rfl) (by simp [step, hnone, hfirst])
  · obtain ⟨hkilled, hrunning⟩ : process.killed = false ∧ process.worker.exitCode = none := by
      simpa [Process.alive] using halive
    have hstuck : ∀ event : Worker.Event Uuid, event ≠ .prepareShutdown →
        event ≠ .toggleVerbosity → (Event.worker workerId event).turns = true →
        ¬(Worker.step (config.worker workerId) process.worker event).isSome = true := by
      intro event hshutdown htoggle hturns hs
      have hnext := hrest (.worker workerId event) hturns
      cases event <;> simp_all [step, turn_isSome]
    rcases hheads with hdrains | hinbox
    · obtain ⟨index, hproxy | htimer⟩ := hdrains.enabled hrunning
      · exact absurd hproxy (hstuck _ nofun nofun rfl)
      · exact absurd htimer (hstuck _ nofun nofun rfl)
    · obtain ⟨order, inbox, hcons⟩ := List.exists_cons_of_ne_nil (List.ne_nil_of_mem hinbox)
      have hturn : cluster.turn config workerId { process with inbox } order.event ≠ none :=
        turn_isSome hkilled (order_isSome hrunning _ order)
      exact absurd (hrest (.receive workerId) rfl) (by simpa [step, hnone, hget, hcons] using hturn)

theorem count_le_size {map : OrderedMap Nat WorkerState} {count : Nat}
    (h : ∀ workerId, 1 ≤ workerId ∧ workerId ≤ count → ∃ entry, map.get workerId = some entry) :
    count ≤ map.size := by
  have hsub : Finset.Icc 1 count ⊆ map.keys.toFinset := by
    intro workerId hmem
    obtain ⟨entry, he⟩ := h workerId (Finset.mem_Icc.mp hmem)
    rw [List.mem_toFinset, OrderedMap.mem_keys_iff, he]
    rfl
  calc count = (Finset.Icc 1 count).card := by simp
    _ ≤ map.keys.toFinset.card := Finset.card_le_card hsub
    _ = map.size := by
      rw [List.toFinset_card_of_nodup map.keys_nodup, OrderedMap.size_eq_length_keys]

-- At rest the primary has exited if every instance is due, and only then.
theorem exited_iff_due (h : Sound config cluster) (hpos : 0 < config.VPN_INSTANCE_COUNT)
    (hrest : cluster.Rest config) :
    cluster.exitCode = some 0 ↔ AllDue config cluster := by
  constructor
  · intro hexit workerId hrange
    obtain ⟨_, hcount⟩ := h.exitCode.mp hexit
    exact Or.inl (Or.inl (entry_of_complete h.traced hcount hrange))
  · intro hdue
    by_contra hrunning
    have hnone := h.running.resolve_right hrunning
    have hcount := count_le_size fun workerId hrange =>
      counted_of_due hnone hrest (hdue workerId hrange)
    exact hrunning (h.exitCode.mpr ⟨by omega, hcount⟩)

theorem due_SIGTERM (h : Sound config cluster) (hspares : Spares cluster .SIGTERM) :
    AllDue config (cluster.broadcast .prepareShutdown) := by
  intro workerId hrange
  obtain ⟨process, hget⟩ := h.spawned workerId hrange
  have hlater : (cluster.broadcast .prepareShutdown).processes.get workerId =
      some { process with inbox := process.inbox ++ [.prepareShutdown] } := by
    rw [State.broadcast, OrderedMap.get_mapValues, hget]
    rfl
  rcases hspares workerId process hget with halive | htold
  · refine Or.inr ⟨_, hlater, halive, Or.inr ?_⟩
    exact List.mem_append_right _ (List.mem_singleton_self _)
  · exact Or.inl htold

end Rest

section Refused

-- HAProxy refuses the connection of a drain.
def Event.refused : Event Uuid → Bool
  | .worker _ (.haproxy _ false) => true
  | _ => false

-- The cluster when anything may come of a refused connection: node raises its rejection, as
-- `step` has it, unless something listens for those that nobody handles.
def stepUnless (config : Config) (onRefused : State Uuid → Event Uuid → Option (State Uuid))
    (cluster : State Uuid) (event : Event Uuid) : Option (State Uuid) :=
  if event.refused then onRefused cluster event else step config cluster event

theorem stepUnless_of_connected {onRefused : State Uuid → Event Uuid → Option (State Uuid)}
    {event : Event Uuid} (h : event.refused = false) (cluster : State Uuid) :
    stepUnless config onRefused cluster event = step config cluster event := by
  rw [stepUnless, h]
  exact if_neg Bool.false_ne_true

end Refused

theorem exited_iff_spares (hpos : 0 < config.VPN_INSTANCE_COUNT) (h : Sound config cluster)
    {after : List (Event Uuid)} {last : State Uuid}
    (hafter : run (step config) cluster (.SIGTERM :: after) = some last)
    (hquiet : ∀ event ∈ after, event.asks = false) (hrest : last.Rest config) :
    last.exitCode = some 0 ↔ StepsMeet (step config) Spares cluster (.SIGTERM :: after) := by
  obtain ⟨next, hs, hrun⟩ := (run_cons_eq_some _ cluster last .SIGTERM after).mp hafter
  have hnext := sound_step cluster .SIGTERM next h hs
  rw [exited_iff_due (run_invariant sound_step hnext hrun) hpos hrest]
  have hback : ∀ (cluster : State Uuid) event next, Sound config cluster → event.asks = false →
      step config cluster event = some next → AllDue config next → AllDue config cluster :=
    fun cluster event next h hq hs hd workerId hrange => due_back h hs hq (hd workerId hrange)
  have hkeep : ∀ (cluster : State Uuid) event next, Sound config cluster →
      AllDue config cluster → Spares cluster event → step config cluster event = some next →
      AllDue config next :=
    fun cluster event next h hd hc hs workerId hrange => due_step h hs (hd workerId hrange) hc
  constructor
  · intro hdue
    have hthroughout := throughout_of_last sound_step hback hquiet hnext hrun hdue
    refine ⟨spares_of_due h hs hthroughout.first, fun other ho => ?_⟩
    obtain rfl := Option.some.inj (hs.symm.trans ho)
    exact stepsMeet_of_throughout sound_step
      (fun cluster event next h _ hs hd => spares_of_due h hs hd) hnext hrun hthroughout
  · rintro ⟨hspares, hmeet⟩
    obtain rfl : cluster.broadcast .prepareShutdown = next := by
      cases (step_stepped hs).2
      rfl
    exact (throughout_of_stepsMeet sound_step hkeep hnext (due_SIGTERM h hspares)
      (hmeet _ hs)).last hrun

-- After a SIGTERM that nothing repeats, and with no connection refused, the primary has
-- exited when the cluster comes to rest, exactly when every process heard of it in time and
-- reported before it died.
theorem shutdown_completes_iff (config : Config)
    (onRefused : State Uuid → Event Uuid → Option (State Uuid))
    (hpos : 0 < config.VPN_INSTANCE_COUNT)
    (before after : List (Event Uuid)) (cluster last : State Uuid)
    (hbefore : run (stepUnless config onRefused) (State.initial config) before = some cluster)
    (hafter : run (stepUnless config onRefused) cluster (.SIGTERM :: after) = some last)
    (hconnected : ∀ event ∈ before ++ after, event.refused = false)
    (hquiet : ∀ event ∈ after, event.asks = false) (hrest : last.Rest config) :
    last.exitCode = some 0 ↔
      StepsMeet (stepUnless config onRefused) Spares cluster (.SIGTERM :: after) := by
  obtain ⟨hfirst, hlater⟩ := List.forall_mem_append.mp hconnected
  have hsame : ∀ event ∈ before, ∀ cluster : State Uuid,
      stepUnless config onRefused cluster event = step config cluster event :=
    fun event hmem => stepUnless_of_connected (hfirst event hmem)
  have hsame' : ∀ event ∈ Event.SIGTERM :: after, ∀ cluster : State Uuid,
      stepUnless config onRefused cluster event = step config cluster event :=
    List.forall_mem_cons.mpr ⟨fun _ => rfl,
      fun event hmem => stepUnless_of_connected (hlater event hmem)⟩
  rw [run_congr hsame] at hbefore
  rw [run_congr hsame'] at hafter
  rw [stepsMeet_congr hsame']
  exact exited_iff_spares hpos (run_invariant sound_step (sound_initial config) hbefore) hafter
    hquiet hrest

-- The only worker is ready when it reads the message, and reports before it exits. A refused
-- connection would have left its drain where it is.
theorem shutdown_completes_ready :
    ∃ cluster : State String,
      run (stepUnless ⟨1, false, 30, 120⟩ fun cluster _ => some cluster)
        (State.initial ⟨1, false, 30, 120⟩)
        [.worker 1 .ready, .worker 1 (.established 7 "uuid" 0)] = some cluster ∧
      StepsMeet (stepUnless ⟨1, false, 30, 120⟩ fun cluster _ => some cluster) Spares cluster
        [.SIGTERM, .receive 1, .worker 1 (.haproxy 0 true), .worker 1 (.timeout 0),
          .worker 1 (.timeout 0), .message 0] := by
  refine ⟨_, (Option.some_get (by decide)).symm, ?_⟩
  refine (shutdown_completes_iff ⟨1, false, 30, 120⟩ (fun cluster _ => some cluster) (by decide)
    _ _ _ _ (Option.some_get (by decide)).symm (Option.some_get (by decide)).symm (by decide)
    (by decide) ?_).mp (by decide)
  -- the primary has exited
  exact fun event _ => if_pos (by decide)

end OpenBalenaVpn.Cluster
