import OpenBalenaVpn.Cluster.Lemmas
import OpenBalenaVpn.Worker.Lemmas
import OpenBalenaVpn.Foundation.Transition
import Mathlib.Data.Finset.Card
import Mathlib.Order.Interval.Finset.Nat

namespace OpenBalenaVpn.Cluster

open Transition

variable {Uuid : Type}

-- When the primary has exited, every live worker has finished its drain.
def ExitsDrained (cluster : State Uuid) : Prop :=
  cluster.exitCode = some 0 → ∀ workerId process,
    cluster.processes.get workerId = some process → process.alive = true →
      process.worker.Finished workerId

-- The drain message of an instance brings the count to the number of instances.
def Completes (config : Config) (cluster : State Uuid) (instanceId : Nat) : Prop :=
  config.VPN_INSTANCE_COUNT ≤ (cluster.workerStates.keys.insert instanceId).length

-- When a drain message completes the count, no live worker stands in for an earlier
-- process that reported the drain of its instance, unless it has drained as well.
def NoUndrainedStandIn (config : Config) (cluster : State Uuid) : Event Uuid → Prop
  | .message pid => ∀ sent instanceId finished,
      cluster.sent.find? (·.pid = pid) = some sent →
      sent.message = .drain instanceId finished → Completes config cluster instanceId →
      ∀ workerId process entry, cluster.processes.get workerId = some process →
        process.alive = true →
        (cluster.workerStates.set instanceId ⟨instanceId, finished, pid⟩).get workerId =
          some entry →
        entry.pid ≠ process.pid → process.worker.Finished workerId
  | _ => True

-- The process that reported the drain of an instance has finished it.
structure Accounted (config : Config) (cluster : State Uuid) (instanceId pid : Nat) : Prop where
  instance_le : 1 ≤ instanceId ∧ instanceId ≤ config.VPN_INSTANCE_COUNT
  pid_lt : pid < cluster.nextPid
  finished : ∀ process, cluster.processes.get instanceId = some process → process.pid = pid →
    process.worker.Finished instanceId

structure Traced (config : Config) (cluster : State Uuid) : Prop where
  processes : ∀ workerId process, cluster.processes.get workerId = some process →
    (1 ≤ workerId ∧ workerId ≤ config.VPN_INSTANCE_COUNT) ∧ process.pid < cluster.nextPid
  entries : ∀ instanceId entry, cluster.workerStates.get instanceId = some entry →
    Accounted config cluster instanceId entry.pid
  messages : ∀ sent ∈ cluster.sent, ∀ instanceId finished,
    sent.message = .drain instanceId finished → Accounted config cluster instanceId sent.pid

section Frame

-- No process is replaced, and none takes its report back.
structure Continues (cluster next : State Uuid) : Prop where
  nextPid : next.nextPid = cluster.nextPid
  processes : ∀ workerId process', next.processes.get workerId = some process' →
    ∃ process, cluster.processes.get workerId = some process ∧ process'.pid = process.pid ∧
      (process.worker.Finished workerId → process'.worker.Finished workerId)

theorem Accounted.continue {config : Config} {cluster next : State Uuid} {instanceId pid : Nat}
    (h : Accounted config cluster instanceId pid) (hc : Continues cluster next) :
    Accounted config next instanceId pid where
  instance_le := h.instance_le
  pid_lt := hc.nextPid ▸ h.pid_lt
  finished process' hp hpid := by
    obtain ⟨process, hget, hsame, hmono⟩ := hc.processes instanceId process' hp
    exact hmono (h.finished process hget (hsame ▸ hpid))

theorem Traced.continue {config : Config} {cluster next : State Uuid} (h : Traced config cluster)
    (hc : Continues cluster next) (hstates : next.workerStates = cluster.workerStates)
    (hsent : ∀ sent ∈ next.sent, sent ∈ cluster.sent ∨ ∀ instanceId finished,
      sent.message = .drain instanceId finished → Accounted config next instanceId sent.pid) :
    Traced config next where
  processes workerId process' hp := by
    obtain ⟨process, hget, hsame, _⟩ := hc.processes workerId process' hp
    rw [hsame, hc.nextPid]
    exact h.processes workerId process hget
  entries instanceId entry he := by
    rw [hstates] at he
    exact (h.entries instanceId entry he).continue hc
  messages sent hs instanceId finished hm := by
    rcases hsent sent hs with hold | hnew
    · exact (h.messages sent hold instanceId finished hm).continue hc
    · exact hnew instanceId finished hm

theorem continues_set {cluster : State Uuid} {workerId : Nat} {process : Process Uuid}
    (process' : Process Uuid) (next : State Uuid)
    (hget : cluster.processes.get workerId = some process) (hpid : process'.pid = process.pid)
    (hmono : process.worker.Finished workerId → process'.worker.Finished workerId)
    (hnextPid : next.nextPid = cluster.nextPid)
    (hset : next.processes = cluster.processes.set workerId process') :
    Continues cluster next where
  nextPid := hnextPid
  processes other changed hp := by
    rw [hset, OrderedMap.get_set] at hp
    by_cases ho : workerId = other
    · subst ho
      rw [if_pos rfl] at hp
      obtain rfl := Option.some.inj hp
      exact ⟨process, hget, hpid, hmono⟩
    · rw [if_neg ho] at hp
      exact ⟨changed, hp, rfl, id⟩

theorem continues_of_eq {cluster next : State Uuid} (hnextPid : next.nextPid = cluster.nextPid)
    (hprocesses : next.processes = cluster.processes) : Continues cluster next :=
  ⟨hnextPid, fun _ process hp => ⟨process, hprocesses ▸ hp, rfl, id⟩⟩

end Frame

theorem traced_restartWorker {config : Config} {cluster : State Uuid} {workerId : Nat}
    (h : Traced config cluster)
    (hid : 1 ≤ workerId ∧ workerId ≤ config.VPN_INSTANCE_COUNT) :
    Traced config (cluster.restartWorker config workerId) := by
  have hacc : ∀ instanceId pid, Accounted config cluster instanceId pid →
      Accounted config (cluster.restartWorker config workerId) instanceId pid := by
    intro instanceId pid ha
    refine ⟨ha.instance_le, Nat.lt_succ_of_lt ha.pid_lt, fun process hp hpid => ?_⟩
    rw [State.restartWorker, OrderedMap.get_set] at hp
    by_cases he : workerId = instanceId
    · -- the pid of the new process is not that of any report
      rw [if_pos he] at hp
      obtain rfl := Option.some.inj hp
      have hlt := ha.pid_lt
      simp only at hpid
      omega
    · rw [if_neg he] at hp
      exact ha.finished process hp hpid
  refine ⟨fun other process hp => ?_, fun instanceId entry he => ?_,
    fun sent hs instanceId finished hm => ?_⟩
  · rw [State.restartWorker, OrderedMap.get_set] at hp
    by_cases ho : workerId = other
    · rw [if_pos ho] at hp
      obtain rfl := Option.some.inj hp
      exact ⟨ho ▸ hid, Nat.lt_succ_self _⟩
    · rw [if_neg ho] at hp
      obtain ⟨hrange, hlt⟩ := h.processes other process hp
      exact ⟨hrange, Nat.lt_succ_of_lt hlt⟩
  · exact hacc instanceId entry.pid (h.entries instanceId entry he)
  · exact hacc instanceId sent.pid (h.messages sent hs instanceId finished hm)

theorem traced_initial (config : Config) : Traced config (State.initial config : State Uuid) :=
  initial_keeps config (Traced config) ⟨by simp, by simp, by simp⟩
    fun _ _ hid h => traced_restartWorker h hid

theorem traced_turn {config : Config} {cluster next : State Uuid} {workerId : Nat}
    (process : Process Uuid) {event : Worker.Event Uuid} (h : Traced config cluster)
    {old : Process Uuid} (hget : cluster.processes.get workerId = some old)
    (hpid : process.pid = old.pid) (hworker : process.worker = old.worker)
    (hs : cluster.turn config workerId process event = some next) : Traced config next := by
  obtain ⟨_, worker, hw, rfl⟩ := turn_eq_some hs
  obtain ⟨messages, hsent, hown⟩ := Worker.step_sends _ hw
  have hc := continues_set { process with worker }
    { cluster with
      processes := cluster.processes.set workerId { process with worker }
      sent := cluster.sent ++ (worker.sent.drop process.worker.sent.length).map
        fun message => ⟨process.pid, message⟩ } hget hpid
    (fun hf => by
      rw [Worker.State.Finished, hsent, hworker]
      exact List.mem_append_left _ hf) rfl rfl
  refine h.continue hc rfl fun sent hm => ?_
  rcases List.mem_append.mp hm with hm | hm
  · exact Or.inl hm
  · refine Or.inr fun instanceId finished hdrain => ?_
    rw [hsent, List.drop_left] at hm
    obtain ⟨message, hmem, rfl⟩ := List.mem_map.mp hm
    simp only at hdrain
    subst hdrain
    obtain ⟨rfl, rfl⟩ := hown instanceId finished hmem
    obtain ⟨hrange, hlt⟩ := h.processes instanceId old hget
    refine ⟨hrange, hpid ▸ hlt, fun other ho _ => ?_⟩
    rw [OrderedMap.get_set, if_pos rfl] at ho
    obtain rfl := Option.some.inj ho
    rw [Worker.State.Finished, hsent]
    exact List.mem_append_right _ hmem

theorem turn_exitCode {config : Config} {cluster next : State Uuid} {workerId : Nat}
    {process : Process Uuid} {event : Worker.Event Uuid}
    (hs : cluster.turn config workerId process event = some next) :
    next.exitCode = cluster.exitCode := by
  obtain ⟨_, worker, _, rfl⟩ := turn_eq_some hs
  rfl

theorem traced_broadcast {config : Config} {cluster : State Uuid} (h : Traced config cluster)
    (order : Order) : Traced config (cluster.broadcast order) := by
  refine h.continue ⟨rfl, fun workerId process' hp => ?_⟩ rfl fun sent hs => Or.inl hs
  rw [State.broadcast, OrderedMap.get_mapValues] at hp
  obtain ⟨process, hget, rfl⟩ := Option.map_eq_some_iff.mp hp
  exact ⟨process, hget, rfl, id⟩

theorem find_sent {cluster : State Uuid} {pid : Nat} {sent : Sent Uuid}
    (hf : cluster.sent.find? (·.pid = pid) = some sent) : sent ∈ cluster.sent ∧ sent.pid = pid :=
  ⟨List.mem_of_find?_eq_some hf, by simpa using List.find?_some hf⟩

theorem onMessage_workerStates (config : Config) (cluster : State Uuid) (sent : Sent Uuid)
    {other : Nat} {entry : WorkerState}
    (he : (cluster.onMessage config sent).workerStates.get other = some entry) :
    cluster.workerStates.get other = some entry ∨
      ∃ finished, sent.message = .drain other finished ∧ entry.pid = sent.pid := by
  unfold State.onMessage at he
  split at he
  · rename_i instanceId finished hdrain
    simp only [OrderedMap.get_set] at he
    by_cases ho : instanceId = other
    · subst ho
      rw [if_pos rfl] at he
      obtain rfl := Option.some.inj he
      exact Or.inr ⟨finished, hdrain, rfl⟩
    · rw [if_neg ho] at he
      exact Or.inl he
  · exact Or.inl he

theorem traced_message {config : Config} {cluster : State Uuid} (h : Traced config cluster)
    {sent : Sent Uuid} (hm : sent ∈ cluster.sent) {rest : List (Sent Uuid)}
    (hrest : ∀ other ∈ rest, other ∈ cluster.sent) :
    Traced config ({ cluster with sent := rest }.onMessage config sent) := by
  obtain ⟨hprocesses, hnextPid, hsent, _⟩ :=
    onMessage_frame config { cluster with sent := rest } sent
  have hc : Continues cluster ({ cluster with sent := rest }.onMessage config sent) :=
    continues_of_eq hnextPid hprocesses
  refine ⟨fun workerId process hp => ?_, fun other entry he => ?_,
    fun other ho instanceId finished hdrain => ?_⟩
  · rw [hnextPid]
    exact h.processes workerId process (hprocesses ▸ hp)
  · rcases onMessage_workerStates config _ sent he with hold | ⟨finished, hdrain, hpid⟩
    · exact (h.entries other entry hold).continue hc
    · exact hpid ▸ (h.messages sent hm other finished hdrain).continue hc
  · have hother := hrest other (by rwa [hsent] at ho)
    exact (h.messages other hother instanceId finished hdrain).continue hc

theorem traced_step (config : Config) (cluster : State Uuid) (event : Event Uuid)
    (next : State Uuid) (h : Traced config cluster)
    (hs : step config cluster event = some next) : Traced config next := by
  cases (step_stepped hs).2 with
  | SIGTERM => exact traced_broadcast h .prepareShutdown
  | SIGUSR2 =>
      have hb := traced_broadcast h .toggleVerbosity
      exact hb.continue (continues_of_eq rfl rfl) rfl fun sent hs => Or.inl hs
  | worker _ hget hturn => exact traced_turn _ h hget rfl rfl hturn
  | @receive _ workerId process order inbox hget _ hturn =>
      exact traced_turn { process with inbox } h hget rfl rfl hturn
  | @kill workerId process hget =>
      refine h.continue ?_ rfl fun sent hs => Or.inl hs
      exact continues_set { process with killed := true } _ hget rfl id rfl rfl
  | exit hget => exact traced_restartWorker h (h.processes _ _ hget).1
  | message hfind =>
      exact traced_message h (find_sent hfind).1 fun other ho => List.mem_of_mem_eraseP ho

-- Only a drain message that completes the count makes the primary exit.
theorem step_exitCode (config : Config) {cluster next : State Uuid} {event : Event Uuid}
    (hs : step config cluster event = some next) (hexit : next.exitCode = some 0) :
    ∃ pid sent instanceId finished, event = .message pid ∧
      cluster.sent.find? (·.pid = pid) = some sent ∧ sent.pid = pid ∧
      sent.message = .drain instanceId finished ∧ Completes config cluster instanceId := by
  obtain ⟨hnone, hstepped⟩ := step_stepped hs
  have hstill : next.exitCode ≠ cluster.exitCode := by simp [hexit, hnone]
  cases hstepped with
  | SIGTERM | SIGUSR2 | kill | exit => exact absurd rfl hstill
  | worker _ _ hturn | receive _ _ hturn => exact absurd (turn_exitCode hturn) hstill
  | @message pid sent hfind =>
      unfold State.onMessage at hexit
      split at hexit
      · rename_i instanceId finished hdrain
        refine ⟨pid, sent, instanceId, finished, rfl, hfind, (find_sent hfind).2, hdrain, ?_⟩
        by_contra hless
        rw [Completes, ← OrderedMap.size_set cluster.workerStates instanceId
          ⟨instanceId, finished, sent.pid⟩] at hless
        simp [hless, hnone] at hexit
      · exact absurd hexit (by simp [hnone])

-- The entries of a complete count are those of all instances.
theorem entry_of_complete {config : Config} {cluster : State Uuid} (h : Traced config cluster)
    (hcount : config.VPN_INSTANCE_COUNT ≤ cluster.workerStates.size) {workerId : Nat}
    (hid : 1 ≤ workerId ∧ workerId ≤ config.VPN_INSTANCE_COUNT) :
    ∃ entry, cluster.workerStates.get workerId = some entry := by
  have hsub : cluster.workerStates.keys.toFinset ⊆ Finset.Icc 1 config.VPN_INSTANCE_COUNT := by
    intro key hkey
    rw [List.mem_toFinset, OrderedMap.mem_keys_iff] at hkey
    obtain ⟨entry, he⟩ := Option.isSome_iff_exists.mp hkey
    exact Finset.mem_Icc.mpr (h.entries key entry he).instance_le
  have hcard : (Finset.Icc 1 config.VPN_INSTANCE_COUNT).card ≤
      cluster.workerStates.keys.toFinset.card := by
    rw [List.toFinset_card_of_nodup cluster.workerStates.keys_nodup, Nat.card_Icc,
      ← OrderedMap.size_eq_length_keys]
    omega
  have hall := Finset.eq_of_subset_of_card_le hsub hcard
  have hmem : workerId ∈ cluster.workerStates.keys.toFinset := hall ▸ Finset.mem_Icc.mpr hid
  rw [List.mem_toFinset, OrderedMap.mem_keys_iff] at hmem
  exact Option.isSome_iff_exists.mp hmem

-- The turn in which the primary handles a drain message.
theorem message_drain (config : Config) {cluster next : State Uuid} {pid instanceId : Nat}
    {sent : Sent Uuid} {finished : Bool}
    (hs : step config cluster (.message pid) = some next)
    (hf : cluster.sent.find? (·.pid = pid) = some sent)
    (hdrain : sent.message = .drain instanceId finished) :
    next.processes = cluster.processes ∧
      next.workerStates = cluster.workerStates.set instanceId ⟨instanceId, finished, pid⟩ ∧
      (Completes config cluster instanceId → next.exitCode = some 0) := by
  cases (step_stepped hs).2 with
  | message hfind =>
      obtain rfl := Option.some.inj (hfind.symm.trans hf)
      simp only [State.onMessage, hdrain, (find_sent hf).2, true_and]
      intro hcomplete
      have hsize := OrderedMap.size_set cluster.workerStates instanceId
        ⟨instanceId, finished, pid⟩
      exact if_pos (hsize ▸ hcomplete)

theorem exitsDrained_iff_step (config : Config) {cluster next : State Uuid} {event : Event Uuid}
    (h : Traced config cluster) (hs : step config cluster event = some next) :
    ExitsDrained next ↔ NoUndrainedStandIn config cluster event := by
  have hnext := traced_step config cluster event next h hs
  constructor
  · intro hdrained
    cases event with
    | message pid =>
        intro sent instanceId finished hf hdrain hcomplete workerId process entry hp halive _ _
        obtain ⟨hprocesses, _, hexit⟩ := message_drain config hs hf hdrain
        exact hdrained (hexit hcomplete) workerId process (hprocesses ▸ hp) halive
    | _ => trivial
  · intro hnone hexit workerId process hp halive
    obtain ⟨pid, sent, instanceId, finished, rfl, hf, rfl, hdrain, hcomplete⟩ :=
      step_exitCode config hs hexit
    obtain ⟨hprocesses, hstates, _⟩ := message_drain config hs hf hdrain
    have hcount : config.VPN_INSTANCE_COUNT ≤ next.workerStates.size := by
      rw [hstates, OrderedMap.size_set]
      exact hcomplete
    obtain ⟨entry, he⟩ := entry_of_complete hnext hcount (hnext.processes workerId process hp).1
    by_cases hpid : entry.pid = process.pid
    · exact (hnext.entries workerId entry he).finished process hp hpid.symm
    · exact hnone sent instanceId finished hf hdrain hcomplete workerId process entry
        (hprocesses ▸ hp) halive (hstates ▸ he) hpid

theorem exitsDrained_of_running {cluster : State Uuid} (h : cluster.exitCode = none) :
    ExitsDrained cluster := by
  intro hexit
  cases h.symm.trans hexit

-- In every run the primary exits over drained workers only, exactly when no live
-- worker stands in, undrained, for one that was counted.
theorem exitsDrained_iff (config : Config) (events : List (Event Uuid)) (last : State Uuid)
    (hrun : run (step config) (State.initial config) events = some last) :
    Throughout (step config) ExitsDrained (State.initial config) events ↔
      StepsMeet (step config) (NoUndrainedStandIn config) (State.initial config) events := by
  constructor
  · exact stepsMeet_of_throughout (traced_step config)
      (fun cluster event next h _ hs hn => (exitsDrained_iff_step config h hs).mp hn)
      (traced_initial config) hrun
  · exact throughout_of_stepsMeet (traced_step config)
      (fun cluster event next h _ hc hs => (exitsDrained_iff_step config h hs).mpr hc)
      (traced_initial config) (exitsDrained_of_running (initial_exitCode config))

-- The only worker drains, and the primary exits over it.
theorem exitsDrained_single :
    Throughout (step ⟨1, false, 30, 120⟩) ExitsDrained
      (State.initial ⟨1, false, 30, 120⟩ : State String)
      [.worker 1 (.signal .SIGTERM), .worker 1 (.haproxy 0 true), .message 0] := by
  refine (exitsDrained_iff ⟨1, false, 30, 120⟩ _ _ (Option.some_get (by decide)).symm).mpr ?_
  refine ⟨trivial, fun c₁ h₁ => ⟨trivial, fun c₂ h₂ => ⟨?_, fun _ _ => trivial⟩⟩⟩
  obtain rfl := Option.some.inj h₁
  obtain rfl := Option.some.inj h₂
  intro sent instanceId finished hf hdrain _ workerId process entry hp _ he hne
  obtain rfl : ⟨0, .drain 1 true⟩ = sent := Option.some.inj hf
  obtain ⟨rfl, rfl⟩ := Worker.Message.drain.inj hdrain
  by_cases hid : 1 = workerId
  · subst hid
    obtain rfl := Option.some.inj hp
    obtain rfl := Option.some.inj he
    exact absurd rfl hne
  · rw [OrderedMap.get_set, if_neg hid] at he
    cases he

-- Worker 1 drains, exits and is replaced. When worker 2 has drained too, the
-- primary exits although the new worker 1 has not been asked to drain.
theorem exitsDrained_replaced :
    ∃ events last, run (step ⟨2, false, 30, 120⟩)
      (State.initial ⟨2, false, 30, 120⟩ : State String) events = some last ∧
        ¬ExitsDrained last := by
  refine ⟨[.worker 1 (.signal .SIGTERM), .worker 1 (.haproxy 0 true), .message 0,
    .worker 1 (.timeout 0), .exit 1, .worker 2 (.signal .SIGTERM), .worker 2 (.haproxy 0 true),
    .message 1], _, (Option.some_get (by decide)).symm, fun hdrained => ?_⟩
  have hfinished := hdrained (by decide) 1 ⟨2, [], .initial false, false⟩ rfl (by decide)
  simp [Worker.State.Finished, Worker.State.initial] at hfinished

end OpenBalenaVpn.Cluster
