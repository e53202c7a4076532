import OpenBalenaVpn.Routing
import OpenBalenaVpn.Cluster.Completion
import OpenBalenaVpn.HAProxy.Plain

namespace OpenBalenaVpn.Routing

open HAProxy Transition

variable {Uuid Table : Type} {config : Config Table} {state next : State Uuid Table}

section Step

-- What an event does.
inductive Stepped (config : Config Table) (state : State Uuid Table) :
    Event Uuid → State Uuid Table → Prop
  | rejected {workerId : Nat} {cluster : Cluster.State Uuid}
      (hs : Cluster.step config.cluster state.cluster (.worker workerId .fatalError) =
        some cluster) :
      Stepped config state (.startup workerId false) { state with cluster }
  | registered {workerId : Nat} {cluster : Cluster.State Uuid} {process : Cluster.Process Uuid}
      (hget : state.cluster.processes.get workerId = some process)
      (hstage : state.stage process.pid = .register)
      (hs : Cluster.step config.cluster state.cluster (.worker workerId .ready) = some cluster) :
      Stepped config state (.startup workerId true) { state with
        cluster
        startups := state.startups.set process.pid ⟨workerId, .ready⟩
        written := state.written ++ [registerLine config workerId] }
  | advanced {workerId : Nat} {process : Cluster.Process Uuid} {stage : Stage}
      (hget : state.cluster.processes.get workerId = some process)
      (hstage : state.stage process.pid ≠ .register ∧ state.stage process.pid ≠ .ready)
      (hnext : stage ≠ .ready) :
      Stepped config state (.startup workerId true)
        { state with startups := state.startups.set process.pid ⟨workerId, stage⟩ }
  | cluster {event : Cluster.Event Uuid} {cluster : Cluster.State Uuid}
      (hready : ∀ workerId, event ≠ .worker workerId .ready)
      (hs : Cluster.step config.cluster state.cluster event = some cluster) :
      Stepped config state (.cluster event)
        { state with cluster, written := state.written ++ drainLine event }
  | perform {index : Nat} {line : Text} (hget : state.written[index]? = some line) :
      Stepped config state (.perform index) { state with
        written := state.written.eraseIdx index
        table := config.haproxy.execute state.table line }

theorem settle_stepped {workerId : Nat} {fulfilled : Bool}
    (hs : state.settle config workerId fulfilled = some next) :
    Stepped config state (.startup workerId fulfilled) next := by
  obtain ⟨process, hget, hs⟩ := Option.bind_eq_some_iff.mp hs
  simp only at hs
  split at hs
  · cases hs
  · rename_i hunready
    cases fulfilled with
    | false =>
        obtain ⟨cluster, hcluster, rfl⟩ := Option.map_eq_some_iff.mp hs
        exact .rejected hcluster
    | true =>
        simp only [Bool.true_eq_false, if_false] at hs
        split at hs
        · rename_i hstage
          obtain ⟨cluster, hcluster, rfl⟩ := Option.map_eq_some_iff.mp hs
          rw [hstage]
          exact .registered hget hstage hcluster
        · rename_i hstage
          split at hs
          · obtain rfl := Option.some.inj hs
            refine .advanced hget ⟨hstage, hunready⟩ ?_
            cases hcase : state.stage process.pid <;> simp_all [Stage.next]
          · cases hs

theorem step_stepped {event : Event Uuid} (hs : step config state event = some next) :
    Stepped config state event next := by
  cases event with
  | startup workerId fulfilled => exact settle_stepped hs
  | cluster event =>
      simp only [step, State.turn] at hs
      split at hs
      · cases hs
      · rename_i hready
        obtain ⟨cluster, hcluster, rfl⟩ := Option.map_eq_some_iff.mp hs
        exact .cluster hready hcluster
  | perform index =>
      obtain ⟨line, hget, rfl⟩ := Option.map_eq_some_iff.mp hs
      exact .perform hget

end Step

section Lines

variable (hdocumented : Documented config.haproxy)
  (hports : config.VPN_BASE_PORT + config.cluster.VPN_INSTANCE_COUNT ≤ 65535)

-- What a worker writes, about its own server.
inductive Written (config : Config Table) (workerId : Nat) : Text → Prop
  | drain : Written config workerId (drain (workerName workerId))
  | register : Written config workerId (registerLine config workerId)

include hdocumented hports

theorem execute_registerLine (table : Table) {workerId : Nat}
    (hrange : 1 ≤ workerId ∧ workerId ≤ config.cluster.VPN_INSTANCE_COUNT) :
    config.haproxy.servers (config.haproxy.execute table (registerLine config workerId)) =
      (config.haproxy.servers table).modify (workerName workerId)
        fun _ => ⟨localhost, config.VPN_BASE_PORT + workerId, .ready⟩ :=
  hdocumented.register table workerId ⟨by omega, by omega⟩

-- No line adds a server or takes one.
theorem isSome_execute (table : Table) (name : Text) {workerId : Nat} {line : Text}
    (hrange : 1 ≤ workerId ∧ workerId ≤ config.cluster.VPN_INSTANCE_COUNT)
    (hline : Written config workerId line) :
    (config.haproxy.servers (config.haproxy.execute table line) name).isSome =
      (config.haproxy.servers table name).isSome := by
  cases hline with
  | drain => rw [hdocumented.drain, isSome_modify]
  | register => rw [execute_registerLine hdocumented hports table hrange, isSome_modify]

theorem isSome_executeAll (table : Table) (name : Text) {lines : List Text}
    (hlines : ∀ line ∈ lines, ∃ workerId,
      (1 ≤ workerId ∧ workerId ≤ config.cluster.VPN_INSTANCE_COUNT) ∧
        Written config workerId line) :
    (config.haproxy.servers (lines.foldl config.haproxy.execute table) name).isSome =
      (config.haproxy.servers table name).isSome := by
  induction lines generalizing table with
  | nil => rfl
  | cons line lines ih =>
      obtain ⟨⟨workerId, hrange, hline⟩, hlines⟩ := List.forall_mem_cons.mp hlines
      rw [List.foldl_cons, ih _ hlines, isSome_execute hdocumented hports table name hrange hline]

end Lines

section Sound

-- A process of the worker has gone through its startup.
def State.Released (state : State Uuid Table) (workerId : Nat) : Prop :=
  ∃ pid, state.startups.get pid = some ⟨workerId, .ready⟩

-- Only the workers write to HAProxy, each about its own server, and only a released one is
-- ready: under the port of its openvpn process.
structure Sound (config : Config Table) (state : State Uuid Table) : Prop where
  cluster : Cluster.Sound config.cluster state.cluster
  written : ∀ line ∈ state.written, ∃ workerId,
    (1 ≤ workerId ∧ workerId ≤ config.cluster.VPN_INSTANCE_COUNT) ∧
      (line = drain (workerName workerId) ∨
        line = registerLine config workerId ∧ state.Released workerId)
  servers : ∀ name server, state.servers config name = some server → ∃ workerId,
    (1 ≤ workerId ∧ workerId ≤ config.servers) ∧ name = workerName workerId ∧
      server.addr = localhost ∧ (server.state = .ready →
        workerId ≤ config.cluster.VPN_INSTANCE_COUNT ∧
          server.port = config.VPN_BASE_PORT + workerId ∧ state.Released workerId)
  domain : ∀ name, (state.servers config name).isSome = (template config.servers name).isSome

theorem sound_initial (hdocumented : Documented config.haproxy) :
    Sound config (initial config : State Uuid Table) where
  cluster := Cluster.sound_initial config.cluster
  written := nofun
  servers name server h := by
    rw [State.servers, initial, hdocumented.start] at h
    obtain ⟨⟨workerId, hfirst, hlast, hname⟩, rfl⟩ := template_eq_some h
    exact ⟨workerId, ⟨hfirst, hlast⟩, hname, rfl, nofun⟩
  domain name := by rw [State.servers, initial, hdocumented.start]

-- A startup that is over is not started again.
theorem Stepped.released {event : Event Uuid} (hs : Stepped config state event next)
    {workerId : Nat} (h : state.Released workerId) : next.Released workerId := by
  obtain ⟨pid, hpid⟩ := h
  have hkeep : ∀ {other startup}, state.stage other ≠ .ready →
      (state.startups.set other startup).get pid = some ⟨workerId, .ready⟩ := by
    intro other startup hother
    have hne : other ≠ pid := by
      rintro rfl
      exact hother (by rw [State.stage, hpid]; rfl)
    rw [OrderedMap.get_set_of_ne _ _ _ _ hne, hpid]
  cases hs with
  | rejected | cluster | perform => exact ⟨pid, hpid⟩
  | registered _ hstage => exact ⟨pid, hkeep (by rw [hstage]; nofun)⟩
  | advanced _ hstage => exact ⟨pid, hkeep hstage.2⟩

theorem Sound.range (h : Sound config state) {workerId : Nat} {process : Cluster.Process Uuid}
    (hget : state.cluster.processes.get workerId = some process) :
    1 ≤ workerId ∧ workerId ≤ config.cluster.VPN_INSTANCE_COUNT :=
  (h.cluster.traced.processes workerId process hget).1

-- What has been written and performed stands, and a step adds lines and takes one.
theorem Sound.keep (h : Sound config state) {event : Event Uuid}
    (hs : Stepped config state event next)
    (hcluster : Cluster.Sound config.cluster next.cluster)
    (htable : next.table = state.table)
    (hwritten : ∀ line ∈ next.written, line ∈ state.written ∨ ∃ workerId,
      (1 ≤ workerId ∧ workerId ≤ config.cluster.VPN_INSTANCE_COUNT) ∧
        (line = drain (workerName workerId) ∨
          line = registerLine config workerId ∧ next.Released workerId)) :
    Sound config next where
  cluster := hcluster
  written line hmem := by
    rcases hwritten line hmem with hold | hnew
    · obtain ⟨workerId, hrange, hline⟩ := h.written line hold
      exact ⟨workerId, hrange, hline.imp_right fun hregister =>
        ⟨hregister.1, hs.released hregister.2⟩⟩
    · exact hnew
  servers name server hname := by
    rw [State.servers, htable] at hname
    obtain ⟨workerId, hrange, heq, haddr, hready⟩ := h.servers name server hname
    exact ⟨workerId, hrange, heq, haddr, fun hstate =>
      ⟨(hready hstate).1, (hready hstate).2.1, hs.released (hready hstate).2.2⟩⟩
  domain name := by
    rw [State.servers, htable]
    exact h.domain name

theorem drainLine_cases {event : Cluster.Event Uuid} {line : Text} (h : line ∈ drainLine event) :
    ∃ workerId index, event = .worker workerId (.haproxy index true) ∧
      line = drain (workerName workerId) := by
  unfold drainLine at h
  split at h
  · rename_i workerId index
    exact ⟨workerId, index, rfl, List.mem_singleton.mp h⟩
  · cases h

theorem Sound.exists_written (h : Sound config state) {line : Text} (hmem : line ∈ state.written) :
    ∃ workerId, (1 ≤ workerId ∧ workerId ≤ config.cluster.VPN_INSTANCE_COUNT) ∧
      Written config workerId line := by
  obtain ⟨workerId, hrange, rfl | ⟨rfl, _⟩⟩ := h.written line hmem
  · exact ⟨workerId, hrange, .drain⟩
  · exact ⟨workerId, hrange, .register⟩

variable (hdocumented : Documented config.haproxy)
  (hports : config.VPN_BASE_PORT + config.cluster.VPN_INSTANCE_COUNT ≤ 65535)

include hdocumented hports

theorem Sound.perform (h : Sound config state) {index : Nat} {line : Text}
    (hget : state.written[index]? = some line) :
    Sound config { state with
      written := state.written.eraseIdx index
      table := config.haproxy.execute state.table line } where
  cluster := h.cluster
  written other hmem := h.written other (List.mem_of_mem_eraseIdx hmem)
  servers name server hname := by
    obtain ⟨workerId, hrange, rfl | ⟨rfl, hreleased⟩⟩ :=
      h.written line (List.mem_of_getElem? hget)
    · rw [State.servers, hdocumented.drain] at hname
      rcases modify_eq_some hname with ⟨rfl, old, hold, rfl⟩ | hsame
      · obtain ⟨owner, hserver, heq, haddr, _⟩ := h.servers _ old hold
        exact ⟨owner, hserver, heq, haddr, nofun⟩
      · exact h.servers name server hsame
    · rw [State.servers, execute_registerLine hdocumented hports _ hrange] at hname
      rcases modify_eq_some hname with ⟨rfl, old, hold, rfl⟩ | hsame
      · obtain ⟨owner, hserver, heq, _, _⟩ := h.servers _ old hold
        obtain rfl := workerName_injective heq
        exact ⟨workerId, hserver, rfl, rfl, fun _ => ⟨hrange.2, rfl, hreleased⟩⟩
      · exact h.servers name server hsame
  domain name := by
    obtain ⟨workerId, hrange, hline⟩ := h.exists_written (List.mem_of_getElem? hget)
    exact (isSome_execute hdocumented hports state.table name hrange hline).trans (h.domain name)

theorem sound_step (state : State Uuid Table) (event : Event Uuid) (next : State Uuid Table)
    (h : Sound config state) (hs : step config state event = some next) : Sound config next := by
  have hstepped := step_stepped hs
  have hcluster : ∀ {clusterEvent cluster},
      Cluster.step config.cluster state.cluster clusterEvent = some cluster →
        Cluster.Sound config.cluster cluster :=
    fun hc => Cluster.sound_step _ _ _ h.cluster hc
  cases hstepped with
  | rejected hc => exact h.keep (step_stepped hs) (hcluster hc) rfl fun line hmem => Or.inl hmem
  | advanced => exact h.keep (step_stepped hs) h.cluster rfl fun line hmem => Or.inl hmem
  | perform hget => exact h.perform hdocumented hports hget
  | @registered workerId _ process hget _ hc =>
      refine h.keep (step_stepped hs) (hcluster hc) rfl fun line hmem => ?_
      refine (List.mem_append.mp hmem).imp_right fun hnew => ⟨workerId, h.range hget, Or.inr ?_⟩
      exact ⟨List.mem_singleton.mp hnew, process.pid, OrderedMap.get_set_self ..⟩
  | @cluster event cluster _ hc =>
      refine h.keep (step_stepped hs) (hcluster hc) rfl fun line hmem => ?_
      refine (List.mem_append.mp hmem).imp_right fun hnew => ?_
      obtain ⟨workerId, index, rfl, hline⟩ := drainLine_cases hnew
      cases (Cluster.step_stepped hc).2 with
      | worker _ hget => exact ⟨workerId, h.range hget, Or.inl hline⟩

end Sound

section Draining

variable {workerConfig : Worker.Config} {worker worker' : Worker.State Uuid}

-- A drain of the worker has reached HAProxy.
def Connected (worker : Worker.State Uuid) : Prop :=
  ∃ drain ∈ worker.drains, drain.phase ≠ .connecting ∧ drain.phase ≠ .failed

instance (worker : Worker.State Uuid) : Decidable (Connected worker) :=
  inferInstanceAs (Decidable (∃ drain ∈ worker.drains, _))

theorem connected_of_drains (h : Connected worker') (hdrains : worker'.drains = worker.drains) :
    Connected worker := by
  obtain ⟨drain, hmem, hphase⟩ := h
  exact ⟨drain, hdrains ▸ hmem, hphase⟩

theorem connected_of_call {listener : Worker.DrainConnections}
    (h : Connected (listener.call worker)) : Connected worker := by
  cases listener with
  | noop => exact h
  | body =>
      obtain ⟨drain, hmem, hphase⟩ := h
      rcases List.mem_append.mp hmem with hold | hnew
      · exact ⟨drain, hold, hphase⟩
      · exact absurd (congrArg Worker.Drain.phase (List.mem_singleton.mp hnew)) hphase.1

theorem connected_of_emit {eventType : Worker.EventType} (h : Connected (worker.emit eventType)) :
    Connected worker :=
  Worker.emit_keeps (fun later => Connected later → Connected worker)
    (fun _ _ hlater hcall => hlater (connected_of_call hcall)) id eventType h

theorem connected_of_fail {index : Nat} {killed : List Uuid}
    (h : Connected (worker.setDrain index ⟨.failed, killed⟩)) : Connected worker := by
  obtain ⟨drain, hmem, hphase⟩ := h
  rcases List.mem_or_eq_of_mem_set hmem with hold | rfl
  · exact ⟨drain, hold, hphase⟩
  · exact absurd rfl hphase.2

-- A drain reaches HAProxy on the event that its connection succeeds.
theorem connected_step {event : Worker.Event Uuid}
    (hs : Worker.step workerConfig worker event = some worker') (h : Connected worker') :
    Connected worker ∨ ∃ index, event = .haproxy index true := by
  cases (Worker.step_stepped hs).2 with
  | signal eventType => exact Or.inl (connected_of_emit h)
  | prepareShutdown => exact Or.inl (connected_of_call h)
  | tooEarly | toggleVerbosity | ready | fatalError | established =>
      exact Or.inl (connected_of_drains h rfl)
  | bytecount =>
      refine Or.inl (connected_of_drains h ?_)
      unfold Worker.State.writeBandwidthMetrics
      split <;> rfl
  | @haproxy _ index connected hnext =>
      cases connected with
      | true => exact Or.inr ⟨index, rfl⟩
      | false =>
          obtain ⟨killed, _, ⟨hfalse, _⟩ | ⟨hfalse, _⟩ | ⟨_, rfl⟩⟩ := Worker.haproxy_cases hnext
          · cases hfalse
          · cases hfalse
          · exact Or.inl (connected_of_fail (connected_of_emit h))
  | timeout hnext =>
      obtain ⟨killed, ⟨delayMs, hget, _⟩ | ⟨hget, _⟩⟩ := Worker.timeout_cases hnext
      · exact Or.inl ⟨_, List.mem_of_getElem? hget, nofun, nofun⟩
      · exact Or.inl ⟨_, List.mem_of_getElem? hget, nofun, nofun⟩

-- The servers once everything that was written has been performed in its order.
def State.settled (config : Config Table) (state : State Uuid Table) : Servers :=
  config.haproxy.servers (state.written.foldl config.haproxy.execute state.table)

-- No server is ready whose worker drains.
def Unrouted (config : Config Table) (state : State Uuid Table) : Prop :=
  ∀ workerId process, state.cluster.processes.get workerId = some process →
    Connected process.worker → ∀ server,
      state.settled config (workerName workerId) = some server → server.state ≠ .ready

-- HAProxy takes the lines in their order.
def Event.InOrder : Event Uuid → Prop
  | .startup _ _ => True
  | .cluster _ => True
  | .perform index => index = 0

-- No worker registers that drains, if HAProxy has a server for it.
def Clear (config : Config Table) (state : State Uuid Table) : Event Uuid → Prop
  | .startup workerId true => workerId ≤ config.servers →
      ∀ process ∈ state.cluster.processes.get workerId,
        state.stage process.pid = .register → ¬Connected process.worker
  | .startup _ false => True
  | .cluster _ => True
  | .perform _ => True

instance : (event : Event Uuid) → Decidable event.InOrder
  | .startup _ _ => isTrue trivial
  | .cluster _ => isTrue trivial
  | .perform index => inferInstanceAs (Decidable (index = 0))

instance (config : Config Table) (state : State Uuid Table) :
    (event : Event Uuid) → Decidable (Clear config state event)
  | .startup workerId true => inferInstanceAs (Decidable (workerId ≤ config.servers →
      ∀ process ∈ state.cluster.processes.get workerId,
        state.stage process.pid = .register → ¬Connected process.worker))
  | .startup _ false => isTrue trivial
  | .cluster _ => isTrue trivial
  | .perform _ => isTrue trivial

-- A worker that drains after an event did before it, or its drain reaches HAProxy now.
theorem connected_before {cluster : Cluster.State Uuid} {event : Cluster.Event Uuid}
    (h : Cluster.Sound config.cluster state.cluster)
    (hs : Cluster.step config.cluster state.cluster event = some cluster) {workerId : Nat}
    {later : Cluster.Process Uuid} (hget : cluster.processes.get workerId = some later)
    (hc : Connected later.worker) :
    (∃ process, state.cluster.processes.get workerId = some process ∧
      Connected process.worker) ∨ ∃ index, event = .worker workerId (.haproxy index true) := by
  obtain ⟨process, hold, hcontinued⟩ := h.before hs hget
  cases hcontinued with
  | same | SIGTERM | SIGUSR2 | kill => exact Or.inl ⟨_, hold, hc⟩
  | worker _ _ hworker =>
      refine (connected_step hworker hc).imp (fun hc => ⟨process, hold, hc⟩) fun hindex => ?_
      obtain ⟨index, rfl⟩ := hindex
      exact ⟨index, rfl⟩
  | @receive order _ _ _ _ hworker =>
      refine Or.inl ⟨process, hold, (connected_step hworker hc).resolve_right fun hindex => ?_⟩
      obtain ⟨index, hindex⟩ := hindex
      cases order <;> cases hindex
  | exit =>
      obtain ⟨drain, hmem, _⟩ := hc
      cases hmem

variable (hdocumented : Documented config.haproxy)
  (hports : config.VPN_BASE_PORT + config.cluster.VPN_INSTANCE_COUNT ≤ 65535)

include hdocumented

-- What the line of a drain leaves ready was so before.
theorem ready_of_drainLine {table : Table} {event : Cluster.Event Uuid} {name : Text}
    {server : Server} (h : config.haproxy.servers
      ((drainLine event).foldl config.haproxy.execute table) name = some server)
    (hready : server.state = .ready) : config.haproxy.servers table name = some server ∧
      ∀ workerId index, event = .worker workerId (.haproxy index true) →
        name ≠ workerName workerId := by
  have hone : ∀ workerId, config.haproxy.servers
      (config.haproxy.execute table (drain (workerName workerId))) name = some server →
        config.haproxy.servers table name = some server ∧ name ≠ workerName workerId := by
    intro workerId hline
    rw [hdocumented.drain] at hline
    by_cases he : name = workerName workerId
    · subst he
      rw [modify_self] at hline
      obtain ⟨old, _, rfl⟩ := Option.map_eq_some_iff.mp hline
      cases hready
    · exact ⟨modify_of_ne (config.haproxy.servers table) he _ ▸ hline, he⟩
  unfold drainLine at h
  split at h
  · rename_i workerId index
    obtain ⟨hsame, hne⟩ := hone workerId h
    refine ⟨hsame, fun other otherIndex heq => ?_⟩
    cases heq
    exact hne
  · rename_i hother
    exact ⟨h, fun workerId index heq => absurd heq (hother workerId index)⟩

include hports

theorem unrouted_step (state : State Uuid Table) (event : Event Uuid) (next : State Uuid Table)
    (h : Sound config state) (hu : Unrouted config state)
    (hcondition : Clear config state event ∧ event.InOrder)
    (hs : step config state event = some next) : Unrouted config next := by
  intro workerId later hget hconnected server hserver hready
  cases step_stepped hs with
  | rejected hc =>
      rcases connected_before h.cluster hc hget hconnected with ⟨process, hold, hdrains⟩ | ⟨_, heq⟩
      · exact hu workerId process hold hdrains server hserver hready
      · cases heq
  | advanced => exact hu workerId later hget hconnected server hserver hready
  | @registered registering _ process hown hstage hc =>
      rcases connected_before h.cluster hc hget hconnected with ⟨other, hold, hdrains⟩ | ⟨_, heq⟩
      · rw [State.settled, List.foldl_append, List.foldl_cons, List.foldl_nil,
          execute_registerLine hdocumented hports _ (h.range hown)] at hserver
        rcases modify_eq_some hserver with ⟨hname, old, hprior, _⟩ | hsame
        · -- the worker that registers is the one that drains
          obtain rfl := workerName_injective hname
          obtain rfl := Option.some.inj (hold.symm.trans hown)
          have hexists : (template config.servers (workerName workerId)).isSome = true := by
            rw [← h.domain, State.servers, ← isSome_executeAll hdocumented hports state.table _
              fun line => h.exists_written, hprior]
            rfl
          obtain ⟨found, hfound⟩ := Option.isSome_iff_exists.mp hexists
          obtain ⟨⟨owner, _, hle, howner⟩, _⟩ := template_eq_some hfound
          obtain rfl := workerName_injective howner
          exact hcondition.1 hle other hown hstage hdrains
        · exact hu workerId other hold hdrains server hsame hready
      · cases heq
  | cluster _ hc =>
      rw [State.settled, List.foldl_append] at hserver
      obtain ⟨hsame, hother⟩ := ready_of_drainLine hdocumented hserver hready
      rcases connected_before h.cluster hc hget hconnected with
        ⟨process, hold, hdrains⟩ | ⟨index, heq⟩
      · exact hu workerId process hold hdrains server hsame hready
      · exact hother workerId index heq rfl
  | @perform index line hline =>
      obtain rfl : index = 0 := hcondition.2
      obtain ⟨rest, hwritten⟩ : ∃ rest, state.written = line :: rest :=
        List.head?_eq_some_iff.mp (by rw [List.head?_eq_getElem?, hline])
      refine hu workerId later hget hconnected server ?_ hready
      rw [State.settled, hwritten]
      rw [State.settled, hwritten] at hserver
      exact hserver

-- The server of a worker that registers is ready, whatever the worker has asked for before.
theorem clear_of_unrouted (state : State Uuid Table) (event : Event Uuid)
    (next : State Uuid Table) (h : Sound config state)
    (hs : step config state event = some next) (hu : Unrouted config next) :
    Clear config state event := by
  cases event with
  | cluster | perform => trivial
  | startup workerId fulfilled =>
      cases fulfilled with
      | false => trivial
      | true =>
          intro hle process hget hstage hconnected
          cases step_stepped hs with
          | advanced hown hother =>
              obtain rfl := Option.some.inj (hget.symm.trans hown)
              exact hother.1 hstage
          | registered _ _ hc =>
              obtain ⟨later, hlater, hcontinued⟩ := Cluster.step_continued hc hget
              have hstill : Connected later.worker := by
                cases hcontinued with
                | same => exact hconnected
                | worker _ _ hworker =>
                    cases (Worker.step_stepped hworker).2 with
                    | ready => exact hconnected
              have hexists : (state.settled config (workerName workerId)).isSome = true := by
                rw [State.settled, isSome_executeAll hdocumented hports state.table _
                  fun line => h.exists_written, ← State.servers, h.domain]
                exact template_isSome ⟨(h.range hget).1, hle⟩
              obtain ⟨old, hold⟩ := Option.isSome_iff_exists.mp hexists
              refine hu workerId later hlater hstill
                ⟨localhost, config.VPN_BASE_PORT + workerId, .ready⟩ ?_ rfl
              rw [State.settled, List.foldl_append, List.foldl_cons, List.foldl_nil,
                execute_registerLine hdocumented hports _ (h.range hget), modify_self]
              exact Option.map_eq_some_iff.mpr ⟨old, hold, rfl⟩

omit hdocumented hports in
theorem unrouted_initial (config : Config Table) :
    Unrouted config (initial config : State Uuid Table) := by
  intro workerId process hget hconnected
  have hfresh := (Cluster.initial_fresh config.cluster _ rfl).1 workerId process hget
  obtain ⟨drain, hmem, _⟩ := hconnected
  rw [hfresh.1] at hmem
  cases hmem

end Draining

section Startups

variable {clusterConfig : Cluster.Config} {cluster cluster' : Cluster.State Uuid}

theorem preparesShutdown_step {workerConfig : Worker.Config} {worker worker' : Worker.State Uuid}
    {event : Worker.Event Uuid} (hs : Worker.step workerConfig worker event = some worker')
    (hready : event ≠ .ready) : worker'.preparesShutdown = worker.preparesShutdown := by
  have hcall : ∀ listener (later : Worker.State Uuid),
      later.preparesShutdown = worker.preparesShutdown →
        (Worker.DrainConnections.call listener later).preparesShutdown =
          worker.preparesShutdown := by
    intro listener later h
    cases listener <;> exact h
  have hkill : ∀ index drain delayMs, (worker.killNext workerConfig index drain
      delayMs).preparesShutdown = worker.preparesShutdown := by
    intro index drain delayMs
    unfold Worker.State.killNext
    split <;> rfl
  cases (Worker.step_stepped hs).2 with
  | signal eventType => exact Worker.emit_keeps _ hcall rfl eventType
  | prepareShutdown => exact hcall _ worker rfl
  | ready => exact absurd rfl hready
  | tooEarly | toggleVerbosity | fatalError | established => rfl
  | bytecount =>
      unfold Worker.State.writeBandwidthMetrics
      split <;> rfl
  | @haproxy _ index _ hnext =>
      obtain ⟨killed, _, ⟨_, _, rfl⟩ | ⟨_, _, rfl⟩ | ⟨_, rfl⟩⟩ := Worker.haproxy_cases hnext
      · exact hkill ..
      · rfl
      · have hset : (worker.setDrain index ⟨.failed, killed⟩).preparesShutdown =
            worker.preparesShutdown := rfl
        exact Worker.emit_keeps _ hcall hset _
  | timeout hnext =>
      obtain ⟨killed, ⟨delayMs, _, rfl⟩ | ⟨_, rfl⟩⟩ := Worker.timeout_cases hnext
      · exact hkill ..
      · rfl

theorem pid_of_set {processes : OrderedMap Nat (Cluster.Process Uuid)} {owner workerId : Nat}
    {old changed process later : Cluster.Process Uuid} (hown : processes.get owner = some old)
    (hold : processes.get workerId = some process)
    (hget : (processes.set owner changed).get workerId = some later)
    (hpid : changed.pid = old.pid) :
    later.pid = process.pid := by
  rw [OrderedMap.get_set] at hget
  split at hget
  · rename_i he
    subst he
    obtain rfl := Option.some.inj hget
    obtain rfl := Option.some.inj (hold.symm.trans hown)
    exact hpid
  · obtain rfl := Option.some.inj (hold.symm.trans hget)
    rfl

-- A process keeps its pid, and one that replaces another gets the next.
theorem pid_step {event : Cluster.Event Uuid}
    (hs : Cluster.step clusterConfig cluster event = some cluster') {workerId : Nat}
    {process later : Cluster.Process Uuid} (hold : cluster.processes.get workerId = some process)
    (hget : cluster'.processes.get workerId = some later) :
    (later.pid = process.pid ∧ event ≠ .exit workerId) ∨
      event = .exit workerId ∧ later.pid = cluster.nextPid ∧
        later.worker.preparesShutdown = false := by
  have hbroadcast : ∀ order, (cluster.broadcast order).processes.get workerId = some later →
      later.pid = process.pid := by
    intro order hmap
    rw [Cluster.State.broadcast, OrderedMap.get_mapValues, hold] at hmap
    exact Option.some.inj hmap ▸ rfl
  cases (Cluster.step_stepped hs).2 with
  | SIGTERM => exact Or.inl ⟨hbroadcast _ hget, by simp⟩
  | SIGUSR2 => exact Or.inl ⟨hbroadcast _ hget, by simp⟩
  | worker _ hown hturn =>
      obtain ⟨_, worker, _, rfl⟩ := Cluster.turn_eq_some hturn
      exact Or.inl ⟨pid_of_set hown hold hget rfl, by simp⟩
  | receive hown _ hturn =>
      obtain ⟨_, worker, _, rfl⟩ := Cluster.turn_eq_some hturn
      exact Or.inl ⟨pid_of_set hown hold hget rfl, by simp⟩
  | kill hown => exact Or.inl ⟨pid_of_set hown hold hget rfl, by simp⟩
  | message =>
      rw [(Cluster.onMessage_frame clusterConfig _ _).1] at hget
      obtain rfl := Option.some.inj (hold.symm.trans hget)
      exact Or.inl ⟨rfl, by simp⟩
  | @exit owner _ _ _ =>
      rw [Cluster.State.restartWorker, OrderedMap.get_set] at hget
      split at hget
      · rename_i he
        subst he
        obtain rfl := Option.some.inj hget
        exact Or.inr ⟨rfl, rfl, rfl⟩
      · rename_i he
        obtain rfl := Option.some.inj (hold.symm.trans hget)
        exact Or.inl ⟨rfl, fun heq => he (Cluster.Event.exit.inj heq)⟩

theorem nextPid_step {event : Cluster.Event Uuid}
    (hs : Cluster.step clusterConfig cluster event = some cluster') :
    cluster'.nextPid = cluster.nextPid ∨ cluster'.nextPid = cluster.nextPid + 1 := by
  cases (Cluster.step_stepped hs).2 with
  | SIGTERM | SIGUSR2 | kill => exact Or.inl rfl
  | worker _ _ hturn =>
      obtain ⟨_, _, _, rfl⟩ := Cluster.turn_eq_some hturn
      exact Or.inl rfl
  | receive _ _ hturn =>
      obtain ⟨_, _, _, rfl⟩ := Cluster.turn_eq_some hturn
      exact Or.inl rfl
  | exit => exact Or.inr rfl
  | message => exact Or.inl (Cluster.onMessage_frame clusterConfig _ _).2.1

-- The processes have pids of their own, and a worker is ready once its startup is over.
structure Staged (state : State Uuid Table) : Prop where
  distinct : ∀ first second process other,
    state.cluster.processes.get first = some process →
    state.cluster.processes.get second = some other → process.pid = other.pid → first = second
  forked : ∀ pid startup, state.startups.get pid = some startup → pid < state.cluster.nextPid
  stage : ∀ workerId process, state.cluster.processes.get workerId = some process →
    (state.stage process.pid = .ready ↔ process.worker.preparesShutdown = true)

theorem stage_of_get {pid : Nat} {startup : Startup}
    (h : state.startups.get pid = some startup) : state.stage pid = startup.stage := by
  rw [State.stage, h]
  rfl

theorem stage_congr {pid : Nat} (h : next.startups.get pid = state.startups.get pid) :
    next.stage pid = state.stage pid := by rw [State.stage, h, State.stage]

theorem stage_of_forked (h : Staged state) {pid : Nat} (hle : state.cluster.nextPid ≤ pid) :
    state.stage pid = .start := by
  cases hget : state.startups.get pid with
  | none => rw [State.stage, hget]; rfl
  | some startup => exact absurd (h.forked pid startup hget) (Nat.not_lt.mpr hle)

theorem distinct_step (h : Staged state) (hsound : Cluster.Sound config.cluster state.cluster)
    {event : Cluster.Event Uuid} {cluster : Cluster.State Uuid}
    (hs : Cluster.step config.cluster state.cluster event = some cluster) (first second : Nat)
    (process other : Cluster.Process Uuid) (hfirst : cluster.processes.get first = some process)
    (hsecond : cluster.processes.get second = some other) (hpid : process.pid = other.pid) :
    first = second := by
  obtain ⟨before, hbefore, _⟩ := hsound.before hs hfirst
  obtain ⟨earlier, hearlier, _⟩ := hsound.before hs hsecond
  have hlt := (hsound.traced.processes first before hbefore).2
  have hlt' := (hsound.traced.processes second earlier hearlier).2
  rcases pid_step hs hbefore hfirst with ⟨hkept, _⟩ | ⟨rfl, hnew, _⟩
  · rcases pid_step hs hearlier hsecond with ⟨hkept', _⟩ | ⟨_, hnew', _⟩
    · exact h.distinct first second before earlier hbefore hearlier
        (hkept.symm.trans (hpid.trans hkept'))
    · omega
  · rcases pid_step hs hearlier hsecond with ⟨hkept', _⟩ | ⟨hexit, _, _⟩
    · omega
    · exact Cluster.Event.exit.inj hexit

-- What a process that is not replaced keeps, if it does not become ready.
theorem preparesShutdown_continued {event : Cluster.Event Uuid} {workerId : Nat}
    {process later : Cluster.Process Uuid}
    (hc : Cluster.Continued clusterConfig cluster' workerId process event later)
    (hready : event ≠ .worker workerId .ready) (hexit : event ≠ .exit workerId) :
    later.worker.preparesShutdown = process.worker.preparesShutdown := by
  cases hc with
  | same | SIGTERM | SIGUSR2 | kill => rfl
  | worker _ _ hworker => exact preparesShutdown_step hworker fun heq => hready (heq ▸ rfl)
  | @receive order _ _ _ _ hworker =>
      exact preparesShutdown_step hworker (by cases order <;> nofun)
  | exit => exact absurd rfl hexit

theorem staged_cluster (h : Staged state) (hsound : Cluster.Sound config.cluster state.cluster)
    {event : Cluster.Event Uuid} {cluster : Cluster.State Uuid}
    (hready : ∀ workerId, event ≠ .worker workerId .ready)
    (hs : Cluster.step config.cluster state.cluster event = some cluster) :
    Staged { state with cluster } where
  distinct := distinct_step h hsound hs
  forked pid startup hget := by
    have hlt := h.forked pid startup hget
    have hnext := nextPid_step hs
    simp only
    omega
  stage workerId later hget := by
    obtain ⟨process, hold, hcontinued⟩ := hsound.before hs hget
    rcases pid_step hs hold hget with ⟨hkept, hexit⟩ | ⟨_, hnew, hunready⟩
    · rw [hkept, preparesShutdown_continued hcontinued (hready workerId) hexit]
      exact h.stage workerId process hold
    · have hstart : ({ state with cluster } : State Uuid Table).stage later.pid = .start :=
        stage_of_forked h (Nat.le_of_eq hnew.symm)
      rw [hstart, hunready]
      exact iff_of_false nofun nofun

theorem ready_step {workerId : Nat} {process : Cluster.Process Uuid}
    (hown : cluster.processes.get workerId = some process)
    (hs : Cluster.step clusterConfig cluster (.worker workerId .ready) = some cluster') :
    cluster'.nextPid = cluster.nextPid ∧ cluster'.processes = cluster.processes.set workerId
      { process with worker := { process.worker with preparesShutdown := true } } := by
  cases (Cluster.step_stepped hs).2 with
  | worker _ hget hturn =>
      obtain rfl := Option.some.inj (hget.symm.trans hown)
      obtain ⟨_, worker, hworker, rfl⟩ := Cluster.turn_eq_some hturn
      cases (Worker.step_stepped hworker).2 with
      | ready => exact ⟨rfl, rfl⟩

-- A startup that goes on is that of its own process.
theorem Staged.get_set (h : Staged state) {workerId other : Nat}
    {process later : Cluster.Process Uuid}
    (hown : state.cluster.processes.get workerId = some process)
    (hget : state.cluster.processes.get other = some later) (hne : other ≠ workerId)
    (startup : Startup) :
    (state.startups.set process.pid startup).get later.pid = state.startups.get later.pid :=
  OrderedMap.get_set_of_ne _ _ _ _ fun hpid =>
    hne (h.distinct workerId other process later hown hget hpid).symm

theorem staged_advanced (h : Staged state) {workerId : Nat} {process : Cluster.Process Uuid}
    (hown : state.cluster.processes.get workerId = some process)
    (hlt : process.pid < state.cluster.nextPid) {stage : Stage} (hnext : stage ≠ .ready)
    (hstage : state.stage process.pid ≠ .ready) :
    Staged { state with startups := state.startups.set process.pid ⟨workerId, stage⟩ } where
  distinct := h.distinct
  forked pid startup hget := by
    rw [OrderedMap.get_set] at hget
    split at hget
    · rename_i he
      exact he ▸ hlt
    · exact h.forked pid startup hget
  stage other later hget := by
    by_cases he : other = workerId
    · subst he
      obtain rfl := Option.some.inj (hget.symm.trans hown)
      rw [stage_of_get (OrderedMap.get_set_self ..), ← h.stage other later hget]
      exact iff_of_false hnext hstage
    · rw [stage_congr (h.get_set hown hget he _)]
      exact h.stage other later hget

theorem staged_registered (h : Staged state) {workerId : Nat} {process : Cluster.Process Uuid}
    {cluster : Cluster.State Uuid}
    (hown : state.cluster.processes.get workerId = some process)
    (hlt : process.pid < state.cluster.nextPid)
    (hs : Cluster.step config.cluster state.cluster (.worker workerId .ready) = some cluster) :
    Staged { state with
      cluster, startups := state.startups.set process.pid ⟨workerId, .ready⟩ } := by
  obtain ⟨hnextPid, hprocesses⟩ := ready_step hown hs
  have hcases : ∀ other later, cluster.processes.get other = some later →
      ∃ before, state.cluster.processes.get other = some before ∧ later.pid = before.pid ∧
        (other = workerId ∧ later.worker.preparesShutdown = true ∨
          other ≠ workerId ∧ later = before) := by
    intro other later hget
    rw [hprocesses, OrderedMap.get_set] at hget
    split at hget
    · rename_i he
      subst he
      obtain rfl := Option.some.inj hget
      exact ⟨process, hown, rfl, Or.inl ⟨rfl, rfl⟩⟩
    · rename_i he
      exact ⟨later, hget, rfl, Or.inr ⟨Ne.symm he, rfl⟩⟩
  refine ⟨fun first second later other hfirst hsecond hpid => ?_, fun pid startup hget => ?_,
    fun other later hget => ?_⟩
  · obtain ⟨before, hbefore, hkept, _⟩ := hcases first later hfirst
    obtain ⟨earlier, hearlier, hkept', _⟩ := hcases second other hsecond
    exact h.distinct first second before earlier hbefore hearlier
      (hkept.symm.trans (hpid.trans hkept'))
  · simp only at hget ⊢
    rw [hnextPid]
    rw [OrderedMap.get_set] at hget
    split at hget
    · rename_i he
      exact he ▸ hlt
    · exact h.forked pid startup hget
  · obtain ⟨before, hbefore, hkept, ⟨rfl, hready⟩ | ⟨hne, rfl⟩⟩ := hcases other later hget
    · obtain rfl := Option.some.inj (hbefore.symm.trans hown)
      rw [hkept, hready, stage_of_get (OrderedMap.get_set_self ..)]
      exact iff_of_true rfl rfl
    · have hsame := h.get_set hown hbefore hne ⟨workerId, .ready⟩
      rw [stage_congr hsame]
      exact h.stage other later hbefore

-- The pids of the processes are taken, and differ.
def Numbered (cluster : Cluster.State Uuid) : Prop :=
  (∀ workerId process, cluster.processes.get workerId = some process →
    process.pid < cluster.nextPid) ∧
  ∀ first second process other, cluster.processes.get first = some process →
    cluster.processes.get second = some other → process.pid = other.pid → first = second

theorem numbered_restartWorker (h : Numbered cluster) (workerId : Nat) :
    Numbered (cluster.restartWorker clusterConfig workerId) := by
  have hcases : ∀ other later,
      (cluster.restartWorker clusterConfig workerId).processes.get other = some later →
        (workerId = other ∧ later.pid = cluster.nextPid) ∨
          cluster.processes.get other = some later := by
    intro other later hget
    rw [Cluster.State.restartWorker, OrderedMap.get_set] at hget
    split at hget
    · rename_i he
      exact Or.inl ⟨he, Option.some.inj hget ▸ rfl⟩
    · exact Or.inr hget
  have hnext : (cluster.restartWorker clusterConfig workerId).nextPid = cluster.nextPid + 1 := rfl
  refine ⟨fun other later hget => ?_, fun first second process other hfirst hsecond hpid => ?_⟩
  · rcases hcases other later hget with ⟨_, hnew⟩ | hold
    · omega
    · have hlt := h.1 other later hold
      omega
  · rcases hcases first process hfirst with ⟨rfl, hnew⟩ | hold
    · rcases hcases second other hsecond with ⟨hsame, _⟩ | hold'
      · exact hsame
      · have hlt := h.1 second other hold'
        omega
    · rcases hcases second other hsecond with ⟨rfl, hnew⟩ | hold'
      · have hlt := h.1 first process hold
        omega
      · exact h.2 first second process other hold hold' hpid

theorem staged_initial (config : Config Table) :
    Staged (initial config : State Uuid Table) := by
  have hfresh := Cluster.initial_fresh config.cluster (Cluster.State.initial config.cluster :
    Cluster.State Uuid) rfl
  have hnumbered : Numbered (Cluster.State.initial config.cluster : Cluster.State Uuid) :=
    Cluster.initial_keeps config.cluster Numbered
      ⟨fun _ _ hget => (by cases hget), fun _ _ _ _ hfirst => by cases hfirst⟩
      fun cluster workerId _ h => numbered_restartWorker h workerId
  refine ⟨hnumbered.2, fun pid startup hget => ?_, fun workerId process hget => ?_⟩
  · cases (OrderedMap.get_empty pid).symm.trans hget
  · have hstage : (initial config : State Uuid Table).stage process.pid = .start := rfl
    rw [hstage, (hfresh.1 workerId process hget).1]
    exact iff_of_false nofun nofun

theorem staged_step (state : State Uuid Table) (event : Event Uuid) (next : State Uuid Table)
    (hsound : Sound config state) (h : Staged state) (hs : step config state event = some next) :
    Staged next := by
  have hlt : ∀ {workerId process}, state.cluster.processes.get workerId = some process →
      process.pid < state.cluster.nextPid :=
    fun hget => (hsound.cluster.traced.processes _ _ hget).2
  cases step_stepped hs with
  | rejected hc =>
      exact staged_cluster h hsound.cluster (fun _ heq => by cases heq) hc
  | registered hget _ hc =>
      have hstaged := staged_registered h hget (hlt hget) hc
      exact ⟨hstaged.distinct, hstaged.forked, hstaged.stage⟩
  | advanced hget hstage hnext => exact staged_advanced h hget (hlt hget) hnext hstage.2
  | cluster hready hc =>
      have hstaged := staged_cluster h hsound.cluster hready hc
      exact ⟨hstaged.distinct, hstaged.forked, hstaged.stage⟩
  | perform => exact ⟨h.distinct, h.forked, h.stage⟩

end Startups

section Prompted

-- The worker that an event signals.
def Event.signals : Event Uuid → Option Nat
  | .cluster (.worker workerId (.signal _)) => some workerId
  | _ => none

-- No signal, and no exception, reaches a worker before its startup is over.
def Prompted (state : State Uuid Table) (event : Event Uuid) : Prop :=
  ∀ workerId ∈ event.signals, ∀ process ∈ state.cluster.processes.get workerId,
    process.worker.preparesShutdown = true

instance (state : State Uuid Table) (event : Event Uuid) : Decidable (Prompted state event) :=
  have : DecidablePred fun workerId => ∀ process ∈ state.cluster.processes.get workerId,
      process.worker.preparesShutdown = true :=
    fun workerId => Option.decidableForallMem (state.cluster.processes.get workerId)
  Option.decidableForallMem event.signals

-- So a worker that is not ready has not been asked to drain.
def Quiet (state : State Uuid Table) : Prop :=
  ∀ workerId process, state.cluster.processes.get workerId = some process →
    process.worker.preparesShutdown = false → process.worker.drains = []

theorem quiet_cluster (hsound : Cluster.Sound config.cluster state.cluster)
    {event : Cluster.Event Uuid} {cluster : Cluster.State Uuid} (h : Quiet state)
    (hs : Cluster.step config.cluster state.cluster event = some cluster)
    (hprompted : Prompted state (.cluster event)) :
    Quiet { state with cluster } := by
  intro workerId later hget hunready
  obtain ⟨process, hold, hcontinued⟩ := hsound.before hs hget
  cases hcontinued with
  | same => exact h workerId _ hold hunready
  | SIGTERM | SIGUSR2 | kill => exact h workerId process hold hunready
  | exit => rfl
  | @worker event worker hevent _ hworker _ =>
      have hbefore : process.worker.preparesShutdown = false := by
        by_cases hready : event = .ready
        · subst hready
          cases (Worker.step_stepped hworker).2 with
          | ready => cases hunready
        · rw [← preparesShutdown_step hworker hready]
          exact hunready
      have hnil := h workerId process hold hbefore
      refine Worker.drains_nil_step hnil ?_ hworker
      cases event with
      | signal eventType =>
          exact absurd ((hprompted workerId rfl process hold).symm.trans hbefore) nofun
      | prepareShutdown => exact absurd rfl hevent
      | _ => rfl
  | @receive order _ worker _ _ hworker _ =>
      have hsame := preparesShutdown_step hworker (by cases order <;> nofun)
      have hbefore := hsame.symm.trans hunready
      have hnil := h workerId process hold hbefore
      cases order with
      | prepareShutdown =>
          obtain rfl := Worker.prepareShutdown_tooEarly hbefore hworker
          exact hnil
      | toggleVerbosity => exact Worker.drains_nil_step hnil rfl hworker

theorem quiet_step (state : State Uuid Table) (event : Event Uuid) (next : State Uuid Table)
    (hsound : Sound config state) (h : Quiet state) (hprompted : Prompted state event)
    (hs : step config state event = some next) : Quiet next := by
  cases step_stepped hs with
  | rejected hc => exact quiet_cluster hsound.cluster h hc nofun
  | registered _ _ hc => exact quiet_cluster hsound.cluster h hc nofun
  | cluster _ hc => exact quiet_cluster hsound.cluster h hc hprompted
  | advanced => exact h
  | perform => exact h

theorem clear_of_quiet (hstaged : Staged state) (h : Quiet state) (event : Event Uuid) :
    Clear config state event := by
  cases event with
  | cluster | perform => trivial
  | startup workerId fulfilled =>
      cases fulfilled with
      | false => trivial
      | true =>
          intro _ process hget hstage hconnected
          have hunready : process.worker.preparesShutdown = false := by
            rw [← Bool.not_eq_true, ← hstaged.stage workerId process hget, hstage]
            nofun
          obtain ⟨drain, hmem, _⟩ := hconnected
          rw [h workerId process hget hunready] at hmem
          cases hmem

theorem quiet_initial (config : Config Table) : Quiet (initial config : State Uuid Table) := by
  intro workerId process hget _
  rw [((Cluster.initial_fresh config.cluster _ rfl).1 workerId process hget).1]
  rfl

variable (hdocumented : Documented config.haproxy)
  (hports : config.VPN_BASE_PORT + config.cluster.VPN_INSTANCE_COUNT ≤ 65535)

include hdocumented hports

theorem sound_staged_step (state : State Uuid Table) (event : Event Uuid)
    (next : State Uuid Table) (h : Sound config state ∧ Staged state)
    (hs : step config state event = some next) : Sound config next ∧ Staged next :=
  ⟨sound_step hdocumented hports state event next h.1 hs, staged_step state event next h.1 h.2 hs⟩

theorem quiet_unrouted_step (state : State Uuid Table) (event : Event Uuid)
    (next : State Uuid Table) (h : Sound config state ∧ Staged state)
    (hp : Quiet state ∧ Unrouted config state) (hc : Prompted state event ∧ event.InOrder)
    (hs : step config state event = some next) : Quiet next ∧ Unrouted config next :=
  ⟨quiet_step state event next h.1 hp.1 hc.1 hs, unrouted_step hdocumented hports state event next
    h.1 hp.2 ⟨clear_of_quiet h.2 hp.1 event, hc.2⟩ hs⟩

end Prompted

section Theorems

-- Whenever HAProxy takes what the workers write, and whichever of them are replaced: a server
-- that gets new connections leads to the openvpn process of the worker it is named for, on
-- the local host, and that worker's startup has got as far as the registration. No two of
-- them share a port.
theorem routing_sound (config : Config Table) (hdocumented : Documented config.haproxy)
    (hports : config.VPN_BASE_PORT + config.cluster.VPN_INSTANCE_COUNT ≤ 65535)
    (events : List (Event Uuid)) (state : State Uuid Table)
    (hrun : run (step config) (initial config) events = some state) (name : Text)
    (server : Server) (hserver : state.servers config name = some server)
    (hready : server.state = .ready) :
    (∃ workerId, 1 ≤ workerId ∧ workerId ≤ config.servers ∧
      workerId ≤ config.cluster.VPN_INSTANCE_COUNT ∧ name = workerName workerId ∧
      server.addr = localhost ∧ server.port = config.VPN_BASE_PORT + workerId ∧
      state.Released workerId) ∧
    ∀ other second, state.servers config other = some second → second.state = .ready →
      second.port = server.port → other = name := by
  have h := run_invariant (sound_step hdocumented hports) (sound_initial hdocumented) hrun
  obtain ⟨workerId, hrange, rfl, haddr, hown⟩ := h.servers name server hserver
  obtain ⟨hle, hport, hreleased⟩ := hown hready
  refine ⟨⟨workerId, hrange.1, hrange.2, hle, rfl, haddr, hport, hreleased⟩,
    fun other second hsecond hother hsame => ?_⟩
  obtain ⟨otherId, _, rfl, _, hotherOwn⟩ := h.servers other second hsecond
  obtain ⟨_, hotherPort, _⟩ := hotherOwn hother
  obtain rfl : otherId = workerId := by omega
  rfl

def plainConfig (VPN_INSTANCE_COUNT servers : Nat) : Config Servers :=
  ⟨⟨VPN_INSTANCE_COUNT, false, 30, 120⟩, 10000, servers, plainRuntime⟩

-- The process that registered has been killed, and the one in its place starts.
theorem routing_sound_replaced :
    ∃ state : State String Servers, run (step (plainConfig 2 2)) (initial (plainConfig 2 2))
        (List.replicate 5 (.startup 2 true) ++
          [.perform 0, .cluster (.kill 2), .cluster (.exit 2), .startup 2 true]) = some state ∧
      state.servers (plainConfig 2 2) (workerName 2) = some ⟨localhost, 10002, .ready⟩ ∧
      state.Released 2 := by
  have hrouted : (run (step (plainConfig 2 2)) (initial (plainConfig 2 2) : State String Servers)
      (List.replicate 5 (.startup 2 true) ++
        [.perform 0, .cluster (.kill 2), .cluster (.exit 2), .startup 2 true])).bind
          (·.servers (plainConfig 2 2) (workerName 2)) = some ⟨localhost, 10002, .ready⟩ := by
    decide +kernel
  obtain ⟨state, hrun, hserver⟩ := Option.bind_eq_some_iff.mp hrouted
  obtain ⟨⟨workerId, _, _, _, hname, _, _, hreleased⟩, _⟩ := routing_sound (plainConfig 2 2)
    documented_plainRuntime (by decide) _ state hrun (workerName 2) _ hserver rfl
  obtain rfl := workerName_injective hname
  exact ⟨state, hrun, hserver, hreleased⟩

-- HAProxy in order: a worker that drains gets no new connections, in any state of a run,
-- if and only if no worker registers that drains already. That is so as long as the workers
-- are left to the primary until they are ready; a signal of their own may come too early.
theorem drained_unrouted_iff (config : Config Table) (hdocumented : Documented config.haproxy)
    (hports : config.VPN_BASE_PORT + config.cluster.VPN_INSTANCE_COUNT ≤ 65535)
    (events : List (Event Uuid)) (last : State Uuid Table)
    (hordered : ∀ event ∈ events, event.InOrder)
    (hrun : run (step config) (initial config) events = some last) :
    (Throughout (step config) (Unrouted config) (initial config) events ↔
      StepsMeet (step config) (Clear config) (initial config) events) ∧
    (StepsMeet (step config) Prompted (initial config) events →
      Throughout (step config) (Unrouted config) (initial config) events) := by
  have hsound : Sound config (initial config : State Uuid Table) := sound_initial hdocumented
  have hstep := @sound_step Uuid _ config hdocumented hports
  refine ⟨⟨fun h => ?_, fun h => ?_⟩, fun h => ?_⟩
  · exact stepsMeet_of_throughout hstep
      (fun state event next hi _ hs hu =>
        clear_of_unrouted hdocumented hports state event next hi hs hu) hsound hrun h
  · exact throughout_of_stepsMeet hstep (unrouted_step hdocumented hports) hsound
      (unrouted_initial config) (h.and_forall hordered)
  · exact (throughout_of_stepsMeet (sound_staged_step hdocumented hports)
      (quiet_unrouted_step hdocumented hports) ⟨hsound, staged_initial config⟩
      ⟨quiet_initial config, unrouted_initial config⟩ (h.and_forall hordered)).imp
        fun state hp => hp.2

-- A worker that gets a SIGTERM of its own while openvpn starts. It drains, and then takes
-- clients after all. Told by the primary, once it is ready, it takes none.
theorem drained_unrouted_early :
    let config := plainConfig 1 4
    let startup : List (Event String) := List.replicate 5 (.startup 1 true)
    ¬Throughout (step config) (Unrouted config) (initial config : State String Servers)
        ([.cluster (.worker 1 (.signal .SIGTERM)), .cluster (.worker 1 (.haproxy 0 true))] ++
          startup ++ [.perform 0, .perform 0]) ∧
      Throughout (step config) (Unrouted config) (initial config : State String Servers)
        (startup ++ [.cluster .SIGTERM, .cluster (.receive 1),
          .cluster (.worker 1 (.haproxy 0 true)), .perform 0, .perform 0]) := by
  have hearly := @drained_unrouted_iff String _ (plainConfig 1 4) documented_plainRuntime
    (by decide) ([.cluster (.worker 1 (.signal .SIGTERM)), .cluster (.worker 1 (.haproxy 0 true))] ++
      List.replicate 5 (.startup 1 true) ++ [.perform 0, .perform 0]) _ (by decide)
    (Option.some_get (by decide +kernel)).symm
  have htold := @drained_unrouted_iff String _ (plainConfig 1 4) documented_plainRuntime
    (by decide) (List.replicate 5 (.startup 1 true) ++ [.cluster .SIGTERM, .cluster (.receive 1),
      .cluster (.worker 1 (.haproxy 0 true)), .perform 0, .perform 0]) _ (by decide)
    (Option.some_get (by decide +kernel)).symm
  have hclear : ¬StepsMeet (step (plainConfig 1 4)) (Clear (plainConfig 1 4))
      (initial (plainConfig 1 4) : State String Servers)
      ([.cluster (.worker 1 (.signal .SIGTERM)), .cluster (.worker 1 (.haproxy 0 true))] ++
        List.replicate 5 (.startup 1 true) ++ [.perform 0, .perform 0]) := by decide +kernel
  exact ⟨fun h => hclear (hearly.1.mp h), htold.2 (by decide +kernel)⟩

end Theorems

end OpenBalenaVpn.Routing
