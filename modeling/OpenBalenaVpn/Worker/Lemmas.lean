import OpenBalenaVpn.Worker

namespace OpenBalenaVpn.Worker

variable {Uuid : Type}

-- The worker has told the primary that its drain is over.
def State.Finished (worker : State Uuid) (instanceId : Nat) : Prop :=
  .drain instanceId true ∈ worker.sent

-- What a worker sends on a turn: a drain message carries its own instance id.
def Sends (config : Config) (worker next : State Uuid) : Prop :=
  ∃ messages, next.sent = worker.sent ++ messages ∧
    ∀ instanceId finished, .drain instanceId finished ∈ messages →
      instanceId = config.instanceId ∧ finished = true

theorem sends_nothing (config : Config) {worker next : State Uuid}
    (h : next.sent = worker.sent) : Sends config worker next :=
  ⟨[], by simpa using h, by simp⟩

theorem call_sent (listener : DrainConnections) (worker : State Uuid) :
    (listener.call worker).sent = worker.sent := by
  cases listener <;> rfl

-- What every call of a listener keeps is kept when an event is emitted.
theorem emit_keeps (property : State Uuid → Prop)
    (hcall : ∀ listener worker, property worker → property (DrainConnections.call listener worker))
    {worker : State Uuid} (h : property worker) (eventType : EventType) :
    property (worker.emit eventType) := by
  unfold State.emit
  generalize worker.handlers = handlers
  induction handlers generalizing worker with
  | nil => exact h
  | cons handler handlers ih =>
      obtain ⟨registered, listener⟩ := handler
      rw [List.foldl_cons]
      by_cases he : registered = eventType
      · exact ih (by simpa only [he, if_true] using hcall listener worker h)
      · exact ih (by simpa only [he, if_false] using h)

theorem emit_sent (worker : State Uuid) (eventType : EventType) :
    (worker.emit eventType).sent = worker.sent :=
  emit_keeps (fun next => next.sent = worker.sent)
    (fun listener next h => (call_sent listener next).trans h) rfl eventType

theorem signalCluster_sends (config : Config) (worker : State Uuid) (index : Nat)
    (drain : Drain Uuid) : Sends config worker (worker.signalCluster config index drain) :=
  ⟨[.drain config.instanceId true], rfl, by simp⟩

theorem killNext_sends (config : Config) (worker : State Uuid) (index : Nat) (drain : Drain Uuid)
    (delayMs : ℚ) : Sends config worker (worker.killNext config index drain delayMs) := by
  unfold State.killNext
  split
  · exact sends_nothing config rfl
  · exact signalCluster_sends config worker index drain

-- What an event does to a worker that runs.
inductive Stepped (config : Config) (worker : State Uuid) : Event Uuid → State Uuid → Prop
  | signal (eventType : EventType) :
      Stepped config worker (.signal eventType) (worker.emit eventType)
  | prepareShutdown (hready : worker.preparesShutdown = true) :
      Stepped config worker .prepareShutdown (worker.drainConnections.call worker)
  | tooEarly (hready : worker.preparesShutdown = false) :
      Stepped config worker .prepareShutdown worker
  | toggleVerbosity :
      Stepped config worker .toggleVerbosity { worker with verbose := !worker.verbose }
  | ready : Stepped config worker .ready { worker with preparesShutdown := true }
  | fatalError : Stepped config worker .fatalError { worker with exitCode := some 1 }
  | established (clientId : Nat) (uuid : Uuid) (now : Nat) :
      Stepped config worker (.established clientId uuid now) (worker.established clientId uuid now)
  | bytecount (clientId : Nat) (bytesReceived bytesSent : Int) (now : Nat) :
      Stepped config worker (.bytecount clientId bytesReceived bytesSent now)
        (worker.writeBandwidthMetrics clientId bytesReceived bytesSent now)
  | haproxy {next : State Uuid} {index : Nat} {connected : Bool}
      (hnext : worker.haproxy config index connected = some next) :
      Stepped config worker (.haproxy index connected) next
  | timeout {next : State Uuid} {index : Nat} (hnext : worker.timeout config index = some next) :
      Stepped config worker (.timeout index) next

theorem step_stepped {config : Config} {worker next : State Uuid} {event : Event Uuid}
    (hs : step config worker event = some next) :
    worker.exitCode = none ∧ Stepped config worker event next := by
  unfold step at hs
  split at hs
  · cases hs
  · rename_i hrunning
    refine ⟨Option.not_isSome_iff_eq_none.mp hrunning, ?_⟩
    cases event with
    | signal eventType => exact (Option.some.inj hs) ▸ .signal eventType
    | prepareShutdown =>
        obtain rfl := Option.some.inj hs
        split
        · rename_i hready
          exact .prepareShutdown hready
        · rename_i hready
          exact .tooEarly (Bool.not_eq_true _ ▸ hready)
    | toggleVerbosity => exact (Option.some.inj hs) ▸ .toggleVerbosity
    | ready =>
        simp only at hs
        split at hs
        · cases hs
        · exact (Option.some.inj hs) ▸ .ready
    | fatalError => exact (Option.some.inj hs) ▸ .fatalError
    | established clientId uuid now =>
        exact (Option.some.inj hs) ▸ .established clientId uuid now
    | bytecount clientId bytesReceived bytesSent now =>
        exact (Option.some.inj hs) ▸ .bytecount clientId bytesReceived bytesSent now
    | haproxy index connected => exact .haproxy hs
    | timeout index => exact .timeout hs

theorem exitCode_of_step {config : Config} {worker next : State Uuid} {event : Event Uuid}
    (hs : step config worker event = some next) : worker.exitCode = none := (step_stepped hs).1

-- What the outcome of the connection to HAProxy does to a call that awaits it.
theorem haproxy_cases {config : Config} {worker next : State Uuid} {index : Nat}
    {connected : Bool} (hs : worker.haproxy config index connected = some next) :
    ∃ killed, worker.drains[index]? = some ⟨.connecting, killed⟩ ∧
      (connected = true ∧ 0 < worker.clientCache.size ∧
          next = worker.killNext config index ⟨.connecting, killed⟩
            (delayMs config worker.clientCache.size) ∨
        connected = true ∧ worker.clientCache.size = 0 ∧
          next = worker.signalCluster config index ⟨.connecting, killed⟩ ∨
        connected = false ∧
          next = (worker.setDrain index ⟨.failed, killed⟩).emit .uncaughtException) := by
  unfold State.haproxy at hs
  split at hs
  · rename_i killed hget
    refine ⟨killed, hget, ?_⟩
    cases connected with
    | true =>
        simp only [if_true] at hs
        split at hs
        · rename_i hcount
          exact Or.inl ⟨rfl, hcount, (Option.some.inj hs).symm⟩
        · rename_i hcount
          exact Or.inr (Or.inl ⟨rfl, Nat.eq_zero_of_not_pos hcount, (Option.some.inj hs).symm⟩)
    | false =>
        rw [if_neg Bool.false_ne_true] at hs
        exact Or.inr (Or.inr ⟨rfl, (Option.some.inj hs).symm⟩)
  · cases hs

-- A timer ends the wait after a kill, or the last one.
theorem timeout_cases {config : Config} {worker next : State Uuid} {index : Nat}
    (hs : worker.timeout config index = some next) : ∃ killed,
    (∃ delayMs, worker.drains[index]? = some ⟨.killing delayMs, killed⟩ ∧
      next = worker.killNext config index ⟨.killing delayMs, killed⟩ delayMs) ∨
    (worker.drains[index]? = some ⟨.signalled, killed⟩ ∧
      next = { worker with exitCode := some 0 }) := by
  unfold State.timeout at hs
  split at hs
  · rename_i delayMs killed hget
    exact ⟨killed, Or.inl ⟨delayMs, hget, (Option.some.inj hs).symm⟩⟩
  · rename_i killed hget
    exact ⟨killed, Or.inr ⟨hget, (Option.some.inj hs).symm⟩⟩
  · cases hs

theorem haproxy_sends (config : Config) {worker next : State Uuid} {index : Nat}
    {connected : Bool} (hs : worker.haproxy config index connected = some next) :
    Sends config worker next := by
  obtain ⟨killed, _, ⟨_, _, rfl⟩ | ⟨_, _, rfl⟩ | ⟨_, rfl⟩⟩ := haproxy_cases hs
  · exact killNext_sends config worker index _ _
  · exact signalCluster_sends config worker index _
  · exact sends_nothing config (emit_sent _ _)

theorem timeout_sends (config : Config) {worker next : State Uuid} {index : Nat}
    (hs : worker.timeout config index = some next) : Sends config worker next := by
  obtain ⟨killed, ⟨delayMs, _, rfl⟩ | ⟨_, rfl⟩⟩ := timeout_cases hs
  · exact killNext_sends config worker index _ _
  · exact sends_nothing config rfl

theorem writeBandwidthMetrics_sends (config : Config) (worker : State Uuid) (clientId : Nat)
    (bytesReceived bytesSent : Int) (now : Nat) :
    Sends config worker (worker.writeBandwidthMetrics clientId bytesReceived bytesSent now) := by
  unfold State.writeBandwidthMetrics
  split
  · exact sends_nothing config rfl
  · rename_i clientEntry _
    by_cases htime : (now : Int) - clientEntry.ts > 0
    · exact ⟨_, by simp only [htime, if_true]; rfl, by simp⟩
    · exact sends_nothing config (by simp only [htime, if_false])

theorem step_sends (config : Config) {worker next : State Uuid} {event : Event Uuid}
    (hs : step config worker event = some next) : Sends config worker next := by
  cases (step_stepped hs).2 with
  | signal eventType => exact sends_nothing config (emit_sent worker eventType)
  | prepareShutdown => exact sends_nothing config (call_sent _ worker)
  | bytecount clientId bytesReceived bytesSent now =>
      exact writeBandwidthMetrics_sends config worker clientId bytesReceived bytesSent now
  | haproxy hnext => exact haproxy_sends config hnext
  | timeout hnext => exact timeout_sends config hnext
  | tooEarly | toggleVerbosity | ready | fatalError | established =>
      exact sends_nothing config rfl

section Frame

-- A drain changes neither the verbosity nor the cached clients.
structure Undisturbed (worker next : State Uuid) : Prop where
  verbose : next.verbose = worker.verbose
  clientCache : next.clientCache = worker.clientCache

variable {config : Config} {worker next : State Uuid}

theorem call_undisturbed (listener : DrainConnections) (worker : State Uuid) :
    Undisturbed worker (listener.call worker) := by
  cases listener <;> exact ⟨rfl, rfl⟩

theorem emit_undisturbed (worker : State Uuid) (eventType : EventType) :
    Undisturbed worker (worker.emit eventType) := by
  refine emit_keeps (Undisturbed worker) (fun listener next h => ?_) ⟨rfl, rfl⟩ eventType
  obtain ⟨hverbose, hcache⟩ := call_undisturbed listener next
  exact ⟨hverbose.trans h.verbose, hcache.trans h.clientCache⟩

theorem killNext_undisturbed (config : Config) (worker : State Uuid) (index : Nat)
    (drain : Drain Uuid) (delayMs : ℚ) :
    Undisturbed worker (worker.killNext config index drain delayMs) := by
  unfold State.killNext
  split <;> exact ⟨rfl, rfl⟩

theorem haproxy_undisturbed {index : Nat} {connected : Bool}
    (hs : worker.haproxy config index connected = some next) : Undisturbed worker next := by
  obtain ⟨killed, _, ⟨_, _, rfl⟩ | ⟨_, _, rfl⟩ | ⟨_, rfl⟩⟩ := haproxy_cases hs
  · exact killNext_undisturbed config worker index _ _
  · exact ⟨rfl, rfl⟩
  · obtain ⟨hverbose, hcache⟩ := emit_undisturbed (worker.setDrain index _) .uncaughtException
    exact ⟨hverbose, hcache⟩

theorem timeout_undisturbed {index : Nat} (hs : worker.timeout config index = some next) :
    Undisturbed worker next := by
  obtain ⟨killed, ⟨delayMs, _, rfl⟩ | ⟨_, rfl⟩⟩ := timeout_cases hs
  · exact killNext_undisturbed config worker index _ _
  · exact ⟨rfl, rfl⟩

theorem writeBandwidthMetrics_verbose (worker : State Uuid) (clientId : Nat)
    (bytesReceived bytesSent : Int) (now : Nat) :
    (worker.writeBandwidthMetrics clientId bytesReceived bytesSent now).verbose =
      worker.verbose := by
  unfold State.writeBandwidthMetrics
  split <;> rfl

def Event.toggles : Event Uuid → Bool
  | .toggleVerbosity => true
  | _ => false

-- Only the message of the primary changes the verbosity.
theorem step_verbose {event : Event Uuid} (hs : step config worker event = some next) :
    next.verbose = (worker.verbose ^^ event.toggles) := by
  cases (step_stepped hs).2 with
  | signal eventType => simpa [Event.toggles] using (emit_undisturbed worker eventType).verbose
  | prepareShutdown => simpa [Event.toggles] using (call_undisturbed _ worker).verbose
  | bytecount => simp [Event.toggles, writeBandwidthMetrics_verbose]
  | haproxy hnext => simpa [Event.toggles] using (haproxy_undisturbed hnext).verbose
  | timeout hnext => simpa [Event.toggles] using (timeout_undisturbed hnext).verbose
  | tooEarly | toggleVerbosity | ready | fatalError | established =>
      simp [Event.toggles, State.established]

end Frame

end OpenBalenaVpn.Worker
