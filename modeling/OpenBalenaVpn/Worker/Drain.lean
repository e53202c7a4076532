import OpenBalenaVpn.Worker.Lemmas
import OpenBalenaVpn.Foundation.Transition

namespace OpenBalenaVpn.Worker

open Transition

variable {Uuid : Type}

-- The events that node passes to the listeners of the signals.
def Event.raises : Event Uuid → Prop
  | .signal _ => True
  | .haproxy _ connected => connected = false
  | _ => False

-- A 'prepareShutdown' message is ignored until the worker is ready.
def Asks (before : List (Event Uuid)) (event : Event Uuid) : Prop :=
  event.raises ∨ event = .prepareShutdown ∧ .ready ∈ before

-- Every signal, and every uncaught exception, is the first thing to ask for a drain.
def RaisedFirst (events : List (Event Uuid)) : Prop :=
  ¬Sometime (fun before event => event.raises ∧ Sometime Asks before) events

-- The part of a worker that decides which events start the body.
structure Guard where
  drainConnections : DrainConnections
  preparesShutdown : Bool
  started : Nat

def State.guard (worker : State Uuid) : Guard :=
  ⟨worker.drainConnections, worker.preparesShutdown, worker.drains.length⟩

def Guard.start (guard : Guard) : Guard :=
  { guard with drainConnections := .noop, started := guard.started + 1 }

def Guard.after (guard : Guard) : Event Uuid → Guard
  | .signal _ | .haproxy _ false => guard.start
  | .prepareShutdown =>
      if guard.preparesShutdown && guard.drainConnections = .body then guard.start else guard
  | .ready => { guard with preparesShutdown := true }
  | _ => guard

section Turn

-- What the startup leaves in the listeners: the body, not the variable.
def Registered (worker : State Uuid) : Prop :=
  worker.handlers = (State.initial worker.verbose : State Uuid).handlers

theorem emit_eq_call {worker : State Uuid} (h : Registered worker) (eventType : EventType) :
    worker.emit eventType = DrainConnections.body.call worker := by
  rw [State.emit, h]
  cases eventType <;> rfl

@[simp] theorem call_body_guard (worker : State Uuid) :
    (DrainConnections.body.call worker).guard = worker.guard.start := by
  simp [DrainConnections.call, State.guard, Guard.start]

@[simp] theorem setDrain_guard (worker : State Uuid) (index : Nat) (drain : Drain Uuid) :
    (worker.setDrain index drain).guard = worker.guard := by
  simp [State.setDrain, State.guard]

theorem signalCluster_guard (config : Config) (worker : State Uuid) (index : Nat)
    (drain : Drain Uuid) :
    (worker.signalCluster config index drain).guard = worker.guard ∧
      (worker.signalCluster config index drain).handlers = worker.handlers := by
  simp [State.signalCluster, State.setDrain, State.guard]

theorem killNext_guard (config : Config) (worker : State Uuid) (index : Nat) (drain : Drain Uuid)
    (delayMs : ℚ) :
    (worker.killNext config index drain delayMs).guard = worker.guard ∧
      (worker.killNext config index drain delayMs).handlers = worker.handlers := by
  unfold State.killNext
  split
  · exact ⟨setDrain_guard worker index _, rfl⟩
  · exact signalCluster_guard config worker index drain

theorem haproxy_guard (config : Config) {worker next : State Uuid} (h : Registered worker)
    {index : Nat} {connected : Bool}
    (hs : worker.haproxy config index connected = some next) :
    next.guard = (if connected then worker.guard else worker.guard.start) ∧
      next.handlers = worker.handlers := by
  obtain ⟨killed, _, ⟨rfl, _, rfl⟩ | ⟨rfl, _, rfl⟩ | ⟨rfl, rfl⟩⟩ := haproxy_cases hs
  · exact killNext_guard config worker index _ _
  · exact signalCluster_guard config worker index _
  · have hset : Registered (worker.setDrain index ⟨.failed, killed⟩) := h
    rw [emit_eq_call hset]
    simp [DrainConnections.call, State.guard, Guard.start, State.setDrain]

theorem timeout_guard (config : Config) {worker next : State Uuid} {index : Nat}
    (hs : worker.timeout config index = some next) :
    next.guard = worker.guard ∧ next.handlers = worker.handlers := by
  obtain ⟨killed, ⟨delayMs, _, rfl⟩ | ⟨_, rfl⟩⟩ := timeout_cases hs
  · exact killNext_guard config worker index _ _
  · exact ⟨rfl, rfl⟩

theorem writeBandwidthMetrics_guard (worker : State Uuid) (clientId : Nat)
    (bytesReceived bytesSent : Int) (now : Nat) :
    (worker.writeBandwidthMetrics clientId bytesReceived bytesSent now).guard = worker.guard ∧
      (worker.writeBandwidthMetrics clientId bytesReceived bytesSent now).handlers =
        worker.handlers := by
  unfold State.writeBandwidthMetrics
  split <;> exact ⟨rfl, rfl⟩

theorem step_guard (config : Config) {worker next : State Uuid} {event : Event Uuid}
    (h : Registered worker) (hs : step config worker event = some next) :
    next.guard = worker.guard.after event ∧ next.handlers = worker.handlers := by
  cases (step_stepped hs).2 with
  | signal eventType =>
      rw [emit_eq_call h]
      exact ⟨call_body_guard worker, rfl⟩
  | prepareShutdown hready =>
      cases hbinding : worker.drainConnections <;>
        simp [Guard.after, State.guard, Guard.start, DrainConnections.call, hready, hbinding]
  | tooEarly hready => simp [Guard.after, State.guard, hready]
  | toggleVerbosity | ready | fatalError | established => exact ⟨rfl, rfl⟩
  | bytecount clientId bytesReceived bytesSent now =>
      exact writeBandwidthMetrics_guard worker clientId bytesReceived bytesSent now
  | @haproxy _ index connected hnext =>
      have hg := haproxy_guard config h hnext
      cases connected <;> exact hg
  | timeout hnext => exact timeout_guard config hnext

end Turn

-- The body is called through the listeners whatever the variable holds, and
-- through the variable only before its first call.
structure Guarded (events : List (Event Uuid)) (worker : State Uuid) : Prop where
  registered : Registered worker
  ready : worker.guard.preparesShutdown = true ↔ .ready ∈ events
  binding : worker.guard.drainConnections = .body ↔ worker.guard.started = 0
  asked : worker.guard.started = 0 ↔ ¬Sometime Asks events
  once : worker.guard.started ≤ 1 ↔ RaisedFirst events

theorem guarded_initial (verbose : Bool) :
    Guarded [] (State.initial verbose : State Uuid) where
  registered := rfl
  ready := by simp [State.guard, State.initial]
  binding := by simp [State.guard, State.initial]
  asked := by simp [State.guard, State.initial, not_sometime_nil]
  once := by simp [State.guard, State.initial, RaisedFirst, not_sometime_nil]

theorem raisedFirst_concat (events : List (Event Uuid)) (event : Event Uuid) :
    RaisedFirst (events ++ [event]) ↔
      RaisedFirst events ∧ ¬(event.raises ∧ Sometime Asks events) := by
  rw [RaisedFirst, sometime_concat, not_or]
  rfl

theorem Guard.after_ready (guard : Guard) (event : Event Uuid) :
    (guard.after event).preparesShutdown = true ↔
      guard.preparesShutdown = true ∨ event = .ready := by
  cases event with
  | haproxy index connected => cases connected <;> simp [Guard.after, Guard.start]
  | prepareShutdown =>
      simp only [Guard.after]
      split <;> simp [Guard.start]
  | _ => simp [Guard.after, Guard.start]

-- An event starts the body if it comes through the listeners, or through the
-- variable while that holds the body.
theorem Guard.after_started (guard : Guard) (event : Event Uuid) :
    ((event.raises ∨ event = .prepareShutdown ∧ guard.preparesShutdown = true ∧
        guard.drainConnections = .body) ∧
      (guard.after event).started = guard.started + 1 ∧
      (guard.after event).drainConnections = .noop) ∨
    (¬event.raises ∧ (event = .prepareShutdown → guard.preparesShutdown = true →
        guard.drainConnections ≠ .body) ∧
      (guard.after event).started = guard.started ∧
      (guard.after event).drainConnections = guard.drainConnections) := by
  cases event with
  | haproxy index connected =>
      cases connected <;> simp [Guard.after, Guard.start, Event.raises]
  | prepareShutdown =>
      by_cases hb : guard.preparesShutdown = true ∧ guard.drainConnections = .body
      · simp [Guard.after, Guard.start, Event.raises, hb]
      · refine Or.inr ⟨by simp [Event.raises], fun _ hp hd => hb ⟨hp, hd⟩, ?_⟩
        simp [Guard.after, hb]
  | _ => simp [Guard.after, Guard.start, Event.raises]

theorem guarded_step (config : Config) (events : List (Event Uuid)) (worker : State Uuid)
    (event : Event Uuid) (next : State Uuid) (h : Guarded events worker)
    (hs : step config worker event = some next) : Guarded (events ++ [event]) next := by
  obtain ⟨hguard, hhandlers⟩ := step_guard config h.registered hs
  have hasks : Asks events event ↔
      event.raises ∨ event = .prepareShutdown ∧ worker.guard.preparesShutdown = true := by
    rw [h.ready]
    rfl
  have hready := worker.guard.after_ready event
  obtain ⟨hreg, hfirst, hbinding, hasked, honce⟩ := h
  have hconcat := sometime_concat Asks events event
  have hraised := raisedFirst_concat events event
  rw [← hguard] at hready
  have hready' : next.guard.preparesShutdown = true ↔ .ready ∈ events ++ [event] := by
    rw [hready, hfirst, List.mem_append, List.mem_singleton, @eq_comm _ event]
  rcases worker.guard.after_started event with
    ⟨hstart, hstarted, hvar⟩ | ⟨hno, hvoid, hstarted, hvar⟩
  · rw [← hguard] at hstarted hvar
    have hin : Asks events event := hasks.mpr (hstart.imp_right fun hp => ⟨hp.1, hp.2.1⟩)
    refine ⟨hhandlers.trans hreg, hready', by simp [hstarted, hvar], ?_, ?_⟩
    · simp [hstarted, hconcat, hin]
    · rw [hstarted, hraised]
      by_cases hzero : worker.guard.started = 0
      · have hfresh := hasked.mp hzero
        have hbefore := honce.mp (by omega)
        simp [hzero, hfresh, hbefore]
      · -- a second call: the variable holds the noop, so a listener made it
        have hsome : Sometime Asks events := not_not.mp fun hnone => hzero (hasked.mpr hnone)
        have hraises : event.raises :=
          hstart.resolve_right fun hp => hzero (hbinding.mp hp.2.2)
        simp [hraises, hsome, hzero]
  · rw [← hguard] at hstarted hvar
    have hsame : Sometime Asks (events ++ [event]) ↔ Sometime Asks events := by
      refine hconcat.trans (or_iff_left_of_imp fun hin => ?_)
      obtain ⟨he, hp⟩ := (hasks.mp hin).resolve_left hno
      by_contra hnone
      exact hvoid he hp (hbinding.mpr (hasked.mpr hnone))
    refine ⟨hhandlers.trans hreg, hready', by rw [hstarted, hvar, hbinding], ?_, ?_⟩
    · rw [hstarted, hsame, hasked]
    · rw [hstarted, honce, hraised]
      simp [hno]

-- The body of `drainConnections` is started at most once exactly when no signal
-- and no uncaught exception comes after something that asked for a drain.
theorem drain_once_iff_raisedFirst (config : Config) (verbose : Bool)
    (events : List (Event Uuid)) (last : State Uuid)
    (hrun : run (step config) (State.initial verbose) events = some last) :
    last.drains.length ≤ 1 ↔ RaisedFirst events := by
  have h : Guarded events last := run_history (motive := Guarded) (guarded_initial verbose)
    (fun events worker event next _ hm hs => guarded_step config events worker event next hm hs)
    hrun
  exact h.once

-- A 'prepareShutdown' message after a SIGTERM finds the noop.
theorem drain_once_sigterm_prepareShutdown :
    RaisedFirst ([.ready, .signal .SIGTERM, .prepareShutdown] : List (Event String)) :=
  (drain_once_iff_raisedFirst ⟨1, 30000, 120⟩ false _ _ (Option.some_get (by decide)).symm).mp
    (by decide)

-- A SIGTERM after a 'prepareShutdown' message finds the body once more.
theorem drain_twice_prepareShutdown_sigterm :
    ∃ last : State String, run (step ⟨1, 30000, 120⟩) (State.initial false)
      [.ready, .prepareShutdown, .signal .SIGTERM] = some last ∧ ¬last.drains.length ≤ 1 :=
  ⟨_, (Option.some_get (by decide)).symm, by decide⟩

end OpenBalenaVpn.Worker
