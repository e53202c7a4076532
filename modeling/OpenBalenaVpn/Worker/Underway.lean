import OpenBalenaVpn.Worker.Budget
import OpenBalenaVpn.Worker.Kills

namespace OpenBalenaVpn.Worker

variable {Uuid : Type} {config : Config} {worker next : State Uuid}

-- A call of the body awaits HAProxy or is in the loop.
def State.Drains (worker : State Uuid) : Prop :=
  ∃ drain ∈ worker.drains, drain.running = true

-- A drain that was started is under way until the primary has been told.
structure Underway (config : Config) (worker : State Uuid) : Prop where
  reported : Reported config worker
  binding : worker.drainConnections = .noop → worker.drains ≠ []
  drains : worker.drains ≠ [] → worker.Drains ∨ worker.Finished config.instanceId

theorem underway_initial (config : Config) (verbose : Bool) :
    Underway config (State.initial verbose : State Uuid) where
  reported := reported_initial config verbose
  binding := nofun
  drains h := absurd rfl h

section Step

theorem finished_step {event : Event Uuid} {instanceId : Nat} (h : worker.Finished instanceId)
    (hs : step config worker event = some next) : next.Finished instanceId := by
  obtain ⟨messages, hsent, _⟩ := step_sends config hs
  rw [State.Finished, hsent]
  exact List.mem_append_left _ h

theorem drains_concat {drains : List (Drain Uuid)} (hdrains : next.drains = drains ++
    [⟨.connecting, []⟩]) : next.Drains :=
  ⟨⟨.connecting, []⟩, hdrains ▸ List.mem_append_right _ (List.mem_singleton_self _), rfl⟩

-- The call that is under way goes on, or ends and tells the primary. One that HAProxy
-- fails starts another.
theorem drains_step {event : Event Uuid} (h : worker.Drains)
    (hs : DrainStep config worker next event) :
    next.Drains ∨ next.Finished config.instanceId := by
  obtain ⟨drain, hmem, hrunning⟩ := h
  cases hs with
  | kept hdrains => exact Or.inl ⟨drain, hdrains ▸ hmem, hrunning⟩
  | started hdrains => exact Or.inl (drains_concat hdrains)
  | failed _ hdrains => exact Or.inl (drains_concat hdrains)
  | @killed _ changed earlier uuid delayMs _ hearlier _ _ hdrains =>
      obtain ⟨hlt, _⟩ := List.getElem?_eq_some_iff.mp hearlier
      refine Or.inl ⟨⟨.killing delayMs, earlier.killed ++ [uuid]⟩, ?_, rfl⟩
      exact hdrains ▸ List.mem_set hlt _
  | signalled _ _ _ _ _ _ hsent =>
      refine Or.inr ?_
      rw [State.Finished, hsent]
      exact List.mem_append_right _ (List.mem_singleton_self _)

theorem drains_length_le {event : Event Uuid} (hs : DrainStep config worker next event) :
    worker.drains.length ≤ next.drains.length := by
  cases hs with
  | kept hdrains => rw [hdrains]
  | started hdrains => simp [hdrains]
  | failed _ hdrains => simp [hdrains]
  | killed _ _ _ _ hdrains => simp [hdrains]
  | signalled _ _ _ _ hdrains => simp [hdrains]

-- An event starts no call, or the new call is under way.
theorem DrainStep.drains_of_nil {event : Event Uuid} (hs : DrainStep config worker next event)
    (hnil : worker.drains = []) (hsome : next.drains ≠ []) : next.Drains := by
  cases hs with
  | kept hdrains => exact absurd (hdrains.trans hnil) hsome
  | started hdrains => exact drains_concat hdrains
  | failed _ hdrains => exact drains_concat hdrains
  | killed _ hget => simp [hnil] at hget
  | signalled _ hget => simp [hnil] at hget

theorem Underway.step {event : Event Uuid} (h : Underway config worker)
    (hs : Worker.step config worker event = some next) : Underway config next := by
  have hstep := step_drainStep h.reported.registered hs
  refine ⟨h.reported.step hs, fun hnoop hnil => ?_, fun hsome => ?_⟩
  · -- the variable is assigned where a call starts
    have hguard := (step_guard config h.reported.registered hs).1
    have hlength := drains_length_le hstep
    simp only [hnil, List.length_nil, Nat.le_zero, List.length_eq_zero_iff] at hlength
    rcases worker.guard.after_started event with ⟨_, hstarted, _⟩ | ⟨_, _, _, hvar⟩
    · rw [← hguard] at hstarted
      simp [State.guard, hnil] at hstarted
    · rw [← hguard] at hvar
      exact h.binding (hvar.symm.trans hnoop) hlength
  · by_cases hnil : worker.drains = []
    · exact Or.inl (hstep.drains_of_nil hnil hsome)
    · rcases h.drains hnil with hdrains | hfinished
      · exact drains_step hdrains hstep
      · exact Or.inr (finished_step hfinished hs)

end Step

section Asked

-- A 'prepareShutdown' message starts the drain of a worker that is ready, if it has not
-- been started before.
theorem Underway.prepareShutdown (h : Underway config worker)
    (hready : worker.preparesShutdown = true)
    (hs : Worker.step config worker .prepareShutdown = some next) :
    next.Drains ∨ next.Finished config.instanceId := by
  refine (h.step hs).drains fun hnil => ?_
  have hlength := drains_length_le (step_drainStep h.reported.registered hs)
  simp only [hnil, List.length_nil, Nat.le_zero, List.length_eq_zero_iff] at hlength
  cases (step_stepped hs).2 with
  | prepareShutdown =>
      cases hbinding : worker.drainConnections with
      | body => simp [hbinding, DrainConnections.call] at hnil
      | noop => exact h.binding hbinding hlength
  | tooEarly hearly => exact Bool.false_ne_true (hearly.symm.trans hready)

theorem prepareShutdown_tooEarly (hready : worker.preparesShutdown = false)
    (hs : Worker.step config worker .prepareShutdown = some next) : next = worker := by
  cases (step_stepped hs).2 with
  | prepareShutdown h => exact absurd (h.symm.trans hready) Bool.noConfusion
  | tooEarly => rfl

-- The events that a worker which drains on request only never sees.
def Event.asks : Event Uuid → Bool
  | .signal _ | .prepareShutdown => true
  | _ => false

theorem drains_nil_step {event : Event Uuid} (hnil : worker.drains = [])
    (hquiet : event.asks = false) (hs : Worker.step config worker event = some next) :
    next.drains = [] := by
  cases (step_stepped hs).2 with
  | signal | prepareShutdown | tooEarly => cases hquiet
  | haproxy hnext =>
      obtain ⟨killed, hget, _⟩ := haproxy_cases hnext
      simp [hnil] at hget
  | timeout hnext =>
      obtain ⟨killed, ⟨_, hget, _⟩ | ⟨hget, _⟩⟩ := timeout_cases hnext <;> simp [hnil] at hget
  | bytecount clientId bytesReceived bytesSent now =>
      have hguard := (writeBandwidthMetrics_guard worker clientId bytesReceived bytesSent now).1
      have hstarted := congrArg Guard.started hguard
      simpa [State.guard, hnil] using hstarted
  | toggleVerbosity | ready | fatalError | established => exact hnil

end Asked

section Exit

theorem call_exitCode (listener : DrainConnections) (worker : State Uuid) :
    (listener.call worker).exitCode = worker.exitCode := by
  cases listener <;> rfl

theorem emit_exitCode (worker : State Uuid) (eventType : EventType) :
    (worker.emit eventType).exitCode = worker.exitCode :=
  emit_keeps (fun next => next.exitCode = worker.exitCode)
    (fun listener next h => (call_exitCode listener next).trans h) rfl eventType

-- A worker exits on a fatal error, or after it has told the primary.
theorem Underway.exits {event : Event Uuid} (h : Underway config worker)
    (hs : Worker.step config worker event = some next) (hexit : next.exitCode ≠ none) :
    event = .fatalError ∨ next.Finished config.instanceId := by
  obtain ⟨hnone, hstepped⟩ := step_stepped hs
  have hstill : next.exitCode ≠ worker.exitCode := by rwa [hnone]
  cases hstepped with
  | signal eventType => exact absurd (emit_exitCode worker eventType) hstill
  | prepareShutdown => exact absurd (call_exitCode _ worker) hstill
  | tooEarly | toggleVerbosity | ready | established => exact absurd rfl hstill
  | bytecount =>
      refine absurd ?_ hstill
      unfold State.writeBandwidthMetrics
      split <;> rfl
  | fatalError => exact Or.inl rfl
  | haproxy hnext =>
      obtain ⟨_, _, ⟨_, _, rfl⟩ | ⟨_, _, rfl⟩ | ⟨_, rfl⟩⟩ := haproxy_cases hnext
      · exact absurd (killNext_exitCode config worker _ _ _) hstill
      · exact absurd rfl hstill
      · exact absurd (emit_exitCode _ _) hstill
  | timeout hnext =>
      obtain ⟨_, ⟨_, _, rfl⟩ | ⟨hget, rfl⟩⟩ := timeout_cases hnext
      · exact absurd (killNext_exitCode config worker _ _ _) hstill
      · exact Or.inr (h.reported.signalled _ (List.mem_of_getElem? hget) rfl)

-- A call that is under way waits for HAProxy or for a timer.
theorem State.Drains.enabled (h : worker.Drains) (hrunning : worker.exitCode = none) :
    ∃ index, (step config worker (.haproxy index true)).isSome = true ∨
      (step config worker (.timeout index)).isSome = true := by
  obtain ⟨⟨phase, killed⟩, hmem, hphase⟩ := h
  obtain ⟨index, hget⟩ := List.mem_iff_getElem?.mp hmem
  refine ⟨index, ?_⟩
  cases phase with
  | connecting =>
      left
      by_cases hcount : worker.clientCache.size > 0 <;>
        simp [step, hrunning, State.haproxy, hget, hcount]
  | killing delayMs =>
      right
      simp [step, hrunning, State.timeout, hget]
  | signalled => cases hphase
  | failed => cases hphase

end Exit

end OpenBalenaVpn.Worker
