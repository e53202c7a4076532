import OpenBalenaVpn.Reporter.Device

namespace OpenBalenaVpn.Reporter

open Transition

section Life

def Device.target (device : Device) : Option Bool := device.tracker.map (·.targetConnected)

-- A device that is not pending has its target either on the wire or acknowledged,
-- and the current state is what was last acknowledged.
structure Device.Agrees (device : Device) : Prop where
  target : ∀ tracker, device.tracker = some tracker → device.pending = false →
    (device.inFlight.map (·.connected)).or tracker.currentConnected =
      some tracker.targetConnected
  current : ∀ tracker, device.tracker = some tracker →
    tracker.currentConnected = device.acknowledged.map (·.connected)
  untracked : device.tracker = none → device.inFlight = none ∧ device.acknowledged = none

theorem Device.agrees_step (device : Device) (input : Input) (next : Device)
    (h : device.Agrees) (hs : device.step input = some next) : next.Agrees := by
  cases input with
  | call workerId connected =>
      obtain rfl := Option.some.inj hs
      refine ⟨fun _ _ hp => (by cases hp), fun tracker ht => ?_, fun ht => (by cases ht)⟩
      cases hold : device.tracker with
      | none =>
          simp only [Device.call, hold, retarget, Option.some.injEq] at ht
          subst ht
          simp [Device.call, (h.untracked hold).2]
      | some old =>
          simp only [Device.call, hold, retarget, Option.some.injEq] at ht
          subst ht
          exact h.current old hold
  | examine id =>
      obtain ⟨tracker, ht, _, _, rfl⟩ := Device.examine_cases hs
      refine ⟨fun other ho _ => ?_, h.current, fun hn => ?_⟩
      · obtain rfl : tracker = other := Option.some.inj (ht.symm.trans ho)
        cases hn : tracker.needsUpdate with
        | true => rfl
        | false =>
            -- dropped: the target equals the current state
            simp only [DeviceStateTracker.needsUpdate, Bool.or_eq_false_iff,
              bne_eq_false_iff_eq] at hn
            exact hn.1.symm
      · cases ht.symm.trans hn
  | acknowledge =>
      obtain ⟨report, hf, rfl⟩ := Device.acknowledge_cases hs
      refine ⟨fun tracker ht hp => ?_, fun tracker ht => ?_, fun ht => ?_⟩
      · obtain ⟨old, hold, rfl⟩ := Option.map_eq_some_iff.mp ht
        have htarget := h.target old hold hp
        rw [hf] at htarget
        exact htarget
      · obtain ⟨old, _, rfl⟩ := Option.map_eq_some_iff.mp ht
        rfl
      · have hold := (h.untracked (Option.map_eq_none_iff.mp ht)).1
        cases hf.symm.trans hold
  | requeue =>
      obtain ⟨report, _, rfl⟩ := Device.requeue_cases hs
      exact ⟨fun _ _ hp => (by cases hp), h.current, fun ht => ⟨rfl, (h.untracked ht).2⟩⟩

theorem Device.Agrees.settled {device : Device} (h : device.Agrees) (hs : device.Settled) :
    device.target = device.acknowledged.map (·.connected) := by
  cases ht : device.tracker with
  | none => simp [Device.target, ht, (h.untracked ht).2]
  | some tracker =>
      have htarget := h.target tracker ht hs.1
      rw [hs.2, Option.map_none, Option.none_or, h.current tracker ht] at htarget
      simp [Device.target, ht, htarget]

def Input.retarget : Input → Option Bool → Option Bool
  | .call _ connected, _ => some connected
  | _, target => target

-- Only a call moves the target.
theorem Device.target_step {device next : Device} {input : Input}
    (hs : device.step input = some next) : next.target = input.retarget device.target := by
  cases input with
  | call workerId connected =>
      obtain rfl := Option.some.inj hs
      cases ht : device.tracker <;>
        simp [Device.target, Device.call, ht, Reporter.retarget, Input.retarget]
  | examine id =>
      obtain ⟨tracker, _, _, _, rfl⟩ := Device.examine_cases hs
      rfl
  | acknowledge =>
      obtain ⟨report, _, rfl⟩ := Device.acknowledge_cases hs
      simp [Device.target, DeviceStateTracker.mark, Function.comp_def, Input.retarget]
  | requeue =>
      obtain ⟨report, _, rfl⟩ := Device.requeue_cases hs
      rfl

end Life

section Project

variable {Uuid : Type} [DecidableEq Uuid]

-- The reporter's invariant, for all devices at once.
structure Agreed (state : State Uuid) : Prop where
  scheduled : Scheduled state
  agrees : ∀ uuid, (state.device uuid).Agrees

theorem agreed_initial : Agreed (State.initial : State Uuid) where
  scheduled := scheduled_initial
  agrees uuid := ⟨fun _ ht => (by cases ht), fun _ ht => (by cases ht), fun _ => ⟨rfl, rfl⟩⟩

theorem agreed_step (batchSize : Int) (state : State Uuid) (event : Event Uuid)
    (next : State Uuid) (h : Agreed state) (hs : step batchSize state event = some next) :
    Agreed next where
  scheduled := scheduled_step batchSize state event next h.scheduled hs
  agrees uuid := by
    obtain ⟨inputs, _, hrun⟩ := device_step batchSize state event next h.scheduled hs uuid
    exact run_invariant Device.agrees_step (h.agrees uuid) hrun

def Event.retarget (uuid : Uuid) : Event Uuid → Option Bool → Option Bool
  | .setConnected other _ _ connected, target => if other = uuid then some connected else target
  | _, target => target

theorem target_step (batchSize : Int) (state : State Uuid) (event : Event Uuid)
    (next : State Uuid) (h : Scheduled state) (hs : step batchSize state event = some next)
    (uuid : Uuid) :
    (next.device uuid).target = event.retarget uuid (state.device uuid).target := by
  obtain ⟨inputs, hseen, hrun⟩ := device_step batchSize state event next h hs uuid
  cases hseen with
  | untouched _ hcall _ _ =>
      rw [run_nil, Option.some.injEq] at hrun
      rw [← hrun]
      cases event with
      | setConnected other serviceId workerId connected =>
          have hne : other ≠ uuid := fun he => hcall serviceId workerId connected (he ▸ rfl)
          simp [Event.retarget, hne]
      | settle id response => rfl
      | wake index => rfl
  | called serviceId workerId connected _ =>
      rw [run_singleton] at hrun
      simpa [Event.retarget, Input.retarget] using Device.target_step hrun
  | reported serviceId workerId connected id _ _ =>
      obtain ⟨middle, hm, hrest⟩ := (run_cons_eq_some _ _ _ _ _).mp hrun
      rw [run_singleton] at hrest
      have hlast := Device.target_step hrest
      have hfirst := Device.target_step hm
      simp only [Input.retarget] at hlast hfirst
      simp [hlast, hfirst, Event.retarget]
  | examined index id _ =>
      rw [run_singleton] at hrun
      exact Device.target_step hrun
  | acknowledged post _ _ =>
      rw [run_singleton] at hrun
      exact Device.target_step hrun
  | requeued post _ _ response _ =>
      rw [run_singleton] at hrun
      exact Device.target_step hrun

end Project

end OpenBalenaVpn.Reporter
