import OpenBalenaVpn.Reporter.Exactness
import OpenBalenaVpn.Reporter.Reclaim
import Mathlib.Algebra.Order.BigOperators.Group.List
import Mathlib.Data.List.Perm.Subperm

namespace OpenBalenaVpn.Reporter

open Transition

section Caught

-- A device that is neither pending nor in a POST has nothing left to report.
def Device.Caught (device : Device) : Prop :=
  ∀ tracker, device.tracker = some tracker → device.Settled → tracker.needsUpdate = false

theorem DeviceStateTracker.needsUpdate_mark (tracker : DeviceStateTracker) (connected : Bool)
    (h : connected = tracker.targetConnected) : (tracker.mark connected).needsUpdate = false := by
  simp [DeviceStateTracker.needsUpdate, DeviceStateTracker.mark, h]

theorem Device.caught_step (device : Device) (input : Input) (next : Device)
    (h : device.Agrees) (hs : device.step input = some next) :
    next.Caught := by
  cases input with
  | call workerId connected =>
      obtain rfl := Option.some.inj hs
      rintro tracker _ ⟨hp, _⟩
      cases hp
  | examine id =>
      obtain ⟨tracker, ht, _, _, rfl⟩ := Device.examine_cases hs
      rintro other ho ⟨_, hf⟩
      obtain rfl : tracker = other := Option.some.inj (ht.symm.trans ho)
      by_contra hneeds
      simp [hneeds] at hf
  | acknowledge =>
      obtain ⟨report, hf, rfl⟩ := Device.acknowledge_cases hs
      rintro tracker ht ⟨hp, _⟩
      obtain ⟨old, hold, rfl⟩ := Option.map_eq_some_iff.mp ht
      have htarget := h.target old hold hp
      rw [hf] at htarget
      exact old.needsUpdate_mark _ (Option.some.inj htarget)
  | requeue =>
      obtain ⟨report, _, rfl⟩ := Device.requeue_cases hs
      rintro tracker _ ⟨hp, _⟩
      cases hp

end Caught

variable {Uuid : Type} [DecidableEq Uuid]

-- What every run keeps: the reporter's invariant, nothing forgotten, and POSTs of the
-- batch size at most.
structure Steady (batchSize : Int) (state : State Uuid) : Prop where
  agreed : Agreed state
  caught : ∀ uuid, (state.device uuid).Caught
  batch : ∀ post ∈ state.inFlight, post.uuids.length ≤ batchSize.toNat

theorem steady_initial (batchSize : Int) : Steady batchSize (State.initial : State Uuid) where
  agreed := agreed_initial
  caught _ _ ht := by cases ht
  batch := by simp [State.initial, State.inFlight]

section Batch

theorem batch_updateLoop (batchSize : Int) (serviceId : Nat) {state next : State Uuid}
    (h : Consistent state) (hb : ∀ post ∈ state.inFlight, post.uuids.length ≤ batchSize.toNat)
    (hu : state.updateLoop batchSize serviceId = some next) :
    ∀ post ∈ next.inFlight, post.uuids.length ≤ batchSize.toNat := by
  rcases updateLoop_cases batchSize serviceId state next h.tracked_pending hu with
    ⟨rfl, _⟩ | ⟨hidle, posts, hs, rfl⟩
  · exact hb
  · intro post hp
    rw [inFlight_startRound h hidle] at hp
    have hlen := (hs.batch post hp).2.2
    omega

theorem batch_step (batchSize : Int) {state next : State Uuid} {event : Event Uuid}
    (h : Scheduled state) (hb : ∀ post ∈ state.inFlight, post.uuids.length ≤ batchSize.toNat)
    (hs : step batchSize state event = some next) :
    ∀ post ∈ next.inFlight, post.uuids.length ≤ batchSize.toNat := by
  cases event with
  | setConnected uuid serviceId workerId connected =>
      exact batch_updateLoop batchSize serviceId
        (h.toConsistent.enqueue uuid workerId connected) hb hs
  | settle id response =>
      obtain ⟨_, post, _, _, hin, _⟩ := h.settle id response hs
      intro other ho
      rw [hin] at ho
      exact hb other (List.mem_of_mem_erase ho)
  | wake index =>
      obtain ⟨_, serviceId, hu⟩ := h.wake_cases batchSize index hs
      exact batch_updateLoop batchSize serviceId h.rest (by simp [State.rest, State.inFlight]) hu

end Batch

theorem steady_step (batchSize : Int) (state : State Uuid) (event : Event Uuid)
    (next : State Uuid) (h : Steady batchSize state) (hs : step batchSize state event = some next) :
    Steady batchSize next where
  agreed := agreed_step batchSize state event next h.agreed hs
  caught uuid := by
    obtain ⟨inputs, _, hrun⟩ := device_step batchSize state event next h.agreed.scheduled hs uuid
    have hstep : ∀ device input later, Device.Agrees device ∧ device.Caught →
        Device.step device input = some later → later.Agrees ∧ later.Caught :=
      fun device input later hd hs => ⟨Device.agrees_step device input later hd.1 hs,
        Device.caught_step device input later hd.1 hs⟩
    exact (run_invariant hstep ⟨h.agreed.agrees uuid, h.caught uuid⟩ hrun).2
  batch := batch_step batchSize h.agreed.scheduled h.batch hs

theorem steady_run (batchSize : Int) {events : List (Event Uuid)} {state : State Uuid}
    (hrun : run (step batchSize) State.initial events = some state) : Steady batchSize state :=
  run_invariant (steady_step batchSize) (steady_initial batchSize) hrun

section TurnsLeft

-- The turns that are left when no call comes and every POST is answered with 200: the POSTs
-- of the round, its timer, and the same for the round that takes up the pending uuids.
def State.turnsLeft (state : State Uuid) : Nat :=
  if state.rounds = [] then 0
  else state.inFlight.length + 1 +
    if state.pendingUpdates.size = 0 then 0 else state.pendingUpdates.size + 1

-- What an event adds to the turns that are left, its own turn included.
def Event.cost (batchSize : Int) : Event Uuid → Nat
  | .setConnected _ _ _ _ => 3
  | .settle _ response => if response = some 200 then 0 else batchSize.toNat + 1
  | .wake _ => 0

theorem State.turnsLeft_of_busy {state : State Uuid} (h : Consistent state)
    (hbusy : state.currentlyReporting = true) :
    state.turnsLeft = state.inFlight.length + 1 +
      if state.pendingUpdates.size = 0 then 0 else state.pendingUpdates.size + 1 := by
  obtain ⟨round, hround⟩ := h.round hbusy
  simp [State.turnsLeft, hround]

-- Each POST of a round holds a pending uuid that no other one holds.
theorem Selected.length_le {batchSize : Int} {state : State Uuid} {serviceId : Nat}
    {posts : List (Post Uuid)} (hs : Selected batchSize state serviceId posts) :
    posts.length ≤ state.pendingUpdates.size := by
  have hsub : posts.flatMap (·.uuids) ⊆ state.pendingUpdates.elems := by
    rw [hs.uuids]
    intro uuid hu
    rcases List.mem_append.mp hu with hu | hu <;> exact List.mem_of_mem_filter hu
  have hnodup : (posts.flatMap (·.uuids)).Nodup := hs.uuids ▸ selected_nodup state
  have hone : ∀ count ∈ posts.map (·.uuids.length), 1 ≤ count := by
    intro count hc
    obtain ⟨post, hp, rfl⟩ := List.mem_map.mp hc
    exact List.length_pos_of_ne_nil (hs.batch post hp).2.1
  calc posts.length = (posts.map (·.uuids.length)).length := List.length_map _ |>.symm
    _ ≤ (posts.map (·.uuids.length)).sum := List.length_le_sum_of_one_le _ hone
    _ = (posts.flatMap (·.uuids)).length := List.length_flatMap.symm
    _ ≤ state.pendingUpdates.size := (List.Nodup.subperm hnodup hsub).length_le

theorem updateLoop_of_empty (batchSize : Int) (serviceId : Nat) {state : State Uuid}
    (hp : state.pendingUpdates.size = 0) :
    state.updateLoop batchSize serviceId = some state := by
  simp [State.updateLoop, hp]

theorem turnsLeft_updateLoop (batchSize : Int) (serviceId : Nat) {state next : State Uuid}
    (h : Consistent state) (hidle : state.currentlyReporting = false)
    (hu : state.updateLoop batchSize serviceId = some next) :
    next.turnsLeft ≤ if state.pendingUpdates.size = 0 then 0
      else state.pendingUpdates.size + 1 := by
  by_cases hp : state.pendingUpdates.size = 0
  · rw [updateLoop_of_empty batchSize serviceId hp] at hu
    obtain rfl := Option.some.inj hu
    simp [State.turnsLeft, h.rounds_nil hidle]
  · rw [if_neg hp]
    rcases updateLoop_cases batchSize serviceId state next h.tracked_pending hu with
      ⟨rfl, _⟩ | ⟨_, posts, hs, rfl⟩
    · simp [State.turnsLeft, h.rounds_nil hidle]
    · have hlen := hs.length_le
      have hstart := (h.startRound hidle hs).toConsistent
      rw [State.turnsLeft_of_busy hstart rfl, inFlight_startRound h hidle]
      have hnone : (state.startRound serviceId posts).pendingUpdates.size = 0 := rfl
      rw [if_pos hnone]
      omega

theorem size_add_le (set : OrderedSet Uuid) (uuid : Uuid) :
    (set.add uuid).size ≤ set.size + 1 := by
  unfold OrderedSet.add OrderedSet.size
  split <;> simp

theorem turnsLeft_setConnected (batchSize : Int) (serviceId : Nat) {state next : State Uuid}
    (h : Scheduled state) (uuid : Uuid) (workerId : Nat) (connected : Bool)
    (hs : state.setConnected batchSize uuid serviceId workerId connected = some next) :
    next.turnsLeft ≤ state.turnsLeft + 2 := by
  have hsize : (state.enqueue uuid workerId connected).pendingUpdates.size ≤
      state.pendingUpdates.size + 1 := size_add_le state.pendingUpdates uuid
  have hq := h.toConsistent.enqueue uuid workerId connected
  cases hbusy : state.currentlyReporting with
  | false =>
      have hle := turnsLeft_updateLoop batchSize serviceId hq hbusy hs
      have hnone : state.pendingUpdates.size = 0 := by simp [OrderedSet.size, h.pending hbusy]
      split at hle <;> omega
  | true =>
      -- the round that is running takes the uuid up when its timer fires
      have hstay : next = state.enqueue uuid workerId connected := by
        have hloop : (state.enqueue uuid workerId connected).updateLoop batchSize serviceId =
            some (state.enqueue uuid workerId connected) :=
          updateLoop_of_busy batchSize serviceId hbusy
        exact Option.some.inj (hs.symm.trans hloop)
      have hin : (state.enqueue uuid workerId connected).inFlight = state.inFlight := rfl
      rw [hstay, State.turnsLeft_of_busy hq hbusy,
        State.turnsLeft_of_busy h.toConsistent hbusy, hin]
      split <;> split <;> omega

-- A POST that fails puts its uuids back.
theorem size_finishPost_le {state : State Uuid} {post : Post Uuid} (response : Option Nat)
    (ht : ∀ uuid ∈ post.uuids, Tracked state.deviceStates uuid) :
    (state.finishPost post response).pendingUpdates.size ≤
      state.pendingUpdates.size + if response = some 200 then 0 else post.uuids.length := by
  have hmem := (finishPost_spec state post response ht).2.1
  have hsub : (state.finishPost post response).pendingUpdates.elems ⊆
      state.pendingUpdates.elems ++ if response = some 200 then [] else post.uuids := by
    intro uuid hu
    rcases (hmem uuid).mp hu with ⟨hfail, hu⟩ | hu
    · simp [hfail, hu]
    · exact List.mem_append_left _ hu
  have hle := (List.Nodup.subperm (OrderedSet.nodup _) hsub).length_le
  rw [List.length_append] at hle
  unfold OrderedSet.size
  split <;> rename_i hok <;> simpa [hok] using hle

theorem turnsLeft_settle {batchSize : Int} {state next : State Uuid} (h : Scheduled state)
    (hb : ∀ post ∈ state.inFlight, post.uuids.length ≤ batchSize.toNat) (id : Nat)
    (response : Option Nat) (hs : state.settle id response = some next) :
    next.turnsLeft + 1 ≤ state.turnsLeft + if response = some 200 then 0
      else batchSize.toNat + 1 := by
  obtain ⟨hn, post, hp, _, hin, _, hpend, _⟩ := h.settle id response hs
  have hbusy : state.currentlyReporting = true := by
    by_contra hf
    rw [h.inFlight_nil (Bool.eq_false_iff.mpr hf)] at hp
    cases hp
  have hsize := size_finishPost_le response (h.tracked_inFlight post hp)
  have hpost := hb post hp
  have hpos := List.length_pos_of_mem hp
  rw [State.turnsLeft_of_busy hn.toConsistent ((settle_reporting hs).trans hbusy),
    State.turnsLeft_of_busy h.toConsistent hbusy, hin, List.length_erase_of_mem hp, hpend]
  by_cases hok : response = some 200
  · rw [if_pos hok] at hsize ⊢
    split <;> split <;> omega
  · rw [if_neg hok] at hsize ⊢
    split <;> split <;> omega

theorem turnsLeft_wake {batchSize : Int} {state next : State Uuid} (h : Scheduled state)
    (index : Nat) (hs : state.wake batchSize index = some next) :
    next.turnsLeft + 1 ≤ state.turnsLeft := by
  obtain ⟨hin, serviceId, hu⟩ := h.wake_cases batchSize index hs
  have hbusy : state.currentlyReporting = true := by
    by_contra hf
    have hnil := h.rounds_nil (Bool.eq_false_iff.mpr hf)
    simp [State.wake, hnil] at hs
  have hle := turnsLeft_updateLoop batchSize serviceId h.rest rfl hu
  rw [State.turnsLeft_of_busy h.toConsistent hbusy, hin]
  have hpend : state.rest.pendingUpdates = state.pendingUpdates := rfl
  rw [hpend] at hle
  rw [List.length_nil]
  omega

theorem turnsLeft_step (batchSize : Int) (state : State Uuid) (event : Event Uuid)
    (next : State Uuid) (h : Steady batchSize state) (hs : step batchSize state event = some next) :
    next.turnsLeft + 1 ≤ state.turnsLeft + event.cost batchSize := by
  have hsched := h.agreed.scheduled
  cases event with
  | setConnected uuid serviceId workerId connected =>
      exact Nat.succ_le_succ
        (turnsLeft_setConnected batchSize serviceId hsched uuid workerId connected hs)
  | settle id response => exact turnsLeft_settle hsched h.batch id response hs
  | wake index => exact turnsLeft_wake hsched index hs

end TurnsLeft

section Requested

def DeviceStateTracker.target (tracker : DeviceStateTracker) : Nat × Bool :=
  (tracker.targetWorkerId, tracker.targetConnected)

def Event.request (uuid : Uuid) (last : Option (Nat × Bool)) : Event Uuid → Option (Nat × Bool)
  | .setConnected other _ workerId connected =>
      if other = uuid then some (workerId, connected) else last
  | .settle _ _ => last
  | .wake _ => last

-- The worker and the state that the last call for the uuid asked for.
def requested (uuid : Uuid) (events : List (Event Uuid)) : Option (Nat × Bool) :=
  events.foldl (fun last event => event.request uuid last) none

theorem requested_concat (uuid : Uuid) (events : List (Event Uuid)) (event : Event Uuid) :
    requested uuid (events ++ [event]) = event.request uuid (requested uuid events) := by
  simp [requested]

theorem request_step (batchSize : Int) {state next : State Uuid} {event : Event Uuid}
    (h : Scheduled state) (hs : step batchSize state event = some next) (uuid : Uuid) :
    (next.deviceStates.get uuid).map (·.target) =
      event.request uuid ((state.deviceStates.get uuid).map (·.target)) := by
  cases event with
  | setConnected other serviceId workerId connected =>
      rw [tracked_updateLoop batchSize serviceId _ _
        (h.toConsistent.enqueue other workerId connected) hs]
      by_cases he : other = uuid
      · subst he
        cases hg : state.deviceStates.get other <;>
          simp [State.enqueue, Event.request, hg, retarget, DeviceStateTracker.target]
      · simp [State.enqueue, Event.request, OrderedMap.get_set, he]
  | settle id response =>
      obtain ⟨_, post, hp, _, _, hds, _⟩ := h.settle id response hs
      rw [hds, (finishPost_spec state post response (h.tracked_inFlight post hp)).1 uuid]
      split
      · rw [Option.map_map]
        rfl
      · rfl
  | wake index =>
      obtain ⟨_, serviceId, hu⟩ := h.wake_cases batchSize index hs
      rw [tracked_updateLoop batchSize serviceId _ _ h.rest hu]
      rfl

theorem target_eq_requested (batchSize : Int) {events : List (Event Uuid)} {state : State Uuid}
    (hrun : run (step batchSize) State.initial events = some state) (uuid : Uuid) :
    (state.deviceStates.get uuid).map (·.target) = requested uuid events := by
  refine run_history (motive := fun events state =>
    (state.deviceStates.get uuid).map (·.target) = requested uuid events) rfl ?_ hrun
  intro events state event next hbefore htarget hs
  rw [request_step batchSize (scheduled_run batchSize hbefore) hs uuid, htarget, requested_concat]

end Requested

section Rest

theorem Consistent.idle_of_rest {state : State Uuid} (h : Consistent state)
    (hrest : state.rounds = []) : state.currentlyReporting = false := by
  by_contra hbusy
  obtain ⟨round, hround⟩ := h.round (by simpa using hbusy)
  rw [hrest] at hround
  cases hround

-- A reporter without rounds knows of each device what was last asked of it.
theorem Steady.current_of_rest {batchSize : Int} {state : State Uuid} (h : Steady batchSize state)
    (hrest : state.rounds = []) (uuid : Uuid) :
    state.current uuid = (((state.deviceStates.get uuid).map (·.target)).map (·.2),
      ((state.deviceStates.get uuid).map (·.target)).map (·.1)) := by
  have hsched := h.agreed.scheduled
  have hsettled := device_settled_of_idle hsched (hsched.idle_of_rest hrest) uuid
  unfold State.current
  cases ht : state.deviceStates.get uuid with
  | none => rfl
  | some tracker =>
      have hcaught := h.caught uuid tracker ht hsettled
      simp only [DeviceStateTracker.needsUpdate, Bool.or_eq_false_iff, bne_eq_false_iff_eq]
        at hcaught
      simp [DeviceStateTracker.target, hcaught.1, hcaught.2]

-- The API was last told the same.
theorem Steady.acknowledged_of_rest {batchSize : Int} {state : State Uuid}
    (h : Steady batchSize state) (hrest : state.rounds = []) (uuid : Uuid) :
    (state.acknowledged.find? (uuid ∈ ·.uuids)).map (·.connected) =
      ((state.deviceStates.get uuid).map (·.target)).map (·.2) := by
  have hsched := h.agreed.scheduled
  have hsettled := device_settled_of_idle hsched (hsched.idle_of_rest hrest) uuid
  have htarget := (h.agreed.agrees uuid).settled hsettled
  simp only [Device.target, State.device, Option.map_map] at htarget
  rw [Option.map_map]
  exact htarget.symm

-- A round that is under way goes on: its POSTs can be answered, and then its timer fires.
theorem Steady.enabled {batchSize : Int} (hsize : 0 < batchSize) {state : State Uuid}
    (h : Steady batchSize state) (hround : state.rounds ≠ []) :
    (∀ post ∈ state.inFlight, ∀ response, ∃ next,
      step batchSize state (.settle post.id response) = some next) ∧
    (state.inFlight = [] → ∃ next, step batchSize state (.wake 0) = some next) := by
  refine ⟨fun post hp response => settle_isSome hp response, fun hnil => ?_⟩
  have hsched := h.agreed.scheduled
  have hbusy : state.currentlyReporting = true := by
    by_contra hidle
    exact hround (hsched.rounds_nil (Bool.eq_false_iff.mpr hidle))
  obtain ⟨serviceId, hwake⟩ := wake_of_drained hsched.toConsistent hbusy hnil batchSize
  obtain ⟨next, hnext⟩ :=
    updateLoop_isSome hsize serviceId state.rest hsched.rest.tracked_pending
  exact ⟨next, hwake.trans hnext⟩

end Rest

-- The reporter catches up. A run is no longer than three turns for each call and one turn
-- more than a batch for each POST that failed. Before the reporter rests there is a turn it
-- can take, and where it rests, it and the API agree with the last call for every device.
theorem reporter_quiesces (batchSize : Int) (events : List (Event Uuid)) (state : State Uuid)
    (hrun : run (step batchSize) State.initial events = some state) :
    events.length + state.turnsLeft ≤ (events.map (Event.cost batchSize)).sum ∧
    (0 < batchSize → state.rounds ≠ [] →
      (∀ post ∈ state.inFlight, ∀ response, ∃ next,
        step batchSize state (.settle post.id response) = some next) ∧
      (state.inFlight = [] → ∃ next, step batchSize state (.wake 0) = some next)) ∧
    (state.rounds = [] → ∀ uuid,
      state.current uuid = ((requested uuid events).map (·.2), (requested uuid events).map (·.1)) ∧
      (state.acknowledged.find? (uuid ∈ ·.uuids)).map (·.connected) =
        (requested uuid events).map (·.2)) := by
  have h := steady_run batchSize hrun
  refine ⟨?_, fun hsize hround => h.enabled hsize hround, fun hrest uuid => ?_⟩
  · have hle := length_add_rank_le (steady_step batchSize) (turnsLeft_step batchSize)
      (steady_initial batchSize) hrun
    simpa [State.turnsLeft, State.initial] using hle
  · rw [← target_eq_requested batchSize hrun uuid]
    exact ⟨h.current_of_rest hrest uuid, h.acknowledged_of_rest hrest uuid⟩

-- A device leaves while its connect is on the wire, and the first POST fails.
theorem reporter_quiesces_retry :
    let events : List (Event String) := [.setConnected "c0ffee" 1 1 true, .settle 0 none,
      .setConnected "c0ffee" 1 2 false, .wake 0, .settle 1 (some 200), .wake 0]
    let state := (run (step 2) State.initial events).get (by decide)
    state.rounds = [] ∧ state.current "c0ffee" = (some false, some 2) := by
  have h := reporter_quiesces 2 [.setConnected "c0ffee" 1 1 true, .settle 0 none,
    .setConnected "c0ffee" 1 2 false, .wake 0, .settle 1 (some 200), .wake 0] _
    (Option.some_get (by decide)).symm
  exact ⟨by decide, (h.2.2 (by decide) "c0ffee").1⟩

end OpenBalenaVpn.Reporter
