import OpenBalenaVpn.Reporter.Scheduling

namespace OpenBalenaVpn.Reporter

open Transition

-- The life of one device, whatever the other devices do. A POST is reduced to
-- its number and its flag.
structure Report where
  id : Nat
  connected : Bool
  deriving DecidableEq

structure Device where
  tracker : Option DeviceStateTracker
  pending : Bool
  inFlight : Option Report
  acknowledged : Option Report
  deriving DecidableEq

inductive Input where
  | call (workerId : Nat) (connected : Bool)
  | examine (id : Nat)
  | acknowledge
  | requeue
  deriving DecidableEq

def Device.call (device : Device) (workerId : Nat) (connected : Bool) : Device :=
  { device with tracker := some (retarget workerId connected device.tracker), pending := true }

-- A round examines a pending device that is in no POST, and reports it only if
-- its target differs from its current state.
def Device.step (device : Device) : Input → Option Device
  | .call workerId connected => some (device.call workerId connected)
  | .examine id => match device.tracker with
    | some tracker =>
        if device.pending && device.inFlight.isNone then
          some { device with
            pending := false
            inFlight := if tracker.needsUpdate then some ⟨id, tracker.targetConnected⟩ else none }
        else none
    | none => none
  | .acknowledge => match device.inFlight with
    | some report => some { device with
        tracker := device.tracker.map (.mark report.connected)
        inFlight := none
        acknowledged := some report }
    | none => none
  | .requeue => match device.inFlight with
    | some _ => some { device with pending := true, inFlight := none }
    | none => none

theorem Device.examine_cases {device next : Device} {id : Nat}
    (hs : device.step (.examine id) = some next) :
    ∃ tracker, device.tracker = some tracker ∧ device.pending = true ∧ device.inFlight = none ∧
      next = { device with
        pending := false
        inFlight := if tracker.needsUpdate then some ⟨id, tracker.targetConnected⟩ else none } := by
  simp only [Device.step] at hs
  split at hs
  · rename_i tracker ht
    split at hs
    · rename_i hguard
      obtain ⟨hp, hf⟩ := (Bool.and_eq_true _ _).mp hguard
      exact ⟨tracker, ht, hp, Option.isNone_iff_eq_none.mp hf, (Option.some.inj hs).symm⟩
    · cases hs
  · cases hs

theorem Device.acknowledge_cases {device next : Device}
    (hs : device.step .acknowledge = some next) :
    ∃ report, device.inFlight = some report ∧ next = { device with
      tracker := device.tracker.map (.mark report.connected)
      inFlight := none
      acknowledged := some report } := by
  simp only [Device.step] at hs
  split at hs
  · rename_i report hf
    exact ⟨report, hf, (Option.some.inj hs).symm⟩
  · cases hs

theorem Device.requeue_cases {device next : Device} (hs : device.step .requeue = some next) :
    ∃ report, device.inFlight = some report ∧
      next = { device with pending := true, inFlight := none } := by
  simp only [Device.step] at hs
  split at hs
  · rename_i report hf
    exact ⟨report, hf, (Option.some.inj hs).symm⟩
  · cases hs

def Device.Settled (device : Device) : Prop := device.pending = false ∧ device.inFlight = none

-- A call that is reported at once is dropped only if it repeats what was
-- acknowledged before.
theorem Device.dropped_call {device next : Device} {workerId id : Nat} {connected : Bool}
    {tracker : DeviceStateTracker}
    (hrun : run Device.step device [.call workerId connected, .examine id] = some next)
    (ht : next.tracker = some tracker) (hsettled : next.Settled) :
    ∃ old, device.tracker = some old ∧ tracker.currentConnected = old.currentConnected := by
  obtain ⟨middle, hm, hrest⟩ := (run_cons_eq_some _ _ _ _ _).mp hrun
  obtain rfl := Option.some.inj hm
  rw [run_singleton] at hrest
  obtain ⟨called, hcalled, _, _, rfl⟩ := Device.examine_cases hrest
  obtain rfl : called = tracker := Option.some.inj (hcalled.symm.trans ht)
  obtain rfl : retarget workerId connected device.tracker = called := Option.some.inj hcalled
  cases hold : device.tracker with
  | none =>
      -- a new tracker has no current state and is always reported
      have hin := hsettled.2
      simp [hold, retarget, DeviceStateTracker.needsUpdate] at hin
  | some old => exact ⟨old, rfl, rfl⟩

section Project

variable {Uuid : Type} [DecidableEq Uuid]

def Post.report (post : Post Uuid) : Report := ⟨post.id, post.connected⟩

def State.device (state : State Uuid) (uuid : Uuid) : Device where
  tracker := state.deviceStates.get uuid
  pending := uuid ∈ state.pendingUpdates
  inFlight := (state.inFlight.find? (uuid ∈ ·.uuids)).map Post.report
  acknowledged := (state.acknowledged.find? (uuid ∈ ·.uuids)).map Post.report

-- What a turn of the event loop can be for one device.
inductive Seen (state : State Uuid) (uuid : Uuid) : Event Uuid → List Input → Prop where
  | untouched (event : Event Uuid)
      (hcall : ∀ serviceId workerId connected,
        event ≠ .setConnected uuid serviceId workerId connected)
      (hsettle : ∀ post ∈ state.inFlight, ∀ response, event = .settle post.id response →
        uuid ∉ post.uuids)
      (hwake : ∀ index, event = .wake index → uuid ∉ state.pendingUpdates) :
      Seen state uuid event []
  | called (serviceId workerId : Nat) (connected : Bool)
      (hbusy : state.currentlyReporting = true) :
      Seen state uuid (.setConnected uuid serviceId workerId connected)
        [.call workerId connected]
  | reported (serviceId workerId : Nat) (connected : Bool) (id : Nat)
      (hidle : state.currentlyReporting = false) (hid : state.nextPost ≤ id) :
      Seen state uuid (.setConnected uuid serviceId workerId connected)
        [.call workerId connected, .examine id]
  | examined (index id : Nat) (hid : state.nextPost ≤ id) :
      Seen state uuid (.wake index) [.examine id]
  | acknowledged (post : Post Uuid) (hpost : post ∈ state.inFlight) (hmem : uuid ∈ post.uuids) :
      Seen state uuid (.settle post.id (some 200)) [.acknowledge]
  | requeued (post : Post Uuid) (hpost : post ∈ state.inFlight) (hmem : uuid ∈ post.uuids)
      (response : Option Nat) (hfail : response ≠ some 200) :
      Seen state uuid (.settle post.id response) [.requeue]

section Find

theorem find_uuid_of_nodup {posts : List (Post Uuid)} {post : Post Uuid} {uuid : Uuid}
    (hn : (posts.flatMap (·.uuids)).Nodup) (hp : post ∈ posts) (hu : uuid ∈ post.uuids) :
    posts.find? (uuid ∈ ·.uuids) = some post := by
  induction posts with
  | nil => cases hp
  | cons first rest ih =>
      rw [List.flatMap_cons, List.nodup_append] at hn
      rcases List.mem_cons.mp hp with rfl | hp
      · simp [hu]
      · have hout : uuid ∉ first.uuids := by
          intro hf
          exact hn.2.2 uuid hf uuid (List.mem_flatMap.mpr ⟨post, hp, hu⟩) rfl
        rw [List.find?_cons_of_neg (by simpa using hout)]
        exact ih hn.2.1 hp

theorem find_uuid_erase {posts : List (Post Uuid)} {post : Post Uuid}
    (hn : (posts.flatMap (·.uuids)).Nodup) (hp : post ∈ posts) (uuid : Uuid) :
    (posts.erase post).find? (uuid ∈ ·.uuids) =
      if uuid ∈ post.uuids then none else posts.find? (uuid ∈ ·.uuids) := by
  induction posts with
  | nil => cases hp
  | cons first rest ih =>
      rw [List.flatMap_cons, List.nodup_append] at hn
      by_cases he : first = post
      · subst he
        rw [List.erase_cons_head]
        by_cases hu : uuid ∈ first.uuids
        · rw [if_pos hu, List.find?_eq_none]
          intro other ho
          simp only [decide_eq_true_eq]
          intro hf
          exact hn.2.2 uuid hu uuid (List.mem_flatMap.mpr ⟨other, ho, hf⟩) rfl
        · rw [if_neg hu, List.find?_cons_of_neg (by simpa using hu)]
      · have hrest : post ∈ rest := (List.mem_cons.mp hp).resolve_left (Ne.symm he)
        rw [List.erase_cons_tail (by simpa using he)]
        by_cases hf : uuid ∈ first.uuids
        · have hout : uuid ∉ post.uuids := by
            intro hu
            exact hn.2.2 uuid hf uuid (List.mem_flatMap.mpr ⟨post, hrest, hu⟩) rfl
          rw [if_neg hout, List.find?_cons_of_pos (by simpa using hf),
            List.find?_cons_of_pos (by simpa using hf)]
        · rw [List.find?_cons_of_neg (by simpa using hf), ih hn.2.1 hrest,
            List.find?_cons_of_neg (by simpa using hf)]

theorem find_uuid_none {posts : List (Post Uuid)} {uuid : Uuid}
    (hu : uuid ∉ posts.flatMap (·.uuids)) : posts.find? (uuid ∈ ·.uuids) = none := by
  rw [List.find?_eq_none]
  intro post hp
  simp only [decide_eq_true_eq]
  exact fun hm => hu (List.mem_flatMap.mpr ⟨post, hp, hm⟩)

end Find

theorem device_settled_iff (state : State Uuid) (uuid : Uuid) :
    (state.device uuid).Settled ↔ ¬Queued state uuid := by
  simp only [Device.Settled, State.device, Queued, decide_eq_false_iff_not, Option.map_eq_none_iff,
    List.find?_eq_none, decide_eq_true_eq, not_or, not_exists, not_and]

theorem device_settled_iff_forall (state : State Uuid) (uuid : Uuid) :
    (state.device uuid).Settled ↔
      uuid ∉ state.pendingUpdates ∧ ∀ post ∈ state.inFlight, uuid ∉ post.uuids := by
  rw [device_settled_iff]
  simp only [Queued, not_or, not_exists, not_and]

theorem device_settled_of_idle {state : State Uuid} (h : Scheduled state)
    (hidle : state.currentlyReporting = false) (uuid : Uuid) : (state.device uuid).Settled := by
  rw [device_settled_iff_forall, OrderedSet.mem_iff, h.pending hidle, h.inFlight_nil hidle]
  simp

theorem device_enqueue (state : State Uuid) (uuid other : Uuid) (workerId : Nat)
    (connected : Bool) :
    (state.enqueue uuid workerId connected).device other =
      if other = uuid then (state.device other).call workerId connected
      else state.device other := by
  by_cases he : other = uuid
  · subst he
    simp [State.device, State.enqueue, Device.call, State.inFlight]
  · simp [State.device, State.enqueue, State.inFlight, OrderedMap.get_set, he, Ne.symm he]

-- A round does to each pending device what `examine` says, and nothing to the others.
theorem device_startRound {state : State Uuid} (h : Consistent state)
    (hidle : state.currentlyReporting = false) {batchSize : Int} {serviceId : Nat}
    {posts : List (Post Uuid)} (hs : Selected batchSize state serviceId posts) (uuid : Uuid) :
    (uuid ∉ state.pendingUpdates ∧
      (state.startRound serviceId posts).device uuid = state.device uuid) ∨
    ∃ id, state.nextPost ≤ id ∧ (state.device uuid).step (.examine id) =
      some ((state.startRound serviceId posts).device uuid) := by
  have hbefore : (state.device uuid).inFlight = none := by
    simp [State.device, h.inFlight_nil hidle]
  have hafter : (state.startRound serviceId posts).device uuid = { state.device uuid with
      pending := false
      inFlight := (posts.find? (uuid ∈ ·.uuids)).map Post.report } := by
    simp only [State.device, inFlight_startRound h hidle]
    simp [State.startRound]
  by_cases hp : uuid ∈ state.pendingUpdates
  · obtain ⟨tracker, ht⟩ := Option.isSome_iff_exists.mp (h.tracked_pending uuid hp)
    have htracker : (state.device uuid).tracker = some tracker := ht
    have hpending : (state.device uuid).pending = true := by simpa [State.device] using hp
    cases hneeds : tracker.needsUpdate with
    | false =>
        have hout : uuid ∉ posts.flatMap (·.uuids) := by
          rw [hs.uuids]
          simp [reports, ht, hneeds]
        refine Or.inr ⟨state.nextPost, Nat.le_refl _, ?_⟩
        simp [Device.step, htracker, hpending, hbefore, hneeds, hafter, find_uuid_none hout]
    | true =>
        have hin : uuid ∈ posts.flatMap (·.uuids) := by
          rw [hs.uuids, List.mem_append, List.mem_filter, List.mem_filter]
          cases hc : tracker.targetConnected <;> simp [reports, ht, hneeds, hc] <;> exact hp
        obtain ⟨post, hpost, hu⟩ := List.mem_flatMap.mp hin
        have hnodup : (posts.flatMap (·.uuids)).Nodup := hs.uuids ▸ selected_nodup state
        have hflag : post.connected = tracker.targetConnected := by
          have hr := hs.reported post hpost uuid hu
          simp only [reports, ht, Option.any_some, Bool.and_eq_true, beq_iff_eq] at hr
          exact hr.2.symm
        have hid : state.nextPost ≤ post.id := by
          have hm : post.id ∈ posts.map (·.id) := List.mem_map_of_mem hpost
          rw [hs.ids, List.mem_range'_1] at hm
          exact hm.1
        refine Or.inr ⟨post.id, hid, ?_⟩
        simp [Device.step, htracker, hpending, hbefore, hneeds, hafter,
          find_uuid_of_nodup hnodup hpost hu, Post.report, hflag]
  · have hout : uuid ∉ posts.flatMap (·.uuids) := by
      rw [hs.uuids]
      simp only [List.mem_append, List.mem_filter]
      rintro (⟨hm, _⟩ | ⟨hm, _⟩) <;> exact hp hm
    refine Or.inl ⟨hp, ?_⟩
    rw [hafter, find_uuid_none hout]
    simp only [State.device, hp, decide_false, h.inFlight_nil hidle, List.find?_nil]

theorem device_updateLoop {state next : State Uuid} (h : Consistent state) (batchSize : Int)
    (serviceId : Nat) (hu : state.updateLoop batchSize serviceId = some next) (uuid : Uuid) :
    (next.device uuid = state.device uuid ∧
      (state.currentlyReporting = true ∨ uuid ∉ state.pendingUpdates)) ∨
    (state.currentlyReporting = false ∧ ∃ id, state.nextPost ≤ id ∧
      (state.device uuid).step (.examine id) = some (next.device uuid)) := by
  rcases updateLoop_cases batchSize serviceId state next h.tracked_pending hu with
    ⟨rfl, hguard⟩ | ⟨hidle, posts, hs, rfl⟩
  · refine Or.inl ⟨rfl, hguard.imp_right fun hnil hm => ?_⟩
    rw [OrderedSet.mem_iff, hnil] at hm
    cases hm
  · rcases device_startRound h hidle hs uuid with ⟨hp, he⟩ | hex
    · exact Or.inl ⟨he, Or.inr hp⟩
    · exact Or.inr ⟨hidle, hex⟩

theorem device_settle {state next : State Uuid} (h : Scheduled state) (id : Nat)
    (response : Option Nat) (hs : state.settle id response = some next) (uuid : Uuid) :
    ∃ post ∈ state.inFlight, post.id = id ∧
      ((uuid ∉ post.uuids ∧ next.device uuid = state.device uuid) ∨
      (uuid ∈ post.uuids ∧ response = some 200 ∧
        (state.device uuid).step .acknowledge = some (next.device uuid)) ∨
      (uuid ∈ post.uuids ∧ response ≠ some 200 ∧
        (state.device uuid).step .requeue = some (next.device uuid))) := by
  obtain ⟨_, post, hp, hid, hin, hds, hpu, hack⟩ := h.settle id response hs
  obtain ⟨hget, hpend, hacked⟩ := finishPost_spec state post response (h.tracked_inFlight post hp)
  have herase := find_uuid_erase h.uuids_nodup hp uuid
  have hdevice : next.device uuid = ⟨(state.finishPost post response).deviceStates.get uuid,
      uuid ∈ (state.finishPost post response).pendingUpdates,
      ((state.inFlight.erase post).find? (uuid ∈ ·.uuids)).map Post.report,
      ((state.finishPost post response).acknowledged.find? (uuid ∈ ·.uuids)).map Post.report⟩ := by
    simp only [State.device, hin, hds, hpu, hack]
  simp only [hget, hpend, hacked, herase] at hdevice
  refine ⟨post, hp, hid, ?_⟩
  by_cases hu : uuid ∈ post.uuids
  · have hfind := find_uuid_of_nodup h.uuids_nodup hp hu
    refine Or.inr ?_
    by_cases hr : response = some 200
    · refine Or.inl ⟨hu, hr, ?_⟩
      rw [hdevice]
      simp [State.device, Device.step, hfind, hu, hr, Post.report]
    · refine Or.inr ⟨hu, hr, ?_⟩
      rw [hdevice]
      simp [State.device, Device.step, hfind, hu, hr]
  · refine Or.inl ⟨hu, ?_⟩
    rw [hdevice]
    by_cases hr : response = some 200 <;> simp [State.device, hu, hr]

-- Each turn of the event loop is, for each device, a run of its own life.
theorem device_step (batchSize : Int) (state : State Uuid) (event : Event Uuid)
    (next : State Uuid) (h : Scheduled state) (hs : step batchSize state event = some next)
    (uuid : Uuid) :
    ∃ inputs, Seen state uuid event inputs ∧
      run Device.step (state.device uuid) inputs = some (next.device uuid) := by
  cases event with
  | setConnected other serviceId workerId connected =>
      have hq := h.toConsistent.enqueue other workerId connected
      have he := device_enqueue state other uuid workerId connected
      by_cases ho : uuid = other
      · subst ho
        rw [if_pos rfl] at he
        rcases device_updateLoop hq batchSize serviceId hs uuid with
          ⟨hsame, hguard⟩ | ⟨hidle, id, hid, hex⟩
        · have hbusy : state.currentlyReporting = true :=
            hguard.resolve_right (not_not_intro ((OrderedSet.mem_add _ _ _).mpr (Or.inl rfl)))
          refine ⟨_, .called serviceId workerId connected hbusy, ?_⟩
          rw [hsame, he]
          rfl
        · refine ⟨_, .reported serviceId workerId connected id hidle hid, ?_⟩
          rw [he] at hex
          simpa [run, Device.step] using hex
      · rw [if_neg ho] at he
        refine ⟨[], .untouched _ (by simp [Ne.symm ho]) (by simp) (by simp), ?_⟩
        rcases device_updateLoop hq batchSize serviceId hs uuid with
          ⟨hsame, _⟩ | ⟨hidle, id, hid, hex⟩
        · rw [hsame, he]
          rfl
        · -- an idle reporter has nothing else to examine
          have hp : (state.device uuid).pending = false := by
            have hnil := h.pending hidle
            simp [State.device, OrderedSet.mem_iff, hnil]
          rw [he] at hex
          simp only [Device.step, hp, Bool.false_and, Bool.false_eq_true, if_false] at hex
          split at hex <;> cases hex
  | settle id response =>
      obtain ⟨post, hp, rfl, hcases⟩ := device_settle h id response hs uuid
      rcases hcases with ⟨hu, hsame⟩ | ⟨hu, rfl, hex⟩ | ⟨hu, hr, hex⟩
      · refine ⟨[], .untouched _ (by simp) ?_ (by simp), by rw [hsame]; rfl⟩
        intro other ho response' he
        have hids : other.id = post.id := by injection he with he; exact he.symm
        have heq := List.inj_on_of_nodup_map h.ids_nodup ho hp hids
        rwa [heq]
      · exact ⟨_, .acknowledged post hp hu, by simpa [run] using hex⟩
      · exact ⟨_, .requeued post hp hu response hr, by simpa [run] using hex⟩
  | wake index =>
      obtain ⟨hin, serviceId, hl⟩ := h.wake_cases batchSize index hs
      have hrest : state.rest.device uuid = state.device uuid := by
        have hnil : state.rest.inFlight = [] := by simp [State.inFlight, State.rest]
        simp only [State.device, hin, hnil]
        rfl
      rcases device_updateLoop h.rest batchSize serviceId hl uuid with
        ⟨hsame, hguard⟩ | ⟨_, id, hid, hex⟩
      · refine ⟨[], .untouched _ (by simp) (by simp) ?_, by rw [hsame, hrest]; rfl⟩
        intro _ _
        exact hguard.resolve_left (by simp [State.rest])
      · refine ⟨_, .examined index id hid, ?_⟩
        rw [hrest] at hex
        simpa [run] using hex

end Project

end OpenBalenaVpn.Reporter
