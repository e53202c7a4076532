import OpenBalenaVpn.Reporter.Agreement

namespace OpenBalenaVpn.Reporter

open Transition

section Life

def DeviceStateTracker.Claims (tracker : DeviceStateTracker) (workerId : Nat) : Prop :=
  tracker.targetConnected = true ∧ tracker.targetWorkerId = workerId

-- The reporter takes the device to be claimed on this worker already.
def DeviceStateTracker.Holds (tracker : DeviceStateTracker) (workerId : Nat) : Prop :=
  tracker.currentConnected = some true ∧ tracker.currentWorkerId = some workerId

theorem DeviceStateTracker.needsUpdate_iff_of_claims {tracker : DeviceStateTracker}
    {workerId : Nat} (h : tracker.Claims workerId) :
    tracker.needsUpdate = true ↔ ¬tracker.Holds workerId := by
  obtain ⟨hc, hw⟩ := h
  simp only [needsUpdate, hc, hw, Holds, Bool.or_eq_true, bne_iff_ne, ne_eq, not_and_or]
  exact or_congr (not_congr eq_comm) (not_congr eq_comm)

-- How far the claim that a call asked for has come. The POSTs sent since the
-- call are those numbered from first on.
inductive Reclaiming (first workerId : Nat) (device : Device) : Prop where
  | waiting (tracker : DeviceStateTracker) (ht : device.tracker = some tracker)
      (hclaims : tracker.Claims workerId) (hholds : ¬tracker.Holds workerId)
      (hp : device.pending = true) (hf : device.inFlight = none)
  | retracting (tracker : DeviceStateTracker) (ht : device.tracker = some tracker)
      (hclaims : tracker.Claims workerId) (hholds : ¬tracker.Holds workerId)
      (hp : device.pending = true) (report : Report) (hf : device.inFlight = some report)
      (hflag : report.connected = false)
  | sent (tracker : DeviceStateTracker) (ht : device.tracker = some tracker)
      (hclaims : tracker.Claims workerId) (hholds : ¬tracker.Holds workerId)
      (hp : device.pending = false) (report : Report) (hf : device.inFlight = some report)
      (hflag : report.connected = true) (hid : first ≤ report.id)
  | claimed (hp : device.pending = false) (hf : device.inFlight = none) (report : Report)
      (ha : device.acknowledged = some report) (hflag : report.connected = true)
      (hid : first ≤ report.id)

theorem Reclaiming.examine {first workerId id : Nat} {device next : Device}
    (h : Reclaiming first workerId device) (hid : first ≤ id)
    (hs : device.step (.examine id) = some next) : Reclaiming first workerId next := by
  obtain ⟨tracker, ht, hpending, hnone, rfl⟩ := Device.examine_cases hs
  cases h with
  | waiting other ho hclaims hholds _ _ =>
      obtain rfl : tracker = other := Option.some.inj (ht.symm.trans ho)
      have hneeds := (DeviceStateTracker.needsUpdate_iff_of_claims hclaims).mpr hholds
      exact .sent tracker ht hclaims hholds rfl ⟨id, tracker.targetConnected⟩
        (by simp [hneeds]) hclaims.1 hid
  | retracting _ _ _ _ _ report hf _ => cases hf.symm.trans hnone
  | sent _ _ _ _ hp _ _ _ _ => cases hp.symm.trans hpending
  | claimed hp _ _ _ _ _ => cases hp.symm.trans hpending

theorem Reclaiming.acknowledge {first workerId : Nat} {device next : Device}
    (h : Reclaiming first workerId device) (hs : device.step .acknowledge = some next) :
    Reclaiming first workerId next := by
  obtain ⟨report, hf, rfl⟩ := Device.acknowledge_cases hs
  cases h with
  | waiting _ _ _ _ _ hn => cases hf.symm.trans hn
  | retracting tracker ht hclaims _ hp other ho hflag =>
      obtain rfl : report = other := Option.some.inj (hf.symm.trans ho)
      refine .waiting (tracker.mark report.connected) (by simp [ht]) hclaims ?_ hp rfl
      simp [DeviceStateTracker.Holds, DeviceStateTracker.mark, hflag]
  | sent tracker ht hclaims _ hp other ho hflag hid =>
      obtain rfl : report = other := Option.some.inj (hf.symm.trans ho)
      exact .claimed hp rfl report rfl hflag hid
  | claimed _ hn _ _ _ _ => cases hf.symm.trans hn

theorem Reclaiming.requeue {first workerId : Nat} {device next : Device}
    (h : Reclaiming first workerId device) (hs : device.step .requeue = some next) :
    Reclaiming first workerId next := by
  obtain ⟨report, hf, rfl⟩ := Device.requeue_cases hs
  cases h with
  | waiting _ _ _ _ _ hn => cases hf.symm.trans hn
  | retracting tracker ht hclaims hholds _ _ _ _ => exact .waiting tracker ht hclaims hholds rfl rfl
  | sent tracker ht hclaims hholds _ _ _ _ _ => exact .waiting tracker ht hclaims hholds rfl rfl
  | claimed _ hn _ _ _ _ => cases hf.symm.trans hn

end Life

section Project

variable {Uuid : Type} [DecidableEq Uuid]

-- The call would change the worker of a device that the reporter knows.
def WorkerChanges (state : State Uuid) (uuid : Uuid) (workerId : Nat) : Prop :=
  ∃ tracker, state.deviceStates.get uuid = some tracker ∧ tracker.targetWorkerId ≠ workerId

-- A client-connect POST with the uuid was sent since the state before the call,
-- and acknowledged.
def Reclaimed (before last : State Uuid) (uuid : Uuid) : Prop :=
  ∃ post ∈ last.acknowledged, uuid ∈ post.uuids ∧ post.eventType = .connect ∧
    before.nextPost ≤ post.id

def NoCall (uuid : Uuid) (events : List (Event Uuid)) : Prop :=
  ∀ serviceId workerId connected, .setConnected uuid serviceId workerId connected ∉ events

-- However the run goes on without a further call for the uuid, it is claimed
-- back before it is settled.
def KeepsClaim (batchSize : Int) (before after : State Uuid) (uuid : Uuid) : Prop :=
  ∀ later last, NoCall uuid later → run (step batchSize) after later = some last →
    ¬Queued last uuid → Reclaimed before last uuid

-- No client-connect POST with the uuid is on the wire, and the reporter does not
-- take the device to be claimed on this worker already.
def SafeToReclaim (state : State Uuid) (uuid : Uuid) (workerId : Nat) : Prop :=
  (∀ post ∈ state.inFlight, uuid ∈ post.uuids → post.eventType = .disconnect) ∧
  ∀ tracker, state.deviceStates.get uuid = some tracker → ¬tracker.Holds workerId

section Numbered

-- POSTs are numbered below the next number, and are only sent with a batch size
-- that lets `chunk` return.
structure Numbered (batchSize : Int) (state : State Uuid) : Prop where
  agreed : Agreed state
  acknowledged_lt : ∀ post ∈ state.acknowledged, post.id < state.nextPost
  batchSize_pos : 0 < state.nextPost → 0 < batchSize

theorem numbered_initial (batchSize : Int) : Numbered batchSize (State.initial : State Uuid) where
  agreed := agreed_initial
  acknowledged_lt := by simp [State.initial]
  batchSize_pos h := by simp [State.initial] at h

theorem updateLoop_numbers (batchSize : Int) (serviceId : Nat) {state next : State Uuid}
    (h : Consistent state) (hu : state.updateLoop batchSize serviceId = some next) :
    next.acknowledged = state.acknowledged ∧ state.nextPost ≤ next.nextPost ∧
      (state.nextPost < next.nextPost → 0 < batchSize) := by
  rcases updateLoop_cases batchSize serviceId state next h.tracked_pending hu with
    ⟨rfl, _⟩ | ⟨_, posts, hs, rfl⟩
  · exact ⟨rfl, Nat.le_refl _, fun hlt => absurd hlt (Nat.lt_irrefl _)⟩
  · refine ⟨rfl, Nat.le_add_right _ _, fun hlt => ?_⟩
    have hpos : 0 < posts.length := by
      simp only [State.startRound] at hlt
      omega
    obtain ⟨post, hp⟩ := List.exists_mem_of_length_pos hpos
    obtain ⟨_, hne, hle⟩ := hs.batch post hp
    have hlen := List.length_pos_iff.mpr hne
    omega

theorem settle_numbers {state next : State Uuid} {id : Nat} {response : Option Nat}
    (h : Scheduled state) (hs : state.settle id response = some next) :
    next.nextPost = state.nextPost ∧
      ∀ post ∈ next.acknowledged, post ∈ state.acknowledged ∨ post ∈ state.inFlight := by
  obtain ⟨post, hp, _, rfl⟩ := settle_cases state next id response hs
  obtain ⟨_, _, hack⟩ := finishPost_spec state post response (h.tracked_inFlight post hp)
  refine ⟨(finishPost_frame state post response).2, fun other ho => ?_⟩
  dsimp only at ho
  rw [hack] at ho
  split at ho
  · rcases List.mem_cons.mp ho with rfl | ho
    · exact Or.inr hp
    · exact Or.inl ho
  · exact Or.inl ho

theorem step_nextPost_le (batchSize : Int) (state : State Uuid) (event : Event Uuid)
    (next : State Uuid) (h : Scheduled state) (hs : step batchSize state event = some next) :
    state.nextPost ≤ next.nextPost := by
  cases event with
  | setConnected uuid serviceId workerId connected =>
      exact (updateLoop_numbers batchSize serviceId
        (h.toConsistent.enqueue uuid workerId connected) hs).2.1
  | settle id response => exact Nat.le_of_eq (settle_numbers h hs).1.symm
  | wake index =>
      obtain ⟨_, serviceId, hl⟩ := h.wake_cases batchSize index hs
      exact (updateLoop_numbers batchSize serviceId h.rest hl).2.1

theorem numbered_step (batchSize : Int) (state : State Uuid) (event : Event Uuid)
    (next : State Uuid) (h : Numbered batchSize state)
    (hs : step batchSize state event = some next) : Numbered batchSize next := by
  have hsched := h.agreed.scheduled
  refine ⟨agreed_step batchSize state event next h.agreed hs, ?_, ?_⟩
  · intro post hp
    cases event with
    | setConnected uuid serviceId workerId connected =>
        obtain ⟨hack, hle, _⟩ := updateLoop_numbers batchSize serviceId
          (hsched.toConsistent.enqueue uuid workerId connected) hs
        exact Nat.lt_of_lt_of_le (h.acknowledged_lt post (hack ▸ hp)) hle
    | settle id response =>
        obtain ⟨hnext, hack⟩ := settle_numbers hsched hs
        rw [hnext]
        exact (hack post hp).elim (h.acknowledged_lt post) (hsched.ids_lt post)
    | wake index =>
        obtain ⟨_, serviceId, hl⟩ := hsched.wake_cases batchSize index hs
        obtain ⟨hack, hle, _⟩ := updateLoop_numbers batchSize serviceId hsched.rest hl
        exact Nat.lt_of_lt_of_le (h.acknowledged_lt post (hack ▸ hp)) hle
  · intro hpos
    by_cases hbefore : 0 < state.nextPost
    · exact h.batchSize_pos hbefore
    · cases event with
      | setConnected uuid serviceId workerId connected =>
          exact (updateLoop_numbers batchSize serviceId
            (hsched.toConsistent.enqueue uuid workerId connected) hs).2.2
              (by simp only [State.enqueue]; omega)
      | settle id response =>
          rw [(settle_numbers hsched hs).1] at hpos
          exact absurd hpos hbefore
      | wake index =>
          obtain ⟨_, serviceId, hl⟩ := hsched.wake_cases batchSize index hs
          exact (updateLoop_numbers batchSize serviceId hsched.rest hl).2.2
            (by simp only [State.rest]; omega)

theorem numbered_run (batchSize : Int) {events : List (Event Uuid)} {state : State Uuid}
    (hrun : run (step batchSize) State.initial events = some state) : Numbered batchSize state :=
  run_invariant (numbered_step batchSize) (numbered_initial batchSize) hrun

end Numbered

section Keeps

theorem inFlight_report {state : State Uuid} {uuid : Uuid} {report : Report}
    (hf : (state.device uuid).inFlight = some report) :
    ∃ post ∈ state.inFlight, uuid ∈ post.uuids ∧ post.report = report := by
  obtain ⟨post, hfind, hr⟩ := Option.map_eq_some_iff.mp hf
  exact ⟨post, List.mem_of_find?_eq_some hfind, by simpa using List.find?_some hfind, hr⟩

omit [DecidableEq Uuid] in
theorem eventType_connect_iff (post : Post Uuid) :
    post.eventType = .connect ↔ post.report.connected = true := by
  cases hc : post.connected <;> simp [Post.eventType, Post.report, hc]

omit [DecidableEq Uuid] in
theorem eventType_disconnect_iff (post : Post Uuid) :
    post.eventType = .disconnect ↔ post.report.connected = false := by
  cases hc : post.connected <;> simp [Post.eventType, Post.report, hc]

theorem claims_retarget (workerId : Nat) (tracker : Option DeviceStateTracker) :
    (retarget workerId true tracker).Claims workerId := by
  cases tracker <;> exact ⟨rfl, rfl⟩

theorem holds_retarget_iff (workerId other : Nat) (connected : Bool)
    (tracker : Option DeviceStateTracker) :
    (retarget other connected tracker).Holds workerId ↔
      ∃ old, tracker = some old ∧ old.Holds workerId := by
  cases tracker with
  | none => simp [retarget, DeviceStateTracker.Holds]
  | some old => simp [retarget, DeviceStateTracker.Holds]

theorem reclaiming_call {state : State Uuid} {uuid : Uuid} {workerId : Nat}
    (hsafe : SafeToReclaim state uuid workerId) (first : Nat) :
    Reclaiming first workerId ((state.device uuid).call workerId true) := by
  have hholds : ¬(retarget workerId true (state.device uuid).tracker).Holds workerId := by
    rw [holds_retarget_iff]
    rintro ⟨old, hold, hh⟩
    exact hsafe.2 old hold hh
  cases hf : (state.device uuid).inFlight with
  | none => exact .waiting _ rfl (claims_retarget workerId _) hholds rfl hf
  | some report =>
      obtain ⟨post, hp, hu, rfl⟩ := inFlight_report hf
      exact .retracting _ rfl (claims_retarget workerId _) hholds rfl post.report hf
        ((eventType_disconnect_iff post).mp (hsafe.1 post hp hu))

theorem reclaiming_after_call (batchSize : Int) {before after : State Uuid} {uuid : Uuid}
    {serviceId workerId : Nat} (h : Scheduled before)
    (hsafe : SafeToReclaim before uuid workerId)
    (hs : step batchSize before (.setConnected uuid serviceId workerId true) = some after) :
    Reclaiming before.nextPost workerId (after.device uuid) := by
  obtain ⟨inputs, hseen, hrun⟩ := device_step batchSize before _ after h hs uuid
  have hcall := reclaiming_call hsafe before.nextPost
  cases hseen with
  | untouched _ hother _ _ => exact absurd rfl (hother serviceId workerId true)
  | called _ _ _ _ =>
      rw [run_singleton, Device.step, Option.some.injEq] at hrun
      exact hrun ▸ hcall
  | reported _ _ _ id _ hid =>
      obtain ⟨middle, hm, hrest⟩ := (run_cons_eq_some _ _ _ _ _).mp hrun
      obtain rfl := Option.some.inj hm
      rw [run_singleton] at hrest
      exact hcall.examine hid hrest

theorem reclaiming_step (batchSize : Int) {state next : State Uuid} {event : Event Uuid}
    {uuid : Uuid} {first workerId : Nat} (h : Scheduled state)
    (hcall : ∀ serviceId workerId connected,
      event ≠ .setConnected uuid serviceId workerId connected)
    (hfirst : first ≤ state.nextPost) (hr : Reclaiming first workerId (state.device uuid))
    (hs : step batchSize state event = some next) :
    Reclaiming first workerId (next.device uuid) := by
  obtain ⟨inputs, hseen, hrun⟩ := device_step batchSize state event next h hs uuid
  cases hseen with
  | untouched _ _ _ _ =>
      rw [run_nil, Option.some.injEq] at hrun
      exact hrun ▸ hr
  | called serviceId workerId connected _ =>
      exact absurd rfl (hcall serviceId workerId connected)
  | reported serviceId workerId connected _ _ _ =>
      exact absurd rfl (hcall serviceId workerId connected)
  | examined index id hid =>
      rw [run_singleton] at hrun
      exact hr.examine (Nat.le_trans hfirst hid) hrun
  | acknowledged post _ _ =>
      rw [run_singleton] at hrun
      exact hr.acknowledge hrun
  | requeued post _ _ response _ =>
      rw [run_singleton] at hrun
      exact hr.requeue hrun

theorem reclaiming_run (batchSize : Int) {state last : State Uuid} {later : List (Event Uuid)}
    {uuid : Uuid} {first workerId : Nat} (h : Scheduled state) (hno : NoCall uuid later)
    (hfirst : first ≤ state.nextPost) (hr : Reclaiming first workerId (state.device uuid))
    (hrun : run (step batchSize) state later = some last) :
    Reclaiming first workerId (last.device uuid) := by
  induction later generalizing state with
  | nil =>
      obtain rfl : state = last := Option.some.inj hrun
      exact hr
  | cons event later ih =>
      obtain ⟨next, hs, hrest⟩ := (run_cons_eq_some _ _ _ _ _).mp hrun
      have hcall : ∀ serviceId workerId connected,
          event ≠ .setConnected uuid serviceId workerId connected := by
        rintro serviceId workerId connected rfl
        exact hno serviceId workerId connected (List.mem_cons_self)
      exact ih (scheduled_step batchSize state event next h hs)
        (fun serviceId workerId connected hm =>
          hno serviceId workerId connected (List.mem_cons_of_mem _ hm))
        (Nat.le_trans hfirst (step_nextPost_le batchSize state event next h hs))
        (reclaiming_step batchSize h hcall hfirst hr hs) hrest

theorem keepsClaim_of_safe (batchSize : Int) {before after : State Uuid} {uuid : Uuid}
    {serviceId workerId : Nat} (h : Scheduled before)
    (hs : step batchSize before (.setConnected uuid serviceId workerId true) = some after)
    (hsafe : SafeToReclaim before uuid workerId) : KeepsClaim batchSize before after uuid := by
  intro later last hno hrun hsettled
  have hafter := scheduled_step batchSize before _ after h hs
  have hr := reclaiming_run batchSize hafter hno
    (step_nextPost_le batchSize before _ after h hs)
    (reclaiming_after_call batchSize h hsafe hs) hrun
  obtain ⟨hpending, hnone⟩ := (device_settled_iff last uuid).mpr hsettled
  cases hr with
  | waiting _ _ _ _ hp _ => cases hp.symm.trans hpending
  | retracting _ _ _ _ hp _ _ _ => cases hp.symm.trans hpending
  | sent _ _ _ _ _ _ hf _ _ => cases hf.symm.trans hnone
  | claimed _ _ report ha hflag hid =>
      obtain ⟨post, hfind, rfl⟩ := Option.map_eq_some_iff.mp ha
      exact ⟨post, List.mem_of_find?_eq_some hfind, by simpa using List.find?_some hfind,
        (eventType_connect_iff post).mpr hflag, hid⟩

end Keeps

section Loses

-- The target is already held, or will be once the POST on the wire is
-- acknowledged. Either way the next round drops the device.
structure Losing (workerId : Nat) (device : Device) : Prop where
  claims : ∃ tracker, device.tracker = some tracker ∧ tracker.Claims workerId ∧
    (tracker.Holds workerId ∨ ∃ report, device.inFlight = some report ∧ report.connected = true)
  pending : device.pending = true

theorem losing_call {state : State Uuid} {uuid : Uuid} {workerId : Nat} (h : Consistent state)
    (hrisky : ¬SafeToReclaim state uuid workerId) :
    Losing workerId ((state.device uuid).call workerId true) := by
  refine ⟨⟨_, rfl, claims_retarget workerId _, ?_⟩, rfl⟩
  rw [holds_retarget_iff]
  by_contra hn
  push Not at hn
  refine hrisky ⟨fun post hp hu => ?_, fun tracker ht => hn.1 tracker ht⟩
  have hfind := find_uuid_of_nodup h.uuids_nodup hp hu
  have hf : (state.device uuid).inFlight = some post.report := by simp [State.device, hfind]
  rw [eventType_disconnect_iff]
  exact Bool.eq_false_iff.mpr (hn.2 post.report hf)

theorem settle_isSome {state : State Uuid} {post : Post Uuid} (hp : post ∈ state.inFlight)
    (response : Option Nat) : ∃ next, state.settle post.id response = some next := by
  unfold State.settle
  cases hf : state.inFlight.find? (·.id = post.id) with
  | some found => exact ⟨_, rfl⟩
  | none =>
      have hnot := List.find?_eq_none.mp hf post hp
      simp at hnot

-- Connects succeed and disconnects fail.
def answer (post : Post Uuid) : Option Nat := if post.connected then some 200 else none

theorem losing_settle (batchSize : Int) {state next : State Uuid} {post : Post Uuid}
    {uuid : Uuid} {workerId : Nat} (h : Scheduled state) (hp : post ∈ state.inFlight)
    (hl : Losing workerId (state.device uuid))
    (hs : step batchSize state (.settle post.id (answer post)) = some next) :
    Losing workerId (next.device uuid) := by
  obtain ⟨⟨tracker, ht, hclaims, hheld⟩, hpending⟩ := hl
  obtain ⟨inputs, hseen, hrun⟩ := device_step batchSize state _ next h hs uuid
  generalize hevent : Event.settle post.id (answer post) = event at hseen
  cases hseen with
  | untouched _ _ _ _ =>
      rw [run_nil, Option.some.injEq] at hrun
      rw [← hrun]
      exact ⟨⟨tracker, ht, hclaims, hheld⟩, hpending⟩
  | called _ _ _ _ => cases hevent
  | reported _ _ _ _ _ _ => cases hevent
  | examined _ _ _ => cases hevent
  | acknowledged other ho hu =>
      injection hevent with hid hanswer
      obtain rfl : post = other := List.inj_on_of_nodup_map h.ids_nodup hp ho hid
      have hflag : post.connected = true := by
        by_contra hc
        simp [answer, hc] at hanswer
      rw [run_singleton] at hrun
      obtain ⟨report, hf, hnext⟩ := Device.acknowledge_cases hrun
      rw [State.device, find_uuid_of_nodup h.uuids_nodup hp hu] at hf
      obtain rfl : post.report = report := Option.some.inj hf
      rw [hnext]
      refine ⟨⟨tracker.mark post.connected, by simp [ht, Post.report], hclaims, Or.inl ?_⟩,
        hpending⟩
      exact ⟨by simp [DeviceStateTracker.mark, hflag], congrArg some hclaims.2⟩
  | requeued other ho hu response hfail =>
      injection hevent with hid hanswer
      obtain rfl : post = other := List.inj_on_of_nodup_map h.ids_nodup hp ho hid
      have hflag : post.connected = false := by
        by_contra hc
        simp only [Bool.not_eq_false] at hc
        simp only [answer, hc, if_true] at hanswer
        exact hfail hanswer.symm
      rw [run_singleton] at hrun
      obtain ⟨report, hf, hnext⟩ := Device.requeue_cases hrun
      have hdevice := hf
      rw [State.device, find_uuid_of_nodup h.uuids_nodup hp hu] at hf
      obtain rfl : post.report = report := Option.some.inj hf
      rw [hnext]
      refine ⟨⟨tracker, ht, hclaims, Or.inl (hheld.resolve_right ?_)⟩, rfl⟩
      rintro ⟨report, hr, hc⟩
      obtain rfl : post.report = report := Option.some.inj (hdevice.symm.trans hr)
      simp [Post.report, hflag] at hc

-- The POSTs on the wire are answered one after another, until the round sleeps.
theorem losing_drain (batchSize : Int) {uuid : Uuid} {workerId : Nat} (count : Nat)
    {state : State Uuid} (h : Numbered batchSize state) (hcount : state.inFlight.length = count)
    (hbusy : state.currentlyReporting = true) (hl : Losing workerId (state.device uuid)) :
    ∃ later last, NoCall uuid later ∧ run (step batchSize) state later = some last ∧
      Numbered batchSize last ∧ last.inFlight = [] ∧ last.currentlyReporting = true ∧
      last.nextPost = state.nextPost ∧ Losing workerId (last.device uuid) := by
  induction count generalizing state with
  | zero =>
      exact ⟨[], state, by simp [NoCall], rfl, h, List.length_eq_zero_iff.mp hcount, hbusy, rfl, hl⟩
  | succ count ih =>
      obtain ⟨post, hp⟩ := List.exists_mem_of_length_pos (by omega : 0 < state.inFlight.length)
      obtain ⟨next, hs⟩ := settle_isSome hp (answer post)
      have hstep : step batchSize state (.settle post.id (answer post)) = some next := hs
      have hsched := h.agreed.scheduled
      obtain ⟨_, other, ho, hid, hin, _⟩ := hsched.settle post.id (answer post) hs
      obtain rfl : other = post := List.inj_on_of_nodup_map hsched.ids_nodup ho hp hid
      have hlen : next.inFlight.length = count := by
        rw [hin, List.length_erase_of_mem hp]
        omega
      obtain ⟨later, last, hno, hrun, hlast, hnil, hstill, hnext, hlost⟩ :=
        ih (numbered_step batchSize _ _ _ h hstep) hlen
          ((settle_reporting hs).trans hbusy) (losing_settle batchSize hsched hp hl hstep)
      refine ⟨.settle other.id (answer other) :: later, last, ?_,
        (run_cons_eq_some _ _ _ _ _).mpr ⟨next, hstep, hrun⟩, hlast, hnil, hstill,
        hnext.trans (settle_numbers hsched hs).1, hlost⟩
      intro serviceId workerId connected hm
      rcases List.mem_cons.mp hm with he | hm
      · cases he
      · exact hno serviceId workerId connected hm

theorem wake_of_drained {state : State Uuid} (h : Consistent state)
    (hbusy : state.currentlyReporting = true) (hnil : state.inFlight = []) (batchSize : Int) :
    ∃ serviceId, state.wake batchSize 0 = state.rest.updateLoop batchSize serviceId := by
  obtain ⟨⟨serviceId, phase⟩, hr⟩ := h.round hbusy
  have hphase : phase = .sleeping := by
    cases phase with
    | sleeping => rfl
    | reporting inFlight =>
        have hin : inFlight = [] := by simpa [State.inFlight, hr, Phase.inFlight] using hnil
        exact absurd (congrArg Phase.reporting hin)
          (h.awaiting ⟨serviceId, .reporting inFlight⟩ (by simp [hr]))
  refine ⟨serviceId, ?_⟩
  simp [State.wake, hr, hphase, State.rest]

theorem losing_examine {device next : Device} {workerId id : Nat} (hl : Losing workerId device)
    (hs : device.step (.examine id) = some next) :
    next.Settled ∧ next.acknowledged = device.acknowledged := by
  obtain ⟨tracker, ht, _, hnone, rfl⟩ := Device.examine_cases hs
  obtain ⟨other, ho, hclaims, hheld⟩ := hl.claims
  obtain rfl : tracker = other := Option.some.inj (ht.symm.trans ho)
  have hholds : tracker.Holds workerId := by
    refine hheld.resolve_right ?_
    rintro ⟨report, hf, _⟩
    cases hf.symm.trans hnone
  have hneeds : tracker.needsUpdate = false := by
    rw [← Bool.not_eq_true, DeviceStateTracker.needsUpdate_iff_of_claims hclaims, not_not]
    exact hholds
  exact ⟨⟨rfl, by simp [hneeds]⟩, rfl⟩

theorem Numbered.not_reclaimed {batchSize : Int} {before last : State Uuid}
    (h : Numbered batchSize last) (hnext : last.nextPost = before.nextPost) (uuid : Uuid) :
    ¬Reclaimed before last uuid := by
  rintro ⟨post, hp, _, _, hid⟩
  have hlt := h.acknowledged_lt post hp
  omega

theorem loses_of_busy (batchSize : Int) {before after : State Uuid} {uuid : Uuid}
    {serviceId workerId : Nat} (h : Numbered batchSize before)
    (hbusy : before.currentlyReporting = true)
    (hs : step batchSize before (.setConnected uuid serviceId workerId true) = some after)
    (hrisky : ¬SafeToReclaim before uuid workerId) (hsize : 0 < batchSize) :
    ¬KeepsClaim batchSize before after uuid := by
  intro hkeeps
  have hafter := numbered_step batchSize before _ after h hs
  have hsame : after = before.enqueue uuid workerId true := by
    rcases updateLoop_cases batchSize serviceId _ after
      (h.agreed.scheduled.toConsistent.enqueue uuid workerId true).tracked_pending hs with
      ⟨he, _⟩ | ⟨hidle, _⟩
    · exact he
    · cases hbusy.symm.trans hidle
  have hl : Losing workerId (after.device uuid) := by
    rw [hsame, device_enqueue, if_pos rfl]
    exact losing_call h.agreed.scheduled.toConsistent hrisky
  obtain ⟨later, middle, hno, hrun, hmiddle, hnil, hstill, hnext, hlost⟩ :=
    losing_drain batchSize _ hafter rfl (hsame ▸ hbusy) hl
  have hsched := hmiddle.agreed.scheduled
  obtain ⟨_, hwake⟩ := wake_of_drained hsched.toConsistent hstill hnil batchSize
  obtain ⟨last, hlast⟩ := updateLoop_isSome hsize _ _ hsched.rest.tracked_pending
  have hstep : step batchSize middle (.wake 0) = some last := hwake.trans hlast
  obtain ⟨inputs, hseen, hdevice⟩ := device_step batchSize middle _ last hsched hstep uuid
  have hpending : uuid ∈ middle.pendingUpdates := by simpa [State.device] using hlost.pending
  have hsettled : (last.device uuid).Settled := by
    cases hseen with
    | untouched _ _ _ hw => exact absurd hpending (hw 0 rfl)
    | examined _ id _ =>
        rw [run_singleton] at hdevice
        exact (losing_examine hlost hdevice).1
  have hclaim := hkeeps (later ++ [.wake 0]) last
    (fun serviceId workerId connected hm => by
      rcases List.mem_append.mp hm with hm | hm
      · exact hno serviceId workerId connected hm
      · simp at hm)
    ((run_concat_eq_some _ _ _ _ _).mpr ⟨middle, hrun, hstep⟩)
    ((device_settled_iff last uuid).mp hsettled)
  obtain ⟨hack, _, _⟩ := updateLoop_numbers batchSize _ hsched.rest hlast
  obtain ⟨post, hp, hrest⟩ := hclaim
  refine hmiddle.not_reclaimed (hnext.trans ?_) uuid ⟨post, hack ▸ hp, hrest⟩
  rw [hsame]
  rfl

theorem loses_of_idle (batchSize : Int) {before after : State Uuid} {uuid : Uuid}
    {serviceId workerId : Nat} (h : Numbered batchSize before)
    (hidle : before.currentlyReporting = false)
    (hs : step batchSize before (.setConnected uuid serviceId workerId true) = some after)
    (hrisky : ¬SafeToReclaim before uuid workerId) :
    ¬KeepsClaim batchSize before after uuid := by
  intro hkeeps
  have hsched := h.agreed.scheduled
  have hl := losing_call hsched.toConsistent hrisky
  obtain ⟨inputs, hseen, hdevice⟩ := device_step batchSize before _ after hsched hs uuid
  have hsettled : (after.device uuid).Settled := by
    cases hseen with
    | untouched _ hcall _ _ => exact absurd rfl (hcall serviceId workerId true)
    | called _ _ _ hbusy => cases hbusy.symm.trans hidle
    | reported _ _ _ id _ _ =>
        obtain ⟨middle, hm, hrest⟩ := (run_cons_eq_some _ _ _ _ _).mp hdevice
        obtain rfl := Option.some.inj hm
        rw [run_singleton] at hrest
        exact (losing_examine hl hrest).1
  obtain ⟨post, hp, _, _, hid⟩ := hkeeps [] after (by simp [NoCall]) rfl
    ((device_settled_iff after uuid).mp hsettled)
  obtain ⟨hack, _, _⟩ := updateLoop_numbers batchSize serviceId
    (hsched.toConsistent.enqueue uuid workerId true) hs
  have hlt := h.acknowledged_lt post (hack ▸ hp)
  omega

-- A call that is not safe needs a POST that was sent before it.
theorem batchSize_pos_of_risky {batchSize : Int} {state : State Uuid} {uuid : Uuid}
    {workerId : Nat} (h : Numbered batchSize state)
    (hrisky : ¬SafeToReclaim state uuid workerId) : 0 < batchSize := by
  by_contra hsize
  have hnone : state.nextPost = 0 := by
    by_contra hne
    exact hsize (h.batchSize_pos (Nat.pos_of_ne_zero hne))
  refine hrisky ⟨fun post hp _ => ?_, fun tracker ht hholds => ?_⟩
  · have hlt := h.agreed.scheduled.ids_lt post hp
    omega
  · have hack := (h.agreed.agrees uuid).current tracker ht
    rw [hholds.1] at hack
    obtain ⟨report, hr, _⟩ := Option.map_eq_some_iff.mp hack.symm
    obtain ⟨post, hfind, _⟩ := Option.map_eq_some_iff.mp hr
    have hlt := h.acknowledged_lt post (List.mem_of_find?_eq_some hfind)
    omega

end Loses

-- A connect call, in particular one that moves a device to another worker, is
-- followed by a claim, however the run goes on, exactly when it comes while no
-- client-connect POST with the device is on the wire and the device is not taken
-- to be claimed already.
theorem keepsClaim_iff_safe (batchSize : Int) (events : List (Event Uuid))
    (before after : State Uuid) (uuid : Uuid) (serviceId workerId : Nat)
    (hrun : run (step batchSize) State.initial events = some before)
    (hs : step batchSize before (.setConnected uuid serviceId workerId true) = some after) :
    KeepsClaim batchSize before after uuid ↔ SafeToReclaim before uuid workerId := by
  have h := numbered_run batchSize hrun
  constructor
  · intro hkeeps
    by_contra hrisky
    cases hbusy : before.currentlyReporting with
    | true =>
        exact loses_of_busy batchSize h hbusy hs hrisky (batchSize_pos_of_risky h hrisky) hkeeps
    | false => exact loses_of_idle batchSize h hbusy hs hrisky hkeeps
  · exact keepsClaim_of_safe batchSize h.agreed.scheduled hs

-- The device moves while the reporter is idle, so the move is reported.
theorem keepsClaim_move :
    let before := (run (step 8000) (State.initial : State String)
      [.setConnected "c0ffee" 1 1 true, .settle 0 (some 200), .wake 0]).get (by decide)
    let after := (step 8000 before (.setConnected "c0ffee" 1 2 true)).get (by decide)
    KeepsClaim 8000 before after "c0ffee" := by
  refine (keepsClaim_iff_safe 8000 [.setConnected "c0ffee" 1 1 true, .settle 0 (some 200),
    .wake 0] _ _ "c0ffee" 1 2 (Option.some_get (by decide)).symm
    (Option.some_get (by decide)).symm).mpr ⟨by decide, fun tracker ht => ?_⟩
  obtain rfl : (⟨true, 1, some true, some 1⟩ : DeviceStateTracker) = tracker :=
    Option.some.inj (Eq.trans (by decide) ht)
  simp [DeviceStateTracker.Holds]

-- The device moves from worker 1 to worker 2 while its first client-connect is
-- on the wire. The answer marks worker 2 as current, and the next round drops
-- the device.
theorem keepsClaim_lost :
    let before := (run (step 8000) (State.initial : State String)
      [.setConnected "c0ffee" 1 1 true]).get (by decide)
    let after := (step 8000 before (.setConnected "c0ffee" 1 2 true)).get (by decide)
    WorkerChanges before "c0ffee" 2 ∧ ¬KeepsClaim 8000 before after "c0ffee" := by
  refine ⟨⟨⟨true, 1, none, none⟩, by decide, by decide⟩, fun hkeeps => ?_⟩
  have h := hkeeps [.settle 0 (some 200), .wake 0] _ (by simp [NoCall])
    (Option.some_get (by decide)).symm (by decide)
  obtain ⟨post, hp, _, _, hid⟩ := h
  obtain rfl : post = ⟨0, 1, ["c0ffee"], true⟩ := List.mem_singleton.mp hp
  revert hid
  decide

end Project

end OpenBalenaVpn.Reporter
