import OpenBalenaVpn.Reporter.Scheduling
import Mathlib.Data.List.Pairwise

namespace OpenBalenaVpn.Reporter

open Transition

variable {Uuid : Type} [DecidableEq Uuid]

section Round

-- The state of a device that the API has acknowledged. Nothing is known of a device that
-- has no tracker.
def State.current (state : State Uuid) (uuid : Uuid) : Option Bool × Option Nat :=
  match state.deviceStates.get uuid with
  | some tracker => (tracker.currentConnected, tracker.currentWorkerId)
  | none => (none, none)

-- The POSTs of a round that started in a state.
structure Sent (batchSize : Int) (state : State Uuid) (serviceId : Nat) (posts : List (Post Uuid)) :
    Prop where
  once : ∀ uuid ∈ state.pendingUpdates, ∀ tracker, state.deviceStates.get uuid = some tracker →
    tracker.needsUpdate = true → (posts.flatMap (·.uuids)).count uuid = 1
  only : ∀ post ∈ posts, ∀ uuid ∈ post.uuids, uuid ∈ state.pendingUpdates ∧
    ∃ tracker, state.deviceStates.get uuid = some tracker ∧ tracker.needsUpdate = true ∧
      (post.eventType = .connect ↔ tracker.targetConnected = true)
  batch : ∀ post ∈ posts, post.serviceId = serviceId ∧ post.uuids ≠ [] ∧
    (post.uuids.length : Int) ≤ batchSize

-- What the answer to a POST leaves of its devices.
def Outcome (before after : State Uuid) (post : Post Uuid) (response : Option Nat) : Prop :=
  ∀ uuid ∈ post.uuids,
    if response = some 200 then (after.current uuid).1 = some post.connected
    else after.current uuid = before.current uuid ∧ uuid ∈ after.pendingUpdates

-- What a round leaves once all its POSTs are settled by the events.
structure Settled (before : State Uuid) (posts : List (Post Uuid)) (events : List (Event Uuid))
    (after : State Uuid) : Prop where
  answered : ∀ post ∈ posts, ∃ response, .settle post.id response ∈ events
  outcome : ∀ post ∈ posts, ∀ response, .settle post.id response ∈ events →
    Outcome before after post response
  untouched : ∀ uuid, uuid ∉ posts.flatMap (·.uuids) → after.current uuid = before.current uuid

def Event.Wakes (event : Event Uuid) : Prop := ∃ index, event = .wake index

end Round

section Start

theorem consistent_of_idle {state : State Uuid} (hidle : state.currentlyReporting = false)
    (hrounds : state.rounds = [])
    (ht : ∀ uuid ∈ state.pendingUpdates, Tracked state.deviceStates uuid) : Consistent state where
  rounds := by simp [hidle, hrounds]
  awaiting := by simp [hrounds]
  uuids_nodup := by simp [State.inFlight, hrounds]
  ids_nodup := by simp [State.inFlight, hrounds]
  ids_lt := by simp [State.inFlight, hrounds]
  tracked_pending := ht
  tracked_inFlight := by simp [State.inFlight, hrounds]

theorem reports_iff {deviceStates : OrderedMap Uuid DeviceStateTracker} {connected : Bool}
    {uuid : Uuid} : reports deviceStates connected uuid = true ↔
      ∃ tracker, deviceStates.get uuid = some tracker ∧ tracker.needsUpdate = true ∧
        tracker.targetConnected = connected := by
  simp only [reports, Option.any_eq_true, Bool.and_eq_true, beq_iff_eq]

omit [DecidableEq Uuid] in
theorem eventType_eq_connect_iff (post : Post Uuid) :
    post.eventType = .connect ↔ post.connected = true := by
  unfold Post.eventType
  split
  · rename_i h
    simp [h]
  · rename_i h
    simp [h]

theorem Selected.sent {batchSize : Int} {state : State Uuid} {serviceId : Nat}
    {posts : List (Post Uuid)} (h : Selected batchSize state serviceId posts) :
    Sent batchSize state serviceId posts where
  once uuid hu tracker hg hn := by
    have hmem : uuid ∈ posts.flatMap (·.uuids) := by
      rw [h.uuids, List.mem_append]
      have hreports := reports_iff.mpr ⟨tracker, hg, hn, rfl⟩
      cases hc : tracker.targetConnected with
      | false => exact Or.inl (List.mem_filter.mpr ⟨hu, hc ▸ hreports⟩)
      | true => exact Or.inr (List.mem_filter.mpr ⟨hu, hc ▸ hreports⟩)
    have hnodup := selected_nodup state
    rw [← h.uuids] at hnodup
    exact List.count_eq_one_of_mem hnodup hmem
  only post hp uuid hu := by
    have hmem : uuid ∈ posts.flatMap (·.uuids) := List.mem_flatMap.mpr ⟨post, hp, hu⟩
    obtain ⟨tracker, hg, hn, hc⟩ := reports_iff.mp (h.reported post hp uuid hu)
    refine ⟨?_, tracker, hg, hn, by rw [eventType_eq_connect_iff, hc]⟩
    rw [h.uuids, List.mem_append] at hmem
    rcases hmem with hd | hd
    · exact (List.mem_filter.mp hd).1
    · exact (List.mem_filter.mp hd).1
  batch := h.batch

end Start

section Progress

-- A round that is under way after some events. The POSTs that are not in flight any more
-- were answered, each with its outcome.
structure Progress (before : State Uuid) (posts : List (Post Uuid)) (events : List (Event Uuid))
    (state : State Uuid) : Prop where
  scheduled : Scheduled state
  busy : state.currentlyReporting = true
  flying : ∀ post ∈ state.inFlight, post ∈ posts ∧
    ∀ uuid ∈ post.uuids, state.current uuid = before.current uuid
  answered : ∀ post ∈ posts, post ∉ state.inFlight → ∃ response, .settle post.id response ∈ events
  outcome : ∀ post ∈ posts, ∀ response, .settle post.id response ∈ events →
    post ∉ state.inFlight ∧ Outcome before state post response
  untouched : ∀ uuid, uuid ∉ posts.flatMap (·.uuids) → state.current uuid = before.current uuid

theorem current_enqueue (state : State Uuid) (uuid other : Uuid) (workerId : Nat)
    (connected : Bool) :
    (state.enqueue uuid workerId connected).current other = state.current other := by
  unfold State.current State.enqueue
  simp only [OrderedMap.get_set]
  by_cases he : uuid = other
  · subst he
    rw [if_pos rfl]
    cases state.deviceStates.get uuid <;> rfl
  · rw [if_neg he]

theorem updateLoop_of_busy (batchSize : Int) (serviceId : Nat) {state : State Uuid}
    (h : state.currentlyReporting = true) : state.updateLoop batchSize serviceId = some state := by
  unfold State.updateLoop
  rw [h]
  rfl

theorem Outcome.mono {before state next : State Uuid} {post : Post Uuid} {response : Option Nat}
    (h : Outcome before state post response)
    (hcurrent : ∀ uuid ∈ post.uuids, next.current uuid = state.current uuid)
    (hpending : ∀ uuid ∈ state.pendingUpdates, uuid ∈ next.pendingUpdates) :
    Outcome before next post response := by
  intro uuid hu
  have huuid := h uuid hu
  rw [hcurrent uuid hu]
  split
  · rename_i hok
    rwa [if_pos hok] at huuid
  · rename_i hfailed
    rw [if_neg hfailed] at huuid
    exact ⟨huuid.1, hpending uuid huuid.2⟩

-- A call of `setConnected` during the round changes targets only.
theorem Progress.setConnected {before state next : State Uuid} {posts : List (Post Uuid)}
    {events : List (Event Uuid)} (h : Progress before posts events state) {batchSize : Int}
    {uuid : Uuid} {serviceId workerId : Nat} {connected : Bool}
    (hs : step batchSize state (.setConnected uuid serviceId workerId connected) = some next) :
    Progress before posts (events ++ [.setConnected uuid serviceId workerId connected]) next := by
  have hscheduled := scheduled_step batchSize state _ next h.scheduled hs
  have hbusy : (state.enqueue uuid workerId connected).currentlyReporting = true := h.busy
  simp only [step, State.setConnected, updateLoop_of_busy batchSize serviceId hbusy] at hs
  obtain rfl := Option.some.inj hs
  have hcurrent := fun other => current_enqueue state uuid other workerId connected
  have hevent : ∀ post : Post Uuid, ∀ response,
      Event.settle post.id response ∈
        events ++ [.setConnected uuid serviceId workerId connected] →
      Event.settle post.id response ∈ events := by
    intro post response hm
    rcases List.mem_append.mp hm with hm | hm
    · exact hm
    · cases List.mem_singleton.mp hm
  refine ⟨hscheduled, hbusy, ?_, ?_, ?_, ?_⟩
  · intro post hp
    obtain ⟨hmem, hkept⟩ := h.flying post hp
    exact ⟨hmem, fun other ho => (hcurrent other).trans (hkept other ho)⟩
  · intro post hp hnot
    obtain ⟨response, hr⟩ := h.answered post hp hnot
    exact ⟨response, List.mem_append_left _ hr⟩
  · intro post hp response hm
    obtain ⟨hnot, houtcome⟩ := h.outcome post hp response (hevent post response hm)
    exact ⟨hnot, houtcome.mono (fun other _ => hcurrent other)
      fun other ho => (OrderedSet.mem_add _ _ _).mpr (Or.inr ho)⟩
  · exact fun other ho => (hcurrent other).trans (h.untouched other ho)

theorem current_finishPost (state : State Uuid) (post : Post Uuid) (response : Option Nat)
    (ht : ∀ uuid ∈ post.uuids, Tracked state.deviceStates uuid) (uuid : Uuid) :
    (response = some 200 → uuid ∈ post.uuids →
        ((state.finishPost post response).current uuid).1 = some post.connected) ∧
      (response ≠ some 200 ∨ uuid ∉ post.uuids →
        (state.finishPost post response).current uuid = state.current uuid) := by
  obtain ⟨hget, _⟩ := finishPost_spec state post response ht
  unfold State.current
  constructor
  · intro hok hu
    obtain ⟨tracker, hg⟩ := Option.isSome_iff_exists.mp (ht uuid hu)
    rw [hget, if_pos ⟨hok, hu⟩, hg]
    rfl
  · intro hnot
    rw [hget, if_neg (by tauto)]

omit [DecidableEq Uuid] in
theorem disjoint_uuids {posts : List (Post Uuid)} (h : (posts.flatMap (·.uuids)).Nodup)
    {first second : Post Uuid} (hfirst : first ∈ posts) (hsecond : second ∈ posts)
    (hne : first ≠ second) {uuid : Uuid} (hu : uuid ∈ first.uuids) : uuid ∉ second.uuids := by
  intro hother
  have hpair := (List.nodup_flatMap.mp h).2
  have : Std.Symm (Function.onFun List.Disjoint fun post : Post Uuid => post.uuids) :=
    ⟨fun _ _ hd _ hs hf => hd hf hs⟩
  exact hpair.forall hfirst hsecond hne hu hother

theorem Progress.settle {before state next : State Uuid} {posts : List (Post Uuid)}
    {events : List (Event Uuid)} (hnodup : (posts.flatMap (·.uuids)).Nodup)
    (hids : (posts.map (·.id)).Nodup) (h : Progress before posts events state) {id : Nat}
    {response : Option Nat} (hs : state.settle id response = some next) :
    Progress before posts (events ++ [.settle id response]) next := by
  obtain ⟨hscheduled, post, hp, rfl, hflight, hstates, hpending, _⟩ :=
    h.scheduled.settle id response hs
  have htracked := h.scheduled.tracked_inFlight post hp
  obtain ⟨hpost, hkept⟩ := h.flying post hp
  have hcurrent : ∀ uuid, next.current uuid = (state.finishPost post response).current uuid :=
    fun uuid => by unfold State.current; rw [hstates]
  have hother : ∀ other ∈ posts, other ≠ post → ∀ uuid ∈ other.uuids,
      next.current uuid = state.current uuid := by
    intro other ho hne uuid hu
    rw [hcurrent]
    exact (current_finishPost state post response htracked uuid).2
      (Or.inr (disjoint_uuids hnodup ho hpost hne hu))
  have hgrows : ∀ uuid ∈ state.pendingUpdates, uuid ∈ next.pendingUpdates := by
    intro uuid hu
    rw [hpending]
    exact ((finishPost_spec state post response htracked).2.1 uuid).mpr (Or.inr hu)
  have hinFlight : ∀ other, other ∈ next.inFlight ↔ other ≠ post ∧ other ∈ state.inFlight := by
    intro other
    rw [hflight]
    exact (h.scheduled.ids_nodup.of_map _).mem_erase_iff
  have hevent : ∀ other ∈ posts, ∀ answer,
      Event.settle other.id answer ∈ events ++ [.settle post.id response] →
      Event.settle other.id answer ∈ events ∨ (other = post ∧ answer = response) := by
    intro other ho answer hm
    rcases List.mem_append.mp hm with hm | hm
    · exact Or.inl hm
    · obtain ⟨hid, hr⟩ := Event.settle.inj (List.mem_singleton.mp hm)
      exact Or.inr ⟨List.inj_on_of_nodup_map hids ho hpost hid, hr⟩
  have houtcome : Outcome before next post response := by
    intro uuid hu
    obtain ⟨hok, hfailed⟩ := current_finishPost state post response htracked uuid
    rw [hcurrent]
    split
    · rename_i hresponse
      exact hok hresponse hu
    · rename_i hresponse
      refine ⟨(hfailed (Or.inl hresponse)).trans (hkept uuid hu), ?_⟩
      rw [hpending]
      exact ((finishPost_spec state post response htracked).2.1 uuid).mpr
        (Or.inl ⟨hresponse, hu⟩)
  refine ⟨hscheduled, (settle_reporting hs).trans h.busy, ?_, ?_, ?_, ?_⟩
  · intro other ho
    obtain ⟨hne, ho⟩ := (hinFlight other).mp ho
    obtain ⟨hmem, hsame⟩ := h.flying other ho
    exact ⟨hmem, fun uuid hu => (hother other hmem hne uuid hu).trans (hsame uuid hu)⟩
  · intro other ho hnot
    by_cases he : other = post
    · exact ⟨response, List.mem_append_right _ (by rw [he]; exact List.mem_singleton_self _)⟩
    · obtain ⟨answer, ha⟩ := h.answered other ho fun hm => hnot ((hinFlight other).mpr ⟨he, hm⟩)
      exact ⟨answer, List.mem_append_left _ ha⟩
  · intro other ho answer hm
    rcases hevent other ho answer hm with hold | ⟨rfl, rfl⟩
    · obtain ⟨hnot, hearlier⟩ := h.outcome other ho answer hold
      have hne : other ≠ post := fun he => hnot (he ▸ hp)
      exact ⟨fun hstill => hnot ((hinFlight other).mp hstill).2,
        hearlier.mono (hother other ho hne) hgrows⟩
    · exact ⟨fun hstill => ((hinFlight other).mp hstill).1 rfl, houtcome⟩
  · intro uuid hu
    have hnot : uuid ∉ post.uuids := fun hm => hu (List.mem_flatMap.mpr ⟨post, hpost, hm⟩)
    rw [hcurrent, (current_finishPost state post response htracked uuid).2 (Or.inr hnot)]
    exact h.untouched uuid hu

end Progress

section Theorems

theorem progress_startRound {state : State Uuid} {batchSize : Int} {serviceId : Nat}
    {posts : List (Post Uuid)} (hc : Consistent state) (hidle : state.currentlyReporting = false)
    (hs : Selected batchSize state serviceId posts) :
    Progress state posts [] (state.startRound serviceId posts) := by
  have hflight := inFlight_startRound hc hidle serviceId posts
  refine ⟨hc.startRound hidle hs, rfl, ?_, ?_, nofun, fun _ _ => rfl⟩
  · intro post hp
    rw [hflight] at hp
    exact ⟨hp, fun _ _ => rfl⟩
  · intro post hp hnot
    rw [hflight] at hnot
    exact absurd hp hnot

-- One round, from the call of `updateLoop` to the point where all its POSTs are settled:
-- any events but the timer of the round itself may come in between.
theorem round_exact {batchSize : Int} (hsize : 0 < batchSize) (serviceId : Nat)
    {state : State Uuid} (hidle : state.currentlyReporting = false) (hrounds : state.rounds = [])
    (hpending : state.pendingUpdates.size ≠ 0)
    (ht : ∀ uuid ∈ state.pendingUpdates, Tracked state.deviceStates uuid) :
    ∃ started, state.updateLoop batchSize serviceId = some started ∧
      Sent batchSize state serviceId started.inFlight ∧
      ∀ events last, (∀ event ∈ events, ¬event.Wakes) →
        run (step batchSize) started events = some last → last.inFlight = [] →
        Settled state started.inFlight events last := by
  have hc := consistent_of_idle hidle hrounds ht
  obtain ⟨started, hstarted⟩ := updateLoop_isSome hsize serviceId state ht
  refine ⟨started, hstarted, ?_⟩
  rcases updateLoop_cases batchSize serviceId state started ht hstarted with
    ⟨_, hbusy | hnil⟩ | ⟨_, posts, hs, rfl⟩
  · rw [hidle] at hbusy
    cases hbusy
  · exact absurd (by rw [OrderedSet.size, hnil]; rfl) hpending
  · rw [inFlight_startRound hc hidle serviceId posts]
    refine ⟨hs.sent, fun events last hawake hrun hdone => ?_⟩
    have hnodup : (posts.flatMap (·.uuids)).Nodup := by
      rw [hs.uuids]
      exact selected_nodup state
    have hids : (posts.map (·.id)).Nodup := by
      rw [hs.ids]
      exact List.nodup_range'
    have hprogress : (∀ event ∈ events, ¬event.Wakes) → Progress state posts events last := by
      refine run_history (motive := fun events last =>
        (∀ event ∈ events, ¬event.Wakes) → Progress state posts events last)
        (fun _ => progress_startRound hc hidle hs) ?_ hrun
      intro earlier middle event next _ ih hstep hawake
      have hmiddle := ih fun other ho => hawake other (List.mem_append_left _ ho)
      cases event with
      | setConnected uuid serviceId workerId connected => exact hmiddle.setConnected hstep
      | settle id response => exact hmiddle.settle hnodup hids hstep
      | wake index =>
          exact absurd ⟨index, rfl⟩
            (hawake (.wake index) (List.mem_append_right _ (List.mem_singleton_self _)))
    have hfinal := hprogress hawake
    have hnone : ∀ post : Post Uuid, post ∉ last.inFlight := fun post => by simp [hdone]
    exact ⟨fun post hp => hfinal.answered post hp (hnone post),
      fun post hp response hm => (hfinal.outcome post hp response hm).2, hfinal.untouched⟩

-- Two devices that wait for a round.
def waiting : State String :=
  ((State.initial : State String).enqueue "c0ffee" 1 true).enqueue "decaf" 2 true

-- With batches of one, the first POST succeeds and the second one fails, while the target
-- of its device changes.
theorem round_exact_partial :
    ∃ started last, waiting.updateLoop 1 7 = some started ∧
      run (step 1) started [.settle 0 (some 200), .setConnected "decaf" 7 3 false,
        .settle 1 none] = some last ∧
      (last.current "c0ffee").1 = some true ∧ "decaf" ∈ last.pendingUpdates := by
  obtain ⟨started, hstarted, _, hsettled⟩ := round_exact (show (0 : Int) < 1 by decide) 7
    (show waiting.currentlyReporting = false from rfl) rfl (by decide)
    (show ∀ uuid ∈ waiting.pendingUpdates.elems, (waiting.deviceStates.get uuid).isSome by decide)
  obtain rfl := Option.some.inj (hstarted.symm.trans rfl)
  obtain ⟨_, houtcome, _⟩ := hsettled [.settle 0 (some 200), .setConnected "decaf" 7 3 false,
    .settle 1 none] _ (by simp [Event.Wakes]) rfl rfl
  refine ⟨_, _, rfl, rfl, ?_, ?_⟩
  · exact houtcome ⟨0, 7, ["c0ffee"], true⟩ (by decide) (some 200) (by decide) "c0ffee" (by decide)
  · exact (houtcome ⟨1, 7, ["decaf"], true⟩ (by decide) none (by decide) "decaf" (by decide)).2

end Theorems

end OpenBalenaVpn.Reporter
