import OpenBalenaVpn.Reporter.Lemmas
import OpenBalenaVpn.Foundation.Transition
import Mathlib.Data.List.Flatten

namespace OpenBalenaVpn.Reporter

open Transition

variable {Uuid : Type} [DecidableEq Uuid]

-- The part of the invariant that also holds in the middle of a turn, before
-- `updateLoop` looks at the pending set.
structure Consistent (state : State Uuid) : Prop where
  rounds : state.rounds.length = if state.currentlyReporting then 1 else 0
  awaiting : ∀ round ∈ state.rounds, round.phase ≠ .reporting []
  uuids_nodup : (state.inFlight.flatMap (·.uuids)).Nodup
  ids_nodup : (state.inFlight.map (·.id)).Nodup
  ids_lt : ∀ post ∈ state.inFlight, post.id < state.nextPost
  tracked_pending : ∀ uuid ∈ state.pendingUpdates, Tracked state.deviceStates uuid
  tracked_inFlight : ∀ post ∈ state.inFlight, ∀ uuid ∈ post.uuids,
    Tracked state.deviceStates uuid

structure Scheduled (state : State Uuid) : Prop extends Consistent state where
  pending : state.currentlyReporting = false → state.pendingUpdates.elems = []

theorem Consistent.rounds_nil {state : State Uuid} (h : Consistent state)
    (hidle : state.currentlyReporting = false) : state.rounds = [] := by
  have hlen := h.rounds
  simp only [hidle, Bool.false_eq_true, if_false] at hlen
  exact List.length_eq_zero_iff.mp hlen

theorem Consistent.inFlight_nil {state : State Uuid} (h : Consistent state)
    (hidle : state.currentlyReporting = false) : state.inFlight = [] := by
  simp [State.inFlight, h.rounds_nil hidle]

theorem Consistent.round {state : State Uuid} (h : Consistent state)
    (hbusy : state.currentlyReporting = true) : ∃ round, state.rounds = [round] := by
  have hlen := h.rounds
  simp only [hbusy, if_true] at hlen
  exact List.length_eq_one_iff.mp hlen

theorem scheduled_initial : Scheduled (State.initial : State Uuid) where
  rounds := rfl
  awaiting := by simp [State.initial]
  uuids_nodup := by simp [State.initial, State.inFlight]
  ids_nodup := by simp [State.initial, State.inFlight]
  ids_lt := by simp [State.initial, State.inFlight]
  tracked_pending uuid hu := absurd hu (OrderedSet.notMem_empty uuid)
  tracked_inFlight := by simp [State.initial, State.inFlight]
  pending _ := rfl

section Enqueue

theorem tracked_enqueue (state : State Uuid) (uuid other : Uuid) (workerId : Nat)
    (connected : Bool) (h : other = uuid ∨ Tracked state.deviceStates other) :
    Tracked (state.enqueue uuid workerId connected).deviceStates other := by
  simp only [Tracked, State.enqueue, OrderedMap.get_set]
  split
  · rfl
  · rename_i hne
    exact h.resolve_left (Ne.symm hne)

theorem Consistent.enqueue {state : State Uuid} (h : Consistent state) (uuid : Uuid)
    (workerId : Nat) (connected : Bool) :
    Consistent (state.enqueue uuid workerId connected) where
  rounds := h.rounds
  awaiting := h.awaiting
  uuids_nodup := h.uuids_nodup
  ids_nodup := h.ids_nodup
  ids_lt := h.ids_lt
  tracked_pending other ho := by
    apply tracked_enqueue
    rcases (OrderedSet.mem_add _ _ _).mp ho with rfl | ho
    · exact Or.inl rfl
    · exact Or.inr (h.tracked_pending other ho)
  tracked_inFlight post hp other ho :=
    tracked_enqueue state uuid other workerId connected
      (Or.inr (h.tracked_inFlight post hp other ho))

end Enqueue

section UpdateLoop

theorem inFlight_startRound {state : State Uuid} (h : Consistent state)
    (hidle : state.currentlyReporting = false) (serviceId : Nat) (posts : List (Post Uuid)) :
    (state.startRound serviceId posts).inFlight = posts := by
  simp [State.startRound, State.inFlight, h.rounds_nil hidle]

theorem reports_tracked {deviceStates : OrderedMap Uuid DeviceStateTracker} {connected : Bool}
    {uuid : Uuid} (h : reports deviceStates connected uuid = true) : Tracked deviceStates uuid := by
  unfold reports at h
  unfold Tracked
  cases hg : deviceStates.get uuid with
  | none => simp [hg] at h
  | some tracker => rfl

-- A uuid is reported with one flag only, so a round does not report it twice.
theorem selected_nodup (state : State Uuid) :
    (state.pendingUpdates.elems.filter (reports state.deviceStates false) ++
      state.pendingUpdates.elems.filter (reports state.deviceStates true)).Nodup := by
  refine List.nodup_append.mpr ⟨state.pendingUpdates.nodup.filter _,
    state.pendingUpdates.nodup.filter _, ?_⟩
  rintro uuid hd _ hc rfl
  have hf := (List.mem_filter.mp hd).2
  have ht := (List.mem_filter.mp hc).2
  unfold reports at hf ht
  cases hg : state.deviceStates.get uuid with
  | none => simp [hg] at hf
  | some tracker =>
      simp only [hg, Option.any_some, Bool.and_eq_true, beq_iff_eq] at hf ht
      simp [hf.2] at ht

theorem Consistent.startRound {state : State Uuid} (h : Consistent state)
    (hidle : state.currentlyReporting = false) {batchSize : Int} {serviceId : Nat}
    {posts : List (Post Uuid)} (hs : Selected batchSize state serviceId posts) :
    Scheduled (state.startRound serviceId posts) := by
  have hin := inFlight_startRound h hidle serviceId posts
  refine ⟨⟨?_, ?_, ?_, ?_, ?_, ?_, ?_⟩, ?_⟩
  · simp [State.startRound, h.rounds_nil hidle]
  · intro round hr
    simp only [State.startRound, h.rounds_nil hidle, List.nil_append, List.mem_singleton] at hr
    subst hr
    exact Phase.await_ne_nil posts
  · rw [hin, hs.uuids]
    exact selected_nodup state
  · rw [hin, hs.ids]
    exact List.nodup_range'
  · intro post hp
    rw [hin] at hp
    have hm : post.id ∈ posts.map (·.id) := List.mem_map_of_mem hp
    rw [hs.ids, List.mem_range'_1] at hm
    exact hm.2
  · intro uuid hu
    exact absurd hu (OrderedSet.notMem_empty uuid)
  · intro post hp uuid hu
    rw [hin] at hp
    exact reports_tracked (hs.reported post hp uuid hu)
  · intro hf
    cases hf

theorem Consistent.updateLoop {state next : State Uuid} (h : Consistent state) (batchSize : Int)
    (serviceId : Nat) (hu : state.updateLoop batchSize serviceId = some next) : Scheduled next := by
  rcases updateLoop_cases batchSize serviceId state next h.tracked_pending hu with
    ⟨rfl, hguard⟩ | ⟨hidle, posts, hs, rfl⟩
  · refine ⟨h, fun hidle => ?_⟩
    rcases hguard with hbusy | hnil
    · rw [hbusy] at hidle
      cases hidle
    · exact hnil
  · exact h.startRound hidle hs

end UpdateLoop

section Settle

omit [DecidableEq Uuid] in
theorem find_id_mem {posts : List (Post Uuid)} {id : Nat} {post : Post Uuid}
    (hf : posts.find? (·.id = id) = some post) : post ∈ posts ∧ post.id = id :=
  ⟨List.mem_of_find?_eq_some hf, by simpa using List.find?_some hf⟩

theorem settle_cases (state next : State Uuid) (id : Nat) (response : Option Nat)
    (h : state.settle id response = some next) :
    ∃ post ∈ state.inFlight, post.id = id ∧ next =
      { state.finishPost post response with
        rounds := state.rounds.map fun round =>
          { round with phase := round.phase.finish post } } := by
  unfold State.settle at h
  split at h
  · cases h
  · rename_i post hf
    obtain ⟨hm, hid⟩ := find_id_mem hf
    exact ⟨post, hm, hid, (Option.some.inj h).symm⟩

theorem finishPost_frame (state : State Uuid) (post : Post Uuid) (response : Option Nat) :
    (state.finishPost post response).currentlyReporting = state.currentlyReporting ∧
    (state.finishPost post response).nextPost = state.nextPost := by
  unfold State.finishPost
  split <;> exact ⟨rfl, rfl⟩

theorem settle_reporting {state next : State Uuid} {id : Nat} {response : Option Nat}
    (h : state.settle id response = some next) :
    next.currentlyReporting = state.currentlyReporting := by
  obtain ⟨post, _, _, rfl⟩ := settle_cases state next id response h
  exact (finishPost_frame state post response).1

-- What one settled POST does to the trackers and to the pending set, when its
-- uuids are all known.
theorem finishPost_spec (state : State Uuid) (post : Post Uuid) (response : Option Nat)
    (ht : ∀ uuid ∈ post.uuids, Tracked state.deviceStates uuid) :
    (∀ uuid, (state.finishPost post response).deviceStates.get uuid =
      if response = some 200 ∧ uuid ∈ post.uuids then
        (state.deviceStates.get uuid).map (.mark post.connected)
      else state.deviceStates.get uuid) ∧
    (∀ uuid, uuid ∈ (state.finishPost post response).pendingUpdates ↔
      (response ≠ some 200 ∧ uuid ∈ post.uuids) ∨ uuid ∈ state.pendingUpdates) ∧
    (state.finishPost post response).acknowledged =
      if response = some 200 then post :: state.acknowledged else state.acknowledged := by
  obtain ⟨hok, hget⟩ := markCurrent_spec post.connected post.uuids state.deviceStates ht
  unfold State.finishPost
  by_cases hr : response = some 200
  · simp [hr, hok, hget]
  · simp [hr]

theorem tracked_finishPost (state : State Uuid) (post : Post Uuid) (response : Option Nat)
    (ht : ∀ uuid ∈ post.uuids, Tracked state.deviceStates uuid) (uuid : Uuid)
    (hu : Tracked state.deviceStates uuid) :
    Tracked (state.finishPost post response).deviceStates uuid := by
  unfold Tracked at hu ⊢
  rw [(finishPost_spec state post response ht).1]
  split
  · simpa using hu
  · exact hu

-- The one round that is active loses the settled POST.
theorem Consistent.settle_rounds {state : State Uuid} (h : Consistent state)
    {post : Post Uuid} (hp : post ∈ state.inFlight) :
    ∃ serviceId, state.rounds = [⟨serviceId, .reporting state.inFlight⟩] ∧
      (state.rounds.map fun round => { round with phase := round.phase.finish post }) =
        [⟨serviceId, Phase.await (state.inFlight.erase post)⟩] := by
  have hbusy : state.currentlyReporting = true := by
    by_contra hf
    rw [h.inFlight_nil (Bool.eq_false_iff.mpr hf)] at hp
    cases hp
  obtain ⟨⟨serviceId, phase⟩, hr⟩ := h.round hbusy
  cases phase with
  | sleeping => simp [State.inFlight, hr, Phase.inFlight] at hp
  | reporting inFlight =>
      have hin : state.inFlight = inFlight := by simp [State.inFlight, hr, Phase.inFlight]
      rw [hin]
      exact ⟨serviceId, hr, by simp [hr, Phase.finish]⟩

theorem Scheduled.settle {state next : State Uuid} (h : Scheduled state) (id : Nat)
    (response : Option Nat) (hs : state.settle id response = some next) :
    Scheduled next ∧ ∃ post ∈ state.inFlight, post.id = id ∧
      next.inFlight = state.inFlight.erase post ∧
      next.deviceStates = (state.finishPost post response).deviceStates ∧
      next.pendingUpdates = (state.finishPost post response).pendingUpdates ∧
      next.acknowledged = (state.finishPost post response).acknowledged := by
  obtain ⟨post, hp, hid, rfl⟩ := settle_cases state next id response hs
  obtain ⟨serviceId, hrounds, hmap⟩ := h.settle_rounds hp
  obtain ⟨hflag, hnext⟩ := finishPost_frame state post response
  obtain ⟨hget, hpend, hack⟩ := finishPost_spec state post response (h.tracked_inFlight post hp)
  have hbusy : state.currentlyReporting = true := by
    have hlen := h.rounds
    rw [hrounds] at hlen
    by_contra hf
    simp [hf] at hlen
  rw [hmap]
  have hin : State.inFlight { state.finishPost post response with
      rounds := [⟨serviceId, Phase.await (state.inFlight.erase post)⟩] } =
      state.inFlight.erase post := by
    simp [State.inFlight]
  have hsub : (state.inFlight.erase post).Sublist state.inFlight := List.erase_sublist
  refine ⟨⟨⟨?_, ?_, ?_, ?_, ?_, ?_, ?_⟩, ?_⟩, post, hp, hid, hin, rfl, rfl, rfl⟩
  · simp [hflag, hbusy]
  · intro round hr
    obtain rfl := List.mem_singleton.mp hr
    exact Phase.await_ne_nil _
  · rw [hin]
    exact h.uuids_nodup.sublist (hsub.flatMap _)
  · rw [hin]
    exact h.ids_nodup.sublist (hsub.map _)
  · intro other ho
    rw [hin] at ho
    dsimp only
    rw [hnext]
    exact h.ids_lt other (hsub.subset ho)
  · intro uuid hu
    apply tracked_finishPost state post response (h.tracked_inFlight post hp)
    rcases (hpend uuid).mp hu with ⟨_, hu⟩ | hu
    · exact h.tracked_inFlight post hp uuid hu
    · exact h.tracked_pending uuid hu
  · intro other ho uuid hu
    rw [hin] at ho
    exact tracked_finishPost state post response (h.tracked_inFlight post hp) uuid
      (h.tracked_inFlight other (hsub.subset ho) uuid hu)
  · intro hidle
    dsimp only at hidle
    rw [hflag, hbusy] at hidle
    cases hidle

end Settle

section Wake

def State.rest (state : State Uuid) : State Uuid :=
  { state with currentlyReporting := false, rounds := [] }

theorem Scheduled.rest {state : State Uuid} (h : Scheduled state) : Consistent state.rest where
  rounds := rfl
  awaiting := by simp [State.rest]
  uuids_nodup := by simp [State.rest, State.inFlight]
  ids_nodup := by simp [State.rest, State.inFlight]
  ids_lt := by simp [State.rest, State.inFlight]
  tracked_pending := h.tracked_pending
  tracked_inFlight := by simp [State.rest, State.inFlight]

theorem Scheduled.wake_cases {state next : State Uuid} (h : Scheduled state) (batchSize : Int)
    (index : Nat) (hw : state.wake batchSize index = some next) :
    state.inFlight = [] ∧ ∃ serviceId, state.rest.updateLoop batchSize serviceId = some next := by
  unfold State.wake at hw
  split at hw
  · cases hw
  · rename_i round hround
    split at hw
    · rename_i hsleep
      have hbusy : state.currentlyReporting = true := by
        by_contra hf
        rw [h.rounds_nil (Bool.eq_false_iff.mpr hf)] at hround
        cases hround
      obtain ⟨only, honly⟩ := h.round hbusy
      rw [honly] at hround
      have hidx : index = 0 := by
        by_contra hne
        rw [List.getElem?_eq_none (by simp; omega)] at hround
        cases hround
      subst hidx
      obtain rfl : only = round := by simpa using hround
      refine ⟨by simp [State.inFlight, honly, hsleep, Phase.inFlight], only.serviceId, ?_⟩
      simpa [State.rest, honly] using hw
    · cases hw

end Wake

theorem scheduled_step (batchSize : Int) (state : State Uuid) (event : Event Uuid)
    (next : State Uuid) (h : Scheduled state) (hs : step batchSize state event = some next) :
    Scheduled next := by
  cases event with
  | setConnected uuid serviceId workerId connected =>
      exact (h.toConsistent.enqueue uuid workerId connected).updateLoop batchSize serviceId hs
  | settle id response => exact (h.settle id response hs).1
  | wake index =>
      obtain ⟨_, serviceId, hu⟩ := h.wake_cases batchSize index hs
      exact h.rest.updateLoop batchSize serviceId hu

section Tracked

theorem tracked_updateLoop (batchSize : Int) (serviceId : Nat) (state next : State Uuid)
    (h : Consistent state) (hu : state.updateLoop batchSize serviceId = some next) :
    next.deviceStates = state.deviceStates := by
  rcases updateLoop_cases batchSize serviceId state next h.tracked_pending hu with
    ⟨rfl, _⟩ | ⟨_, posts, _, rfl⟩ <;> rfl

-- Entries of `deviceStates` are never removed.
theorem tracked_step (batchSize : Int) (state : State Uuid) (event : Event Uuid)
    (next : State Uuid) (h : Scheduled state) (hs : step batchSize state event = some next)
    (uuid : Uuid) (hu : Tracked state.deviceStates uuid) : Tracked next.deviceStates uuid := by
  cases event with
  | setConnected other serviceId workerId connected =>
      rw [tracked_updateLoop batchSize serviceId _ _
        (h.toConsistent.enqueue other workerId connected) hs]
      exact tracked_enqueue state other uuid workerId connected (Or.inr hu)
  | settle id response =>
      obtain ⟨_, post, hp, _, _, hds, _⟩ := h.settle id response hs
      rw [hds]
      exact tracked_finishPost state post response (h.tracked_inFlight post hp) uuid hu
  | wake index =>
      obtain ⟨_, serviceId, hl⟩ := h.wake_cases batchSize index hs
      rw [tracked_updateLoop batchSize serviceId _ _ h.rest hl]
      exact hu

theorem tracked_run (batchSize : Int) {state last : State Uuid} {events : List (Event Uuid)}
    (h : Scheduled state) (hrun : run (step batchSize) state events = some last) (uuid : Uuid)
    (hu : Tracked state.deviceStates uuid) : Tracked last.deviceStates uuid := by
  have hstep : ∀ state event next, Scheduled state ∧ Tracked state.deviceStates uuid →
      step batchSize state event = some next →
      Scheduled next ∧ Tracked next.deviceStates uuid :=
    fun state event next hi hs => ⟨scheduled_step batchSize state event next hi.1 hs,
      tracked_step batchSize state event next hi.1 hs uuid hi.2⟩
  exact (run_invariant hstep ⟨h, hu⟩ hrun).2

-- The uuid waits in the pending set or travels in a POST.
def Queued (state : State Uuid) (uuid : Uuid) : Prop :=
  uuid ∈ state.pendingUpdates ∨ ∃ post ∈ state.inFlight, uuid ∈ post.uuids

instance (state : State Uuid) (uuid : Uuid) : Decidable (Queued state uuid) :=
  inferInstanceAs (Decidable (_ ∨ _))

theorem Consistent.tracked_of_queued {state : State Uuid} (h : Consistent state) (uuid : Uuid)
    (hq : Queued state uuid) : Tracked state.deviceStates uuid := by
  rcases hq with hp | ⟨post, hp, hu⟩
  · exact h.tracked_pending uuid hp
  · exact h.tracked_inFlight post hp uuid hu

end Tracked

theorem scheduled_run (batchSize : Int) {events : List (Event Uuid)} {state : State Uuid}
    (hrun : run (step batchSize) State.initial events = some state) : Scheduled state :=
  run_invariant (scheduled_step batchSize) scheduled_initial hrun

theorem Consistent.inFlight_count_le {state : State Uuid} (h : Consistent state) (uuid : Uuid) :
    state.inFlight.countP (fun post => uuid ∈ post.uuids) ≤ 1 := by
  have hn := List.nodup_iff_count_le_one.mp h.uuids_nodup uuid
  rw [List.count_flatMap] at hn
  refine Nat.le_trans ?_ hn
  generalize state.inFlight = posts
  induction posts with
  | nil => simp
  | cons post posts ih =>
      simp only [List.countP_cons, List.map_cons, List.sum_cons, Function.comp_apply]
      by_cases hu : uuid ∈ post.uuids
      · have hpos : 0 < post.uuids.count uuid := List.count_pos_iff.mpr hu
        simp only [hu, decide_true, if_true]
        omega
      · simp only [hu, decide_false, Bool.false_eq_true, if_false]
        omega

-- In every state between two turns of the event loop: a pending uuid has a round
-- that will look at it again, no second round runs beside it, no uuid is in two
-- POSTs at once, and every uuid that was ever queued has a tracker.
theorem reporter_scheduling (batchSize : Int) (events : List (Event Uuid)) (state : State Uuid)
    (hrun : run (step batchSize) State.initial events = some state) :
    (state.pendingUpdates.size ≠ 0 →
      state.currentlyReporting = true ∧ ∃ round, state.rounds = [round]) ∧
    state.rounds.length ≤ 1 ∧
    (∀ uuid, state.inFlight.countP (fun post => uuid ∈ post.uuids) ≤ 1) ∧
    (∀ earlier later middle uuid, events = earlier ++ later →
      run (step batchSize) State.initial earlier = some middle → Queued middle uuid →
      Tracked state.deviceStates uuid) ∧
    ∀ uuid serviceId workerId connected,
      .setConnected uuid serviceId workerId connected ∈ events →
      Tracked state.deviceStates uuid := by
  have h := scheduled_run batchSize hrun
  refine ⟨?_, ?_, h.inFlight_count_le, ?_, ?_⟩
  · intro hpending
    have hbusy : state.currentlyReporting = true := by
      by_contra hf
      have hnil := h.pending (Bool.eq_false_iff.mpr hf)
      exact hpending (by simp [OrderedSet.size, hnil])
    exact ⟨hbusy, h.round hbusy⟩
  · rw [h.rounds]
    split <;> omega
  · intro earlier later middle uuid he hm hq
    rw [he] at hrun
    obtain ⟨reached, hr, hrest⟩ := (run_append_eq_some _ _ _ _ _).mp hrun
    obtain rfl : middle = reached := Option.some.inj (hm.symm.trans hr)
    have hmiddle := scheduled_run batchSize hm
    exact tracked_run batchSize hmiddle hrest uuid (hmiddle.tracked_of_queued uuid hq)
  · intro uuid serviceId workerId connected hmem
    obtain ⟨earlier, later, he⟩ := List.append_of_mem hmem
    rw [he] at hrun
    obtain ⟨before, hb, hrest⟩ := (run_append_eq_some _ _ _ _ _).mp hrun
    obtain ⟨after, hs, hrest⟩ := (run_cons_eq_some _ _ _ _ _).mp hrest
    have hbefore := scheduled_run batchSize hb
    refine tracked_run batchSize (scheduled_step batchSize _ _ _ hbefore hs) hrest uuid ?_
    rw [tracked_updateLoop batchSize serviceId _ _
      (hbefore.toConsistent.enqueue uuid workerId connected) hs]
    exact tracked_enqueue before uuid uuid workerId connected (Or.inl rfl)

-- A POST fails while another device waits.
theorem reporter_scheduling_retry :
    let state := (run (step 2) (State.initial : State String)
      [.setConnected "c0ffee" 1 1 true, .setConnected "decaf" 1 2 true, .settle 0 none]).get
        (by decide)
    state.currentlyReporting = true ∧ state.rounds.length ≤ 1 ∧
      Tracked state.deviceStates "c0ffee" := by
  have h := reporter_scheduling 2 [.setConnected "c0ffee" 1 1 true,
    .setConnected "decaf" 1 2 true, .settle 0 none] _ (Option.some_get (by decide)).symm
  exact ⟨(h.1 (by decide)).1, h.2.1, h.2.2.2.2 "c0ffee" 1 1 true (by decide)⟩

end OpenBalenaVpn.Reporter
