import OpenBalenaVpn.Reporter
import Mathlib.Data.List.Basic

namespace OpenBalenaVpn.Reporter

variable {Uuid : Type}

section Chunk

variable {α : Type}

theorem chunkLoop_flatten (size fuel : Nat) (arr : List α) (hsize : 0 < size)
    (hfuel : arr.length ≤ fuel) : (chunkLoop size fuel arr).flatten = arr := by
  induction fuel generalizing arr with
  | zero =>
      obtain rfl := List.length_eq_zero_iff.mp (Nat.le_zero.mp hfuel)
      rfl
  | succ fuel ih =>
      cases arr with
      | nil => rfl
      | cons first rest =>
          have hdrop : ((first :: rest).drop size).length ≤ fuel := by
            simp only [List.length_drop, List.length_cons] at hfuel ⊢
            omega
          simp only [chunkLoop, List.flatten_cons, ih _ hdrop, List.take_append_drop]

theorem chunkLoop_slice (size fuel : Nat) (arr : List α) (hsize : 0 < size) :
    ∀ slice ∈ chunkLoop size fuel arr, slice ≠ [] ∧ slice.length ≤ size := by
  induction fuel generalizing arr with
  | zero => cases arr <;> simp [chunkLoop]
  | succ fuel ih =>
      cases arr with
      | nil => simp [chunkLoop]
      | cons first rest =>
          intro slice hs
          rcases List.mem_cons.mp hs with rfl | hs
          · refine ⟨?_, List.length_take_le size _⟩
            have hpos : 0 < ((first :: rest).take size).length := by
              simp only [List.length_take, List.length_cons]
              omega
            exact List.ne_nil_of_length_pos hpos
          · exact ih _ slice hs

theorem chunk_spec (arr : List α) (size : Int) (slices : List (List α))
    (h : chunk arr size = some slices) :
    slices.flatten = arr ∧ ∀ slice ∈ slices, slice ≠ [] ∧ (slice.length : Int) ≤ size := by
  unfold chunk at h
  split at h
  · rename_i harr
    obtain rfl : [] = slices := Option.some.inj h
    exact ⟨harr.symm, by simp⟩
  · split at h
    · cases h
    · obtain rfl := Option.some.inj h
      refine ⟨chunkLoop_flatten _ _ arr (by omega) (Nat.le_refl _), fun slice hs => ?_⟩
      have hslice := chunkLoop_slice size.toNat arr.length arr (by omega) slice hs
      exact ⟨hslice.1, by omega⟩

end Chunk

section Posts

-- The POSTs of one round of `reportUpdates`: they cut the uuids into batches, in
-- order, and are numbered as they are sent.
structure Batches (batchSize : Int) (serviceId nextPost : Nat) (uuids : List Uuid)
    (connected : Bool) (posts : List (Post Uuid)) : Prop where
  uuids : posts.flatMap (·.uuids) = uuids
  ids : posts.map (·.id) = List.range' nextPost posts.length
  post : ∀ post ∈ posts, post.connected = connected ∧ post.serviceId = serviceId ∧
    post.uuids ≠ [] ∧ (post.uuids.length : Int) ≤ batchSize

theorem reportUpdates_spec (batchSize : Int) (serviceId nextPost : Nat) (uuids : List Uuid)
    (connected : Bool) (posts : List (Post Uuid))
    (h : reportUpdates batchSize serviceId nextPost uuids connected = some posts) :
    Batches batchSize serviceId nextPost uuids connected posts := by
  unfold reportUpdates at h
  split at h
  · rename_i hlen
    obtain rfl := List.length_eq_zero_iff.mp hlen
    obtain rfl : [] = posts := Option.some.inj h
    exact ⟨rfl, rfl, by simp⟩
  · obtain ⟨slices, hslices, rfl⟩ := Option.map_eq_some_iff.mp h
    obtain ⟨hflat, hslice⟩ := chunk_spec uuids batchSize slices hslices
    refine ⟨?_, ?_, ?_⟩
    · have hfst : (slices.zipIdx nextPost).map Prod.fst = slices :=
        List.zipIdx_map_fst nextPost slices
      rw [List.flatMap_map, ← hflat]
      conv_rhs => rw [← hfst]
      rw [← List.flatMap_def]
    · simp only [List.map_map, Function.comp_def, List.length_map, List.length_zipIdx]
      exact List.zipIdx_map_snd nextPost slices
    · intro post hp
      obtain ⟨⟨slice, id⟩, hm, rfl⟩ := List.mem_map.mp hp
      have hs : slice ∈ slices := List.fst_mem_of_mem_zipIdx hm
      exact ⟨rfl, rfl, hslice slice hs⟩

end Posts

section Trackers

variable [DecidableEq Uuid]

def Tracked (deviceStates : OrderedMap Uuid DeviceStateTracker) (uuid : Uuid) : Prop :=
  (deviceStates.get uuid).isSome

-- The uuid has something to report, and reports it with this flag.
def reports (deviceStates : OrderedMap Uuid DeviceStateTracker) (connected : Bool)
    (uuid : Uuid) : Bool :=
  (deviceStates.get uuid).any fun tracker =>
    tracker.needsUpdate && tracker.targetConnected == connected

theorem selectUpdates_eq (deviceStates : OrderedMap Uuid DeviceStateTracker) (uuids : List Uuid)
    (ht : ∀ uuid ∈ uuids, Tracked deviceStates uuid) :
    selectUpdates deviceStates uuids =
      some (uuids.filter (reports deviceStates false),
        uuids.filter (reports deviceStates true)) := by
  induction uuids with
  | nil => rfl
  | cons uuid rest ih =>
      obtain ⟨tracker, hg⟩ := Option.isSome_iff_exists.mp (ht uuid (List.mem_cons_self))
      have hr := ih (fun other ho => ht other (List.mem_cons_of_mem _ ho))
      simp only [selectUpdates, hg, hr, Option.bind_eq_bind, Option.bind_some]
      cases hn : tracker.needsUpdate <;> cases hc : tracker.targetConnected <;>
        simp [reports, hg, hn, hc]

-- What the loop over the uuids of an acknowledged POST does to one tracker.
def DeviceStateTracker.mark (connected : Bool) (tracker : DeviceStateTracker) :
    DeviceStateTracker :=
  { tracker with
    currentConnected := some connected
    currentWorkerId := some tracker.targetWorkerId }

theorem markCurrent_spec (connected : Bool) (uuids : List Uuid)
    (deviceStates : OrderedMap Uuid DeviceStateTracker)
    (ht : ∀ uuid ∈ uuids, Tracked deviceStates uuid) :
    (markCurrent connected uuids deviceStates).2 = true ∧
    ∀ other, (markCurrent connected uuids deviceStates).1.get other =
      if other ∈ uuids then (deviceStates.get other).map (.mark connected)
      else deviceStates.get other := by
  induction uuids generalizing deviceStates with
  | nil => simp [markCurrent]
  | cons uuid rest ih =>
      obtain ⟨tracker, hg⟩ := Option.isSome_iff_exists.mp (ht uuid (List.mem_cons_self))
      have hset := OrderedMap.get_set deviceStates uuid
      have hrest : ∀ other ∈ rest,
          Tracked (deviceStates.set uuid (tracker.mark connected)) other := by
        intro other ho
        unfold Tracked
        rw [hset]
        split
        · rfl
        · exact ht other (List.mem_cons_of_mem _ ho)
      obtain ⟨hok, hget⟩ := ih _ hrest
      simp only [markCurrent, hg]
      refine ⟨hok, fun other => ?_⟩
      have hother := hget other
      simp only [DeviceStateTracker.mark] at hother
      rw [hother, hset]
      by_cases he : uuid = other
      · subst he
        by_cases hm : uuid ∈ rest <;> simp [hm, hg, DeviceStateTracker.mark]
      · simp [he, Ne.symm he]

end Trackers

section Rounds

@[simp] theorem Phase.inFlight_await (posts : List (Post Uuid)) :
    (Phase.await posts).inFlight = posts := by
  cases posts <;> rfl

theorem Phase.await_ne_nil (posts : List (Post Uuid)) : Phase.await posts ≠ .reporting [] := by
  cases posts <;> simp [Phase.await]

def State.startRound (state : State Uuid) (serviceId : Nat) (posts : List (Post Uuid)) :
    State Uuid :=
  { state with
    currentlyReporting := true
    pendingUpdates := .empty
    rounds := state.rounds ++ [⟨serviceId, Phase.await posts⟩]
    nextPost := state.nextPost + posts.length }

variable [DecidableEq Uuid]

-- The POSTs that a round sends for the pending uuids.
structure Selected (batchSize : Int) (state : State Uuid) (serviceId : Nat)
    (posts : List (Post Uuid)) : Prop where
  uuids : posts.flatMap (·.uuids) =
    state.pendingUpdates.elems.filter (reports state.deviceStates false) ++
      state.pendingUpdates.elems.filter (reports state.deviceStates true)
  ids : posts.map (·.id) = List.range' state.nextPost posts.length
  reported : ∀ post ∈ posts, ∀ uuid ∈ post.uuids,
    reports state.deviceStates post.connected uuid = true
  batch : ∀ post ∈ posts, post.serviceId = serviceId ∧ post.uuids ≠ [] ∧
    (post.uuids.length : Int) ≤ batchSize

-- Once its guard is passed, a round whose uuids are all known drains the pending
-- set into its POSTs.
theorem updateLoop_cases (batchSize : Int) (serviceId : Nat) (state next : State Uuid)
    (ht : ∀ uuid ∈ state.pendingUpdates, Tracked state.deviceStates uuid)
    (h : state.updateLoop batchSize serviceId = some next) :
    (next = state ∧ (state.currentlyReporting = true ∨ state.pendingUpdates.elems = [])) ∨
    (state.currentlyReporting = false ∧ ∃ posts, Selected batchSize state serviceId posts ∧
      next = state.startRound serviceId posts) := by
  unfold State.updateLoop at h
  split at h
  · rename_i hguard
    refine Or.inl ⟨(Option.some.inj h).symm, ?_⟩
    simpa [OrderedSet.size] using hguard
  · rename_i hguard
    rw [selectUpdates_eq _ _ ht] at h
    simp only [Option.bind_eq_bind, Option.bind_eq_some_iff] at h
    obtain ⟨disconnects, hd, connects, hc, hnext⟩ := h
    have hdisc := reportUpdates_spec _ _ _ _ _ _ hd
    have hconn := reportUpdates_spec _ _ _ _ _ _ hc
    refine Or.inr ⟨by simp at hguard; exact hguard.1, disconnects ++ connects, ?_, ?_⟩
    · refine ⟨?_, ?_, ?_, ?_⟩
      · rw [List.flatMap_append, hdisc.uuids, hconn.uuids]
      · rw [List.map_append, hdisc.ids, hconn.ids, List.length_append, List.range'_append_1]
      · intro post hp uuid hu
        rcases List.mem_append.mp hp with hp | hp
        · have hm : uuid ∈ disconnects.flatMap (·.uuids) := List.mem_flatMap.mpr ⟨post, hp, hu⟩
          rw [hdisc.uuids] at hm
          rw [(hdisc.post post hp).1]
          exact (List.mem_filter.mp hm).2
        · have hm : uuid ∈ connects.flatMap (·.uuids) := List.mem_flatMap.mpr ⟨post, hp, hu⟩
          rw [hconn.uuids] at hm
          rw [(hconn.post post hp).1]
          exact (List.mem_filter.mp hm).2
      · intro post hp
        rcases List.mem_append.mp hp with hp | hp
        · exact (hdisc.post post hp).2
        · exact (hconn.post post hp).2
    · exact (Option.some.inj hnext).symm

omit [DecidableEq Uuid] in
theorem reportUpdates_isSome {batchSize : Int} (hsize : 0 < batchSize)
    (serviceId nextPost : Nat) (uuids : List Uuid) (connected : Bool) :
    ∃ posts, reportUpdates batchSize serviceId nextPost uuids connected = some posts := by
  unfold reportUpdates chunk
  by_cases hlen : uuids.length = 0
  · exact ⟨[], by simp [hlen]⟩
  · have hne : uuids ≠ [] := fun he => hlen (he ▸ rfl)
    have hpos : ¬batchSize ≤ 0 := by omega
    simp [hne, hpos]

theorem updateLoop_isSome {batchSize : Int} (hsize : 0 < batchSize) (serviceId : Nat)
    (state : State Uuid)
    (ht : ∀ uuid ∈ state.pendingUpdates, Tracked state.deviceStates uuid) :
    ∃ next, state.updateLoop batchSize serviceId = some next := by
  unfold State.updateLoop
  split
  · exact ⟨state, rfl⟩
  · rw [selectUpdates_eq _ _ ht]
    obtain ⟨disconnects, hd⟩ := reportUpdates_isSome hsize serviceId state.nextPost
      (state.pendingUpdates.elems.filter (reports state.deviceStates false)) false
    obtain ⟨connects, hc⟩ := reportUpdates_isSome hsize serviceId
      (state.nextPost + disconnects.length)
      (state.pendingUpdates.elems.filter (reports state.deviceStates true)) true
    simp [hd, hc]

end Rounds

end OpenBalenaVpn.Reporter
