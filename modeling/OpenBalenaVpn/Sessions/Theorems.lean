import OpenBalenaVpn.Sessions
import OpenBalenaVpn.RefCount.Theorems
import OpenBalenaVpn.Foundation.Transition

namespace OpenBalenaVpn.Sessions

open Transition RefCount

variable {Uuid : Type} [DecidableEq Uuid]

theorem count_concat (uuid : Uuid) (sessions : List (Session Uuid)) (session : Session Uuid) :
    count uuid (sessions ++ [session]) =
      count uuid sessions + if session.uuid = uuid then 1 else 0 := by
  by_cases he : session.uuid = uuid <;> simp [count, he]

theorem count_erase {sessions : List (Session Uuid)} {session : Session Uuid}
    (hm : session ∈ sessions) (uuid : Uuid) :
    count uuid sessions =
      count uuid (sessions.erase session) + if session.uuid = uuid then 1 else 0 := by
  have hp : sessions.Perm (session :: sessions.erase session) := List.perm_cons_erase hm
  rw [count, hp.countP_eq, List.countP_cons]
  simp [count]

theorem count_split (uuid : Uuid) (sessions : List (Session Uuid)) (workerId : Nat) :
    count uuid sessions =
      count uuid (sessions.filter fun session => session.workerId = workerId) +
      count uuid (sessions.filter fun session => !decide (session.workerId = workerId)) :=
  List.countP_eq_countP_filter_add sessions _ _

theorem count_append (uuid : Uuid) (sessions others : List (Session Uuid)) :
    count uuid (sessions ++ others) = count uuid sessions + count uuid others :=
  List.countP_append

theorem balance_erase {notifications : List (Notification Uuid)}
    {notification : Notification Uuid} (hm : notification ∈ notifications) (uuid : Uuid) :
    balance uuid notifications = balance uuid (notifications.erase notification) +
      if notification.uuid = uuid then notification.change else 0 := by
  have hp : notifications.Perm (notifications.erase notification ++ [notification]) :=
    (List.perm_cons_erase hm).trans (List.perm_append_singleton _ _).symm
  rw [balance_perm uuid hp, balance_concat]

-- The notifications delivered and those on their way count the live sessions
-- together with the lost ones, which no disconnect will take off.
structure Balanced (state : State Uuid) : Prop where
  delivered : ∃ delivered, Counted state.history delivered ∧ ∀ uuid,
    balance uuid delivered + balance uuid state.inFlight =
      count uuid state.live + count uuid state.lost

theorem balanced_initial (config : Cluster.Config) :
    Balanced (State.initial config : State Uuid) :=
  ⟨[], counted_initial, fun _ => rfl⟩

theorem balanced_step (config : Cluster.Config) (serviceId : Nat) (state : State Uuid)
    (event : Event Uuid) (next : State Uuid) (h : Balanced state)
    (hs : step config serviceId state event = some next) : Balanced next := by
  obtain ⟨delivered, hcounted, hbalance⟩ := h.delivered
  cases event with
  | start session =>
      simp only [step] at hs
      split at hs
      · obtain rfl := Option.some.inj hs
        refine ⟨delivered, hcounted, fun uuid => ?_⟩
        have hu := hbalance uuid
        simp only [balance_concat, count_concat, Notification.uuid, Notification.change]
        by_cases he : session.uuid = uuid <;> simp only [he, if_true, if_false] <;>
          push_cast <;> omega
      · cases hs
  | stop session time_duration =>
      simp only [step] at hs
      split at hs
      · rename_i hlive
        obtain rfl := Option.some.inj hs
        refine ⟨delivered, hcounted, fun uuid => ?_⟩
        have hu := hbalance uuid
        rw [count_erase hlive uuid] at hu
        simp only [balance_concat, Notification.uuid, Notification.change]
        by_cases he : session.uuid = uuid <;> simp only [he, if_true, if_false] at hu ⊢ <;>
          push_cast at hu <;> omega
      · cases hs
  | crash workerId =>
      obtain ⟨cluster, _, rfl⟩ := Option.map_eq_some_iff.mp hs
      refine ⟨delivered, hcounted, fun uuid => ?_⟩
      have hu := hbalance uuid
      rw [count_split uuid state.live workerId] at hu
      simp only [count_append]
      push_cast at hu ⊢
      omega
  | deliver notification =>
      simp only [step] at hs
      split at hs
      · rename_i hflight
        obtain rfl := Option.some.inj hs
        refine ⟨delivered ++ [notification], counted_receive serviceId _ _ notification hcounted,
          fun uuid => ?_⟩
        have hu := hbalance uuid
        rw [balance_erase hflight uuid] at hu
        rw [balance_concat]
        simp only
        omega
      · cases hs

theorem balanced_run (config : Cluster.Config) (serviceId : Nat) {events : List (Event Uuid)}
    {state : State Uuid}
    (hrun : run (step config serviceId) (State.initial config) events = some state) :
    Balanced state :=
  run_invariant (balanced_step config serviceId) (balanced_initial config) hrun

theorem target_iff {state : State Uuid} (h : Balanced state) (hquiet : state.inFlight = [])
    (uuid : Uuid) :
    state.history.target uuid = true ↔ 0 < count uuid state.live + count uuid state.lost := by
  obtain ⟨delivered, hcounted, hbalance⟩ := h.delivered
  have hu := hbalance uuid
  rw [hquiet, balance_nil, ← hcounted.refCount uuid] at hu
  rw [hcounted.target uuid, decide_eq_true_eq]
  omega

-- Once nothing is on its way, a device is shown as it is exactly when no crash has
-- ever cost it a session, or it has a session now.
theorem recovered_iff (config : Cluster.Config) (serviceId : Nat) (events : List (Event Uuid))
    (state : State Uuid)
    (hrun : run (step config serviceId) (State.initial config) events = some state)
    (hquiet : state.inFlight = []) (uuid : Uuid) :
    Recovered state uuid ↔ state.lastEvent uuid = some .crash ∨
      count uuid state.lost = 0 ∨ 0 < count uuid state.live := by
  have htarget := target_iff (balanced_run config serviceId hrun) hquiet uuid
  unfold Recovered
  by_cases hcrash : state.lastEvent uuid = some .crash
  · simp [hcrash]
  · rw [htarget]
    simp only [hcrash, ne_eq, not_false_eq_true, true_imp_iff, false_or]
    omega

-- The device is on both workers when worker 1 crashes, and keeps its other session.
theorem recovered_other_session :
    let state := (run (step ⟨2, false, 30, 120⟩ 7)
      (State.initial ⟨2, false, 30, 120⟩ : State String)
      [.start ⟨1, "c0ffee"⟩, .start ⟨2, "c0ffee"⟩, .crash 1, .start ⟨1, "c0ffee"⟩,
        .deliver (.connect "c0ffee" 2), .deliver (.connect "c0ffee" 1),
        .deliver (.connect "c0ffee" 1)]).get (by decide)
    Recovered state "c0ffee" :=
  (recovered_iff ⟨2, false, 30, 120⟩ 7 _ _ (Option.some_get (by decide)).symm (by decide)
    "c0ffee").mpr (Or.inr (Or.inr (by decide)))

-- The device loses its session to a crash of worker 1. It connects to worker 2 and
-- ends that session, and is shown as online for good.
theorem recovered_after_crash :
    ∃ events state, run (step ⟨2, false, 30, 120⟩ 7)
      (State.initial ⟨2, false, 30, 120⟩ : State String) events = some state ∧
        state.inFlight = [] ∧ ¬Recovered state "c0ffee" := by
  refine ⟨[.start ⟨1, "c0ffee"⟩, .deliver (.connect "c0ffee" 1), .crash 1, .start ⟨2, "c0ffee"⟩,
    .deliver (.connect "c0ffee" 2), .stop ⟨2, "c0ffee"⟩ none,
    .deliver (.disconnect "c0ffee" 2 none)], _, (Option.some_get (by decide)).symm, by decide,
    fun hrecovered => ?_⟩
  have htarget := hrecovered (by decide)
  revert htarget
  decide

end OpenBalenaVpn.Sessions
