import OpenBalenaVpn.Service
import OpenBalenaVpn.RefCount.Theorems
import OpenBalenaVpn.Reporter.Agreement

namespace OpenBalenaVpn.Service

open Transition RefCount Reporter

variable {Uuid : Type} [DecidableEq Uuid]

-- The reporter's targets are the flags of the last calls.
structure Consistent (service : Service Uuid) (notifications : List (Notification Uuid)) :
    Prop where
  counted : Counted service.history notifications
  agreed : Agreed service.reporter
  target : ∀ uuid, (service.reporter.device uuid).target =
    (service.history.lastCall uuid).map (·.connected)

theorem consistent_initial : Consistent (initial : Service Uuid) [] where
  counted := counted_initial
  agreed := agreed_initial
  target _ := rfl

theorem receive_lastCall (serviceId : Nat) (history : History Uuid)
    (notification : Notification Uuid) (uuid : Uuid) :
    (history.receive serviceId notification).lastCall uuid =
      match (handle serviceId history.api notification).call with
      | none => history.lastCall uuid
      | some call => if call.uuid = uuid then some call else history.lastCall uuid := by
  have hcall := handle_call serviceId history.api notification
  simp only [History.lastCall, receive_callsFor]
  cases hc : (handle serviceId history.api notification).call with
  | none => simp
  | some call =>
      simp only [hc] at hcall
      by_cases he : notification.uuid = uuid <;> simp [hcall.1, he]

theorem consistent_notify (batchSize : Int) (serviceId : Nat) (service next : Service Uuid)
    (notifications : List (Notification Uuid)) (notification : Notification Uuid)
    (h : Consistent service notifications)
    (hs : service.notify batchSize serviceId notification = some next) :
    Consistent next (notifications ++ [notification]) := by
  have hcounted := counted_receive serviceId service.history notifications notification h.counted
  have hlast := receive_lastCall serviceId service.history notification
  unfold notify at hs
  cases hc : (handle serviceId service.history.api notification).call with
  | none =>
      simp only [hc] at hs hlast
      obtain rfl := Option.some.inj hs
      exact ⟨hcounted, h.agreed, fun uuid => by rw [hlast]; exact h.target uuid⟩
  | some call =>
      simp only [hc] at hs hlast
      obtain ⟨reporter, hr, rfl⟩ := Option.map_eq_some_iff.mp hs
      have hstep : Reporter.step batchSize service.reporter
          (.setConnected call.uuid call.serviceId call.workerId call.connected) =
            some reporter := hr
      refine ⟨hcounted, agreed_step batchSize _ _ _ h.agreed hstep, fun uuid => ?_⟩
      rw [hlast, target_step batchSize _ _ _ h.agreed.scheduled hstep uuid, h.target uuid]
      by_cases he : call.uuid = uuid <;> simp [Reporter.Event.retarget, he]

theorem consistent_reporter (batchSize : Int) (service : Service Uuid)
    (notifications : List (Notification Uuid)) (event : Reporter.Event Uuid)
    (reporter : Reporter.State Uuid) (h : Consistent service notifications)
    (hs : Reporter.step batchSize service.reporter event = some reporter)
    (htarget : ∀ uuid target, event.retarget uuid target = target) :
    Consistent { service with reporter } notifications := by
  refine ⟨h.counted, agreed_step batchSize _ _ _ h.agreed hs, fun uuid => ?_⟩
  rw [target_step batchSize _ _ _ h.agreed.scheduled hs uuid, htarget]
  exact h.target uuid

omit [DecidableEq Uuid] in
theorem notifications_concat (events : List (Event Uuid)) (event : Event Uuid) :
    notifications (events ++ [event]) = notifications events ++ notifications [event] :=
  List.filterMap_append

theorem consistent_step (batchSize : Int) (serviceId : Nat) (events : List (Event Uuid))
    (service : Service Uuid) (event : Event Uuid) (next : Service Uuid)
    (h : Consistent service (notifications events))
    (hs : step batchSize serviceId service event = some next) :
    Consistent next (notifications (events ++ [event])) := by
  rw [notifications_concat]
  cases event with
  | notify notification =>
      exact consistent_notify batchSize serviceId service next _ notification h hs
  | settle id response =>
      obtain ⟨reporter, hr, rfl⟩ := Option.map_eq_some_iff.mp hs
      have hc := consistent_reporter batchSize service _ (.settle id response) reporter h hr
        (fun _ _ => rfl)
      simpa [notifications] using hc
  | wake index =>
      obtain ⟨reporter, hr, rfl⟩ := Option.map_eq_some_iff.mp hs
      have hc := consistent_reporter batchSize service _ (.wake index) reporter h hr
        (fun _ _ => rfl)
      simpa [notifications] using hc

theorem consistent_run (batchSize : Int) (serviceId : Nat) {events : List (Event Uuid)}
    {service : Service Uuid} (hrun : run (step batchSize serviceId) initial events = some service) :
    Consistent service (notifications events) :=
  run_history (motive := fun events service => Consistent service (notifications events))
    consistent_initial
    (fun events service event next _ h hs =>
      consistent_step batchSize serviceId events service event next h hs) hrun

-- Whatever the order of the notifications and the fate of the POSTs: once a
-- device is settled, the last POST about it that was acknowledged says whether
-- it has more connects than disconnects.
theorem device_state_agreement (batchSize : Int) (serviceId : Nat) (events : List (Event Uuid))
    (service : Service Uuid)
    (hrun : run (step batchSize serviceId) initial events = some service) (uuid : Uuid)
    (hsettled : ¬Queued service.reporter uuid) :
    match service.reporter.acknowledged.find? (uuid ∈ ·.uuids) with
    | some post => post.eventType = .connect ↔
        0 < (connects uuid (notifications events) : Int) - disconnects uuid (notifications events)
    | none =>
        (connects uuid (notifications events) : Int) -
          disconnects uuid (notifications events) ≤ 0 := by
  have h := consistent_run batchSize serviceId hrun
  have hset := (h.agreed.agrees uuid).settled ((device_settled_iff _ uuid).mpr hsettled)
  have htarget := h.counted.target uuid
  rw [h.counted.refCount uuid] at htarget
  rw [h.target uuid] at hset
  have hack : (service.reporter.device uuid).acknowledged =
      (service.reporter.acknowledged.find? (uuid ∈ ·.uuids)).map Post.report := rfl
  rw [hack] at hset
  change match service.reporter.acknowledged.find? (uuid ∈ ·.uuids) with
    | some post => post.eventType = .connect ↔ 0 < balance uuid (notifications events)
    | none => balance uuid (notifications events) ≤ 0
  cases hf : service.reporter.acknowledged.find? (uuid ∈ ·.uuids) with
  | none =>
      rw [hf] at hset
      have hl := Option.map_eq_none_iff.mp hset
      simpa [History.target, hl] using htarget
  | some post =>
      rw [hf] at hset
      obtain ⟨call, hl, hc⟩ := Option.map_eq_some_iff.mp hset
      simp only [History.target, hl, Option.any_some, hc, Post.report] at htarget
      simp [Post.eventType, htarget]

-- The disconnect comes while the connect is still on the wire.
theorem device_state_agreement_flip :
    let service := (run (step 8000 1) (initial : Service String)
      [.notify (.connect "c0ffee" 1), .notify (.disconnect "c0ffee" 1 none), .settle 0 (some 200),
        .wake 0, .settle 1 (some 200)]).get (by decide)
    match service.reporter.acknowledged.find? ("c0ffee" ∈ ·.uuids) with
    | some post => post.eventType = .connect ↔ (0 : Int) < 1 - 1
    | none => (1 : Int) - 1 ≤ 0 :=
  device_state_agreement 8000 1 [.notify (.connect "c0ffee" 1),
    .notify (.disconnect "c0ffee" 1 none), .settle 0 (some 200), .wake 0, .settle 1 (some 200)]
    _ (Option.some_get (by decide)).symm "c0ffee" (by decide)

end OpenBalenaVpn.Service
