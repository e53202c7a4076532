import OpenBalenaVpn.RefCount
import Mathlib.Algebra.BigOperators.Group.List.Basic
import Mathlib.Data.Finset.Card

namespace OpenBalenaVpn.RefCount

variable {Uuid : Type}

-- What a notification adds to the count of its uuid.
def Notification.change : Notification Uuid → Int
  | .connect _ _ => 1
  | .disconnect _ _ _ => -1

variable [DecidableEq Uuid]

section Requests

-- A request that the connect handler turns away leaves the counts, the metrics
-- and the reporter alone.
theorem postClients_eq (serviceId : Nat) (api : Api Uuid) (request : ClientRequest Uuid) :
    (∃ uuid, request.common_name = some uuid ∧ postClients serviceId api request =
      handle serviceId api (.connect uuid request.worker)) ∨
    ∃ statusCode, 400 ≤ statusCode ∧
      postClients serviceId api request = ⟨api, statusCode, none⟩ := by
  unfold postClients
  split
  · exact Or.inr ⟨401, by omega, rfl⟩
  · cases hc : request.common_name with
    | none => exact Or.inr ⟨400, by omega, rfl⟩
    | some uuid => exact Or.inl ⟨uuid, rfl, rfl⟩

theorem deleteClients_eq (serviceId : Nat) (api : Api Uuid) (request : ClientRequest Uuid) :
    (∃ uuid, request.common_name = some uuid ∧ deleteClients serviceId api request =
      handle serviceId api (.disconnect uuid request.worker request.time_duration)) ∨
    ∃ statusCode, 400 ≤ statusCode ∧
      deleteClients serviceId api request = ⟨api, statusCode, none⟩ := by
  unfold deleteClients
  split
  · exact Or.inr ⟨401, by omega, rfl⟩
  · cases hc : request.common_name with
    | none => exact Or.inr ⟨400, by omega, rfl⟩
    | some uuid => exact Or.inl ⟨uuid, rfl, rfl⟩

end Requests

section Handle

theorem handle_clientRefCount (serviceId : Nat) (api : Api Uuid)
    (notification : Notification Uuid) :
    (handle serviceId api notification).api.clientRefCount =
      api.clientRefCount.set notification.uuid
        (api.refCount notification.uuid + notification.change) := by
  cases notification with
  | connect uuid workerId => rfl
  | disconnect uuid workerId time_duration =>
      simp only [handle, disconnect]
      split <;> rfl

theorem handle_refCount (serviceId : Nat) (api : Api Uuid) (notification : Notification Uuid)
    (uuid : Uuid) :
    (handle serviceId api notification).api.refCount uuid =
      api.refCount uuid + if notification.uuid = uuid then notification.change else 0 := by
  rw [Api.refCount, handle_clientRefCount, OrderedMap.get_set]
  by_cases he : notification.uuid = uuid
  · simp [he]
  · simp [he, Api.refCount]

-- The gauge moves exactly when the count of the notification's uuid crosses
-- the line between 0 and 1, whatever the other counts are.
theorem handle_onlineDevices (serviceId : Nat) (api : Api Uuid)
    (notification : Notification Uuid) :
    (handle serviceId api notification).api.onlineDevices = api.onlineDevices +
      (if 0 < api.refCount notification.uuid + notification.change then 1 else 0) -
      (if 0 < api.refCount notification.uuid then 1 else 0) := by
  cases notification with
  | connect uuid workerId =>
      simp only [handle, connect, Notification.uuid, Notification.change]
      split_ifs <;> omega
  | disconnect uuid workerId time_duration =>
      simp only [handle, disconnect, Notification.uuid, Notification.change]
      by_cases h : api.refCount uuid = 1
      · simp [h]
      · simp only [ne_eq, h, not_false_eq_true, if_true]
        split_ifs <;> omega

-- Every call of `setConnected` carries the sign of the new count, and a handler
-- that makes none leaves that sign as it was. A disconnect is only reported for
-- a uuid that was online.
theorem handle_call (serviceId : Nat) (api : Api Uuid) (notification : Notification Uuid) :
    match (handle serviceId api notification).call with
    | none => 0 < api.refCount notification.uuid + notification.change ↔
        0 < api.refCount notification.uuid
    | some call => call.uuid = notification.uuid ∧
        call.connected = decide (0 < api.refCount notification.uuid + notification.change) ∧
        (call.connected = false → 0 < api.refCount notification.uuid) := by
  cases notification with
  | connect uuid workerId =>
      simp only [handle, connect, Notification.uuid, Notification.change]
      by_cases h : 0 ≤ api.refCount uuid
      · simp only [h, if_true, true_and]
        have hpos : 0 < api.refCount uuid + 1 := by omega
        simp [hpos]
      · simp only [h, if_false]
        omega
  | disconnect uuid workerId time_duration =>
      simp only [handle, disconnect, Notification.uuid, Notification.change]
      by_cases h : api.refCount uuid = 1
      · simp [h]
      · simp only [ne_eq, h, not_false_eq_true, if_true]
        omega

end Handle

section Balance

-- The count that the notifications ask for: connects minus disconnects.
def connects (uuid : Uuid) (notifications : List (Notification Uuid)) : Nat :=
  notifications.countP fun
    | .connect other _ => other = uuid
    | .disconnect _ _ _ => false

def disconnects (uuid : Uuid) (notifications : List (Notification Uuid)) : Nat :=
  notifications.countP fun
    | .connect _ _ => false
    | .disconnect other _ _ => other = uuid

def balance (uuid : Uuid) (notifications : List (Notification Uuid)) : Int :=
  connects uuid notifications - disconnects uuid notifications

@[simp] theorem balance_nil (uuid : Uuid) : balance uuid [] = 0 := rfl

theorem balance_concat (uuid : Uuid) (notifications : List (Notification Uuid))
    (notification : Notification Uuid) :
    balance uuid (notifications ++ [notification]) = balance uuid notifications +
      if notification.uuid = uuid then notification.change else 0 := by
  cases notification with
  | connect other workerId =>
      by_cases he : other = uuid <;>
        simp [balance, connects, disconnects, List.countP_append, Notification.uuid,
          Notification.change, he]
      omega
  | disconnect other workerId time_duration =>
      by_cases he : other = uuid <;>
        simp [balance, connects, disconnects, List.countP_append, Notification.uuid,
          Notification.change, he]
      omega

theorem balance_perm (uuid : Uuid) {notifications reordered : List (Notification Uuid)}
    (hp : notifications.Perm reordered) : balance uuid notifications = balance uuid reordered := by
  simp only [balance, connects, disconnects, hp.countP_eq]

end Balance

section History

theorem receive_callsFor (serviceId : Nat) (history : History Uuid)
    (notification : Notification Uuid) (uuid : Uuid) :
    (history.receive serviceId notification).callsFor uuid = history.callsFor uuid ++
      if notification.uuid = uuid then (handle serviceId history.api notification).call.toList
      else [] := by
  have hcall := handle_call serviceId history.api notification
  simp only [History.receive, History.callsFor, List.filter_append]
  congr 1
  cases hc : (handle serviceId history.api notification).call with
  | none => simp
  | some call =>
      simp only [hc] at hcall
      by_cases he : notification.uuid = uuid <;> simp [hcall.1, he]

-- The uuids that count as online, and what the gauge and the calls say of them.
structure Counted (history : History Uuid) (notifications : List (Notification Uuid)) : Prop where
  refCount : ∀ uuid, history.api.refCount uuid = balance uuid notifications
  online : ∃ online : Finset Uuid, (∀ uuid, uuid ∈ online ↔ 0 < history.api.refCount uuid) ∧
    history.api.onlineDevices = online.card
  target : ∀ uuid, history.target uuid = decide (0 < history.api.refCount uuid)
  firstCall : ∀ uuid call, history.firstCall uuid = some call → call.connected = true

theorem counted_initial : Counted (History.initial : History Uuid) [] where
  refCount uuid := rfl
  online := ⟨∅, by simp [History.initial, Api.initial, Api.refCount], rfl⟩
  target uuid := rfl
  firstCall uuid call h := by simp [History.firstCall, History.callsFor, History.initial] at h

theorem receive_online (serviceId : Nat) (history : History Uuid)
    (notification : Notification Uuid) (online : Finset Uuid)
    (hmem : ∀ uuid, uuid ∈ online ↔ 0 < history.api.refCount uuid)
    (hcard : history.api.onlineDevices = online.card) :
    ∃ online' : Finset Uuid,
      (∀ uuid, uuid ∈ online' ↔ 0 < (history.receive serviceId notification).api.refCount uuid) ∧
      (history.receive serviceId notification).api.onlineDevices = online'.card := by
  have hcount := handle_refCount serviceId history.api notification
  have hgauge := handle_onlineDevices serviceId history.api notification
  have hself := hmem notification.uuid
  simp only [History.receive]
  by_cases hnew : 0 < history.api.refCount notification.uuid + notification.change
  · refine ⟨insert notification.uuid online, ?_, ?_⟩
    · intro uuid
      rw [hcount, Finset.mem_insert, hmem]
      by_cases he : notification.uuid = uuid
      · subst he
        simpa using hnew
      · simp [he, Ne.symm he]
    · rw [hgauge, hcard]
      by_cases hold : 0 < history.api.refCount notification.uuid
      · simp [hnew, hold, Finset.insert_eq_of_mem (hself.mpr hold)]
      · simp [hnew, hold, Finset.card_insert_of_notMem (fun hm => hold (hself.mp hm))]
  · refine ⟨online.erase notification.uuid, ?_, ?_⟩
    · intro uuid
      rw [hcount, Finset.mem_erase, hmem]
      by_cases he : notification.uuid = uuid
      · subst he
        simpa using hnew
      · simp [he, Ne.symm he]
    · rw [hgauge, hcard]
      by_cases hold : 0 < history.api.refCount notification.uuid
      · have hm := hself.mpr hold
        have hpos := Finset.card_pos.mpr ⟨_, hm⟩
        simp only [hnew, hold, if_true, if_false, Finset.card_erase_of_mem hm]
        omega
      · simp [hnew, hold, Finset.erase_eq_of_notMem (fun hm => hold (hself.mp hm))]

theorem receive_target (serviceId : Nat) (history : History Uuid)
    (notification : Notification Uuid)
    (htarget : ∀ uuid, history.target uuid = decide (0 < history.api.refCount uuid))
    (uuid : Uuid) :
    (history.receive serviceId notification).target uuid =
      decide (0 < (history.receive serviceId notification).api.refCount uuid) := by
  have hcall := handle_call serviceId history.api notification
  have hcount := handle_refCount serviceId history.api notification uuid
  have hold := htarget uuid
  have hcalls := receive_callsFor serviceId history notification uuid
  simp only [History.target, History.lastCall] at hold ⊢
  change _ = decide (0 < (handle serviceId history.api notification).api.refCount uuid)
  rw [hcalls, hcount]
  by_cases he : notification.uuid = uuid
  · subst he
    cases hc : (handle serviceId history.api notification).call with
    | none =>
        simp only [hc] at hcall
        simp [hold, hcall]
    | some call =>
        simp only [hc] at hcall
        simp [hcall.2.1]
  · simp [he, hold]

theorem receive_firstCall (serviceId : Nat) (history : History Uuid)
    (notification : Notification Uuid)
    (htarget : ∀ uuid, history.target uuid = decide (0 < history.api.refCount uuid))
    (hfirst : ∀ uuid call, history.firstCall uuid = some call → call.connected = true)
    (uuid : Uuid) (call : SetConnectedCall Uuid)
    (hc : (history.receive serviceId notification).firstCall uuid = some call) :
    call.connected = true := by
  have hcall := handle_call serviceId history.api notification
  rw [History.firstCall, receive_callsFor, List.head?_append] at hc
  cases hh : (history.callsFor uuid).head? with
  | some first =>
      rw [hh, Option.some_or] at hc
      exact hfirst uuid call (hh.trans hc)
  | none =>
      -- no call so far: the uuid was never online, so this cannot be a disconnect
      have hnil := List.head?_eq_none_iff.mp hh
      have hoff : ¬0 < history.api.refCount uuid := by
        have := htarget uuid
        simpa [History.target, History.lastCall, hnil] using this
      by_cases he : notification.uuid = uuid
      · subst he
        rw [hh] at hc
        cases hn : (handle serviceId history.api notification).call with
        | none => simp [hn] at hc
        | some made =>
            obtain rfl : made = call := by simpa [hn] using hc
            simp only [hn] at hcall
            by_contra hf
            exact hoff (hcall.2.2 (Bool.eq_false_iff.mpr hf))
      · simp [hh, he] at hc

theorem counted_receive (serviceId : Nat) (history : History Uuid)
    (notifications : List (Notification Uuid)) (notification : Notification Uuid)
    (h : Counted history notifications) :
    Counted (history.receive serviceId notification) (notifications ++ [notification]) where
  refCount uuid := by
    rw [balance_concat, ← h.refCount uuid]
    exact handle_refCount serviceId history.api notification uuid
  online := by
    obtain ⟨online, hmem, hcard⟩ := h.online
    exact receive_online serviceId history notification online hmem hcard
  target := receive_target serviceId history notification h.target
  firstCall := receive_firstCall serviceId history notification h.target h.firstCall

theorem counted_receiveAll (serviceId : Nat) (notifications : List (Notification Uuid)) :
    Counted (History.receiveAll serviceId notifications) notifications := by
  induction notifications using List.reverseRecOn with
  | nil => exact counted_initial
  | append_singleton notifications notification ih =>
      have h := counted_receive serviceId _ notifications notification ih
      simpa only [History.receiveAll, List.foldl_append, List.foldl_cons, List.foldl_nil] using h

end History

-- The state after any sequence of notifications is a function of how many of
-- each kind arrived for each uuid. The order in which they came is forgotten.
theorem refCount_order_independent (serviceId : Nat) (notifications : List (Notification Uuid)) :
    let history := History.receiveAll serviceId notifications
    (∃ online : Finset Uuid, (∀ uuid, uuid ∈ online ↔ 0 < history.api.refCount uuid) ∧
      history.api.onlineDevices = online.card) ∧
    (∀ uuid, history.api.refCount uuid =
      connects uuid notifications - disconnects uuid notifications) ∧
    (∀ uuid call, history.lastCall uuid = some call →
      call.connected = decide (0 < history.api.refCount uuid)) ∧
    (∀ uuid call, history.firstCall uuid = some call → call.connected = true) ∧
    ∀ reordered, notifications.Perm reordered →
      (History.receiveAll serviceId reordered).api.onlineDevices = history.api.onlineDevices ∧
      ∀ uuid, (History.receiveAll serviceId reordered).target uuid = history.target uuid := by
  intro history
  have h : Counted history notifications := counted_receiveAll serviceId notifications
  refine ⟨h.online, h.refCount, ?_, h.firstCall, ?_⟩
  · intro uuid call hc
    have ht := h.target uuid
    simpa [History.target, hc] using ht
  · intro reordered hp
    have hr := counted_receiveAll serviceId reordered
    have hsame : ∀ uuid, (History.receiveAll serviceId reordered).api.refCount uuid =
        history.api.refCount uuid := by
      intro uuid
      rw [hr.refCount, h.refCount, balance_perm uuid hp]
    constructor
    · obtain ⟨online, hm, hc⟩ := h.online
      obtain ⟨online', hm', hc'⟩ := hr.online
      have he : online' = online := by
        ext uuid
        rw [hm, hm', hsame]
      rw [hc, hc', he]
    · intro uuid
      rw [h.target, hr.target, hsame]

theorem refCount_order_independent_swap :
    (History.receiveAll 1 [.disconnect 7 1 none, .connect 7 1]).target 7 =
      (History.receiveAll 1 [.connect 7 1, .disconnect 7 1 none]).target 7 :=
  ((refCount_order_independent 1 [.connect 7 1, .disconnect 7 1 none]).2.2.2.2 _
    (List.Perm.swap _ _ [])).2 7

-- A disconnect that overtakes its connect leaves no trace.
example : (History.receiveAll 1 [.disconnect 7 1 none, .connect 7 1]).target 7 = false ∧
    (History.receiveAll 1 [.disconnect 7 1 none, .connect 7 1]).api.onlineDevices = 0 := by decide

end OpenBalenaVpn.RefCount
