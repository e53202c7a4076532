import OpenBalenaVpn.Deployment
import OpenBalenaVpn.Reporter.Quiescence
import OpenBalenaVpn.Service.Theorems
import OpenBalenaVpn.Sessions.Theorems

namespace OpenBalenaVpn.Deployment

open Transition RefCount

variable {Uuid : Type} [DecidableEq Uuid]

section Turns

-- The notifications that openvpn's script sends for an event of a session.
def sends : Sessions.Event Uuid → List (Notification Uuid)
  | .start session => [.connect session.uuid session.workerId]
  | .stop session time_duration => [.disconnect session.uuid session.workerId time_duration]
  | .crash _ => []
  | .deliver _ => []

-- A turn of the sessions delivers one notification, or sends some and tells nobody yet.
inductive Turn (serviceId : Nat) (state next : Sessions.State Uuid) :
    Sessions.Event Uuid → Prop where
  | deliver (notification : Notification Uuid) (hflight : notification ∈ state.inFlight)
      (hhistory : next.history = state.history.receive serviceId notification)
      (hleft : next.inFlight = state.inFlight.erase notification) :
      Turn serviceId state next (.deliver notification)
  | send (event : Sessions.Event Uuid) (hnot : ∀ notification, event ≠ .deliver notification)
      (hhistory : next.history = state.history)
      (hleft : next.inFlight = state.inFlight ++ sends event) : Turn serviceId state next event

theorem sessions_turn {config : Cluster.Config} {serviceId : Nat} {state next : Sessions.State Uuid}
    {event : Sessions.Event Uuid} (hs : Sessions.step config serviceId state event = some next) :
    Turn serviceId state next event := by
  cases event with
  | start session =>
      simp only [Sessions.step] at hs
      split at hs
      · obtain rfl := Option.some.inj hs
        exact .send _ (by simp) rfl rfl
      · cases hs
  | stop session time_duration =>
      simp only [Sessions.step] at hs
      split at hs
      · obtain rfl := Option.some.inj hs
        exact .send _ (by simp) rfl rfl
      · cases hs
  | crash workerId =>
      obtain ⟨cluster, _, rfl⟩ := Option.map_eq_some_iff.mp hs
      exact .send _ (by simp) rfl (List.append_nil _).symm
  | deliver notification =>
      simp only [Sessions.step] at hs
      split at hs
      · rename_i hflight
        obtain rfl := Option.some.inj hs
        exact .deliver notification hflight rfl rfl
      · cases hs

theorem notify_history {batchSize : Int} {serviceId : Nat} {service next : Service Uuid}
    {notification : Notification Uuid}
    (hn : service.notify batchSize serviceId notification = some next) :
    next.history = service.history.receive serviceId notification := by
  unfold Service.notify at hn
  split at hn
  · obtain rfl := Option.some.inj hn
    rfl
  · obtain ⟨reporter, _, rfl⟩ := Option.map_eq_some_iff.mp hn
    rfl

-- What that turn is for the primary: nothing, unless a notification arrives.
theorem session_cases {config : Cluster.Config} {serviceId : Nat} {batchSize : Int}
    {deployment next : Deployment Uuid} {event : Sessions.Event Uuid}
    (hs : step config serviceId batchSize deployment (.session event) = some next) :
    Sessions.step config serviceId deployment.sessions event = some next.sessions ∧
    (((∀ notification, event ≠ .deliver notification) ∧ next.service = deployment.service) ∨
      ∃ notification, event = .deliver notification ∧
        deployment.service.notify batchSize serviceId notification = some next.service) := by
  simp only [step, Option.bind_eq_bind, Option.bind_eq_some_iff] at hs
  obtain ⟨sessions, hsessions, hs⟩ := hs
  cases sessions_turn hsessions with
  | deliver notification hflight hhistory hleft =>
      obtain ⟨service, hn, hs⟩ := Option.bind_eq_some_iff.mp hs
      obtain rfl := Option.some.inj hs
      refine ⟨hsessions, Or.inr ⟨notification, rfl, ?_⟩⟩
      have hsame : service.history = sessions.history := (notify_history hn).trans hhistory.symm
      rw [hn]
      simp [Deployment.service, ← hsame]
  | send event hnot hhistory hleft =>
      have hnext : next = { deployment with sessions } := by
        cases event with
        | deliver notification => exact absurd rfl (hnot notification)
        | start session => exact (Option.some.inj hs).symm
        | stop session time_duration => exact (Option.some.inj hs).symm
        | crash workerId => exact (Option.some.inj hs).symm
      subst hnext
      exact ⟨hsessions, Or.inl ⟨hnot, by simp [Deployment.service, hhistory]⟩⟩

end Turns

-- Sessions and notifications balance, the reporter's targets are the flags of the last
-- calls, and the reporter forgets nothing.
structure Coherent (batchSize : Int) (deployment : Deployment Uuid) : Prop where
  balanced : Sessions.Balanced deployment.sessions
  consistent : ∃ notifications, Service.Consistent deployment.service notifications
  steady : Reporter.Steady batchSize deployment.reporter

theorem coherent_initial (config : Cluster.Config) (batchSize : Int) :
    Coherent batchSize (initial config : Deployment Uuid) where
  balanced := Sessions.balanced_initial config
  consistent := ⟨[], Service.consistent_initial⟩
  steady := Reporter.steady_initial batchSize

section Coherence

theorem steady_notify {batchSize : Int} {serviceId : Nat} {service next : Service Uuid}
    {notification : Notification Uuid} (h : Reporter.Steady batchSize service.reporter)
    (hn : service.notify batchSize serviceId notification = some next) :
    Reporter.Steady batchSize next.reporter ∧
      next.reporter.turnsLeft ≤ service.reporter.turnsLeft + 2 := by
  unfold Service.notify at hn
  split at hn
  · obtain rfl := Option.some.inj hn
    exact ⟨h, Nat.le_add_right _ _⟩
  · rename_i call _
    obtain ⟨reporter, hr, rfl⟩ := Option.map_eq_some_iff.mp hn
    have hstep : Reporter.step batchSize service.reporter
        (.setConnected call.uuid call.serviceId call.workerId call.connected) = some reporter := hr
    exact ⟨Reporter.steady_step batchSize _ _ _ h hstep,
      Reporter.turnsLeft_setConnected batchSize _ h.agreed.scheduled _ _ _ hr⟩

theorem coherent_step (config : Cluster.Config) (serviceId : Nat) (batchSize : Int)
    (deployment : Deployment Uuid) (event : Event Uuid) (next : Deployment Uuid)
    (h : Coherent batchSize deployment)
    (hs : step config serviceId batchSize deployment event = some next) :
    Coherent batchSize next := by
  obtain ⟨notifications, hc⟩ := h.consistent
  cases event with
  | session event =>
      obtain ⟨hsessions, hcases⟩ := session_cases hs
      have hb := Sessions.balanced_step config serviceId _ _ _ h.balanced hsessions
      rcases hcases with ⟨_, hsame⟩ | ⟨notification, rfl, hn⟩
      · have hreporter : next.reporter = deployment.reporter := congrArg Service.reporter hsame
        exact ⟨hb, ⟨notifications, hsame ▸ hc⟩, hreporter ▸ h.steady⟩
      · exact ⟨hb, ⟨_, Service.consistent_notify batchSize serviceId _ _ _ _ hc hn⟩,
          (steady_notify h.steady hn).1⟩
  | settle id response =>
      obtain ⟨reporter, hr, rfl⟩ := Option.map_eq_some_iff.mp hs
      refine ⟨h.balanced, ⟨notifications, ?_⟩,
        Reporter.steady_step batchSize _ (.settle id response) _ h.steady hr⟩
      exact Service.consistent_reporter batchSize _ _ (.settle id response) reporter hc hr
        (fun _ _ => rfl)
  | wake index =>
      obtain ⟨reporter, hr, rfl⟩ := Option.map_eq_some_iff.mp hs
      refine ⟨h.balanced, ⟨notifications, ?_⟩,
        Reporter.steady_step batchSize _ (.wake index) _ h.steady hr⟩
      exact Service.consistent_reporter batchSize _ _ (.wake index) reporter hc hr
        (fun _ _ => rfl)

theorem coherent_run (config : Cluster.Config) (serviceId : Nat) (batchSize : Int)
    {events : List (Event Uuid)} {deployment : Deployment Uuid}
    (hrun : run (step config serviceId batchSize) (initial config) events = some deployment) :
    Coherent batchSize deployment :=
  run_invariant (coherent_step config serviceId batchSize) (coherent_initial config batchSize) hrun

end Coherence

section Work

-- Each notification on its way is a turn, and two more for the reporter.
def work (deployment : Deployment Uuid) : Nat :=
  3 * deployment.sessions.inFlight.length + deployment.reporter.turnsLeft

-- What an event adds to that, its own turn included.
def Event.cost (batchSize : Int) : Event Uuid → Nat
  | .session (.deliver _) => 0
  | .session event => 3 * (sends event).length + 1
  | .settle _ response => if response = some 200 then 0 else batchSize.toNat + 1
  | .wake _ => 0

theorem work_step (config : Cluster.Config) (serviceId : Nat) (batchSize : Int)
    (deployment : Deployment Uuid) (event : Event Uuid) (next : Deployment Uuid)
    (h : Coherent batchSize deployment)
    (hs : step config serviceId batchSize deployment event = some next) :
    next.work + 1 ≤ deployment.work + event.cost batchSize := by
  unfold work
  cases event with
  | session event =>
      obtain ⟨hsessions, hcases⟩ := session_cases hs
      rcases hcases with ⟨hnot, hsame⟩ | ⟨notification, rfl, hn⟩
      · have hreporter : next.reporter = deployment.reporter := congrArg Service.reporter hsame
        have hcost : (Event.session event).cost batchSize = 3 * (sends event).length + 1 := by
          cases event with
          | deliver notification => exact absurd rfl (hnot notification)
          | start session => rfl
          | stop session time_duration => rfl
          | crash workerId => rfl
        cases sessions_turn hsessions with
        | deliver notification => exact absurd rfl (hnot notification)
        | send _ _ _ hleft =>
            rw [hleft, hreporter, hcost, List.length_append]
            omega
      · have hturns : next.reporter.turnsLeft ≤ deployment.reporter.turnsLeft + 2 :=
          (steady_notify h.steady hn).2
        cases sessions_turn hsessions with
        | deliver _ hflight _ hleft =>
            have hpos := List.length_pos_of_mem hflight
            rw [hleft, List.length_erase_of_mem hflight, Event.cost]
            omega
        | send _ hnot => exact absurd rfl (hnot notification)
  | settle id response =>
      obtain ⟨reporter, hr, rfl⟩ := Option.map_eq_some_iff.mp hs
      have hle := Reporter.turnsLeft_step batchSize _ (.settle id response) _ h.steady hr
      simp only [Reporter.Event.cost, Event.cost] at hle ⊢
      omega
  | wake index =>
      obtain ⟨reporter, hr, rfl⟩ := Option.map_eq_some_iff.mp hs
      have hle := Reporter.turnsLeft_step batchSize _ (.wake index) _ h.steady hr
      simp only [Reporter.Event.cost, Event.cost] at hle ⊢
      omega

end Work

section Rest

theorem notify_isSome {batchSize : Int} (hsize : 0 < batchSize) (serviceId : Nat)
    {service : Service Uuid} (h : Reporter.Steady batchSize service.reporter)
    (notification : Notification Uuid) :
    ∃ next, service.notify batchSize serviceId notification = some next := by
  unfold Service.notify
  cases (handle serviceId service.history.api notification).call with
  | none => exact ⟨_, rfl⟩
  | some call =>
      have hq := h.agreed.scheduled.toConsistent.enqueue call.uuid call.workerId call.connected
      obtain ⟨reporter, hr⟩ := Reporter.updateLoop_isSome hsize call.serviceId _ hq.tracked_pending
      exact ⟨_, Option.map_eq_some_iff.mpr ⟨reporter, hr, rfl⟩⟩

theorem deliver_isSome (config : Cluster.Config) (serviceId : Nat) {batchSize : Int}
    (hsize : 0 < batchSize) {deployment : Deployment Uuid} (h : Coherent batchSize deployment)
    {notification : Notification Uuid} (hflight : notification ∈ deployment.sessions.inFlight) :
    ∃ next, step config serviceId batchSize deployment (.session (.deliver notification)) =
      some next := by
  have hsteady : Reporter.Steady batchSize deployment.service.reporter := h.steady
  obtain ⟨service, hn⟩ := notify_isSome hsize serviceId hsteady notification
  simp [step, Sessions.step, hflight, hn]

-- The API was last told of a device what its sessions say, those that crashes ended included.
theorem Coherent.told {batchSize : Int} {deployment : Deployment Uuid}
    (h : Coherent batchSize deployment) (hquiet : deployment.sessions.inFlight = [])
    (hrest : deployment.reporter.rounds = []) (uuid : Uuid) :
    (deployment.reporter.acknowledged.find? (uuid ∈ ·.uuids)).any (·.connected) = true ↔
      0 < Sessions.count uuid deployment.sessions.live +
        Sessions.count uuid deployment.sessions.lost := by
  obtain ⟨notifications, hc⟩ := h.consistent
  have hlast : (deployment.reporter.acknowledged.find? (uuid ∈ ·.uuids)).map (·.connected) =
      (deployment.sessions.history.lastCall uuid).map (·.connected) := by
    have htarget := hc.target uuid
    rw [h.steady.acknowledged_of_rest hrest uuid, Option.map_map]
    exact htarget
  have hany : (deployment.reporter.acknowledged.find? (uuid ∈ ·.uuids)).any (·.connected) =
      deployment.sessions.history.target uuid := by
    have hid := congrArg (Option.any id) hlast
    simpa [Option.any_map, Function.comp_def, History.target] using hid
  rw [hany]
  exact Sessions.target_iff h.balanced hquiet uuid

end Rest

-- The instance catches up with its sessions. A run is no longer than the work that its
-- events bring: four turns for each session that starts or ends, one for each crash, and
-- one more than a batch for each POST that failed. As long as a notification is on its way
-- or a round is under way there is a turn to take. Once there is none, the API was last told
-- that exactly those devices are connected that have a session, or lost one to a crash.
theorem deployment_converges (config : Cluster.Config) (serviceId : Nat) (batchSize : Int)
    (events : List (Event Uuid)) (deployment : Deployment Uuid)
    (hrun : run (step config serviceId batchSize) (initial config) events = some deployment) :
    events.length + deployment.work ≤ (events.map (Event.cost batchSize)).sum ∧
    (0 < batchSize →
      (∀ notification ∈ deployment.sessions.inFlight, ∃ next,
        step config serviceId batchSize deployment (.session (.deliver notification)) =
          some next) ∧
      (∀ post ∈ deployment.reporter.inFlight, ∀ response, ∃ next,
        step config serviceId batchSize deployment (.settle post.id response) = some next) ∧
      (deployment.reporter.rounds ≠ [] → deployment.reporter.inFlight = [] → ∃ next,
        step config serviceId batchSize deployment (.wake 0) = some next)) ∧
    (deployment.sessions.inFlight = [] → deployment.reporter.rounds = [] → ∀ uuid,
      ((deployment.reporter.acknowledged.find? (uuid ∈ ·.uuids)).any (·.connected) = true ↔
        0 < Sessions.count uuid deployment.sessions.live +
          Sessions.count uuid deployment.sessions.lost)) := by
  have h := coherent_run config serviceId batchSize hrun
  refine ⟨?_, fun hsize => ⟨fun notification hflight => ?_, fun post hp response => ?_,
    fun hround hnil => ?_⟩, fun hquiet hrest uuid => h.told hquiet hrest uuid⟩
  · have hle := length_add_rank_le (coherent_step config serviceId batchSize)
      (work_step config serviceId batchSize) (coherent_initial config batchSize) hrun
    simpa [work, initial, Sessions.State.initial, Reporter.State.turnsLeft,
      Reporter.State.initial] using hle
  · exact deliver_isSome config serviceId hsize h hflight
  · obtain ⟨reporter, hr⟩ := Reporter.settle_isSome hp response
    exact ⟨_, Option.map_eq_some_iff.mpr ⟨reporter, hr, rfl⟩⟩
  · obtain ⟨reporter, hr⟩ := (h.steady.enabled hsize hround).2 hnil
    exact ⟨_, Option.map_eq_some_iff.mpr ⟨reporter, hr, rfl⟩⟩

-- The device moves from worker 1 to worker 2. The disconnect overtakes the second connect,
-- and the first POST fails.
theorem deployment_converges_move :
    let events : List (Event String) := [.session (.start ⟨1, "c0ffee"⟩),
      .session (.deliver (.connect "c0ffee" 1)), .session (.start ⟨2, "c0ffee"⟩),
      .session (.stop ⟨1, "c0ffee"⟩ (some 60)),
      .session (.deliver (.disconnect "c0ffee" 1 (some 60))),
      .settle 0 none, .session (.deliver (.connect "c0ffee" 2)), .wake 0, .settle 1 (some 200),
      .wake 0]
    let deployment := (run (step ⟨2, false, 30, 120⟩ 7 8000) (initial ⟨2, false, 30, 120⟩)
      events).get (by decide)
    (deployment.reporter.acknowledged.find? ("c0ffee" ∈ ·.uuids)).any (·.connected) = true := by
  have h := deployment_converges ⟨2, false, 30, 120⟩ 7 8000 [.session (.start ⟨1, "c0ffee"⟩),
    .session (.deliver (.connect "c0ffee" 1)), .session (.start ⟨2, "c0ffee"⟩),
    .session (.stop ⟨1, "c0ffee"⟩ (some 60)),
    .session (.deliver (.disconnect "c0ffee" 1 (some 60))),
    .settle 0 none, .session (.deliver (.connect "c0ffee" 2)), .wake 0, .settle 1 (some 200),
    .wake 0] _ (Option.some_get (by decide)).symm
  exact (h.2.2 (by decide) (by decide) "c0ffee").mpr (by decide)

end OpenBalenaVpn.Deployment
