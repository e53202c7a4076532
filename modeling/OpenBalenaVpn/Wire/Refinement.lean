import OpenBalenaVpn.Wire
import OpenBalenaVpn.ClientScript.Encoding
import OpenBalenaVpn.Deployment.Convergence

namespace OpenBalenaVpn.Wire

open Transition ClientScript RefCount

section Read

-- The notification that a request carries.
def read (curl : Curl) : Option (Notification JsString) := do
  let body ← parseBody curl.body
  let request ← clientRequest "127.0.0.1" curl.workerId body
  let common_name ← request.common_name
  match curl.method with
  | .POST => some (.connect common_name request.worker)
  | .DELETE => some (.disconnect common_name request.worker request.time_duration)

-- The notification that openvpn runs the script for. A duration that no double holds is lost.
def notification (workerId : Nat) : ClientScript.Event → Notification JsString
  | .connect common_name => .connect (utf16 common_name) workerId
  | .disconnect common_name _ _ time_duration =>
      .disconnect (utf16 common_name) workerId (observed (.ofNat time_duration))

-- The event's body says what the event is about.
structure Plain (event : ClientScript.Event) : Prop where
  printable : Auth.Printable event.common_name
  needsNoEscape : Auth.NeedsNoEscape event.common_name
  fits : event.Fits

theorem read_of_body {curl : Curl} {body : Json} {common_name : JsString}
    (hbody : parseBody curl.body = some body)
    (hname : Auth.property "common_name".toList (some body) = some (.string common_name)) :
    read curl = match curl.method with
      | .POST => some (.connect common_name curl.workerId)
      | .DELETE => some (.disconnect common_name curl.workerId
          (((Auth.property "time_duration".toList (some body)).bind double).bind observed)) := by
  have hrequest : clientRequest "127.0.0.1" curl.workerId body =
      some ⟨"127.0.0.1", curl.workerId, some common_name,
        ((Auth.property "time_duration".toList (some body)).bind double).bind observed⟩ := by
    rw [clientRequest, hname]
  rw [read, hbody, Option.bind_eq_bind, Option.bind_some, hrequest]
  rfl

theorem read_script (workerId : Nat) {event : ClientScript.Event} (h : Plain event) :
    read (script workerId event.env) = some (notification workerId event) := by
  have hbody := parseBody_members workerId h.printable h.needsNoEscape h.fits
  have hname := Auth.property_of_get (get_common_name event) rfl
  rw [read_of_body hbody hname]
  cases event with
  | connect common_name => rfl
  | disconnect common_name bytes_received bytes_sent time_duration =>
      have hduration := Auth.property_of_get (@get_time_duration
        (.disconnect common_name bytes_received bytes_sent time_duration) time_duration rfl) rfl
      rw [script_disconnect, hduration, Option.bind_some, double_digits]
      rfl

-- The handlers of the local host's requests act on that notification.
theorem receive_of_read {curl : Curl} {notification : Notification JsString}
    (h : read curl = some notification) {ip : String} (hip : fromLocalHost ip = true)
    (serviceId : Nat) (api : Api JsString) :
    receive serviceId api ip curl = some (handle serviceId api notification) := by
  simp only [read, Option.bind_eq_bind, Option.bind_eq_some_iff] at h
  obtain ⟨body, hbody, request, hrequest, common_name, hname, hmethod⟩ := h
  have hsame : clientRequest ip curl.workerId body = some { request with ip } := by
    unfold clientRequest at hrequest ⊢
    split at hrequest <;> first | cases hrequest; rfl | cases hrequest
  rw [receive, hbody]
  cases hm : curl.method with
  | POST =>
      rw [hm] at hmethod
      obtain rfl := Option.some.inj hmethod
      simp [hsame, postClients, hip, hname, handle]
  | DELETE =>
      rw [hm] at hmethod
      obtain rfl := Option.some.inj hmethod
      simp [hsame, deleteClients, hip, hname, handle]

-- Those of other hosts are refused before they count.
theorem receive_foreign {ip : String} (hip : fromLocalHost ip = false) {serviceId : Nat}
    {api : Api JsString} {curl : Curl} {handled : Handled JsString}
    (h : receive serviceId api ip curl = some handled) :
    handled.api = api ∧ handled.call = none := by
  simp only [receive, Option.bind_eq_bind, Option.bind_eq_some_iff] at h
  obtain ⟨body, _, request, hrequest, hmethod⟩ := h
  have hsame : request.ip = ip := by
    unfold clientRequest at hrequest
    split at hrequest <;> cases hrequest <;> rfl
  have hrefused : fromLocalHost request.ip = false := hsame ▸ hip
  cases hm : curl.method with
  | POST =>
      rw [hm] at hmethod
      obtain rfl := Option.some.inj hmethod
      simp [postClients, hrefused]
  | DELETE =>
      rw [hm] at hmethod
      obtain rfl := Option.some.inj hmethod
      simp [deleteClients, hrefused]

end Read

section Flight

variable {α β : Type} [DecidableEq α] [DecidableEq β]

-- What was read of an item is taken off with it, in whatever order the items are.
theorem flight_erase {read : α → Option β} {items : List α} {values : List β}
    (h : (values.map some).Perm (items.map read)) {item : α} (hmem : item ∈ items) :
    ∃ value, read item = some value ∧ value ∈ values ∧
      ((values.erase value).map some).Perm ((items.erase item).map read) := by
  have hread : read item ∈ values.map some := h.mem_iff.mpr (List.mem_map_of_mem hmem)
  obtain ⟨value, hvalue, hsome⟩ := List.mem_map.mp hread
  refine ⟨value, hsome.symm, hvalue, ?_⟩
  have hitems : (items.map read).Perm (read item :: (items.erase item).map read) :=
    (List.perm_cons_erase hmem).map read
  have hvalues : (values.map some).Perm (some value :: (values.erase value).map some) :=
    (List.perm_cons_erase hvalue).map some
  rw [hsome] at hvalues
  exact List.Perm.cons_inv ((hvalues.symm.trans h).trans hitems)

end Flight

section Refinement

def encode (session : Sessions.Session Text) : Sessions.Session JsString :=
  ⟨session.workerId, utf16 session.uuid⟩

theorem encode_injective : Function.Injective encode := by
  rintro ⟨workerId, name⟩ ⟨otherId, other⟩ h
  have hparts : workerId = otherId ∧ utf16 name = utf16 other := Sessions.Session.mk.inj h
  rw [hparts.1, Json.utf16_injective hparts.2]

theorem count_encode (name : Text) (sessions : List (Sessions.Session Text)) :
    Sessions.count (utf16 name) (sessions.map encode) = Sessions.count name sessions := by
  rw [Sessions.count, List.countP_map, Sessions.count]
  refine List.countP_congr fun session _ => ?_
  simp [encode, Json.utf16_injective.eq_iff]

-- The instance without its texts: the sessions under the names that the handlers see, and
-- the notifications that the requests carry, in some order.
structure Shows (wire : Wire) (deployment : Deployment JsString) : Prop where
  cluster : deployment.sessions.cluster = wire.cluster
  service : deployment.service = wire.service
  live : deployment.sessions.live = wire.live.map encode
  lost : deployment.sessions.lost = wire.lost.map encode
  curls : (deployment.sessions.inFlight.map some).Perm (wire.curls.map read)

def Event.Plain : Event → Prop
  | .session _ event => Wire.Plain event
  | .crash _ => True
  | .request _ _ => True
  | .settle _ _ => True
  | .wake _ => True

variable {config : Cluster.Config} {serviceId : Nat} {batchSize : Int} {wire : Wire}
  {deployment : Deployment JsString}

theorem shows_initial : Shows (initial config) (Deployment.initial config) :=
  ⟨rfl, rfl, rfl, rfl, List.Perm.refl _⟩

theorem Shows.send (h : Shows wire deployment) (workerId : Nat) {event : ClientScript.Event}
    (hplain : Wire.Plain event) :
    ((deployment.sessions.inFlight ++ [notification workerId event]).map some).Perm
      ((wire.curls ++ [script workerId event.env]).map read) := by
  rw [List.map_append, List.map_append, List.map_singleton, List.map_singleton,
    read_script workerId hplain]
  exact h.curls.append_right _

theorem Shows.reporter (h : Shows wire deployment) :
    deployment.reporter = wire.service.reporter := congrArg Service.reporter h.service

theorem Shows.history (h : Shows wire deployment) :
    deployment.sessions.history = wire.service.history := congrArg Service.history h.service

-- An event of the sessions that delivers nothing leaves the primary as it is.
theorem send_step {event : Sessions.Event JsString} {sessions : Sessions.State JsString}
    (hnot : ∀ notification, event ≠ .deliver notification)
    (hs : Sessions.step config serviceId deployment.sessions event = some sessions) :
    Deployment.step config serviceId batchSize deployment (.session event) =
      some { deployment with sessions } := by
  rw [Deployment.step, hs]
  cases event with
  | start session => rfl
  | stop session time_duration => rfl
  | crash workerId => rfl
  | deliver notification => exact absurd rfl (hnot notification)

theorem start_refines (h : Shows wire deployment) (workerId : Nat) {common_name : Text}
    (hplain : Wire.Plain (.connect common_name))
    (halive : (wire.cluster.processes.get workerId).any (·.alive) = true) :
    ∃ deployment', Deployment.step config serviceId batchSize deployment
        (.session (.start (encode ⟨workerId, common_name⟩))) = some deployment' ∧
      Shows { wire with
        live := wire.live ++ [⟨workerId, common_name⟩]
        curls := wire.curls ++
          [script workerId (ClientScript.Event.connect common_name).env] } deployment' := by
  rw [← h.cluster] at halive
  have hs : Sessions.step config serviceId deployment.sessions
      (.start (encode ⟨workerId, common_name⟩)) = some _ := if_pos halive
  refine ⟨_, send_step (by simp) hs, h.cluster, h.service, ?_, h.lost, h.send workerId hplain⟩
  rw [List.map_append, ← h.live]
  rfl

theorem stop_refines (h : Shows wire deployment) (workerId : Nat) {event : ClientScript.Event}
    (hplain : Wire.Plain event) (hlive : ⟨workerId, event.common_name⟩ ∈ wire.live)
    {time_duration : Option ℚ}
    (hn : notification workerId event =
      .disconnect (utf16 event.common_name) workerId time_duration) :
    ∃ deployment', Deployment.step config serviceId batchSize deployment
        (.session (.stop (encode ⟨workerId, event.common_name⟩) time_duration)) =
          some deployment' ∧
      Shows { wire with
        live := wire.live.erase ⟨workerId, event.common_name⟩
        curls := wire.curls ++ [script workerId event.env] } deployment' := by
  have hmem : encode ⟨workerId, event.common_name⟩ ∈ deployment.sessions.live :=
    h.live ▸ List.mem_map_of_mem hlive
  have hs : Sessions.step config serviceId deployment.sessions
      (.stop (encode ⟨workerId, event.common_name⟩) time_duration) = some _ := if_pos hmem
  have hsend := h.send workerId hplain
  rw [hn] at hsend
  refine ⟨_, send_step (by simp) hs, h.cluster, h.service, ?_, h.lost, hsend⟩
  rw [List.map_erase encode_injective, ← h.live]

theorem crash_refines (h : Shows wire deployment) {workerId : Nat}
    {cluster : Cluster.State JsString} (hs : wire.crash config workerId = some cluster) :
    ∃ deployment', Deployment.step config serviceId batchSize deployment
        (.session (.crash workerId)) = some deployment' ∧
      Shows { wire with
        cluster
        live := wire.live.filter fun session => !decide (session.workerId = workerId)
        lost := wire.lost ++ wire.live.filter fun session => session.workerId = workerId }
        deployment' := by
  have hcrash : deployment.sessions.crash config workerId = some cluster := by
    rw [Sessions.State.crash, h.cluster]
    exact hs
  have hsessions : Sessions.step config serviceId deployment.sessions (.crash workerId) =
      some _ := Option.map_eq_some_iff.mpr ⟨cluster, hcrash, rfl⟩
  refine ⟨_, send_step (by simp) hsessions, rfl, h.service, ?_, ?_, h.curls⟩
  · simp only [h.live, List.filter_map]
    rfl
  · simp only [h.live, h.lost, List.filter_map, List.map_append]
    rfl

-- A request of the script is handled as its notification.
theorem request_of_read {curl : Curl} {notification : Notification JsString}
    (h : read curl = some notification) {ip : String} (hip : fromLocalHost ip = true)
    (service : Service JsString) :
    request batchSize serviceId service ip curl =
      service.notify batchSize serviceId notification := by
  simp only [request, receive_of_read h hip, Service.notify]
  cases hcall : (handle serviceId service.history.api notification).call with
  | none => simp only [History.receive, hcall]
  | some call => simp only [History.receive, hcall]

theorem request_foreign {ip : String} (hip : fromLocalHost ip = false) (service : Service JsString)
    (curl : Curl) : request batchSize serviceId service ip curl = some service := by
  unfold request
  split
  · simp [hip]
  · rename_i handled hreceive
    obtain ⟨hapi, hcall⟩ := receive_foreign hip hreceive
    simp [hapi, hcall]

theorem deliver_refines (h : Shows wire deployment) {curl : Curl} (hmem : curl ∈ wire.curls)
    {ip : String} (hip : fromLocalHost ip = true) {service : Service JsString}
    (hs : request batchSize serviceId wire.service ip curl = some service) :
    ∃ notification deployment', Deployment.step config serviceId batchSize deployment
        (.session (.deliver notification)) = some deployment' ∧
      Shows { wire with service, curls := wire.curls.erase curl } deployment' := by
  obtain ⟨notification, hread, hflight, hrest⟩ := flight_erase h.curls hmem
  rw [request_of_read hread hip, ← h.service] at hs
  have hhistory : service.history = deployment.sessions.history.receive serviceId notification :=
    Deployment.notify_history hs
  let sessions : Sessions.State JsString := { deployment.sessions with
    history := service.history
    inFlight := deployment.sessions.inFlight.erase notification }
  have hsessions : Sessions.step config serviceId deployment.sessions (.deliver notification) =
      some sessions := by
    simp only [sessions, hhistory]
    exact if_pos hflight
  refine ⟨notification, ⟨sessions, service.reporter⟩, ?_, h.cluster, rfl, h.live, h.lost, hrest⟩
  rw [Deployment.step, hsessions, Option.bind_eq_bind, Option.bind_some]
  exact Option.bind_eq_some_iff.mpr ⟨service, hs, rfl⟩

theorem session_refines (h : Shows wire deployment) {workerId : Nat}
    {event : ClientScript.Event} (hplain : Wire.Plain event) {next : Wire}
    (hs : step config serviceId batchSize wire (.session workerId event) = some next) :
    ∃ label deployment', Deployment.step config serviceId batchSize deployment label =
      some deployment' ∧ Shows next deployment' := by
  cases event with
  | connect common_name =>
      simp only [step] at hs
      split at hs
      · rename_i halive
        obtain rfl := Option.some.inj hs
        exact ⟨_, start_refines h workerId hplain halive⟩
      · cases hs
  | disconnect common_name bytes_received bytes_sent time_duration =>
      simp only [step] at hs
      split at hs
      · rename_i hlive
        obtain rfl := Option.some.inj hs
        exact ⟨_, stop_refines h workerId hplain hlive rfl⟩
      · cases hs

-- A step of the instance is one of the deployment, or, where another host sent the request,
-- none.
theorem step_refines (event : Event) (next : Wire) (h : Shows wire deployment)
    (hplain : event.Plain) (hs : step config serviceId batchSize wire event = some next) :
    ∃ labels deployment', run (Deployment.step config serviceId batchSize) deployment labels =
      some deployment' ∧ Shows next deployment' := by
  have hone : (∃ label deployment', Deployment.step config serviceId batchSize deployment label =
      some deployment' ∧ Shows next deployment') → ∃ labels deployment',
        run (Deployment.step config serviceId batchSize) deployment labels = some deployment' ∧
          Shows next deployment' := by
    rintro ⟨label, deployment', hstep, hshows⟩
    exact ⟨[label], deployment', (run_singleton _ _ _).trans hstep, hshows⟩
  cases event with
  | session workerId event => exact hone (session_refines h hplain hs)
  | crash workerId =>
      obtain ⟨cluster, hcrash, rfl⟩ := Option.map_eq_some_iff.mp hs
      exact hone ⟨_, crash_refines h hcrash⟩
  | request ip curl =>
      simp only [step] at hs
      split at hs
      · rename_i hip
        split at hs
        · rename_i hmem
          obtain ⟨service, hrequest, rfl⟩ := Option.map_eq_some_iff.mp hs
          obtain ⟨notification, hdeliver⟩ := deliver_refines h hmem hip hrequest
          exact hone ⟨_, hdeliver⟩
        · cases hs
      · rename_i hip
        rw [request_foreign (Bool.eq_false_iff.mpr hip)] at hs
        obtain rfl := Option.some.inj hs
        exact ⟨[], deployment, rfl, h⟩
  | settle id response =>
      obtain ⟨reporter, hr, rfl⟩ := Option.map_eq_some_iff.mp hs
      rw [← h.reporter] at hr
      exact hone ⟨.settle id response, _, Option.map_eq_some_iff.mpr ⟨reporter, hr, rfl⟩,
        h.cluster, by simp only [Deployment.service, h.history], h.live, h.lost, h.curls⟩
  | wake index =>
      obtain ⟨reporter, hr, rfl⟩ := Option.map_eq_some_iff.mp hs
      rw [← h.reporter] at hr
      exact hone ⟨.wake index, _, Option.map_eq_some_iff.mpr ⟨reporter, hr, rfl⟩,
        h.cluster, by simp only [Deployment.service, h.history], h.live, h.lost, h.curls⟩

end Refinement

section Theorems

-- The instance at the level of its requests is explained by the one whose notifications
-- arrive as they are, as long as the names need no escape and the bodies fit; the requests of
-- other hosts are no part of it. So every request of the script can be handled, and once
-- none is on its way and the reporter rests, the API was last told that exactly the devices
-- are connected whose name a session has, or had when it was lost to a crash.
theorem wire_refines (config : Cluster.Config) (serviceId : Nat) (batchSize : Int)
    (events : List Event) (wire : Wire) (hplain : ∀ event ∈ events, event.Plain)
    (hrun : run (step config serviceId batchSize) (initial config) events = some wire) :
    (∃ labels deployment, run (Deployment.step config serviceId batchSize)
        (Deployment.initial config) labels = some deployment ∧ Shows wire deployment) ∧
    (0 < batchSize → ∀ curl ∈ wire.curls, ∀ ip, fromLocalHost ip = true →
      ∃ next, step config serviceId batchSize wire (.request ip curl) = some next) ∧
    (wire.curls = [] → wire.service.reporter.rounds = [] → ∀ name,
      ((wire.service.reporter.acknowledged.find? (utf16 name ∈ ·.uuids)).any (·.connected) =
          true ↔ 0 < Sessions.count name wire.live + Sessions.count name wire.lost)) := by
  obtain ⟨labels, deployment, habstract, hshows⟩ := run_refines
    (fun _ _ event next h hmeet hs => step_refines event next h hmeet hs) shows_initial hplain hrun
  have hcoherent := Deployment.coherent_run config serviceId batchSize habstract
  refine ⟨⟨labels, deployment, habstract, hshows⟩, fun hsize curl hmem ip hip => ?_,
    fun hquiet hrest name => ?_⟩
  · obtain ⟨notification, hread, _, _⟩ := flight_erase hshows.curls hmem
    have hsteady : Reporter.Steady batchSize deployment.service.reporter := hcoherent.steady
    rw [hshows.service] at hsteady
    obtain ⟨service, hn⟩ := Deployment.notify_isSome hsize serviceId hsteady notification
    rw [← request_of_read hread hip] at hn
    simp [step, hip, hmem, hn]
  · have hflight : deployment.sessions.inFlight = [] := by
      have hempty := hshows.curls
      rw [hquiet, List.map_nil, List.perm_nil, List.map_eq_nil_iff] at hempty
      exact hempty
    rw [← hshows.reporter] at hrest ⊢
    have htold := hcoherent.told hflight hrest (utf16 name)
    rw [hshows.live, hshows.lost, count_encode, count_encode] at htold
    convert htold

-- Another host sends a disconnect for the device, which is refused.
theorem wire_refines_foreign :
    let connect := ClientScript.Event.connect "c0ffee".toList
    let disconnect := ClientScript.Event.disconnect "c0ffee".toList 1200 340 900
    let events : List Event := [.session 1 connect, .request "::1" (script 1 connect.env),
      .request "10.0.0.7" (script 1 disconnect.env), .settle 0 (some 200), .wake 0]
    let wire := (run (step ⟨2, false, 30, 120⟩ 7 8000) (initial ⟨2, false, 30, 120⟩)
      events).get (by decide +kernel)
    (wire.service.reporter.acknowledged.find? (utf16 "c0ffee".toList ∈ ·.uuids)).any
      (·.connected) = true := by
  have hconnect : Wire.Plain (.connect "c0ffee".toList) := by
    refine ⟨by decide +kernel, by decide +kernel, ?_⟩
    have hlength : byteLength "c0ffee".toList + 19 ≤ bodyLimit := by decide +kernel
    exact hlength
  have h := wire_refines ⟨2, false, 30, 120⟩ 7 8000
    [.session 1 (.connect "c0ffee".toList),
      .request "::1" (script 1 (ClientScript.Event.connect "c0ffee".toList).env),
      .request "10.0.0.7"
        (script 1 (ClientScript.Event.disconnect "c0ffee".toList 1200 340 900).env),
      .settle 0 (some 200), .wake 0] _
    (List.forall_mem_cons.mpr ⟨hconnect, by simp [Event.Plain]⟩)
    (Option.some_get (by decide +kernel)).symm
  exact (h.2.2 (by decide +kernel) (by decide +kernel) "c0ffee".toList).mpr (by decide +kernel)

end Theorems

end OpenBalenaVpn.Wire
