import OpenBalenaVpn.Worker.Underway
import Mathlib.Algebra.BigOperators.Group.List.Basic

namespace OpenBalenaVpn.Worker

variable {Uuid : Type} {config : Config} {worker next : State Uuid}

-- The turns that a call has left when no more than this many clients are cached: HAProxy,
-- a timer for each client, the message to the primary and the last timer.
def Drain.turnsLeft (clients : Nat) (drain : Drain Uuid) : Nat :=
  match drain.phase with
  | .connecting => clients + 3
  | .killing _ => clients + 3 - drain.killed.length
  | .signalled => 1
  | .failed => 0

def State.turnsLeft (clients : Nat) (worker : State Uuid) : Nat :=
  if worker.exitCode = none then (worker.drains.map (Drain.turnsLeft clients)).sum else 0

-- What an event adds to the turns that are left, its own turn included. A byte count may
-- add the message with the bitrate.
def Event.cost (clients : Nat) : Event Uuid → Nat
  | .haproxy _ true | .timeout _ => 0
  | .signal _ | .prepareShutdown => clients + 4
  | .bytecount .. => 2
  | _ => 1

theorem sum_map_set {α : Type*} {list : List α} {index : Nat} {old : α}
    (h : list[index]? = some old) (f : α → Nat) (new : α) :
    ((list.set index new).map f).sum + f old = (list.map f).sum + f new := by
  induction list generalizing index with
  | nil => cases h
  | cons head list ih =>
      cases index with
      | zero =>
          obtain rfl := Option.some.inj h
          simp only [List.set_cons_zero, List.map_cons, List.sum_cons]
          omega
      | succ index =>
          have hrest := ih h
          simp only [List.set_cons_succ, List.map_cons, List.sum_cons]
          omega

-- The message to the primary is one of the turns that its call had left.
theorem signalCluster_turnsLeft {index clients : Nat} {drain : Drain Uuid}
    (hnone : worker.exitCode = none) (hget : worker.drains[index]? = some drain)
    (hleft : 3 ≤ drain.turnsLeft clients) :
    (worker.signalCluster config index drain).turnsLeft clients +
        ((worker.signalCluster config index drain).sent.length - worker.sent.length) + 1 ≤
      worker.turnsLeft clients := by
  have hsum := sum_map_set hget (Drain.turnsLeft clients) { drain with phase := .signalled }
  have hnext : Drain.turnsLeft clients { drain with phase := .signalled } = 1 := rfl
  simp only [State.signalCluster, State.turnsLeft, State.setDrain, hnone, if_true,
    List.length_append, List.length_singleton]
  omega

theorem killNext_turnsLeft {index clients : Nat} {drain : Drain Uuid} (delayMs : ℚ)
    (hnone : worker.exitCode = none) (hget : worker.drains[index]? = some drain)
    (hkilled : drain.killed.length ≤ clients)
    (hleft : clients + 3 - drain.killed.length ≤ drain.turnsLeft clients) :
    (worker.killNext config index drain delayMs).turnsLeft clients +
        ((worker.killNext config index drain delayMs).sent.length - worker.sent.length) + 1 ≤
      worker.turnsLeft clients := by
  unfold State.killNext
  split
  · rename_i entry _
    have hsum := sum_map_set hget (Drain.turnsLeft clients)
      ⟨.killing delayMs, drain.killed ++ [entry.uuid]⟩
    have hnext : Drain.turnsLeft clients ⟨.killing delayMs, drain.killed ++ [entry.uuid]⟩ =
        clients + 3 - (drain.killed.length + 1) := by simp [Drain.turnsLeft]
    simp only [State.turnsLeft, State.setDrain, hnone, if_true, Nat.sub_self]
    omega
  · exact signalCluster_turnsLeft hnone hget (by omega)

theorem call_turnsLeft (clients : Nat) (listener : DrainConnections) (worker : State Uuid) :
    (listener.call worker).turnsLeft clients ≤ worker.turnsLeft clients + (clients + 3) := by
  cases listener with
  | body =>
      by_cases hnone : worker.exitCode = none
      · simp [DrainConnections.call, State.turnsLeft, hnone, Drain.turnsLeft]
      · simp [DrainConnections.call, State.turnsLeft, hnone]
  | noop => exact Nat.le_add_right _ _

-- A call that HAProxy fails hands its turns to the one that it starts.
theorem failed_turnsLeft {index clients : Nat} {killed : List Uuid} (h : Registered worker)
    (hnone : worker.exitCode = none)
    (hget : worker.drains[index]? = some ⟨.connecting, killed⟩) :
    ((worker.setDrain index ⟨.failed, killed⟩).emit .uncaughtException).turnsLeft clients =
      worker.turnsLeft clients := by
  have hset : Registered (worker.setDrain index ⟨.failed, killed⟩) := h
  have hsum := sum_map_set hget (Drain.turnsLeft clients) ⟨.failed, killed⟩
  have hold : Drain.turnsLeft clients ⟨.connecting, killed⟩ = clients + 3 := rfl
  have hnew : Drain.turnsLeft clients (⟨.connecting, []⟩ : Drain Uuid) = clients + 3 := rfl
  have hfailed : Drain.turnsLeft clients ⟨.failed, killed⟩ = 0 := rfl
  rw [emit_eq_call hset]
  simp only [DrainConnections.call, State.turnsLeft, State.setDrain, hnone, if_true,
    List.map_append, List.map_cons, List.map_nil, List.sum_append, List.sum_cons, List.sum_nil]
  omega

theorem writeBandwidthMetrics_turnsLeft (clients clientId : Nat) (bytesReceived bytesSent : Int)
    (now : Nat) :
    (worker.writeBandwidthMetrics clientId bytesReceived bytesSent now).turnsLeft clients =
        worker.turnsLeft clients ∧
      (worker.writeBandwidthMetrics clientId bytesReceived bytesSent now).sent.length ≤
        worker.sent.length + 1 := by
  unfold State.writeBandwidthMetrics
  split
  · exact ⟨rfl, Nat.le_succ _⟩
  · refine ⟨rfl, ?_⟩
    simp only
    split <;> simp

theorem timeout_turnsLeft {index clients : Nat} (h : Underway config worker)
    (hnone : worker.exitCode = none) (hsize : worker.clientCache.size ≤ clients)
    (hs : worker.timeout config index = some next) :
    next.turnsLeft clients + (next.sent.length - worker.sent.length) + 1 ≤
      worker.turnsLeft clients := by
  obtain ⟨killed, ⟨delayMs, hget, rfl⟩ | ⟨hget, rfl⟩⟩ := timeout_cases hs
  · have hcounted := h.reported.counted _ (List.mem_of_getElem? hget) rfl
    simp only [State.uuids, List.length_map, OrderedMap.length_values] at hcounted
    exact killNext_turnsLeft delayMs hnone hget (hcounted.trans hsize) (Nat.le_refl _)
  · have hsum := sum_map_set hget (Drain.turnsLeft clients) ⟨.failed, killed⟩
    have hold : Drain.turnsLeft clients ⟨.signalled, killed⟩ = 1 := rfl
    have hnew : Drain.turnsLeft clients ⟨.failed, killed⟩ = 0 := rfl
    simp only [State.turnsLeft, hnone, if_true, if_neg (Option.some_ne_none 0), Nat.sub_self]
    omega

theorem haproxy_turnsLeft {index clients : Nat} {connected : Bool} (h : Underway config worker)
    (hnone : worker.exitCode = none) (hsize : worker.clientCache.size ≤ clients)
    (hs : worker.haproxy config index connected = some next) :
    next.turnsLeft clients + (next.sent.length - worker.sent.length) + 1 ≤
      worker.turnsLeft clients + if connected then 0 else 1 := by
  obtain ⟨killed, hget, ⟨rfl, _, rfl⟩ | ⟨rfl, _, rfl⟩ | ⟨rfl, rfl⟩⟩ := haproxy_cases hs
  · have hcounted := h.reported.counted _ (List.mem_of_getElem? hget) rfl
    simp only [State.uuids, List.length_map, OrderedMap.length_values] at hcounted
    exact killNext_turnsLeft _ hnone hget (hcounted.trans hsize) (Nat.sub_le _ _)
  · exact signalCluster_turnsLeft hnone hget (Nat.le_add_left 3 clients)
  · rw [failed_turnsLeft h.reported.registered hnone hget, emit_sent]
    simp [State.setDrain]

-- A turn of its own takes one of the turns that a worker has left.
theorem turnsLeft_step {event : Event Uuid} {clients : Nat} (h : Underway config worker)
    (hsize : worker.clientCache.size ≤ clients) (hs : step config worker event = some next) :
    next.turnsLeft clients + (next.sent.length - worker.sent.length) + 1 ≤
      worker.turnsLeft clients + event.cost clients := by
  obtain ⟨hnone, hstepped⟩ := step_stepped hs
  cases hstepped with
  | signal eventType =>
      have hcall := call_turnsLeft clients .body worker
      rw [emit_eq_call h.reported.registered, call_sent, Nat.sub_self, Event.cost]
      omega
  | prepareShutdown =>
      have hcall := call_turnsLeft clients worker.drainConnections worker
      rw [call_sent, Nat.sub_self, Event.cost]
      omega
  | bytecount clientId bytesReceived bytesSent now =>
      obtain ⟨hleft, hsent⟩ := writeBandwidthMetrics_turnsLeft clients clientId bytesReceived
        bytesSent now
      rw [hleft, Event.cost]
      omega
  | @haproxy _ index connected hnext =>
      have hturn := haproxy_turnsLeft h hnone hsize hnext
      cases connected <;> exact hturn
  | timeout hnext => exact timeout_turnsLeft h hnone hsize hnext
  | fatalError => simp [State.turnsLeft, Event.cost]
  | tooEarly => simp [Event.cost]
  | toggleVerbosity | ready | established =>
      change worker.turnsLeft clients + (worker.sent.length - worker.sent.length) + 1 ≤
        worker.turnsLeft clients + 1
      rw [Nat.sub_self]

def Event.establishes : Event Uuid → Bool
  | .established .. => true
  | _ => false

-- The clients that are cached are no more than those that were established.
theorem size_step {event : Event Uuid} (h : Registered worker)
    (hs : step config worker event = some next) :
    next.clientCache.size ≤ worker.clientCache.size + if event.establishes then 1 else 0 := by
  cases (step_drainStep h hs).cacheStep with
  | same hcache => rw [hcache]; exact Nat.le_add_right _ _
  | @established clientId _ _ hcache =>
      have hlength := List.length_insert (a := clientId) (l := worker.clientCache.keys)
      rw [hcache, OrderedMap.size_set, OrderedMap.size_eq_length_keys, Event.establishes,
        if_pos rfl]
      split at hlength <;> omega
  | reported hget _ hcache =>
      have hmem := (OrderedMap.mem_keys_iff worker.clientCache _).mpr (Option.isSome_of_mem hget)
      rw [hcache, OrderedMap.size_set, List.insert_of_mem hmem, OrderedMap.size_eq_length_keys]
      exact Nat.le_add_right _ _

end OpenBalenaVpn.Worker
