import OpenBalenaVpn.Worker
import OpenBalenaVpn.Foundation.Transition

namespace OpenBalenaVpn.Worker

open Transition

variable {Uuid : Type}

section Management

-- The client events of the management interface that tell of established clients.
inductive ManagementEvent (Uuid : Type) where
  | established (clientId : Nat) (uuid : Uuid) (now : Nat)
  | bytecount (clientId : Nat) (bytesReceived bytesSent : Int) (now : Nat)
  | disconnect (clientId : Nat)

-- The event that a listener of the worker handles. Nothing listens to 'client:disconnect'.
def ManagementEvent.handled : ManagementEvent Uuid → Option (Event Uuid)
  | .established clientId uuid now => some (.established clientId uuid now)
  | .bytecount clientId bytesReceived bytesSent now =>
      some (.bytecount clientId bytesReceived bytesSent now)
  | .disconnect _ => none

def State.receive (config : Config) (worker : State Uuid) (event : ManagementEvent Uuid) :
    Option (State Uuid) :=
  match event.handled with
  | some event => step config worker event
  | none => some worker

def afterEvents (config : Config) (verbose : Bool) (events : List (ManagementEvent Uuid)) :
    Option (State Uuid) :=
  Transition.run (State.receive config) (.initial verbose) events

-- The clients that are established and not yet disconnected.
def connectedNext (clients : List Nat) : ManagementEvent Uuid → List Nat
  | .established clientId _ _ =>
      if clientId ∈ clients then clients else clients ++ [clientId]
  | .bytecount _ _ _ _ => clients
  | .disconnect clientId => clients.filter (· ≠ clientId)

def connected (events : List (ManagementEvent Uuid)) : List Nat := events.foldl connectedNext []

-- The cache has the connected clients, and a drain counts as many.
def CacheExact (config : Config) (verbose : Bool) (events : List (ManagementEvent Uuid)) : Prop :=
  ∃ worker, afterEvents config verbose events = some worker ∧
    (∀ clientId, clientId ∈ worker.clientCache.keys ↔ clientId ∈ connected events) ∧
    worker.clientCache.size = (connected events).length

end Management

section Cache

variable {config : Config} {verbose : Bool}

theorem connected_concat (events : List (ManagementEvent Uuid)) (event : ManagementEvent Uuid) :
    connected (events ++ [event]) = connectedNext (connected events) event := by
  simp [connected]

theorem afterEvents_concat {events : List (ManagementEvent Uuid)} {worker : State Uuid}
    (h : afterEvents config verbose events = some worker) (event : ManagementEvent Uuid) :
    afterEvents config verbose (events ++ [event]) = worker.receive config event := by
  rw [afterEvents, run_append, ← afterEvents, h, Option.bind_some, run_singleton]

theorem writeBandwidthMetrics_keys (worker : State Uuid) (clientId : Nat)
    (bytesReceived bytesSent : Int) (now : Nat) :
    (worker.writeBandwidthMetrics clientId bytesReceived bytesSent now).clientCache.keys =
        worker.clientCache.keys ∧
      (worker.writeBandwidthMetrics clientId bytesReceived bytesSent now).exitCode =
        worker.exitCode := by
  unfold State.writeBandwidthMetrics
  split
  · exact ⟨rfl, rfl⟩
  · rename_i clientEntry hentry
    have hkey : clientId ∈ worker.clientCache.keys := by
      rw [OrderedMap.mem_keys_iff, hentry]
      rfl
    refine ⟨?_, rfl⟩
    simp only [OrderedMap.keys_set, if_pos hkey]

theorem writeBandwidthMetrics_of_none {worker : State Uuid} {clientId : Nat}
    (h : worker.clientCache.get clientId = none) (bytesReceived bytesSent : Int) (now : Nat) :
    worker.writeBandwidthMetrics clientId bytesReceived bytesSent now = worker := by
  rw [State.writeBandwidthMetrics, h]

theorem writeBandwidthMetrics_of_get {worker : State Uuid} {clientId : Nat}
    {entry : ClientEntry Uuid} (h : worker.clientCache.get clientId = some entry)
    (bytesReceived bytesSent : Int) (now : Nat) :
    worker.writeBandwidthMetrics clientId bytesReceived bytesSent now = { worker with
      rxBytes := worker.rxBytes.add (entry.rxDelta bytesReceived)
      txBytes := worker.txBytes.add (entry.txDelta bytesSent)
      sent := if (now : Int) - entry.ts > 0 then
          worker.sent ++ [.bitrate entry.uuid
            ((bytesReceived - entry.bytesReceived : Int) * 8 / ((now : Int) - entry.ts : Int))
            ((bytesSent - entry.bytesSent : Int) * 8 / ((now : Int) - entry.ts : Int))]
        else worker.sent
      clientCache := worker.clientCache.set clientId
        ⟨entry.uuid, now, bytesReceived, bytesSent⟩ } := by
  rw [State.writeBandwidthMetrics, h]

-- What an event does to the keys of the cache.
def cachedNext (keys : List Nat) : ManagementEvent Uuid → List Nat
  | .disconnect _ => keys
  | event => connectedNext keys event

theorem receive_keys {worker : State Uuid} (h : worker.exitCode = none)
    (event : ManagementEvent Uuid) : ∃ next, worker.receive config event = some next ∧
      next.exitCode = none ∧ next.clientCache.keys = cachedNext worker.clientCache.keys event := by
  have hstep : worker.exitCode.isSome = false := by rw [h]; rfl
  cases event with
  | established clientId uuid now =>
      refine ⟨worker.established clientId uuid now, ?_, h, OrderedMap.keys_set _ _ _⟩
      simp [State.receive, ManagementEvent.handled, step, hstep]
  | bytecount clientId bytesReceived bytesSent now =>
      obtain ⟨hkeys, hexit⟩ :=
        writeBandwidthMetrics_keys worker clientId bytesReceived bytesSent now
      refine ⟨worker.writeBandwidthMetrics clientId bytesReceived bytesSent now, ?_,
        hexit.trans h, hkeys⟩
      simp [State.receive, ManagementEvent.handled, step, hstep]
  | disconnect clientId => exact ⟨worker, rfl, h, rfl⟩

-- The cache follows the clients as long as none of them has disconnected.
def Follows (config : Config) (verbose : Bool) (events : List (ManagementEvent Uuid)) : Prop :=
  ∃ worker, afterEvents config verbose events = some worker ∧ worker.exitCode = none ∧
    worker.clientCache.keys = connected events

theorem Follows.exact {events : List (ManagementEvent Uuid)}
    (h : Follows config verbose events) : CacheExact config verbose events := by
  obtain ⟨worker, hworker, _, hkeys⟩ := h
  refine ⟨worker, hworker, fun clientId => by rw [hkeys], ?_⟩
  rw [OrderedMap.size_eq_length_keys, hkeys]

theorem Follows.concat {events : List (ManagementEvent Uuid)} {event : ManagementEvent Uuid}
    (h : Follows config verbose events)
    (hevent : ∀ clientId, event = .disconnect clientId → clientId ∉ connected events) :
    Follows config verbose (events ++ [event]) := by
  obtain ⟨worker, hworker, hexit, hkeys⟩ := h
  obtain ⟨next, hnext, hstill, hafter⟩ := receive_keys hexit event
  refine ⟨next, (afterEvents_concat hworker event).trans hnext, hstill, ?_⟩
  rw [hafter, connected_concat, hkeys]
  cases event with
  | established | bytecount => rfl
  | disconnect clientId =>
      have habsent : ∀ other ∈ connected events, other ≠ clientId := fun other ho he =>
        hevent clientId rfl (he ▸ ho)
      exact (List.filter_eq_self.mpr fun other ho => by simpa using habsent other ho).symm

-- A client that disconnects stays in the cache.
theorem Follows.not_exact {events : List (ManagementEvent Uuid)} {clientId : Nat}
    (h : Follows config verbose events) (hconnected : clientId ∈ connected events) :
    ¬CacheExact config verbose (events ++ [.disconnect clientId]) := by
  rintro ⟨next, hnext, hkeys, _⟩
  obtain ⟨worker, hworker, _, hcached⟩ := h
  rw [afterEvents_concat hworker] at hnext
  obtain rfl : worker = next := Option.some.inj hnext
  have hgone := (hkeys clientId).mp (hcached ▸ hconnected)
  rw [connected_concat, connectedNext] at hgone
  simp at hgone

end Cache

section Theorems

-- After each event the cache is exact if and only if no established client disconnects.
theorem cacheExact_iff (config : Config) (verbose : Bool) (events : List (ManagementEvent Uuid)) :
    Always (fun before event => CacheExact config verbose (before ++ [event])) events ↔
      Always (fun before event => ∀ clientId, event = .disconnect clientId →
        clientId ∉ connected before) events := by
  have hinit : Follows config verbose ([] : List (ManagementEvent Uuid)) := ⟨_, rfl, rfl, rfl⟩
  refine always_iff_always hinit (fun _ _ h hevent => h.concat hevent)
    (fun before event h => ?_) events
  refine ⟨fun hexact clientId hdisconnect hconnected => ?_, fun hevent => (h.concat hevent).exact⟩
  subst hdisconnect
  exact h.not_exact hconnected hexact

-- A client that was there and left: a drain counts it and kills it.
theorem drains_disconnected :
    ¬Always (fun before event => CacheExact ⟨1, 30000, 100⟩ false (before ++ [event]))
        [.established 7 "c0ffee" 0, .disconnect 7] ∧
      ∃ worker drained, afterEvents ⟨1, 30000, 100⟩ false
          [.established 7 "c0ffee" 0, .disconnect 7] = some worker ∧
        connected [.established 7 "c0ffee" 0, .disconnect 7] = [] ∧
        Transition.run (step ⟨1, 30000, 100⟩) worker [.signal .SIGTERM, .haproxy 0 true] =
          some drained ∧
        drained.drains.map (·.killed) = [["c0ffee"]] := by
  refine ⟨fun h => ?_, _, _, rfl, rfl, rfl, rfl⟩
  have hexact := h [.established 7 "c0ffee" 0] (.disconnect 7) [] rfl
  obtain ⟨worker, hworker, hkeys, _⟩ := hexact
  obtain rfl := Option.some.inj hworker
  exact absurd ((hkeys 7).mp (by decide)) (by decide)

end Theorems

end OpenBalenaVpn.Worker
