import OpenBalenaVpn.Foundation.JsString.Numbers
import OpenBalenaVpn.Foundation.OrderedMap
import Mathlib.Algebra.Order.Field.Rat

namespace OpenBalenaVpn.Worker

variable {Uuid : Type}

structure ClientEntry (Uuid : Type) where
  uuid : Uuid
  ts : Nat
  bytesReceived : Int
  bytesSent : Int
  deriving DecidableEq

-- What `parseInt` makes of a byte count. The manager has parsed it before, and so its text
-- is that of a number.
def byteCount (bytes : Int) : Double := (Double.ofInt bytes).reparse

def ClientEntry.rxDelta (clientEntry : ClientEntry Uuid) (bytesReceived : Int) : Double :=
  (byteCount bytesReceived).sub (byteCount clientEntry.bytesReceived)

def ClientEntry.txDelta (clientEntry : ClientEntry Uuid) (bytesSent : Int) : Double :=
  (byteCount bytesSent).sub (byteCount clientEntry.bytesSent)

-- What a worker sends to the primary.
inductive Message (Uuid : Type) where
  | bitrate (uuid : Uuid) (rxBitrate txBitrate : ℚ)
  | drain (instanceId : Nat) (finished : Bool)
  deriving DecidableEq

-- A value of the variable `drainConnections`: the function it is declared with, or
-- the one that its first call assigns.
inductive DrainConnections where
  | body
  | noop
  deriving DecidableEq

inductive EventType where
  | SIGINT
  | uncaughtException
  | SIGTERM
  deriving DecidableEq

-- Where a call of the body stands: awaiting the HAProxy socket, the delay after a
-- kill, or the last timeout before it exits. A call that HAProxy failed is over.
inductive DrainPhase where
  | connecting
  | killing (delayMs : ℚ)
  | signalled
  | failed
  deriving DecidableEq

-- A call of the body, with the uuids it has passed to `killClient` so far.
structure Drain (Uuid : Type) where
  phase : DrainPhase
  killed : List Uuid
  deriving DecidableEq

structure Config where
  instanceId : Nat
  DEFAULT_SIGTERM_TIMEOUT : Int
  MAXIMUM_DRAIN_DELAY : Int

-- A worker process. The counters are the metrics RxBytes and TxBytes, and
-- `preparesShutdown` says that the second 'message' listener is registered.
structure State (Uuid : Type) where
  verbose : Bool
  drainConnections : DrainConnections
  handlers : List (EventType × DrainConnections)
  preparesShutdown : Bool
  clientCache : OrderedMap Nat (ClientEntry Uuid)
  rxBytes : Double
  txBytes : Double
  drains : List (Drain Uuid)
  sent : List (Message Uuid)
  exitCode : Option Nat

-- The loop that registers `drainConnections` reads the variable before any call.
def State.initial (verbose : Bool) : State Uuid where
  verbose
  drainConnections := .body
  handlers := [.SIGINT, .uncaughtException, .SIGTERM].map fun eventType => (eventType, .body)
  preparesShutdown := false
  clientCache := .empty
  rxBytes := .ofInt 0
  txBytes := .ofInt 0
  drains := []
  sent := []
  exitCode := none

def DrainConnections.call : DrainConnections → State Uuid → State Uuid
  | .body, worker => { worker with
      drainConnections := .noop
      drains := worker.drains ++ [⟨.connecting, []⟩] }
  | .noop, worker => worker

def State.emit (worker : State Uuid) (eventType : EventType) : State Uuid :=
  worker.handlers.foldl (fun worker (registered, listener) =>
    if registered = eventType then listener.call worker else worker) worker

def State.setDrain (worker : State Uuid) (index : Nat) (drain : Drain Uuid) : State Uuid :=
  { worker with drains := worker.drains.set index drain }

def State.signalCluster (config : Config) (worker : State Uuid) (index : Nat)
    (drain : Drain Uuid) : State Uuid :=
  { worker.setDrain index { drain with phase := .signalled } with
    sent := worker.sent ++ [.drain config.instanceId true] }

-- The loop over the cached clients: it goes on to the next one, or ends. The
-- iterator sees the clients that are cached while the loop waits.
def State.killNext (config : Config) (worker : State Uuid) (index : Nat) (drain : Drain Uuid)
    (delayMs : ℚ) : State Uuid :=
  match worker.clientCache.values[drain.killed.length]? with
  | some entry => worker.setDrain index ⟨.killing delayMs, drain.killed ++ [entry.uuid]⟩
  | none => worker.signalCluster config index drain

def delayMs (config : Config) (clientCount : Nat) : ℚ :=
  min config.MAXIMUM_DRAIN_DELAY (config.DEFAULT_SIGTERM_TIMEOUT / clientCount)

-- The connection to HAProxy settles. A failure rejects the promise of the call,
-- which nobody handles, and node raises that as an uncaughtException, as long as nothing
-- listens for unhandled rejections.
def State.haproxy (config : Config) (worker : State Uuid) (index : Nat) (connected : Bool) :
    Option (State Uuid) :=
  match worker.drains[index]? with
  | some ⟨.connecting, killed⟩ =>
      if connected then
        let clientCount := worker.clientCache.size
        if clientCount > 0 then
          some (worker.killNext config index ⟨.connecting, killed⟩ (delayMs config clientCount))
        else some (worker.signalCluster config index ⟨.connecting, killed⟩)
      else some ((worker.setDrain index ⟨.failed, killed⟩).emit .uncaughtException)
  | _ => none

-- A timer of a call of the body fires.
def State.timeout (config : Config) (worker : State Uuid) (index : Nat) : Option (State Uuid) :=
  match worker.drains[index]? with
  | some ⟨.killing delayMs, killed⟩ =>
      some (worker.killNext config index ⟨.killing delayMs, killed⟩ delayMs)
  | some ⟨.signalled, _⟩ => some { worker with exitCode := some 0 }
  | _ => none

def State.established (worker : State Uuid) (clientId : Nat) (uuid : Uuid) (now : Nat) :
    State Uuid :=
  { worker with clientCache := worker.clientCache.set clientId ⟨uuid, now, 0, 0⟩ }

-- The counters are doubles. The bitrates are exact.
def State.writeBandwidthMetrics (worker : State Uuid) (clientId : Nat)
    (bytesReceived bytesSent : Int) (now : Nat) : State Uuid :=
  match worker.clientCache.get clientId with
  | none => worker
  | some clientEntry =>
      let rxDelta := bytesReceived - clientEntry.bytesReceived
      let txDelta := bytesSent - clientEntry.bytesSent
      let timeDelta : Int := now - clientEntry.ts
      { worker with
        rxBytes := worker.rxBytes.add (clientEntry.rxDelta bytesReceived)
        txBytes := worker.txBytes.add (clientEntry.txDelta bytesSent)
        sent := if timeDelta > 0 then
            worker.sent ++
              [.bitrate clientEntry.uuid (rxDelta * 8 / timeDelta) (txDelta * 8 / timeDelta)]
          else worker.sent
        clientCache := worker.clientCache.set clientId
          ⟨clientEntry.uuid, now, bytesReceived, bytesSent⟩ }

inductive Event (Uuid : Type) where
  | signal (eventType : EventType)
  | prepareShutdown
  | toggleVerbosity
  | ready
  | fatalError
  | established (clientId : Nat) (uuid : Uuid) (now : Nat)
  | bytecount (clientId : Nat) (bytesReceived bytesSent : Int) (now : Nat)
  | haproxy (index : Nat) (connected : Bool)
  | timeout (index : Nat)
  deriving DecidableEq

-- One turn of the worker's event loop. The worker is `ready` when the startup in
-- the `try` block is done and the second 'message' listener gets registered.
def step (config : Config) (worker : State Uuid) (event : Event Uuid) : Option (State Uuid) :=
  if worker.exitCode.isSome then none
  else match event with
    | .signal eventType => some (worker.emit eventType)
    | .prepareShutdown =>
        some (if worker.preparesShutdown then worker.drainConnections.call worker else worker)
    | .toggleVerbosity => some { worker with verbose := !worker.verbose }
    | .ready =>
        if worker.preparesShutdown then none else some { worker with preparesShutdown := true }
    | .fatalError => some { worker with exitCode := some 1 }
    | .established clientId uuid now => some (worker.established clientId uuid now)
    | .bytecount clientId bytesReceived bytesSent now =>
        some (worker.writeBandwidthMetrics clientId bytesReceived bytesSent now)
    | .haproxy index connected => worker.haproxy config index connected
    | .timeout index => worker.timeout config index

end OpenBalenaVpn.Worker
