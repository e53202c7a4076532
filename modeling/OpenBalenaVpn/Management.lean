import OpenBalenaVpn.VpnManager.Lines
import OpenBalenaVpn.Worker.Clients

namespace OpenBalenaVpn.Management

open JsString VpnManager

section Listeners

-- What the listeners of the worker are told, but for the second at which they read the clock.
inductive Report where
  | established (clientId : Nat) (uuid : JsString)
  | bytecount (clientId : Nat) (bytesReceived bytesSent : Int)
  deriving DecidableEq

def Report.at (now : Nat) : Report → Worker.ManagementEvent JsString
  | .established clientId uuid => .established clientId uuid now
  | .bytecount clientId bytesReceived bytesSent =>
      .bytecount clientId bytesReceived bytesSent now

def natural : ParsedInt → Option Nat
  | .number false (.finite value) => some value
  | _ => none

def COMMON_NAME : JsString := utf16 "common_name".toList

-- `data.common_name`. The arguments of the block come before its env, which is `data` only
-- when there are none.
def commonName (block : VpnManager.Block) : Option JsString :=
  match block.eventArgs with
  | [] => (block.env.get COMMON_NAME).join
  | _ :: _ => none

-- The worker listens to 'client:established' and 'client:bytecount'; its listener of 'log'
-- only writes. Left out is what it does with an id or a count that is no natural number and
-- with a client that has no common name.
def heard : VpnManager.Event → Option (Option Report)
  | .log _ _ => some none
  | .client block =>
      match block.eventType with
      | .ESTABLISHED => do
          let clientId ← natural block.clientId
          let uuid ← commonName block
          some (some (.established clientId uuid))
      | .CONNECT | .ADDRESS | .DISCONNECT => some none
  | .bytecount clientId bytes_received bytes_sent => do
      let clientId ← natural clientId
      let bytesReceived ← natural bytes_received
      let bytesSent ← natural bytes_sent
      some (some (.bytecount clientId bytesReceived bytesSent))

end Listeners

-- A worker with its end of the management interface. The clock gives the second of each
-- reading, and `readings` is how many there were.
structure State where
  connector : Connector
  manager : VpnManager.State
  worker : Worker.State JsString
  readings : Nat

def initial (verbose : Bool) : State := ⟨.init, VpnManager.init verbose, .initial verbose, 0⟩

section Step

variable (config : Worker.Config) (clock : Nat → Nat)

def hear (state : State) (event : VpnManager.Event) : Option State := do
  match ← heard event with
  | none => some state
  | some report =>
      let worker ← state.worker.receive config (report.at (clock state.readings))
      some { state with worker, readings := state.readings + 1 }

-- A 'manager:data' of the connector, and the events that the manager emits for it. Its
-- emits are nested two deep at most.
def onLine (state : State) (line : JsString) : Option State := do
  let manager ← Emitter.emit VpnManager.State.listeners call 2 line state.manager
  Transition.run (hear config clock) { state with manager }
    (manager.events.drop state.manager.events.length)

def onData (state : State) (data : List UInt8) : Option State :=
  let connector := state.connector.onData data
  Transition.run (onLine config clock) { state with connector }
    (connector.lines.drop state.connector.lines.length)

end Step

-- The event of the worker that a report of the manager makes.
def reported : Worker.Event JsString → Option (Worker.ManagementEvent JsString)
  | .established clientId uuid now => some (.established clientId uuid now)
  | .bytecount clientId bytesReceived bytesSent now =>
      some (.bytecount clientId bytesReceived bytesSent now)
  | .signal _ | .prepareShutdown | .toggleVerbosity | .ready | .fatalError | .haproxy _ _
  | .timeout _ => none

-- A buffer comes from the management interface, or something else happens to the worker.
inductive Event where
  | data (bytes : List UInt8)
  | other (event : Worker.Event JsString)

def step (config : Worker.Config) (clock : Nat → Nat) (state : State) : Event → Option State
  | .data bytes =>
      if state.worker.exitCode.isSome then none else onData config clock state bytes
  | .other event =>
      if (reported event).isSome then none
      else (Worker.step config state.worker event).map fun worker => { state with worker }

end OpenBalenaVpn.Management
