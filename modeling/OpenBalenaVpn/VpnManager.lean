import OpenBalenaVpn.Foundation.Emitter
import OpenBalenaVpn.Foundation.JsString
import OpenBalenaVpn.Foundation.OrderedMap

namespace OpenBalenaVpn.VpnManager

open JsString

section Events

inductive LogLevel where
  | debug
  | info
  | notice
  | warning
  | error
  | emerg
  deriving DecidableEq

def VpnLogLevels : List (JsString × LogLevel) :=
  [(utf16 ['D'], .debug), (utf16 ['I'], .info), (utf16 ['n'], .notice), (utf16 ['W'], .warning),
    (utf16 ['N'], .error), (utf16 ['F'], .emerg)]

-- The properties that every object has.
def objectPrototype : List JsString :=
  ["constructor", "__defineGetter__", "__defineSetter__", "hasOwnProperty", "__lookupGetter__",
    "__lookupSetter__", "isPrototypeOf", "propertyIsEnumerable", "toString", "valueOf",
    "__proto__", "toLocaleString"].map fun name => utf16 name.toList

-- What a lookup in VpnLogLevels gives.
inductive Level where
  | named (level : LogLevel)
  | inherited (name : JsString)
  | undefined
  deriving DecidableEq

-- `VpnLogLevels[level || 'n']`
def lookupLevel : Option JsString → Level
  | none | some [] => .named .notice
  | some level => match getEntry level VpnLogLevels with
    | some named => .named named
    | none => if level ∈ objectPrototype then .inherited level else .undefined

inductive EventType where
  | ESTABLISHED
  | CONNECT
  | ADDRESS
  | DISCONNECT
  deriving DecidableEq

def EventType.text : EventType → String
  | ESTABLISHED => "ESTABLISHED"
  | CONNECT => "CONNECT"
  | ADDRESS => "ADDRESS"
  | DISCONNECT => "DISCONNECT"

def eventTypes : List EventType := [.ESTABLISHED, .CONNECT, .ADDRESS, .DISCONNECT]

-- An object that is used as a map. A value may be undefined.
abbrev Env := OrderedMap JsString (Option JsString)

def PROTO : JsString := utf16 "__proto__".toList

-- `env[key] = val`. The prototype of an object does not change to a string.
def assign (env : Env) (key : JsString) (val : Option JsString) : Env :=
  if key = PROTO then env else env.set key val

-- The variables of a closure of clientEventEmitterFactory.
structure Block where
  eventType : EventType
  clientId : ParsedInt
  eventArgs : List JsString
  env : Env

-- 'log', a client event with the name of its type in lower case, and 'client:bytecount'.
inductive Event where
  | log (level : Level) (message : JsString)
  | client (block : Block)
  | bytecount (clientId bytes_received bytes_sent : ParsedInt)

end Events

-- The listeners of 'manager:data': console.debug, dataHandler, and the closures of
-- clientEventEmitterFactory by number.
inductive Listener where
  | debug
  | dataHandler
  | emitter (id : Nat)
  deriving DecidableEq

structure State where
  listeners : List Listener
  closures : List Block
  events : List Event

def init (debug : Bool) : State where
  listeners := (if debug then [.debug] else []) ++ [.dataHandler]
  closures := []
  events := []

namespace State

def on (state : State) (listener : Listener) : State :=
  { state with listeners := Emitter.subscribe listener state.listeners }

def off (state : State) (listener : Listener) : State :=
  { state with listeners := Emitter.unsubscribe listener state.listeners }

def emitEvent (state : State) (event : Event) : State :=
  { state with events := state.events ++ [event] }

end State

section Handlers

-- `parseInt` of a piece that may be missing: the text undefined is not a number.
def parsePiece : Option JsString → ParsedInt
  | none => .nan
  | some piece => parseInt piece

-- The new closure, under the next number.
def clientEventEmitterFactory (eventType : EventType) (clientId : ParsedInt)
    (eventArgs : List JsString) (state : State) : Listener × State :=
  (.emitter state.closures.length,
    { state with closures := state.closures ++ [⟨eventType, clientId, eventArgs, .empty⟩] })

def dataHandler (data : JsString) (state : State) : State :=
  if startsWith data ">LOG:" then
    -- >LOG:{timestamp},{level},{message}
    let logData := split (data.drop 5) ','
    state.emitEvent (.log (lookupLevel logData[1]?) (join (logData.drop 2) ','))
  else if startsWith data ">CLIENT:" then
    -- >CLIENT:{event},{clientId},{...args}
    let eventData := data.drop 8
    match eventTypes.find? fun eventType => startsWith eventData eventType.text with
    | some eventType =>
        let pieces := split (eventData.drop (eventType.text.length + 1)) ','
        let (emitter, state) := clientEventEmitterFactory eventType (parsePiece pieces.head?)
          pieces.tail (state.off .dataHandler)
        state.on emitter
    | none => state
  else if startsWith data ">BYTECOUNT_CLI:" then
    -- >BYTECOUNT_CLI:{clientId},{bytesRx},{bytesTx}
    let pieces := split (data.drop 15) ','
    state.emitEvent
      (.bytecount (parsePiece pieces[0]?) (parsePiece pieces[1]?) (parsePiece pieces[2]?))
  else state

def ENV_END : JsString := utf16 ">CLIENT:ENV,END".toList

-- `const [key, val] = envData.split('=')`
def readEnv (data : JsString) (env : Env) : Env :=
  let pieces := split (data.drop 12) '='
  assign env (pieces.head?.getD []) pieces[1]?

-- A call of a closure. `reemit` is an emit of 'manager:data'.
def emitter (reemit : JsString → State → Option State) (id : Nat) (data : JsString)
    (state : State) : Option State :=
  match state.closures[id]? with
  | none => some state
  | some block =>
      if startsWith data ">CLIENT:ENV" ∧ data ≠ ENV_END then
        some { state with
          closures := state.closures.set id { block with env := readEnv data block.env } }
      else
        let state := ((state.off (.emitter id)).on .dataHandler).emitEvent (.client block)
        if data ≠ ENV_END then reemit data state else some state

def call (reemit : JsString → State → Option State) (listener : Listener) (data : JsString)
    (state : State) : Option State :=
  match listener with
  | .debug => some state
  | .dataHandler => some (dataHandler data state)
  | .emitter id => emitter reemit id data state

-- The lines of the management interface, one 'manager:data' for each. The fuel bounds
-- how deep the emits of one line are nested.
def receive (fuel : Nat) (debug : Bool) (lines : List JsString) : Option State :=
  Transition.run (fun state data => Emitter.emit State.listeners call fuel data state)
    (init debug) lines

end Handlers

end OpenBalenaVpn.VpnManager
