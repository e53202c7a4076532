import OpenBalenaVpn.Foundation.Program.Runs
import OpenBalenaVpn.Proxy.Chain

namespace OpenBalenaVpn.Proxy

open Program

section Errors

-- The classes of errors.ts, and any other error.
inductive Error where
  | api (message : Text)
  | badRequest
  | handledTunneling (message : Text)
  | remoteTunnelling (message : Text)
  | invalidHostname (message : Text)
  | other (message : Text)

def Error.message : Error → Text
  | api message => message
  | badRequest => []
  | handledTunneling message => message
  | remoteTunnelling message => message
  | invalidHostname message => message
  | other message => message

def TunnelError.toError : TunnelError → Error
  | badRequest => .badRequest
  | invalidHostname message => .invalidHostname message
  | handledTunneling message => .handledTunneling message

end Errors

section Commands

-- An answer of the API that is an error, with its status where it has one.
structure ApiFailure where
  statusCode : Option Nat
  message : Text

-- How the promise of `forwardRequest` is rejected: by the code itself, or otherwise.
inductive ForwardFailure where
  | remoteTunnelling (message : Text)
  | other (message : Text)

-- The steps of `tunnelToDevice` and `connect` that others take: the cached access check,
-- the queries, the DNS, node-tunnel's own `connect`, the clock, and the client.
inductive Command (Address : Type) where
  | canAccessDevice (uuid : Text) (port : Number) (auth : Option (List UInt8))
  | isDeviceConnectedToVpnQuery (id : Nat)
  | lookup (hostname : Text)
  | serviceInstances (uuid : Text) (auth : Option (List UInt8))
  | setTimeout
  | superConnect (port : Number) (host : Text)
  | forwardRequest (vpnHost : Address) (uuid : Text) (port : Number) (auth : Option (List UInt8))
  | setForwarded (forwarded : Text)
  | clientEnd (response : Text)
  | next (req : Request)

-- An access check that is false or has no id is none. Of a device only its existence counts.
def Reply (Address Socket : Type) : Command Address → Type
  | .canAccessDevice _ _ _ => Option Nat
  | .isDeviceConnectedToVpnQuery _ => Except Text Bool
  | .lookup _ => Bool
  | .serviceInstances _ _ => Except ApiFailure (List (Nat × Address))
  | .setTimeout => Unit
  | .superConnect _ _ => Except Text Socket
  | .forwardRequest _ _ _ _ => Except ForwardFailure Socket
  | .setForwarded _ => Unit
  | .clientEnd _ => Unit
  | .next _ => Unit

end Commands

variable {Address Socket : Type}

abbrev Tunneling (Address Socket α : Type) : Type :=
  ExceptT Error (Program (Command Address) (Reply Address Socket)) α

abbrev Calls (Address Socket : Type) : Type :=
  List (Call (Command Address) (Reply Address Socket))

namespace Tunnel

section Steps

def canAccessDevice (uuid : Text) (port : Number) (auth : Option (List UInt8)) :
    Tunneling Address Socket (Option Nat) :=
  perform (Command.canAccessDevice uuid port auth)

def isDeviceConnectedToVpnQuery (id : Nat) : Tunneling Address Socket (Except Text Bool) :=
  perform (Command.isDeviceConnectedToVpnQuery id)

def lookup (hostname : Text) : Tunneling Address Socket Bool := perform (Command.lookup hostname)

def serviceInstances (uuid : Text) (auth : Option (List UInt8)) :
    Tunneling Address Socket (Except ApiFailure (List (Nat × Address))) :=
  perform (Command.serviceInstances uuid auth)

def setTimeout : Tunneling Address Socket Unit := perform Command.setTimeout

def superConnect (port : Number) (host : Text) : Tunneling Address Socket (Except Text Socket) :=
  perform (Command.superConnect port host)

def openForward (vpnHost : Address) (uuid : Text) (port : Number) (auth : Option (List UInt8)) :
    Tunneling Address Socket (Except ForwardFailure Socket) :=
  perform (Command.forwardRequest vpnHost uuid port auth)

def setForwarded (forwarded : Text) : Tunneling Address Socket Unit :=
  perform (Command.setForwarded forwarded)

def clientEnd (response : Text) : Tunneling Address Socket Unit :=
  perform (Command.clientEnd response)

def next (req : Request) : Tunneling Address Socket Unit := perform (Command.next req)

end Steps

section Device

def isDeviceConnectedToVpn (id : Nat) : Tunneling Address Socket Bool := do
  match ← isDeviceConnectedToVpnQuery id with
  | .ok device => pure device
  | .error message => throw (.api message)

-- The first instance, undefined, or false where it cannot be looked up.
inductive VpnHost (Address : Type) where
  | service (id : Nat) (ip_address : Address)
  | undefined
  | unauthorized

def getDeviceVpnHost (uuid : Text) (auth : Option (List UInt8)) :
    Tunneling Address Socket (VpnHost Address) := do
  match ← serviceInstances uuid auth with
  | .ok [] => pure .undefined
  | .ok ((id, ip_address) :: _) => pure (.service id ip_address)
  | .error ⟨statusCode, message⟩ =>
      if statusCode = some 401 then pure .unauthorized
      else throw (.api ("cannot find device vpn host (".toList ++ message ++ [')']))

end Device

section Middleware

def parse (req : Request) : Tunneling Address Socket Target :=
  match parseRequest req with
  | .ok target => pure target
  | .error error => throw error.toError

def HTTP_400 : Text := "HTTP/1.0 400 Bad Request\r\n\r\n".toList

def HTTP_403 : Text := "HTTP/1.0 403 Forbidden\r\n\r\n".toList

def HTTP_407 : Text := "HTTP/1.0 407 Proxy Authorization Required\r\n\r\n".toList

def HTTP_503 : Text := "HTTP/1.0 503 Service Unavailable\r\n\r\n".toList

def authorize (req : Request) : Tunneling Address Socket Unit := do
  let ⟨uuid, port, auth⟩ ← parse req
  match ← canAccessDevice uuid port auth with
  | none | some 0 => do
      clientEnd HTTP_407
      throw (.handledTunneling ("device not accessible: ".toList ++ uuid))
  | some deviceId => do
      if ← isDeviceConnectedToVpn deviceId then
        next { req with url := some (uuid ++ ".vpn:".toList ++ port.text) }
      else do
        clientEnd HTTP_503
        throw (.handledTunneling ("device not available: ".toList ++ uuid))

def refuse : Error → Tunneling Address Socket Unit
  | .api _ => clientEnd HTTP_500
  | .badRequest => clientEnd HTTP_400
  | .handledTunneling _ => pure ()
  | .invalidHostname _ => clientEnd HTTP_403
  | _ => clientEnd HTTP_500

def tunnelToDevice (req : Request) : Tunneling Address Socket Unit :=
  tryCatch (authorize req) refuse

end Middleware

section Connect

def deviceIsLocal (uuid : Text) : Tunneling Address Socket Bool :=
  lookup (uuid ++ ".vpn".toList)

def localConnect (port : Number) (host : Text) : Tunneling Address Socket Socket := do
  match ← superConnect port host with
  | .ok socket => pure socket
  | .error message => throw (.other message)

-- The client is ended before the error is thrown.
def endAndThrow (message : Text) : Tunneling Address Socket Socket := do
  clientEnd HTTP_500
  throw (.handledTunneling message)

def retry (port : Number) (host uuid : Text) : Tunneling Address Socket Socket := do
  setTimeout
  if ← deviceIsLocal uuid then localConnect port host
  else endAndThrow "device is not available on registered service instance".toList

def forwardRequest (vpnHost : Address) (uuid : Text) (port : Number)
    (auth : Option (List UInt8)) : Tunneling Address Socket Socket := do
  match ← openForward vpnHost uuid port auth with
  | .ok socket => pure socket
  | .error (.remoteTunnelling message) => throw (.remoteTunnelling message)
  | .error (.other message) => throw (.other message)

def relayTo (serviceId : Nat) (port : Number) (host : Text) (req : Request) (uuid : Text)
    (auth : Option (List UInt8)) (id : Nat) (ip_address : Address) :
    Tunneling Address Socket Socket :=
  if id = serviceId then retry port host uuid
  else match extendForwarded serviceId (req.headers.get "forwarded".toList) with
    | none => endAndThrow "loop detected forwarding tunnel request".toList
    | some forwarded => do
        setForwarded forwarded
        forwardRequest ip_address uuid port auth

def relay (serviceId : Nat) (port : Number) (host : Text) (req : Request) (uuid : Text)
    (auth : Option (List UInt8)) : Tunneling Address Socket Socket := do
  if ← deviceIsLocal uuid then localConnect port host
  else match ← getDeviceVpnHost uuid auth with
    | .undefined => endAndThrow "service instance not found for device".toList
    | .unauthorized => retry port host uuid
    | .service id ip_address => relayTo serviceId port host req uuid auth id ip_address

def giveUp : Error → Tunneling Address Socket Socket
  | .remoteTunnelling message => endAndThrow message
  | .handledTunneling message => throw (.handledTunneling message)
  | error => endAndThrow error.message

-- The port and the host are those that node-tunnel passes on.
def connect (serviceId : Nat) (port : Number) (host : Text) (req : Request) :
    Tunneling Address Socket Socket := do
  let ⟨uuid, _, auth⟩ ← parse req
  tryCatch (relay serviceId port host req uuid auth) giveUp

end Connect

section Effects

-- What the client and the middleware after this one see.
inductive Effect where
  | next (req : Request)
  | ended (response : Text)

def effect : Command Address → Option Effect
  | .next req => some (.next req)
  | .clientEnd response => some (.ended response)
  | _ => none

def effects (calls : Calls Address Socket) : List Effect :=
  calls.filterMap fun call => effect call.command

@[simp] theorem effects_append (before after : Calls Address Socket) :
    effects (before ++ after) = effects before ++ effects after := List.filterMap_append

end Effects

end Tunnel

end OpenBalenaVpn.Proxy
