import OpenBalenaVpn.Foundation.Http
import OpenBalenaVpn.Foundation.Number
import OpenBalenaVpn.Foundation.Base64
import Mathlib.Data.List.Infix

namespace OpenBalenaVpn.Proxy

-- A request as node-tunnel hands it over, with the password of `req.auth`.
structure Request where
  url : Option Text
  headers : OrderedMap Text Text
  password : Option Text

inductive TunnelError where
  | badRequest
  | invalidHostname (message : Text)
  | handledTunneling (message : Text)
  deriving DecidableEq

structure Target where
  uuid : Text
  port : Number
  auth : Option (List UInt8)
  deriving DecidableEq

def HTTP_500 : Text := "HTTP/1.0 500 Internal Server Error\r\n\r\n".toList

section ParseRequest

def isHexDigit (c : Char) : Bool :=
  c.isDigit || ('a' ≤ c && c ≤ 'f') || ('A' ≤ c && c ≤ 'F')

-- /^([a-fA-F0-9]+)\.(balena|resin|vpn)(?::([0-9]+))?$/. The digits end at the dot,
-- which is none of them, and the port is optional.
def hostnamePort : Text → Option (Option Text)
  | [] => some none
  | ':' :: digits =>
      if digits ≠ [] ∧ digits.all Char.isDigit then some (some digits) else none
  | _ => none

def stripTld (rest : Text) : Option Text :=
  [".balena", ".resin", ".vpn"].firstM fun tld => rest.dropPrefix? tld.toList

def matchHostname (url : Text) : Option (Text × Option Text) :=
  let uuid := url.takeWhile isHexDigit
  if uuid = [] then none
  else do
    let rest ← stripTld (url.dropWhile isHexDigit)
    let port ← hostnamePort rest
    some (uuid, port)

-- `Buffer.from` of a text
def bytes (text : Text) : List UInt8 := text.flatMap String.utf8EncodeChar

def parseRequest (req : Request) : Except TunnelError Target :=
  match req.url with
  | none => .error .badRequest
  | some url => match matchHostname url with
    | none => .error (.invalidHostname ("invalid hostname: ".toList ++ url))
    | some (uuid, port) =>
        .ok ⟨uuid, Number.parseInt (port.getD "80".toList), req.password.map bytes⟩

end ParseRequest

-- The answer of the service_instance lookup: an instance, none, a 401, or another error.
inductive VpnHost (Address : Type) where
  | found (id : Nat) (ip_address : Address)
  | missing
  | unauthorized
  | failed (message : Text)

-- What the steps outside of the proxy come to for one request at one instance. An
-- access check that gives false or the id 0 is none, and so is a failed connected
-- check; a local connect may fail with a message.
structure Lookups (Address : Type) where
  canAccessDevice : Option Nat
  isDeviceConnectedToVpn : Option Bool
  deviceIsLocal : Bool
  deviceIsLocalRetry : Bool
  localConnect : Except Text Unit
  getDeviceVpnHost : VpnHost Address

variable {Address : Type}

-- `tunnelToDevice` goes on with the request, or ends the client.
inductive Verdict where
  | next (req : Request)
  | ended (response : Text)

def tunnelToDevice (lookups : Lookups Address) (req : Request) : Verdict :=
  match parseRequest req with
  | .error .badRequest => .ended "HTTP/1.0 400 Bad Request\r\n\r\n".toList
  | .error (.invalidHostname _) => .ended "HTTP/1.0 403 Forbidden\r\n\r\n".toList
  | .error (.handledTunneling _) => .ended []
  | .ok target => match lookups.canAccessDevice with
    | none | some 0 => .ended "HTTP/1.0 407 Proxy Authorization Required\r\n\r\n".toList
    | some _ => match lookups.isDeviceConnectedToVpn with
      | none => .ended HTTP_500
      | some false => .ended "HTTP/1.0 503 Service Unavailable\r\n\r\n".toList
      | some true => .next { req with
          url := some (target.uuid ++ ".vpn:".toList ++ target.port.text) }

def forwardSignature (serviceId : Nat) : Text :=
  "By=open-balena-vpn(".toList ++ Nat.toDigits 10 serviceId ++ [')']

-- The new Forwarded header, or none where the old one shows a loop.
def extendForwarded (serviceId : Nat) : Option Text → Option Text
  | none => some (forwardSignature serviceId)
  | some forwarded =>
      if forwardSignature serviceId <:+: forwarded then none
      else some (forwarded ++ ',' :: forwardSignature serviceId)

-- What `forwardRequest` writes on its socket.
def forwardRequest (uuid : Text) (port : Number) (proxyAuth : Option (List UInt8)) : Text :=
  "CONNECT ".toList ++ uuid ++ ".balena:".toList ++ port.text ++ " HTTP/1.0\r\n".toList ++
    (match proxyAuth with
    | none => []
    | some auth =>
        "Proxy-Authorization: Basic ".toList ++ Base64.encode auth ++ "\r\n".toList) ++
    "\r\n".toList

-- What `connect` comes to: a socket to the device, a request on its way to another
-- instance, or an error after the client was ended with a 500. An error of
-- `parseRequest` leaves the client as it is.
inductive Connection (Address : Type) where
  | connected
  | forwarded (req : Request) (ip_address : Address) (head : Text)
  | rejected (message : Text)
  | threw (error : TunnelError)

def localConnect (lookups : Lookups Address) : Connection Address :=
  match lookups.localConnect with
  | .ok () => .connected
  | .error message => .rejected message

def retryLocal (lookups : Lookups Address) : Connection Address :=
  if lookups.deviceIsLocalRetry then localConnect lookups
  else .rejected "device is not available on registered service instance".toList

-- The port that node-tunnel passes on is the one in the url.
def connect (serviceId : Nat) (lookups : Lookups Address) (req : Request) :
    Connection Address :=
  match parseRequest req with
  | .error error => .threw error
  | .ok ⟨uuid, port, auth⟩ =>
      if lookups.deviceIsLocal then localConnect lookups
      else match lookups.getDeviceVpnHost with
        | .failed message =>
            .rejected ("cannot find device vpn host (".toList ++ message ++ [')'])
        | .missing => .rejected "service instance not found for device".toList
        | .unauthorized => retryLocal lookups
        | .found id ip_address =>
            if id = serviceId then retryLocal lookups
            else match extendForwarded serviceId (req.headers.get "forwarded".toList) with
              | none => .rejected "loop detected forwarding tunnel request".toList
              | some forwarded => .forwarded
                  { req with headers := req.headers.set "forwarded".toList forwarded }
                  ip_address (forwardRequest uuid port auth)

-- A request at one instance: the middleware, and then `connect`.
def handle (serviceId : Nat) (lookups : Lookups Address) (req : Request) :
    Option (Connection Address) :=
  match tunnelToDevice lookups req with
  | .ended _ => none
  | .next req => some (connect serviceId lookups req)

-- How the next instance reads a head. The parser of the credential is node-tunnel's.
def receive (basicAuth : Text → Option Text) (text : Text) : Option Request :=
  (Http.parseHead text).bind fun head =>
    if head.method = "CONNECT".toList then
      some ⟨some head.target, head.headers,
        (head.headers.get "proxy-authorization".toList).bind basicAuth⟩
    else none

end OpenBalenaVpn.Proxy
