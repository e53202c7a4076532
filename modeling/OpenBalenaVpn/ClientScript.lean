import OpenBalenaVpn.Auth
import OpenBalenaVpn.Foundation.Number
import OpenBalenaVpn.RefCount

namespace OpenBalenaVpn.ClientScript

section Script

-- The variables that the script splices. One that openvpn has not set is empty.
structure Env where
  common_name : Text
  bytes_received : Text
  bytes_sent : Text
  time_duration : Text

inductive Method where
  | POST
  | DELETE
  deriving DecidableEq

-- A request to `/api/v2/${VPN_INSTANCE_ID}/clients`.
structure Curl where
  method : Method
  workerId : Nat
  body : Text

-- The here-documents. `<<-` has dropped the tabs in front of their lines, and the shell
-- does not look at the values of the variables again.
def connectDocument (env : Env) : Text :=
  "\x7b\n\"common_name\": \"".toList ++ env.common_name ++ "\"\n\x7d\n".toList

def disconnectDocument (env : Env) : Text :=
  "\x7b\n\"common_name\": \"".toList ++ env.common_name ++
    "\",\n\"bytes_received\": ".toList ++ env.bytes_received ++
    ",\n\"bytes_sent\": ".toList ++ env.bytes_sent ++
    ",\n\"time_duration\": ".toList ++ env.time_duration ++ "\n\x7d\n".toList

-- `curl -d @-` drops carriage returns, newlines and null bytes.
def readData (document : Text) : Text :=
  document.filter fun c => c ∉ ['\r', '\n', Char.ofNat 0]

def script (workerId : Nat) (env : Env) : Curl :=
  if env.bytes_received = [] then ⟨.POST, workerId, readData (connectDocument env)⟩
  else ⟨.DELETE, workerId, readData (disconnectDocument env)⟩

end Script

section Api

-- The limit of the body parser, 100kb.
def bodyLimit : Nat := 100 * 1024

def byteLength (text : Text) : Nat := (text.map Char.utf8Size).sum

-- `req.body`, or none where the body parser refuses the request.
def parseBody (body : Text) : Option Json :=
  if byteLength body ≤ bodyLimit then Auth.bodyParser (utf16 body) else none

-- The double of a number that is written in digits, as the script writes them.
def double : Json → Option Number
  | .number literal =>
      if literal.all Json.isDigit then some (Number.parseInt (literal.map Char.ofNat)) else none
  | _ => none

-- The duration that is observed. Infinity is left out: no refcount depends on it.
def observed : Number → Option ℚ
  | .finite value => some value
  | .infinity => none

-- The request as the handlers read it. Where the name is not the string that the type of
-- the body says it is, there is no uuid to count for.
def clientRequest (ip : String) (worker : Nat) (body : Json) :
    Option (RefCount.ClientRequest JsString) :=
  let time_duration :=
    ((Auth.property "time_duration".toList (some body)).bind double).bind observed
  match Auth.property "common_name".toList (some body) with
  | none => some ⟨ip, worker, none, time_duration⟩
  | some (.string common_name) => some ⟨ip, worker, some common_name, time_duration⟩
  | some _ => none

def receive (serviceId : Nat) (api : RefCount.Api JsString) (ip : String) (curl : Curl) :
    Option (RefCount.Handled JsString) := do
  let body ← parseBody curl.body
  let request ← clientRequest ip curl.workerId body
  match curl.method with
  | .POST => some (RefCount.postClients serviceId api request)
  | .DELETE => some (RefCount.deleteClients serviceId api request)

end Api

section Events

-- What openvpn runs the script for.
inductive Event where
  | connect (common_name : Text)
  | disconnect (common_name : Text) (bytes_received bytes_sent time_duration : Nat)

def Event.env : Event → Env
  | .connect common_name => ⟨common_name, [], [], []⟩
  | .disconnect common_name bytes_received bytes_sent time_duration =>
      ⟨common_name, Nat.toDigits 10 bytes_received, Nat.toDigits 10 bytes_sent,
        Nat.toDigits 10 time_duration⟩

def Event.common_name : Event → Text
  | .connect common_name => common_name
  | .disconnect common_name _ _ _ => common_name

def Event.time_duration : Event → Option Nat
  | .connect _ => none
  | .disconnect _ _ _ time_duration => some time_duration

def Event.change : Event → Int
  | .connect _ => 1
  | .disconnect _ _ _ _ => -1

-- The body has the name, and for a disconnect the duration.
def ReadBack (workerId : Nat) (event : Event) : Prop :=
  ∃ members, parseBody (script workerId event.env).body = some (.object members) ∧
    (Json.object members).get (utf16 "common_name".toList) =
      some (.string (utf16 event.common_name)) ∧
    ∀ time_duration, event.time_duration = some time_duration →
      ((Json.object members).get (utf16 "time_duration".toList)).bind double =
        some (.finite time_duration)

-- The request changes the refcount of that uuid, and of no other.
def Counted (workerId : Nat) (event : Event) : Prop :=
  ∀ serviceId api ip, RefCount.fromLocalHost ip = true →
    ∃ handled, receive serviceId api ip (script workerId event.env) = some handled ∧
      ∀ uuid, handled.api.refCount uuid =
        api.refCount uuid + if utf16 event.common_name = uuid then event.change else 0

def Survives (workerId : Nat) (event : Event) : Prop :=
  ReadBack workerId event ∧ Counted workerId event

-- The duration is one that a double can hold.
def Event.Exact (event : Event) : Prop :=
  ∀ time_duration, event.time_duration = some time_duration →
    Number.ofNat time_duration = .finite time_duration

-- The strings leave the body within the limit.
def Event.Fits : Event → Prop
  | .connect common_name => byteLength common_name + 19 ≤ bodyLimit
  | .disconnect common_name bytes_received bytes_sent time_duration =>
      byteLength common_name + (Nat.toDigits 10 bytes_received).length +
        (Nat.toDigits 10 bytes_sent).length + (Nat.toDigits 10 time_duration).length + 71 ≤
        bodyLimit

end Events

end OpenBalenaVpn.ClientScript
