import OpenBalenaVpn.Foundation.Http
import OpenBalenaVpn.Foundation.Json
import OpenBalenaVpn.Foundation.Transition
import OpenBalenaVpn.Foundation.Uri
import OpenBalenaVpn.RefCount
import Mathlib.Logic.Function.Basic

namespace OpenBalenaVpn.Auth

section Program

-- The JSON body that the auth program posts.
def body (username password : Text) : Text :=
  "\x7b\"username\":\"".toList ++ username ++ "\",\"password\":\"".toList ++ password ++
    "\"\x7d".toList

-- What it writes to the auth_control_file. `send` is an error for a status from 400
-- on, and so is a request without an answer.
def authControl : Option Nat → Text
  | some status => if status < 400 then ['1'] else ['0']
  | none => ['0']

end Program

-- BALENA_API_INTERNAL_HOST, and how JavaScript writes the double of a number.
structure Config where
  host : JsString
  numberText : JsString → JsString

-- A POST of /api/v1/auth/. The body is none where there is no JSON to read.
structure Request where
  ip : String
  body : Option JsString
  deriving DecidableEq

section Validation

-- `bodyParser.json()` is strict: a body is an object or an array.
def bodyParser (text : JsString) : Option Json :=
  match Json.skipSpace text with
  | [] => if text = [] then some (.object []) else none
  | unit :: _ =>
      if unit = '{'.toNat ∨ unit = '['.toNat then Json.parse text else none

-- A property of `req.body` that is not null.
def property (name : Text) (body : Option Json) : Option Json :=
  (body.bind (Json.get (utf16 name))).filter fun value => !value.isNull

-- The username and the password that the endpoint checks, or the status with which
-- it ends a request before that.
def credentials (req : Request) : Except Nat (Json × Json) :=
  match req.body.map bodyParser with
  | some none => .error 400
  | parsed =>
      if !RefCount.fromLocalHost req.ip then .error 401
      else match property "username".toList parsed.join with
        | none => .error 400
        | some username => match property "password".toList parsed.join with
          | none => .error 400
          | some password => .ok (username, password)

end Validation

section CheckDeviceAuth

-- The GET request that asks the balena API about a device.
structure Check where
  url : JsString
  authorization : JsString
  deriving DecidableEq

def check (config : Config) (username password : JsString) : Check :=
  ⟨config.host ++ utf16 "/services/vpn/auth/".toList ++ username,
    utf16 "Bearer ".toList ++ password⟩

-- memoizee's id of a call with two primitive arguments
def callId (username password : JsString) : JsString := username ++ 0x01 :: password

-- The status that the memoized function returns, and so caches. Its other results
-- are errors.
inductive Result where
  | returned (statusCode : Nat)
  | expectedAuthError (statusCode : Nat)
  | error

def result : Option Nat → Result
  | none => .error
  | some statusCode =>
      if statusCode ∈ [200, 401, 403] then .returned statusCode
      else if statusCode = 503 then .expectedAuthError statusCode
      else .error

-- What `checkDeviceAuth` returns, or none where it throws.
def Result.checked : Result → Option Nat
  | .returned statusCode => some statusCode
  | .expectedAuthError statusCode => some statusCode
  | .error => none

end CheckDeviceAuth

section Endpoint

-- An entry of the cache: a call that waits for the API together with the requests
-- that share it, or the status that it returned.
inductive Entry where
  | pending (check : Check) (waiting : List Request)
  | settled (statusCode : Nat)
  deriving DecidableEq

-- The cache, the checks that the API has answered and the responses of the endpoint.
structure State where
  cache : JsString → Option Entry
  checks : List (Check × Nat)
  responses : List (Request × Nat)

def State.initial : State := ⟨fun _ => none, [], []⟩

-- An answer of none is a failed request. An entry expires VPN_AUTH_CACHE_TIMEOUT
-- after it was settled.
inductive Event where
  | post (req : Request)
  | answer (id : JsString) (statusCode : Option Nat)
  | expire (id : JsString)

-- The response to a request whose check came to a status or an error.
def respond (checked : Option Nat) : Nat := if checked = some 200 then 200 else 401

def State.send (state : State) (req : Request) (status : Nat) : State :=
  { state with responses := state.responses ++ [(req, status)] }

def State.setEntry (state : State) (id : JsString) (entry : Option Entry) : State :=
  { state with cache := Function.update state.cache id entry }

def State.checkDeviceAuth (config : Config) (state : State) (req : Request)
    (username password : JsString) : State :=
  let id := callId username password
  match state.cache id with
  | none => state.setEntry id (some (.pending (check config username password) [req]))
  | some (.pending check waiting) =>
      state.setEntry id (some (.pending check (waiting ++ [req])))
  | some (.settled statusCode) => state.send req (respond (some statusCode))

def State.post (config : Config) (state : State) (req : Request) : State :=
  match credentials req with
  | .error status => state.send req status
  | .ok (username, password) =>
      match username.asText config.numberText, password.asText config.numberText with
      | some username, some password => state.checkDeviceAuth config req username password
      | _, _ => state.send req (respond none)

def entry : Result → Option Entry
  | .returned statusCode => some (.settled statusCode)
  | _ => none

def State.answer (state : State) (id : JsString) (statusCode : Option Nat) : Option State :=
  match state.cache id with
  | some (.pending check waiting) =>
      let outcome := result statusCode
      some ⟨Function.update state.cache id (entry outcome),
        state.checks ++ (statusCode.map fun statusCode => (check, statusCode)).toList,
        state.responses ++ waiting.map fun req => (req, respond outcome.checked)⟩
  | _ => none

def State.expire (state : State) (id : JsString) : Option State :=
  match state.cache id with
  | some (.settled _) => some (state.setEntry id none)
  | _ => none

def step (config : Config) (state : State) : Event → Option State
  | .post req => some (state.post config req)
  | .answer id statusCode => state.answer id statusCode
  | .expire id => state.expire id

end Endpoint

section Client

-- What the API reads of a request: the path, which ends where the query starts, and the
-- value of the Authorization header.
structure Received where
  path : JsString
  authorization : JsString
  deriving DecidableEq

-- The request library. It does not send every request.
abbrev Client : Type := Check → Option Received

def authPath : JsString := utf16 "/services/vpn/auth/".toList

def bearer : JsString := utf16 "Bearer ".toList

-- The request is for this login: the path gives the username when it is decoded, and the
-- header has the password.
def Named (client : Client) (check : Check) (username password : JsString) : Prop :=
  ∃ name, client check = some ⟨authPath ++ name, bearer ++ password⟩ ∧
    Uri.decodeURIComponent name = some username

def Readable (client : Client) (check : Check) : Prop :=
  ∃ username password, Named client check username password

-- The API answers 200 only to requests for the logins that it knows.
def Knows (client : Client) (known : JsString → JsString → Prop) (state : State) : Event → Prop
  | .answer id statusCode => statusCode = some 200 → ∀ check waiting,
      state.cache id = some (.pending check waiting) →
      ∃ username password, known username password ∧ Named client check username password
  | _ => True

end Client

section Integrity

-- A request with the body that the auth program builds for the two strings
def Presents (username password : Text) (req : Request) : Prop :=
  req.body = some (utf16 (body username password))

-- The body parser finds exactly the two strings in that body.
def ReadBack (username password : Text) : Prop :=
  ∃ members, bodyParser (utf16 (body username password)) = some (.object members) ∧
    (Json.object members).get (utf16 "username".toList) = some (.string (utf16 username)) ∧
    (Json.object members).get (utf16 "password".toList) = some (.string (utf16 password))

-- Whatever logins the API knows and however the endpoint got there, it lets the auth
-- program write "1" for the two strings only when the API has answered a request for
-- exactly these with 200.
def OnlyChecked (client : Client) (config : Config) (username password : Text) : Prop :=
  ∀ known events last,
    Transition.StepsMeet (step config) (Knows client known) State.initial events →
    Transition.run (step config) State.initial events = some last →
    ∀ req status, (req, status) ∈ last.responses → Presents username password req →
      authControl (some status) = ['1'] →
        ∃ check, (check, 200) ∈ last.checks ∧
          Named client check (utf16 username) (utf16 password)

def LoginIntegrity (client : Client) (config : Config) (username password : Text) : Prop :=
  ReadBack username password ∧ OnlyChecked client config username password

end Integrity

end OpenBalenaVpn.Auth
