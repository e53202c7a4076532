import OpenBalenaVpn.Auth.Verdicts
import OpenBalenaVpn.Foundation.Memo.Spacing

namespace OpenBalenaVpn.Auth

open Transition

variable {config : Config} {client : Client} {VPN_AUTH_CACHE_TIMEOUT : Nat}

section Turns

def Request.call (config : Config) (req : Request) : Option (Call config) :=
  match h : req.login config with
  | some login => some ⟨req, login, h⟩
  | none => none

-- What an event of the endpoint is for its cache.
def TimedEvent.memo (config : Config) :
    TimedEvent → Option (Memo.Event JsString (Call config) Nat)
  | .tick time => some (.tick time)
  | .post req => (req.call config).map .call
  | .answer id statusCode => some (.settle id (result statusCode).value)

-- The requests to the API in a run, with their times.
def requested (config : Config) (VPN_AUTH_CACHE_TIMEOUT : Nat) (endpoint : Endpoint config)
    (events : List TimedEvent) : List (Call config × Nat) :=
  Memo.asked Call.id VPN_AUTH_CACHE_TIMEOUT endpoint.memo
    (events.filterMap (TimedEvent.memo config))

end Turns

section Answers

-- The responses that requests of this kind got.
def Endpoint.answered (endpoint : Endpoint config) (req : Request) : Nat :=
  endpoint.responses.countP fun response => response.arg = req

def TimedEvent.posts (req : Request) : TimedEvent → Bool
  | .tick _ => false
  | .post other => other = req
  | .answer _ _ => false

end Answers

section Theorems

-- The API fails the check of this login, or gives a status that is not remembered.
def TimedEvent.fails (id : JsString) : TimedEvent → Bool
  | .tick _ => false
  | .post _ => false
  | .answer other statusCode => other = id && (result statusCode).value.isNone

-- The times in a run at which the check of this login fails so.
def failed (client : Client) (VPN_AUTH_CACHE_TIMEOUT : Nat) (id : JsString) :
    Endpoint config → List TimedEvent → List Nat
  | _, [] => []
  | endpoint, event :: events => match endpoint.step client VPN_AUTH_CACHE_TIMEOUT event with
    | none => []
    | some next =>
        if event.fails id then
          endpoint.memo.now :: failed client VPN_AUTH_CACHE_TIMEOUT id next events
        else failed client VPN_AUTH_CACHE_TIMEOUT id next events

end Theorems

end OpenBalenaVpn.Auth
