import OpenBalenaVpn.Foundation.Memo
import OpenBalenaVpn.Foundation.Utf8
import OpenBalenaVpn.Proxy.Lemmas

namespace OpenBalenaVpn.Access

-- The arguments of `canAccessDevice`, as `parseRequest` gives them.
structure Credentials extends Proxy.Target where
  isUuid : Proxy.IsUuid uuid
  produced : port.Produced

section Requests

-- The header of a request, where VPN_GUEST_API_KEY may not be set.
def authHeader (VPN_GUEST_API_KEY : Option Text) : Option (List UInt8) → Option Text
  | some auth => some ("Bearer ".toList ++ Utf8.decode auth)
  | none => VPN_GUEST_API_KEY.map fun key => "Bearer ".toList ++ key

structure ApiRequest where
  method : Text
  url : Text
  action : List Text
  authorization : Option Text
  deriving DecidableEq

def canAccessRequest (VPN_GUEST_API_KEY : Option Text) (target : Proxy.Target) : ApiRequest where
  method := "POST".toList
  url := "device(uuid=@uuid)/canAccess?@uuid='".toList ++ target.uuid ++ ['\'']
  action := ["tunnel-any".toList, "tunnel-".toList ++ target.port.text]
  authorization := authHeader VPN_GUEST_API_KEY target.auth

-- What `$canAccessDevice` makes of the ids in an answer: the id, or none for false. There
-- are no ids where the request fails or the answer has no array.
def decision : Option (List Nat) → Option Nat
  | some [id] => some id
  | _ => none

end Requests

section Cache

def maxAge : Nat := 5 * 1000

def normalizer (target : Proxy.Target) : Text :=
  target.uuid ++ '-' :: (target.port.text ++ '-' ::
    (target.auth.map Utf8.decode).getD "guest".toList)

abbrev Cache : Type := Memo.Cache Text Credentials (Option Nat)

-- Time passes, `canAccessDevice` is called, or the API answers a request of the cache.
inductive Event where
  | tick (time : Nat)
  | canAccessDevice (credentials : Credentials)
  | answer (key : Text) (ids : Option (List Nat))

-- `$canAccessDevice` catches its errors, so that no call is rejected.
def Event.memo : Event → Memo.Event Text Credentials (Option Nat)
  | tick time => .tick time
  | canAccessDevice credentials => .call credentials
  | answer key ids => .settle key (some (decision ids))

def step (cache : Cache) (event : Event) : Option Cache :=
  Memo.step (fun credentials => normalizer credentials.toTarget) maxAge cache event.memo

end Cache

theorem credentials_of_parseRequest {req : Proxy.Request} {target : Proxy.Target}
    (h : Proxy.parseRequest req = .ok target) :
    ∃ credentials : Credentials, credentials.toTarget = target := by
  obtain ⟨hu, hp, _⟩ := Proxy.parseRequest_ok h
  exact ⟨⟨target, hu, hp⟩, rfl⟩

end OpenBalenaVpn.Access
