import OpenBalenaVpn.Access.Isolation
import OpenBalenaVpn.Foundation.Memo.Spacing

namespace OpenBalenaVpn.Access

open Transition

section Requests

-- The calls of a run that `$canAccessDevice` is run for, each of which is one request to
-- the API, with their times.
def requested (events : List Event) : List (Credentials × Nat) :=
  Memo.asked (fun credentials : Credentials => normalizer credentials.toTarget) maxAge .empty
    (events.map Event.memo)

def Event.calls (key : Text) : Event → Bool
  | tick _ => false
  | canAccessDevice credentials => normalizer credentials.toTarget = key
  | answer _ _ => false

end Requests

end OpenBalenaVpn.Access
