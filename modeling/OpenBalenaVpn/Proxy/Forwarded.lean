import OpenBalenaVpn.Proxy
import OpenBalenaVpn.Foundation.Bracketed
import OpenBalenaVpn.Foundation.Number.Integer

namespace OpenBalenaVpn.Proxy.Forwarded

open Number (Integer)

section Connect

def forwardSignature (serviceId : Integer) : Text :=
  "By=open-balena-vpn(".toList ++ serviceId.text ++ [')']

-- The loop test on the header of a request. Without a header there is no test.
def includes (forwarded : Option Text) (serviceId : Integer) : Bool :=
  match forwarded with
  | none => false
  | some forwarded => forwardSignature serviceId <:+: forwarded

def sign (forwarded : Option Text) (serviceId : Integer) : Text :=
  match forwarded with
  | none => forwardSignature serviceId
  | some forwarded => forwarded ++ ',' :: forwardSignature serviceId

-- The new header of `connect`, or none where it finds a loop.
def extend (forwarded : Option Text) (serviceId : Integer) : Option Text :=
  if includes forwarded serviceId then none else some (sign forwarded serviceId)

-- The header when each of the instances has added its signature, without the test
-- and with it.
def after (serviceIds : List Integer) : Option Text :=
  serviceIds.foldl (fun forwarded serviceId => some (sign forwarded serviceId)) none

def pass (serviceIds : List Integer) : Option (Option Text) :=
  serviceIds.foldlM (fun forwarded serviceId => (extend forwarded serviceId).map some) none

end Connect

section Ids

variable {Address : Type}

-- The ids of `connect` are natural numbers. Those below 2 ^ 53 are among these.
theorem forwardSignature_ofSmall {serviceId : Nat} (h : serviceId < 2 ^ 53) :
    forwardSignature (.ofSmall serviceId h) = Proxy.forwardSignature serviceId := by
  unfold forwardSignature Proxy.forwardSignature
  rw [Integer.text_ofSmall h]

theorem extend_ofSmall {serviceId : Nat} (h : serviceId < 2 ^ 53) (forwarded : Option Text) :
    extend forwarded (.ofSmall serviceId h) = extendForwarded serviceId forwarded := by
  cases forwarded with
  | none => simp [extend, includes, sign, extendForwarded, forwardSignature_ofSmall h]
  | some forwarded =>
      simp only [extend, includes, sign, extendForwarded, forwardSignature_ofSmall h,
        decide_eq_true_eq]

theorem localConnect_ne_forwarded (lookups : Lookups Address) {sent : Request}
    {ip_address : Address} {head : Text} :
    localConnect lookups ≠ .forwarded sent ip_address head := by
  unfold localConnect
  split <;> nofun

theorem retryLocal_ne_forwarded (lookups : Lookups Address) {sent : Request}
    {ip_address : Address} {head : Text} :
    retryLocal lookups ≠ .forwarded sent ip_address head := by
  unfold retryLocal
  split
  · exact localConnect_ne_forwarded lookups
  · nofun

-- What has come to pass where `connect` hands a request on.
theorem found_of_forwarded {serviceId : Nat} {lookups : Lookups Address} {req sent : Request}
    {ip_address : Address} {head : Text}
    (h : connect serviceId lookups req = .forwarded sent ip_address head) :
    ∃ target id forwarded, parseRequest req = .ok target ∧
      lookups.getDeviceVpnHost = .found id ip_address ∧ id ≠ serviceId ∧
      extendForwarded serviceId (req.headers.get "forwarded".toList) = some forwarded ∧
      sent = { req with headers := req.headers.set "forwarded".toList forwarded } ∧
      head = forwardRequest target.uuid target.port target.auth := by
  unfold connect at h
  split at h
  · cases h
  · rename_i uuid port auth hparse
    split at h
    · exact absurd h (localConnect_ne_forwarded lookups)
    · split at h
      · cases h
      · cases h
      · exact absurd h (retryLocal_ne_forwarded lookups)
      · rename_i id address hfound
        split at h
        · exact absurd h (retryLocal_ne_forwarded lookups)
        · rename_i hid
          split at h
          · cases h
          · rename_i forwarded hextend
            obtain ⟨rfl, rfl, rfl⟩ := Connection.forwarded.inj h
            exact ⟨_, id, forwarded, hparse, hfound, hid, hextend, rfl, rfl⟩

theorem extend_of_connect {serviceId : Nat} (h : serviceId < 2 ^ 53) {lookups : Lookups Address}
    {req sent : Request} {ip_address : Address} {head : Text}
    (hconnect : connect serviceId lookups req = .forwarded sent ip_address head) :
    extend (req.headers.get "forwarded".toList) (.ofSmall serviceId h) =
      sent.headers.get "forwarded".toList := by
  obtain ⟨_, _, forwarded, _, _, _, hextend, rfl, _⟩ := found_of_forwarded hconnect
  rw [extend_ofSmall h, hextend, OrderedMap.get_set_self]

end Ids

section Signatures

-- A header as a list of entries: the signatures of the instances.
def signatures : Bracketed Char where
  label := "By=open-balena-vpn".toList
  opening := '('
  closing := ')'
  separator := ','
  closing_notMem := by decide

theorem forwardSignature_eq (serviceId : Integer) :
    forwardSignature serviceId = signatures.entry serviceId.text := by
  have hlabel : "By=open-balena-vpn(".toList = "By=open-balena-vpn".toList ++ ['('] := by simp
  unfold forwardSignature Bracketed.entry signatures
  rw [hlabel, List.append_assoc _ ['('], List.singleton_append]

theorem isBody_text (serviceId : Integer) : signatures.IsBody serviceId.text where
  opening_notMem := serviceId.notMem_text (by decide) (by decide)
  closing_notMem := serviceId.notMem_text (by decide) (by decide)

theorem sign_eq (forwarded : Option Text) (serviceId : Integer) :
    sign forwarded serviceId = signatures.extend forwarded serviceId.text := by
  cases forwarded <;> rw [sign, forwardSignature_eq] <;> rfl

theorem after_eq (serviceIds : List Integer) :
    after serviceIds = signatures.written (serviceIds.map Integer.text) := by
  rw [after, Bracketed.written, List.foldl_map]
  simp only [sign_eq]

theorem includes_iff (forwarded : Option Text) (serviceId : Integer) :
    includes forwarded serviceId = true ↔
      ∃ text ∈ forwarded, signatures.entry serviceId.text <:+: text := by
  cases forwarded <;> simp [includes, forwardSignature_eq]

theorem includes_after_iff (serviceIds : List Integer) (serviceId : Integer) :
    includes (after serviceIds) serviceId = true ↔ serviceId ∈ serviceIds := by
  have hbodies : ∀ body ∈ serviceIds.map Integer.text, signatures.IsBody body := by
    intro body hbody
    obtain ⟨id, _, rfl⟩ := List.mem_map.mp hbody
    exact isBody_text id
  rw [includes_iff, after_eq,
    Bracketed.entry_infix_written_iff hbodies (isBody_text serviceId)]
  exact List.mem_map_of_injective fun _ _ => Integer.text_inj

-- An id that others end or begin with.
example : includes (after [.ofSmall 12 (by decide), .ofSmall 21 (by decide)])
    (.ofSmall 1 (by decide)) = false := by
  decide +kernel

end Signatures

section Pass

theorem after_concat (serviceIds : List Integer) (serviceId : Integer) :
    after (serviceIds ++ [serviceId]) = some (sign (after serviceIds) serviceId) := by
  rw [after, List.foldl_append]
  rfl

-- The test stops a request at the first instance that it comes to again, and nowhere else.
theorem pass_eq_some_iff (serviceIds : List Integer) (forwarded : Option Text) :
    pass serviceIds = some forwarded ↔ serviceIds.Nodup ∧ after serviceIds = forwarded := by
  induction serviceIds using List.reverseRecOn generalizing forwarded with
  | nil => simp [pass, after]
  | append_singleton serviceIds serviceId ih =>
      have hpass : pass (serviceIds ++ [serviceId]) = (pass serviceIds).bind fun received =>
          (extend received serviceId).map some := by
        rw [pass, List.foldlM_append]
        simp [pass, List.foldlM_cons, List.foldlM_nil]
      have hnodup : (serviceIds ++ [serviceId]).Nodup ↔
          serviceIds.Nodup ∧ includes (after serviceIds) serviceId = false := by
        rw [Bool.eq_false_iff, ne_eq, includes_after_iff, List.nodup_append_comm,
          List.singleton_append, List.nodup_cons, and_comm]
      rw [hpass, hnodup, after_concat, Option.bind_eq_some_iff]
      constructor
      · rintro ⟨received, hreceived, hextend⟩
        obtain ⟨hdistinct, rfl⟩ := (ih received).mp hreceived
        unfold extend at hextend
        split at hextend
        · cases hextend
        · rename_i htest
          exact ⟨⟨hdistinct, Bool.not_eq_true _ ▸ htest⟩, Option.some.inj hextend⟩
      · rintro ⟨⟨hdistinct, htest⟩, hsign⟩
        refine ⟨after serviceIds, (ih _).mpr ⟨hdistinct, rfl⟩, ?_⟩
        rw [extend, htest, ← hsign]
        rfl

end Pass

-- The header names the instances that the request has come through, each of them
-- and no other, and so the test lets it through exactly as long as none is met again.
theorem forwarded_records (serviceIds : List Integer) :
    (∀ serviceId, includes (after serviceIds) serviceId = true ↔ serviceId ∈ serviceIds) ∧
      ∀ forwarded, pass serviceIds = some forwarded ↔
        serviceIds.Nodup ∧ after serviceIds = forwarded :=
  ⟨includes_after_iff serviceIds, pass_eq_some_iff serviceIds⟩

end OpenBalenaVpn.Proxy.Forwarded
