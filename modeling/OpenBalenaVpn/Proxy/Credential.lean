import OpenBalenaVpn.Foundation.Utf8.Encode
import OpenBalenaVpn.Proxy.Lemmas

namespace OpenBalenaVpn.Proxy

section Parser

-- The text after the first colon, or the whole text without one.
def passwordOf (credentials : Text) : Text :=
  match credentials.dropWhile (· ≠ ':') with
  | [] => credentials
  | _ :: password => password

-- The parser of node-tunnel, for a value with something after `Basic `.
def ParsesBasic (basicAuth : Text → Option Text) : Prop :=
  ∀ value, value ≠ [] → ' ' ∉ value →
    basicAuth ("Basic ".toList ++ value) =
      some (passwordOf (Utf8.decode (Base64.decode value)))

theorem passwordOf_eq_iff (password : Text) : passwordOf password = password ↔ ':' ∉ password := by
  constructor
  · intro h hmem
    obtain ⟨before, after, rfl, hbefore⟩ := List.eq_append_cons_of_mem hmem
    rw [passwordOf, Http.dropWhile_ne_append hbefore] at h
    have hlength := congrArg List.length h
    simp at hlength
    omega
  · intro h
    have hnil : password.dropWhile (· ≠ ':') = [] := by
      rw [List.dropWhile_eq_nil_iff]
      intro c hc
      have hne : c ≠ ':' := fun he => h (he ▸ hc)
      simpa using hne
    rw [passwordOf, hnil]

end Parser

section Header

theorem notSpace_of_mem_encode {bytes : List UInt8} {c : Char} (h : c ∈ Base64.encode bytes) :
    c.isWhitespace = false := by
  have hall : (Base64.alphabet.all fun c => c.isWhitespace = false) = true := by decide +kernel
  rcases Base64.mem_encode h with hm | rfl
  · exact of_decide_eq_true (List.all_eq_true.mp hall c hm)
  · rfl

theorem encode_ne_nil {bytes : List UInt8} (h : bytes ≠ []) : Base64.encode bytes ≠ [] := by
  rintro hnil
  have hdecode := Base64.decode_encode bytes
  rw [hnil] at hdecode
  exact h hdecode.symm

theorem trim_credential {auth : List UInt8} (h : auth ≠ []) :
    Http.trim (" Basic ".toList ++ Base64.encode auth) =
      "Basic ".toList ++ Base64.encode auth := by
  have hsplit : " Basic ".toList ++ Base64.encode auth =
      [' '] ++ ("Basic ".toList ++ Base64.encode auth) := rfl
  rw [hsplit]
  refine Http.trim_append (List.all_eq_true.mp rfl) (fun c hc => ?_) fun c hc => ?_
  · obtain rfl : 'B' = c := Option.some.inj hc
    decide
  · have hlast : (Base64.encode auth).getLast? =
        some ((Base64.encode auth).getLast (encode_ne_nil h)) := List.getLast?_eq_some_getLast _
    rw [List.getLast?_append, hlast, Option.some_or] at hc
    exact notSpace_of_mem_encode (Option.some.inj hc ▸ List.getLast_mem _)

theorem bytes_eq_nil_iff (password : Text) : bytes password = [] ↔ password = [] := by
  constructor
  · intro h
    have hdecode := Utf8.decode_encode password
    rw [show Utf8.encode password = [] from h] at hdecode
    exact hdecode.symm
  · rintro rfl
    rfl

-- What the next instance makes of the credential that is written for a password.
theorem basicAuth_written {basicAuth : Text → Option Text} (hparses : ParsesBasic basicAuth)
    (password : Text) : basicAuth (Http.trim (" Basic ".toList ++ Base64.encode (bytes password))) =
      if password = [] then basicAuth "Basic".toList else some (passwordOf password) := by
  split
  · rename_i hnil
    subst hnil
    rfl
  · rename_i hne
    have hbytes : bytes password ≠ [] := fun hnil => hne ((bytes_eq_nil_iff password).mp hnil)
    have hspace : ' ' ∉ Base64.encode (bytes password) := fun hmem =>
      absurd (notSpace_of_mem_encode hmem) (by decide)
    rw [trim_credential hbytes, hparses _ (encode_ne_nil hbytes) hspace, Base64.decode_encode]
    exact congrArg (fun text => some (passwordOf text)) (Utf8.decode_encode password)

end Header

section Theorems

variable {basicAuth : Text → Option Text}

-- The credential of a request is the same at every instance that it is forwarded to.
def CredentialAlong (basicAuth : Text → Option Text) (uuid : Text) (port : Number)
    (password : Option Text) : Nat → Request → Prop
  | 0, req => req.password = password
  | hops + 1, req => req.password = password ∧
      ∃ next, receive basicAuth (forwardRequest uuid port (req.password.map bytes)) = some next ∧
        CredentialAlong basicAuth uuid port password hops next

theorem credentialAlong (hparses : ParsesBasic basicAuth) {uuid : Text} (hu : IsUuid uuid)
    (port : Number) {password : Option Text} (hpassword : ∀ text, password = some text →
      ':' ∉ text ∧ (text = [] → basicAuth "Basic".toList = some [])) (hops : Nat)
    {req : Request} (h : req.password = password) :
    CredentialAlong basicAuth uuid port password hops req := by
  induction hops generalizing req with
  | zero => exact h
  | succ hops ih =>
      obtain ⟨next, hreceive, _, _, hread⟩ :=
        receive_forwardRequest basicAuth hu port (req.password.map bytes)
      refine ⟨h, next, hreceive, ih ?_⟩
      rw [hread, h]
      cases password with
      | none => rfl
      | some text =>
          obtain ⟨hcolon, hempty⟩ := hpassword text rfl
          rw [Option.map_some, Option.map_some, Option.bind_some, basicAuth_written hparses]
          split
          · rename_i hnil
            rw [hnil]
            exact hempty hnil
          · rw [(passwordOf_eq_iff text).mpr hcolon]

-- The credential reaches every instance as it was presented exactly when it has no colon.
-- Of an empty one nothing but the scheme is left.
theorem credential_kept_iff (hparses : ParsesBasic basicAuth) {req : Request} {target : Target}
    (h : parseRequest req = .ok target) :
    (∀ hops, CredentialAlong basicAuth target.uuid target.port req.password hops req) ↔
      ∀ password, req.password = some password →
        ':' ∉ password ∧ (password = [] → basicAuth "Basic".toList = some []) := by
  obtain ⟨huuid, _, _⟩ := parseRequest_ok h
  constructor
  · intro hkept password hpassword
    obtain ⟨_, next, hreceive, hnext⟩ := hkept 1
    obtain ⟨other, hother, _, _, hread⟩ :=
      receive_forwardRequest basicAuth huuid target.port (req.password.map bytes)
    obtain rfl := Option.some.inj (hother.symm.trans hreceive)
    rw [CredentialAlong, hread, hpassword, Option.map_some, Option.map_some, Option.bind_some,
      basicAuth_written hparses] at hnext
    split at hnext
    · rename_i hnil
      subst hnil
      exact ⟨List.not_mem_nil, fun _ => hnext⟩
    · rename_i hne
      exact ⟨(passwordOf_eq_iff password).mp (Option.some.inj hnext), fun hnil => absurd hnil hne⟩
  · intro hplain hops
    exact credentialAlong hparses huuid target.port hplain hops rfl

-- A parser that takes what follows the scheme and a space.
def parseBasic (header : Text) : Option Text :=
  if header.take 5 = "Basic".toList then
    some (passwordOf (Utf8.decode (Base64.decode (header.drop 6))))
  else none

theorem parsesBasic_parseBasic : ParsesBasic parseBasic := fun _ _ _ => if_pos rfl

def requestWith (password : String) : Request :=
  ⟨some "c0ffee.balena".toList, .empty, some password.toList⟩

theorem credential_kept_key :
    CredentialAlong parseBasic "c0ffee".toList (.finite 80) (some "a1b2c3".toList) 2
      (requestWith "a1b2c3") :=
  (credential_kept_iff parsesBasic_parseBasic (show parseRequest (requestWith "a1b2c3") =
    .ok ⟨"c0ffee".toList, .finite 80, some (bytes "a1b2c3".toList)⟩ by decide +kernel)).mpr
    (fun password h => by
      obtain rfl := Option.some.inj h
      exact ⟨by decide, nofun⟩) 2

-- The next instance takes the part before the colon for the name of a user.
theorem credential_cut :
    (receive parseBasic (forwardRequest "c0ffee".toList (.finite 80)
        (some (bytes "a:b".toList)))).map Request.password = some (some "b".toList) ∧
      ¬CredentialAlong parseBasic "c0ffee".toList (.finite 80) (some "a:b".toList) 1
        (requestWith "a:b") := by
  have hread : (receive parseBasic (forwardRequest "c0ffee".toList (.finite 80)
      (some (bytes "a:b".toList)))).map Request.password = some (some "b".toList) := by
    decide +kernel
  refine ⟨hread, ?_⟩
  rintro ⟨_, next, hreceive, hnext⟩
  have hkept : some next.password = some (some "b".toList) := by
    rw [← hread]
    exact (congrArg (Option.map Request.password) hreceive).symm
  rw [show next.password = some "a:b".toList from hnext] at hkept
  exact absurd hkept (by decide)

end Theorems

end OpenBalenaVpn.Proxy
