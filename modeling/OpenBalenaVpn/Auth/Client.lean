import OpenBalenaVpn.Auth
import OpenBalenaVpn.Foundation.Uri.Path

namespace OpenBalenaVpn.Auth

section Documented

-- The value of a header has no white space at its end.
def fieldValue (value : JsString) : JsString :=
  value.rdropWhile fun unit => unit = ' '.toNat || unit = '\t'.toNat

-- What is documented of the request library and of HTTP: no control character is sent in a
-- header, a reader of a header leaves out the white space at its end, and the path is what
-- a URL parser leaves of the username. A backslash would be turned into a slash.
structure Documented (config : Config) (client : Client) : Prop where
  header : ∀ check received, client check = some received →
    0x01 ∉ check.authorization ∧ received.authorization = fieldValue check.authorization
  path : ∀ username password received, '\\'.toNat ∉ username →
    client (check config username password) = some received →
      ∃ name, received.path = authPath ++ name ∧ Uri.Escapes (Uri.pathPart username) name

-- A username that stands in the path as it is, but for escapes.
structure Kept (username : JsString) : Prop where
  units : ∀ unit ∈ username, unit ≠ '?'.toNat ∧ unit ≠ '#'.toNat ∧ unit ≠ '%'.toNat ∧
    unit ≠ '\\'.toNat ∧ unit ≠ 0x01
  last : ∀ unit ∈ username.getLast?, Uri.trimmed unit = false

-- A password that stands in the header as it is.
structure Whole (password : JsString) : Prop where
  nonempty : password ≠ []
  last : ∀ unit ∈ password.getLast?, unit ≠ ' '.toNat ∧ unit ≠ '\t'.toNat

end Documented

section Names

theorem kept_iff {username : JsString} (hbackslash : '\\'.toNat ∉ username)
    (hseparator : 0x01 ∉ username) :
    Kept username ↔ Uri.pathPart username = username ∧ '%'.toNat ∉ username := by
  rw [Uri.pathPart_eq_self_iff]
  constructor
  · rintro ⟨hunits, hlast⟩
    refine ⟨⟨fun unit hunit => ?_, hlast⟩, fun hmem => (hunits _ hmem).2.2.1 rfl⟩
    obtain ⟨hquery, hfragment, _⟩ := hunits unit hunit
    simpa [Uri.endsPath] using ⟨hquery, hfragment⟩
  · rintro ⟨⟨hunits, hlast⟩, hpercent⟩
    refine ⟨fun unit hunit => ?_, hlast⟩
    have hends := hunits unit hunit
    simp only [Uri.endsPath, Bool.or_eq_false_iff, decide_eq_false_iff_not] at hends
    refine ⟨hends.1, hends.2, ?_, ?_, ?_⟩
    · exact fun he => hpercent (he ▸ hunit)
    · exact fun he => hbackslash (he ▸ hunit)
    · exact fun he => hseparator (he ▸ hunit)

theorem fieldValue_bearer_iff (password : JsString) :
    fieldValue (bearer ++ password) = bearer ++ password ↔ Whole password := by
  have hbearer : bearer = utf16 "Bearer".toList ++ [' '.toNat] := by decide +kernel
  rw [fieldValue, List.rdropWhile_eq_self_iff]
  constructor
  · intro h
    have hne : password ≠ [] := by
      rintro rfl
      refine h (by simp [hbearer]) ?_
      simp [hbearer]
    refine ⟨hne, fun unit hunit => ?_⟩
    obtain ⟨hlast, rfl⟩ := List.mem_getLast?_eq_getLast hunit
    have hnot := h (List.append_ne_nil_of_right_ne_nil _ hne)
    rw [List.getLast_append_of_right_ne_nil _ _ hne] at hnot
    simpa using hnot
  · rintro ⟨hne, hlast⟩ _
    rw [List.getLast_append_of_right_ne_nil _ _ hne]
    simpa using hlast _ (List.getLast?_eq_some_getLast hne)

variable {config : Config} {client : Client} (hclient : Documented config client)
  {username password : JsString}

include hclient

-- A request that is sent is for its own login if and only if nothing of the username and
-- the password is lost on the way.
theorem named_check_iff (hbackslash : '\\'.toNat ∉ username) (hseparator : 0x01 ∉ username)
    (hsent : client (check config username password) ≠ none) :
    Named client (check config username password) username password ↔
      Kept username ∧ Whole password := by
  obtain ⟨⟨path, authorization⟩, hreceived⟩ := Option.ne_none_iff_exists'.mp hsent
  obtain ⟨_, hvalue⟩ := hclient.header _ _ hreceived
  obtain ⟨name, hpath, hescapes⟩ := hclient.path _ _ _ hbackslash hreceived
  have hauthorization : authorization = fieldValue (bearer ++ password) := hvalue
  obtain rfl : path = authPath ++ name := hpath
  rw [kept_iff hbackslash hseparator, ← Uri.decode_pathPart_iff hescapes,
    ← fieldValue_bearer_iff, ← hauthorization]
  constructor
  · rintro ⟨other, hother, hdecoded⟩
    rw [hreceived] at hother
    obtain ⟨hsame, rfl⟩ := Received.mk.inj (Option.some.inj hother)
    obtain rfl := List.append_cancel_left hsame
    exact ⟨hdecoded, rfl⟩
  · rintro ⟨hdecoded, rfl⟩
    exact ⟨name, hreceived, hdecoded⟩

theorem named_of_kept (hkept : Kept username) (hwhole : Whole password)
    (hsent : client (check config username password) ≠ none) :
    Named client (check config username password) username password := by
  refine (named_check_iff hclient ?_ ?_ hsent).mpr ⟨hkept, hwhole⟩
  · exact fun hmem => (hkept.units _ hmem).2.2.2.1 rfl
  · exact fun hmem => (hkept.units _ hmem).2.2.2.2 rfl

end Names

section Plain

-- A library that escapes nothing.
def plainClient (host : JsString) : Client := fun check =>
  if 0x01 ∈ check.authorization then none
  else some ⟨authPath ++ Uri.pathPart (check.url.drop (host ++ authPath).length),
    fieldValue check.authorization⟩

theorem documented_plainClient (config : Config) : Documented config (plainClient config.host) where
  header check received hsent := by
    unfold plainClient at hsent
    split at hsent
    · cases hsent
    · rename_i hcontrol
      obtain rfl := Option.some.inj hsent
      exact ⟨hcontrol, rfl⟩
  path username password received _ hsent := by
    unfold plainClient at hsent
    split at hsent
    · cases hsent
    · obtain rfl := Option.some.inj hsent
      have hurl : (check config username password).url = (config.host ++ authPath) ++ username := rfl
      refine ⟨Uri.pathPart username, ?_, Uri.escapes_refl _⟩
      rw [hurl, List.drop_left]

def exampleConfig : Config := ⟨utf16 "https://api".toList, id⟩

end Plain

end OpenBalenaVpn.Auth
