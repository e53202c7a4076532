import OpenBalenaVpn.Foundation.Number.Range
import OpenBalenaVpn.Proxy.Tunnel.Verdict

namespace OpenBalenaVpn.Proxy.Tunnel

open Program

section Hops

variable (Address Socket : Type) (basicAuth : Text → Option Text)
  (hostPort : Text → Option (Text × Number))

-- node-tunnel passes on the host and the port of the url.
def PassesOn : Prop :=
  ∀ host digits, ':' ∉ host → digits ≠ [] → (∀ c ∈ digits, c.isDigit = true) →
    hostPort (host ++ ':' :: digits) = some (host, .parseInt digits)

def vpnHost (uuid : Text) : Text := uuid ++ ".vpn".toList

-- An instance checks, dials and forwards nothing but the device and the port that it was
-- asked for.
structure KeptAt (req : Request) (target : Target) : Prop where
  asked : parseRequest req = .ok target
  checked : Yields (tunnelToDevice req : Tunneling Address Socket Unit) fun calls _ =>
    ∀ call ∈ calls,
      Aims target.port (vpnHost target.uuid) target.uuid target.auth call.command
  rewritten : parseRequest (retarget req target) = .ok target
  passed : (retarget req target).url.bind hostPort = some (vpnHost target.uuid, target.port)
  connected : ∀ serviceId, Yields (connect serviceId target.port (vpnHost target.uuid)
      (retarget req target) : Tunneling Address Socket Socket) fun calls _ =>
    ∀ call ∈ calls,
      Aims target.port (vpnHost target.uuid) target.uuid target.auth call.command

-- So do the instances after it.
def KeptAlong (uuid : Text) (port : Number) : Nat → Request → Prop
  | 0, req => ∃ auth, KeptAt Address Socket hostPort req ⟨uuid, port, auth⟩
  | hops + 1, req => ∃ auth, KeptAt Address Socket hostPort req ⟨uuid, port, auth⟩ ∧
      ∃ next, receive basicAuth (Proxy.forwardRequest uuid port auth) = some next ∧
        KeptAlong uuid port hops next

end Hops

section Aims

variable {Address Socket : Type} {req : Request} {target : Target}

theorem aims_of_authorized (h : parseRequest req = .ok target) (host : Text)
    {calls : Calls Address Socket} {result : Except Error Unit}
    (hauthorized : Authorized req calls result) :
    ∀ call ∈ calls, Aims target.port host target.uuid target.auth call.command := by
  have hcheck : ∀ {other : Target} (id : Option Nat), parseRequest req = .ok other →
      Aims target.port host target.uuid target.auth
        (checkAccess other id : Call (Command Address) (Reply Address Socket)).command := by
    rintro other id hother
    obtain rfl := Except.ok.inj (h.symm.trans hother)
    exact ⟨rfl, rfl, rfl⟩
  cases hauthorized with
  | unread herror => nofun
  | refused hother deviceId message =>
      exact List.forall_mem_cons.mpr ⟨hcheck _ hother, List.forall_mem_singleton.mpr trivial⟩
  | unknown hother id message =>
      exact List.forall_mem_cons.mpr ⟨hcheck _ hother, List.forall_mem_singleton.mpr trivial⟩
  | unavailable hother id message =>
      exact List.forall_mem_cons.mpr ⟨hcheck _ hother,
        List.forall_mem_cons.mpr ⟨trivial, List.forall_mem_singleton.mpr trivial⟩⟩
  | granted hother id hid =>
      exact List.forall_mem_cons.mpr ⟨hcheck _ hother,
        List.forall_mem_cons.mpr ⟨trivial, List.forall_mem_singleton.mpr trivial⟩⟩

theorem tunnelToDevice_aims (h : parseRequest req = .ok target) (host : Text) :
    Yields (tunnelToDevice req : Tunneling Address Socket Unit) fun calls _ =>
      ∀ call ∈ calls, Aims target.port host target.uuid target.auth call.command := by
  refine .catch (authorize_yields req) ?_ ?_
  · exact fun calls value hauthorized => aims_of_authorized h host hauthorized
  · intro before error hauthorized
    refine (refuse_yields error).imp ?_
    rintro after result ⟨_, hafter⟩ call hcall
    rcases List.mem_append.mp hcall with hcall | hcall
    · exact aims_of_authorized h host hauthorized call hcall
    · rcases hafter with ⟨_, _, rfl⟩ | ⟨_, response, _, rfl⟩
      · cases hcall
      · rw [List.mem_singleton.mp hcall]
        trivial

end Aims

section Theorems

variable {Address Socket : Type} {basicAuth : Text → Option Text}
  {hostPort : Text → Option (Text × Number)}

theorem keptAt (hpasses : PassesOn hostPort) {req : Request} {target : Target}
    (h : parseRequest req = .ok target) (hplain : target.port.Plain) :
    KeptAt Address Socket hostPort req target := by
  obtain ⟨huuid, ⟨digits, hdigits⟩, hauth⟩ := parseRequest_ok h
  obtain ⟨uuid, port, auth⟩ := target
  have hrewritten : parseRequest (retarget req ⟨uuid, port, auth⟩) = .ok ⟨uuid, port, auth⟩ := by
    have hwritten := (parseRequest_written (retarget req ⟨uuid, port, auth⟩) rfl hdigits
      (matchHostname_vpn huuid port.text)).1 hplain
    have hsame : (retarget req ⟨uuid, port, auth⟩).password.map bytes = auth := hauth.symm
    rw [hwritten, hsame]
  refine ⟨h, tunnelToDevice_aims h _, hrewritten, ?_, fun serviceId => ?_⟩
  · obtain ⟨hne, hd⟩ := Number.text_digits hplain
    have hcolon : ':' ∉ vpnHost uuid := by
      rintro hmem
      rcases List.mem_append.mp hmem with hmem | hmem
      · exact isHexDigit_ne (huuid.hex ':' hmem) (by decide) rfl
      · exact absurd hmem (by decide)
    have hurl : (retarget req ⟨uuid, port, auth⟩).url =
        some (vpnHost uuid ++ ':' :: port.text) := by
      simp [retarget, vpnHost]
    rw [hurl, Option.bind_some, hpasses _ _ hcolon hne hd]
    obtain rfl : port = .parseInt digits := hdigits
    rw [Number.parseInt_text hplain]
  · exact (connect_yields serviceId hrewritten).imp fun _ _ hconnect => hconnect.2

theorem keptAlong (hpasses : PassesOn hostPort) {uuid : Text} {port : Number}
    (hplain : port.Plain) (hops : Nat) {req : Request} {auth : Option (List UInt8)}
    (h : parseRequest req = .ok ⟨uuid, port, auth⟩) :
    KeptAlong Address Socket basicAuth hostPort uuid port hops req := by
  induction hops generalizing req auth with
  | zero => exact ⟨auth, keptAt hpasses h hplain⟩
  | succ hops ih =>
      obtain ⟨huuid, ⟨digits, hdigits⟩, _⟩ := parseRequest_ok h
      obtain ⟨next, hreceive, hurl, _, _⟩ := receive_forwardRequest basicAuth huuid port auth
      have hparse := (parseRequest_written next hurl hdigits
        (matchHostname_balena huuid port.text)).1 hplain
      exact ⟨auth, keptAt hpasses h hplain, next, hreceive, ih hparse⟩

-- The device and the port that the url names are kept at every instance exactly when the
-- port is not so large that it does not print as digits.
theorem target_kept_iff (hpasses : PassesOn hostPort) {req : Request} {url uuid : Text}
    {port : Option Text} (hurl : req.url = some url)
    (hmatch : matchHostname url = some (uuid, port)) :
    (∀ hops, KeptAlong Address Socket basicAuth hostPort uuid
        (.parseInt (port.getD "80".toList)) hops req) ↔
      Nat.ofDigitChars 10 (port.getD "80".toList) 0 < 10 ^ 21 - 2 ^ 16 := by
  have hparse : parseRequest req =
      .ok ⟨uuid, .parseInt (port.getD "80".toList), req.password.map bytes⟩ := by
    simp only [parseRequest, hurl, hmatch]
  have hiff := Number.plain_ofNat_iff (Nat.ofDigitChars 10 (port.getD "80".toList) 0)
  constructor
  · intro h
    obtain ⟨auth, hkept⟩ := h 0
    by_contra hlarge
    obtain ⟨message, herror⟩ := (parseRequest_written
      (retarget req ⟨uuid, .parseInt (port.getD "80".toList), auth⟩) rfl rfl
      (matchHostname_vpn (matchHostname_uuid hmatch) _)).2 fun hplain => hlarge (hiff.mp hplain)
    rw [hkept.rewritten] at herror
    cases herror
  · intro hsmall hops
    exact keptAlong hpasses (hiff.mpr hsmall) hops hparse

-- The host and the port of an url around its first colon.
def splitUrl (url : Text) : Option (Text × Number) :=
  some (url.takeWhile (· ≠ ':'), .parseInt ((url.dropWhile (· ≠ ':')).drop 1))

theorem passesOn_splitUrl : PassesOn splitUrl := by
  intro host digits hcolon _ _
  rw [splitUrl, Http.takeWhile_ne_append hcolon, Http.dropWhile_ne_append hcolon]
  rfl

def requestTo (url : String) : Request := ⟨some url.toList, .empty, none⟩

theorem target_kept_default :
    KeptAlong String Unit some splitUrl "C0FFEE".toList (.parseInt "80".toList) 2
      (requestTo "C0FFEE.resin") :=
  (target_kept_iff passesOn_splitUrl
    (show (requestTo "C0FFEE.resin").url = some "C0FFEE.resin".toList from rfl)
    (show matchHostname "C0FFEE.resin".toList = some ("C0FFEE".toList, none) by decide)).mpr
    (by decide) 2

-- The request is authorised, and then rejected without a response.
theorem target_lost :
    let req := requestTo "c0ffee.balena:1000000000000000000000"
    let target : Target := ⟨"c0ffee".toList, .finite (10 ^ 21), none⟩
    parseRequest req = .ok target ∧
      (retarget req target).url = some "c0ffee.vpn:1e+21".toList ∧
      parseRequest (retarget req target) =
        .error (.invalidHostname "invalid hostname: c0ffee.vpn:1e+21".toList) ∧
      ¬KeptAlong String Unit some splitUrl target.uuid target.port 0 req := by
  have hparse : parseRequest (requestTo "c0ffee.balena:1000000000000000000000") =
      .ok ⟨"c0ffee".toList, .finite (10 ^ 21), none⟩ := by decide +kernel
  have hrewritten : parseRequest (retarget (requestTo "c0ffee.balena:1000000000000000000000")
        ⟨"c0ffee".toList, .finite (10 ^ 21), none⟩) =
      .error (.invalidHostname "invalid hostname: c0ffee.vpn:1e+21".toList) := by decide +kernel
  refine ⟨hparse, by decide +kernel, hrewritten, ?_⟩
  rintro ⟨auth, hkept⟩
  obtain rfl : auth = none := by
    have hasked := Except.ok.inj (hparse.symm.trans hkept.asked)
    exact (Target.mk.inj hasked).2.2.symm
  have haccepted := hkept.rewritten
  rw [hrewritten] at haccepted
  cases haccepted

end Theorems

end OpenBalenaVpn.Proxy.Tunnel
