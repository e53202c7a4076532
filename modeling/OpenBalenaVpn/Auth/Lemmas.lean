import OpenBalenaVpn.Auth
import OpenBalenaVpn.Foundation.Json.Lemmas

namespace OpenBalenaVpn.Auth

section Body

theorem utf16_body_append (username password : Text) :
    utf16 (body username password) = utf16 "\x7b\"username\":\"".toList ++ utf16 username ++
      utf16 "\",\"password\":\"".toList ++ utf16 password ++ utf16 "\"\x7d".toList := by
  have hbody : body username password = "\x7b\"username\":\"".toList ++ username ++
      "\",\"password\":\"".toList ++ password ++ "\"\x7d".toList := rfl
  simp only [hbody, Json.utf16_append]

theorem utf16_body (username password : Text) :
    utf16 (body username password) = '{'.toNat :: (Json.quoted (utf16 "username".toList) ++
      ':'.toNat :: (Json.quoted (utf16 username) ++ ','.toNat ::
      (Json.quoted (utf16 "password".toList) ++
      ':'.toNat :: (Json.quoted (utf16 password) ++ ['}'.toNat])))) := by
  have hopen : utf16 "\x7b\"username\":\"".toList = '{'.toNat ::
      (Json.quoted (utf16 "username".toList) ++ [':'.toNat, '"'.toNat]) := by decide +kernel
  have hmiddle : utf16 "\",\"password\":\"".toList = '"'.toNat :: ','.toNat ::
      (Json.quoted (utf16 "password".toList) ++ [':'.toNat, '"'.toNat]) := by decide +kernel
  have hclose : utf16 "\"\x7d".toList = ['"'.toNat, '}'.toNat] := by decide +kernel
  simp only [utf16_body_append, hopen, hmiddle, hclose, Json.quoted_append,
    List.append_assoc, List.cons_append, List.nil_append]

theorem length_utf16_body (username password : Text) :
    (utf16 (body username password)).length =
      29 + (utf16 username).length + (utf16 password).length := by
  have hopen : (utf16 "\x7b\"username\":\"".toList).length = 13 := by decide +kernel
  have hmiddle : (utf16 "\",\"password\":\"".toList).length = 14 := by decide +kernel
  have hclose : (utf16 "\"\x7d".toList).length = 2 := by decide +kernel
  simp only [utf16_body_append, List.length_append, hopen, hmiddle, hclose]
  omega

theorem parse_of_bodyParser {text : JsString} {members : List (JsString × Json)}
    (h : bodyParser text = some (.object members)) (hne : members ≠ []) :
    Json.parse text = some (.object members) := by
  unfold bodyParser at h
  split at h
  · split at h
    · cases h
      exact absurd rfl hne
    · cases h
  · split at h
    · exact h
    · cases h

theorem bodyParser_open (rest : JsString) :
    bodyParser ('{'.toNat :: rest) = Json.parse ('{'.toNat :: rest) := by
  have hspace : Json.skipSpace ('{'.toNat :: rest) = '{'.toNat :: rest :=
    Json.skipSpace_of_not_isSpace rfl rest
  rw [bodyParser, hspace]
  exact if_pos (Or.inl rfl)

theorem property_of_get {name : Text} {value found : Json}
    (hget : value.get (utf16 name) = some found) (hnull : found.isNull = false) :
    property name (some value) = some found := by
  rw [property, Option.bind_some, hget, Option.filter_some]
  simp [hnull]

end Body

section Cache

variable {config : Config}

-- The id under which a request asks for its check, if it gets so far.
def askedId (config : Config) (req : Request) : Option JsString :=
  match credentials req with
  | .error _ => none
  | .ok (username, password) => do
      let username ← username.asText config.numberText
      let password ← password.asText config.numberText
      some (callId username password)

-- The check that a call with this id makes
def Names (config : Config) (id : JsString) (made : Check) : Prop :=
  ∃ username password, id = callId username password ∧ made = check config username password

-- An entry stands for the check that its id names. Who waits for it has that id too.
def Backed (config : Config) (checks : List (Check × Nat)) (id : JsString) : Entry → Prop
  | .pending made waiting =>
      Names config id made ∧ ∀ req ∈ waiting, askedId config req = some id
  | .settled statusCode => ∃ made, Names config id made ∧ (made, statusCode) ∈ checks

-- A response that the auth program takes as a success is backed by a 200 of the API
-- to a check that the id of the request names.
structure Sound (config : Config) (state : State) : Prop where
  cache : ∀ id entry, state.cache id = some entry → Backed config state.checks id entry
  responses : ∀ req status, (req, status) ∈ state.responses → status < 400 →
    ∃ id made, askedId config req = some id ∧ Names config id made ∧ (made, 200) ∈ state.checks

theorem sound_initial : Sound config State.initial := ⟨nofun, nofun⟩

theorem Backed.mono {checks more : List (Check × Nat)} {id : JsString} {entry : Entry}
    (h : Backed config checks id entry) (hsub : ∀ answered ∈ checks, answered ∈ more) :
    Backed config more id entry := by
  cases entry with
  | pending made waiting => exact h
  | settled statusCode =>
      obtain ⟨made, hmade, hanswered⟩ := h
      exact ⟨made, hmade, hsub _ hanswered⟩

theorem credentials_error {req : Request} {status : Nat} (h : credentials req = .error status) :
    400 ≤ status := by
  have hinj : ∀ {error : Nat}, (Except.error error : Except Nat (Json × Json)) = .error status →
      400 ≤ error → 400 ≤ status := fun he hle => Except.error.inj he ▸ hle
  unfold credentials at h
  split at h
  · exact hinj h (by omega)
  · split at h
    · exact hinj h (by omega)
    · split at h
      · exact hinj h (by omega)
      · split at h
        · exact hinj h (by omega)
        · cases h

theorem checked_of_respond_lt {checked : Option Nat} (h : respond checked < 400) :
    checked = some 200 := by
  unfold respond at h
  split at h
  · assumption
  · omega

theorem result_checked_200 {statusCode : Option Nat}
    (h : (result statusCode).checked = some 200) : statusCode = some 200 := by
  cases statusCode with
  | none => cases h
  | some statusCode =>
      unfold result at h
      simp only at h
      split at h
      · exact h
      · split at h
        · exact h
        · cases h

theorem entry_eq_some {statusCode : Option Nat} {new : Entry}
    (h : entry (result statusCode) = some new) :
    ∃ code, statusCode = some code ∧ new = .settled code := by
  cases statusCode with
  | none => cases h
  | some code =>
      unfold result at h
      simp only at h
      split at h
      · exact ⟨code, rfl, (Option.some.inj h).symm⟩
      · split at h <;> cases h

theorem Sound.send {state : State} (hs : Sound config state) (req : Request) (status : Nat)
    (hback : status < 400 → ∃ id made, askedId config req = some id ∧ Names config id made ∧
      (made, 200) ∈ state.checks) : Sound config (state.send req status) := by
  refine ⟨hs.cache, fun other code ho hcode => ?_⟩
  rcases List.mem_append.mp ho with ho | ho
  · exact hs.responses other code ho hcode
  · obtain ⟨rfl, rfl⟩ := Prod.mk.inj (List.mem_singleton.mp ho)
    exact hback hcode

theorem Sound.setEntry {state : State} (hs : Sound config state) {id : JsString}
    {new : Option Entry} (hback : ∀ entry, new = some entry →
      Backed config state.checks id entry) : Sound config (state.setEntry id new) := by
  refine ⟨fun other entry ho => ?_, hs.responses⟩
  rcases Transition.update_eq_some ho with ⟨rfl, hnew⟩ | ⟨_, hold⟩
  · exact hback entry hnew
  · exact hs.cache other entry hold

theorem Sound.checkDeviceAuth {state : State} (hs : Sound config state) {req : Request}
    {username password : JsString} (hasked : askedId config req = some (callId username password)) :
    Sound config (state.checkDeviceAuth config req username password) := by
  unfold State.checkDeviceAuth
  simp only
  split
  · -- the first call makes the check
    refine hs.setEntry fun entry he => ?_
    obtain rfl := Option.some.inj he
    refine ⟨⟨username, password, rfl, rfl⟩, fun other ho => ?_⟩
    exact List.mem_singleton.mp ho ▸ hasked
  · rename_i made waiting hentry
    obtain ⟨hmade, hwaiting⟩ := hs.cache _ _ hentry
    refine hs.setEntry fun entry he => ?_
    obtain rfl := Option.some.inj he
    refine ⟨hmade, fun other ho => ?_⟩
    rcases List.mem_append.mp ho with ho | ho
    · exact hwaiting other ho
    · exact List.mem_singleton.mp ho ▸ hasked
  · rename_i statusCode hentry
    obtain ⟨made, hmade, hanswered⟩ := hs.cache _ _ hentry
    refine hs.send req _ fun hlt => ?_
    obtain rfl := Option.some.inj (checked_of_respond_lt hlt)
    exact ⟨_, made, hasked, hmade, hanswered⟩

theorem Sound.post {state : State} (hs : Sound config state) (req : Request) :
    Sound config (state.post config req) := by
  unfold State.post
  split
  · rename_i status herror
    have hle := credentials_error herror
    exact hs.send req status fun hlt => absurd hlt (Nat.not_lt.mpr hle)
  · rename_i username password hok
    split
    · rename_i user pass huser hpass
      refine hs.checkDeviceAuth ?_
      simp [askedId, hok, huser, hpass]
    · exact hs.send req _ fun hlt => absurd (checked_of_respond_lt hlt) nofun

theorem Sound.answer {state next : State} (hs : Sound config state) {id : JsString}
    {statusCode : Option Nat} (h : state.answer id statusCode = some next) :
    Sound config next := by
  unfold State.answer at h
  split at h
  · rename_i made waiting hentry
    obtain ⟨hmade, hwaiting⟩ := hs.cache id _ hentry
    obtain rfl := Option.some.inj h
    have hkept : ∀ answered ∈ state.checks, answered ∈ state.checks ++
        (statusCode.map fun statusCode => (made, statusCode)).toList :=
      fun _ ha => List.mem_append_left _ ha
    have hnew : ∀ code, statusCode = some code → (made, code) ∈ state.checks ++
        (statusCode.map fun statusCode => (made, statusCode)).toList := by
      rintro code rfl
      exact List.mem_append_right _ (List.mem_singleton_self _)
    refine ⟨fun other entry ho => ?_, fun req code hr hlt => ?_⟩
    · rcases Transition.update_eq_some ho with ⟨rfl, he⟩ | ⟨_, hold⟩
      · obtain ⟨code, hcode, rfl⟩ := entry_eq_some he
        exact ⟨made, hmade, hnew code hcode⟩
      · exact (hs.cache other entry hold).mono hkept
    · rcases List.mem_append.mp hr with hr | hr
      · obtain ⟨other, found, hasked, hfound, hanswered⟩ := hs.responses req code hr hlt
        exact ⟨other, found, hasked, hfound, hkept _ hanswered⟩
      · obtain ⟨waiter, hwaiter, heq⟩ := List.mem_map.mp hr
        obtain ⟨rfl, rfl⟩ := Prod.mk.inj heq
        have hcode := result_checked_200 (checked_of_respond_lt hlt)
        exact ⟨id, made, hwaiting waiter hwaiter, hmade, hnew 200 hcode⟩
  · cases h

theorem Sound.expire {state next : State} (hs : Sound config state) {id : JsString}
    (h : state.expire id = some next) : Sound config next := by
  unfold State.expire at h
  split at h
  · obtain rfl := Option.some.inj h
    exact hs.setEntry nofun
  · cases h

theorem Sound.step {state next : State} {event : Event} (hs : Sound config state)
    (h : Auth.step config state event = some next) : Sound config next := by
  cases event with
  | post req =>
      obtain rfl := Option.some.inj h
      exact hs.post req
  | answer id statusCode => exact hs.answer h
  | expire id => exact hs.expire h

theorem Sound.run {last : State} {events : List Event}
    (hrun : Transition.run (Auth.step config) State.initial events = some last) :
    Sound config last :=
  Transition.run_invariant (fun _ _ _ hs h => hs.step h) sound_initial hrun

theorem callId_inj {username password user pass : JsString} (husername : 0x01 ∉ username)
    (hpassword : 0x01 ∉ password) (h : callId username password = callId user pass) :
    user = username ∧ pass = password := by
  obtain ⟨huser, _, hpass⟩ := (List.append_cons_inj_of_notMem husername hpassword).mp h
  exact ⟨huser.symm, hpass.symm⟩

end Cache

end OpenBalenaVpn.Auth
