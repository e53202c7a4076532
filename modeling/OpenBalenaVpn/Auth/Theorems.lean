import OpenBalenaVpn.Auth.Client
import OpenBalenaVpn.Auth.Lemmas

namespace OpenBalenaVpn.Auth

-- Text of printable characters, as openvpn leaves it in the two variables
def Printable (text : Text) : Prop := ∀ c ∈ text, 0x20 ≤ c.toNat

-- The characters that a JSON string has to escape, control characters apart
def NeedsNoEscape (text : Text) : Prop := '"' ∉ text ∧ '\\' ∉ text

instance (text : Text) : Decidable (Printable text) :=
  List.decidableBAll (fun c : Char => 0x20 ≤ c.toNat) text

instance (text : Text) : Decidable (NeedsNoEscape text) :=
  inferInstanceAs (Decidable ('"' ∉ text ∧ '\\' ∉ text))

theorem keys_ne : utf16 "username".toList ≠ utf16 "password".toList := by decide +kernel

-- The body has 29 code units around the two strings. An object with the two strings as
-- members has as many around their literals, in which a quote or a backslash takes two.
theorem needsNoEscape_of_readBack {username password : Text} (h : ReadBack username password) :
    NeedsNoEscape username ∧ NeedsNoEscape password := by
  obtain ⟨members, hbody, husername, hpassword⟩ := h
  have hne : members ≠ [] := by
    rintro rfl
    cases husername
  have hparse := parse_of_bodyParser hbody hne
  have hweight := Json.parse_two_members hparse keys_ne husername hpassword
  have hfirst : Json.charsWeight (utf16 "username".toList) = 8 := by decide +kernel
  have hsecond : Json.charsWeight (utf16 "password".toList) = 8 := by decide +kernel
  have husername := Json.length_le_charsWeight (utf16 username)
  have hpassword := Json.length_le_charsWeight (utf16 password)
  rw [length_utf16_body] at hweight
  simp only [Json.memberWeight, Json.valueWeight, Json.stringWeight, hfirst, hsecond] at hweight
  exact ⟨Json.plain_of_charsWeight_le (by omega), Json.plain_of_charsWeight_le (by omega)⟩

-- The request of the auth program.
def posted (username password : Text) : Request :=
  ⟨"127.0.0.1", some (utf16 (body username password))⟩

theorem separator_notMem {text : Text} (hprintable : Printable text) (hplain : NeedsNoEscape text) :
    0x01 ∉ utf16 text := by
  intro hmem
  have hunit := (Json.utf16_plain hprintable hplain.1 hplain.2 _ hmem).1
  omega

section Plain

variable {config : Config} {username password : Text} (hu : Printable username)
  (hp : Printable password) (husername : NeedsNoEscape username)
  (hpassword : NeedsNoEscape password)

include hu hp husername hpassword

theorem bodyParser_body : bodyParser (utf16 (body username password)) =
    some (.object [(utf16 "username".toList, .string (utf16 username)),
      (utf16 "password".toList, .string (utf16 password))]) := by
  have hkey : ∀ {text : Text}, Printable text ∧ NeedsNoEscape text →
      ∀ unit ∈ utf16 text, Json.Plain unit :=
    fun h => Json.utf16_plain h.1 h.2.1 h.2.2
  have hfirst : ∀ unit ∈ utf16 "username".toList, Json.Plain unit := hkey (by decide)
  have hsecond : ∀ unit ∈ utf16 "password".toList, Json.Plain unit := hkey (by decide)
  rw [utf16_body, bodyParser_open]
  exact Json.parse_object (.cons hfirst (Json.reads_quoted (hkey ⟨hu, husername⟩))
    (.last hsecond (Json.reads_quoted (hkey ⟨hp, hpassword⟩))))

theorem readBack_of_needsNoEscape : ReadBack username password := by
  refine ⟨_, bodyParser_body hu hp husername hpassword, ?_, ?_⟩
  · exact Json.get_cons_of_notMem (fun hmem => keys_ne (List.mem_singleton.mp hmem)) _
  · exact Json.get_concat [_] _ _

theorem parsed_of_presents {req : Request} (hreq : Presents username password req) :
    ∃ value, req.body.map bodyParser = some (some value) ∧
      property "username".toList (some value) = some (.string (utf16 username)) ∧
      property "password".toList (some value) = some (.string (utf16 password)) := by
  obtain ⟨members, hbody, hfirst, hsecond⟩ := readBack_of_needsNoEscape hu hp husername hpassword
  refine ⟨.object members, ?_, property_of_get hfirst rfl, property_of_get hsecond rfl⟩
  rw [hreq, Option.map_some, hbody]

theorem credentials_of_presents {req : Request} (hreq : Presents username password req)
    {user pass : Json} (h : credentials req = .ok (user, pass)) :
    user = .string (utf16 username) ∧ pass = .string (utf16 password) := by
  obtain ⟨value, hparsed, huser, hpass⟩ :=
    parsed_of_presents hu hp husername hpassword hreq
  unfold credentials at h
  rw [hparsed] at h
  simp only [Option.join_some, huser, hpass] at h
  split at h
  · cases h
  · obtain ⟨rfl, rfl⟩ := Prod.mk.inj (Except.ok.inj h)
    exact ⟨rfl, rfl⟩

theorem askedId_of_presents {req : Request} (hreq : Presents username password req)
    {id : JsString} (hid : askedId config req = some id) :
    id = callId (utf16 username) (utf16 password) := by
  unfold askedId at hid
  split at hid
  · cases hid
  · rename_i user pass hok
    obtain ⟨rfl, rfl⟩ := credentials_of_presents hu hp husername hpassword hreq hok
    exact (Option.some.inj hid).symm

-- What lets the auth program write "1" is a 200 to the check of the two strings.
theorem answered_of_presents {events : List Event} {last : State}
    (hrun : Transition.run (step config) State.initial events = some last) {req : Request}
    {status : Nat} (hresponse : (req, status) ∈ last.responses)
    (hreq : Presents username password req) (hwritten : authControl (some status) = ['1']) :
    (check config (utf16 username) (utf16 password), 200) ∈ last.checks := by
  have hlt : status < 400 := by
    by_contra hge
    rw [authControl, if_neg hge] at hwritten
    cases hwritten
  obtain ⟨id, made, hasked, ⟨user, pass, hnames, rfl⟩, hanswered⟩ :=
    (Sound.run hrun).responses req status hresponse hlt
  have hid := askedId_of_presents hu hp husername hpassword hreq hasked
  obtain ⟨rfl, rfl⟩ := callId_inj (separator_notMem hu husername) (separator_notMem hp hpassword)
    (hid.symm.trans hnames)
  exact hanswered

theorem credentials_posted : credentials (posted username password) =
    .ok (.string (utf16 username), .string (utf16 password)) := by
  obtain ⟨value, hparsed, huser, hpass⟩ := parsed_of_presents hu hp husername hpassword
    (show Presents username password (posted username password) from rfl)
  have hlocal : RefCount.fromLocalHost "127.0.0.1" = true := by decide
  have hip : (posted username password).ip = "127.0.0.1" := rfl
  unfold credentials
  rw [hparsed]
  simp only [Option.join_some, huser, hpass, hip, hlocal, Bool.not_true, Bool.false_eq_true,
    if_false]

end Plain

section Checks

variable {config : Config} {client : Client} {known : JsString → JsString → Prop}

theorem post_checks (state : State) (req : Request) :
    (state.post config req).checks = state.checks := by
  unfold State.post
  split
  · rfl
  · split
    · unfold State.checkDeviceAuth
      simp only
      split <;> rfl
    · rfl

-- The requests that the API has answered with 200 are for logins.
theorem readable_of_knows {events : List Event} {last : State}
    (hknows : Transition.StepsMeet (step config) (Knows client known) State.initial events)
    (hrun : Transition.run (step config) State.initial events = some last) :
    ∀ made, (made, 200) ∈ last.checks → Readable client made := by
  have hthroughout : Transition.Throughout (step config) (fun state => ∀ made,
      (made, 200) ∈ state.checks → Readable client made) State.initial events := by
    refine Transition.throughout_of_keeps ?_ (fun _ hmade => by cases hmade) hknows
    intro state event next hstate hknown hs made hmade
    cases event with
    | post req =>
        obtain rfl := Option.some.inj hs
        exact hstate made (post_checks state req ▸ hmade)
    | expire id =>
        simp only [step, State.expire] at hs
        split at hs
        · obtain rfl := Option.some.inj hs
          exact hstate made hmade
        · cases hs
    | answer id statusCode =>
        simp only [step, State.answer] at hs
        split at hs
        · rename_i check waiting hentry
          obtain rfl := Option.some.inj hs
          rcases List.mem_append.mp hmade with hold | hnew
          · exact hstate made hold
          · obtain ⟨code, hcode, heq⟩ := Option.mem_map.mp (Option.mem_toList.mp hnew)
            obtain ⟨rfl, rfl⟩ := Prod.mk.inj heq
            obtain ⟨user, pass, _, hnamed⟩ := hknown hcode check waiting hentry
            exact ⟨user, pass, hnamed⟩
        · cases hs
  exact hthroughout.last hrun

variable {username password : Text} (hu : Printable username) (hp : Printable password)
  (husername : NeedsNoEscape username) (hpassword : NeedsNoEscape password)

include hu hp husername hpassword

-- The API answers the check of the two strings with 200.
theorem exists_run_posted (hread : Readable client
      (check config (utf16 username) (utf16 password))) : ∃ known events last,
    Transition.StepsMeet (step config) (Knows client known) State.initial events ∧
      Transition.run (step config) State.initial events = some last ∧
      (posted username password, 200) ∈ last.responses ∧
      last.checks = [(check config (utf16 username) (utf16 password), 200)] := by
  have hcredentials := credentials_posted hu hp husername hpassword
  have hpost : State.initial.post config (posted username password) =
      State.initial.setEntry (callId (utf16 username) (utf16 password)) (some (.pending
        (check config (utf16 username) (utf16 password)) [posted username password])) := by
    unfold State.post
    rw [hcredentials]
    rfl
  have hentry : (State.initial.post config (posted username password)).cache
      (callId (utf16 username) (utf16 password)) = some (.pending
        (check config (utf16 username) (utf16 password)) [posted username password]) := by
    rw [hpost]
    exact Function.update_self _ _ _
  obtain ⟨last, hanswer, hresponse, hchecks⟩ : ∃ last,
      (State.initial.post config (posted username password)).answer
        (callId (utf16 username) (utf16 password)) (some 200) = some last ∧
      (posted username password, 200) ∈ last.responses ∧
      last.checks = [(check config (utf16 username) (utf16 password), 200)] := by
    unfold State.answer
    rw [hentry, hpost]
    exact ⟨_, rfl, List.mem_append_right _ (List.mem_singleton_self _), rfl⟩
  obtain ⟨user, pass, hnamed⟩ := hread
  refine ⟨fun _ _ => True, [.post (posted username password),
    .answer (callId (utf16 username) (utf16 password)) (some 200)], last, ?_, ?_, hresponse,
    hchecks⟩
  · refine ⟨trivial, fun next hs => ⟨fun _ made waiting hmade => ?_, fun _ _ => trivial⟩⟩
    obtain rfl := Option.some.inj hs
    obtain ⟨rfl, _⟩ := Entry.pending.inj (Option.some.inj (hentry.symm.trans hmade))
    exact ⟨user, pass, trivial, hnamed⟩
  · exact (Transition.run_cons_eq_some _ _ _ _ _).mpr
      ⟨_, rfl, (Transition.run_singleton _ _ _).trans hanswer⟩

end Checks

-- Where the request is sent and the API can read it, the login goes wrong exactly when a
-- character needs an escape in the JSON body, or is lost on the way to the API.
theorem loginIntegrity_iff {config : Config} {client : Client}
    (hclient : Documented config client) {username password : Text} (hu : Printable username)
    (hp : Printable password) :
    LoginIntegrity client config username password ↔
      NeedsNoEscape username ∧ NeedsNoEscape password ∧
        (Readable client (check config (utf16 username) (utf16 password)) →
          Kept (utf16 username) ∧ Whole (utf16 password)) := by
  have hnames : NeedsNoEscape username →
      Readable client (check config (utf16 username) (utf16 password)) →
      (Named client (check config (utf16 username) (utf16 password)) (utf16 username)
        (utf16 password) ↔ Kept (utf16 username) ∧ Whole (utf16 password)) := by
    rintro husername ⟨user, pass, name, hsent, _⟩
    refine named_check_iff hclient ?_ (separator_notMem hu husername) (by simp [hsent])
    exact Json.toNat_notMem_utf16 (by decide) husername.2
  constructor
  · rintro ⟨hread, hchecked⟩
    obtain ⟨husername, hpassword⟩ := needsNoEscape_of_readBack hread
    refine ⟨husername, hpassword, fun hreadable => ?_⟩
    obtain ⟨known, events, last, hknows, hrun, hresponse, hchecks⟩ :=
      exists_run_posted hu hp husername hpassword hreadable
    obtain ⟨made, hmade, hnamed⟩ :=
      hchecked known events last hknows hrun _ 200 hresponse rfl rfl
    rw [hchecks, List.mem_singleton] at hmade
    obtain rfl := (Prod.mk.inj hmade).1
    exact (hnames husername hreadable).mp hnamed
  · rintro ⟨husername, hpassword, hkept⟩
    refine ⟨readBack_of_needsNoEscape hu hp husername hpassword, ?_⟩
    intro known events last hknows hrun req status hresponse hreq hwritten
    have hanswered :=
      answered_of_presents hu hp husername hpassword hrun hresponse hreq hwritten
    have hreadable := readable_of_knows hknows hrun _ hanswered
    exact ⟨_, hanswered, (hnames husername hreadable).mpr (hkept hreadable)⟩

theorem loginIntegrity_plain :
    LoginIntegrity (plainClient exampleConfig.host) exampleConfig "c0ffee".toList "k3y".toList := by
  refine (loginIntegrity_iff (documented_plainClient exampleConfig) (by decide)
    (by decide)).mpr ⟨by decide, by decide, fun _ => ⟨⟨?_, ?_⟩, ⟨?_, ?_⟩⟩⟩ <;> decide +kernel

-- A password that closes its literal and names another device
def injected : Text := "k\",\"username\":\"alice".toList

def injectedEvents : List Event :=
  [.post (posted "bob".toList injected),
    .answer (callId (utf16 "alice".toList) (utf16 "k".toList)) (some 200)]

theorem not_readBack_injected : ¬ReadBack "bob".toList injected := by
  rintro ⟨members, hbody, husername, _⟩
  have htext : ((bodyParser (utf16 (body "bob".toList injected))).bind
      (Json.get (utf16 "username".toList))).bind (Json.asText id) =
      some (utf16 "alice".toList) := by decide +kernel
  rw [hbody, Option.bind_some, husername] at htext
  have hother : utf16 "bob".toList ≠ utf16 "alice".toList := by decide +kernel
  exact hother (Option.some.inj htext)

-- The check is made for that device.
theorem received_alice : plainClient exampleConfig.host
    (check exampleConfig (utf16 "alice".toList) (utf16 "k".toList)) =
      some ⟨authPath ++ utf16 "alice".toList, bearer ++ utf16 "k".toList⟩ := by decide +kernel

theorem decoded_alice : Uri.decodeURIComponent (utf16 "alice".toList) =
    some (utf16 "alice".toList) := by decide +kernel

theorem knows_injected : Transition.StepsMeet (step exampleConfig)
    (Knows (plainClient exampleConfig.host) fun username password =>
      username = utf16 "alice".toList ∧ password = utf16 "k".toList) State.initial
    injectedEvents := by
  have hentry : (State.initial.post exampleConfig (posted "bob".toList injected)).cache
      (callId (utf16 "alice".toList) (utf16 "k".toList)) =
        some (.pending (check exampleConfig (utf16 "alice".toList) (utf16 "k".toList))
          [posted "bob".toList injected]) := by decide +kernel
  refine ⟨trivial, fun next hs => ⟨fun _ made waiting hmade => ?_, fun _ _ => trivial⟩⟩
  obtain rfl := Option.some.inj hs
  obtain rfl := (Entry.pending.inj (Option.some.inj (hentry.symm.trans hmade))).1
  exact ⟨_, _, ⟨rfl, rfl⟩, _, received_alice, decoded_alice⟩

-- The API knows that device, and the one whose username was presented is let in.
theorem loginIntegrity_injected :
    ¬ReadBack "bob".toList "k\",\"username\":\"alice".toList ∧
      ¬OnlyChecked (plainClient exampleConfig.host) exampleConfig "bob".toList
        "k\",\"username\":\"alice".toList := by
  refine ⟨not_readBack_injected, fun h => ?_⟩
  have hrun : (Transition.run (step exampleConfig) State.initial injectedEvents).map
      (fun last => (last.checks, last.responses)) =
      some ([(check exampleConfig (utf16 "alice".toList) (utf16 "k".toList), 200)],
      [(posted "bob".toList injected, 200)]) := by decide +kernel
  obtain ⟨last, hlast, heq⟩ := Option.map_eq_some_iff.mp hrun
  obtain ⟨hchecks, hresponses⟩ := Prod.mk.inj heq
  obtain ⟨made, hmade, name, hsent, hname⟩ := h _ _ last knows_injected hlast
    (posted "bob".toList injected) 200 (hresponses ▸ List.mem_singleton_self _) rfl rfl
  rw [hchecks, List.mem_singleton] at hmade
  obtain rfl := (Prod.mk.inj hmade).1
  rw [received_alice] at hsent
  obtain rfl := List.append_cancel_left (Received.mk.inj (Option.some.inj hsent)).1
  have hother : utf16 "alice".toList ≠ utf16 "bob".toList := by decide +kernel
  exact hother (Option.some.inj (decoded_alice.symm.trans hname))

end OpenBalenaVpn.Auth
