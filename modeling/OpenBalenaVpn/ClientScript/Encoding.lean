import OpenBalenaVpn.ClientScript
import OpenBalenaVpn.Auth.Theorems
import OpenBalenaVpn.Foundation.Json.Digits
import OpenBalenaVpn.Foundation.Json.Splice
import OpenBalenaVpn.RefCount.Theorems

namespace OpenBalenaVpn.ClientScript

section Body

-- The body behind the name.
def Event.tail : Event → Text
  | .connect _ => "\"\x7d".toList
  | .disconnect _ bytes_received bytes_sent time_duration =>
      "\",\"bytes_received\": ".toList ++ Nat.toDigits 10 bytes_received ++
        ",\"bytes_sent\": ".toList ++ Nat.toDigits 10 bytes_sent ++
        ",\"time_duration\": ".toList ++ Nat.toDigits 10 time_duration ++ "\x7d".toList

theorem tail_disconnect (common_name : Text) (bytes_received bytes_sent time_duration : Nat) :
    (Event.disconnect common_name bytes_received bytes_sent time_duration).tail =
      "\",\"bytes_received\": ".toList ++ Nat.toDigits 10 bytes_received ++
        ",\"bytes_sent\": ".toList ++ Nat.toDigits 10 bytes_sent ++
        ",\"time_duration\": ".toList ++ Nat.toDigits 10 time_duration ++ "\x7d".toList := rfl

theorem readData_append (first second : Text) :
    readData (first ++ second) = readData first ++ readData second :=
  List.filter_append first second

theorem readData_of_printable {text : Text} (h : Auth.Printable text) : readData text = text := by
  refine List.filter_eq_self.mpr fun c hc => ?_
  have hprintable := h c hc
  simp only [decide_eq_true_eq]
  rintro hmem
  have hcontrol : ∀ c ∈ ['\r', '\n', Char.ofNat 0], c.toNat < 0x20 := by simp
  have hlt := hcontrol c hmem
  omega

theorem printable_toDigits (n : Nat) : Auth.Printable (Nat.toDigits 10 n) := by
  intro c hc
  have hdigit := (Json.toNat_lt_of_isDigit (Number.isDigit_toDigits n c hc)).1
  have hzero : '0'.toNat = 0x30 := rfl
  omega

theorem connectDocument_data {env : Env} (h : Auth.Printable env.common_name) :
    readData (connectDocument env) =
      "\x7b\"common_name\": \"".toList ++ env.common_name ++ "\"\x7d".toList := by
  have hopen : readData "\x7b\n\"common_name\": \"".toList = "\x7b\"common_name\": \"".toList := by
    simp [readData]
  have hclose : readData "\"\n\x7d\n".toList = "\"\x7d".toList := by simp [readData]
  have hdocument : connectDocument env =
      "\x7b\n\"common_name\": \"".toList ++ env.common_name ++ "\"\n\x7d\n".toList := rfl
  have hname := readData_of_printable h
  simp only [hdocument, readData_append, hopen, hclose, hname]

theorem disconnectDocument_data {env : Env} (hname : Auth.Printable env.common_name)
    (hreceived : Auth.Printable env.bytes_received) (hsent : Auth.Printable env.bytes_sent)
    (hduration : Auth.Printable env.time_duration) :
    readData (disconnectDocument env) =
      "\x7b\"common_name\": \"".toList ++ env.common_name ++
        "\",\"bytes_received\": ".toList ++ env.bytes_received ++
        ",\"bytes_sent\": ".toList ++ env.bytes_sent ++
        ",\"time_duration\": ".toList ++ env.time_duration ++ "\x7d".toList := by
  have hopen : readData "\x7b\n\"common_name\": \"".toList = "\x7b\"common_name\": \"".toList := by
    simp [readData]
  have hfirst : readData "\",\n\"bytes_received\": ".toList =
      "\",\"bytes_received\": ".toList := by simp [readData]
  have hsecond : readData ",\n\"bytes_sent\": ".toList = ",\"bytes_sent\": ".toList := by
    simp [readData]
  have hthird : readData ",\n\"time_duration\": ".toList = ",\"time_duration\": ".toList := by
    simp [readData]
  have hclose : readData "\n\x7d\n".toList = "\x7d".toList := by simp [readData]
  have hdocument : disconnectDocument env = "\x7b\n\"common_name\": \"".toList ++
      env.common_name ++ "\",\n\"bytes_received\": ".toList ++ env.bytes_received ++
      ",\n\"bytes_sent\": ".toList ++ env.bytes_sent ++
      ",\n\"time_duration\": ".toList ++ env.time_duration ++ "\n\x7d\n".toList := rfl
  have hname' := readData_of_printable hname
  have hreceived' := readData_of_printable hreceived
  have hsent' := readData_of_printable hsent
  have hduration' := readData_of_printable hduration
  simp only [hdocument, readData_append, hopen, hfirst, hsecond, hthird, hclose, hname',
    hreceived', hsent', hduration']

theorem script_connect (workerId : Nat) (common_name : Text) :
    script workerId (Event.connect common_name).env =
      ⟨.POST, workerId, readData (connectDocument (Event.connect common_name).env)⟩ := rfl

theorem script_disconnect (workerId : Nat) (common_name : Text)
    (bytes_received bytes_sent time_duration : Nat) :
    script workerId (Event.disconnect common_name bytes_received bytes_sent time_duration).env =
      ⟨.DELETE, workerId, readData (disconnectDocument
        (Event.disconnect common_name bytes_received bytes_sent time_duration).env)⟩ :=
  if_neg Nat.toDigits_ne_nil

theorem body_eq (workerId : Nat) {event : Event} (h : Auth.Printable event.common_name) :
    (script workerId event.env).body =
      "\x7b\"common_name\": \"".toList ++ event.common_name ++ event.tail := by
  cases event with
  | connect common_name =>
      rw [script_connect]
      exact connectDocument_data h
  | disconnect common_name bytes_received bytes_sent time_duration =>
      rw [script_disconnect]
      refine (disconnectDocument_data h ?_ ?_ ?_).trans ?_
      iterate 3 exact printable_toDigits _
      simp only [tail_disconnect, List.append_assoc]
      rfl

end Body

section Parse

-- What follows the name: its quote, a comma or a brace, and no backslash.
theorem tail_eq (event : Event) : ∃ next rest, event.tail = '"' :: next :: rest ∧
    next ∈ [',', '}'] ∧ '\\' ∉ rest := by
  cases event with
  | connect common_name =>
      have hclose : "\"\x7d".toList = ['"', '}'] := by simp
      exact ⟨'}', [], hclose, by decide, by decide⟩
  | disconnect common_name bytes_received bytes_sent time_duration =>
      have hopen : "\",\"bytes_received\": ".toList =
          '"' :: ',' :: "\"bytes_received\": ".toList := by simp
      refine ⟨',', "\"bytes_received\": ".toList ++ Nat.toDigits 10 bytes_received ++
        ",\"bytes_sent\": ".toList ++ Nat.toDigits 10 bytes_sent ++
        ",\"time_duration\": ".toList ++ Nat.toDigits 10 time_duration ++ "\x7d".toList,
        ?_, by decide, ?_⟩
      · simp only [tail_disconnect, hopen, List.cons_append, List.append_assoc]
      · have hdigits : ∀ n, '\\' ∉ Nat.toDigits 10 n := fun n =>
          Number.notMem_digits (Number.isDigit_toDigits n) rfl
        have hreceived : '\\' ∉ "\"bytes_received\": ".toList := by simp
        have hsent : '\\' ∉ ",\"bytes_sent\": ".toList := by simp
        have hduration : '\\' ∉ ",\"time_duration\": ".toList := by simp
        have hclose : '\\' ∉ "\x7d".toList := by simp
        simp only [List.mem_append, hdigits, hreceived, hsent, hduration, hclose, or_self,
          not_false_eq_true]

-- A name that is read back anywhere in the body needs no escape.
theorem needsNoEscape_of_readBack {workerId : Nat} {event : Event}
    (hprintable : Auth.Printable event.common_name) (h : ReadBack workerId event) :
    Auth.NeedsNoEscape event.common_name := by
  obtain ⟨members, hbody, hname, _⟩ := h
  obtain ⟨next, rest, htail, hnext, hrest⟩ := tail_eq event
  have hmembers : members ≠ [] := by
    rintro rfl
    cases hname
  rw [parseBody] at hbody
  split at hbody
  · have hparse := Auth.parse_of_bodyParser hbody hmembers
    have hopen : utf16 "\x7b\"common_name\": \"".toList =
        utf16 "\x7b\"common_name\": ".toList ++ ['"'.toNat] := by simp [utf16, utf16Char]
    have hchars : ∀ c ∈ [',', '}'], c.toNat < 0x10000 ∧ c ≠ '"' ∧ c ≠ '\\' := by simp
    obtain ⟨hsmall, hquote, hslash⟩ := hchars next hnext
    have hbefore : '\\'.toNat ∉ utf16 "\x7b\"common_name\": ".toList := by simp [utf16, utf16Char]
    have hafter : '\\'.toNat ∉ utf16 (next :: rest) := by
      refine Json.toNat_notMem_utf16 (by decide) fun hmem => ?_
      rcases List.mem_cons.mp hmem with heq | hmem
      · exact hslash heq.symm
      · exact hrest hmem
    have hhead : (utf16 (next :: rest)).head? ≠ some '"'.toNat := by
      rw [Json.utf16_cons hsmall, List.head?_cons]
      exact fun heq => hquote (Char.toNat_inj.mp (Option.some.inj heq))
    have hliteral := Json.literal_of_parse hparse hname
    rw [body_eq workerId hprintable, htail, Json.utf16_append, Json.utf16_append, hopen,
      Json.utf16_cons (by decide), List.append_assoc, List.append_assoc,
      List.singleton_append] at hliteral
    have hunescaped := Json.unescaped_of_literal hbefore hafter hhead hliteral
    exact ⟨fun hmem => (hunescaped _ (Json.toNat_mem_utf16 (by decide) hmem)).1 rfl,
      fun hmem => (hunescaped _ (Json.toNat_mem_utf16 (by decide) hmem)).2 rfl⟩
  · cases hbody

def Event.members : Event → List (JsString × Json)
  | .connect common_name => [(utf16 "common_name".toList, .string (utf16 common_name))]
  | .disconnect common_name bytes_received bytes_sent time_duration =>
      [(utf16 "common_name".toList, .string (utf16 common_name)),
        (utf16 "bytes_received".toList, .number (utf16 (Nat.toDigits 10 bytes_received))),
        (utf16 "bytes_sent".toList, .number (utf16 (Nat.toDigits 10 bytes_sent))),
        (utf16 "time_duration".toList, .number (utf16 (Nat.toDigits 10 time_duration)))]

theorem reads_name {name : Text} (hprintable : Auth.Printable name)
    (hplain : Auth.NeedsNoEscape name) :
    Json.Reads (' '.toNat :: Json.quoted (utf16 name)) (.string (utf16 name)) :=
  (Json.reads_quoted (Json.utf16_plain hprintable hplain.1 hplain.2)).space rfl

theorem reads_digits (n : Nat) : Json.Reads (' '.toNat :: utf16 (Nat.toDigits 10 n))
    (.number (utf16 (Nat.toDigits 10 n))) :=
  (Json.reads_natural (Json.natural_toDigits n)).space rfl

-- The names of the members need no escape.
theorem plain_key (key : Text) (h : key ∈ ["common_name".toList, "bytes_received".toList,
    "bytes_sent".toList, "time_duration".toList]) : ∀ unit ∈ utf16 key, Json.Plain unit := by
  simp only [List.mem_cons, List.not_mem_nil, or_false] at h
  rcases h with rfl | rfl | rfl | rfl <;>
    exact Json.utf16_plain (by simp) (by simp) (by simp)

theorem utf16_open : utf16 "\x7b\"common_name\": \"".toList = '{'.toNat ::
    (Json.quoted (utf16 "common_name".toList) ++ [':'.toNat, ' '.toNat, '"'.toNat]) := by
  simp [utf16, utf16Char, Json.quoted]

theorem parse_connect {name : Text} (hprintable : Auth.Printable name)
    (hplain : Auth.NeedsNoEscape name) :
    Json.parse (utf16 ("\x7b\"common_name\": \"".toList ++ name ++ (Event.connect name).tail)) =
      some (.object (Event.connect name).members) := by
  have hclose : utf16 (Event.connect name).tail = ['"'.toNat, '}'.toNat] := by
    have htail : utf16 "\"\x7d".toList = ['"'.toNat, '}'.toNat] := by simp [utf16, utf16Char]
    exact htail
  have hwrites := Json.Writes.last (plain_key "common_name".toList (by simp))
    (reads_name hprintable hplain)
  have htext : utf16 ("\x7b\"common_name\": \"".toList ++ name ++ (Event.connect name).tail) =
      '{'.toNat :: (Json.quoted (utf16 "common_name".toList) ++
        ':'.toNat :: ((' '.toNat :: Json.quoted (utf16 name)) ++ ['}'.toNat])) := by
    simp only [Json.utf16_append, utf16_open, hclose, Json.quoted_append, List.append_assoc,
      List.cons_append, List.nil_append]
  rw [htext]
  exact Json.parse_object hwrites

theorem parse_disconnect {name : Text} (hprintable : Auth.Printable name)
    (hplain : Auth.NeedsNoEscape name) (bytes_received bytes_sent time_duration : Nat) :
    Json.parse (utf16 ("\x7b\"common_name\": \"".toList ++ name ++
        (Event.disconnect name bytes_received bytes_sent time_duration).tail)) =
      some (.object (Event.disconnect name bytes_received bytes_sent time_duration).members) := by
  have hfirst : utf16 "\",\"bytes_received\": ".toList = '"'.toNat :: ','.toNat ::
      (Json.quoted (utf16 "bytes_received".toList) ++ [':'.toNat, ' '.toNat]) := by
    simp [utf16, utf16Char, Json.quoted]
  have hsecond : utf16 ",\"bytes_sent\": ".toList = ','.toNat ::
      (Json.quoted (utf16 "bytes_sent".toList) ++ [':'.toNat, ' '.toNat]) := by
    simp [utf16, utf16Char, Json.quoted]
  have hthird : utf16 ",\"time_duration\": ".toList = ','.toNat ::
      (Json.quoted (utf16 "time_duration".toList) ++ [':'.toNat, ' '.toNat]) := by
    simp [utf16, utf16Char, Json.quoted]
  have hclose : utf16 "\x7d".toList = ['}'.toNat] := by simp [utf16, utf16Char]
  have hwrites := Json.Writes.cons (plain_key "common_name".toList (by simp))
    (reads_name hprintable hplain)
    (.cons (plain_key "bytes_received".toList (by simp)) (reads_digits bytes_received)
      (.cons (plain_key "bytes_sent".toList (by simp)) (reads_digits bytes_sent)
        (.last (plain_key "time_duration".toList (by simp))
          (reads_digits time_duration))))
  have hparse := Json.parse_object hwrites
  simp only [tail_disconnect, Json.utf16_append, utf16_open, hfirst, hsecond, hthird, hclose,
    Json.quoted_append, List.append_assoc, List.cons_append, List.nil_append] at hparse ⊢
  exact hparse

end Parse

section Limit

theorem byteLength_append (first second : Text) :
    byteLength (first ++ second) = byteLength first + byteLength second := by
  simp [byteLength]

theorem byteLength_toDigits (n : Nat) :
    byteLength (Nat.toDigits 10 n) = (Nat.toDigits 10 n).length := by
  have hone : ∀ c ∈ Nat.toDigits 10 n, c.utf8Size = 1 := by
    intro c hc
    have hle := (Json.toNat_lt_of_isDigit (Number.isDigit_toDigits n c hc)).2
    rw [Char.utf8Size_eq_one_iff]
    exact UInt32.le_iff_toNat_le.mpr (Nat.le_trans hle (by decide))
  rw [byteLength, List.map_congr_left hone, List.map_const', List.sum_replicate_nat,
    Nat.mul_one]

-- The body takes 19 bytes around the name, or 71 around the name and the numbers.
theorem fits_iff (workerId : Nat) {event : Event} (h : Auth.Printable event.common_name) :
    byteLength (script workerId event.env).body ≤ bodyLimit ↔ event.Fits := by
  have hopen : byteLength "\x7b\"common_name\": \"".toList = 17 := rfl
  rw [body_eq workerId h, byteLength_append, byteLength_append, hopen]
  cases event with
  | connect common_name =>
      have hclose : byteLength (Event.connect common_name).tail = 2 := by
        have htail : byteLength "\"\x7d".toList = 2 := rfl
        exact htail
      simp only [hclose, Event.common_name, Event.Fits]
      omega
  | disconnect common_name bytes_received bytes_sent time_duration =>
      have hreceived : byteLength "\",\"bytes_received\": ".toList = 20 := rfl
      have hsent : byteLength ",\"bytes_sent\": ".toList = 15 := rfl
      have hduration : byteLength ",\"time_duration\": ".toList = 18 := rfl
      have hclose : byteLength "\x7d".toList = 1 := rfl
      simp only [tail_disconnect, byteLength_append, byteLength_toDigits, hreceived, hsent,
        hduration, hclose, Event.common_name, Event.Fits]
      omega

end Limit

section Survival

variable {event : Event}

theorem parseBody_members (workerId : Nat) (hprintable : Auth.Printable event.common_name)
    (hplain : Auth.NeedsNoEscape event.common_name) (hfits : event.Fits) :
    parseBody (script workerId event.env).body = some (.object event.members) := by
  have hlimit := (fits_iff workerId hprintable).mpr hfits
  have hparse : Json.parse (utf16 ("\x7b\"common_name\": \"".toList ++ event.common_name ++
      event.tail)) = some (.object event.members) := by
    cases event with
    | connect common_name => exact parse_connect hprintable hplain
    | disconnect common_name bytes_received bytes_sent time_duration =>
        exact parse_disconnect hprintable hplain bytes_received bytes_sent time_duration
  rw [parseBody, if_pos hlimit, body_eq workerId hprintable]
  rw [Json.utf16_append, Json.utf16_append, utf16_open, List.append_assoc, List.cons_append]
    at hparse ⊢
  rw [Auth.bodyParser_open]
  exact hparse

theorem get_common_name (event : Event) :
    (Json.object event.members).get (utf16 "common_name".toList) =
      some (.string (utf16 event.common_name)) := by
  cases event with
  | connect common_name => exact Json.get_concat [] _ _
  | disconnect common_name bytes_received bytes_sent time_duration =>
      have hother : utf16 "common_name".toList ∉ [utf16 "bytes_received".toList,
          utf16 "bytes_sent".toList, utf16 "time_duration".toList] := by simp [utf16, utf16Char]
      exact Json.get_cons_of_notMem hother _

theorem get_time_duration {time_duration : Nat} (h : event.time_duration = some time_duration) :
    (Json.object event.members).get (utf16 "time_duration".toList) =
      some (.number (utf16 (Nat.toDigits 10 time_duration))) := by
  cases event with
  | connect common_name => cases h
  | disconnect common_name bytes_received bytes_sent duration =>
      obtain rfl : duration = time_duration := Option.some.inj h
      exact Json.get_concat [_, _, _] _ _

theorem double_digits (n : Nat) :
    double (.number (utf16 (Nat.toDigits 10 n))) = some (Number.ofNat n) := by
  have hall : (utf16 (Nat.toDigits 10 n)).all Json.isDigit = true :=
    List.all_eq_true.mpr (Json.natural_toDigits n).digits
  have hchars : (utf16 (Nat.toDigits 10 n)).map Char.ofNat = Nat.toDigits 10 n := by
    rw [Json.utf16_toDigits, List.map_map]
    exact List.map_id'' (fun c => Char.ofNat_toNat c) _
  rw [double, if_pos hall, hchars, Number.parseInt, Nat.ofDigitChars_ten_toDigits]

-- The handlers count for the name that they find in the body.
theorem receive_common_name {workerId : Nat} {members : List (JsString × Json)} {uuid : JsString}
    (hname : (Json.object members).get (utf16 "common_name".toList) = some (.string uuid))
    (serviceId : Nat) (api : RefCount.Api JsString) {ip : String}
    (hip : RefCount.fromLocalHost ip = true)
    (hbody : parseBody (script workerId event.env).body = some (.object members)) :
    ∃ handled, receive serviceId api ip (script workerId event.env) = some handled ∧
      ∀ other, handled.api.refCount other =
        api.refCount other + if uuid = other then event.change else 0 := by
  have hproperty := Auth.property_of_get hname rfl
  let time_duration :=
    ((Auth.property "time_duration".toList (some (.object members))).bind double).bind observed
  have hrequest : clientRequest ip workerId (.object members) =
      some ⟨ip, workerId, some uuid, time_duration⟩ := by
    rw [clientRequest, hproperty]
  cases event with
  | connect common_name =>
      refine ⟨RefCount.connect serviceId api workerId uuid, ?_, fun other => ?_⟩
      · rw [receive, hbody]
        simp [hrequest, script_connect, RefCount.postClients, hip]
      · exact RefCount.handle_refCount serviceId api (.connect uuid workerId) other
  | disconnect common_name bytes_received bytes_sent duration =>
      refine ⟨RefCount.disconnect serviceId api workerId uuid time_duration, ?_, fun other => ?_⟩
      · rw [receive, hbody]
        simp [hrequest, script_disconnect, RefCount.deleteClients, hip]
      · exact RefCount.handle_refCount serviceId api (.disconnect uuid workerId time_duration) other

end Survival

section Theorems

-- A notification arrives as it was meant if and only if its name has no quote and no
-- backslash, its duration is a double, and its body is not too long.
theorem survives_iff (workerId : Nat) {event : Event}
    (hprintable : Auth.Printable event.common_name) :
    Survives workerId event ↔
      Auth.NeedsNoEscape event.common_name ∧ event.Exact ∧ event.Fits := by
  constructor
  · rintro ⟨hread, _⟩
    have hplain := needsNoEscape_of_readBack hprintable hread
    obtain ⟨members, hbody, _, hduration⟩ := hread
    have hfits : event.Fits := by
      rw [← fits_iff workerId hprintable]
      by_contra hlong
      rw [parseBody, if_neg hlong] at hbody
      cases hbody
    refine ⟨hplain, fun time_duration htime => ?_, hfits⟩
    rw [parseBody_members workerId hprintable hplain hfits] at hbody
    obtain rfl := Json.object.inj (Option.some.inj hbody)
    have hdouble := hduration time_duration htime
    rw [get_time_duration htime, Option.bind_some, double_digits] at hdouble
    exact Option.some.inj hdouble
  · rintro ⟨hplain, hexact, hfits⟩
    have hbody := parseBody_members workerId hprintable hplain hfits
    refine ⟨⟨event.members, hbody, get_common_name event, fun time_duration htime => ?_⟩,
      fun serviceId api ip hip =>
        receive_common_name (get_common_name event) serviceId api hip hbody⟩
    rw [get_time_duration htime, Option.bind_some, double_digits, hexact time_duration htime]

theorem survives_plain : Survives 1 (.disconnect "c0ffee".toList 1200 340 900) := by
  refine (survives_iff 1 (by decide +kernel)).mpr ⟨by decide +kernel, fun time_duration h => ?_, ?_⟩
  · obtain rfl : 900 = time_duration := Option.some.inj h
    decide +kernel
  · have hlength : byteLength "c0ffee".toList + (Nat.toDigits 10 1200).length +
        (Nat.toDigits 10 340).length + (Nat.toDigits 10 900).length + 71 ≤ bodyLimit := by
      decide +kernel
    exact hlength

-- A client that connects under a name which closes its literal and names another device.
-- The refcount of that device goes up, and the one of the name does not.
theorem survives_injected :
    ¬Survives 1 (.connect "mallory\",\"common_name\":\"c0ffee".toList) ∧
      (receive 1 .initial "127.0.0.1"
          (script 1 (Event.connect "mallory\",\"common_name\":\"c0ffee".toList).env)).map
        (fun handled => (handled.api.refCount (utf16 "c0ffee".toList),
          handled.api.refCount (utf16 "mallory\",\"common_name\":\"c0ffee".toList))) =
        some (1, 0) := by
  refine ⟨fun hsurvives => ?_, by decide +kernel⟩
  have hprintable : Auth.Printable
      (Event.connect "mallory\",\"common_name\":\"c0ffee".toList).common_name := by decide +kernel
  have hquote : ¬Auth.NeedsNoEscape "mallory\",\"common_name\":\"c0ffee".toList := by
    decide +kernel
  exact hquote (needsNoEscape_of_readBack hprintable hsurvives.1)

end Theorems

end OpenBalenaVpn.ClientScript
