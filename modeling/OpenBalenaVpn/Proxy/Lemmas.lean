import OpenBalenaVpn.Proxy
import Mathlib.Data.List.TakeWhile

namespace OpenBalenaVpn.Proxy

section Hostname

structure IsUuid (uuid : Text) : Prop where
  ne_nil : uuid ≠ []
  hex : ∀ c ∈ uuid, isHexDigit c = true

theorem matchHostname_uuid {url uuid : Text} {port : Option Text}
    (h : matchHostname url = some (uuid, port)) : IsUuid uuid := by
  unfold matchHostname at h
  simp only at h
  split at h
  · cases h
  · rename_i hne
    obtain ⟨rest, _, h⟩ := Option.bind_eq_some_iff.mp h
    obtain ⟨port', _, h⟩ := Option.bind_eq_some_iff.mp h
    obtain ⟨rfl, _⟩ := Prod.mk.inj (Option.some.inj h)
    exact ⟨hne, fun c hc => List.mem_takeWhile_imp hc⟩

theorem matchHostname_append {uuid : Text} (h : IsUuid uuid) (rest : Text) :
    matchHostname (uuid ++ '.' :: rest) =
      (stripTld ('.' :: rest)).bind fun port =>
        (hostnamePort port).map fun port => (uuid, port) := by
  have hdot : isHexDigit '.' = false := by decide
  have htake : (uuid ++ '.' :: rest).takeWhile isHexDigit = uuid := by
    rw [List.takeWhile_append_of_pos h.hex, List.takeWhile_cons_of_neg (by simp [hdot]),
      List.append_nil]
  have hdrop : (uuid ++ '.' :: rest).dropWhile isHexDigit = '.' :: rest := by
    rw [List.dropWhile_append_of_pos h.hex, List.dropWhile_cons_of_neg (by simp [hdot])]
  simp only [matchHostname, htake, hdrop, if_neg h.ne_nil]
  cases stripTld ('.' :: rest) with
  | none => rfl
  | some port => cases hport : hostnamePort port <;> simp [hport]

theorem hostnamePort_digits {digits : Text} (hne : digits ≠ [])
    (hd : ∀ c ∈ digits, c.isDigit = true) : hostnamePort (':' :: digits) = some (some digits) :=
  if_pos ⟨hne, List.all_eq_true.mpr hd⟩

theorem matchHostname_vpn {uuid : Text} (h : IsUuid uuid) (port : Text) :
    matchHostname (uuid ++ ".vpn:".toList ++ port) =
      (hostnamePort (':' :: port)).map fun port => (uuid, port) := by
  have hsplit : uuid ++ ".vpn:".toList ++ port = uuid ++ '.' :: ("vpn:".toList ++ port) := by
    rw [List.append_assoc]
    rfl
  rw [hsplit, matchHostname_append h]
  rfl

theorem matchHostname_balena {uuid : Text} (h : IsUuid uuid) (port : Text) :
    matchHostname (uuid ++ ".balena:".toList ++ port) =
      (hostnamePort (':' :: port)).map fun port => (uuid, port) := by
  have hsplit : uuid ++ ".balena:".toList ++ port = uuid ++ '.' :: ("balena:".toList ++ port) := by
    rw [List.append_assoc]
    rfl
  rw [hsplit, matchHostname_append h]
  rfl

theorem hostnamePort_of_not_digits {digits : Text} {c : Char} (hc : c ∈ digits)
    (hd : c.isDigit = false) : hostnamePort (':' :: digits) = none := by
  refine if_neg fun h => ?_
  rw [List.all_eq_true.mp h.2 c hc] at hd
  cases hd

end Hostname

section ParseRequest

theorem parseRequest_ok {req : Request} {target : Target} (h : parseRequest req = .ok target) :
    IsUuid target.uuid ∧ (∃ digits, target.port = .parseInt digits) ∧
      target.auth = req.password.map bytes := by
  unfold parseRequest at h
  split at h
  · cases h
  · split at h
    · cases h
    · rename_i hmatch
      obtain rfl := Except.ok.inj h
      exact ⟨matchHostname_uuid hmatch, ⟨_, rfl⟩, rfl⟩

-- The host and port that an instance writes are read again as they were, unless
-- the port is a number that does not print as digits.
theorem parseRequest_written (req : Request) {url uuid digits : Text} {port : Number}
    (hurl : req.url = some url) (hport : port = .parseInt digits)
    (hmatch : matchHostname url =
      (hostnamePort (':' :: port.text)).map fun port => (uuid, port)) :
    (port.Plain → parseRequest req = .ok ⟨uuid, port, req.password.map bytes⟩) ∧
      (¬port.Plain → ∃ message, parseRequest req = .error (.invalidHostname message)) := by
  constructor
  · intro hplain
    obtain ⟨hne, hd⟩ := Number.text_digits hplain
    rw [hostnamePort_digits hne hd] at hmatch
    subst hport
    simp [parseRequest, hurl, hmatch, Number.parseInt_text hplain]
  · intro hplain
    obtain ⟨c, hc, hd⟩ := Number.text_of_not_plain hplain
    rw [hostnamePort_of_not_digits hc hd] at hmatch
    exact ⟨_, by simp only [parseRequest, hurl, hmatch]; rfl⟩

end ParseRequest

section Head

theorem isHexDigit_ne {c d : Char} (hc : isHexDigit c = true) (hd : isHexDigit d = false) :
    c ≠ d := by
  rintro rfl
  rw [hc] at hd
  cases hd

-- A character that stands in none of the parts of a written host.
theorem notMem_host {uuid : Text} (hu : IsUuid uuid) {d : Char} (hhex : isHexDigit d = false)
    (htld : d ∉ ".balena:".toList) {port : Number} (hport : d ∉ port.text) :
    d ∉ uuid ++ ".balena:".toList ++ port.text := by
  simp only [List.mem_append, not_or]
  exact ⟨⟨fun hm => isHexDigit_ne (hu.hex d hm) hhex rfl, htld⟩, hport⟩

theorem parseRequestLine_connect {target : Text} (hne : target ≠ []) (hsp : ' ' ∉ target) :
    Http.parseRequestLine ("CONNECT ".toList ++ target ++ " HTTP/1.0".toList) =
      some ("CONNECT".toList, target) := by
  have hline : "CONNECT ".toList ++ target ++ " HTTP/1.0".toList =
      "CONNECT".toList ++ ' ' :: (target ++ ' ' :: "HTTP/1.0".toList) := by
    rw [List.append_assoc]
    rfl
  have htake : (target ++ ' ' :: "HTTP/1.0".toList).takeWhile (· ≠ ' ') = target :=
    Http.takeWhile_ne_append hsp _
  have hdrop : (target ++ ' ' :: "HTTP/1.0".toList).dropWhile (· ≠ ' ') =
      ' ' :: "HTTP/1.0".toList := Http.dropWhile_ne_append hsp _
  have hmethod : ("CONNECT".toList ++ ' ' :: (target ++ ' ' :: "HTTP/1.0".toList)).takeWhile
      (· ≠ ' ') = "CONNECT".toList := rfl
  have hrest : (("CONNECT".toList ++ ' ' :: (target ++ ' ' :: "HTTP/1.0".toList)).dropWhile
      (· ≠ ' ')).drop 1 = target ++ ' ' :: "HTTP/1.0".toList := rfl
  rw [hline]
  simp only [Http.parseRequestLine, hmethod, hrest, htake, hdrop]
  exact if_pos ⟨by decide, hne, Or.inl rfl⟩

def host (uuid : Text) (port : Number) : Text := uuid ++ ".balena:".toList ++ port.text

-- The head that `forwardRequest` writes, line by line: no header other than the
-- credential, and in particular no Forwarded header.
theorem forwardRequest_lines (uuid : Text) (port : Number) (proxyAuth : Option (List UInt8)) :
    forwardRequest uuid port proxyAuth =
      "CONNECT ".toList ++ host uuid port ++ " HTTP/1.0".toList ++ '\r' :: '\n' ::
        (match proxyAuth with
        | none => ['\r', '\n']
        | some auth => "Proxy-Authorization".toList ++
            ':' :: (" Basic ".toList ++ Base64.encode auth) ++ '\r' :: '\n' :: ['\r', '\n']) := by
  have hversion : " HTTP/1.0\r\n".toList = " HTTP/1.0".toList ++ ['\r', '\n'] := by simp
  have hline : "\r\n".toList = ['\r', '\n'] := by simp
  have hname : "Proxy-Authorization: Basic ".toList =
      "Proxy-Authorization".toList ++ ':' :: " Basic ".toList := by simp
  have hwritten : forwardRequest uuid port proxyAuth =
      "CONNECT ".toList ++ uuid ++ ".balena:".toList ++ port.text ++ " HTTP/1.0\r\n".toList ++
        (match proxyAuth with
        | none => []
        | some auth =>
            "Proxy-Authorization: Basic ".toList ++ Base64.encode auth ++ "\r\n".toList) ++
        "\r\n".toList := rfl
  rw [hwritten, hversion, hline, hname]
  cases proxyAuth <;> simp only [host, List.append_assoc, List.cons_append, List.nil_append]

theorem notMem_credential (auth : List UInt8) :
    '\r' ∉ "Proxy-Authorization".toList ++ ':' :: (" Basic ".toList ++ Base64.encode auth) := by
  have hencode : '\r' ∉ Base64.encode auth := by
    intro hm
    rcases Base64.mem_encode hm with hm | he
    · have hout : '\r' ∉ Base64.alphabet := by decide +kernel
      exact hout hm
    · cases he
  simp [hencode]

theorem addHeader_credential (value : Text) :
    Http.addHeader .empty ("Proxy-Authorization".toList ++ ':' :: value) =
      some (OrderedMap.empty.set "proxy-authorization".toList (Http.trim value)) := by
  have hlower : "Proxy-Authorization".toList.map Char.toLower = "proxy-authorization".toList := by
    decide
  rw [Http.addHeader_append (by decide) (by decide), hlower]
  rfl

theorem receive_of_parseHead (basicAuth : Text → Option Text) {text : Text} {head : Http.Head}
    (hhead : Http.parseHead text = some head) (hmethod : head.method = "CONNECT".toList) :
    receive basicAuth text = some ⟨some head.target, head.headers,
      (head.headers.get "proxy-authorization".toList).bind basicAuth⟩ := by
  rw [receive, hhead, Option.bind_some, if_pos hmethod]

-- The next instance reads the host, no Forwarded header, and the credential if there is one.
theorem receive_forwardRequest (basicAuth : Text → Option Text) {uuid : Text} (hu : IsUuid uuid)
    (port : Number) (proxyAuth : Option (List UInt8)) :
    ∃ req, receive basicAuth (forwardRequest uuid port proxyAuth) = some req ∧
      req.url = some (host uuid port) ∧ req.headers.get "forwarded".toList = none ∧
      req.password = (proxyAuth.map fun auth =>
        Http.trim (" Basic ".toList ++ Base64.encode auth)).bind basicAuth := by
  have hcr : '\r' ∉ "CONNECT ".toList ++ host uuid port ++ " HTTP/1.0".toList := by
    have hport := Number.notMem_text (show '\r'.isDigit = false by decide) (by decide) (by decide)
      port
    have hhost : '\r' ∉ host uuid port := notMem_host hu (by decide) (by decide) hport
    simp only [List.mem_append, not_or]
    exact ⟨⟨by decide, hhost⟩, by decide⟩
  have hsp : ' ' ∉ host uuid port := notMem_host hu (by decide) (by decide)
    (Number.notMem_text (by decide) (by decide) (by decide) port)
  have hne : host uuid port ≠ [] := by simp [host]
  have hrequest := parseRequestLine_connect hne hsp
  rw [forwardRequest_lines]
  cases proxyAuth with
  | none =>
      have hlines := Http.splitLines_line hcr ['\r', '\n']
      have hhead := Http.parseHead_of_lines [] [[]] hlines (by simp) hrequest
        rfl
      exact ⟨_, receive_of_parseHead basicAuth hhead rfl, rfl, rfl, rfl⟩
  | some auth =>
      have hlines := Http.splitLines_line hcr ("Proxy-Authorization".toList ++
        ':' :: (" Basic ".toList ++ Base64.encode auth) ++ '\r' :: '\n' :: ['\r', '\n'])
      rw [Http.splitLines_line (notMem_credential auth)] at hlines
      have hheader := addHeader_credential (" Basic ".toList ++ Base64.encode auth)
      have hhead := Http.parseHead_of_lines [_] [[]] hlines (by simp) hrequest
        (by rw [List.foldlM_cons, hheader]; rfl)
      refine ⟨_, receive_of_parseHead basicAuth hhead rfl, rfl, ?_, ?_⟩
      · exact OrderedMap.get_set_of_ne _ _ _ _ (by decide)
      · simp only [OrderedMap.get_set_self]
        rfl

end Head

end OpenBalenaVpn.Proxy
