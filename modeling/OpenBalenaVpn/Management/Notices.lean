import OpenBalenaVpn.Management
import OpenBalenaVpn.VpnManager.Env
import OpenBalenaVpn.Foundation.JsString.Numbers

namespace OpenBalenaVpn.Management

open JsString VpnManager

section Notices

def digits (value : Nat) : Text := Nat.toDigits 10 value

-- What openvpn writes to the management interface: the blocks of a client, the line of an
-- address, the traffic of a client, and lines that are about none of these.
inductive Notice where
  | established (clientId : Nat) (common_name : Text) (before after : List (Text × Text))
  | client (eventType : EventType) (clientId : Nat) (eventArgs : List Text)
      (env : List (Text × Text))
  | address (clientId : Nat) (ip : Text) (primary : Bool)
  | bytecount (clientId bytesReceived bytesSent : Nat)
  | other (line : Text)

def openingLine (eventType : EventType) (clientId : Nat) (eventArgs : List Text) : Text :=
  ">CLIENT:".toList ++ (eventType.text.toList ++
    ',' :: (digits clientId ++ eventArgs.flatMap (',' :: ·)))

def variableLine (pair : Text × Text) : Text :=
  ">CLIENT:ENV,".toList ++ (pair.1 ++ '=' :: pair.2)

def endLine : Text := ">CLIENT:ENV,END".toList

def blockLines (eventType : EventType) (clientId : Nat) (eventArgs : List Text)
    (env : List (Text × Text)) : List Text :=
  openingLine eventType clientId eventArgs :: (env.map variableLine ++ [endLine])

def Notice.lines : Notice → List Text
  | .established clientId common_name before after =>
      blockLines .ESTABLISHED clientId []
        (before ++ ("common_name".toList, common_name) :: after)
  | .client eventType clientId eventArgs env => blockLines eventType clientId eventArgs env
  | .address clientId ip primary =>
      [openingLine .ADDRESS clientId [ip, if primary then ['1'] else ['0']]]
  | .bytecount clientId bytesReceived bytesSent =>
      [">BYTECOUNT_CLI:".toList ++
        (digits clientId ++ ',' :: (digits bytesReceived ++ ',' :: digits bytesSent))]
  | .other line => [line]

def ended (line : Text) : Text := line ++ ['\r', '\n']

def Notice.text (notice : Notice) : Text := notice.lines.flatMap ended

-- What the worker is to be told of a notice.
def Notice.report : Notice → Option Report
  | .established clientId common_name _ _ => some (.established clientId (utf16 common_name))
  | .bytecount clientId bytesReceived bytesSent =>
      some (.bytecount clientId bytesReceived bytesSent)
  | .client .. | .address .. | .other _ => none

-- A pair on a line of its own, under a name without the separator.
structure Variable (pair : Text × Text) : Prop where
  line : '\n' ∉ variableLine pair
  name : '=' ∉ pair.1

-- What the manager gets of a line.
def asLine (line : Text) : JsString := trim (utf16 line)

-- The numbers are exact, the lines are lines, and the common name is one that the manager
-- does not cut.
def Notice.Plain : Notice → Prop
  | .established clientId common_name before after =>
      clientId < 2 ^ 53 ∧
      (∀ pair ∈ before ++ ("common_name".toList, common_name) :: after, Variable pair) ∧
      (∀ pair ∈ after, pair.1 ≠ "common_name".toList) ∧
      '=' ∉ common_name ∧ trimEnd (utf16 common_name) = utf16 common_name
  | .client eventType _ eventArgs env =>
      eventType ≠ .ESTABLISHED ∧ (∀ arg ∈ eventArgs, '\n' ∉ arg) ∧
      ∀ pair ∈ env, Variable pair
  | .address _ ip _ => '\n' ∉ ip
  | .bytecount clientId bytesReceived bytesSent =>
      clientId < 2 ^ 53 ∧ bytesReceived < 2 ^ 53 ∧ bytesSent < 2 ^ 53
  | .other line =>
      '\n' ∉ line ∧ header (asLine line) = none ∧
      startsWith (asLine line) ">BYTECOUNT_CLI:" = false

-- The notices whose text has come whole.
def arrived : List Notice → Text → List Notice
  | [], _ => []
  | notice :: notices, received =>
      if notice.text <+: received then
        notice :: arrived notices (received.drop notice.text.length)
      else []

end Notices

section Numbers

theorem parseInt_digits {value : Nat} (h : value < 2 ^ 53) :
    parseInt (utf16 (digits value)) = .number false (.finite value) := by
  rw [digits, parseInt_toDigits, Number.Integer.ofNat_small h]

theorem natural_number (value : Nat) : natural (.number false (.finite value)) = some value := rfl

end Numbers

section Lines

theorem comma_notMem_digits (value : Nat) : ','.toNat ∉ utf16 (digits value) := fun hmem =>
  absurd ((Json.natural_toDigits value).digits _ hmem) (by decide)

theorem trimEnd_digits (value : Nat) : trimEnd (utf16 (digits value)) = utf16 (digits value) := by
  have hnatural := Json.natural_toDigits value
  refine List.rdropWhile_eq_self_iff.mpr fun hne => ?_
  rw [isSpace_of_isDigit (hnatural.digits _ (List.getLast_mem hne))]
  exact Bool.false_ne_true

theorem variableLine_eq (pair : Text × Text) :
    variableLine pair = ">CLIENT:ENV,".toList ++ (pair.1 ++ '=' :: pair.2) := rfl

theorem openingLine_eq (eventType : EventType) (clientId : Nat) (eventArgs : List Text) :
    openingLine eventType clientId eventArgs = ">CLIENT:".toList ++ (eventType.text.toList ++
      ',' :: (digits clientId ++ eventArgs.flatMap (',' :: ·))) := rfl

-- White space is trimmed from the value only.
theorem asLine_variableLine (pair : Text × Text) :
    asLine (variableLine pair) = envLine (utf16 pair.1, trimEnd (utf16 pair.2)) := by
  have hstart : utf16 ">CLIENT:ENV,".toList = '>'.toNat :: utf16 "CLIENT:ENV,".toList := rfl
  have hunits : utf16 (variableLine pair) =
      '>'.toNat :: (utf16 "CLIENT:ENV,".toList ++ utf16 pair.1) ++ '='.toNat :: utf16 pair.2 := by
    rw [variableLine_eq, Json.utf16_append, Json.utf16_append, Json.utf16_cons (by decide), hstart]
    simp only [List.cons_append, List.append_assoc]
  rw [asLine, hunits, trim_append (by decide) (by decide), envLine, hstart]
  simp only [List.cons_append, List.append_assoc]

theorem asLine_endLine : asLine endLine = ENV_END := by decide +kernel

theorem header_opening (eventType : EventType) (rest : JsString) :
    header (utf16 ">CLIENT:".toList ++ (utf16 eventType.text.toList ++ ','.toNat :: rest)) =
      some ⟨eventType, parsePiece (split rest ',').head?, (split rest ',').tail, .empty⟩ := by
  cases eventType <;> rfl

theorem header_openingLine (eventType : EventType) (clientId : Nat) (eventArgs : List Text) :
    let pieces := split (trimEnd (utf16 (digits clientId ++ eventArgs.flatMap (',' :: ·)))) ','
    header (asLine (openingLine eventType clientId eventArgs)) =
      some ⟨eventType, parsePiece pieces.head?, pieces.tail, .empty⟩ := by
  have hstart : utf16 ">CLIENT:".toList = '>'.toNat :: utf16 "CLIENT:".toList := rfl
  have hunits : utf16 (openingLine eventType clientId eventArgs) =
      '>'.toNat :: (utf16 "CLIENT:".toList ++ utf16 eventType.text.toList) ++
        ','.toNat :: utf16 (digits clientId ++ eventArgs.flatMap (',' :: ·)) := by
    rw [openingLine_eq, Json.utf16_append, Json.utf16_append, Json.utf16_cons (by decide), hstart]
    simp only [List.cons_append, List.append_assoc]
  have hline : asLine (openingLine eventType clientId eventArgs) =
      utf16 ">CLIENT:".toList ++ (utf16 eventType.text.toList ++
        ','.toNat :: trimEnd (utf16 (digits clientId ++ eventArgs.flatMap (',' :: ·)))) := by
    rw [asLine, hunits, trim_append (by decide) (by decide), hstart]
    simp only [List.cons_append, List.append_assoc]
  rw [hline, header_opening]

theorem header_established {clientId : Nat} (h : clientId < 2 ^ 53) :
    header (asLine (openingLine .ESTABLISHED clientId [])) =
      some ⟨.ESTABLISHED, .number false (.finite clientId), [], .empty⟩ := by
  rw [header_openingLine, List.flatMap_nil, List.append_nil, trimEnd_digits,
    split_of_notMem (comma_notMem_digits clientId), List.head?_cons, parsePiece,
    parseInt_digits h, List.tail_cons]

def countLine (clientId bytesReceived bytesSent : Nat) : JsString :=
  utf16 ">BYTECOUNT_CLI:".toList ++ (utf16 (digits clientId) ++
    ','.toNat :: (utf16 (digits bytesReceived) ++ ','.toNat :: utf16 (digits bytesSent)))

theorem asLine_bytecount (clientId bytesReceived bytesSent : Nat) :
    asLine (">BYTECOUNT_CLI:".toList ++
        (digits clientId ++ ',' :: (digits bytesReceived ++ ',' :: digits bytesSent))) =
      countLine clientId bytesReceived bytesSent := by
  have hstart : utf16 ">BYTECOUNT_CLI:".toList = '>'.toNat :: utf16 "BYTECOUNT_CLI:".toList := rfl
  have hunits : utf16 (">BYTECOUNT_CLI:".toList ++
        (digits clientId ++ ',' :: (digits bytesReceived ++ ',' :: digits bytesSent))) =
      '>'.toNat :: (utf16 "BYTECOUNT_CLI:".toList ++ (utf16 (digits clientId) ++
        ','.toNat :: utf16 (digits bytesReceived))) ++ ','.toNat :: utf16 (digits bytesSent) := by
    rw [Json.utf16_append, Json.utf16_append, Json.utf16_cons (by decide), Json.utf16_append,
      Json.utf16_cons (by decide), hstart]
    simp only [List.cons_append, List.append_assoc]
  rw [asLine, hunits, trim_append (by decide) (by decide), trimEnd_digits, countLine, hstart]
  simp only [List.cons_append, List.append_assoc]

theorem ownEvents_countLine {clientId bytesReceived bytesSent : Nat} (hid : clientId < 2 ^ 53)
    (hreceived : bytesReceived < 2 ^ 53) (hsent : bytesSent < 2 ^ 53) :
    ownEvents (countLine clientId bytesReceived bytesSent) =
      [.bytecount (.number false (.finite clientId)) (.number false (.finite bytesReceived))
        (.number false (.finite bytesSent))] := by
  have hpieces : split ((countLine clientId bytesReceived bytesSent).drop 15) ',' =
      [utf16 (digits clientId), utf16 (digits bytesReceived), utf16 (digits bytesSent)] := by
    have hdrop : (countLine clientId bytesReceived bytesSent).drop 15 = utf16 (digits clientId) ++
      ','.toNat :: (utf16 (digits bytesReceived) ++ ','.toNat :: utf16 (digits bytesSent)) := rfl
    rw [hdrop, split_append (comma_notMem_digits clientId),
      split_append (comma_notMem_digits bytesReceived),
      split_of_notMem (comma_notMem_digits bytesSent)]
  have hlog : startsWith (countLine clientId bytesReceived bytesSent) ">LOG:" = false := rfl
  have hcount : startsWith (countLine clientId bytesReceived bytesSent) ">BYTECOUNT_CLI:" = true :=
    rfl
  rw [ownEvents, hlog, hcount, if_neg Bool.false_ne_true, if_pos rfl, hpieces]
  simp [parsePiece, parseInt_digits hid, parseInt_digits hreceived, parseInt_digits hsent]

theorem header_countLine (clientId bytesReceived bytesSent : Nat) :
    header (countLine clientId bytesReceived bytesSent) = none := rfl

theorem not_isEnv_countLine (clientId bytesReceived bytesSent : Nat) :
    ¬IsEnv (countLine clientId bytesReceived bytesSent) := by
  rintro ⟨henv, _⟩
  have hnot : startsWith (countLine clientId bytesReceived bytesSent) ">CLIENT:ENV" = false := rfl
  rw [hnot] at henv
  cases henv

end Lines

section Hearing

-- What the worker is told of the events of the manager.
def hears : List VpnManager.Event → Option (List Report)
  | [] => some []
  | event :: events => do
      let report ← heard event
      let reports ← hears events
      some (report.toList ++ reports)

theorem hears_append {events later : List VpnManager.Event} {reports more : List Report}
    (h : hears events = some reports) (hlater : hears later = some more) :
    hears (events ++ later) = some (reports ++ more) := by
  induction events generalizing reports with
  | nil =>
      obtain rfl := Option.some.inj h
      exact hlater
  | cons event events ih =>
      simp only [hears, Option.bind_eq_bind, Option.bind_eq_some_iff] at h
      obtain ⟨report, hreport, rest, hrest, hall⟩ := h
      obtain rfl := Option.some.inj hall
      simp [hears, hreport, ih hrest]

theorem hears_singleton {event : VpnManager.Event} {report : Option Report}
    (h : heard event = some report) : hears [event] = some report.toList := by
  simp [hears, h]

-- The worker does not hear of a block that is still open.
def Quiet (mode : Mode) : Prop := ∀ block, mode = .inside block → block.eventType ≠ .ESTABLISHED

theorem quiet_idle : Quiet .idle := fun _ h => by cases h

theorem heard_client {block : VpnManager.Block} (h : block.eventType ≠ .ESTABLISHED) :
    heard (.client block) = some none := by
  cases htype : block.eventType with
  | ESTABLISHED => exact absurd htype h
  | CONNECT => simp [heard, htype]
  | ADDRESS => simp [heard, htype]
  | DISCONNECT => simp [heard, htype]

-- The reports of the manager's events, when no block of an established client is open.
structure Told (reference : Reference) (reports : List Report) : Prop where
  quiet : Quiet reference.mode
  events : hears reference.events = some reports

theorem told_initial : Told ⟨.idle, []⟩ [] := ⟨quiet_idle, rfl⟩

variable {reference : Reference} {reports more : List Report}

-- A line that is no variable ends the open block, of which the worker does not hear.
theorem Told.ended (h : Told reference reports) {data : JsString} (henv : ¬IsEnv data) :
    ∃ events, hears events = some [] ∧ reference.next data =
      ⟨.after data, reference.events ++ events ++ ownEvents data⟩ := by
  obtain ⟨mode, before⟩ := reference
  cases mode with
  | idle => exact ⟨[], rfl, by simp [Reference.next]⟩
  | inside block =>
      exact ⟨[.client block], hears_singleton (heard_client (h.quiet block rfl)),
        by simp [next_of_not_isEnv henv]⟩

theorem Told.opened (h : Told reference reports) {data : JsString}
    {block : VpnManager.Block} (hheader : header data = some block) : ∃ events,
      reference.next data = ⟨.inside block, events⟩ ∧ hears events = some reports := by
  obtain ⟨events, hevents, hnext⟩ := h.ended (not_isEnv_of_header hheader)
  have hclient := (header_eq_some hheader).1
  refine ⟨reference.events ++ events, ?_, ?_⟩
  · rw [hnext, ownEvents_of_client hclient, List.append_nil, Mode.after, hheader]
  · simpa using hears_append h.events hevents

-- A line that opens no block, with what the worker hears of it.
theorem Told.line (h : Told reference reports) {data : JsString} (henv : ¬IsEnv data)
    (hheader : header data = none) (hown : hears (ownEvents data) = some more) :
    Told (reference.next data) (reports ++ more) := by
  obtain ⟨events, hevents, hnext⟩ := h.ended henv
  rw [hnext]
  refine ⟨?_, ?_⟩
  · simp only [Mode.after, hheader]
    exact quiet_idle
  · simpa using hears_append (hears_append h.events hevents) hown

theorem ownEvents_of_isEnv {data : JsString} (h : IsEnv data) : ownEvents data = [] := by
  obtain ⟨rest, hrest⟩ := List.isPrefixOf_iff_prefix.mp h.1
  refine ownEvents_of_client (List.isPrefixOf_iff_prefix.mpr ⟨utf16 "ENV".toList ++ rest, ?_⟩)
  rw [← hrest]
  rfl

end Hearing

section Reading

variable {reference : Reference} {reports : List Report}

-- A variable as it is on its line.
def decoded (pair : Text × Text) : JsString × JsString := (utf16 pair.1, trimEnd (utf16 pair.2))

theorem asLine_blockLines (eventType : EventType) (clientId : Nat) (eventArgs : List Text)
    (env : List (Text × Text)) : (blockLines eventType clientId eventArgs env).map asLine =
      asLine (openingLine eventType clientId eventArgs) ::
        ((env.map decoded).map envLine ++ [ENV_END]) := by
  rw [blockLines, List.map_cons, List.map_append, List.map_map, List.map_map, List.map_singleton,
    asLine_endLine]
  have henv : asLine ∘ variableLine = envLine ∘ decoded := funext asLine_variableLine
  rw [henv]

theorem isEnv_of_mem {env : List (Text × Text)} :
    ∀ data ∈ (env.map decoded).map envLine, IsEnv data := by
  intro data hd
  obtain ⟨pair, _, rfl⟩ := List.mem_map.mp hd
  exact isEnv_envLine pair

theorem decoded_names {env : List (Text × Text)} (h : ∀ pair ∈ env, Variable pair) :
    ∀ pair ∈ env.map decoded, '='.toNat ∉ pair.1 := by
  intro pair hp
  obtain ⟨source, hs, rfl⟩ := List.mem_map.mp hp
  exact (not_congr (mem_utf16_iff (by decide) source.1)).mpr (h source hs).name

-- The lines of a block make one event of it.
theorem Told.block (h : Told reference reports) {eventType : EventType} {clientId : Nat}
    {eventArgs : List Text} {env : List (Text × Text)} {block : VpnManager.Block}
    (hheader : header (asLine (openingLine eventType clientId eventArgs)) = some block)
    (henv : ∀ pair ∈ env, Variable pair) : ∃ events, hears events = some reports ∧
      ((blockLines eventType clientId eventArgs env).map asLine).foldl Reference.next reference =
        ⟨.idle, events ++ [.client { block with env := decode .empty (env.map decoded) }]⟩ := by
  obtain ⟨events, hopened, hevents⟩ := h.opened hheader
  refine ⟨events, hevents, ?_⟩
  have hmode : Mode.after ENV_END = .idle := by rw [Mode.after, header_ENV_END]
  rw [asLine_blockLines, List.foldl_cons, hopened, List.foldl_append,
    foldl_next_env isEnv_of_mem, foldl_read_envLine (decoded_names henv), env_of_header hheader,
    List.foldl_cons, List.foldl_nil, next_of_not_isEnv (fun hend => hend.2 rfl), hmode,
    ownEvents_ENV_END]

-- The lines of a block up to its last make none.
theorem Told.block_unfinished (h : Told reference reports) {eventType : EventType}
    {clientId : Nat} {eventArgs : List Text} {env : List (Text × Text)} {count : Nat}
    (hcount : count < (blockLines eventType clientId eventArgs env).length) :
    hears (((blockLines eventType clientId eventArgs env).take count).map asLine |>.foldl
      Reference.next reference).events = some reports := by
  rw [List.map_take, asLine_blockLines]
  cases count with
  | zero => exact h.events
  | succ count =>
      obtain ⟨events, hopened, hevents⟩ :=
        h.opened (header_openingLine eventType clientId eventArgs)
      have hle : count ≤ ((env.map decoded).map envLine).length := by
        simp only [blockLines, List.length_cons, List.length_append, List.length_map,
          List.length_nil] at hcount ⊢
        omega
      rw [List.take_succ_cons, List.take_append_of_le_length hle, List.foldl_cons, hopened,
        foldl_next_env fun data hd => isEnv_of_mem data (List.mem_of_mem_take hd)]
      exact hevents

-- The common name is that of the last variable of this name.
theorem commonName_decode {clientId : ParsedInt} {common_name : Text}
    {before after : List (Text × Text)} (hafter : ∀ pair ∈ after, pair.1 ≠ "common_name".toList)
    (hname : '=' ∉ common_name) (htrim : trimEnd (utf16 common_name) = utf16 common_name) :
    commonName ⟨.ESTABLISHED, clientId, [], decode .empty
      ((before ++ ("common_name".toList, common_name) :: after).map decoded)⟩ =
        some (utf16 common_name) := by
  have hnot : COMMON_NAME ∉ (after.map decoded).map Prod.fst := by
    intro hmem
    obtain ⟨pair, hp, heq⟩ := List.mem_map.mp hmem
    obtain ⟨source, hs, rfl⟩ := List.mem_map.mp hp
    exact hafter source hs (Json.utf16_injective heq)
  have hhead : (split (utf16 common_name) '=').head? = some (utf16 common_name) :=
    (split_head_eq_iff _ _).mpr ((not_congr (mem_utf16_iff (by decide) common_name)).mpr hname)
  have hdecoded : decoded ("common_name".toList, common_name) =
      (COMMON_NAME, utf16 common_name) := by rw [decoded, htrim, COMMON_NAME]
  have hproto : COMMON_NAME ≠ PROTO := by decide
  have hget : (decode .empty ((before ++ ("common_name".toList, common_name) :: after).map
      decoded)).get COMMON_NAME = some (some (utf16 common_name)) := by
    rw [List.map_append, List.map_cons, hdecoded, decode, List.foldl_append, List.foldl_cons,
      ← decode, ← decode, get_decode_of_notMem hnot, get_assign, if_pos ⟨rfl, hproto⟩, hhead]
  simp only [commonName, hget, Option.join_some]

theorem hears_ownEvents {data : JsString} (h : startsWith data ">BYTECOUNT_CLI:" = false) :
    hears (ownEvents data) = some [] := by
  rw [ownEvents, h, if_neg Bool.false_ne_true]
  split <;> rfl

theorem Told.other (h : Told reference reports) {data : JsString} (hheader : header data = none)
    (hcount : startsWith data ">BYTECOUNT_CLI:" = false) : Told (reference.next data) reports := by
  by_cases henv : IsEnv data
  · obtain ⟨mode, events⟩ := reference
    cases mode with
    | idle =>
        refine ⟨?_, ?_⟩
        · simp only [Reference.next, Mode.after, hheader]
          exact quiet_idle
        · simpa [Reference.next, ownEvents_of_isEnv henv] using h.events
    | inside block =>
        rw [next_of_isEnv henv]
        refine ⟨fun other ho => ?_, h.events⟩
        obtain rfl := Mode.inside.inj ho
        exact h.quiet block rfl
  · simpa using h.line henv hheader (hears_ownEvents hcount)

-- The worker hears of a notice when its last line has come.
theorem Told.notice (h : Told reference reports) {notice : Notice} (hplain : notice.Plain) :
    Told ((notice.lines.map asLine).foldl Reference.next reference)
      (reports ++ notice.report.toList) := by
  cases notice with
  | established clientId common_name before after =>
      obtain ⟨hid, henv, hafter, hname, htrim⟩ := hplain
      obtain ⟨events, hevents, hnext⟩ := h.block (header_established hid) henv
      rw [Notice.lines, hnext]
      refine ⟨quiet_idle, hears_append hevents (hears_singleton ?_)⟩
      simp only [heard, natural_number, commonName_decode hafter hname htrim, Option.bind_eq_bind,
        Option.bind_some, Notice.report]
  | client eventType clientId eventArgs env =>
      obtain ⟨htype, _, henv⟩ := hplain
      obtain ⟨events, hevents, hnext⟩ :=
        h.block (header_openingLine eventType clientId eventArgs) henv
      rw [Notice.lines, hnext]
      exact ⟨quiet_idle, hears_append hevents (hears_singleton (heard_client htype))⟩
  | address clientId ip primary =>
      obtain ⟨events, hnext, hevents⟩ := h.opened (header_openingLine .ADDRESS clientId
        [ip, if primary then ['1'] else ['0']])
      rw [Notice.lines, List.map_singleton, List.foldl_cons, List.foldl_nil, hnext]
      refine ⟨fun block hb => ?_, by simpa [Notice.report] using hevents⟩
      obtain rfl := Mode.inside.inj hb
      exact EventType.noConfusion
  | bytecount clientId bytesReceived bytesSent =>
      obtain ⟨hid, hreceived, hsent⟩ := hplain
      rw [Notice.lines, List.map_singleton, asLine_bytecount]
      refine h.line (not_isEnv_countLine clientId bytesReceived bytesSent)
        (header_countLine clientId bytesReceived bytesSent) ?_
      rw [ownEvents_countLine hid hreceived hsent]
      refine hears_singleton ?_
      simp only [heard, natural_number, Option.bind_eq_bind, Option.bind_some, Notice.report]
  | other line =>
      obtain ⟨_, hheader, hcount⟩ := hplain
      simpa [Notice.lines, Notice.report] using h.other hheader hcount

theorem Told.unfinished (h : Told reference reports) {notice : Notice} {count : Nat}
    (hcount : count < notice.lines.length) :
    hears ((notice.lines.take count).map asLine |>.foldl Reference.next reference).events =
      some reports := by
  have hone : count < 1 → hears ((notice.lines.take count).map asLine |>.foldl Reference.next
      reference).events = some reports := fun hlt => by
    rw [Nat.lt_one_iff.mp hlt]
    exact h.events
  cases notice with
  | established => exact h.block_unfinished hcount
  | client => exact h.block_unfinished hcount
  | address => exact hone hcount
  | bytecount => exact hone hcount
  | other => exact hone hcount

end Reading

section Arrival

-- A text that has come of two: some of the first, or the first and some of the second.
theorem prefix_append_cases {received first rest : Text} (h : received <+: first ++ rest) :
    (∃ more, received = first ++ more ∧ more <+: rest) ∨
      (received <+: first ∧ received.length < first.length) := by
  by_cases hlt : received.length < first.length
  · exact Or.inr ⟨List.prefix_of_prefix_length_le h (List.prefix_append _ _) (by omega), hlt⟩
  · obtain ⟨more, rfl⟩ :=
      List.prefix_of_prefix_length_le (List.prefix_append first rest) h (by omega)
    exact Or.inl ⟨more, rfl, (List.prefix_append_right_inj first).mp h⟩

theorem utf16_ended (line more : Text) :
    utf16 (ended line ++ more) = utf16 line ++ ['\r'.toNat, '\n'.toNat] ++ utf16 more := by
  rw [Json.utf16_append, ended, Json.utf16_append]
  rfl

theorem finished_ended {line : Text} (h : '\n' ∉ line) (more : Text) :
    finished (utf16 (ended line ++ more)) = asLine line :: finished (utf16 more) := by
  rw [utf16_ended, finished_line ((feed_notMem_iff line).mpr h), asLine]

theorem finished_flatMap_ended {lines : List Text} (h : ∀ line ∈ lines, '\n' ∉ line)
    (more : Text) :
    finished (utf16 (lines.flatMap ended ++ more)) =
      lines.map asLine ++ finished (utf16 more) := by
  induction lines with
  | nil => rfl
  | cons line lines ih =>
      rw [List.flatMap_cons, List.append_assoc, finished_ended (h line List.mem_cons_self),
        ih fun other ho => h other (List.mem_cons_of_mem _ ho)]
      rfl

-- What has come of some lines has the first of them.
theorem exists_finished {lines : List Text} (h : ∀ line ∈ lines, '\n' ∉ line) {received : Text}
    (hreceived : received <+: lines.flatMap ended)
    (hlt : received.length < (lines.flatMap ended).length) : ∃ count, count < lines.length ∧
      finished (utf16 received) = (lines.take count).map asLine := by
  induction lines generalizing received with
  | nil => cases hlt
  | cons line lines ih =>
      have hline := h line List.mem_cons_self
      rw [List.flatMap_cons] at hreceived hlt
      obtain ⟨more, rfl, hmore⟩ | ⟨hstart, hshort⟩ := prefix_append_cases hreceived
      · have hrest : more.length < (lines.flatMap ended).length := by
          simp only [List.length_append] at hlt
          omega
        obtain ⟨count, hcount, hfinished⟩ :=
          ih (fun other ho => h other (List.mem_cons_of_mem _ ho)) hmore hrest
        refine ⟨count + 1, Nat.succ_lt_succ hcount, ?_⟩
        rw [finished_ended hline, hfinished, List.take_succ_cons, List.map_cons]
      · -- the line feed of the first line has not come
        refine ⟨0, Nat.succ_pos _, finished_of_notMem ((feed_notMem_iff received).mpr ?_)⟩
        have hreturn : ended line = (line ++ ['\r']) ++ ['\n'] := by simp [ended]
        rw [hreturn] at hstart
        have hpart : received <+: line ++ ['\r'] :=
          List.prefix_of_prefix_length_le hstart (List.prefix_append _ _) (by
            simp only [hreturn, List.length_append, List.length_singleton] at hshort ⊢
            omega)
        intro hmem
        rcases List.mem_append.mp (hpart.subset hmem) with hin | hin
        · exact hline hin
        · exact absurd hin (by decide)

theorem arrived_of_text {notice : Notice} {notices : List Notice} {more : Text} :
    arrived (notice :: notices) (notice.text ++ more) = notice :: arrived notices more := by
  rw [arrived, if_pos (List.prefix_append _ _), List.drop_left]

theorem arrived_of_length_lt {notice : Notice} {notices : List Notice} {received : Text}
    (h : received.length < notice.text.length) : arrived (notice :: notices) received = [] :=
  if_neg fun hp => absurd hp.length_le (by omega)

theorem feed_notMem_digits (value : Nat) : '\n' ∉ digits value := fun hmem =>
  absurd (Nat.isDigit_of_mem_toDigits (by omega) (by omega) hmem) (by decide)

theorem feed_notMem_openingLine (eventType : EventType) (clientId : Nat) {eventArgs : List Text}
    (h : ∀ arg ∈ eventArgs, '\n' ∉ arg) : '\n' ∉ openingLine eventType clientId eventArgs := by
  have htype : '\n' ∉ eventType.text.toList := by cases eventType <;> decide
  have hargs : '\n' ∉ eventArgs.flatMap (',' :: ·) := by
    intro hmem
    obtain ⟨arg, harg, hin⟩ := List.mem_flatMap.mp hmem
    rcases List.mem_cons.mp hin with heq | hin
    · exact absurd heq (by decide)
    · exact h arg harg hin
  have hclient : '\n' ∉ ">CLIENT:".toList := by decide
  have hcomma : '\n' ≠ ',' := by decide
  rw [openingLine_eq]
  simp only [List.mem_append, List.mem_cons, not_or]
  exact ⟨hclient, htype, hcomma, feed_notMem_digits clientId, hargs⟩

theorem feed_notMem_blockLines {eventType : EventType} {clientId : Nat} {eventArgs : List Text}
    {env : List (Text × Text)} (hargs : ∀ arg ∈ eventArgs, '\n' ∉ arg)
    (henv : ∀ pair ∈ env, Variable pair) :
    ∀ line ∈ blockLines eventType clientId eventArgs env, '\n' ∉ line := by
  intro line hline
  rcases List.mem_cons.mp hline with rfl | hline
  · exact feed_notMem_openingLine eventType clientId hargs
  rcases List.mem_append.mp hline with hmem | hend
  · obtain ⟨pair, hp, rfl⟩ := List.mem_map.mp hmem
    exact (henv pair hp).line
  · obtain rfl := List.mem_singleton.mp hend
    decide

theorem Notice.Plain.lines {notice : Notice} (h : notice.Plain) :
    ∀ line ∈ notice.lines, '\n' ∉ line := by
  cases notice with
  | established clientId common_name before after =>
      obtain ⟨_, henv, _⟩ := h
      exact feed_notMem_blockLines (fun _ harg => by cases harg) henv
  | client eventType clientId eventArgs env =>
      obtain ⟨_, hargs, henv⟩ := h
      exact feed_notMem_blockLines hargs henv
  | address clientId ip primary =>
      intro line hline
      obtain rfl := List.mem_singleton.mp hline
      refine feed_notMem_openingLine .ADDRESS clientId fun arg harg => ?_
      rcases List.mem_pair.mp harg with rfl | rfl
      · exact h
      · cases primary <;> decide
  | bytecount clientId bytesReceived bytesSent =>
      intro line hline
      obtain rfl := List.mem_singleton.mp hline
      have hstart : '\n' ∉ ">BYTECOUNT_CLI:".toList := by decide
      have hcomma : '\n' ≠ ',' := by decide
      simp only [List.mem_append, List.mem_cons, not_or]
      exact ⟨hstart, feed_notMem_digits clientId, hcomma, feed_notMem_digits bytesReceived, hcomma,
        feed_notMem_digits bytesSent⟩
  | other line =>
      intro other ho
      obtain rfl := List.mem_singleton.mp ho
      exact h.1

-- The worker hears of the notices that have come whole, in their order.
theorem told_arrived {notices : List Notice} (hplain : ∀ notice ∈ notices, notice.Plain)
    {received : Text} (hreceived : received <+: notices.flatMap Notice.text)
    {reference : Reference} {reports : List Report} (h : Told reference reports) :
    hears ((finished (utf16 received)).foldl Reference.next reference).events =
      some (reports ++ (arrived notices received).filterMap Notice.report) := by
  induction notices generalizing received reference reports with
  | nil =>
      obtain rfl := List.prefix_nil.mp hreceived
      have hnone : finished (utf16 []) = [] := rfl
      rw [hnone, arrived, List.filterMap_nil, List.append_nil]
      exact h.events
  | cons notice notices ih =>
      have hnotice := hplain notice List.mem_cons_self
      rw [List.flatMap_cons] at hreceived
      obtain ⟨more, rfl, hmore⟩ | ⟨hstart, hshort⟩ := prefix_append_cases hreceived
      · have hrest := ih (fun other ho => hplain other (List.mem_cons_of_mem _ ho)) hmore
          (h.notice hnotice)
        rw [Notice.text, finished_flatMap_ended hnotice.lines, List.foldl_append, hrest,
          ← Notice.text, arrived_of_text, List.append_assoc]
        cases hreport : notice.report <;> simp [hreport]
      · obtain ⟨count, hcount, hfinished⟩ := exists_finished hnotice.lines hstart hshort
        rw [hfinished, arrived_of_length_lt hshort, h.unfinished hcount]
        simp

end Arrival

end OpenBalenaVpn.Management
