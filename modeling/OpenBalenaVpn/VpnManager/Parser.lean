import OpenBalenaVpn.VpnManager

namespace OpenBalenaVpn.VpnManager

open JsString

section Reference

-- The block that a line opens.
def header (data : JsString) : Option Block :=
  if startsWith data ">CLIENT:" then
    (eventTypes.find? fun eventType => startsWith (data.drop 8) eventType.text).map
      fun eventType =>
        let pieces := split ((data.drop 8).drop (eventType.text.length + 1)) ','
        ⟨eventType, parsePiece pieces.head?, pieces.tail, .empty⟩
  else none

def IsEnv (data : JsString) : Prop := startsWith data ">CLIENT:ENV" ∧ data ≠ ENV_END

instance (data : JsString) : Decidable (IsEnv data) :=
  inferInstanceAs (Decidable (_ ∧ _))

-- The events of a line by itself.
def ownEvents (data : JsString) : List Event :=
  if startsWith data ">LOG:" then
    let pieces := split (data.drop 5) ','
    [.log (lookupLevel pieces[1]?) (join (pieces.drop 2) ',')]
  else if startsWith data ">BYTECOUNT_CLI:" then
    let pieces := split (data.drop 15) ','
    [.bytecount (parsePiece pieces[0]?) (parsePiece pieces[1]?) (parsePiece pieces[2]?)]
  else []

inductive Mode where
  | idle
  | inside (block : Block)

-- The mode after a line that does not go on with a block.
def Mode.after (data : JsString) : Mode :=
  match header data with
  | some block => .inside block
  | none => .idle

structure Reference where
  mode : Mode
  events : List Event

def Block.read (block : Block) (data : JsString) : Block :=
  { block with env := readEnv data block.env }

-- The reference parser: inside of a block an ENV line goes to its env, and any other
-- line ends it and then counts as it does outside.
def Reference.next (reference : Reference) (data : JsString) : Reference :=
  match reference.mode with
  | .idle => ⟨.after data, reference.events ++ ownEvents data⟩
  | .inside block =>
      if IsEnv data then ⟨.inside (block.read data), reference.events⟩
      else ⟨.after data, reference.events ++ .client block :: ownEvents data⟩

def reference (lines : List JsString) : Reference := lines.foldl Reference.next ⟨.idle, []⟩

theorem next_of_isEnv {data : JsString} (h : IsEnv data) (block : Block) (events : List Event) :
    Reference.next ⟨.inside block, events⟩ data = ⟨.inside (block.read data), events⟩ :=
  if_pos h

theorem next_of_not_isEnv {data : JsString} (h : ¬IsEnv data) (block : Block)
    (events : List Event) : Reference.next ⟨.inside block, events⟩ data =
      ⟨.after data, events ++ .client block :: ownEvents data⟩ :=
  if_neg h

end Reference

section Lines

theorem startsWith_unique {data : JsString} {first second : String}
    (hfirst : startsWith data first) (hsecond : startsWith data second) :
    utf16 first.toList <+: utf16 second.toList ∨ utf16 second.toList <+: utf16 first.toList :=
  List.prefix_or_prefix_of_prefix (List.isPrefixOf_iff_prefix.mp hfirst)
    (List.isPrefixOf_iff_prefix.mp hsecond)

theorem not_log_of_client {data : JsString} (h : startsWith data ">CLIENT:") :
    startsWith data ">LOG:" = false := by
  cases hlog : startsWith data ">LOG:" with
  | false => rfl
  | true => exact absurd (startsWith_unique h hlog) (by decide)

theorem not_bytecount_of_client {data : JsString} (h : startsWith data ">CLIENT:") :
    startsWith data ">BYTECOUNT_CLI:" = false := by
  cases hcount : startsWith data ">BYTECOUNT_CLI:" with
  | false => rfl
  | true => exact absurd (startsWith_unique h hcount) (by decide)

theorem ownEvents_of_client {data : JsString} (h : startsWith data ">CLIENT:") :
    ownEvents data = [] := by
  simp [ownEvents, not_log_of_client h, not_bytecount_of_client h]

theorem header_eq_some {data : JsString} {block : Block} (h : header data = some block) :
    startsWith data ">CLIENT:" ∧ ∃ eventType,
      eventTypes.find? (fun eventType => startsWith (data.drop 8) eventType.text) =
        some eventType ∧
      block = ⟨eventType,
        parsePiece (split ((data.drop 8).drop (eventType.text.length + 1)) ',').head?,
        (split ((data.drop 8).drop (eventType.text.length + 1)) ',').tail, .empty⟩ := by
  unfold header at h
  split at h
  · rename_i hclient
    obtain ⟨eventType, hfind, rfl⟩ := Option.map_eq_some_iff.mp h
    exact ⟨hclient, eventType, hfind, rfl⟩
  · cases h

-- A line that opens a block goes to no env.
theorem not_isEnv_of_header {data : JsString} {block : Block} (h : header data = some block) :
    ¬IsEnv data := by
  rintro ⟨henv, _⟩
  obtain ⟨_, eventType, hfind, _⟩ := header_eq_some h
  have htype : startsWith (data.drop 8) eventType.text :=
    @List.find?_some _ (fun eventType : EventType => startsWith (data.drop 8) eventType.text) _ _
      hfind
  obtain ⟨rest, hrest⟩ := List.isPrefixOf_iff_prefix.mp henv
  have hdrop : startsWith (data.drop 8) "ENV" :=
    List.isPrefixOf_iff_prefix.mpr ⟨rest, by rw [← hrest]; rfl⟩
  cases eventType with
  | ESTABLISHED => exact absurd (startsWith_unique htype hdrop) (by decide)
  | CONNECT => exact absurd (startsWith_unique htype hdrop) (by decide)
  | ADDRESS => exact absurd (startsWith_unique htype hdrop) (by decide)
  | DISCONNECT => exact absurd (startsWith_unique htype hdrop) (by decide)

theorem header_ENV_END : header ENV_END = none := by
  have hfind : (eventTypes.find? fun eventType => startsWith (ENV_END.drop 8) eventType.text) =
      none := by decide
  simp only [header, hfind, Option.map_none, ite_self]

theorem ownEvents_ENV_END : ownEvents ENV_END = [] :=
  ownEvents_of_client (by decide)

end Lines

section Simulation

-- The listeners before the one that parses.
def silent (debug : Bool) : List Listener := if debug then [.debug] else []

def Listening (debug : Bool) (state : State) : Mode → Prop
  | .idle => state.listeners = silent debug ++ [.dataHandler]
  | .inside block => ∃ id, state.listeners = silent debug ++ [.emitter id] ∧
      state.closures[id]? = some block

def Refines (debug : Bool) (state : State) (reference : Reference) : Prop :=
  Listening debug state reference.mode ∧ state.events = reference.events

theorem eq_debug_of_mem_silent {debug : Bool} {listener : Listener}
    (h : listener ∈ silent debug) : listener = .debug := by
  cases debug with
  | false => cases h
  | true => exact List.mem_singleton.mp h

theorem notMem_silent (debug : Bool) (listener : Listener) (h : listener ≠ .debug) :
    listener ∉ silent debug :=
  fun hmem => h (eq_debug_of_mem_silent hmem)

theorem emit_silent {debug : Bool} {state : State} {listener : Listener}
    (h : state.listeners = silent debug ++ [listener]) (fuel : Nat) (data : JsString) :
    Emitter.emit State.listeners call (fuel + 1) data state =
      call (Emitter.emit State.listeners call fuel) listener data state :=
  Emitter.emit_of_silent h fun other ho => by rw [eq_debug_of_mem_silent ho]; rfl

-- What dataHandler makes of a line is what the reference parser does outside of a block.
theorem dataHandler_refines {debug : Bool} {state : State}
    (h : state.listeners = silent debug ++ [.dataHandler]) (data : JsString) :
    Refines debug (dataHandler data state) ⟨.after data, state.events ++ ownEvents data⟩ := by
  cases hheader : header data with
  | some block =>
      obtain ⟨hclient, eventType, hfind, rfl⟩ := header_eq_some hheader
      have hlisteners := Emitter.subscribe_unsubscribe (.emitter state.closures.length)
        (notMem_silent debug .dataHandler (by decide))
      simp only [dataHandler, not_log_of_client hclient, hclient, hfind, if_true, if_false,
        Bool.false_eq_true, clientEventEmitterFactory]
      refine ⟨?_, ?_⟩
      · rw [Mode.after, hheader]
        refine ⟨state.closures.length, ?_, ?_⟩
        · rw [← hlisteners, ← h]
          rfl
        · simp [State.on, State.off]
      · rw [ownEvents_of_client hclient, List.append_nil]
        rfl
  | none =>
      have hmode : Mode.after data = .idle := by rw [Mode.after, hheader]
      rw [hmode]
      unfold header at hheader
      unfold dataHandler ownEvents
      by_cases hlog : startsWith data ">LOG:"
      · rw [if_pos hlog, if_pos hlog]
        exact ⟨h, rfl⟩
      · rw [if_neg hlog, if_neg hlog]
        by_cases hclient : startsWith data ">CLIENT:"
        · rw [if_pos hclient, Option.map_eq_none_iff] at hheader
          simp only [if_pos hclient, hheader, not_bytecount_of_client hclient, if_false,
            Bool.false_eq_true, List.append_nil]
          exact ⟨h, rfl⟩
        · rw [if_neg hclient]
          by_cases hcount : startsWith data ">BYTECOUNT_CLI:"
          · rw [if_pos hcount, if_pos hcount]
            exact ⟨h, rfl⟩
          · rw [if_neg hcount, if_neg hcount, List.append_nil]
            exact ⟨h, rfl⟩

-- One line, with any fuel from two on: an emit and the one that it may nest.
theorem emit_refines {debug : Bool} {state : State} {reference : Reference} (data : JsString)
    (h : Refines debug state reference) :
    ∃ state', (∀ fuel, Emitter.emit State.listeners call (fuel + 2) data state = some state') ∧
      Refines debug state' (reference.next data) := by
  obtain ⟨mode, events⟩ := reference
  obtain ⟨hlistening, rfl⟩ := h
  cases mode with
  | idle =>
      refine ⟨dataHandler data state, fun fuel => ?_, dataHandler_refines hlistening data⟩
      rw [emit_silent hlistening]
      rfl
  | inside block =>
      obtain ⟨id, hlisteners, hblock⟩ := hlistening
      by_cases henv : IsEnv data
      · refine ⟨{ state with closures := state.closures.set id (block.read data) },
          fun fuel => ?_, ?_⟩
        · rw [emit_silent hlisteners, call, emitter, hblock]
          exact if_pos henv
        · rw [next_of_isEnv henv]
          obtain ⟨hlt, _⟩ := List.getElem?_eq_some_iff.mp hblock
          exact ⟨⟨id, hlisteners, List.getElem?_set_self hlt⟩, rfl⟩
      · rw [next_of_not_isEnv henv]
        let ended := ((state.off (.emitter id)).on .dataHandler).emitEvent (.client block)
        have hended : ended.listeners = silent debug ++ [.dataHandler] := by
          rw [← Emitter.subscribe_unsubscribe .dataHandler
            (notMem_silent debug (.emitter id) nofun), ← hlisteners]
          rfl
        have hcall : ∀ fuel, Emitter.emit State.listeners call (fuel + 2) data state =
            if data ≠ ENV_END then Emitter.emit State.listeners call (fuel + 1) data ended
            else some ended := fun fuel => by
          rw [emit_silent hlisteners, call, emitter, hblock]
          exact if_neg henv
        by_cases hend : data = ENV_END
        · refine ⟨ended, fun fuel => by rw [hcall, if_neg (not_not.mpr hend)], ?_⟩
          rw [hend, ownEvents_ENV_END, Mode.after, header_ENV_END]
          exact ⟨hended, rfl⟩
        · refine ⟨dataHandler data ended, fun fuel => ?_, ?_⟩
          · rw [hcall, if_pos hend, emit_silent hended]
            rfl
          · have hhandled := dataHandler_refines hended data
            rwa [show ended.events = state.events ++ [.client block] from rfl,
              List.append_assoc] at hhandled

theorem init_refines (debug : Bool) : Refines debug (init debug) ⟨.idle, []⟩ := ⟨rfl, rfl⟩

theorem receive_refines (debug : Bool) (lines : List JsString) :
    ∃ state, (∀ fuel, receive (fuel + 2) debug lines = some state) ∧
      Refines debug state (reference lines) :=
  Transition.run_simulates
    (fun fuel state data => Emitter.emit State.listeners call (fuel + 2) data state)
    (Refines debug) (fun _ _ data h => emit_refines data h) (init_refines debug) lines

end Simulation

section Blocks

theorem reference_append (lines later : List JsString) :
    reference (lines ++ later) = later.foldl Reference.next (reference lines) :=
  List.foldl_append

-- A line that opens a block does so in every state, and ends a block that is open.
theorem next_header {data : JsString} {block : Block} (h : header data = some block)
    (reference : Reference) : (reference.next data).mode = .inside block := by
  have hafter : Mode.after data = .inside block := by rw [Mode.after, h]
  unfold Reference.next
  split
  · exact hafter
  · rw [if_neg (not_isEnv_of_header h)]
    exact hafter

theorem foldl_next_env {envs : List JsString} (h : ∀ data ∈ envs, IsEnv data) (block : Block)
    (events : List Event) :
    envs.foldl Reference.next ⟨.inside block, events⟩ =
      ⟨.inside (envs.foldl Block.read block), events⟩ := by
  induction envs generalizing block with
  | nil => rfl
  | cons data envs ih =>
      rw [List.foldl_cons, next_of_isEnv (h data List.mem_cons_self)]
      exact ih (fun other ho => h other (List.mem_cons_of_mem _ ho)) (block.read data)

-- A block gives one event, with the env of its ENV lines, when the next line comes.
theorem reference_block (before : List JsString) {opening line : JsString}
    {envs : List JsString} {block : Block} (hopening : header opening = some block)
    (henvs : ∀ data ∈ envs, IsEnv data) (hline : ¬IsEnv line) :
    reference (before ++ opening :: (envs ++ [line])) = ⟨.after line,
      (reference (before ++ [opening])).events ++
        .client (envs.foldl Block.read block) :: ownEvents line⟩ := by
  have hmode : (reference (before ++ [opening])).mode = .inside block := by
    rw [reference_append]
    exact next_header hopening _
  have hopened : reference (before ++ [opening]) =
      ⟨.inside block, (reference (before ++ [opening])).events⟩ := by rw [← hmode]
  rw [show before ++ opening :: (envs ++ [line]) = before ++ [opening] ++ (envs ++ [line]) by simp,
    reference_append, List.foldl_append, hopened, foldl_next_env henvs]
  exact next_of_not_isEnv hline _ _

end Blocks

section Listeners

-- A listener of 'manager:data' that parses.
def Listener.Parses (listener : Listener) : Prop := listener ≠ .debug

instance (listener : Listener) : Decidable listener.Parses :=
  inferInstanceAs (Decidable (listener ≠ .debug))

theorem filter_parses_silent (debug : Bool) {listener : Listener} (h : listener.Parses) :
    (silent debug ++ [listener]).filter (·.Parses) = [listener] := by
  have hsilent : (silent debug).filter (·.Parses) = [] := by
    rw [List.filter_eq_nil_iff]
    intro other ho
    rw [eq_debug_of_mem_silent ho]
    decide
  rw [List.filter_append, hsilent, List.nil_append, List.filter_singleton, decide_eq_true h]
  rfl

theorem Listening.parses {debug : Bool} {state : State} {mode : Mode}
    (h : Listening debug state mode) : ∃ listener, state.listeners.filter (·.Parses) =
      [listener] := by
  cases mode with
  | idle => exact ⟨.dataHandler, by rw [h]; exact filter_parses_silent debug nofun⟩
  | inside block =>
      obtain ⟨id, hlisteners, _⟩ := h
      exact ⟨.emitter id, by rw [hlisteners]; exact filter_parses_silent debug nofun⟩

end Listeners

section Theorems

theorem manager_refines_reference (debug : Bool) (lines : List JsString) :
    ∃ state, (∀ fuel, receive (fuel + 2) debug lines = some state) ∧
      (∃ listener, state.listeners.filter (·.Parses) = [listener]) ∧
      state.events = (reference lines).events ∧
      ∀ before opening envs line block, lines = before ++ opening :: (envs ++ [line]) →
        header opening = some block → (∀ data ∈ envs, IsEnv data) → ¬IsEnv line →
        reference lines = ⟨.after line, (reference (before ++ [opening])).events ++
          .client (envs.foldl Block.read block) :: ownEvents line⟩ := by
  obtain ⟨state, hreceive, hlistening, hevents⟩ := receive_refines debug lines
  refine ⟨state, hreceive, hlistening.parses, hevents, ?_⟩
  rintro before opening envs line block rfl hopening henvs hline
  exact reference_block before hopening henvs hline

-- A LOG line ends the block of a client before its ENV,END.
theorem manager_refines_reference_interrupted :
    ∃ state, receive 2 false [utf16 ">CLIENT:CONNECT,7,1".toList,
        utf16 ">CLIENT:ENV,a=b".toList, utf16 ">LOG:0,I,x,y".toList] = some state ∧
      state.events = [.client ⟨.CONNECT, .number false (.finite 7), [utf16 ['1']],
          OrderedMap.empty.set (utf16 ['a']) (some (utf16 ['b']))⟩,
        .log (.named .info) (utf16 "x,y".toList)] := by
  obtain ⟨state, hreceive, _, hevents, hblock⟩ := manager_refines_reference false
    [utf16 ">CLIENT:CONNECT,7,1".toList, utf16 ">CLIENT:ENV,a=b".toList,
      utf16 ">LOG:0,I,x,y".toList]
  have hreference := hblock [] (utf16 ">CLIENT:CONNECT,7,1".toList)
    [utf16 ">CLIENT:ENV,a=b".toList] (utf16 ">LOG:0,I,x,y".toList) _ rfl rfl (by decide)
    (by decide)
  refine ⟨state, hreceive 0, ?_⟩
  rw [hevents, hreference]
  rfl

end Theorems

end OpenBalenaVpn.VpnManager
