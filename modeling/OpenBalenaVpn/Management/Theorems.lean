import OpenBalenaVpn.Management.Notices
import OpenBalenaVpn.Worker.Lemmas
import OpenBalenaVpn.Worker.Traffic

namespace OpenBalenaVpn.Management

open JsString VpnManager Transition Worker

section Labels

variable {config : Worker.Config} {clock : Nat → Nat} {verbose : Bool}

-- The events of the worker for what it was told, each at its reading of the clock.
def told (clock : Nat → Nat) (reports : List Report) : List (ManagementEvent JsString) :=
  reports.zipIdx.map fun (report, index) => report.at (clock index)

theorem told_concat (clock : Nat → Nat) (reports : List Report) (report : Report) :
    told clock (reports ++ [report]) =
      told clock reports ++ [report.at (clock reports.length)] := by
  simp [told, List.zipIdx_append]

-- The worker got there by the events of what it was told and by the others, in some order.
def Explained (config : Worker.Config) (clock : Nat → Nat) (verbose : Bool)
    (others : List (Worker.Event JsString)) (reports : List Report)
    (worker : Worker.State JsString) : Prop :=
  ∃ labels, run (Worker.step config) (.initial verbose) labels = some worker ∧
    labels.filterMap reported = told clock reports ∧
    labels.filter (fun label => (reported label).isNone) = others

variable {others : List (Worker.Event JsString)} {reports : List Report}
  {worker next : Worker.State JsString}

theorem explained_initial : Explained config clock verbose [] [] (.initial verbose) :=
  ⟨[], rfl, rfl, rfl⟩

theorem Explained.other (h : Explained config clock verbose others reports worker)
    {event : Worker.Event JsString} (hevent : reported event = none)
    (hs : Worker.step config worker event = some next) :
    Explained config clock verbose (others ++ [event]) reports next := by
  obtain ⟨labels, hrun, hreports, hothers⟩ := h
  refine ⟨labels ++ [event], ?_, ?_, ?_⟩
  · exact (run_concat_eq_some _ _ _ _ _).mpr ⟨worker, hrun, hs⟩
  · simp [hreports, hevent]
  · simp [hothers, hevent]

theorem Explained.report (h : Explained config clock verbose others reports worker)
    (hrunning : worker.exitCode = none) (report : Report) : ∃ next,
      worker.receive config (report.at (clock reports.length)) = some next ∧
      next.exitCode = none ∧ Explained config clock verbose others (reports ++ [report]) next := by
  obtain ⟨labels, hrun, hreports, hothers⟩ := h
  obtain ⟨next, hnext, hstill, _⟩ :=
    @receive_keys _ config worker hrunning (report.at (clock reports.length))
  obtain ⟨label, hlabel, hhandled⟩ : ∃ label, reported label =
      some (report.at (clock reports.length)) ∧
        (report.at (clock reports.length)).handled = some label := by
    cases report <;> exact ⟨_, rfl, rfl⟩
  rw [State.receive, hhandled] at hnext
  refine ⟨next, by rw [State.receive, hhandled]; exact hnext, hstill, labels ++ [label], ?_, ?_, ?_⟩
  · exact (run_concat_eq_some _ _ _ _ _).mpr ⟨worker, hrun, hnext⟩
  · rw [told_concat, List.filterMap_append, hreports]
    simp [hlabel]
  · simp [hothers, hlabel]

end Labels

section Lines

variable {config : Worker.Config} {clock : Nat → Nat} {verbose : Bool}
  {others : List (Worker.Event JsString)} {reports more : List Report} {state : State}

-- What the listeners of the worker have made of the events of the manager so far.
structure Behaves (config : Worker.Config) (clock : Nat → Nat) (verbose : Bool)
    (others : List (Worker.Event JsString)) (reports : List Report) (state : State) : Prop where
  running : state.worker.exitCode = none
  readings : state.readings = reports.length
  explained : Explained config clock verbose others reports state.worker

theorem Behaves.hear (h : Behaves config clock verbose others reports state)
    {events : List VpnManager.Event} (hhears : hears events = some more) : ∃ next,
      run (Management.hear config clock) state events = some next ∧
      next.connector = state.connector ∧ next.manager = state.manager ∧
      Behaves config clock verbose others (reports ++ more) next := by
  induction events generalizing state reports more with
  | nil =>
      obtain rfl := Option.some.inj hhears
      exact ⟨state, rfl, rfl, rfl, by rwa [List.append_nil]⟩
  | cons event events ih =>
      simp only [hears, Option.bind_eq_bind, Option.bind_eq_some_iff] at hhears
      obtain ⟨report, hreport, rest, hrest, hall⟩ := hhears
      obtain rfl := Option.some.inj hall
      cases report with
      | none =>
          obtain ⟨next, hrun, hconnector, hmanager, hbehaves⟩ := ih h hrest
          refine ⟨next, ?_, hconnector, hmanager, hbehaves⟩
          rw [run, Management.hear, hreport]
          exact hrun
      | some report =>
          obtain ⟨worker, hworker, hrunning, hexplained⟩ := h.explained.report h.running report
          have hnext : Behaves config clock verbose others (reports ++ [report])
              { state with worker, readings := state.readings + 1 } :=
            ⟨hrunning, by simp [h.readings], hexplained⟩
          obtain ⟨next, hrun, hconnector, hmanager, hbehaves⟩ := ih hnext hrest
          refine ⟨next, ?_, hconnector, hmanager, by simpa using hbehaves⟩
          rw [run, Management.hear, hreport, h.readings]
          simp only [Option.bind_eq_bind, Option.bind_some, hworker]
          rw [← h.readings]
          exact hrun

-- The events of the reference parser only grow.
theorem next_events (reference : Reference) (data : JsString) :
    ∃ events, (reference.next data).events = reference.events ++ events := by
  obtain ⟨mode, before⟩ := reference
  cases mode with
  | idle => exact ⟨_, rfl⟩
  | inside block =>
      by_cases henv : IsEnv data
      · exact ⟨[], by rw [next_of_isEnv henv, List.append_nil]⟩
      · exact ⟨_, by rw [next_of_not_isEnv henv]⟩

theorem foldl_next_events (reference : Reference) (lines : List JsString) :
    ∃ events, (lines.foldl Reference.next reference).events = reference.events ++ events := by
  induction lines generalizing reference with
  | nil => exact ⟨[], (List.append_nil _).symm⟩
  | cons line lines ih =>
      obtain ⟨first, hfirst⟩ := next_events reference line
      obtain ⟨rest, hrest⟩ := ih (reference.next line)
      exact ⟨first ++ rest, by rw [List.foldl_cons, hrest, hfirst, List.append_assoc]⟩

theorem hears_append_eq_some {events later : List VpnManager.Event} {all : List Report}
    (h : hears (events ++ later) = some all) : ∃ first rest, hears events = some first ∧
      hears later = some rest ∧ all = first ++ rest := by
  induction events generalizing all with
  | nil => exact ⟨[], all, rfl, h, rfl⟩
  | cons event events ih =>
      simp only [List.cons_append, hears, Option.bind_eq_bind, Option.bind_eq_some_iff] at h
      obtain ⟨report, hreport, reports, hreports, hall⟩ := h
      obtain rfl := Option.some.inj hall
      obtain ⟨first, rest, hfirst, hrest, rfl⟩ := ih hreports
      refine ⟨report.toList ++ first, rest, ?_, hrest, (List.append_assoc _ _ _).symm⟩
      simp [hears, hreport, hfirst]

theorem Behaves.onLine (h : Behaves config clock verbose others reports state)
    {reference : Reference} (hmanager : Refines verbose state.manager reference)
    (hreports : hears reference.events = some reports) {line : JsString} {all : List Report}
    (hall : hears (reference.next line).events = some all) : ∃ next,
      Management.onLine config clock state line = some next ∧
      next.connector = state.connector ∧ Refines verbose next.manager (reference.next line) ∧
      Behaves config clock verbose others all next := by
  obtain ⟨manager, hemit, hrefines⟩ := emit_refines line hmanager
  obtain ⟨events, hevents⟩ := next_events reference line
  have hdrop : manager.events.drop state.manager.events.length = events := by
    rw [hrefines.2, hevents, hmanager.2, List.drop_left]
  rw [hevents] at hall
  obtain ⟨first, rest, hfirst, hrest, rfl⟩ := hears_append_eq_some hall
  obtain rfl := Option.some.inj (hreports.symm.trans hfirst)
  have hstart : Behaves config clock verbose others reports { state with manager } :=
    ⟨h.running, h.readings, h.explained⟩
  obtain ⟨next, hrun, hconnector, hsame, hbehaves⟩ := hstart.hear hrest
  refine ⟨next, ?_, hconnector, hsame ▸ hrefines, hbehaves⟩
  rw [Management.onLine, hemit 0]
  simp only [Option.bind_eq_bind, Option.bind_some, hdrop]
  exact hrun

theorem Behaves.onLines (h : Behaves config clock verbose others reports state)
    {reference : Reference} (hmanager : Refines verbose state.manager reference)
    (hreports : hears reference.events = some reports) {lines : List JsString}
    {all : List Report} (hall : hears (lines.foldl Reference.next reference).events = some all) :
    ∃ next, run (Management.onLine config clock) state lines = some next ∧
      next.connector = state.connector ∧
      Refines verbose next.manager (lines.foldl Reference.next reference) ∧
      Behaves config clock verbose others all next := by
  induction lines generalizing state reference reports with
  | nil =>
      obtain rfl := Option.some.inj (hreports.symm.trans hall)
      exact ⟨state, rfl, rfl, hmanager, h⟩
  | cons line lines ih =>
      obtain ⟨events, hevents⟩ := foldl_next_events (reference.next line) lines
      rw [List.foldl_cons, hevents] at hall
      obtain ⟨first, rest, hfirst, _, _⟩ := hears_append_eq_some hall
      obtain ⟨middle, hline, hconnector, hrefines, hbehaves⟩ := h.onLine hmanager hreports hfirst
      rw [← hevents] at hall
      obtain ⟨next, hrun, hsame, hlast, hnext⟩ := ih hbehaves hrefines hfirst hall
      exact ⟨next, (run_cons_eq_some _ _ _ _ _).mpr ⟨middle, hline, hrun⟩,
        hsame.trans hconnector, hlast, hnext⟩

end Lines

section Data

variable {config : Worker.Config} {clock : Nat → Nat} {verbose : Bool} {events : List Event}
  {reports : List Report} {state : State}

def Event.bytes : Event → List UInt8
  | .data bytes => bytes
  | .other _ => []

def Event.ofWorker : Event → Option (Worker.Event JsString)
  | .data _ => none
  | .other event => some event

-- The text that has come from the management interface.
def received (events : List Event) : Text := Utf8.decode (events.flatMap Event.bytes)

structure Follows (config : Worker.Config) (clock : Nat → Nat) (verbose : Bool) (events : List Event)
    (reports : List Report) (state : State) : Prop where
  connector : state.connector.Follows (utf16 (received events))
  manager : Refines verbose state.manager (reference (finished (utf16 (received events))))
  heard : hears (reference (finished (utf16 (received events)))).events = some reports
  readings : state.readings = reports.length
  explained : Explained config clock verbose (events.filterMap Event.ofWorker) reports state.worker

theorem follows_initial : Follows config clock verbose [] [] (initial verbose) where
  connector := ⟨[], rfl, rfl, fun _ => rfl⟩
  manager := init_refines verbose
  heard := rfl
  readings := rfl
  explained := explained_initial

theorem lines_of_follows {connector : Connector} {text : JsString} (h : connector.Follows text) :
    connector.lines = finished text := by
  obtain ⟨pieces, hlines, hsplit, _⟩ := h
  rw [finished_eq, hsplit, List.dropLast_concat, hlines]

theorem received_other (events : List Event) (event : Worker.Event JsString) :
    received (events ++ [.other event]) = received events := by
  simp [received, Event.bytes]

theorem decode_append_of_valid {first : List UInt8} (h : Utf8.Valid first) (rest : List UInt8) :
    Utf8.decode (first ++ rest) = Utf8.decode first ++ Utf8.decode rest := by
  obtain ⟨text, rfl⟩ := h
  rw [Utf8.decode_encode, Utf8.decode, List.map_append, Utf8.decodeFrom_encode, Utf8.decode]

theorem valid_flatMap (h : ∀ event ∈ events, Utf8.Valid event.bytes) :
    Utf8.Valid (events.flatMap Event.bytes) := by
  induction events with
  | nil => exact ⟨[], rfl⟩
  | cons event events ih =>
      obtain ⟨first, hfirst⟩ := h event List.mem_cons_self
      obtain ⟨rest, hrest⟩ := ih fun other ho => h other (List.mem_cons_of_mem _ ho)
      exact ⟨first ++ rest, by rw [List.flatMap_cons, hfirst, hrest, Utf8.encode_append]⟩

theorem received_data (h : ∀ event ∈ events, Utf8.Valid event.bytes) (bytes : List UInt8) :
    received (events ++ [.data bytes]) = received events ++ Utf8.decode bytes := by
  rw [received, List.flatMap_append, decode_append_of_valid (valid_flatMap h), received]
  simp [Event.bytes]

theorem Follows.other (h : Follows config clock verbose events reports state)
    {event : Worker.Event JsString} (hevent : reported event = none)
    {worker : Worker.State JsString} (hs : Worker.step config state.worker event = some worker) :
    Follows config clock verbose (events ++ [.other event]) reports { state with worker } := by
  have hreceived := received_other events event
  refine ⟨hreceived ▸ h.connector, hreceived ▸ h.manager, hreceived ▸ h.heard, h.readings, ?_⟩
  simpa [Event.ofWorker] using h.explained.other hevent hs

-- A buffer is handled as far as the worker can hear of its events.
theorem Follows.data (h : Follows config clock verbose events reports state)
    (hwhole : ∀ event ∈ events, Utf8.Valid event.bytes) (hrunning : state.worker.exitCode = none)
    {bytes : List UInt8} {all : List Report}
    (hall : hears (reference (finished (utf16 (received (events ++ [.data bytes]))))).events =
      some all) : ∃ next, step config clock state (.data bytes) = some next ∧
        Follows config clock verbose (events ++ [.data bytes]) all next := by
  have hreceived := received_data hwhole bytes
  have hconnector := h.connector.onData bytes
  rw [← Json.utf16_append, ← hreceived] at hconnector
  obtain ⟨lines, hlines⟩ : ∃ lines, (state.connector.onData bytes).lines =
      state.connector.lines ++ lines := ⟨_, rfl⟩
  have hfinished : finished (utf16 (received (events ++ [.data bytes]))) =
      finished (utf16 (received events)) ++ lines := by
    rw [← lines_of_follows hconnector, hlines, lines_of_follows h.connector]
  have hmanager : Refines verbose { state with
      connector := state.connector.onData bytes }.manager
        (reference (finished (utf16 (received events)))) := h.manager
  have hbehaves : Behaves config clock verbose (events.filterMap Event.ofWorker) reports
      { state with connector := state.connector.onData bytes } :=
    ⟨hrunning, h.readings, h.explained⟩
  rw [hfinished, reference_append] at hall
  obtain ⟨next, hrun, hsame, hrefines, hnext⟩ := hbehaves.onLines hmanager h.heard hall
  refine ⟨next, ?_, ?_⟩
  · rw [step, hrunning, Option.isSome_none, if_neg Bool.false_ne_true, onData, hlines,
      List.drop_left]
    exact hrun
  · rw [← reference_append, ← hfinished] at hrefines hall
    have hothers : (events ++ [Event.data bytes]).filterMap Event.ofWorker =
        events.filterMap Event.ofWorker := by
      rw [List.filterMap_append]
      exact List.append_nil _
    exact ⟨hsame ▸ hconnector, hrefines, hall, hnext.readings, hothers ▸ hnext.explained⟩

end Data

section Stream

variable {config : Worker.Config} {clock : Nat → Nat} {verbose : Bool} {events : List Event}
  {notices : List Notice} {state : State}

theorem received_of_stream (hwhole : ∀ event ∈ events, Utf8.Valid event.bytes)
    (hstream : events.flatMap Event.bytes <+: Utf8.encode (notices.flatMap Notice.text)) :
    received events <+: notices.flatMap Notice.text := by
  obtain ⟨text, htext⟩ := valid_flatMap hwhole
  obtain ⟨rest, hrest⟩ := hstream
  refine ⟨Utf8.decode rest, ?_⟩
  rw [received, ← decode_append_of_valid ⟨text, htext⟩, hrest, Utf8.decode_encode]

theorem hears_received (hplain : ∀ notice ∈ notices, notice.Plain)
    (hwhole : ∀ event ∈ events, Utf8.Valid event.bytes)
    (hstream : events.flatMap Event.bytes <+: Utf8.encode (notices.flatMap Notice.text)) :
    hears (reference (finished (utf16 (received events)))).events =
      some ((arrived notices (received events)).filterMap Notice.report) :=
  told_arrived hplain (received_of_stream hwhole hstream) told_initial

theorem follows_run (hplain : ∀ notice ∈ notices, notice.Plain)
    (hwhole : ∀ event ∈ events, Utf8.Valid event.bytes)
    (hstream : events.flatMap Event.bytes <+: Utf8.encode (notices.flatMap Notice.text))
    (hrun : run (step config clock) (initial verbose) events = some state) :
    Follows config clock verbose events
      ((arrived notices (received events)).filterMap Notice.report) state := by
  induction events using List.reverseRecOn generalizing state with
  | nil =>
      obtain rfl := Option.some.inj hrun
      have hnone := hears_received hplain hwhole hstream
      rw [← Option.some.inj hnone]
      exact follows_initial
  | append_singleton events event ih =>
      obtain ⟨middle, hmiddle, hs⟩ := (run_concat_eq_some _ _ _ _ _).mp hrun
      have hbefore : ∀ event ∈ events, Utf8.Valid event.bytes := fun other ho =>
        hwhole other (List.mem_append_left _ ho)
      have hstart : events.flatMap Event.bytes <+: Utf8.encode (notices.flatMap Notice.text) := by
        rw [List.flatMap_append] at hstream
        exact (List.prefix_append _ _).trans hstream
      have hfollows := ih hbefore hstart hmiddle
      cases event with
      | data bytes =>
          have hrunning : middle.worker.exitCode = none := by
            by_contra hexit
            rw [step, if_pos (Option.isSome_iff_ne_none.mpr hexit)] at hs
            cases hs
          obtain ⟨next, hnext, hlast⟩ :=
            hfollows.data hbefore hrunning (hears_received hplain hwhole hstream)
          obtain rfl := Option.some.inj (hs.symm.trans hnext)
          exact hlast
      | other event =>
          simp only [step] at hs
          split at hs
          · cases hs
          · rename_i hevent
            obtain ⟨worker, hworker, rfl⟩ := Option.map_eq_some_iff.mp hs
            rw [received_other]
            exact hfollows.other (Option.not_isSome_iff_eq_none.mp hevent) hworker

end Stream

section Traffic

variable {config : Worker.Config} {clock : Nat → Nat} {verbose : Bool}

-- The cache and the counters of a worker.
def traffic (worker : Worker.State JsString) :
    OrderedMap Nat (ClientEntry JsString) × Double × Double :=
  (worker.clientCache, worker.rxBytes, worker.txBytes)

theorem traffic_call (listener : DrainConnections) (worker : Worker.State JsString) :
    traffic (listener.call worker) = traffic worker := by
  cases listener <;> rfl

theorem traffic_emit (worker : Worker.State JsString) (eventType : Worker.EventType) :
    traffic (worker.emit eventType) = traffic worker :=
  emit_keeps (fun next => traffic next = traffic worker)
    (fun listener next h => (traffic_call listener next).trans h) rfl eventType

theorem traffic_killNext (config : Worker.Config) (worker : Worker.State JsString) (index : Nat)
    (drain : Drain JsString) (delayMs : ℚ) :
    traffic (worker.killNext config index drain delayMs) = traffic worker := by
  unfold Worker.State.killNext
  split <;> rfl

-- Only what the manager reports changes them.
theorem traffic_step {worker next : Worker.State JsString} {event : Worker.Event JsString}
    (hevent : reported event = none) (hs : Worker.step config worker event = some next) :
    traffic next = traffic worker := by
  cases (step_stepped hs).2 with
  | signal eventType => exact traffic_emit worker eventType
  | prepareShutdown => exact traffic_call _ worker
  | tooEarly | toggleVerbosity | ready | fatalError => rfl
  | established => cases hevent
  | bytecount => cases hevent
  | haproxy hnext =>
      obtain ⟨killed, _, ⟨_, _, rfl⟩ | ⟨_, _, rfl⟩ | ⟨_, rfl⟩⟩ := haproxy_cases hnext
      · exact traffic_killNext config worker _ _ _
      · rfl
      · exact traffic_emit _ _
  | timeout hnext =>
      obtain ⟨killed, ⟨delayMs, _, rfl⟩ | ⟨_, rfl⟩⟩ := timeout_cases hnext
      · exact traffic_killNext config worker _ _ _
      · rfl

theorem traffic_receive {worker alone next : Worker.State JsString}
    (h : traffic alone = traffic worker) (hrunning : alone.exitCode = none)
    {label : Worker.Event JsString} {event : ManagementEvent JsString}
    (hevent : reported label = some event) (hs : Worker.step config worker label = some next) :
    ∃ next', alone.receive config event = some next' ∧ next'.exitCode = none ∧
      traffic next' = traffic next := by
  obtain ⟨hcache, hrx, htx⟩ : alone.clientCache = worker.clientCache ∧
      alone.rxBytes = worker.rxBytes ∧ alone.txBytes = worker.txBytes := by
    simpa only [traffic, Prod.mk.injEq] using h
  obtain ⟨next', hnext, hstill, _⟩ := @receive_keys _ config alone hrunning event
  refine ⟨next', hnext, hstill, ?_⟩
  have hexit : alone.exitCode.isSome = false := by rw [hrunning]; rfl
  cases (step_stepped hs).2 with
  | established clientId uuid now =>
      obtain rfl := Option.some.inj hevent
      simp only [State.receive, ManagementEvent.handled, Worker.step, hexit] at hnext
      obtain rfl := Option.some.inj hnext
      simp only [traffic, Worker.State.established, hcache, hrx, htx]
  | bytecount clientId bytesReceived bytesSent now =>
      obtain rfl := Option.some.inj hevent
      simp only [State.receive, ManagementEvent.handled, Worker.step, hexit] at hnext
      obtain rfl := Option.some.inj hnext
      cases hentry : worker.clientCache.get clientId with
      | none =>
          rw [writeBandwidthMetrics_of_none hentry,
            writeBandwidthMetrics_of_none (hcache ▸ hentry)]
          exact h
      | some entry =>
          rw [writeBandwidthMetrics_of_get hentry,
            writeBandwidthMetrics_of_get (hcache ▸ hentry)]
          simp only [traffic, hcache, hrx, htx]
  | signal | prepareShutdown | tooEarly | toggleVerbosity | ready | fatalError | haproxy
  | timeout => cases hevent

-- The traffic is that of the reports alone, whatever comes between them.
theorem traffic_of_run {labels : List (Worker.Event JsString)} {worker : Worker.State JsString}
    (hrun : run (Worker.step config) (.initial verbose) labels = some worker) :
    ∃ alone, afterEvents config verbose (labels.filterMap reported) = some alone ∧
      alone.exitCode = none ∧ traffic alone = traffic worker := by
  refine run_history (motive := fun labels worker => ∃ alone,
    afterEvents config verbose (labels.filterMap reported) = some alone ∧
      alone.exitCode = none ∧ traffic alone = traffic worker) ⟨_, rfl, rfl, rfl⟩ ?_ hrun
  rintro labels worker label next _ ⟨alone, halone, hrunning, htraffic⟩ hs
  cases hlabel : reported label with
  | none =>
      refine ⟨alone, ?_, hrunning, htraffic.trans (traffic_step hlabel hs).symm⟩
      rw [List.filterMap_append, List.filterMap_cons_none hlabel, List.filterMap_nil,
        List.append_nil]
      exact halone
  | some event =>
      obtain ⟨next', hnext, hstill, hsame⟩ := traffic_receive htraffic hrunning hlabel hs
      refine ⟨next', ?_, hstill, hsame⟩
      rw [List.filterMap_append, List.filterMap_cons_some hlabel, List.filterMap_nil,
        afterEvents_concat halone]
      exact hnext

-- A cached client has the common name that it was established under.
def Named (events : List (ManagementEvent JsString)) (worker : Worker.State JsString) : Prop :=
  ∀ clientId entry, worker.clientCache.get clientId = some entry →
    ∃ now, .established clientId entry.uuid now ∈ events

theorem Named.receive {events : List (ManagementEvent JsString)}
    {worker next : Worker.State JsString} (h : Named events worker)
    {event : ManagementEvent JsString} (hs : worker.receive config event = some next) :
    Named (events ++ [event]) next := by
  have hold : Named (events ++ [event]) worker := fun clientId entry hget => by
    obtain ⟨now, hmem⟩ := h clientId entry hget
    exact ⟨now, List.mem_append_left _ hmem⟩
  cases event with
  | disconnect clientId =>
      obtain rfl := Option.some.inj hs
      exact hold
  | established clientId uuid now =>
      have hstep : Worker.step config worker (.established clientId uuid now) = some next := hs
      cases (step_stepped hstep).2
      intro other entry hget
      simp only [Worker.State.established, OrderedMap.get_set] at hget
      split at hget
      · rename_i hid
        obtain rfl := Option.some.inj hget
        exact ⟨now, by simp [hid]⟩
      · exact hold other entry hget
  | bytecount clientId bytesReceived bytesSent now =>
      have hstep : Worker.step config worker
        (.bytecount clientId bytesReceived bytesSent now) = some next := hs
      cases (step_stepped hstep).2
      intro other entry hget
      cases hentry : worker.clientCache.get clientId with
      | none =>
          rw [writeBandwidthMetrics_of_none hentry] at hget
          exact hold other entry hget
      | some clientEntry =>
          simp only [writeBandwidthMetrics_of_get hentry, OrderedMap.get_set] at hget
          split at hget
          · rename_i hid
            obtain rfl := Option.some.inj hget
            exact hold other clientEntry (hid ▸ hentry)
          · exact hold other entry hget

theorem named_of_afterEvents {events : List (ManagementEvent JsString)}
    {worker : Worker.State JsString} (h : afterEvents config verbose events = some worker) :
    Named events worker := by
  have hnone : Named [] (.initial verbose) := fun _ _ hget => by cases hget
  refine run_history hnone ?_ h
  intro events worker event next _ hnamed hs
  exact hnamed.receive hs

theorem mem_told {reports : List Report} {clientId : Nat} {uuid : JsString} {now : Nat}
    (h : .established clientId uuid now ∈ told clock reports) :
    .established clientId uuid ∈ reports := by
  obtain ⟨⟨report, index⟩, hmem, hat⟩ := List.mem_map.mp h
  have hreport := List.fst_mem_of_mem_zipIdx hmem
  cases report with
  | established other name =>
      obtain ⟨rfl, rfl, _⟩ := ManagementEvent.established.inj hat
      exact hreport
  | bytecount => cases hat

end Traffic

section Theorems

-- However the bytes of the management interface are cut between their characters, and
-- whatever else happens to the worker in between, the worker behaves as if it was told of
-- each notice by itself when its last byte comes. So each client that was established is
-- cached under its common name with its last byte counts, and the counters have the traffic
-- as far as doubles are exact.
theorem management_refines (config : Worker.Config) (clock : Nat → Nat) (verbose : Bool)
    (notices : List Notice) (events : List Event) (state : State)
    (hplain : ∀ notice ∈ notices, notice.Plain)
    (hwhole : ∀ event ∈ events, Utf8.Valid event.bytes)
    (hstream : events.flatMap Event.bytes <+: Utf8.encode (notices.flatMap Notice.text))
    (hrun : run (step config clock) (initial verbose) events = some state) :
    let reports := (arrived notices (received events)).filterMap Notice.report
    (∃ labels, run (Worker.step config) (.initial verbose) labels = some state.worker ∧
      labels.filterMap reported = told clock reports ∧
      labels.filter (fun label => (reported label).isNone) = events.filterMap Event.ofWorker) ∧
    ((establishedClients (told clock reports)).Nodup →
      state.worker.clientCache.keys = establishedClients (told clock reports) ∧
      (∀ clientId entry, state.worker.clientCache.get clientId = some entry →
        .established clientId entry.uuid ∈ reports ∧
        (entry.bytesReceived, entry.bytesSent) =
          reportedSince clientId (told clock reports)) ∧
      (NonDecreasing (told clock reports) →
        (receivedTotal (told clock reports) ≤ Double.exactBound →
          state.worker.rxBytes.value = some (receivedTotal (told clock reports))) ∧
        (sentTotal (told clock reports) ≤ Double.exactBound →
          state.worker.txBytes.value = some (sentTotal (told clock reports))))) ∧
    (state.worker.exitCode = none → ∀ bytes, Utf8.Valid bytes →
      events.flatMap Event.bytes ++ bytes <+: Utf8.encode (notices.flatMap Notice.text) →
      ∃ next, step config clock state (.data bytes) = some next) := by
  intro reports
  have hfollows := follows_run hplain hwhole hstream hrun
  refine ⟨hfollows.explained, fun honce => ?_, fun hrunning bytes hvalid hmore => ?_⟩
  · obtain ⟨labels, hlabels, hreports, _⟩ := hfollows.explained
    obtain ⟨alone, halone, _, htraffic⟩ := traffic_of_run hlabels
    obtain ⟨hcache, hrx, htx⟩ : alone.clientCache = state.worker.clientCache ∧
        alone.rxBytes = state.worker.rxBytes ∧ alone.txBytes = state.worker.txBytes := by
      simpa only [traffic, Prod.mk.injEq] using htraffic
    rw [hreports] at halone
    obtain ⟨counted, hcounted, hcached⟩ := cached_run config verbose honce
    obtain rfl := Option.some.inj (halone.symm.trans hcounted)
    rw [← hcache, ← hrx, ← htx]
    refine ⟨hcached.keys, fun clientId entry hget => ⟨?_, hcached.reported clientId entry hget⟩,
      fun hmono => ?_⟩
    · obtain ⟨now, hmem⟩ := named_of_afterEvents halone clientId entry hget
      exact mem_told hmem
    · obtain ⟨other, hother, hcounts⟩ := counts_run config verbose honce hmono
      obtain rfl := Option.some.inj (halone.symm.trans hother)
      exact hcounts.totals
  · have hall : ∀ event ∈ events ++ [.data bytes], Utf8.Valid event.bytes := by
      intro event he
      rcases List.mem_append.mp he with hmem | hlast
      · exact hwhole event hmem
      · obtain rfl := List.mem_singleton.mp hlast
        exact hvalid
    have hlonger : (events ++ [Event.data bytes]).flatMap Event.bytes <+:
        Utf8.encode (notices.flatMap Notice.text) := by
      simpa [Event.bytes] using hmore
    obtain ⟨next, hnext, _⟩ :=
      hfollows.data hwhole hrunning (hears_received hplain hall hlonger)
    exact ⟨next, hnext⟩

-- The bytes are cut inside of a variable, and a SIGTERM comes in between.
theorem management_refines_cut :
    let notices := [.established 0 "c0ffee".toList [("n_clients".toList, ['1'])] [],
      .other ">LOG:5,I,c0ffee".toList, .bytecount 0 1200 340]
    let bytes := Utf8.encode (notices.flatMap Notice.text)
    let events : List Event :=
      [.data (bytes.take 60), .other (.signal .SIGTERM), .data (bytes.drop 60)]
    let state := (run (step ⟨1, 30000, 120⟩ id) (initial false) events).get (by decide +kernel)
    state.worker.rxBytes.value = some 1200 ∧ state.worker.txBytes.value = some 340 := by
  intro notices bytes events state
  have hplain : ∀ notice ∈ notices, notice.Plain := by
    simp only [notices, List.forall_mem_cons]
    refine ⟨⟨by decide, ?_, by decide, by decide, by decide +kernel⟩,
      ⟨by decide, by decide +kernel, by decide +kernel⟩, ⟨by decide, by decide, by decide⟩,
      by simp⟩
    simp only [List.cons_append, List.nil_append, List.forall_mem_cons]
    exact ⟨⟨by decide, by decide⟩, ⟨by decide, by decide⟩, by simp⟩
  have hwhole : ∀ event ∈ events, Utf8.Valid event.bytes := by
    simp only [events, List.forall_mem_cons]
    exact ⟨⟨(notices.flatMap Notice.text).take 60, by decide +kernel⟩, ⟨[], rfl⟩,
      ⟨(notices.flatMap Notice.text).drop 60, by decide +kernel⟩, by simp⟩
  have hstream : events.flatMap Event.bytes <+: bytes := by
    simp [events, Event.bytes]
  obtain ⟨_, hcounts, _⟩ := management_refines ⟨1, 30000, 120⟩ id false notices events state hplain
    hwhole hstream (Option.some_get _).symm
  obtain ⟨_, _, htotals⟩ := hcounts (by decide +kernel)
  have hreports : (arrived notices (received events)).filterMap Notice.report =
      [.established 0 (utf16 "c0ffee".toList), .bytecount 0 1200 340] := by decide +kernel
  have hmono : NonDecreasing
      (told id ((arrived notices (received events)).filterMap Notice.report)) := by
    intro clientId
    rw [hreports]
    by_cases hid : 0 = clientId <;> simp [told, Report.at, ManagementEvent.countsOf, hid]
  obtain ⟨hrx, htx⟩ := htotals hmono
  exact ⟨(hrx (by decide +kernel)).trans (by decide +kernel),
    (htx (by decide +kernel)).trans (by decide +kernel)⟩

end Theorems

end OpenBalenaVpn.Management
