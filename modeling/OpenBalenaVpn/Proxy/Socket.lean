import OpenBalenaVpn.Foundation.Emitter
import OpenBalenaVpn.Proxy.StatusLine
import OpenBalenaVpn.Worker

namespace OpenBalenaVpn.Proxy

open Transition

section Tcp

-- What happens on the socket of `forwardRequest`.
inductive TcpEvent where
  | connect
  | data (chunk : List UInt8)
  | ends
  | error (message : Option Text)
  | close

inductive Phase where
  | connecting
  | established
  | ended
  | failed
  | closed
  deriving DecidableEq

-- Data comes after the connection and before its end, and nothing after the close.
def Phase.next : Phase → TcpEvent → Option Phase
  | .closed, _ => none
  | .connecting, .connect => some .established
  | .established, .data _ => some .established
  | .established, .ends => some .ended
  | _, .error _ => some .failed
  | _, .close => some .closed
  | _, _ => none

def Tcp (events : List TcpEvent) : Prop := ∃ phase, run Phase.next .connecting events = some phase

end Tcp

section Socket

inductive Promise where
  | pending
  | rejected (message : Text)
  | resolved
  deriving DecidableEq

-- A promise is settled once.
def Promise.reject (message : Text) : Promise → Promise
  | .pending => .rejected message
  | settled => settled

def Promise.resolve : Promise → Promise
  | .pending => .resolved
  | settled => settled

inductive SocketListener where
  | earlyEnd
  | earlyError
  | proxyData
  deriving DecidableEq

-- The socket, the variable of its listeners, and the promise. Nothing in `forwardRequest`
-- destroys the socket.
structure Socket where
  listeners : List SocketListener
  tunnelProxyResponse : Text
  promise : Promise
  written : Text
  destroyed : Bool

def Socket.opened : Socket where
  listeners := [.earlyEnd, .earlyError, .proxyData]
  tunnelProxyResponse := []
  promise := .pending
  written := []
  destroyed := false

variable (uuid : Text) (port : Number) (proxyAuth : Option (List UInt8))

def Socket.removeListener (socket : Socket) (listener : SocketListener) : Socket :=
  { socket with listeners := Emitter.unsubscribe listener socket.listeners }

def Socket.proxyData (chunk : List UInt8) (socket : Socket) : Socket :=
  let response := socket.tunnelProxyResponse ++ Utf8.decode chunk
  if endOfHeader <:+: response then
    let socket := (((socket.removeListener .proxyData).removeListener .earlyEnd).removeListener
      .earlyError)
    { socket with
      tunnelProxyResponse := response
      promise := if httpStatusCode (httpStatusLine response) = ok200 then socket.promise.resolve
        else socket.promise.reject (remoteTunnellingError uuid port (httpStatusLine response)) }
  else { socket with tunnelProxyResponse := response }

-- Each listener is registered for one kind of event.
def Socket.call (event : TcpEvent) (socket : Socket) (listener : SocketListener) : Socket :=
  match listener, event with
  | .earlyEnd, .ends =>
      { socket with
        promise := socket.promise.reject
          (remoteTunnellingError uuid port "tunneling socket closed prematurely".toList) }
  | .earlyError, .error message =>
      { socket with promise := socket.promise.reject (earlyError message) }
  | .proxyData, .data chunk => socket.proxyData uuid port chunk
  | _, _ => socket

def Socket.onEvent (socket : Socket) (event : TcpEvent) : Socket :=
  match event with
  | .connect => { socket with written := forwardRequest uuid port proxyAuth }
  | .close => { socket with destroyed := true }
  | event => socket.listeners.foldl (Socket.call uuid port event) socket

def socketAfter (events : List TcpEvent) : Socket :=
  events.foldl (Socket.onEvent uuid port proxyAuth) .opened

-- An error that comes before the promise is resolved, or after it was rejected, has a
-- listener.
def Heard (before : List TcpEvent) (event : TcpEvent) : Prop :=
  ∀ message, event = .error message →
    (socketAfter uuid port proxyAuth before).promise ≠ .resolved →
      (socketAfter uuid port proxyAuth before).destroyed = true ∨
        .earlyError ∈ (socketAfter uuid port proxyAuth before).listeners

end Socket

section Process

variable {Uuid : Type} (uuid : Text) (port : Number) (proxyAuth : Option (List UInt8))

-- The vpn worker runs in the process of the proxy.
structure Process (Uuid : Type) where
  socket : Socket
  worker : Worker.State Uuid

-- Without a listener the error is an uncaughtException.
def Socket.raises (socket : Socket) : TcpEvent → Bool
  | .error _ =>
      socket.promise ≠ .resolved && !socket.destroyed && .earlyError ∉ socket.listeners
  | _ => false

def Process.onEvent (process : Process Uuid) (event : TcpEvent) : Process Uuid where
  socket := process.socket.onEvent uuid port proxyAuth event
  worker := if process.socket.raises event then process.worker.emit .uncaughtException
    else process.worker

def processAfter (worker : Worker.State Uuid) (events : List TcpEvent) : Process Uuid :=
  events.foldl (Process.onEvent uuid port proxyAuth) ⟨.opened, worker⟩

end Process

section Invariant

variable {uuid : Text} {port : Number} {proxyAuth : Option (List UInt8)}

def TcpEvent.text : TcpEvent → Text
  | .data chunk => Utf8.decode chunk
  | _ => []

-- The text of the data, as it is read chunk by chunk.
def received (events : List TcpEvent) : Text := events.flatMap TcpEvent.text

-- The remote proxy has answered, with another status than 200.
def Refused (response : Text) : Prop :=
  endOfHeader <:+: response ∧ httpStatusCode (httpStatusLine response) ≠ ok200

-- Until the header is complete all the listeners are there, and then none of them.
inductive Mode (phase : Phase) (response : Text) (socket : Socket) : Prop where
  | reading (hheader : ¬endOfHeader <:+: response)
      (hlisteners : socket.listeners = [.earlyEnd, .earlyError, .proxyData])
      (hresponse : socket.tunnelProxyResponse = response)
      (hunresolved : socket.promise ≠ .resolved)
      (hpending : phase = .connecting ∨ phase = .established → socket.promise = .pending)
  | answered (hheader : endOfHeader <:+: response) (hlisteners : socket.listeners = [])
      (hsettled : socket.promise ≠ .pending)
      (hpromise : socket.promise = .resolved ↔
        httpStatusCode (httpStatusLine response) = ok200)

structure Inv (phase : Phase) (response : Text) (socket : Socket) : Prop where
  destroyed : socket.destroyed = true ↔ phase = .closed
  mode : Mode phase response socket

-- Where neither text nor promise nor listeners change.
theorem Mode.same {phase next : Phase} {response : Text} {socket other : Socket}
    (h : Mode phase response socket)
    (hlisteners : other.listeners = socket.listeners)
    (hresponse : other.tunnelProxyResponse = socket.tunnelProxyResponse)
    (hpromise : other.promise = socket.promise)
    (hnext : next = .connecting ∨ next = .established →
      phase = .connecting ∨ phase = .established) : Mode next response other := by
  cases h with
  | reading hheader hl hr hunresolved hpending =>
      refine .reading hheader (hlisteners.trans hl) (hresponse.trans hr) ?_ fun hopen => ?_
      · exact hpromise.trans_ne hunresolved
      · exact hpromise.trans (hpending (hnext hopen))
  | answered hheader hl hsettled hcode =>
      refine .answered hheader (hlisteners.trans hl) (hpromise.trans_ne hsettled) ?_
      rw [hpromise]
      exact hcode

-- While the header is read, each of the three events has its listener.
theorem onEvent_data {socket : Socket}
    (h : socket.listeners = [.earlyEnd, .earlyError, .proxyData]) (chunk : List UInt8) :
    socket.onEvent uuid port proxyAuth (.data chunk) = socket.proxyData uuid port chunk := by
  change socket.listeners.foldl _ socket = _
  rw [h]
  rfl

theorem onEvent_ends {socket : Socket}
    (h : socket.listeners = [.earlyEnd, .earlyError, .proxyData]) :
    socket.onEvent uuid port proxyAuth .ends =
      { socket with
        promise := socket.promise.reject
          (remoteTunnellingError uuid port "tunneling socket closed prematurely".toList) } := by
  obtain ⟨listeners, _, _, _, _⟩ := socket
  obtain rfl : listeners = _ := h
  rfl

theorem onEvent_error {socket : Socket}
    (h : socket.listeners = [.earlyEnd, .earlyError, .proxyData]) (message : Option Text) :
    socket.onEvent uuid port proxyAuth (.error message) =
      { socket with promise := socket.promise.reject (earlyError message) } := by
  obtain ⟨listeners, _, _, _, _⟩ := socket
  obtain rfl : listeners = _ := h
  rfl

-- Without listeners the promise and the text stay.
theorem onEvent_of_nil {socket : Socket} (h : socket.listeners = []) (event : TcpEvent)
    (hconnect : event ≠ .connect) (hclose : event ≠ .close) :
    socket.onEvent uuid port proxyAuth event = socket := by
  cases event with
  | connect => exact absurd rfl hconnect
  | close => exact absurd rfl hclose
  | data | ends | error =>
      change socket.listeners.foldl _ socket = _
      rw [h]
      rfl

-- The first line of a complete header does not change.
theorem httpStatusLine_append_of_crlf {text : Text} (h : crlf <:+: text) (more : Text) :
    httpStatusLine (text ++ more) = httpStatusLine text := by
  induction text with
  | nil => exact absurd h (by decide)
  | cons c text ih =>
      by_cases hbreak : crlf <+: c :: text
      · obtain ⟨rest, hrest⟩ := hbreak
        rw [← hrest]
        rfl
      · have hinside : crlf <:+: text := (List.infix_cons_iff.mp h).resolve_left hbreak
        have hstill : ¬crlf <+: c :: (text ++ more) := by
          intro hprefix
          refine hbreak (List.prefix_of_prefix_length_le hprefix
            (List.prefix_append (c :: text) more) ?_)
          have hlength := hinside.length_le
          simp only [List.length_cons]
          omega
        rw [List.cons_append, httpStatusLine_cons hstill, httpStatusLine_cons hbreak, ih hinside]

theorem crlf_of_endOfHeader {response : Text} (h : endOfHeader <:+: response) :
    crlf <:+: response :=
  List.IsInfix.trans ⟨[], crlf, rfl⟩ h

theorem Mode.proxyData {response : Text} {socket : Socket}
    (h : Mode .established response socket) (chunk : List UInt8) :
    Mode .established (response ++ Utf8.decode chunk)
      (socket.onEvent uuid port proxyAuth (.data chunk)) := by
  cases h with
  | reading hheader hlisteners hresponse hunresolved hpending =>
      have hopen := hpending (Or.inr rfl)
      rw [onEvent_data hlisteners, Socket.proxyData, hresponse]
      simp only
      split
      · rename_i hcomplete
        refine .answered hcomplete ?_ ?_ ?_
        · simp only [Socket.removeListener, hlisteners]
          rfl
        · simp only [Socket.removeListener, hopen]
          split <;> nofun
        · simp only [Socket.removeListener, hopen]
          split
          · rename_i hcode
            exact iff_of_true rfl hcode
          · rename_i hcode
            exact iff_of_false nofun hcode
      · rename_i hincomplete
        exact .reading hincomplete hlisteners rfl hunresolved hpending
  | answered hheader hlisteners hsettled hpromise =>
      rw [onEvent_of_nil hlisteners (.data chunk) nofun nofun]
      refine .answered (hheader.trans (List.prefix_append _ _).isInfix) hlisteners hsettled ?_
      rw [httpStatusLine_append_of_crlf (crlf_of_endOfHeader hheader)]
      exact hpromise

-- The promise is rejected at most.
theorem Mode.reject {phase next : Phase} {response : Text} {socket : Socket}
    (h : Mode phase response socket) (message : Text)
    (hclosed : next ≠ .connecting ∧ next ≠ .established) {event : TcpEvent}
    (hcall : socket.listeners = [.earlyEnd, .earlyError, .proxyData] →
      socket.onEvent uuid port proxyAuth event =
        { socket with promise := socket.promise.reject message })
    (hsilent : socket.listeners = [] → socket.onEvent uuid port proxyAuth event = socket) :
    Mode next response (socket.onEvent uuid port proxyAuth event) := by
  cases h with
  | reading hheader hlisteners hresponse hunresolved hpending =>
      rw [hcall hlisteners]
      refine .reading hheader hlisteners hresponse ?_ fun hopen => ?_
      · cases hpromise : socket.promise with
        | resolved => exact absurd hpromise hunresolved
        | pending | rejected => nofun
      · exact absurd hopen (not_or.mpr hclosed)
  | answered hheader hlisteners hsettled hpromise =>
      rw [hsilent hlisteners]
      exact .answered hheader hlisteners hsettled hpromise

theorem call_destroyed (event : TcpEvent) (socket : Socket) (listener : SocketListener) :
    (socket.call uuid port event listener).destroyed = socket.destroyed := by
  unfold Socket.call
  split
  · rfl
  · rfl
  · unfold Socket.proxyData
    simp only
    split <;> rfl
  · rfl

theorem foldl_call_destroyed (event : TcpEvent) (listeners : List SocketListener)
    (socket : Socket) :
    (listeners.foldl (Socket.call uuid port event) socket).destroyed = socket.destroyed := by
  induction listeners generalizing socket with
  | nil => rfl
  | cons listener listeners ih => rw [List.foldl_cons, ih, call_destroyed]

theorem Phase.next_cases {phase next : Phase} {event : TcpEvent}
    (h : Phase.next phase event = some next) :
    phase ≠ .closed ∧
      ((event = .connect ∧ phase = .connecting ∧ next = .established) ∨
      (∃ chunk, event = .data chunk ∧ phase = .established ∧ next = .established) ∨
      (event = .ends ∧ next = .ended) ∨
      (∃ message, event = .error message ∧ next = .failed) ∨
      (event = .close ∧ next = .closed)) := by
  cases phase <;> cases event <;> cases h <;> simp

theorem Inv.step {phase next : Phase} {response : Text} {socket : Socket}
    (h : Inv phase response socket) {event : TcpEvent}
    (hnext : Phase.next phase event = some next) :
    Inv next (response ++ event.text) (socket.onEvent uuid port proxyAuth event) := by
  obtain ⟨hdestroyed, hmode⟩ := h
  obtain ⟨hphase, hevent⟩ := Phase.next_cases hnext
  have halive : socket.destroyed = false := by
    rw [← Bool.not_eq_true, hdestroyed]
    exact hphase
  have hstill : ∀ event, (socket.listeners.foldl (Socket.call uuid port event)
      socket).destroyed = false := fun event => (foldl_call_destroyed event _ _).trans halive
  have hsame : ∀ event : TcpEvent, event.text = [] → response ++ event.text = response :=
    fun event hnil => by rw [hnil, List.append_nil]
  rcases hevent with ⟨rfl, rfl, rfl⟩ | ⟨chunk, rfl, rfl, rfl⟩ | ⟨rfl, rfl⟩ | ⟨message, rfl, rfl⟩ |
    ⟨rfl, rfl⟩
  · refine ⟨iff_of_false (by simp [Socket.onEvent, halive]) nofun, ?_⟩
    rw [hsame _ rfl]
    exact hmode.same rfl rfl rfl fun _ => Or.inl rfl
  · exact ⟨iff_of_false (Bool.eq_false_iff.mp (hstill _)) nofun, hmode.proxyData chunk⟩
  · refine ⟨iff_of_false (Bool.eq_false_iff.mp (hstill _)) nofun, ?_⟩
    rw [hsame _ rfl]
    refine hmode.reject (remoteTunnellingError uuid port
      "tunneling socket closed prematurely".toList) ?_ onEvent_ends fun hl => ?_
    · exact ⟨nofun, nofun⟩
    · exact onEvent_of_nil hl _ nofun nofun
  · refine ⟨iff_of_false (Bool.eq_false_iff.mp (hstill _)) nofun, ?_⟩
    rw [hsame _ rfl]
    refine hmode.reject (earlyError message) ?_ (fun hl => onEvent_error hl message) fun hl => ?_
    · exact ⟨nofun, nofun⟩
    · exact onEvent_of_nil hl _ nofun nofun
  · refine ⟨iff_of_true rfl rfl, ?_⟩
    rw [hsame _ rfl]
    exact hmode.same rfl rfl rfl nofun

theorem inv_socketAfter {events : List TcpEvent} {phase : Phase}
    (h : run Phase.next .connecting events = some phase) :
    Inv phase (received events) (socketAfter uuid port proxyAuth events) := by
  refine run_history (motive := fun events phase =>
    Inv phase (received events) (socketAfter uuid port proxyAuth events)) ?_ ?_ h
  · refine ⟨iff_of_false nofun nofun, ?_⟩
    exact .reading (by decide) rfl rfl nofun fun _ => rfl
  · intro events phase event next _ hinv hnext
    have hreceived : received (events ++ [event]) = received events ++ event.text := by
      simp [received]
    have hsocket : socketAfter uuid port proxyAuth (events ++ [event]) =
        (socketAfter uuid port proxyAuth events).onEvent uuid port proxyAuth event := by
      simp [socketAfter]
    rw [hreceived, hsocket]
    exact hinv.step hnext

-- The promise as the holder of it sees it.
def Forward.promise : Forward → Promise
  | .reading _ => .pending
  | .rejected message => .rejected message
  | .resolved _ => .resolved

def TcpEvent.socketEvent : TcpEvent → Option SocketEvent
  | .data chunk => some (.data chunk)
  | .ends => some .ends
  | .error message => some (.error message)
  | _ => none

def forwardAfter (uuid : Text) (port : Number) (events : List TcpEvent) : Forward :=
  (events.filterMap TcpEvent.socketEvent).foldl (Proxy.onEvent uuid port) (.reading [])

-- While the promise is pending the two have read the same text.
structure Agrees (socket : Socket) (forward : Forward) : Prop where
  promise : forward.promise = socket.promise
  reading : socket.promise = .pending → forward = .reading socket.tunnelProxyResponse

theorem forward_onEvent_of_settled {forward : Forward} (h : forward.promise ≠ .pending)
    (event : SocketEvent) : (Proxy.onEvent uuid port forward event).promise = forward.promise := by
  cases forward with
  | reading response => exact absurd rfl h
  | rejected message => rfl
  | resolved received => cases event <;> rfl

-- Where the promise is settled nothing changes it.
theorem Agrees.settled {socket next : Socket} {forward : Forward} (h : Agrees socket forward)
    (hsettled : socket.promise ≠ .pending) (hnext : next.promise = socket.promise)
    (event : SocketEvent) : Agrees next (Proxy.onEvent uuid port forward event) where
  promise := by
    rw [forward_onEvent_of_settled (h.promise.trans_ne hsettled), h.promise, hnext]
  reading hpending := absurd (hnext.symm.trans hpending) hsettled

theorem reject_of_settled {promise : Promise} (h : promise ≠ .pending) (message : Text) :
    promise.reject message = promise := by
  cases promise with
  | pending => exact absurd rfl h
  | rejected | resolved => rfl

theorem Agrees.reject {socket : Socket} {forward : Forward} (h : Agrees socket forward)
    {event : SocketEvent} {message : Text}
    (hevent : ∀ response, Proxy.onEvent uuid port (.reading response) event =
      .rejected message) :
    Agrees { socket with promise := socket.promise.reject message }
      (Proxy.onEvent uuid port forward event) := by
  by_cases hpending : socket.promise = .pending
  · have hrejected : socket.promise.reject message = .rejected message := by
      rw [hpending]
      rfl
    rw [h.reading hpending, hevent]
    exact ⟨hrejected.symm, fun hstill => nomatch hrejected.symm.trans hstill⟩
  · exact h.settled hpending (reject_of_settled hpending message) event

theorem Agrees.proxyData {socket : Socket} {forward : Forward} (h : Agrees socket forward)
    (hpending : socket.promise = .pending) (chunk : List UInt8) :
    Agrees (socket.proxyData uuid port chunk)
      (Proxy.onEvent uuid port forward (.data chunk)) := by
  rw [h.reading hpending, Proxy.onEvent, Proxy.proxyData, Socket.proxyData]
  simp only [Socket.removeListener]
  split
  · rw [hpending]
    split
    · exact ⟨rfl, nofun⟩
    · exact ⟨rfl, nofun⟩
  · exact ⟨hpending.symm, fun _ => rfl⟩

def Forward.onTcp (uuid : Text) (port : Number) (forward : Forward) (event : TcpEvent) :
    Forward :=
  event.socketEvent.toList.foldl (Proxy.onEvent uuid port) forward

theorem Agrees.step {phase next : Phase} {response : Text} {socket : Socket} {forward : Forward}
    (hinv : Inv phase response socket) (h : Agrees socket forward) {event : TcpEvent}
    (hnext : Phase.next phase event = some next) :
    Agrees (socket.onEvent uuid port proxyAuth event) (forward.onTcp uuid port event) := by
  obtain ⟨_, hevent⟩ := Phase.next_cases hnext
  have hmode := hinv.mode
  rcases hevent with ⟨rfl, _, _⟩ | ⟨chunk, rfl, rfl, _⟩ | ⟨rfl, _⟩ | ⟨message, rfl, _⟩ | ⟨rfl, _⟩
  · exact ⟨h.promise, h.reading⟩
  · cases hmode with
    | reading _ hlisteners _ _ hpending =>
        rw [onEvent_data hlisteners]
        exact h.proxyData (hpending (Or.inr rfl)) chunk
    | answered _ hlisteners hsettled _ =>
        rw [onEvent_of_nil hlisteners (.data chunk) nofun nofun]
        exact h.settled hsettled rfl _
  · cases hmode with
    | reading _ hlisteners _ _ _ =>
        rw [onEvent_ends hlisteners]
        exact h.reject fun _ => rfl
    | answered _ hlisteners hsettled _ =>
        rw [onEvent_of_nil hlisteners .ends nofun nofun]
        exact h.settled hsettled rfl _
  · cases hmode with
    | reading _ hlisteners _ _ _ =>
        rw [onEvent_error hlisteners]
        exact h.reject fun _ => rfl
    | answered _ hlisteners hsettled _ =>
        rw [onEvent_of_nil hlisteners (.error message) nofun nofun]
        exact h.settled hsettled rfl _
  · exact ⟨h.promise, h.reading⟩

-- The socket settles its promise as the fold over its events without the listeners does.
theorem promise_forwardAfter {events : List TcpEvent} (h : Tcp events) :
    (forwardAfter uuid port events).promise =
      (socketAfter uuid port proxyAuth events).promise := by
  obtain ⟨phase, hrun⟩ := h
  refine Agrees.promise (run_history (motive := fun events _ =>
    Agrees (socketAfter uuid port proxyAuth events) (forwardAfter uuid port events))
    ⟨rfl, fun _ => rfl⟩ ?_ hrun)
  intro events phase event next hbefore hagrees hnext
  have hsocket : socketAfter uuid port proxyAuth (events ++ [event]) =
      (socketAfter uuid port proxyAuth events).onEvent uuid port proxyAuth event :=
    List.foldl_concat _ _ _ _
  have hforward : forwardAfter uuid port (events ++ [event]) =
      (forwardAfter uuid port events).onTcp uuid port event := by
    rw [forwardAfter, List.filterMap_append, List.foldl_append, ← forwardAfter]
    cases event <;> rfl
  rw [hsocket, hforward]
  exact hagrees.step (inv_socketAfter hbefore) hnext

end Invariant

section Theorems

variable {Uuid : Type} (uuid : Text) (port : Number) (proxyAuth : Option (List UInt8))

theorem heard_iff {before : List TcpEvent} {event : TcpEvent} (h : Tcp (before ++ [event])) :
    Heard uuid port proxyAuth before event ↔
      ∀ message, event = .error message → ¬Refused (received before) := by
  obtain ⟨last, hlast⟩ := h
  obtain ⟨phase, hrun, hnext⟩ := (run_concat_eq_some _ _ _ _ _).mp hlast
  obtain ⟨hdestroyed, hmode⟩ := @inv_socketAfter uuid port proxyAuth before phase hrun
  have halive : (socketAfter uuid port proxyAuth before).destroyed ≠ true :=
    fun hd => (Phase.next_cases hnext).1 (hdestroyed.mp hd)
  refine forall_congr' fun message => imp_congr_right fun _ => ?_
  cases hmode with
  | reading hheader hlisteners hresponse hunresolved hpending =>
      refine iff_of_true (fun _ => Or.inr ?_) fun hrefused => hheader hrefused.1
      rw [hlisteners]
      exact List.mem_cons_of_mem _ List.mem_cons_self
  | answered hheader hlisteners hsettled hpromise =>
      rw [hlisteners]
      constructor
      · intro hheard hrefused
        rcases hheard fun hresolved => hrefused.2 (hpromise.mp hresolved) with hd | hmem
        · exact halive hd
        · cases hmem
      · intro hnot hunresolved
        refine absurd ⟨hheader, fun hcode => ?_⟩ hnot
        exact hunresolved (hpromise.mpr hcode)

theorem process_socket (worker : Worker.State Uuid) (events : List TcpEvent) :
    (processAfter uuid port proxyAuth worker events).socket =
      socketAfter uuid port proxyAuth events := by
  induction events using List.reverseRecOn with
  | nil => rfl
  | append_singleton events event ih =>
      rw [processAfter, List.foldl_concat, socketAfter, List.foldl_concat, ← processAfter,
        ← socketAfter, ← ih]
      rfl

-- What is heard is no uncaughtException.
theorem raises_of_heard {before : List TcpEvent} {event : TcpEvent}
    (h : Heard uuid port proxyAuth before event) :
    (socketAfter uuid port proxyAuth before).raises event = false := by
  cases event with
  | error message =>
      have hheard := h message rfl
      rw [Bool.eq_false_iff]
      intro hraises
      simp only [Socket.raises, Bool.and_eq_true, decide_eq_true_eq, Bool.not_eq_true'] at hraises
      obtain ⟨⟨hunresolved, halive⟩, hmem⟩ := hraises
      rcases hheard hunresolved with hd | hlistener
      · rw [halive] at hd
        cases hd
      · exact hmem hlistener
  | connect | data | ends | close => rfl

theorem worker_of_heard (worker : Worker.State Uuid) {events : List TcpEvent}
    (h : Always (Heard uuid port proxyAuth) events) :
    (processAfter uuid port proxyAuth worker events).worker = worker := by
  induction events using List.reverseRecOn with
  | nil => rfl
  | append_singleton events event ih =>
      obtain ⟨hbefore, hlast⟩ := (always_concat _ events event).mp h
      have hraises := raises_of_heard uuid port proxyAuth hlast
      rw [← process_socket uuid port proxyAuth worker] at hraises
      rw [processAfter, List.foldl_concat, ← processAfter, Process.onEvent, hraises]
      exact ih hbefore

-- The errors of the socket are heard, and the worker never drains because of one, exactly
-- when none comes after an answer with another status than 200.
theorem errors_heard_iff (worker : Worker.State Uuid) {events : List TcpEvent}
    (h : Tcp events) :
    (Always (Heard uuid port proxyAuth) events ∧
        (processAfter uuid port proxyAuth worker events).worker = worker) ↔
      Always (fun before event => ∀ message, event = .error message →
        ¬Refused (received before)) events := by
  have htcp : ∀ before event later, events = before ++ event :: later →
      Tcp (before ++ [event]) := by
    rintro before event later rfl
    obtain ⟨last, hlast⟩ := h
    rw [List.append_cons, run_append_eq_some] at hlast
    obtain ⟨phase, hphase, _⟩ := hlast
    exact ⟨phase, hphase⟩
  have hiff : Always (Heard uuid port proxyAuth) events ↔ Always (fun before event =>
      ∀ message, event = .error message → ¬Refused (received before)) events :=
    forall_congr' fun before => forall_congr' fun event => forall_congr' fun later =>
      forall_congr' fun heq => heard_iff uuid port proxyAuth (htcp before event later heq)
  rw [← hiff]
  exact ⟨And.left, fun hheard => ⟨hheard, worker_of_heard uuid port proxyAuth worker hheard⟩⟩

-- The connection is refused before there is a response.
theorem errors_heard_refused :
    Always (Heard "c0ffee".toList (.finite 80) none) [.error none, .close] ∧
      (processAfter "c0ffee".toList (.finite 80) none (.initial false : Worker.State String)
        [.error none, .close]).worker = .initial false := by
  refine (errors_heard_iff "c0ffee".toList (.finite 80) none (.initial false)
    ⟨.closed, rfl⟩).mpr ?_
  rintro before event later heq message rfl hrefused
  cases before with
  | nil => exact absurd hrefused.1 (by decide)
  | cons first before =>
      have hmem : .error message ∈ [TcpEvent.close] := by
        rw [(List.cons.inj heq).2]
        exact List.mem_append_right _ List.mem_cons_self
      cases List.mem_singleton.mp hmem

def refusal : List TcpEvent :=
  [.connect, .data (bytes "HTTP/1.0 407 Proxy Authorization Required\r\n\r\n".toList)]

-- The remote proxy refuses, and then resets the connection. The worker drains.
theorem error_unheard :
    let events := refusal ++ [.error (some "read ECONNRESET".toList)]
    Tcp events ∧ ¬Always (Heard "c0ffee".toList (.finite 80) none) events ∧
      (processAfter "c0ffee".toList (.finite 80) none (.initial false : Worker.State String)
        events).worker.drains.length = 1 := by
  refine ⟨⟨.failed, rfl⟩, fun h => ?_, by decide +kernel⟩
  have hheard := ((always_concat _ refusal _).mp h).2 (some "read ECONNRESET".toList) rfl
  have hafter : (socketAfter "c0ffee".toList (.finite 80) none refusal).promise ≠ .resolved ∧
      (socketAfter "c0ffee".toList (.finite 80) none refusal).destroyed = false ∧
      (socketAfter "c0ffee".toList (.finite 80) none refusal).listeners = [] := by
    decide +kernel
  rcases hheard hafter.1 with hdestroyed | hlistener
  · rw [hafter.2.1] at hdestroyed
    cases hdestroyed
  · rw [hafter.2.2] at hlistener
    cases hlistener

end Theorems

end OpenBalenaVpn.Proxy
