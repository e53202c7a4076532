import OpenBalenaVpn.Foundation.Http
import OpenBalenaVpn.Foundation.Program

namespace OpenBalenaVpn.Throttle

section Runs

inductive Action where
  | add
  | update
  | delete
  | other (operation : Text)
  deriving DecidableEq

-- A run of learn-address.sh whose arguments were accepted.
structure Run where
  -- from the VPN server to the client
  downrate : Text
  -- from the client to the VPN server
  uprate : Text
  action : Action
  ip : Text
  dev : Text
  named : action = .delete ∨ dev ≠ []

def Action.ofText (operation : Text) : Action :=
  if operation = "add".toList then .add
  else if operation = "update".toList then .update
  else if operation = "delete".toList then .delete
  else .other operation

-- ^[0-9]+(kbit|mbit|gbit)$
def isRate (rate : Text) : Bool :=
  rate.takeWhile Char.isDigit ≠ [] &&
    ["kbit".toList, "mbit".toList, "gbit".toList].contains (rate.dropWhile Char.isDigit)

def isDevice (arg : Text) : Bool :=
  "tun".toList.isPrefixOf arg || "tap".toList.isPrefixOf arg || arg == "lo".toList

-- The last argument that looks like a device, or the variable that OpenVPN sets.
def findDevice (args : List Text) (dev : Text) : Text :=
  args.foldl (fun dev arg => if isDevice arg then arg else dev) dev

def Run.parse (args : List Text) (dev : Text) : Except Text Run :=
  let action := Action.ofText (args.getD 2 [])
  let device := findDevice args dev
  if action = .delete ∧ args.length < 4 then
    .error "[ERROR] Insufficient parameters for delete. Expected: downrate uprate delete ip".toList
  else if action ≠ .delete ∧ args.length < 5 then
    .error ("[ERROR] Insufficient parameters for add/update. " ++
      "Expected: downrate uprate action ip cn").toList
  else if h : action = .delete ∨ device ≠ [] then
    if isRate (args.getD 0 []) ∧ isRate (args.getD 1 []) then
      .ok { downrate := args.getD 0 []
            uprate := args.getD 1 []
            action
            ip := args.getD 3 []
            dev := device
            named := h }
    else
      .error "[ERROR] Invalid rate format. Expected format: <number>(kbit|mbit|gbit)".toList
  else
    .error ("[ERROR] No device specified for action '".toList ++ args.getD 2 [] ++
      "'. Could not find in arguments or environment.".toList)

end Runs

section State

-- What tc knows of a device: the classes with their rates, and the filters of the one
-- priority at each of the two parents, with their flow ids.
structure Interface where
  htb : Bool
  ingress : Bool
  classes : List (Text × Text)
  filters : List (Text × Text)
  police : List (Text × Text × Text)

-- The state directory, where last_classid is shared by all clients, and the devices.
structure Files where
  lastClassid : Option Text
  classid : Text → Option Text
  dev : Text → Option Text

structure State extends Files where
  interface : Text → Interface

def State.empty : State where
  lastClassid := none
  classid _ := none
  dev _ := none
  interface _ := ⟨false, false, [], [], []⟩

inductive TcCommand where
  | qdiscAddRoot (dev : Text)
  | qdiscAddIngress (dev : Text)
  | classAdd (dev classid rate : Text)
  | filterAdd (dev ip classid : Text)
  | policeAdd (dev ip rate classid : Text)
  | filterDel (dev ip : Text)
  | classDel (dev classid : Text)
  | policeDel (dev ip : Text)

def TcCommand.dev : TcCommand → Text
  | qdiscAddRoot dev | qdiscAddIngress dev | classAdd dev _ _ | filterAdd dev _ _
  | policeAdd dev _ _ _ | filterDel dev _ | classDel dev _ | policeDel dev _ => dev

-- A filter is added to the end of the list of its priority. What is deleted by the
-- priority and without a handle is the whole list, whatever is matched.
def TcCommand.effect (interface : Interface) : TcCommand → Interface
  | qdiscAddRoot _ => { interface with htb := true }
  | qdiscAddIngress _ => { interface with ingress := true }
  | classAdd _ classid rate =>
      { interface with classes := interface.classes ++ [(classid, rate)] }
  | filterAdd _ ip classid => { interface with filters := interface.filters ++ [(ip, classid)] }
  | policeAdd _ ip rate classid =>
      { interface with police := interface.police ++ [(ip, rate, classid)] }
  | filterDel _ _ => { interface with filters := [] }
  | classDel _ classid =>
      { interface with classes := interface.classes.filter fun entry => entry.1 ≠ classid }
  | policeDel _ _ => { interface with police := [] }

-- There is no device without a name.
def State.tc (state : State) (command : TcCommand) : State :=
  if command.dev = [] then state
  else { state with
    interface := Function.update state.interface command.dev
      (command.effect (state.interface command.dev)) }

end State

section Commands

-- The accesses to the state directory, one file at a time, the calls of tc and the
-- messages.
inductive Command where
  | testClassid (ip : Text)
  | catClassid (ip : Text)
  | echoClassid (ip classid : Text)
  | testDev (ip : Text)
  | catDev (ip : Text)
  | echoDev (ip dev : Text)
  | rmDev (ip : Text)
  | testLast
  | catLast
  | echoLast (classid : Text)
  | tc (command : TcCommand)
  | error (message : Text)

abbrev Command.Reply : Command → Type
  | testClassid _ | testDev _ | testLast | tc _ => Bool
  | catClassid _ | catDev _ | catLast => Text
  | _ => Unit

-- `cat` of a file that is not there gives the empty text. A call of tc that is not
-- accepted changes nothing.
def perform (accepts : State → TcCommand → Bool) :
    (command : Command) → State → command.Reply × State
  | .testClassid ip, state => ((state.classid ip).isSome, state)
  | .catClassid ip, state => ((state.classid ip).getD [], state)
  | .echoClassid ip classid, state =>
      ((), { state with classid := Function.update state.classid ip (some classid) })
  | .testDev ip, state => ((state.dev ip).isSome, state)
  | .catDev ip, state => ((state.dev ip).getD [], state)
  | .echoDev ip dev, state => ((), { state with dev := Function.update state.dev ip (some dev) })
  | .rmDev ip, state => ((), { state with dev := Function.update state.dev ip none })
  | .testLast, state => (state.lastClassid.isSome, state)
  | .catLast, state => (state.lastClassid.getD [], state)
  | .echoLast classid, state => ((), { state with lastClassid := some classid })
  | .tc command, state =>
      (accepts state command, if accepts state command then state.tc command else state)
  | .error _, state => ((), state)

end Commands

section Script

abbrev Script := Program Command Command.Reply

def testClassid (ip : Text) : Script Bool := .call (Command.testClassid ip) .done
def catClassid (ip : Text) : Script Text := .call (Command.catClassid ip) .done
def echoClassid (ip classid : Text) : Script Unit := .call (Command.echoClassid ip classid) .done
def testDev (ip : Text) : Script Bool := .call (Command.testDev ip) .done
def catDev (ip : Text) : Script Text := .call (Command.catDev ip) .done
def echoDev (ip dev : Text) : Script Unit := .call (Command.echoDev ip dev) .done
def rmDev (ip : Text) : Script Unit := .call (Command.rmDev ip) .done
def testLast : Script Bool := .call Command.testLast .done
def catLast : Script Text := .call Command.catLast .done
def echoLast (classid : Text) : Script Unit := .call (Command.echoLast classid) .done
def tc (command : TcCommand) : Script Bool := .call (Command.tc command) .done
def error (message : Text) : Script Unit := .call (Command.error message) .done

-- $((classid+1))
def increment (classid : Text) : Text := Nat.toDigits 10 (Nat.ofDigitChars 10 classid 0 + 1)

-- if ! tc ...; then echo "..." >&2; fi
def tcOrError (command : TcCommand) (message : Text) : Script Unit := do
  if ← tc command then pure ()
  else error message

def bwlimitDisable (ip : Text) : Script Unit := do
  if ← testClassid ip then
    if ← testDev ip then
      let classid ← catClassid ip
      let devFromState ← catDev ip
      let _ ← tc (.filterDel devFromState ip)
      let _ ← tc (.classDel devFromState classid)
      let _ ← tc (.policeDel devFromState ip)
      rmDev ip

-- Find unique classid.
def findClassid (ip : Text) : Script Text := do
  if ← testClassid ip then catClassid ip
  else
    if ← testLast then
      let last ← catLast
      echoLast (increment last)
      pure (increment last)
    else
      echoLast ['1']
      pure ['1']

def addRules (run : Run) (classid : Text) : Script Unit := do
  tcOrError (.classAdd run.dev classid run.downrate)
    ("[ERROR] Failed to add tc class for client ".toList ++ run.ip ++ " (classid 1:".toList ++
      classid ++ ")".toList)
  tcOrError (.filterAdd run.dev run.ip classid)
    ("[ERROR] Failed to add tc filter for client ".toList ++ run.ip ++ " destination".toList)
  tcOrError (.policeAdd run.dev run.ip run.uprate classid)
    ("[ERROR] Failed to add tc ingress filter for client ".toList ++ run.ip)

def bwlimitEnable (run : Run) : Script Unit := do
  -- Disable if already enabled.
  bwlimitDisable run.ip
  let classid ← findClassid run.ip
  addRules run classid
  -- Store classid and dev for further use.
  echoClassid run.ip classid
  echoDev run.ip run.dev

def ensureQdiscs (dev : Text) : Script Unit := do
  if dev ≠ [] then
    let _ ← tc (.qdiscAddRoot dev)
    let _ ← tc (.qdiscAddIngress dev)

def learnAddress (run : Run) : Script Unit := do
  ensureQdiscs run.dev
  match run.action with
  | .add | .update => bwlimitEnable run
  | .delete => bwlimitDisable run.ip
  | .other operation =>
      error ("/etc/openvpn/scripts/learn-address.sh: unknown operation [".toList ++ operation ++
        "]".toList)

end Script

section Sequences

variable (accepts : State → TcCommand → Bool)

-- Runs one after another.
def after (runs : List Run) : State :=
  runs.foldl (fun state run => (Program.exec (perform accepts) (learnAddress run) state).2) .empty

end Sequences

end OpenBalenaVpn.Throttle
