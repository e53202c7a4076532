import OpenBalenaVpn.Throttle
import Mathlib.Data.List.Basic

namespace OpenBalenaVpn.Throttle

section Arguments

-- What is accepted has rates of the right format, and an address.
theorem parse_ok {args : List Text} {dev : Text} {run : Run} (h : Run.parse args dev = .ok run) :
    isRate run.downrate = true ∧ isRate run.uprate = true ∧ args[3]? = some run.ip := by
  dsimp only [Run.parse] at h
  by_cases hdelete : Action.ofText (args.getD 2 []) = .delete ∧ args.length < 4
  · rw [if_pos hdelete] at h
    cases h
  by_cases hothers : Action.ofText (args.getD 2 []) ≠ .delete ∧ args.length < 5
  · rw [if_neg hdelete, if_pos hothers] at h
    cases h
  by_cases hnamed : Action.ofText (args.getD 2 []) = .delete ∨ findDevice args dev ≠ []
  swap
  · rw [if_neg hdelete, if_neg hothers, dif_neg hnamed] at h
    cases h
  by_cases hrates : isRate (args.getD 0 []) = true ∧ isRate (args.getD 1 []) = true
  swap
  · rw [if_neg hdelete, if_neg hothers, dif_pos hnamed, if_neg hrates] at h
    cases h
  rw [if_neg hdelete, if_neg hothers, dif_pos hnamed, if_pos hrates] at h
  obtain rfl := Except.ok.inj h
  have hlength : 3 < args.length := by
    by_cases haction : Action.ofText (args.getD 2 []) = .delete
    · have hfour := not_and.mp hdelete haction
      omega
    · have hfive := not_and.mp hothers haction
      omega
  have hip : args.getD 3 [] = args[3] := by
    rw [List.getD_eq_getElem?_getD, List.getElem?_eq_getElem hlength]
    rfl
  exact ⟨hrates.1, hrates.2,
    (List.getElem?_eq_getElem hlength).trans (congrArg some hip.symm)⟩

-- A rate without a unit is refused.
example : Run.parse ["invalid".toList, "5mbit".toList, "add".toList, "10.0.0.1".toList,
    "client1".toList, "lo".toList] [] = .error
      "[ERROR] Invalid rate format. Expected format: <number>(kbit|mbit|gbit)".toList := rfl

end Arguments

section Files

-- The id after the last one.
def nextClassid : Option Text → Text
  | none => ['1']
  | some last => increment last

-- The id of a client, or the one that it would get.
def Files.allotted (files : Files) (ip : Text) : Text :=
  (files.classid ip).getD (nextClassid files.lastClassid)

def Files.disable (files : Files) (ip : Text) : Files :=
  if (files.classid ip).isSome then { files with dev := Function.update files.dev ip none }
  else files

def Files.enable (files : Files) (ip dev : Text) : Files where
  lastClassid :=
    if (files.classid ip).isSome then files.lastClassid else some (files.allotted ip)
  classid := Function.update files.classid ip (some (files.allotted ip))
  dev := Function.update files.dev ip (some dev)

-- What a run makes of the state directory, whatever tc answers.
def Files.learn (files : Files) (run : Run) : Files :=
  match run.action with
  | .add | .update => files.enable run.ip run.dev
  | .delete => files.disable run.ip
  | .other _ => files

end Files

section Exec

variable (accepts : State → TcCommand → Bool) (state : State) (ip : Text)

-- What a call of tc leaves.
def tried (state : State) (command : TcCommand) : State :=
  if accepts state command then state.tc command else state

theorem toFiles_tc (command : TcCommand) : (state.tc command).toFiles = state.toFiles := by
  rw [State.tc]
  split <;> rfl

@[simp] theorem toFiles_tried (command : TcCommand) :
    (tried accepts state command).toFiles = state.toFiles := by
  rw [tried]
  split
  · exact toFiles_tc state command
  · rfl

@[simp] theorem exec_testClassid :
    Program.exec (perform accepts) (testClassid ip) state =
      ((state.classid ip).isSome, state) := rfl

@[simp] theorem exec_catClassid :
    Program.exec (perform accepts) (catClassid ip) state =
      ((state.classid ip).getD [], state) := rfl

@[simp] theorem exec_echoClassid (classid : Text) :
    Program.exec (perform accepts) (echoClassid ip classid) state =
      ((), { state with classid := Function.update state.classid ip (some classid) }) := rfl

@[simp] theorem exec_testDev :
    Program.exec (perform accepts) (testDev ip) state = ((state.dev ip).isSome, state) := rfl

@[simp] theorem exec_catDev :
    Program.exec (perform accepts) (catDev ip) state = ((state.dev ip).getD [], state) := rfl

@[simp] theorem exec_echoDev (dev : Text) :
    Program.exec (perform accepts) (echoDev ip dev) state =
      ((), { state with dev := Function.update state.dev ip (some dev) }) := rfl

@[simp] theorem exec_rmDev :
    Program.exec (perform accepts) (rmDev ip) state =
      ((), { state with dev := Function.update state.dev ip none }) := rfl

@[simp] theorem exec_testLast :
    Program.exec (perform accepts) testLast state = (state.lastClassid.isSome, state) := rfl

@[simp] theorem exec_catLast :
    Program.exec (perform accepts) catLast state = (state.lastClassid.getD [], state) := rfl

@[simp] theorem exec_echoLast (classid : Text) :
    Program.exec (perform accepts) (echoLast classid) state =
      ((), { state with lastClassid := some classid }) := rfl

@[simp] theorem exec_tc (command : TcCommand) :
    Program.exec (perform accepts) (tc command) state =
      (accepts state command, tried accepts state command) := rfl

@[simp] theorem exec_error (message : Text) :
    Program.exec (perform accepts) (error message) state = ((), state) := rfl

@[simp] theorem exec_tcOrError (command : TcCommand) (message : Text) :
    Program.exec (perform accepts) (tcOrError command message) state =
      ((), tried accepts state command) := by
  rw [tcOrError, Program.exec_bind, exec_tc]
  split <;> rfl

-- The calls of tc that remove the rules of a client.
def cleared (dev classid : Text) : State :=
  tried accepts (tried accepts (tried accepts state (.filterDel dev ip))
    (.classDel dev classid)) (.policeDel dev ip)

theorem exec_bwlimitDisable_of_active {classid dev : Text}
    (hclassid : state.classid ip = some classid) (hdev : state.dev ip = some dev) :
    Program.exec (perform accepts) (bwlimitDisable ip) state =
      ((), { cleared accepts state ip dev classid with
        dev := Function.update state.dev ip none }) := by
  have hfiles : (cleared accepts state ip dev classid).dev = state.dev := by
    simp [cleared]
  rw [← hfiles]
  simp [bwlimitDisable, hclassid, hdev, cleared]

theorem exec_bwlimitDisable_of_not_active
    (h : state.classid ip = none ∨ state.dev ip = none) :
    Program.exec (perform accepts) (bwlimitDisable ip) state = ((), state) := by
  rcases h with hclassid | hdev
  · simp [bwlimitDisable, hclassid]
  · cases hclassid : state.classid ip with
    | none => simp [bwlimitDisable, hclassid]
    | some classid => simp [bwlimitDisable, hclassid, hdev]

theorem exec_findClassid : Program.exec (perform accepts) (findClassid ip) state =
    (state.allotted ip, { state with
      lastClassid := if (state.classid ip).isSome then state.lastClassid
        else some (state.allotted ip) }) := by
  cases hclassid : state.classid ip with
  | some classid => simp [findClassid, Files.allotted, hclassid]
  | none =>
      cases hlast : state.lastClassid with
      | none => simp [findClassid, Files.allotted, hclassid, hlast, nextClassid]
      | some last => simp [findClassid, Files.allotted, hclassid, hlast, nextClassid]

def ruled (run : Run) (classid : Text) : State :=
  tried accepts (tried accepts (tried accepts state (.classAdd run.dev classid run.downrate))
    (.filterAdd run.dev run.ip classid)) (.policeAdd run.dev run.ip run.uprate classid)

theorem exec_addRules (run : Run) (classid : Text) :
    Program.exec (perform accepts) (addRules run classid) state =
      ((), ruled accepts state run classid) := by
  simp [addRules, ruled]

-- The client is given its id and its rules, after it was disabled.
def limited (run : Run) : State where
  toFiles := state.toFiles.enable run.ip run.dev
  interface := (ruled accepts { state with
    lastClassid := if (state.classid run.ip).isSome then state.lastClassid
      else some (state.allotted run.ip) } run (state.allotted run.ip)).interface

theorem exec_bwlimitEnable (run : Run) :
    (Program.exec (perform accepts) (bwlimitEnable run) state).2 =
      limited accepts (Program.exec (perform accepts) (bwlimitDisable run.ip) state).2 run := by
  rw [bwlimitEnable, Program.exec_bind]
  generalize (Program.exec (perform accepts) (bwlimitDisable run.ip) state).2 = disabled
  have hfiles : ∀ ready classid, (ruled accepts ready run classid).toFiles = ready.toFiles := by
    simp [ruled]
  simp only [Program.exec_bind, exec_findClassid, exec_addRules, exec_echoClassid, exec_echoDev,
    hfiles]
  rfl

def provided (dev : Text) : State :=
  if dev = [] then state
  else tried accepts (tried accepts state (.qdiscAddRoot dev)) (.qdiscAddIngress dev)

theorem exec_ensureQdiscs (dev : Text) :
    Program.exec (perform accepts) (ensureQdiscs dev) state =
      ((), provided accepts state dev) := by
  by_cases hdev : dev = []
  · simp [ensureQdiscs, provided, hdev]
  · simp [ensureQdiscs, provided, hdev]

@[simp] theorem toFiles_provided (dev : Text) :
    (provided accepts state dev).toFiles = state.toFiles := by
  rw [provided]
  split
  · rfl
  · simp

theorem toFiles_bwlimitDisable :
    (Program.exec (perform accepts) (bwlimitDisable ip) state).2.toFiles =
      state.toFiles.disable ip := by
  cases hclassid : state.classid ip with
  | none =>
      rw [exec_bwlimitDisable_of_not_active accepts state ip (Or.inl hclassid), Files.disable,
        hclassid]
      rfl
  | some classid =>
      rw [Files.disable, hclassid, Option.isSome_some, if_pos rfl]
      cases hdev : state.dev ip with
      | none =>
          rw [exec_bwlimitDisable_of_not_active accepts state ip (Or.inr hdev), ← hdev,
            Function.update_eq_self]
      | some dev =>
          rw [exec_bwlimitDisable_of_active accepts state ip hclassid hdev]
          have hfiles : (cleared accepts state ip dev classid).toFiles = state.toFiles := by
            simp [cleared]
          simp only [hfiles]

theorem enable_disable (files : Files) (dev : Text) :
    (files.disable ip).enable ip dev = files.enable ip dev := by
  rw [Files.disable]
  split
  · simp [Files.enable, Files.allotted]
  · rfl

-- The files do not depend on what tc answers.
theorem toFiles_learnAddress (run : Run) :
    (Program.exec (perform accepts) (learnAddress run) state).2.toFiles =
      state.toFiles.learn run := by
  rw [learnAddress, Program.exec_bind, exec_ensureQdiscs, Files.learn]
  cases run.action with
  | add | update =>
      rw [exec_bwlimitEnable, limited, toFiles_bwlimitDisable, enable_disable, toFiles_provided]
  | delete =>
      rw [toFiles_bwlimitDisable, toFiles_provided]
  | other operation => exact toFiles_provided accepts state run.dev

end Exec

end OpenBalenaVpn.Throttle
