import OpenBalenaVpn.Foundation.JsString
import OpenBalenaVpn.Foundation.Transition

namespace OpenBalenaVpn.VpnManager

open JsString

def STARTUP_TIMEOUT : Int := 5000
def TERM_TIMEOUT : Int := 5000
def KILL_TIMEOUT : Int := TERM_TIMEOUT * 2

section Orphan

inductive Signal where
  | SIGPING
  | SIGTERM
  | SIGKILL
  deriving DecidableEq

-- The clock and the processes as killOrphan meets them: moment 0 is its start, and
-- moment k comes after the k-th wait. `kill` is whether a signal to a pid is delivered.
structure Surroundings where
  now : Nat → Int
  kill : ParsedInt → Nat → Bool
  passes : ∀ time, ∃ moment, time ≤ now moment

def Surroundings.elapsedTime (world : Surroundings) (moment : Nat) : Int :=
  world.now moment - world.now 0

structure Attempt where
  signal : Signal
  moment : Nat
  delivered : Bool
  deriving DecidableEq

-- It returns, or throws the TimeoutError at a moment.
inductive Ending where
  | returned
  | threw (moment : Nat)
  deriving DecidableEq

structure Report where
  attempts : List Attempt
  ending : Ending
  deriving DecidableEq

-- The loop, with the outcome of the attempt at the moment.
def killLoop (world : Surroundings) (pid : ParsedInt) :
    Nat → Nat → Bool → List Attempt → Option Report
  | 0, _, _, _ => none
  | fuel + 1, moment, error, attempts =>
      if error then some ⟨attempts, .returned⟩
      else
        let next := moment + 1
        let kill (signal : Signal) : Option Report :=
          killLoop world pid fuel next (world.kill pid next)
            (attempts ++ [⟨signal, next, world.kill pid next⟩])
        if world.elapsedTime next < TERM_TIMEOUT then kill .SIGPING
        else if world.elapsedTime next < KILL_TIMEOUT then kill .SIGKILL
        else some ⟨attempts, .threw next⟩

def readPid (text : JsString) : ParsedInt := parseInt (text.filter Json.isDigit)

-- The pid file is none where it cannot be accessed.
def killOrphan (world : Surroundings) (fuel : Nat) : Option JsString → Option Report
  | none => some ⟨[], .returned⟩
  | some text =>
      let pid := readPid text
      killLoop world pid fuel 0 (world.kill pid 0) [⟨.SIGTERM, 0, world.kill pid 0⟩]

end Orphan

section Startup

inductive Outcome where
  | ready
  | error
  | neither
  deriving DecidableEq

-- The clock when waitForStart was called and at each attempt, and what becomes of the
-- socket of each attempt before its timer.
structure Startup where
  since : Int
  now : Nat → Int
  outcome : Nat → Outcome
  starts : since ≤ now 0
  mono : ∀ first second, first ≤ second → now first ≤ now second

inductive Started where
  | resolved
  | timedOut
  deriving DecidableEq

inductive Rejection where
  | TimeoutError
  | TypeError
  | notReady
  deriving DecidableEq

-- pTimeout of an attempt. Where there is no time left it rejects at once.
def pTimeout (milliseconds : Int) (outcome : Outcome) : Except Rejection Unit :=
  if milliseconds ≤ 0 then .error .TypeError
  else match outcome with
    | .ready => .ok ()
    | .error => .error .notReady
    | .neither => .error .TimeoutError

-- The attempts that are made, by number, and how it ends if it does.
def waitForStart (startup : Startup) : Nat → Nat → List Nat × Option Started
  | 0, _ => ([], none)
  | fuel + 1, attempt =>
      let (later, ending) :=
        match pTimeout (STARTUP_TIMEOUT - (startup.now attempt - startup.since))
          (startup.outcome attempt) with
        | .ok () => ([], some .resolved)
        | .error .TimeoutError => ([], some .timedOut)
        | .error _ => waitForStart startup fuel (attempt + 1)
      (attempt :: later, ending)

end Startup

end OpenBalenaVpn.VpnManager
