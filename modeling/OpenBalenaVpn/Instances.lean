import OpenBalenaVpn.Foundation.Shell
import OpenBalenaVpn.Foundation.Template

namespace OpenBalenaVpn.Instances

open Template

section Container

-- The numbers from 2 ^ 31 on are no int.
def intBound : Nat := 2147483648

-- What decides on the number of instances: the environment of the container, the pod
-- info and the machine, whose processors are counted by an int.
structure Container where
  PRODUCTION_MODE : Option Text
  VPN_INSTANCE_COUNT : Option Text
  -- /etc/podinfo/cpu_request
  cpu_request : Option Text
  cpus : Nat
  cpus_pos : 0 < cpus
  cpus_lt : cpus < intBound

-- The variables that the templates read for it.
inductive Variable where
  | PRODUCTION_MODE
  | VPN_INSTANCE_COUNT
  | NPROC

def Container.nproc (container : Container) : Text := Nat.toDigits 10 container.cpus

-- The environment of confd, with the NPROC of extra-contenv-up.
def Container.env (container : Container) : Variable → Option Text
  | .PRODUCTION_MODE => container.PRODUCTION_MODE
  | .VPN_INSTANCE_COUNT => container.VPN_INSTANCE_COUNT
  | .NPROC => some container.nproc

end Container

section Templates

variable (env : Variable → Option Text)

def envInstanceCount : Text :=
  if (eq (getenv env .PRODUCTION_MODE []) "true".toList).truth then
    if (eq (getenv env .VPN_INSTANCE_COUNT ['0']) ['0']).truth then ['0']
    else if (gt (getenv env .VPN_INSTANCE_COUNT ['0']) ['0']).truth then
      getenv env .VPN_INSTANCE_COUNT []
    else getenv env .NPROC []
  else ['1']

-- What a file says that sets VPN_INSTANCE_COUNT
def envLine (value : Text) : Text := "VPN_INSTANCE_COUNT=".toList ++ value ++ ['\n']

-- config/env as env.tmpl writes it. Its other lines set other variables.
def envFile : Text := envLine (envInstanceCount env)

-- `$servers` of haproxy.cfg.tmpl
def servers : Text :=
  getenv env .VPN_INSTANCE_COUNT (((eq (getenv env .PRODUCTION_MODE []) "true".toList).and
    (.text (getenv env .NPROC []))).or (.text ['1'])).print

def serverTemplate (servers : Text) : Text :=
  "\tserver-template vpn 1-".toList ++ servers ++ " 127.0.0.1:10000 disabled".toList

end Templates

section Tools

-- What the repository leaves to others: to bash and seq, to the env-parsing package and
-- to HAProxy.
structure Tools where
  -- VPN_INSTANCE_COUNT once a file has been sourced, or the error that ended the script
  source : Text → Except Text (Option Text)
  -- `intVar(name, null)`, by the value of the variable
  intVar : Option Text → Except Text (Option Int)
  checkInt : Text → Option Int
  -- the words of `$(seq 1 $INSTANCE_COUNT)`, by the value of the variable
  seq : Text → List Text
  -- the value of the variable in an arithmetic expression
  arithmetic : Text → Option Int
  -- the names of the servers that a line of the configuration makes
  servers : Text → List Text

end Tools

variable (tools : Tools) (container : Container)

section Primary

-- The number of the pod info, or of the processors where that is missing or no integer.
def podInstanceCount : Int :=
  match container.cpu_request.bind tools.checkInt with
  | some maybeInstanceCount => maybeInstanceCount
  | none => container.cpus

def getInstanceCount (value : Option Text) : Except Text Int := do
  match ← tools.intVar value with
  | some instanceCount =>
      if instanceCount > 0 then pure instanceCount
      else pure (podInstanceCount tools container)
  | none => pure (podInstanceCount tools container)

-- The environment of the primary is what its start.sh sources.
def VPN_INSTANCE_COUNT : Except Text Int := do
  getInstanceCount tools container (← tools.source (envFile container.env))

-- The ids of the loop that spawns the workers.
def workerIds (count : Int) : List Nat := (List.range count.toNat).map (· + 1)

-- The workers of a primary that starts.
def spawned : Option (List Nat) :=
  match VPN_INSTANCE_COUNT tools container with
  | .ok count => some (workerIds count)
  | .error _ => none

end Primary

section Exporter

def statusFile (number : Text) : Text :=
  "/run/openvpn/server-".toList ++ number ++ ".status".toList

-- `INSTANCE_COUNT` in the start script of the exporter.
def exporterCount : Text :=
  let count := Shell.substitute ((Shell.grepStart "VPN_INSTANCE_COUNT=".toList
    (Shell.lines (envFile container.env))).map (Shell.cut '=' 2))
  if count = ['0'] then container.nproc else count

-- The list for the exporter. A value that is no arithmetic expression ends the loop.
def statusPaths (count : Text) : Text :=
  (workerIds ((tools.arithmetic count).getD 0)).foldl
    (fun paths i => Shell.join ',' paths (statusFile (Nat.toDigits 10 i))) []

def MAX_RETRIES : Nat := 60

def pathExists (present : Text → Bool) : Bool :=
  (tools.seq (exporterCount container)).all fun i => present (statusFile i)

-- The retry at which the script starts the exporter, with its list, or none where the
-- script times out. The files that are there may be others at each retry.
def startExporter (present : Nat → Text → Bool) : Option (Nat × Text) :=
  ((List.range MAX_RETRIES).find? fun retry => pathExists tools container (present retry)).map
    fun retry => (retry, statusPaths tools (exporterCount container))

end Exporter

section Haproxy

def serverName (id : Nat) : Text := "vpn".toList ++ Nat.toDigits 10 id

-- The servers of the backend vpn-workers.
def haproxyServers : List Text := tools.servers (serverTemplate (servers container.env))

end Haproxy

end OpenBalenaVpn.Instances
