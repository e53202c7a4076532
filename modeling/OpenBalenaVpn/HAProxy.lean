import OpenBalenaVpn.Instances
import Mathlib.Logic.Function.Basic

namespace OpenBalenaVpn.HAProxy

section Client

def preamble (name : Text) : Text := "set server ".toList ++ name

-- What `register` and `drain` write to the socket.
def register (name : Text) (port : Nat) (host : Text) : Text :=
  preamble name ++ " addr ".toList ++ host ++ " port ".toList ++ Nat.toDigits 10 port ++ [';'] ++
    preamble name ++ " state ready;".toList

def drain (name : Text) : Text := preamble name ++ " state drain;".toList

def localhost : Text := "127.0.0.1".toList

-- `vpn-workers/vpn${instanceId}`
def workerName (instanceId : Nat) : Text :=
  "vpn-workers/".toList ++ Instances.serverName instanceId

end Client

section Server

inductive ServerState where
  | ready
  | drain
  | maint
  deriving DecidableEq

structure Server where
  addr : Text
  port : Nat
  state : ServerState
  deriving DecidableEq

-- The servers of the backend vpn-workers, by its name and their own. New connections are given
-- to those that are ready.
abbrev Servers := Text → Option Server

-- `server-template vpn 1-{{$servers}} 127.0.0.1:10000 disabled` of the backend vpn-workers
def template (servers : Nat) : Servers := fun name =>
  if (Instances.workerIds servers).any fun workerId => workerName workerId = name then
    some ⟨localhost, 10000, .maint⟩
  else none

def Servers.modify (servers : Servers) (name : Text) (change : Server → Server) : Servers :=
  Function.update servers name ((servers name).map change)

end Server

section Runtime

-- HAProxy by its runtime API: the table that it starts with for so many servers, what a line
-- on its socket makes of it, and the servers of the backend in it.
structure Runtime (Table : Type) where
  start : Nat → Table
  execute : Table → Text → Table
  servers : Table → Servers

-- The runtime command `set server` for the server of a worker, with the two options that the
-- workers use.
inductive Command where
  | addr (workerId port : Nat)
  | state (workerId : Nat) (target : ServerState)

def ServerState.word : ServerState → Text
  | ready => "ready".toList
  | drain => "drain".toList
  | maint => "maint".toList

def Command.text : Command → Text
  | addr workerId port => preamble (workerName workerId) ++ " addr ".toList ++ localhost ++
      " port ".toList ++ Nat.toDigits 10 port
  | state workerId target =>
      preamble (workerName workerId) ++ " state ".toList ++ target.word

def Command.Valid : Command → Prop
  | addr _ port => 1 ≤ port ∧ port ≤ 65535
  | state _ _ => True

-- A server that there is not is not made.
def Command.perform (servers : Servers) : Command → Servers
  | addr workerId port => servers.modify (workerName workerId) fun server =>
      { server with addr := localhost, port }
  | state workerId target => servers.modify (workerName workerId) fun server =>
      { server with state := target }

-- Commands on one line, each ended by a semicolon.
def line (commands : List Command) : Text := commands.flatMap fun command => command.text ++ [';']

-- What HAProxy documents: the servers of a template, that the commands of a line are executed
-- one after another, and what `set server` does to the server it names and to no other.
structure Documented {Table : Type} (haproxy : Runtime Table) : Prop where
  start : ∀ servers, haproxy.servers (haproxy.start servers) = template servers
  line : ∀ table commands, haproxy.servers (haproxy.execute table (line commands)) =
    haproxy.servers (commands.foldl (fun table command => haproxy.execute table command.text) table)
  perform : ∀ table (command : Command), command.Valid →
    haproxy.servers (haproxy.execute table command.text) =
      command.perform (haproxy.servers table)

end Runtime

end OpenBalenaVpn.HAProxy
