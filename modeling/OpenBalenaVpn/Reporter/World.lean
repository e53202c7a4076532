import OpenBalenaVpn.Reporter

namespace OpenBalenaVpn.Reporter

-- How a POST ended. The API may have applied a POST although the reporter saw a
-- timeout, a connection error or another status than 200.
structure Ending (Uuid : Type) where
  post : Post Uuid
  response : Option Nat
  applied : Bool

-- The reporter and the connected flags that the API keeps, with the endings of
-- all POSTs, the latest first.
structure World (Uuid : Type) where
  reporter : State Uuid
  isConnected : Uuid → Bool
  endings : List (Ending Uuid)

namespace World

variable {Uuid : Type}

inductive Event (Uuid : Type) where
  | setConnected (uuid : Uuid) (serviceId workerId : Nat) (connected : Bool)
  | settle (id : Nat) (response : Option Nat) (applied : Bool)
  | wake (index : Nat)

def initial (isConnected : Uuid → Bool) : World Uuid := ⟨.initial, isConnected, []⟩

variable [DecidableEq Uuid]

def apply (post : Post Uuid) (isConnected : Uuid → Bool) (uuid : Uuid) : Bool :=
  if uuid ∈ post.uuids then post.connected else isConnected uuid

-- A POST is applied as a whole or not at all, and one answered with 200 was applied.
def settle (world : World Uuid) (id : Nat) (response : Option Nat) (applied : Bool) :
    Option (World Uuid) :=
  if response = some 200 ∧ applied = false then none
  else do
    let post ← world.reporter.inFlight.find? (·.id = id)
    let reporter ← world.reporter.settle id response
    some {
      reporter
      isConnected := if applied then apply post world.isConnected else world.isConnected
      endings := ⟨post, response, applied⟩ :: world.endings }

def step (batchSize : Int) (world : World Uuid) : Event Uuid → Option (World Uuid)
  | .setConnected uuid serviceId workerId connected =>
      (world.reporter.setConnected batchSize uuid serviceId workerId connected).map
        fun reporter => { world with reporter }
  | .settle id response applied => world.settle id response applied
  | .wake index =>
      (world.reporter.wake batchSize index).map fun reporter => { world with reporter }

-- The ending of the POST that the API last applied to a uuid.
def lastApplied (world : World Uuid) (uuid : Uuid) : Option (Ending Uuid) :=
  world.endings.find? fun ending => ending.applied && decide (uuid ∈ ending.post.uuids)

-- Every tracked device that is neither pending nor in a POST has its target at the API.
def Converged (world : World Uuid) : Prop :=
  ∀ uuid tracker, world.reporter.deviceStates.get uuid = some tracker →
    uuid ∉ world.reporter.pendingUpdates → (∀ post ∈ world.reporter.inFlight, uuid ∉ post.uuids) →
    world.isConnected uuid = tracker.targetConnected

-- The POST last applied to the uuid was counted as failed, and carried the
-- opposite of the acknowledged flag.
def Overturned (world : World Uuid) (uuid : Uuid) (tracker : DeviceStateTracker) : Prop :=
  ∃ ending, world.lastApplied uuid = some ending ∧ ending.response ≠ some 200 ∧
    some ending.post.connected ≠ tracker.currentConnected

-- When a timer starts a round, no pending uuid that the round drops, its target
-- being what was last acknowledged, was overturned.
def DropsNone (world : World Uuid) : Event Uuid → Prop
  | .wake _ => ∀ uuid ∈ world.reporter.pendingUpdates, ∀ tracker,
      world.reporter.deviceStates.get uuid = some tracker → tracker.needsUpdate = false →
      ¬world.Overturned uuid tracker
  | _ => True

end World

end OpenBalenaVpn.Reporter
