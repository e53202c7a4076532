import OpenBalenaVpn.Foundation.OrderedMap

namespace OpenBalenaVpn.Reporter

variable {Uuid : Type}

structure DeviceStateTracker where
  targetConnected : Bool
  targetWorkerId : Nat
  currentConnected : Option Bool
  currentWorkerId : Option Nat
  deriving DecidableEq

-- A POST to `/services/vpn/client-connect` or `/services/vpn/client-disconnect`.
-- The id is not on the wire. It numbers the POSTs in the order they are sent.
structure Post (Uuid : Type) where
  id : Nat
  serviceId : Nat
  uuids : List Uuid
  connected : Bool
  deriving DecidableEq

inductive EventType where
  | connect
  | disconnect
  deriving DecidableEq

def Post.eventType (post : Post Uuid) : EventType :=
  if post.connected then .connect else .disconnect

-- Where a round of `updateLoop` stands: awaiting its POSTs, or in the one second
-- wait of its `finally` block.
inductive Phase (Uuid : Type) where
  | reporting (inFlight : List (Post Uuid))
  | sleeping
  deriving DecidableEq

structure Round (Uuid : Type) where
  serviceId : Nat
  phase : Phase Uuid
  deriving DecidableEq

-- What `setConnected` closes over, with the rounds of `updateLoop` that got past
-- their guard. The last two fields record what was sent and acknowledged, the
-- latest acknowledgement first.
structure State (Uuid : Type) where
  deviceStates : OrderedMap Uuid DeviceStateTracker
  pendingUpdates : OrderedSet Uuid
  currentlyReporting : Bool
  rounds : List (Round Uuid)
  nextPost : Nat
  acknowledged : List (Post Uuid)

def State.initial : State Uuid := ⟨.empty, .empty, false, [], 0, []⟩

section Chunk

variable {α : Type}

-- The fuel is the length of the rest of the array, which each slice shortens.
def chunkLoop (size : Nat) : Nat → List α → List (List α)
  | _, [] => []
  | 0, _ => []
  | fuel + 1, arr => arr.take size :: chunkLoop size fuel (arr.drop size)

-- With a size of 0 or less, `i += size` never reaches the end of the array and
-- the loop does not return.
def chunk (arr : List α) (size : Int) : Option (List (List α)) :=
  if arr = [] then some []
  else if size ≤ 0 then none
  else some (chunkLoop size.toNat arr.length arr)

end Chunk

def Phase.inFlight : Phase Uuid → List (Post Uuid)
  | .reporting inFlight => inFlight
  | .sleeping => []

-- A round goes on to its `finally` block once none of its POSTs is left.
def Phase.await : List (Post Uuid) → Phase Uuid
  | [] => .sleeping
  | posts => .reporting posts

def State.inFlight (state : State Uuid) : List (Post Uuid) :=
  state.rounds.flatMap (·.phase.inFlight)

def DeviceStateTracker.needsUpdate (tracker : DeviceStateTracker) : Bool :=
  some tracker.targetConnected != tracker.currentConnected ||
    some tracker.targetWorkerId != tracker.currentWorkerId

def reportUpdates (batchSize : Int) (serviceId nextPost : Nat) (uuids : List Uuid)
    (connected : Bool) : Option (List (Post Uuid)) :=
  if uuids.length = 0 then some []
  else (chunk uuids batchSize).map fun uuidChunks =>
    (uuidChunks.zipIdx nextPost).map fun (uuidChunk, id) => ⟨id, serviceId, uuidChunk, connected⟩

variable [DecidableEq Uuid]

-- The loop over the pending uuids: the disconnects and the connects to report.
-- It is none where destructuring the tracker of an unknown uuid throws.
def selectUpdates (deviceStates : OrderedMap Uuid DeviceStateTracker) :
    List Uuid → Option (List Uuid × List Uuid)
  | [] => some ([], [])
  | uuid :: rest => do
      let tracker ← deviceStates.get uuid
      let (disconnects, connects) ← selectUpdates deviceStates rest
      if tracker.needsUpdate then
        if tracker.targetConnected then some (disconnects, uuid :: connects)
        else some (uuid :: disconnects, connects)
      else some (disconnects, connects)

-- The part of `updateLoop` up to its first await. It is none when that part does
-- not return.
def State.updateLoop (batchSize : Int) (serviceId : Nat) (state : State Uuid) :
    Option (State Uuid) :=
  if state.currentlyReporting || state.pendingUpdates.size = 0 then some state
  else match selectUpdates state.deviceStates state.pendingUpdates.elems with
    | none => some { state with
        currentlyReporting := true
        rounds := state.rounds ++ [⟨serviceId, .sleeping⟩] }
    | some (disconnects, connects) => do
        let disconnectPosts ←
          reportUpdates batchSize serviceId state.nextPost disconnects false
        let connectPosts ← reportUpdates batchSize serviceId
          (state.nextPost + disconnectPosts.length) connects true
        let posts := disconnectPosts ++ connectPosts
        some { state with
          currentlyReporting := true
          pendingUpdates := .empty
          rounds := state.rounds ++ [⟨serviceId, Phase.await posts⟩]
          nextPost := state.nextPost + posts.length }

def retarget (workerId : Nat) (connected : Bool) : Option DeviceStateTracker → DeviceStateTracker
  | none => ⟨connected, workerId, none, none⟩
  | some tracker => { tracker with targetConnected := connected, targetWorkerId := workerId }

-- `setConnected` up to its call of `updateLoop`.
def State.enqueue (state : State Uuid) (uuid : Uuid) (workerId : Nat) (connected : Bool) :
    State Uuid :=
  { state with
    deviceStates := state.deviceStates.set uuid
      (retarget workerId connected (state.deviceStates.get uuid))
    pendingUpdates := state.pendingUpdates.add uuid }

def State.setConnected (batchSize : Int) (state : State Uuid) (uuid : Uuid)
    (serviceId workerId : Nat) (connected : Bool) : Option (State Uuid) :=
  (state.enqueue uuid workerId connected).updateLoop batchSize serviceId

-- The loop over the uuids of a POST that was answered with 200. The flag says
-- whether it ended, or threw at an unknown uuid.
def markCurrent (connected : Bool) :
    List Uuid → OrderedMap Uuid DeviceStateTracker → OrderedMap Uuid DeviceStateTracker × Bool
  | [], deviceStates => (deviceStates, true)
  | uuid :: rest, deviceStates => match deviceStates.get uuid with
    | none => (deviceStates, false)
    | some tracker => markCurrent connected rest (deviceStates.set uuid { tracker with
        currentConnected := some connected
        -- the worker is read when the answer comes, not when the POST was sent
        currentWorkerId := some tracker.targetWorkerId })

-- The `try` and `catch` blocks of a POST whose promise settles. The response is
-- none for a timeout or a connection error, and else the status code.
def State.finishPost (state : State Uuid) (post : Post Uuid) (response : Option Nat) :
    State Uuid :=
  if response = some 200 then
    let marked := markCurrent post.connected post.uuids state.deviceStates
    { state with
      deviceStates := marked.1
      pendingUpdates :=
        if marked.2 then state.pendingUpdates else state.pendingUpdates.addAll post.uuids
      acknowledged := post :: state.acknowledged }
  else { state with pendingUpdates := state.pendingUpdates.addAll post.uuids }

def Phase.finish (post : Post Uuid) : Phase Uuid → Phase Uuid
  | .reporting inFlight => .await (inFlight.erase post)
  | .sleeping => .sleeping

def State.settle (state : State Uuid) (id : Nat) (response : Option Nat) :
    Option (State Uuid) :=
  match state.inFlight.find? (·.id = id) with
  | none => none
  | some post =>
      let finished := state.finishPost post response
      some { finished with
        rounds := state.rounds.map fun round => { round with phase := round.phase.finish post } }

-- The one second timer of a round: it clears the flag and looks for updates that
-- came in while the round was running.
def State.wake (batchSize : Int) (state : State Uuid) (index : Nat) : Option (State Uuid) :=
  match state.rounds[index]? with
  | none => none
  | some round =>
      if round.phase = .sleeping then
        { state with
          currentlyReporting := false
          rounds := state.rounds.eraseIdx index }.updateLoop batchSize round.serviceId
      else none

inductive Event (Uuid : Type) where
  | setConnected (uuid : Uuid) (serviceId workerId : Nat) (connected : Bool)
  | settle (id : Nat) (response : Option Nat)
  | wake (index : Nat)
  deriving DecidableEq

-- One turn of the event loop.
def step (batchSize : Int) (state : State Uuid) : Event Uuid → Option (State Uuid)
  | .setConnected uuid serviceId workerId connected =>
      state.setConnected batchSize uuid serviceId workerId connected
  | .settle id response => state.settle id response
  | .wake index => state.wake batchSize index

end OpenBalenaVpn.Reporter
