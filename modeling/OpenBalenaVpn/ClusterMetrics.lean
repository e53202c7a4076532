import OpenBalenaVpn.Foundation.OrderedMap
import Mathlib.Algebra.Order.Field.Rat

namespace OpenBalenaVpn.ClusterMetrics

variable {Uuid : Type}

section Bitrates

-- A bitrate that a worker has sent. The number is not in the message: it says which of
-- all the messages the sample came with.
structure Sample where
  number : Nat
  bitrate : ℚ
  deriving DecidableEq

structure WorkerMetric where
  rxBitrate : List Sample
  txBitrate : List Sample
  deriving DecidableEq

def WorkerMetric.push (workerMetric : WorkerMetric) (number : Nat) (rxBitrate txBitrate : ℚ) :
    WorkerMetric where
  rxBitrate := workerMetric.rxBitrate ++ [⟨number, rxBitrate⟩]
  txBitrate := workerMetric.txBitrate ++ [⟨number, txBitrate⟩]

def mean (samples : List Sample) : ℚ :=
  if samples.length > 0 then (samples.map (·.bitrate)).sum / samples.length else 0

-- The upper bounds of the buckets.
def bitrateBuckets : List ℚ :=
  let kb := 2 ^ 10
  let mb := 2 ^ 10 * kb
  [kb, 5 / 2 * kb, 5 * kb, 15 / 2 * kb, 10 * kb, 15 * kb, 20 * kb, 25 * kb, 50 * kb, 100 * kb,
    250 * kb, 500 * kb, mb, 2 * mb, 3 * mb, 4 * mb, 5 * mb, 6 * mb, 7 * mb, 8 * mb, 9 * mb, 10 * mb,
    15 * mb, 20 * mb, 25 * mb, 30 * mb, 35 * mb, 40 * mb, 45 * mb, 50 * mb, 100 * mb]

-- A histogram as the registry writes it, from what was observed since its last reset.
structure Histogram where
  buckets : List Nat
  sum : ℚ
  count : Nat
  deriving DecidableEq

def histogram (observations : List ℚ) : Histogram where
  buckets := bitrateBuckets.map fun bound => observations.countP (· ≤ bound)
  sum := observations.sum
  count := observations.length

end Bitrates

section Scrapes

inductive Status where
  | waiting
  | succeeded
  | failed
  deriving DecidableEq

-- A GET of /cluster_metrics: the samples whose means it observes, and the histograms of
-- the registry right after that, which `register.metrics()` reads at once.
structure Request (Uuid : Type) where
  observed : OrderedMap Uuid WorkerMetric
  sessionRxBitrate : Histogram
  sessionTxBitrate : Histogram
  status : Status

-- The primary: the samples that it keeps, what was observed since the last reset of the
-- two histograms, and the requests by a name.
structure State (Uuid : Type) where
  received : Nat
  workerMetrics : OrderedMap Uuid WorkerMetric
  sessionRxBitrate : List ℚ
  sessionTxBitrate : List ℚ
  requests : OrderedMap Nat (Request Uuid)

def State.initial : State Uuid := ⟨0, .empty, [], [], .empty⟩

-- A request succeeds when both sources of metrics are there, and fails when one of
-- them times out or throws.
inductive Event (Uuid : Type) where
  | bitrate (uuid : Uuid) (rxBitrate txBitrate : ℚ)
  | request (id : Nat)
  | succeed (id : Nat)
  | fail (id : Nat)
  deriving DecidableEq

-- The handler of 'bitrate' messages.
def State.bitrate [DecidableEq Uuid] (state : State Uuid) (uuid : Uuid)
    (rxBitrate txBitrate : ℚ) : State Uuid :=
  let workerMetric := (state.workerMetrics.get uuid).getD ⟨[], []⟩
  { state with
    received := state.received + 1
    workerMetrics := state.workerMetrics.set uuid
      (workerMetric.push state.received rxBitrate txBitrate) }

def State.request (state : State Uuid) (id : Nat) : Option (State Uuid) :=
  match state.requests.get id with
  | some _ => none
  | none =>
      let sessionRxBitrate := state.sessionRxBitrate ++
        state.workerMetrics.values.map fun clientMetrics => mean clientMetrics.rxBitrate
      let sessionTxBitrate := state.sessionTxBitrate ++
        state.workerMetrics.values.map fun clientMetrics => mean clientMetrics.txBitrate
      some { state with
        sessionRxBitrate
        sessionTxBitrate
        requests := state.requests.set id
          ⟨state.workerMetrics, histogram sessionRxBitrate, histogram sessionTxBitrate, .waiting⟩ }

-- The response is written, and only then the samples and the histograms are cleared.
def State.succeed (state : State Uuid) (id : Nat) : Option (State Uuid) :=
  match state.requests.get id with
  | some ⟨observed, rx, tx, .waiting⟩ =>
      some { state with
        workerMetrics := .empty
        sessionRxBitrate := []
        sessionTxBitrate := []
        requests := state.requests.set id ⟨observed, rx, tx, .succeeded⟩ }
  | _ => none

def State.fail (state : State Uuid) (id : Nat) : Option (State Uuid) :=
  match state.requests.get id with
  | some ⟨observed, rx, tx, .waiting⟩ =>
      some { state with requests := state.requests.set id ⟨observed, rx, tx, .failed⟩ }
  | _ => none

def step [DecidableEq Uuid] (state : State Uuid) : Event Uuid → Option (State Uuid)
  | .bitrate uuid rxBitrate txBitrate => some (state.bitrate uuid rxBitrate txBitrate)
  | .request id => state.request id
  | .succeed id => state.succeed id
  | .fail id => state.fail id

end Scrapes

section Fetches

-- A promise of `aggregatorRegistry.clusterMetrics()` gives a text or an error.
abbrev Outcome := Except String String

-- A call of `getClusterMetrics` that awaits a fetch.
structure Waiter where
  call : Nat
  fetch : Nat
  deriving DecidableEq

structure Resumed where
  call : Nat
  fetch : Nat
  outcome : Outcome

-- The fetches in the order in which they were started, an unfinished one without an
-- outcome, and the calls that await one, that are about to resume and that are through.
structure Fetches where
  inProgessClusterMetrics : Option Nat
  fetches : List (Option Outcome)
  calls : Nat
  waiting : List Waiter
  resuming : List Resumed
  results : List Resumed
  gaveUp : List Nat

def Fetches.initial : Fetches := ⟨none, [], 0, [], [], [], []⟩

inductive FetchEvent where
  | call
  | settle (fetch : Nat) (outcome : Outcome)
  | resume
  | giveUp (call : Nat)

-- `inProgessClusterMetrics ??= aggregatorRegistry.clusterMetrics()`
def Fetches.fetch (state : Fetches) : Fetches × Nat :=
  match state.inProgessClusterMetrics with
  | some fetch => (state, fetch)
  | none =>
      ({ state with
        inProgessClusterMetrics := some state.fetches.length
        fetches := state.fetches ++ [none] }, state.fetches.length)

-- The call awaits the promise. Where that is settled it resumes with its outcome.
def Fetches.await (state : Fetches) (fetch : Nat) : Fetches :=
  let call := state.calls
  match state.fetches[fetch]? with
  | some (some outcome) => { state with
      calls := call + 1, resuming := state.resuming ++ [⟨call, fetch, outcome⟩] }
  | _ => { state with calls := call + 1, waiting := state.waiting ++ [⟨call, fetch⟩] }

-- All functions that await a promise resume, in the order of their awaits, before a new
-- request is handled. Each clears the slot in its `finally` block. A caller that gives up
-- leaves its call of the function where it is.
def Fetches.step (state : Fetches) : FetchEvent → Option Fetches
  | .call =>
      if state.resuming = [] then
        let (state, fetch) := state.fetch
        some (state.await fetch)
      else none
  | .settle fetch outcome =>
      if state.fetches[fetch]? = some none then
        some { state with
          fetches := state.fetches.set fetch (some outcome)
          waiting := state.waiting.filter (·.fetch ≠ fetch)
          resuming := state.resuming ++ (state.waiting.filter (·.fetch = fetch)).map
            fun waiter => ⟨waiter.call, fetch, outcome⟩ }
      else none
  | .resume =>
      match state.resuming with
      | [] => none
      | first :: rest => some { state with
          inProgessClusterMetrics := none
          resuming := rest
          results := state.results ++ [first] }
  | .giveUp call =>
      if call < state.calls then some { state with gaveUp := state.gaveUp ++ [call] } else none

end Fetches

end OpenBalenaVpn.ClusterMetrics
