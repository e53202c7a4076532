import OpenBalenaVpn.ClusterMetrics
import OpenBalenaVpn.Foundation.Transition
import Mathlib.Data.List.Infix

namespace OpenBalenaVpn.ClusterMetrics

open Transition

variable {Uuid : Type}

section Samples

inductive Direction where
  | rx
  | tx

def WorkerMetric.samples (workerMetric : WorkerMetric) : Direction → List Sample
  | .rx => workerMetric.rxBitrate
  | .tx => workerMetric.txBitrate

-- The sample of the message with this number is among those of some device.
def holds (direction : Direction) (workerMetrics : OrderedMap Uuid WorkerMetric)
    (number : Nat) : Bool :=
  workerMetrics.values.any fun workerMetric =>
    (workerMetric.samples direction).any (·.number = number)

-- The number of requests that observe a mean with the sample in it.
def State.observers (state : State Uuid) (direction : Direction) (number : Nat) : Nat :=
  state.requests.values.countP fun request => holds direction request.observed number

def Event.isBitrate : Event Uuid → Bool
  | .bitrate _ _ _ => true
  | _ => false

def Event.starts : Event Uuid → Bool
  | .request _ => true
  | _ => false

def Event.clears : Event Uuid → Bool
  | .succeed _ => true
  | _ => false

-- Each sample after which a request starts is observed once.
def SampledOnce (events : List (Event Uuid)) (last : State Uuid) : Prop :=
  ∀ before event later, events = before ++ event :: later → event.isBitrate = true →
    (∃ other ∈ later, other.starts = true) →
    ∀ direction, last.observers direction (before.countP Event.isBitrate) = 1

-- Between a message and the next success after it one request starts, if any starts
-- after the message at all.
def HandsOver : List (Event Uuid) → Prop
  | [] => True
  | event :: later => event.isBitrate = true → (∃ other ∈ later, other.starts = true) →
      (later.takeWhile fun other => !other.clears).countP Event.starts = 1

instance decidableHandsOver : (events : List (Event Uuid)) → Decidable (HandsOver events)
  | [] => isTrue trivial
  | event :: later => inferInstanceAs (Decidable (event.isBitrate = true →
      (∃ other ∈ later, other.starts = true) →
        (later.takeWhile fun other => !other.clears).countP Event.starts = 1))

def HandedOver (events : List (Event Uuid)) : Prop := ∀ tail ∈ events.tails, HandsOver tail

instance (events : List (Event Uuid)) : Decidable (HandedOver events) :=
  inferInstanceAs (Decidable (∀ tail ∈ events.tails, HandsOver tail))

theorem samples_push (workerMetric : WorkerMetric) (number : Nat) (rxBitrate txBitrate : ℚ)
    (direction : Direction) :
    ∃ bitrate, (workerMetric.push number rxBitrate txBitrate).samples direction =
      workerMetric.samples direction ++ [⟨number, bitrate⟩] := by
  cases direction with
  | rx => exact ⟨rxBitrate, rfl⟩
  | tx => exact ⟨txBitrate, rfl⟩

theorem any_samples_push (workerMetric : WorkerMetric) (pushed : Nat) (rxBitrate txBitrate : ℚ)
    (direction : Direction) (number : Nat) :
    ((workerMetric.push pushed rxBitrate txBitrate).samples direction).any
        (·.number = number) =
      ((workerMetric.samples direction).any (·.number = number) || pushed = number) := by
  obtain ⟨bitrate, hsamples⟩ := samples_push workerMetric pushed rxBitrate txBitrate direction
  rw [hsamples]
  simp

theorem holds_push [DecidableEq Uuid] (direction : Direction)
    (workerMetrics : OrderedMap Uuid WorkerMetric) (uuid : Uuid) (pushed number : Nat)
    (rxBitrate txBitrate : ℚ) :
    holds direction (workerMetrics.set uuid
        (((workerMetrics.get uuid).getD ⟨[], []⟩).push pushed rxBitrate txBitrate)) number =
      (holds direction workerMetrics number || pushed = number) := by
  cases hget : workerMetrics.get uuid with
  | none =>
      have hnothing : ((⟨[], []⟩ : WorkerMetric).samples direction).any (·.number = number) =
          false := by
        cases direction <;> rfl
      rw [holds, OrderedMap.values_set_of_get_eq_none hget, List.any_append, List.any_cons,
        Option.getD_none, any_samples_push, hnothing, List.any_nil, Bool.or_false, Bool.false_or]
      rfl
  | some workerMetric =>
      obtain ⟨before, after, hentries, hset⟩ := setEntries_of_getEntry hget
      simp only [holds, OrderedMap.values, OrderedMap.set, hset]
      rw [hentries, Option.getD_some, List.map_append, List.map_append, List.map_cons,
        List.map_cons, List.any_append, List.any_append, List.any_cons, List.any_cons,
        any_samples_push, Bool.or_right_comm, ← Bool.or_assoc]

end Samples

section Step

variable {state next : State Uuid}

theorem succeed_eq_some_iff {id : Nat} : state.succeed id = some next ↔
    ∃ request, state.requests.get id = some request ∧ request.status = .waiting ∧
      next = { state with
        workerMetrics := .empty
        sessionRxBitrate := []
        sessionTxBitrate := []
        requests := state.requests.set id { request with status := .succeeded } } := by
  constructor
  · intro hs
    simp only [State.succeed] at hs
    split at hs
    · rename_i hget
      exact ⟨_, hget, rfl, (Option.some.inj hs).symm⟩
    · cases hs
  · rintro ⟨⟨observed, rx, tx, status⟩, hget, rfl, rfl⟩
    simp only [State.succeed, hget]

theorem fail_eq_some_iff {id : Nat} : state.fail id = some next ↔
    ∃ request, state.requests.get id = some request ∧ request.status = .waiting ∧
      next = { state with
        requests := state.requests.set id { request with status := .failed } } := by
  constructor
  · intro hs
    simp only [State.fail] at hs
    split at hs
    · rename_i hget
      exact ⟨_, hget, rfl, (Option.some.inj hs).symm⟩
    · cases hs
  · rintro ⟨⟨observed, rx, tx, status⟩, hget, rfl, rfl⟩
    simp only [State.fail, hget]

-- The status of a request has no part in what it observed.
theorem observers_set_status {id : Nat} {request : Request Uuid}
    (hget : state.requests.get id = some request) (status : Status) (direction : Direction)
    (number : Nat) :
    ((state.requests.set id { request with status }).values.countP fun request =>
      holds direction request.observed number) = state.observers direction number := by
  have hmap : (state.requests.set id { request with status }).values.map (·.observed) =
      state.requests.values.map (·.observed) := OrderedMap.map_values_set hget rfl
  have hcount : ∀ requests : List (Request Uuid),
      requests.countP (fun request => holds direction request.observed number) =
        (requests.map (·.observed)).countP fun observed => holds direction observed number :=
    fun requests => by rw [List.countP_map]; rfl
  rw [State.observers, hcount, hcount, hmap]

-- What an event does to a sample: a message brings it, a request observes it where it is
-- there, and a success clears it away.
theorem step_sample [DecidableEq Uuid] {event : Event Uuid} (hs : step state event = some next)
    (direction : Direction) (number : Nat) :
    next.received = state.received + event.isBitrate.toNat ∧
      holds direction next.workerMetrics number =
        (!event.clears && (holds direction state.workerMetrics number ||
          (event.isBitrate && state.received = number))) ∧
      next.observers direction number = state.observers direction number +
        (event.starts && holds direction state.workerMetrics number).toNat := by
  cases event with
  | bitrate uuid rxBitrate txBitrate =>
      obtain rfl := Option.some.inj hs
      refine ⟨rfl, ?_, rfl⟩
      simp only [State.bitrate, holds_push]
      rfl
  | request id =>
      simp only [step, State.request] at hs
      split at hs
      · cases hs
      · rename_i hget
        obtain rfl := Option.some.inj hs
        refine ⟨rfl, by simp [Event.clears, Event.isBitrate], ?_⟩
        rw [State.observers, OrderedMap.values_set_of_get_eq_none hget, List.countP_append,
          List.countP_singleton]
        cases hholds : holds direction state.workerMetrics number <;>
          simp [State.observers, Event.starts]
  | succeed id =>
      obtain ⟨request, hget, _, rfl⟩ := succeed_eq_some_iff.mp hs
      exact ⟨rfl, rfl, observers_set_status hget .succeeded direction number⟩
  | fail id =>
      obtain ⟨request, hget, _, rfl⟩ := fail_eq_some_iff.mp hs
      refine ⟨rfl, by simp [Event.clears, Event.isBitrate], ?_⟩
      exact observers_set_status hget .failed direction number

end Step

section Runs

variable [DecidableEq Uuid] {state last : State Uuid} {direction : Direction} {number : Nat}

-- A sample that was cleared away is not observed again.
theorem observers_of_cleared {events : List (Event Uuid)} (hreceived : number < state.received)
    (hgone : holds direction state.workerMetrics number = false)
    (hrun : run step state events = some last) :
    last.observers direction number = state.observers direction number := by
  induction events generalizing state with
  | nil => exact Option.some.inj hrun ▸ rfl
  | cons event events ih =>
      obtain ⟨next, hs, hrest⟩ := (run_cons_eq_some _ _ _ _ _).mp hrun
      obtain ⟨hcount, hholds, hobservers⟩ := step_sample hs direction number
      have hne : state.received ≠ number := hreceived.ne'
      rw [ih (by omega) (by simp [hholds, hgone, hne]) hrest, hobservers, hgone, Bool.and_false]
      rfl

-- A sample that is there is observed by the requests that start before the next success.
theorem observers_of_held {events : List (Event Uuid)} (hreceived : number < state.received)
    (hheld : holds direction state.workerMetrics number = true)
    (hrun : run step state events = some last) :
    last.observers direction number = state.observers direction number +
      (events.takeWhile fun event => !event.clears).countP Event.starts := by
  induction events generalizing state with
  | nil => exact Option.some.inj hrun ▸ rfl
  | cons event events ih =>
      obtain ⟨next, hs, hrest⟩ := (run_cons_eq_some _ _ _ _ _).mp hrun
      obtain ⟨hcount, hholds, hobservers⟩ := step_sample hs direction number
      rw [hheld, Bool.true_or, Bool.and_true] at hholds
      rw [hheld, Bool.and_true] at hobservers
      cases hclears : event.clears with
      | true =>
          have hstarts : event.starts = false := by
            cases event with
            | succeed => rfl
            | _ => cases hclears
          rw [hclears] at hholds
          rw [observers_of_cleared (by omega) hholds hrest, hobservers, hstarts]
          simp [hclears]
      | false =>
          rw [hclears] at hholds
          rw [ih (by omega) hholds hrest, hobservers, List.takeWhile_cons, hclears]
          cases hstarts : event.starts with
          | true =>
              simp only [Bool.not_false, if_true, List.countP_cons, hstarts, Bool.toNat_true]
              omega
          | false => simp [hstarts]

-- No sample is there, or was observed, before its message.
theorem sample_of_received {events : List (Event Uuid)}
    (hrun : run step .initial events = some last) :
    last.received = events.countP Event.isBitrate ∧
      ∀ direction number, last.received ≤ number →
        holds direction last.workerMetrics number = false ∧
          last.observers direction number = 0 := by
  refine run_history (motive := fun events state => state.received =
      events.countP Event.isBitrate ∧ ∀ direction number, state.received ≤ number →
        holds direction state.workerMetrics number = false ∧
          state.observers direction number = 0) ⟨rfl, fun _ _ _ => ⟨rfl, rfl⟩⟩ ?_ hrun
  intro events state event next _ ⟨hreceived, hfresh⟩ hs
  have hcount := (step_sample hs .rx 0).1
  refine ⟨?_, fun direction number hle => ?_⟩
  · rw [hcount, hreceived, List.countP_append, List.countP_singleton]
    cases event.isBitrate <;> rfl
  · obtain ⟨_, hholds, hobservers⟩ := step_sample hs direction number
    obtain ⟨hgone, hnone⟩ := hfresh direction number (by omega)
    rw [hholds, hobservers, hgone, hnone]
    cases hbitrate : event.isBitrate with
    | true =>
        rw [hbitrate] at hcount
        have hne : state.received ≠ number := by
          simp only [Bool.toNat_true] at hcount
          omega
        simp [hne]
    | false => simp

end Runs

section Theorems

variable [DecidableEq Uuid]

-- Scrapes hand each sample over once if and only if each message is followed by one start
-- before the next success.
theorem sampledOnce_iff {events : List (Event Uuid)} {last : State Uuid}
    (hrun : run step .initial events = some last) :
    SampledOnce events last ↔ HandedOver events := by
  have hobservers : ∀ before event later, events = before ++ event :: later →
      event.isBitrate = true → ∀ direction,
      last.observers direction (before.countP Event.isBitrate) =
        (later.takeWhile fun other => !other.clears).countP Event.starts := by
    rintro before event later rfl hbitrate direction
    obtain ⟨state, hstate, hrest⟩ := (run_append_eq_some _ _ _ _ _).mp hrun
    obtain ⟨next, hs, hlater⟩ := (run_cons_eq_some _ _ _ _ _).mp hrest
    obtain ⟨hreceived, hfresh⟩ := sample_of_received hstate
    obtain ⟨_, hnone⟩ := hfresh direction state.received (Nat.le_refl _)
    obtain ⟨hcount, hholds, hnext⟩ := step_sample hs direction state.received
    have hkind : event.clears = false ∧ event.starts = false := by
      cases event with
      | bitrate => exact ⟨rfl, rfl⟩
      | _ => cases hbitrate
    rw [hbitrate, hkind.1] at hholds
    rw [hbitrate] at hcount
    rw [hkind.2, hnone] at hnext
    have hheld : holds direction next.workerMetrics state.received = true := by
      rw [hholds]
      simp
    rw [← hreceived, observers_of_held (by rw [hcount]; exact Nat.lt_succ_self _) hheld hlater,
      hnext]
    simp
  constructor
  · intro h tail htail
    obtain ⟨before, rfl⟩ := (List.mem_tails _ _).mp htail
    cases tail with
    | nil => trivial
    | cons event later =>
        intro hbitrate hstart
        rw [← hobservers before event later rfl hbitrate .rx]
        exact h before event later rfl hbitrate hstart .rx
  · rintro h before event later rfl hbitrate hstart direction
    rw [hobservers before event later rfl hbitrate direction]
    exact h (event :: later) ((List.mem_tails _ _).mpr ⟨before, rfl⟩) hbitrate hstart

-- One scrape after another.
theorem sampledOnce_apart :
    ∃ last : State String, SampledOnce [.bitrate "c0ffee" 8 16, .request 0, .succeed 0,
      .bitrate "c0ffee" 24 32, .request 1, .succeed 1] last :=
  ⟨_, (sampledOnce_iff (Option.some_get (by decide)).symm).mpr (by decide)⟩

-- A message that comes while a request waits is cleared away unobserved, and what two
-- requests find that overlap is observed twice.
theorem not_sampledOnce_overlap :
    (∃ last : State String, run step .initial [.request 0, .bitrate "c0ffee" 8 16, .succeed 0,
        .request 1, .succeed 1] = some last ∧
      last.observers .rx 0 = 0 ∧
      ¬SampledOnce [.request 0, .bitrate "c0ffee" 8 16, .succeed 0, .request 1, .succeed 1] last) ∧
    ∃ last : State String, run step .initial [.bitrate "c0ffee" 8 16, .request 0, .request 1,
        .succeed 0, .succeed 1] = some last ∧
      last.observers .rx 0 = 2 ∧
      ¬SampledOnce [.bitrate "c0ffee" 8 16, .request 0, .request 1, .succeed 0, .succeed 1]
        last := by
  refine ⟨⟨_, (Option.some_get (by decide)).symm, by decide, fun h => ?_⟩,
    _, (Option.some_get (by decide)).symm, by decide, fun h => ?_⟩
  · have hobserved := h [.request 0] _ [.succeed 0, .request 1, .succeed 1] rfl rfl
      ⟨.request 1, by simp, rfl⟩ .rx
    exact absurd hobserved (by decide)
  · have hobserved := h [] _ [.request 0, .request 1, .succeed 0, .succeed 1] rfl rfl
      ⟨.request 0, by simp, rfl⟩ .rx
    exact absurd hobserved (by decide)

end Theorems

end OpenBalenaVpn.ClusterMetrics
