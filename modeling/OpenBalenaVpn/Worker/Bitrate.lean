import OpenBalenaVpn.Worker.Clients
import OpenBalenaVpn.Worker.Lemmas
import OpenBalenaVpn.Foundation.Meter
import Mathlib.Algebra.Group.Prod
import Mathlib.Tactic.FieldSimp
import Mathlib.Tactic.NormNum

namespace OpenBalenaVpn.Worker

open Transition

variable {Uuid : Type}

section Metered

-- What openvpn reports for a client: the bytes received and sent at a second.
def Event.reading (clientId : Nat) : Event Uuid → Option (Reading (ℚ × ℚ) Nat)
  | .bytecount other bytesReceived bytesSent now =>
      if other = clientId then some ⟨(bytesReceived, bytesSent), now⟩ else none
  | _ => none

-- The bytes that a message stands for, received and sent, in the seconds it covers.
def Message.bytes (seconds : ℚ) : Message Uuid → ℚ × ℚ
  | .bitrate _ rxBitrate txBitrate => (rxBitrate * seconds / 8, txBitrate * seconds / 8)
  | .drain _ _ => 0

-- The seconds since the last report of a client, or since it was established.
def State.sinceReport (worker : State Uuid) (clientId now : Nat) : ℚ :=
  match worker.clientCache.get clientId with
  | some clientEntry => (now : ℚ) - clientEntry.ts
  | none => 0

-- A worker with the bytes that the messages about one of its clients stand for.
structure Metered (Uuid : Type) where
  worker : State Uuid
  bytes : ℚ × ℚ

def Metered.step (config : Config) (clientId : Nat) (metered : Metered Uuid)
    (event : Event Uuid) : Option (Metered Uuid) :=
  (Worker.step config metered.worker event).map fun next =>
    match event.reading clientId with
    | none => ⟨next, metered.bytes⟩
    | some reading =>
        let messages := next.sent.drop metered.worker.sent.length
        let seconds := metered.worker.sinceReport clientId reading.time
        ⟨next, metered.bytes + (messages.map (Message.bytes seconds)).sum⟩

-- When the event makes the worker send a message about the client, the messages so far
-- stand for all bytes that openvpn has reported.
def Conserved (config : Config) (clientId : Nat) (metered : Metered Uuid) (event : Event Uuid) :
    Prop :=
  ∀ next reading, metered.step config clientId event = some next →
    event.reading clientId = some reading → next.worker.sent ≠ metered.worker.sent →
    next.bytes = reading.amount

-- From the moment that the client is established.
def ConservesTraffic (config : Config) (worker : State Uuid) (clientId : Nat) (uuid : Uuid)
    (now : Nat) (events : List (Event Uuid)) : Prop :=
  StepsMeet (Metered.step config clientId) (Conserved config clientId)
    ⟨worker.established clientId uuid now, 0⟩ events

end Metered

section Frame

variable {config : Config} {worker next : State Uuid}

-- Only its own events change the entry of a client.
theorem step_get {event : Event Uuid} {clientId : Nat}
    (hs : step config worker event = some next) (hreading : event.reading clientId = none)
    (hestablished : ∀ uuid now, event ≠ .established clientId uuid now) :
    next.clientCache.get clientId = worker.clientCache.get clientId := by
  cases (step_stepped hs).2 with
  | signal eventType => rw [(emit_undisturbed worker eventType).clientCache]
  | prepareShutdown => rw [(call_undisturbed _ worker).clientCache]
  | tooEarly | toggleVerbosity | ready | fatalError => rfl
  | established other uuid now =>
      refine OrderedMap.get_set_of_ne _ _ _ _ ?_
      rintro rfl
      exact hestablished uuid now rfl
  | bytecount other bytesReceived bytesSent now =>
      have hne : other ≠ clientId := by
        rintro rfl
        simp [Event.reading] at hreading
      cases hentry : worker.clientCache.get other with
      | none => rw [writeBandwidthMetrics_of_none hentry]
      | some clientEntry =>
          rw [writeBandwidthMetrics_of_get hentry]
          exact OrderedMap.get_set_of_ne _ _ _ _ hne
  | haproxy hnext => rw [(haproxy_undisturbed hnext).clientCache]
  | timeout hnext => rw [(timeout_undisturbed hnext).clientCache]

end Frame

section Tracks

variable {config : Config} {clientId : Nat} {metered next : Metered Uuid}
  {meter : Meter (ℚ × ℚ) Nat}

-- The entry of the client is the last reading of a meter, and the messages about it are
-- what the meter has passed on.
structure Tracks (clientId : Nat) (metered : Metered Uuid) (meter : Meter (ℚ × ℚ) Nat) :
    Prop where
  entry : ∃ clientEntry, metered.worker.clientCache.get clientId = some clientEntry ∧
    clientEntry.ts = meter.last.time ∧
    ((clientEntry.bytesReceived : ℚ), (clientEntry.bytesSent : ℚ)) = meter.last.amount
  bytes : metered.bytes = meter.passed

theorem tracks_established (worker : State Uuid) (clientId : Nat) (uuid : Uuid) (now : Nat) :
    Tracks clientId ⟨worker.established clientId uuid now, 0⟩ ⟨⟨0, now⟩, 0⟩ where
  entry := ⟨⟨uuid, now, 0, 0⟩, OrderedMap.get_set_self _ _ _, rfl, by simp⟩
  bytes := rfl

theorem Tracks.other {event : Event Uuid} (h : Tracks clientId metered meter)
    (hs : metered.step config clientId event = some next)
    (hreading : event.reading clientId = none)
    (hestablished : ∀ uuid now, event ≠ .established clientId uuid now) :
    Tracks clientId next meter := by
  obtain ⟨worker, hworker, hnext⟩ := Option.map_eq_some_iff.mp hs
  rw [hreading] at hnext
  subst hnext
  exact ⟨by rw [step_get hworker hreading hestablished]; exact h.entry, h.bytes⟩

-- The bitrate of a message times the seconds that it covers.
theorem bitrate_mul_seconds (bytes seconds : ℚ) (h : seconds ≠ 0) :
    bytes * 8 / seconds * seconds / 8 = bytes := by
  field_simp

section Report

variable {worker : State Uuid} {clientEntry : ClientEntry Uuid}
  (hget : worker.clientCache.get clientId = some clientEntry) (bytesReceived bytesSent : Int)
  {now : Nat}

include hget

theorem writeBandwidthMetrics_bytes (hlt : clientEntry.ts < now) :
    (worker.writeBandwidthMetrics clientId bytesReceived bytesSent now).sent ≠ worker.sent ∧
      (((worker.writeBandwidthMetrics clientId bytesReceived bytesSent now).sent.drop
        worker.sent.length).map (Message.bytes (worker.sinceReport clientId now))).sum =
        ((bytesReceived : ℚ), (bytesSent : ℚ)) -
          ((clientEntry.bytesReceived : ℚ), (clientEntry.bytesSent : ℚ)) := by
  have htime : (now : Int) - clientEntry.ts > 0 := by omega
  have hseconds : (now : ℚ) - clientEntry.ts ≠ 0 := by
    have hcast : (clientEntry.ts : ℚ) < now := by exact_mod_cast hlt
    exact (sub_pos.mpr hcast).ne'
  rw [writeBandwidthMetrics_of_get hget]
  simp only [htime, if_true]
  refine ⟨by simp, ?_⟩
  rw [List.drop_left, List.map_singleton, List.sum_singleton, State.sinceReport, hget]
  simp only [Message.bytes]
  push_cast
  rw [bitrate_mul_seconds _ _ hseconds, bitrate_mul_seconds _ _ hseconds]
  rfl

-- In the second of the last report the worker sends nothing.
theorem writeBandwidthMetrics_silent (hle : now ≤ clientEntry.ts) :
    (worker.writeBandwidthMetrics clientId bytesReceived bytesSent now).sent = worker.sent := by
  rw [writeBandwidthMetrics_of_get hget]
  exact if_neg (by omega)

end Report

theorem Tracks.report {event : Event Uuid} {reading : Reading (ℚ × ℚ) Nat}
    (h : Tracks clientId metered meter) (hs : metered.step config clientId event = some next)
    (hreading : event.reading clientId = some reading) :
    Tracks clientId next (meter.read reading) ∧
      (next.worker.sent ≠ metered.worker.sent ↔ meter.last.time < reading.time) := by
  obtain ⟨clientEntry, hget, htime, hamount⟩ := h.entry
  obtain ⟨worker, hworker, hnext⟩ := Option.map_eq_some_iff.mp hs
  rw [hreading] at hnext
  subst hnext
  cases event with
  | bytecount other bytesReceived bytesSent now =>
      rw [Event.reading] at hreading
      split at hreading
      · rename_i hid
        subst hid
        obtain rfl := Option.some.inj hreading
        have hexit := exitCode_of_step hworker
        simp only [Worker.step, hexit, Option.isSome_none, Bool.false_eq_true, if_false] at hworker
        obtain rfl := Option.some.inj hworker
        have hentry : ∃ clientEntry, (metered.worker.writeBandwidthMetrics other bytesReceived
            bytesSent now).clientCache.get other = some clientEntry ∧ clientEntry.ts = now ∧
            ((clientEntry.bytesReceived : ℚ), (clientEntry.bytesSent : ℚ)) =
              ((bytesReceived : ℚ), (bytesSent : ℚ)) := by
          rw [writeBandwidthMetrics_of_get hget]
          exact ⟨_, OrderedMap.get_set_self _ _ _, rfl, rfl⟩
        by_cases hlt : clientEntry.ts < now
        · obtain ⟨hsent, hbytes⟩ := writeBandwidthMetrics_bytes hget bytesReceived bytesSent hlt
          refine ⟨⟨hentry, ?_⟩, iff_of_true hsent (htime ▸ hlt)⟩
          rw [Meter.read_of_lt (htime ▸ hlt), ← h.bytes, ← hamount]
          exact congrArg (metered.bytes + ·) hbytes
        · have hsent := writeBandwidthMetrics_silent hget bytesReceived bytesSent
            (Nat.le_of_not_lt hlt)
          refine ⟨⟨hentry, ?_⟩, iff_of_false (not_not.mpr hsent) (htime ▸ hlt)⟩
          have hkept : (meter.read ⟨((bytesReceived : ℚ), (bytesSent : ℚ)), now⟩).passed =
              meter.passed := if_neg (htime ▸ hlt)
          rw [hkept, ← h.bytes]
          simp [hsent]
      · cases hreading
  | _ => cases hreading

theorem metered_step (clientId : Nat) {event : Event Uuid} {worker : State Uuid}
    (hs : step config metered.worker event = some worker) :
    ∃ next, metered.step config clientId event = some next ∧ next.worker = worker := by
  refine ⟨_, by rw [Metered.step, hs, Option.map_some], ?_⟩
  split <;> rfl

-- The worker reports to the primary as the meter does.
theorem Tracks.stepsMeet_iff {events : List (Event Uuid)} {last : State Uuid}
    (h : Tracks clientId metered meter)
    (hrun : run (step config) metered.worker events = some last)
    (honce : ∀ uuid now, Event.established clientId uuid now ∉ events) :
    StepsMeet (Metered.step config clientId) (Conserved config clientId) metered events ↔
      meter.PassesAll (events.filterMap (·.reading clientId)) := by
  induction events generalizing metered meter with
  | nil => exact iff_of_true trivial trivial
  | cons event events ih =>
      obtain ⟨worker, hworker, hrest⟩ := (run_cons_eq_some _ _ _ _ _).mp hrun
      obtain ⟨next, hnext, rfl⟩ := metered_step clientId hworker
      have honce' : ∀ uuid now, Event.established clientId uuid now ∉ events :=
        fun uuid now hmem => honce uuid now (List.mem_cons_of_mem _ hmem)
      have hfirst : ∀ uuid now, event ≠ .established clientId uuid now := by
        rintro uuid now rfl
        exact honce uuid now List.mem_cons_self
      have honly : ∀ {property : Metered Uuid → Prop},
          (∀ other, metered.step config clientId event = some other → property other) ↔
            property next := by
        refine fun {property} => ⟨fun hall => hall next hnext, fun hproperty other hother => ?_⟩
        exact Option.some.inj (hnext.symm.trans hother) ▸ hproperty
      rw [StepsMeet, honly]
      cases hreading : event.reading clientId with
      | none =>
          rw [List.filterMap_cons_none hreading,
            ← ih (h.other hnext hreading hfirst) hrest honce']
          refine and_iff_right fun _ reading _ hsome => ?_
          rw [hreading] at hsome
          cases hsome
      | some reading =>
          obtain ⟨htracks, hsends⟩ := h.report hnext hreading
          rw [List.filterMap_cons_some hreading, Meter.PassesAll, ← ih htracks hrest honce']
          refine and_congr_left' ?_
          rw [← htracks.bytes, ← hsends]
          constructor
          · exact fun hconserved hsent => hconserved next reading hnext hreading hsent
          · intro hpassed other read hother hread
            obtain rfl : next = other := Option.some.inj (hnext.symm.trans hother)
            obtain rfl : reading = read := Option.some.inj (hreading.symm.trans hread)
            exact hpassed

end Tracks

section Theorems

-- The messages about a client stand for all of its traffic if and only if no bytes are
-- reported within the second of the report before, unless no later second follows.
theorem conservesTraffic_iff (config : Config) (worker : State Uuid) (clientId : Nat)
    (uuid : Uuid) (now : Nat) {events : List (Event Uuid)} {last : State Uuid}
    (hrun : run (step config) (worker.established clientId uuid now) events = some last)
    (honce : ∀ other time, Event.established clientId other time ∉ events)
    (hsorted : (⟨0, now⟩ :: events.filterMap (·.reading clientId)).Pairwise Reading.Precedes) :
    ConservesTraffic config worker clientId uuid now events ↔
      Meter.NothingWithheld ⟨0, now⟩ (events.filterMap (·.reading clientId)) := by
  rw [ConservesTraffic, (tracks_established worker clientId uuid now).stepsMeet_iff hrun honce]
  exact Meter.passesAll_iff hsorted rfl

-- Reports two seconds apart.
theorem conservesTraffic_apart :
    ConservesTraffic ⟨1, 30000, 120⟩ (.initial false) 7 "c0ffee" 0
      [.bytecount 7 100 10 2, .bytecount 7 250 20 4] := by
  have hreadings : ([.bytecount 7 100 10 2, .bytecount 7 250 20 4] : List (Event String)).filterMap
      (·.reading 7) = [⟨(100, 10), 2⟩, ⟨(250, 20), 4⟩] := rfl
  refine (conservesTraffic_iff ⟨1, 30000, 120⟩ (.initial false) 7 "c0ffee" 0
    (Option.some_get (by decide)).symm (by simp) ?_).mpr ?_
  · rw [hreadings]
    norm_num [Reading.Precedes, Prod.le_def]
  · simp [hreadings, Meter.NothingWithheld]

-- A first report within the second in which the client is established. The message after
-- the second one leaves its 100 bytes out.
theorem not_conservesTraffic_withheld :
    ¬ConservesTraffic ⟨1, 30000, 120⟩ (.initial false) 7 "c0ffee" 0
      [.bytecount 7 100 10 0, .bytecount 7 250 20 2] := by
  rw [ConservesTraffic, (tracks_established _ 7 "c0ffee" 0).stepsMeet_iff
    (Option.some_get (by decide)).symm (by simp)]
  rintro ⟨_, hpassed, _⟩
  have hbytes := congrArg Prod.fst (hpassed (by decide))
  norm_num [Meter.read] at hbytes

end Theorems

end OpenBalenaVpn.Worker
