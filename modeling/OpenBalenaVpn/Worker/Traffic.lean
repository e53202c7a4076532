import OpenBalenaVpn.Worker.Clients
import Mathlib.Algebra.Order.BigOperators.Group.List
import Mathlib.Data.List.TakeWhile
import Mathlib.Order.Basic

namespace OpenBalenaVpn.Worker

open Transition

variable {Uuid : Type}

section Reports

def ManagementEvent.establishedId : ManagementEvent Uuid → Option Nat
  | .established clientId _ _ => some clientId
  | _ => none

-- The byte counts, received and sent, that an event reports for a client.
def ManagementEvent.countsOf (clientId : Nat) : ManagementEvent Uuid → Option (Int × Int)
  | .bytecount other bytesReceived bytesSent _ =>
      if other = clientId then some (bytesReceived, bytesSent) else none
  | _ => none

def establishedClients (events : List (ManagementEvent Uuid)) : List Nat :=
  events.filterMap ManagementEvent.establishedId

-- The counts that were last reported for a client since it was established, or zero.
def reportedSince (clientId : Nat) (events : List (ManagementEvent Uuid)) : Int × Int :=
  (((events.dropWhile fun event => event.establishedId ≠ some clientId).filterMap
    (·.countsOf clientId)).getLast?).getD (0, 0)

def receivedTotal (events : List (ManagementEvent Uuid)) : Int :=
  ((establishedClients events).map fun clientId => (reportedSince clientId events).1).sum

def sentTotal (events : List (ManagementEvent Uuid)) : Int :=
  ((establishedClients events).map fun clientId => (reportedSince clientId events).2).sum

-- The counts of each client start at zero or above and do not fall.
def NonDecreasing (events : List (ManagementEvent Uuid)) : Prop :=
  ∀ clientId, ((0, 0) :: events.filterMap (·.countsOf clientId)).Pairwise (· ≤ ·)

-- What an event adds to the two counters.
def State.increments (worker : State Uuid) : ManagementEvent Uuid → Option (Double × Double)
  | .bytecount clientId bytesReceived bytesSent _ =>
      (worker.clientCache.get clientId).map fun clientEntry =>
        (clientEntry.rxDelta bytesReceived, clientEntry.txDelta bytesSent)
  | .established _ _ _ => none
  | .disconnect _ => none

-- The event adds to the counters, which then have the traffic of all established clients.
def Tallied (config : Config) (verbose : Bool) (events : List (ManagementEvent Uuid))
    (event : ManagementEvent Uuid) : Prop :=
  ∃ worker next, afterEvents config verbose events = some worker ∧
    worker.receive config event = some next ∧
    (∀ increments, worker.increments event = some increments →
      increments.1.Nonneg ∧ increments.2.Nonneg) ∧
    next.rxBytes.value = some (receivedTotal (events ++ [event])) ∧
    next.txBytes.value = some (sentTotal (events ++ [event]))

-- The same as long as the totals are no larger than what doubles are exact for. A count that
-- is too large to print as digits is misread.
def TalliedExactly (config : Config) (verbose : Bool) (events : List (ManagementEvent Uuid))
    (event : ManagementEvent Uuid) : Prop :=
  ∃ worker next, afterEvents config verbose events = some worker ∧
    worker.receive config event = some next ∧
    (∀ clientId counts increments, event.countsOf clientId = some counts →
      worker.increments event = some increments →
      (counts.1 < Number.plainBound → increments.1.Nonneg) ∧
        (counts.2 < Number.plainBound → increments.2.Nonneg)) ∧
    (receivedTotal (events ++ [event]) ≤ Double.exactBound →
      next.rxBytes.value = some (receivedTotal (events ++ [event]))) ∧
    (sentTotal (events ++ [event]) ≤ Double.exactBound →
      next.txBytes.value = some (sentTotal (events ++ [event])))

end Reports

section Since

variable {clientId : Nat} {events : List (ManagementEvent Uuid)} {event : ManagementEvent Uuid}

theorem establishedClients_concat (events : List (ManagementEvent Uuid))
    (event : ManagementEvent Uuid) : establishedClients (events ++ [event]) =
      establishedClients events ++ event.establishedId.toList := by
  cases h : event.establishedId <;> simp [establishedClients, h]

theorem dropWhile_established_eq_nil (h : clientId ∉ establishedClients events) :
    events.dropWhile (fun event => event.establishedId ≠ some clientId) = [] := by
  rw [List.dropWhile_eq_nil_iff]
  intro event hevent
  have hne : event.establishedId ≠ some clientId := fun heq =>
    h (List.mem_filterMap.mpr ⟨event, hevent, heq⟩)
  simpa using hne

theorem reportedSince_of_established (h : clientId ∉ establishedClients events) (uuid : Uuid)
    (now : Nat) : reportedSince clientId (events ++ [.established clientId uuid now]) = (0, 0) := by
  rw [reportedSince, List.dropWhile_append, dropWhile_established_eq_nil h]
  simp [ManagementEvent.establishedId, ManagementEvent.countsOf]

-- A client that is established goes by its last report.
theorem reportedSince_concat (h : clientId ∈ establishedClients events)
    (event : ManagementEvent Uuid) : reportedSince clientId (events ++ [event]) =
      (event.countsOf clientId).getD (reportedSince clientId events) := by
  obtain ⟨first, hfirst, hid⟩ := List.mem_filterMap.mp h
  have hne : events.dropWhile (fun event => event.establishedId ≠ some clientId) ≠ [] := by
    intro hnil
    have hall := List.dropWhile_eq_nil_iff.mp hnil first hfirst
    simp [hid] at hall
  rw [reportedSince, List.dropWhile_append, List.isEmpty_eq_false_iff.mpr hne]
  cases hcounts : event.countsOf clientId with
  | none => simp [reportedSince, hcounts]
  | some counts => simp [hcounts]

theorem reportedSince_mem (clientId : Nat) (events : List (ManagementEvent Uuid)) :
    reportedSince clientId events ∈ (0, 0) :: events.filterMap (·.countsOf clientId) := by
  rw [reportedSince]
  cases hlast : ((events.dropWhile fun event => event.establishedId ≠ some clientId).filterMap
      (·.countsOf clientId)).getLast? with
  | none => exact List.mem_cons_self
  | some counts =>
      have hmem := List.mem_of_getLast? hlast
      exact List.mem_cons_of_mem _ (((List.dropWhile_sublist _).filterMap _).mem hmem)

theorem NonDecreasing.reportedSince_le (h : NonDecreasing (events ++ [event]))
    {counts : Int × Int} (hcounts : event.countsOf clientId = some counts) :
    reportedSince clientId events ≤ counts := by
  have hpairwise := h clientId
  rw [List.filterMap_append, ← List.cons_append, List.pairwise_append] at hpairwise
  exact hpairwise.2.2 _ (reportedSince_mem clientId events) counts (by simp [hcounts])

theorem NonDecreasing.nonneg (h : NonDecreasing events) (clientId : Nat) :
    (0, 0) ≤ reportedSince clientId events := by
  rcases List.mem_cons.mp (reportedSince_mem clientId events) with hzero | hmem
  · rw [hzero]
  · exact List.rel_of_pairwise_cons (h clientId) hmem

theorem NonDecreasing.before {later : List (ManagementEvent Uuid)}
    (h : NonDecreasing (events ++ later)) : NonDecreasing events := fun clientId => by
  have hpairwise := h clientId
  rw [List.filterMap_append, ← List.cons_append] at hpairwise
  exact (List.pairwise_append.mp hpairwise).1

end Since

section Counters

variable {config : Config} {verbose : Bool}

-- The cache holds the last reports.
structure Cached (events : List (ManagementEvent Uuid)) (worker : State Uuid) : Prop where
  running : worker.exitCode = none
  keys : worker.clientCache.keys = establishedClients events
  reported : ∀ clientId entry, worker.clientCache.get clientId = some entry →
    (entry.bytesReceived, entry.bytesSent) = reportedSince clientId events

-- The counters have what the cache holds, as long as that is exact.
structure Counts (events : List (ManagementEvent Uuid)) (worker : State Uuid) : Prop
    extends Cached events worker where
  rxBytes : (worker.clientCache.values.map (·.bytesReceived)).sum ≤ Double.exactBound →
    worker.rxBytes.value = some (worker.clientCache.values.map (·.bytesReceived)).sum
  txBytes : (worker.clientCache.values.map (·.bytesSent)).sum ≤ Double.exactBound →
    worker.txBytes.value = some (worker.clientCache.values.map (·.bytesSent)).sum

theorem cached_initial (verbose : Bool) : Cached [] (State.initial verbose : State Uuid) where
  running := rfl
  keys := rfl
  reported := nofun

theorem counts_initial (verbose : Bool) : Counts [] (State.initial verbose : State Uuid) where
  toCached := cached_initial verbose
  rxBytes _ := rfl
  txBytes _ := rfl

section Increments

variable {old new : Int}

theorem byteCount_of_plain (hnew : 0 ≤ new) (hplain : new < Number.plainBound) :
    byteCount new = Double.ofInt new := Double.reparse_ofInt hnew hplain

theorem nonneg_sub_byteCount (hold : 0 ≤ old) (hle : old ≤ new)
    (hplain : new < Number.plainBound) : ((byteCount new).sub (byteCount old)).Nonneg := by
  rw [byteCount_of_plain (Int.le_trans hold hle) hplain,
    byteCount_of_plain hold (Int.lt_of_le_of_lt hle hplain)]
  refine Double.nonneg_sub_ofInt hold hle fun hinfinity => ?_
  have hprints : Number.Plain (Number.ofNat new.natAbs) :=
    (Number.plain_ofNat_iff _).mpr (by omega)
  rw [hinfinity] at hprints
  cases hprints

-- An exact counter stays exact with an increment up to the bound.
theorem value_add_sub_byteCount {counter : Double} {sum : Int} (hcounter : counter.value = some sum)
    (hold : 0 ≤ old) (hle : old ≤ new) (hsum : old ≤ sum)
    (hbound : sum + (new - old) ≤ Double.exactBound) :
    (counter.add ((byteCount new).sub (byteCount old))).value = some (sum + (new - old)) := by
  have hplain : Double.exactBound < Number.plainBound := by decide
  have hzero : 0 ≤ Double.exactBound := by decide
  rw [byteCount_of_plain (by omega) (by omega), byteCount_of_plain hold (by omega)]
  refine Double.value_add hcounter (Double.value_sub ?_ ?_ ?_ ?_) (by omega) hbound
  · exact Double.value_ofInt (by omega) (by omega)
  · exact Double.value_ofInt (by omega) (by omega)
  · omega
  · omega

end Increments

section Step

variable {events : List (ManagementEvent Uuid)} {worker : State Uuid}

theorem Cached.mem (h : Cached events worker) {clientId : Nat} {entry : ClientEntry Uuid}
    (hget : worker.clientCache.get clientId = some entry) :
    clientId ∈ establishedClients events := by
  rw [← h.keys, OrderedMap.mem_keys_iff, hget]
  rfl

-- An event that does not count for the cached clients leaves their last reports.
theorem Cached.reported_concat (h : Cached events worker) {event : ManagementEvent Uuid}
    {clientId : Nat} {entry : ClientEntry Uuid}
    (hget : worker.clientCache.get clientId = some entry)
    (hcounts : event.countsOf clientId = none) :
    (entry.bytesReceived, entry.bytesSent) = reportedSince clientId (events ++ [event]) := by
  rw [reportedSince_concat (h.mem hget), hcounts, Option.getD_none]
  exact h.reported clientId entry hget

theorem Cached.get_of_fresh (h : Cached events worker) {clientId : Nat}
    (hfresh : clientId ∉ establishedClients events) : worker.clientCache.get clientId = none :=
  (OrderedMap.get_eq_none_iff _ _).mpr (h.keys ▸ hfresh)

theorem Cached.established (h : Cached events worker) {clientId : Nat} (uuid : Uuid) (now : Nat)
    (hfresh : clientId ∉ establishedClients events) :
    Cached (events ++ [.established clientId uuid now]) (worker.established clientId uuid now) := by
  refine ⟨h.running, ?_, fun other entry hget => ?_⟩
  · rw [State.established, OrderedMap.keys_set, h.keys, if_neg hfresh, establishedClients_concat]
    rfl
  · rw [State.established, OrderedMap.get_set] at hget
    by_cases hid : clientId = other
    · subst hid
      rw [if_pos rfl] at hget
      obtain rfl := Option.some.inj hget
      exact (reportedSince_of_established hfresh uuid now).symm
    · rw [if_neg hid] at hget
      exact h.reported_concat hget rfl

theorem Cached.bytecount (h : Cached events worker) (clientId : Nat)
    (bytesReceived bytesSent : Int) (now : Nat) :
    Cached (events ++ [.bytecount clientId bytesReceived bytesSent now])
      (worker.writeBandwidthMetrics clientId bytesReceived bytesSent now) := by
  have hclients : establishedClients (events ++
      [.bytecount clientId bytesReceived bytesSent now]) = establishedClients events := by
    rw [establishedClients_concat]
    exact List.append_nil _
  have hother : ∀ other entry, clientId ≠ other → worker.clientCache.get other = some entry →
      (entry.bytesReceived, entry.bytesSent) = reportedSince other
        (events ++ [.bytecount clientId bytesReceived bytesSent now]) := fun other entry hne hget =>
    h.reported_concat hget (if_neg hne)
  obtain ⟨hsame, hexit⟩ := writeBandwidthMetrics_keys worker clientId bytesReceived bytesSent now
  have hkeys := hsame.trans (h.keys.trans hclients.symm)
  cases hentry : worker.clientCache.get clientId with
  | none =>
      rw [writeBandwidthMetrics_of_none hentry]
      refine ⟨h.running, h.keys.trans hclients.symm, fun other entry hget => ?_⟩
      refine hother other entry ?_ hget
      rintro rfl
      rw [hentry] at hget
      cases hget
  | some clientEntry =>
      rw [writeBandwidthMetrics_of_get hentry] at hkeys ⊢
      refine ⟨h.running, hkeys, fun other entry hget => ?_⟩
      by_cases hid : clientId = other
      · subst hid
        rw [OrderedMap.get_set_self] at hget
        obtain rfl := Option.some.inj hget
        rw [reportedSince_concat (h.mem hentry), ManagementEvent.countsOf, if_pos rfl]
        rfl
      · rw [OrderedMap.get_set_of_ne _ _ _ _ hid] at hget
        exact hother other entry hid hget

theorem Cached.disconnect (h : Cached events worker) (clientId : Nat) :
    Cached (events ++ [.disconnect clientId]) worker := by
  refine ⟨h.running, ?_, fun other entry hget => h.reported_concat hget rfl⟩
  rw [h.keys, establishedClients_concat]
  exact (List.append_nil _).symm

-- What the worker does with an event.
inductive Received (worker : State Uuid) : ManagementEvent Uuid → State Uuid → Prop
  | established (clientId : Nat) (uuid : Uuid) (now : Nat) :
      Received worker (.established clientId uuid now) (worker.established clientId uuid now)
  | bytecount (clientId : Nat) (bytesReceived bytesSent : Int) (now : Nat) :
      Received worker (.bytecount clientId bytesReceived bytesSent now)
        (worker.writeBandwidthMetrics clientId bytesReceived bytesSent now)
  | disconnect (clientId : Nat) : Received worker (.disconnect clientId) worker

theorem exists_received (config : Config) (hrunning : worker.exitCode = none)
    (event : ManagementEvent Uuid) :
    ∃ next, worker.receive config event = some next ∧ Received worker event next := by
  have hexit : worker.exitCode.isSome = false := by
    rw [hrunning]
    rfl
  cases event with
  | established clientId uuid now =>
      refine ⟨_, ?_, .established clientId uuid now⟩
      simp [State.receive, ManagementEvent.handled, step, hexit]
  | bytecount clientId bytesReceived bytesSent now =>
      refine ⟨_, ?_, .bytecount clientId bytesReceived bytesSent now⟩
      simp [State.receive, ManagementEvent.handled, step, hexit]
  | disconnect clientId => exact ⟨worker, rfl, .disconnect clientId⟩

theorem fresh_of_nodup {clientId : Nat} {uuid : Uuid} {now : Nat}
    (honce : (establishedClients (events ++ [.established clientId uuid now])).Nodup) :
    clientId ∉ establishedClients events := by
  rw [establishedClients_concat, List.nodup_append] at honce
  exact fun hmem => honce.2.2 clientId hmem clientId (List.mem_singleton_self _) rfl

theorem Cached.receive (h : Cached events worker) {event : ManagementEvent Uuid}
    {next : State Uuid} (honce : (establishedClients (events ++ [event])).Nodup)
    (hs : Received worker event next) : Cached (events ++ [event]) next := by
  cases hs with
  | established clientId uuid now => exact h.established uuid now (fresh_of_nodup honce)
  | bytecount clientId bytesReceived bytesSent now =>
      exact h.bytecount clientId bytesReceived bytesSent now
  | disconnect clientId => exact h.disconnect clientId

-- The counts of the cached clients are not negative.
theorem Cached.nonneg (h : Cached events worker) (hmono : NonDecreasing events)
    {entry : ClientEntry Uuid} (hentry : entry ∈ worker.clientCache.values) :
    0 ≤ entry.bytesReceived ∧ 0 ≤ entry.bytesSent := by
  obtain ⟨clientId, hget⟩ := OrderedMap.exists_get_of_mem hentry
  have hle := hmono.nonneg clientId
  rw [← h.reported clientId entry hget] at hle
  exact Prod.mk_le_mk.mp hle

-- A report is at least what the entry has.
theorem Cached.le_report (h : Cached events worker) {clientId : Nat} {bytesReceived bytesSent : Int}
    {now : Nat} (hmono : NonDecreasing (events ++ [.bytecount clientId bytesReceived bytesSent now]))
    {entry : ClientEntry Uuid} (hget : worker.clientCache.get clientId = some entry) :
    entry.bytesReceived ≤ bytesReceived ∧ entry.bytesSent ≤ bytesSent := by
  have hle : reportedSince clientId events ≤ (bytesReceived, bytesSent) :=
    hmono.reportedSince_le (if_pos rfl)
  rw [← h.reported clientId entry hget] at hle
  exact Prod.mk_le_mk.mp hle

-- A counter that has what the cache holds follows the entry of a client.
theorem value_counter_set {clientCache : OrderedMap Nat (ClientEntry Uuid)} {clientId : Nat}
    {entry new : ClientEntry Uuid} (hget : clientCache.get clientId = some entry)
    (count : ClientEntry Uuid → Int) {counter : Double}
    (hcounter : (clientCache.values.map count).sum ≤ Double.exactBound →
      counter.value = some (clientCache.values.map count).sum)
    (hnonneg : ∀ other ∈ clientCache.values, 0 ≤ count other) (hle : count entry ≤ count new)
    (hbound : ((clientCache.set clientId new).values.map count).sum ≤ Double.exactBound) :
    (counter.add ((byteCount (count new)).sub (byteCount (count entry)))).value =
      some ((clientCache.set clientId new).values.map count).sum := by
  have hmem : entry ∈ clientCache.values := OrderedMap.mem_values_of_get hget
  have hsum : count entry ≤ (clientCache.values.map count).sum := by
    refine List.single_le_sum (fun value hvalue => ?_) _ (List.mem_map_of_mem hmem)
    obtain ⟨other, hother, rfl⟩ := List.mem_map.mp hvalue
    exact hnonneg other hother
  rw [OrderedMap.sum_values_set hget] at hbound ⊢
  exact value_add_sub_byteCount (hcounter (by omega)) (hnonneg entry hmem) hle hsum hbound

theorem Counts.bytecount (h : Counts events worker) {clientId : Nat}
    {bytesReceived bytesSent : Int} {now : Nat}
    (hmono : NonDecreasing (events ++ [.bytecount clientId bytesReceived bytesSent now])) :
    Counts (events ++ [.bytecount clientId bytesReceived bytesSent now])
      (worker.writeBandwidthMetrics clientId bytesReceived bytesSent now) := by
  have hcached := h.toCached.bytecount clientId bytesReceived bytesSent now
  cases hentry : worker.clientCache.get clientId with
  | none =>
      rw [writeBandwidthMetrics_of_none hentry] at hcached ⊢
      exact ⟨hcached, h.rxBytes, h.txBytes⟩
  | some clientEntry =>
      have hnonneg : ∀ other ∈ worker.clientCache.values,
          0 ≤ other.bytesReceived ∧ 0 ≤ other.bytesSent :=
        fun other => h.toCached.nonneg hmono.before
      obtain ⟨hreceived, hsent⟩ := h.toCached.le_report hmono hentry
      rw [writeBandwidthMetrics_of_get hentry] at hcached ⊢
      have hset := fun count => @value_counter_set _ worker.clientCache clientId clientEntry
        ⟨clientEntry.uuid, now, bytesReceived, bytesSent⟩ hentry count
      refine ⟨hcached, ?_, ?_⟩
      · simp only [ClientEntry.rxDelta]
        exact hset (·.bytesReceived) h.rxBytes (fun other ho => (hnonneg other ho).1) hreceived
      · simp only [ClientEntry.txDelta]
        exact hset (·.bytesSent) h.txBytes (fun other ho => (hnonneg other ho).2) hsent

theorem Counts.receive (h : Counts events worker) {event : ManagementEvent Uuid}
    {next : State Uuid} (honce : (establishedClients (events ++ [event])).Nodup)
    (hmono : NonDecreasing (events ++ [event])) (hs : Received worker event next) :
    Counts (events ++ [event]) next := by
  have hcached := h.toCached.receive honce hs
  cases hs with
  | established clientId uuid now =>
      have hvalues := OrderedMap.values_set_of_get_eq_none
        (h.toCached.get_of_fresh (fresh_of_nodup honce)) (⟨uuid, now, 0, 0⟩ : ClientEntry Uuid)
      refine ⟨hcached, ?_, ?_⟩
      · simpa [State.established, hvalues] using h.rxBytes
      · simpa [State.established, hvalues] using h.txBytes
  | bytecount clientId bytesReceived bytesSent now => exact h.bytecount hmono
  | disconnect clientId => exact ⟨hcached, h.rxBytes, h.txBytes⟩

theorem Cached.increments_nonneg (h : Cached events worker) {event : ManagementEvent Uuid}
    (hmono : NonDecreasing (events ++ [event])) {clientId : Nat} {counts : Int × Int}
    (hcounts : event.countsOf clientId = some counts) {increments : Double × Double}
    (hincrements : worker.increments event = some increments) :
    (counts.1 < Number.plainBound → increments.1.Nonneg) ∧
      (counts.2 < Number.plainBound → increments.2.Nonneg) := by
  cases event with
  | established | disconnect => cases hincrements
  | bytecount other bytesReceived bytesSent now =>
      rw [ManagementEvent.countsOf] at hcounts
      split at hcounts
      · obtain rfl := Option.some.inj hcounts
        obtain ⟨entry, hget, rfl⟩ := Option.map_eq_some_iff.mp hincrements
        obtain ⟨hreceived, hsent⟩ := h.le_report hmono hget
        obtain ⟨hrx, htx⟩ := h.nonneg hmono.before (OrderedMap.mem_values_of_get hget)
        exact ⟨nonneg_sub_byteCount hrx hreceived, nonneg_sub_byteCount htx hsent⟩
      · cases hcounts

end Step

theorem Cached.totals {events : List (ManagementEvent Uuid)} {worker : State Uuid}
    (h : Cached events worker) :
    (worker.clientCache.values.map (·.bytesReceived)).sum = receivedTotal events ∧
      (worker.clientCache.values.map (·.bytesSent)).sum = sentTotal events := by
  have hvalues : ∀ (entryOf : ClientEntry Uuid → Int) (countOf : Int × Int → Int),
      (∀ clientId entry, worker.clientCache.get clientId = some entry →
        entryOf entry = countOf (reportedSince clientId events)) →
      worker.clientCache.values.map entryOf = (establishedClients events).map
        fun clientId => countOf (reportedSince clientId events) := by
    intro entryOf countOf heq
    have hsome : worker.clientCache.values.map entryOf =
        (worker.clientCache.values.map some).map (Option.elim · 0 entryOf) := by
      rw [List.map_map]
      rfl
    rw [hsome, ← OrderedMap.map_get_keys, List.map_map, ← h.keys]
    refine List.map_congr_left fun clientId hmem => ?_
    obtain ⟨entry, hget⟩ := Option.isSome_iff_exists.mp ((OrderedMap.mem_keys_iff _ _).mp hmem)
    rw [Function.comp_apply, hget]
    exact heq clientId entry hget
  rw [hvalues (·.bytesReceived) Prod.fst fun _ _ hget => congrArg Prod.fst (h.reported _ _ hget),
    hvalues (·.bytesSent) Prod.snd fun _ _ hget => congrArg Prod.snd (h.reported _ _ hget)]
  exact ⟨rfl, rfl⟩

theorem Counts.totals {events : List (ManagementEvent Uuid)} {worker : State Uuid}
    (h : Counts events worker) :
    (receivedTotal events ≤ Double.exactBound →
      worker.rxBytes.value = some (receivedTotal events)) ∧
    (sentTotal events ≤ Double.exactBound → worker.txBytes.value = some (sentTotal events)) := by
  obtain ⟨hreceived, hsent⟩ := h.toCached.totals
  exact ⟨hreceived ▸ h.rxBytes, hsent ▸ h.txBytes⟩

theorem nodup_before {events later : List (ManagementEvent Uuid)}
    (honce : (establishedClients (events ++ later)).Nodup) : (establishedClients events).Nodup := by
  rw [establishedClients, List.filterMap_append] at honce
  exact honce.of_append_left

theorem cached_run (config : Config) (verbose : Bool) {events : List (ManagementEvent Uuid)}
    (honce : (establishedClients events).Nodup) :
    ∃ worker, afterEvents config verbose events = some worker ∧ Cached events worker := by
  induction events using List.reverseRecOn with
  | nil => exact ⟨_, rfl, cached_initial verbose⟩
  | append_singleton events event ih =>
      obtain ⟨worker, hworker, hcached⟩ := ih (nodup_before honce)
      obtain ⟨next, hnext, hreceived⟩ := exists_received config hcached.running event
      exact ⟨next, (afterEvents_concat hworker event).trans hnext, hcached.receive honce hreceived⟩

theorem counts_run (config : Config) (verbose : Bool) {events : List (ManagementEvent Uuid)}
    (honce : (establishedClients events).Nodup) (hmono : NonDecreasing events) :
    ∃ worker, afterEvents config verbose events = some worker ∧ Counts events worker := by
  induction events using List.reverseRecOn with
  | nil => exact ⟨_, rfl, counts_initial verbose⟩
  | append_singleton events event ih =>
      obtain ⟨worker, hworker, hcounts⟩ := ih (nodup_before honce) hmono.before
      obtain ⟨next, hnext, hreceived⟩ := exists_received config hcounts.running event
      exact ⟨next, (afterEvents_concat hworker event).trans hnext,
        hcounts.receive honce hmono hreceived⟩

end Counters

section Theorems

-- The totals are exact up to the bound, and no increment of a count that prints as digits is
-- negative.
theorem traffic_tallied (config : Config) (verbose : Bool) {events : List (ManagementEvent Uuid)}
    (honce : (establishedClients events).Nodup) (hmono : NonDecreasing events) :
    Always (TalliedExactly config verbose) events := by
  rintro before event later rfl
  have hfirst : before ++ event :: later = (before ++ [event]) ++ later := by simp
  rw [hfirst] at honce hmono
  have honce' := nodup_before honce
  have hmono' := hmono.before
  obtain ⟨worker, hworker, hcounts⟩ := counts_run config verbose (nodup_before honce') hmono'.before
  obtain ⟨next, hnext, hreceived⟩ := exists_received config hcounts.running event
  exact ⟨worker, next, hworker, hnext,
    fun _ _ _ hcountsOf hincrements => hcounts.increments_nonneg hmono' hcountsOf hincrements,
    (hcounts.receive honce' hmono' hreceived).totals⟩

-- A report that comes before the client is established counts with the next one.
theorem traffic_tallied_late :
    Always (TalliedExactly ⟨1, 30000, 120⟩ false)
      [.bytecount 7 100 10 1, .established 7 "c0ffee" 2, .bytecount 7 250 20 3] := by
  refine traffic_tallied ⟨1, 30000, 120⟩ false (by decide) fun clientId => ?_
  by_cases hid : 7 = clientId <;> simp [ManagementEvent.countsOf, hid]

-- A total of 2 ^ 53 + 1 is no double, and the counter stays where it was.
def beyondExact : List (ManagementEvent String) :=
  [.established 7 "c0ffee" 0, .bytecount 7 (2 ^ 53) 0 1, .established 8 "decaf" 2]

-- 10 ^ 21 prints as "1e+21", which `parseInt` reads as 1.
def beyondPlain : List (ManagementEvent String) :=
  [.established 7 "c0ffee" 0, .bytecount 7 (10 ^ 20) 0 1]

theorem not_traffic_tallied :
    ((establishedClients (beyondExact ++ [.bytecount 8 1 0 3])).Nodup ∧
      NonDecreasing (beyondExact ++ [.bytecount 8 1 0 3]) ∧
      ¬Always (Tallied ⟨1, 30000, 120⟩ false) (beyondExact ++ [.bytecount 8 1 0 3])) ∧
    (establishedClients (beyondPlain ++ [.bytecount 7 (10 ^ 21) 0 2])).Nodup ∧
      NonDecreasing (beyondPlain ++ [.bytecount 7 (10 ^ 21) 0 2]) ∧
      ¬Always (Tallied ⟨1, 30000, 120⟩ false) (beyondPlain ++ [.bytecount 7 (10 ^ 21) 0 2]) := by
  refine ⟨⟨by decide, fun clientId => ?_, fun h => ?_⟩, by decide, fun clientId => ?_, fun h => ?_⟩
  · by_cases hseven : 7 = clientId
    · subst hseven
      simp [beyondExact, ManagementEvent.countsOf]
    · by_cases hother : 8 = clientId <;>
        simp [beyondExact, ManagementEvent.countsOf, hseven, hother]
  · obtain ⟨worker, next, hworker, hnext, _, hreceived, _⟩ := h beyondExact _ [] rfl
    have hvalue : (afterEvents ⟨1, 30000, 120⟩ false beyondExact).bind (fun worker =>
        (worker.receive ⟨1, 30000, 120⟩ (.bytecount 8 1 0 3)).bind fun next =>
          next.rxBytes.value) = some (2 ^ 53) := by decide +kernel
    rw [hworker, Option.bind_some, hnext, Option.bind_some, hreceived] at hvalue
    exact absurd hvalue (by decide)
  · by_cases hseven : 7 = clientId <;>
      simp [beyondPlain, ManagementEvent.countsOf, hseven, Prod.le_def]
  · obtain ⟨worker, next, hworker, _, hnonneg, _⟩ := h beyondPlain _ [] rfl
    have hincrement : (afterEvents ⟨1, 30000, 120⟩ false beyondPlain).bind (fun worker =>
        (worker.increments (.bytecount 7 (10 ^ 21) 0 2)).map fun increments =>
          decide increments.1.Nonneg) = some false := by decide +kernel
    rw [hworker, Option.bind_some] at hincrement
    obtain ⟨increments, hincrements, hnegative⟩ := Option.map_eq_some_iff.mp hincrement
    exact of_decide_eq_false hnegative (hnonneg increments hincrements).1

end Theorems

end OpenBalenaVpn.Worker
