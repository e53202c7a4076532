import OpenBalenaVpn.Worker.Clients
import OpenBalenaVpn.Worker.Lemmas
import Mathlib.Algebra.Order.Field.Basic
import Mathlib.Order.Bounds.Basic
import Mathlib.Tactic.NormNum
import Mathlib.Tactic.Ring

namespace OpenBalenaVpn.Worker

open Transition

variable {Uuid : Type}

section Loop

-- The delay that the loop of a call waits for.
def State.delay (worker : State Uuid) (index : Nat) : ℚ :=
  match worker.drains[index]? with
  | some ⟨.killing delayMs, _⟩ => delayMs
  | _ => 0

-- The worker once the call is through with HAProxy and the timer of a number of waits
-- has fired, with the sum of their delays. The events of `waits` come during the waits.
def afterWaits (config : Config) (worker : State Uuid) (index : Nat)
    (waits : Nat → List (ManagementEvent Uuid)) : Nat → Option (State Uuid × ℚ)
  | 0 => (step config worker (.haproxy index true)).map fun next => (next, 0)
  | rounds + 1 => do
      let (before, total) ← afterWaits config worker index waits rounds
      let during ← run (State.receive config) before (waits rounds)
      let next ← step config during (.timeout index)
      some (next, total + before.delay index)

-- The loop is over, and the worker has told the primary.
def State.LoopEnded (worker : State Uuid) (index : Nat) : Prop :=
  worker.exitCode = none ∧ ∃ killed, worker.drains[index]? = some ⟨.signalled, killed⟩

def FitsBudget (config : Config) (worker : State Uuid) (index : Nat)
    (waits : Nat → List (ManagementEvent Uuid)) : Prop :=
  ∃ rounds last total, afterWaits config worker index waits rounds = some (last, total) ∧
    last.LoopEnded index ∧ total ≤ config.DEFAULT_SIGTERM_TIMEOUT

-- The clients in the cache after a number of waits.
def cachedAfter (worker : State Uuid) (waits : Nat → List (ManagementEvent Uuid))
    (rounds : Nat) : List Nat :=
  ((List.range rounds).flatMap waits).foldl cachedNext worker.clientCache.keys

theorem cachedAfter_succ (worker : State Uuid) (waits : Nat → List (ManagementEvent Uuid))
    (rounds : Nat) : cachedAfter worker waits (rounds + 1) =
      (waits rounds).foldl cachedNext (cachedAfter worker waits rounds) := by
  simp [cachedAfter, List.range_succ]

end Loop

section Rounds

variable {config : Config} {worker : State Uuid} {index : Nat}
  {waits : Nat → List (ManagementEvent Uuid)}

theorem receive_drains {worker next : State Uuid} {event : ManagementEvent Uuid}
    (h : worker.receive config event = some next) : next.drains = worker.drains := by
  cases event with
  | established clientId uuid now =>
      simp only [State.receive, ManagementEvent.handled, step] at h
      split at h
      · cases h
      · exact (Option.some.inj h) ▸ rfl
  | bytecount clientId bytesReceived bytesSent now =>
      simp only [State.receive, ManagementEvent.handled, step] at h
      split at h
      · cases h
      · obtain rfl := Option.some.inj h
        unfold State.writeBandwidthMetrics
        split <;> rfl
  | disconnect clientId => exact (Option.some.inj h) ▸ rfl

theorem receive_run (config : Config) (events : List (ManagementEvent Uuid)) {worker : State Uuid}
    (h : worker.exitCode = none) : ∃ next, run (State.receive config) worker events = some next ∧
      next.exitCode = none ∧ next.drains = worker.drains ∧
      next.clientCache.keys = events.foldl cachedNext worker.clientCache.keys := by
  induction events generalizing worker with
  | nil => exact ⟨worker, rfl, h, rfl, rfl⟩
  | cons event events ih =>
      obtain ⟨middle, hmiddle, hrunning, hkeys⟩ : ∃ middle,
          worker.receive config event = some middle ∧ _ := receive_keys h event
      obtain ⟨next, hnext, hexit, hdrains, hlast⟩ := ih hrunning
      refine ⟨next, (run_cons_eq_some _ _ _ _ _).mpr ⟨middle, hmiddle, hnext⟩, hexit,
        hdrains.trans (receive_drains hmiddle), ?_⟩
      rw [hlast, hkeys, List.foldl_cons]

-- Where a call stands when the loop looks for the client after the ones it has killed.
theorem killNext_phase (config : Config) (hlt : index < worker.drains.length)
    (drain : Drain Uuid) (delayMs : ℚ) :
    ∃ killed, (worker.killNext config index drain delayMs).drains[index]? =
        some ⟨if drain.killed.length < worker.clientCache.size then .killing delayMs
          else .signalled, killed⟩ ∧
      (drain.killed.length < worker.clientCache.size →
        killed.length = drain.killed.length + 1) := by
  have hsize := worker.clientCache.length_values
  unfold State.killNext
  split
  · rename_i entry hentry
    obtain ⟨hnext, _⟩ := List.getElem?_eq_some_iff.mp hentry
    refine ⟨drain.killed ++ [entry.uuid], ?_, fun _ => by simp⟩
    rw [if_pos (hsize ▸ hnext)]
    exact List.getElem?_set_self hlt
  · rename_i hnone
    have hover := List.getElem?_eq_none_iff.mp hnone
    rw [hsize] at hover
    refine ⟨drain.killed, ?_, fun hnext => absurd hnext (Nat.not_lt.mpr hover)⟩
    rw [if_neg (Nat.not_lt.mpr hover)]
    exact List.getElem?_set_self hlt

theorem killNext_exitCode (config : Config) (worker : State Uuid) (index : Nat)
    (drain : Drain Uuid) (delayMs : ℚ) :
    (worker.killNext config index drain delayMs).exitCode = worker.exitCode := by
  unfold State.killNext
  split <;> rfl

-- The loop goes on as long as it has waited less often than there are clients.
structure Looping (config : Config) (worker : State Uuid) (index : Nat)
    (waits : Nat → List (ManagementEvent Uuid)) (rounds : Nat) (last : State Uuid) : Prop where
  exitCode : last.exitCode = none
  keys : last.clientCache.keys = cachedAfter worker waits rounds
  call : ∃ killed, last.drains[index]? =
      some ⟨if rounds < (cachedAfter worker waits rounds).length then
          .killing (delayMs config worker.clientCache.size) else .signalled, killed⟩ ∧
    (rounds < (cachedAfter worker waits rounds).length → killed.length = rounds + 1)

theorem length_cachedAfter_zero (worker : State Uuid)
    (waits : Nat → List (ManagementEvent Uuid)) :
    (cachedAfter worker waits 0).length = worker.clientCache.size :=
  (OrderedMap.size_eq_length_keys _).symm

theorem looping_zero (config : Config) (waits : Nat → List (ManagementEvent Uuid))
    (hexit : worker.exitCode = none)
    (hget : worker.drains[index]? = some ⟨.connecting, []⟩) :
    ∃ next, step config worker (.haproxy index true) = some next ∧
      Looping config worker index waits 0 next := by
  obtain ⟨hlt, _⟩ := List.getElem?_eq_some_iff.mp hget
  have hzero := length_cachedAfter_zero worker waits
  by_cases hcount : 0 < worker.clientCache.size
  · refine ⟨worker.killNext config index ⟨.connecting, []⟩
      (delayMs config worker.clientCache.size), by simp [step, hexit, State.haproxy, hget, hcount],
      ?_⟩
    have hcache := (killNext_undisturbed config worker index ⟨.connecting, []⟩
      (delayMs config worker.clientCache.size)).clientCache
    refine ⟨(killNext_exitCode config worker index _ _).trans hexit, by rw [hcache]; rfl, ?_⟩
    rw [hzero]
    exact killNext_phase config hlt ⟨.connecting, []⟩ _
  · refine ⟨worker.signalCluster config index ⟨.connecting, []⟩,
      by simp [step, hexit, State.haproxy, hget, hcount], hexit, rfl, [], ?_, ?_⟩
    · rw [hzero, if_neg hcount]
      exact List.getElem?_set_self hlt
    · exact fun h => absurd (hzero ▸ h) hcount

theorem looping_succ {rounds : Nat} {before : State Uuid}
    (h : Looping config worker index waits rounds before)
    (hmore : rounds < (cachedAfter worker waits rounds).length) :
    before.delay index = delayMs config worker.clientCache.size ∧
      ∃ during next, run (State.receive config) before (waits rounds) = some during ∧
        step config during (.timeout index) = some next ∧
        Looping config worker index waits (rounds + 1) next := by
  obtain ⟨killed, hget, hlength⟩ := h.call
  rw [if_pos hmore] at hget
  have hkilled := hlength hmore
  refine ⟨by simp [State.delay, hget], ?_⟩
  obtain ⟨during, hduring, hexit, hdrains, hkeys⟩ :=
    receive_run config (waits rounds) h.exitCode
  rw [h.keys, ← cachedAfter_succ] at hkeys
  have hget' := hdrains ▸ hget
  obtain ⟨hlt, _⟩ := List.getElem?_eq_some_iff.mp hget'
  have hsize : during.clientCache.size = (cachedAfter worker waits (rounds + 1)).length := by
    rw [OrderedMap.size_eq_length_keys, hkeys]
  have hcache := (killNext_undisturbed config during index
    ⟨.killing (delayMs config worker.clientCache.size), killed⟩
    (delayMs config worker.clientCache.size)).clientCache
  refine ⟨during, _, hduring, by simp only [step, hexit, State.timeout, hget']; rfl,
    (killNext_exitCode config during index _ _).trans hexit, by rw [hcache, hkeys], ?_⟩
  have hphase := killNext_phase config hlt
    ⟨.killing (delayMs config worker.clientCache.size), killed⟩
    (delayMs config worker.clientCache.size)
  rw [hsize] at hphase
  simpa only [hkilled] using hphase

-- As long as there was a next client after each wait, the delays add up.
theorem afterWaits_of_lt (config : Config) (hexit : worker.exitCode = none)
    (hget : worker.drains[index]? = some ⟨.connecting, []⟩) {rounds : Nat}
    (hmore : ∀ earlier < rounds, earlier < (cachedAfter worker waits earlier).length) :
    ∃ last, afterWaits config worker index waits rounds =
        some (last, rounds * delayMs config worker.clientCache.size) ∧
      Looping config worker index waits rounds last := by
  induction rounds with
  | zero =>
      obtain ⟨next, hnext, hlooping⟩ := looping_zero config waits hexit hget
      exact ⟨next, by simp [afterWaits, hnext], hlooping⟩
  | succ rounds ih =>
      obtain ⟨before, hbefore, hlooping⟩ := ih fun earlier hlt => hmore earlier (by omega)
      obtain ⟨hdelay, during, next, hduring, hnext, hafter⟩ :=
        looping_succ hlooping (hmore rounds (Nat.lt_succ_self rounds))
      refine ⟨next, ?_, hafter⟩
      have htotal : rounds * delayMs config worker.clientCache.size +
          delayMs config worker.clientCache.size =
          (rounds + 1 : ℕ) * delayMs config worker.clientCache.size := by
        push_cast
        ring
      simp [afterWaits, hbefore, hduring, hnext, hdelay, htotal]

theorem Looping.loopEnded_iff {rounds : Nat} {last : State Uuid}
    (h : Looping config worker index waits rounds last) :
    last.LoopEnded index ↔ (cachedAfter worker waits rounds).length ≤ rounds := by
  obtain ⟨killed, hget, _⟩ := h.call
  by_cases hmore : rounds < (cachedAfter worker waits rounds).length
  · rw [if_pos hmore] at hget
    refine iff_of_false ?_ (Nat.not_le.mpr hmore)
    rintro ⟨_, other, hother⟩
    rw [hget] at hother
    cases hother
  · rw [if_neg hmore] at hget
    exact iff_of_true ⟨h.exitCode, killed, hget⟩ (Nat.not_lt.mp hmore)

theorem receive_exited {worker next : State Uuid} {event : ManagementEvent Uuid}
    (h : worker.exitCode ≠ none) (hs : worker.receive config event = some next) :
    next.exitCode ≠ none := by
  have hsome : worker.exitCode.isSome = true := Option.isSome_iff_ne_none.mpr h
  cases event with
  | established | bytecount => simp [State.receive, ManagementEvent.handled, step, hsome] at hs
  | disconnect clientId => exact (Option.some.inj hs) ▸ h

-- The wait after the message is the last one of the process.
theorem exited_of_loopEnded {rounds later : Nat} {ended last : State Uuid} {sum total : ℚ}
    (h : afterWaits config worker index waits rounds = some (ended, sum))
    (hended : ended.LoopEnded index) (hlt : rounds < later)
    (hlast : afterWaits config worker index waits later = some (last, total)) :
    last.exitCode ≠ none := by
  obtain ⟨killed, hget⟩ := hended.2
  induction later, hlt using Nat.le_induction generalizing last total with
  | base =>
      obtain ⟨during, hduring, hexit, hdrains, _⟩ :=
        receive_run config (waits rounds) hended.1
      have hstep : step config during (.timeout index) = some { during with exitCode := some 0 } :=
        by simp [step, hexit, State.timeout, hdrains, hget]
      simp only [afterWaits, h, Option.bind_eq_bind, Option.bind_some, hduring, hstep] at hlast
      obtain ⟨rfl, _⟩ := Prod.mk.inj (Option.some.inj hlast)
      exact Option.some_ne_none 0
  | succ later _ ih =>
      simp only [afterWaits, Option.bind_eq_bind, Option.bind_eq_some_iff] at hlast
      obtain ⟨⟨before, earlier⟩, hbefore, during, hduring, next, hnext, _⟩ := hlast
      have hstays : ∀ (state : State Uuid) event next, state.exitCode ≠ none →
          state.receive config event = some next → next.exitCode ≠ none :=
        fun _ _ _ hne hs => receive_exited hne hs
      have hexit : during.exitCode ≠ none := run_invariant hstays (ih hbefore) hduring
      simp [step, Option.isSome_iff_ne_none.mpr hexit] at hnext

end Rounds

section Theorems

-- The waits of a loop that began with some clients, against the timeout: nobody came to
-- them, or the delay is short enough for the ones who came as well.
def InBudget (config : Config) (clientCount rounds : Nat) : Prop :=
  if clientCount = 0 then 0 ≤ config.DEFAULT_SIGTERM_TIMEOUT
  else rounds = clientCount ∨
    rounds * config.MAXIMUM_DRAIN_DELAY ≤ config.DEFAULT_SIGTERM_TIMEOUT ∨
    config.DEFAULT_SIGTERM_TIMEOUT ≤ 0

instance (config : Config) (clientCount rounds : Nat) :
    Decidable (InBudget config clientCount rounds) := by
  unfold InBudget
  infer_instance

theorem delays_le_iff (config : Config) {clientCount rounds : Nat} (hle : clientCount ≤ rounds)
    (hzero : clientCount = 0 → rounds = 0) :
    rounds * delayMs config clientCount ≤ config.DEFAULT_SIGTERM_TIMEOUT ↔
      InBudget config clientCount rounds := by
  unfold InBudget
  by_cases hcount : clientCount = 0
  · rw [if_pos hcount, hzero hcount]
    simp
  rw [if_neg hcount]
  have hpos : (0 : ℚ) < clientCount := by exact_mod_cast Nat.pos_of_ne_zero hcount
  have hcast : (clientCount : ℚ) ≤ rounds := by exact_mod_cast hle
  have hrounds : (0 : ℚ) ≤ rounds := hpos.le.trans hcast
  have hshare : clientCount * ((config.DEFAULT_SIGTERM_TIMEOUT : ℚ) / clientCount) =
      config.DEFAULT_SIGTERM_TIMEOUT := mul_div_cancel₀ _ hpos.ne'
  constructor
  · intro h
    by_contra hnot
    simp only [not_or, not_le] at hnot
    obtain ⟨hmore, hslow, htimeout⟩ := hnot
    have hlt : (clientCount : ℚ) < rounds := by
      exact_mod_cast Nat.lt_of_le_of_ne hle (Ne.symm hmore)
    have hslow' : (config.DEFAULT_SIGTERM_TIMEOUT : ℚ) < rounds * config.MAXIMUM_DRAIN_DELAY := by
      exact_mod_cast hslow
    have htimeout' : (0 : ℚ) < config.DEFAULT_SIGTERM_TIMEOUT := by exact_mod_cast htimeout
    have hlonger : (config.DEFAULT_SIGTERM_TIMEOUT : ℚ) <
        rounds * (config.DEFAULT_SIGTERM_TIMEOUT / clientCount) :=
      calc (config.DEFAULT_SIGTERM_TIMEOUT : ℚ)
          = clientCount * (config.DEFAULT_SIGTERM_TIMEOUT / clientCount) := hshare.symm
        _ < rounds * (config.DEFAULT_SIGTERM_TIMEOUT / clientCount) :=
          mul_lt_mul_of_pos_right hlt (div_pos htimeout' hpos)
    rw [delayMs, mul_min_of_nonneg _ _ hrounds] at h
    exact absurd h (not_le.mpr (lt_min hslow' hlonger))
  · rintro (heq | hfast | htimeout)
    · calc rounds * delayMs config clientCount
          ≤ rounds * (config.DEFAULT_SIGTERM_TIMEOUT / clientCount) :=
            mul_le_mul_of_nonneg_left (min_le_right _ _) hrounds
        _ = config.DEFAULT_SIGTERM_TIMEOUT := by rw [heq, hshare]
    · calc rounds * delayMs config clientCount
          ≤ rounds * (config.MAXIMUM_DRAIN_DELAY : ℚ) :=
            mul_le_mul_of_nonneg_left (min_le_left _ _) hrounds
        _ ≤ config.DEFAULT_SIGTERM_TIMEOUT := by exact_mod_cast hfast
    · have hshort : (config.DEFAULT_SIGTERM_TIMEOUT : ℚ) / clientCount ≤ 0 :=
        div_nonpos_of_nonpos_of_nonneg (by exact_mod_cast htimeout) hpos.le
      calc rounds * delayMs config clientCount
          ≤ rounds * (config.DEFAULT_SIGTERM_TIMEOUT / clientCount) :=
            mul_le_mul_of_nonneg_left (min_le_right _ _) hrounds
        _ ≤ clientCount * (config.DEFAULT_SIGTERM_TIMEOUT / clientCount) :=
            mul_le_mul_of_nonpos_right hcast hshort
        _ = config.DEFAULT_SIGTERM_TIMEOUT := hshare

variable {worker : State Uuid} {waits : Nat → List (ManagementEvent Uuid)}

theorem length_le_cachedNext (keys : List Nat) (event : ManagementEvent Uuid) :
    keys.length ≤ (cachedNext keys event).length := by
  cases event with
  | established clientId uuid now =>
      simp only [cachedNext, connectedNext]
      split <;> simp
  | bytecount | disconnect => exact Nat.le_refl _

-- The cache does not shrink, so the loop waits for each client that it began with.
theorem size_le_cachedAfter (worker : State Uuid) (waits : Nat → List (ManagementEvent Uuid))
    (rounds : Nat) : worker.clientCache.size ≤ (cachedAfter worker waits rounds).length := by
  have hfold : ∀ (events : List (ManagementEvent Uuid)) (keys : List Nat),
      keys.length ≤ (events.foldl cachedNext keys).length := by
    intro events
    induction events with
    | nil => exact fun _ => Nat.le_refl _
    | cons event events ih => exact fun keys => (length_le_cachedNext keys event).trans (ih _)
  rw [OrderedMap.size_eq_length_keys]
  exact hfold _ _

-- The loop ends after the first wait that leaves it no further client.
theorem loopEnded_iff_isLeast (config : Config) {index rounds : Nat}
    (hexit : worker.exitCode = none) (hget : worker.drains[index]? = some ⟨.connecting, []⟩)
    {total : ℚ} :
    (∃ last, afterWaits config worker index waits rounds = some (last, total) ∧
        last.LoopEnded index) ↔
      IsLeast {waited | (cachedAfter worker waits waited).length ≤ waited} rounds ∧
        total = rounds * delayMs config worker.clientCache.size := by
  constructor
  · rintro ⟨last, hlast, hended⟩
    have hmore : ∀ earlier < rounds, earlier < (cachedAfter worker waits earlier).length := by
      intro earlier hearlier
      by_contra hnot
      have hex : ∃ waited, (cachedAfter worker waits waited).length ≤ waited :=
        ⟨earlier, Nat.not_lt.mp hnot⟩
      classical
      obtain ⟨first, hfirst, hlooping⟩ := afterWaits_of_lt config hexit hget
        fun other hother => Nat.not_le.mp (Nat.find_min hex hother)
      have hover := hlooping.loopEnded_iff.mpr (Nat.find_spec hex)
      have hlt := (Nat.find_min' hex (Nat.not_lt.mp hnot)).trans_lt hearlier
      exact exited_of_loopEnded hfirst hover hlt hlast hended.1
    obtain ⟨ended, hafter, hlooping⟩ := afterWaits_of_lt config hexit hget hmore
    obtain ⟨rfl, rfl⟩ := Prod.mk.inj (Option.some.inj (hlast.symm.trans hafter))
    refine ⟨⟨hlooping.loopEnded_iff.mp hended, fun waited hwaited => ?_⟩, rfl⟩
    by_contra hlt
    exact Nat.not_lt.mpr hwaited (hmore waited (Nat.not_le.mp hlt))
  · rintro ⟨⟨hover, hleast⟩, rfl⟩
    have hmore : ∀ earlier < rounds, earlier < (cachedAfter worker waits earlier).length := by
      intro earlier hearlier
      by_contra hnot
      exact Nat.not_le.mpr hearlier (hleast (Nat.not_lt.mp hnot))
    obtain ⟨last, hlast, hlooping⟩ := afterWaits_of_lt config hexit hget hmore
    exact ⟨last, hlast, hlooping.loopEnded_iff.mpr hover⟩

-- A drain fits into the timeout if and only if the loop runs out of clients after some
-- number of waits that the timeout has room for.
theorem fitsBudget_iff (config : Config) (worker : State Uuid) (index : Nat)
    (waits : Nat → List (ManagementEvent Uuid)) (hexit : worker.exitCode = none)
    (hget : worker.drains[index]? = some ⟨.connecting, []⟩) :
    FitsBudget config worker index waits ↔
      ∃ rounds, IsLeast {waited | (cachedAfter worker waits waited).length ≤ waited} rounds ∧
        InBudget config worker.clientCache.size rounds := by
  have hbudget : ∀ {rounds : Nat},
      IsLeast {waited | (cachedAfter worker waits waited).length ≤ waited} rounds →
      (rounds * delayMs config worker.clientCache.size ≤ config.DEFAULT_SIGTERM_TIMEOUT ↔
        InBudget config worker.clientCache.size rounds) := fun {rounds} hleast =>
    delays_le_iff config ((size_le_cachedAfter worker waits rounds).trans hleast.1) fun hempty =>
      Nat.le_zero.mp (hleast.2 ((length_cachedAfter_zero worker waits).trans_le hempty.le))
  constructor
  · rintro ⟨rounds, last, total, hlast, hended, hle⟩
    obtain ⟨hleast, rfl⟩ := (loopEnded_iff_isLeast config hexit hget).mp ⟨last, hlast, hended⟩
    exact ⟨rounds, hleast, (hbudget hleast).mp hle⟩
  · rintro ⟨rounds, hleast, hin⟩
    obtain ⟨last, hlast, hended⟩ :=
      (loopEnded_iff_isLeast config hexit hget).mpr ⟨hleast, rfl⟩
    exact ⟨rounds, last, _, hlast, hended, (hbudget hleast).mpr hin⟩

-- One client, nobody else comes, and a second of time: the loop waits for it once.
theorem fitsBudget_alone :
    ∃ worker : State String, run (step ⟨1, 1000, 1000⟩) (.initial false)
        [.established 7 "c0ffee" 0, .signal .SIGTERM] = some worker ∧
      FitsBudget ⟨1, 1000, 1000⟩ worker 0 fun _ => [] := by
  refine ⟨_, (Option.some_get (by decide)).symm, (fitsBudget_iff _ _ _ _ (by decide)
    (by decide)).mpr ⟨1, ⟨by decide, fun waited hwaited => ?_⟩, by decide⟩⟩
  refine Nat.pos_of_ne_zero ?_
  rintro rfl
  exact absurd hwaited (by decide)

-- A client that comes during the wait for the first one gets a second of its own.
theorem not_fitsBudget_late :
    ∃ worker : State String, run (step ⟨1, 1000, 1000⟩) (.initial false)
        [.established 7 "c0ffee" 0, .signal .SIGTERM] = some worker ∧
      ¬FitsBudget ⟨1, 1000, 1000⟩ worker 0
        fun round => if round = 0 then [.established 8 "decaf" 1] else [] := by
  refine ⟨_, (Option.some_get (by decide)).symm, ?_⟩
  rintro ⟨rounds, last, total, hlast, hended, hle⟩
  obtain ⟨hleast, rfl⟩ :=
    (loopEnded_iff_isLeast _ (by decide) (by decide)).mp ⟨last, hlast, hended⟩
  have hrounds : 2 ≤ rounds := by
    by_contra hlt
    obtain rfl | rfl : rounds = 0 ∨ rounds = 1 := by omega
    · exact absurd hleast.1 (by decide)
    · exact absurd hleast.1 (by decide)
  have hdelay : delayMs ⟨1, 1000, 1000⟩ 1 = 1000 := by norm_num [delayMs]
  have hlonger : (2 : ℚ) * 1000 ≤ rounds * delayMs ⟨1, 1000, 1000⟩ 1 := by
    rw [hdelay]
    exact mul_le_mul_of_nonneg_right (by exact_mod_cast hrounds) (by norm_num)
  exact absurd (hlonger.trans hle) (by norm_num)

end Theorems

end OpenBalenaVpn.Worker
