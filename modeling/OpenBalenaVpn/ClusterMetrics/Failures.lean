import OpenBalenaVpn.ClusterMetrics.Scrapes

namespace OpenBalenaVpn.ClusterMetrics

open Transition

variable {Uuid : Type}

section Shadow

-- The histograms that a request reports.
def State.report (state : State Uuid) (id : Nat) : Option (Histogram × Histogram) :=
  (state.requests.get id).map fun request => (request.sessionRxBitrate, request.sessionTxBitrate)

section Request

variable {state next : State Uuid} {id : Nat}

-- What the start of a request does.
structure Requested (id : Nat) (state next : State Uuid) : Prop where
  fresh : state.requests.get id = none
  received : next.received = state.received
  workerMetrics : next.workerMetrics = state.workerMetrics
  rx : next.sessionRxBitrate = state.sessionRxBitrate ++
    state.workerMetrics.values.map fun clientMetrics => mean clientMetrics.rxBitrate
  tx : next.sessionTxBitrate = state.sessionTxBitrate ++
    state.workerMetrics.values.map fun clientMetrics => mean clientMetrics.txBitrate
  requests : ∃ request, request.status = .waiting ∧ next.requests = state.requests.set id request
  report : next.report id =
    some (histogram next.sessionRxBitrate, histogram next.sessionTxBitrate)

theorem request_of_fresh (h : state.requests.get id = none) :
    ∃ next, state.request id = some next ∧ Requested id state next := by
  rw [State.request, h]
  refine ⟨_, rfl, h, rfl, rfl, rfl, rfl, ⟨_, ?_, rfl⟩, ?_⟩
  · rfl
  · simp [State.report]

theorem requested (hs : state.request id = some next) : Requested id state next := by
  cases hget : state.requests.get id with
  | some request =>
      rw [State.request, hget] at hs
      cases hs
  | none =>
      obtain ⟨other, hother, hrequested⟩ := request_of_fresh hget
      exact Option.some.inj (hother.symm.trans hs) ▸ hrequested

end Request

-- The primary beside the one to which a request was not made. It has observed some more.
structure Shadow (failed extra : Nat) (state without : State Uuid) : Prop where
  received : state.received = without.received
  workerMetrics : state.workerMetrics = without.workerMetrics
  rx : state.sessionRxBitrate.length = without.sessionRxBitrate.length + extra
  tx : state.sessionTxBitrate.length = without.sessionTxBitrate.length + extra
  same : extra = 0 → state.sessionRxBitrate = without.sessionRxBitrate ∧
    state.sessionTxBitrate = without.sessionTxBitrate
  made : (state.requests.get failed).isSome
  status : ∀ id, id ≠ failed →
    (state.requests.get id).map (·.status) = (without.requests.get id).map (·.status)

theorem Requested.shadow {state next : State Uuid} {failed : Nat}
    (h : Requested failed state next) : Shadow failed state.workerMetrics.size next state := by
  obtain ⟨request, _, hrequests⟩ := h.requests
  refine ⟨h.received, h.workerMetrics, ?_, ?_, fun hzero => ?_, ?_, fun id hid => ?_⟩
  · rw [h.rx, List.length_append, List.length_map, OrderedMap.length_values]
  · rw [h.tx, List.length_append, List.length_map, OrderedMap.length_values]
  · have hempty : state.workerMetrics.values = [] :=
      List.eq_nil_of_length_eq_zero ((OrderedMap.length_values _).trans hzero)
    rw [h.rx, h.tx, hempty]
    simp
  · rw [hrequests, OrderedMap.get_set_self]
    rfl
  · rw [hrequests, OrderedMap.get_set_of_ne _ _ _ _ (Ne.symm hid)]

variable {failed extra : Nat} {state without next : State Uuid}

-- A request that is there has the same status on both sides.
theorem Shadow.get (h : Shadow failed extra state without) {id : Nat} (hid : id ≠ failed)
    {request : Request Uuid} (hget : state.requests.get id = some request) :
    ∃ other, without.requests.get id = some other ∧ other.status = request.status := by
  have hstatus := h.status id hid
  rw [hget, Option.map_some] at hstatus
  exact Option.map_eq_some_iff.mp hstatus.symm

theorem Shadow.set_status (h : Shadow failed extra state without) (changed : Nat)
    (request other : Request Uuid) (heq : request.status = other.status) :
    ((state.requests.set changed request).get failed).isSome ∧
      ∀ id, id ≠ failed → ((state.requests.set changed request).get id).map (·.status) =
        ((without.requests.set changed other).get id).map (·.status) := by
  refine ⟨?_, fun id hid => ?_⟩
  · rw [OrderedMap.get_set]
    split
    · rfl
    · exact h.made
  · rw [OrderedMap.get_set, OrderedMap.get_set]
    by_cases hchanged : changed = id
    · rw [if_pos hchanged, if_pos hchanged]
      exact congrArg some heq
    · rw [if_neg hchanged, if_neg hchanged]
      exact h.status id hid

theorem Shadow.request (h : Shadow failed extra state without) {id : Nat}
    (hs : state.request id = some next) :
    ∃ other, without.request id = some other ∧ Shadow failed extra next other := by
  have hnext := requested hs
  have hid : id ≠ failed := by
    rintro rfl
    have hmade := h.made
    rw [hnext.fresh] at hmade
    cases hmade
  have hfresh : without.requests.get id = none := by
    have hstatus := h.status id hid
    rw [hnext.fresh] at hstatus
    exact Option.map_eq_none_iff.mp hstatus.symm
  obtain ⟨other, hother, hrequested⟩ := request_of_fresh hfresh
  obtain ⟨request, hwaiting, hrequests⟩ := hnext.requests
  obtain ⟨made, hmade, hrequests'⟩ := hrequested.requests
  obtain ⟨hthere, hstatus⟩ := h.set_status id request made (hwaiting.trans hmade.symm)
  refine ⟨other, hother, ?_, ?_, ?_, ?_, fun hzero => ?_, by rw [hrequests]; exact hthere,
    by rw [hrequests, hrequests']; exact hstatus⟩
  · rw [hnext.received, hrequested.received, h.received]
  · rw [hnext.workerMetrics, hrequested.workerMetrics, h.workerMetrics]
  · rw [hnext.rx, hrequested.rx, List.length_append, List.length_append, h.rx, h.workerMetrics]
    omega
  · rw [hnext.tx, hrequested.tx, List.length_append, List.length_append, h.tx, h.workerMetrics]
    omega
  · obtain ⟨hrx, htx⟩ := h.same hzero
    rw [hnext.rx, hrequested.rx, hnext.tx, hrequested.tx, hrx, htx, h.workerMetrics]
    exact ⟨rfl, rfl⟩

theorem Shadow.succeed (h : Shadow failed extra state without) {id : Nat} (hid : id ≠ failed)
    (hs : state.succeed id = some next) :
    ∃ other, without.succeed id = some other ∧ Shadow failed 0 next other := by
  obtain ⟨request, hget, hwaiting, rfl⟩ := succeed_eq_some_iff.mp hs
  obtain ⟨other, hother, hsame⟩ := h.get hid hget
  obtain ⟨hthere, hstatus⟩ := h.set_status id { request with status := .succeeded }
    { other with status := .succeeded } rfl
  exact ⟨_, succeed_eq_some_iff.mpr ⟨other, hother, hsame.trans hwaiting, rfl⟩,
    h.received, rfl, rfl, rfl, fun _ => ⟨rfl, rfl⟩, hthere, hstatus⟩

theorem Shadow.fail (h : Shadow failed extra state without) {id : Nat} (hid : id ≠ failed)
    (hs : state.fail id = some next) :
    ∃ other, without.fail id = some other ∧ Shadow failed extra next other := by
  obtain ⟨request, hget, hwaiting, rfl⟩ := fail_eq_some_iff.mp hs
  obtain ⟨other, hother, hsame⟩ := h.get hid hget
  obtain ⟨hthere, hstatus⟩ := h.set_status id { request with status := .failed }
    { other with status := .failed } rfl
  exact ⟨_, fail_eq_some_iff.mpr ⟨other, hother, hsame.trans hwaiting, rfl⟩,
    h.received, h.workerMetrics, h.rx, h.tx, h.same, hthere, hstatus⟩

-- The failure of the request changes no more than its own status.
theorem Shadow.fail_self (h : Shadow failed extra state without)
    (hs : state.fail failed = some next) : Shadow failed extra next without := by
  obtain ⟨request, _, _, rfl⟩ := fail_eq_some_iff.mp hs
  refine ⟨h.received, h.workerMetrics, h.rx, h.tx, h.same, ?_, fun id hid => ?_⟩
  · rw [OrderedMap.get_set_self]
    rfl
  · rw [OrderedMap.get_set_of_ne _ _ _ _ (Ne.symm hid)]
    exact h.status id hid

-- A request that starts later, beside the one of the run without the failed request.
theorem Shadow.report_iff {failed extra id : Nat} {state without next : State Uuid}
    (h : Shadow failed extra state without) (hs : state.request id = some next) :
    ∃ other, without.request id = some other ∧ Shadow failed extra next other ∧
      (next.report id).isSome ∧ (other.report id).isSome ∧
      (next.report id = other.report id ↔ extra = 0) := by
  obtain ⟨other, hother, hafter⟩ := h.request hs
  have hnext := (requested hs).report
  have hwithout := (requested hother).report
  refine ⟨other, hother, hafter, by rw [hnext]; rfl, by rw [hwithout]; rfl, ?_⟩
  rw [hnext, hwithout, Option.some.injEq, Prod.mk.injEq]
  constructor
  · rintro ⟨hrx, _⟩
    have hcount : next.sessionRxBitrate.length = other.sessionRxBitrate.length :=
      congrArg Histogram.count hrx
    have hextra := hafter.rx
    omega
  · intro hnothing
    obtain ⟨hrx, htx⟩ := hafter.same hnothing
    exact ⟨by rw [hrx], by rw [htx]⟩

variable [DecidableEq Uuid]

theorem Shadow.step (h : Shadow failed extra state without) {event : Event Uuid}
    (hfail : event ≠ .fail failed) (hsucceed : event ≠ .succeed failed)
    (hs : ClusterMetrics.step state event = some next) :
    ∃ other, ClusterMetrics.step without event = some other ∧
      Shadow failed (if event.clears then 0 else extra) next other := by
  cases event with
  | bitrate uuid rxBitrate txBitrate =>
      obtain rfl := Option.some.inj hs
      refine ⟨_, rfl, ?_, ?_, h.rx, h.tx, h.same, h.made, h.status⟩
      · exact congrArg (· + 1) h.received
      · simp only [State.bitrate, h.workerMetrics, h.received]
  | request id => exact h.request hs
  | succeed id => exact h.succeed (fun heq => hsucceed (heq ▸ rfl)) hs
  | fail id => exact h.fail (fun heq => hfail (heq ▸ rfl)) hs

-- The run without the request, and what is left of it after each success.
theorem Shadow.run {events : List (Event Uuid)} {last : State Uuid}
    (h : Shadow failed extra state without) (hsucceed : .succeed failed ∉ events)
    (hrun : Transition.run ClusterMetrics.step state events = some last) :
    ∃ other, Transition.run ClusterMetrics.step without
        (events.filter (· ≠ .fail failed)) = some other ∧
      Shadow failed (if events.any Event.clears then 0 else extra) last other := by
  induction events generalizing extra state without with
  | nil => exact ⟨without, rfl, Option.some.inj hrun ▸ h⟩
  | cons event events ih =>
      obtain ⟨next, hs, hrest⟩ := (run_cons_eq_some _ _ _ _ _).mp hrun
      have hnot : .succeed failed ∉ events := fun hmem => hsucceed (List.mem_cons_of_mem _ hmem)
      by_cases hfail : event = .fail failed
      · subst hfail
        obtain ⟨other, hother, hlast⟩ := ih (h.fail_self hs) hnot hrest
        exact ⟨other, by rw [List.filter_cons_of_neg (by simp)]; exact hother, hlast⟩
      · have hne : event ≠ .succeed failed := by
          rintro rfl
          exact hsucceed List.mem_cons_self
        obtain ⟨middle, hmiddle, hshadow⟩ := h.step hfail hne hs
        obtain ⟨other, hother, hlast⟩ := ih hshadow hnot hrest
        refine ⟨other, ?_, ?_⟩
        · rw [List.filter_cons_of_pos (by simpa using hfail)]
          exact (run_cons_eq_some _ _ _ _ _).mpr ⟨middle, hmiddle, hother⟩
        · cases hclears : event.clears <;> simpa [hclears] using hlast

end Shadow

section Reports

variable [DecidableEq Uuid] {state last : State Uuid} {id : Nat}

-- What a request reports is settled when it starts.
theorem step_report {next : State Uuid} {event : Event Uuid}
    (hrequest : event = .request id → (state.report id).isSome)
    (hs : step state event = some next) : next.report id = state.report id := by
  have hset : ∀ {changed : Nat} {request : Request Uuid},
      state.requests.get changed = some request → ∀ status,
      ({ state with requests := state.requests.set changed { request with status } }).report id =
        state.report id := by
    intro changed request hget status
    rw [State.report, State.report, OrderedMap.get_set]
    by_cases hid : changed = id
    · rw [if_pos hid, ← hid, hget]
      rfl
    · rw [if_neg hid]
  cases event with
  | bitrate uuid rxBitrate txBitrate => exact (Option.some.inj hs) ▸ rfl
  | request other =>
      have hnext := requested hs
      have hid : other ≠ id := by
        rintro rfl
        have hmade := hrequest rfl
        rw [State.report, hnext.fresh] at hmade
        cases hmade
      obtain ⟨request, _, hrequests⟩ := hnext.requests
      rw [State.report, State.report, hrequests, OrderedMap.get_set_of_ne _ _ _ _ hid]
  | succeed other =>
      obtain ⟨request, hget, _, rfl⟩ := succeed_eq_some_iff.mp hs
      exact hset hget .succeeded
  | fail other =>
      obtain ⟨request, hget, _, rfl⟩ := fail_eq_some_iff.mp hs
      exact hset hget .failed

theorem run_report {events : List (Event Uuid)}
    (hrequest : .request id ∈ events → (state.report id).isSome)
    (hrun : run step state events = some last) : last.report id = state.report id := by
  induction events generalizing state with
  | nil => exact Option.some.inj hrun ▸ rfl
  | cons event events ih =>
      obtain ⟨next, hs, hrest⟩ := (run_cons_eq_some _ _ _ _ _).mp hrun
      have hsame := step_report (fun heq => hrequest (heq ▸ List.mem_cons_self)) hs
      rw [← hsame]
      exact ih (fun hmem => hsame ▸ hrequest (List.mem_cons_of_mem _ hmem)) hrest

end Reports

section Theorems

variable [DecidableEq Uuid]

-- What another request reports is the same without the failed one if and only if that
-- had nothing to observe, started after the other one, or was followed by a success
-- before the other one started.
theorem failure_traceless_iff (state : State Uuid) {failed next : Nat} (hne : next ≠ failed)
    {events : List (Event Uuid)} (hsucceed : .succeed failed ∉ events) {last : State Uuid}
    (hrun : run step state (.request failed :: events) = some last) :
    ∃ without, run step state (events.filter (· ≠ .fail failed)) = some without ∧
      (last.report next = without.report next ↔ state.workerMetrics.size = 0 ∨
        .request next ∉ events ∨
        ∃ event ∈ events.takeWhile (· ≠ .request next), event.clears = true) := by
  obtain ⟨first, hfirst, hrest⟩ := (run_cons_eq_some _ _ _ _ _).mp hrun
  have hshadow := (requested hfirst).shadow
  by_cases hlater : .request next ∈ events
  · -- the other request starts after the failed one
    obtain ⟨between, later, rfl, hbetween⟩ := List.eq_append_cons_of_mem hlater
    obtain ⟨middle, hmiddle, hmore⟩ := (run_append_eq_some _ _ _ _ _).mp hrest
    obtain ⟨started, hstarted, hlast⟩ := (run_cons_eq_some _ _ _ _ _).mp hmore
    obtain ⟨other, hother, hbefore⟩ :=
      hshadow.run (fun hmem => hsucceed (List.mem_append_left _ hmem)) hmiddle
    obtain ⟨other', hother', hafter, hmade, hmade', hiff⟩ := hbefore.report_iff hstarted
    obtain ⟨without, hwithout, _⟩ := hafter.run (fun hmem => hsucceed
      (List.mem_append_right _ (List.mem_cons_of_mem _ hmem))) hlast
    refine ⟨without, ?_, ?_⟩
    · rw [List.filter_append, List.filter_cons_of_pos (by simp)]
      exact (run_append_eq_some _ _ _ _ _).mpr
        ⟨other, hother, (run_cons_eq_some _ _ _ _ _).mpr ⟨other', hother', hwithout⟩⟩
    · have htake : (between ++ .request next :: later).takeWhile (· ≠ .request next) =
          between := by
        rw [List.takeWhile_append_of_pos fun event hevent => ?_, List.takeWhile_cons_of_neg
          (by simp), List.append_nil]
        simpa using fun heq : event = .request next => hbetween (heq ▸ hevent)
      rw [run_report (fun _ => hmade) hlast, run_report (fun _ => hmade') hwithout, hiff, htake,
        ← List.any_eq_true]
      cases between.any Event.clears <;> simp
  · -- it was there before
    obtain ⟨without, hwithout, _⟩ := hshadow.run hsucceed hrest
    refine ⟨without, hwithout, iff_of_true ?_ (Or.inr (Or.inl hlater))⟩
    have hkept : .request next ∉ .request failed :: events := by
      rw [List.mem_cons, Event.request.injEq]
      exact not_or.mpr ⟨hne, hlater⟩
    rw [run_report (fun hmem => absurd hmem hkept) hrun, run_report (fun hmem => ?_) hwithout]
    exact absurd (List.mem_of_mem_filter hmem) hlater

-- A failure before the first message, and a message before the next request.
theorem failure_traceless_first :
    ∃ last without : State String,
      run step .initial [.request 0, .fail 0, .bitrate "c0ffee" 8 16, .request 1] = some last ∧
      run step .initial [.bitrate "c0ffee" 8 16, .request 1] = some without ∧
      last.report 1 = without.report 1 := by
  have hsucceed : Event.succeed 0 ∉ [.fail 0, .bitrate "c0ffee" 8 16, .request 1] := by decide
  obtain ⟨without, hwithout, hiff⟩ := failure_traceless_iff (.initial : State String)
    (by decide : 1 ≠ 0) hsucceed (Option.some_get (by decide)).symm
  exact ⟨_, without, (Option.some_get (by decide)).symm, hwithout, hiff.mpr (by decide)⟩

-- A device with one sample, a request that fails, and one that succeeds: the device is
-- in the histogram twice.
theorem failure_observes_twice :
    ∃ state last without : State String,
      run step .initial [.bitrate "c0ffee" 8 16] = some state ∧
      run step state [.request 0, .fail 0, .request 1, .succeed 1] = some last ∧
      run step state [.request 1, .succeed 1] = some without ∧
      (last.report 1).map (·.1.count) = some 2 ∧ (without.report 1).map (·.1.count) = some 1 ∧
      last.report 1 ≠ without.report 1 := by
  refine ⟨_, _, _, (Option.some_get (by decide)).symm, (Option.some_get (by decide)).symm,
    (Option.some_get (by decide)).symm, by decide, by decide, fun heq => ?_⟩
  have hcount := congrArg (Option.map fun report => report.1.count) heq
  exact absurd hcount (by decide)

end Theorems

end OpenBalenaVpn.ClusterMetrics
