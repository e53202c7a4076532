import OpenBalenaVpn.ClusterMetrics
import OpenBalenaVpn.Foundation.Transition

namespace OpenBalenaVpn.ClusterMetrics

open Transition

def Fetches.Unfinished (state : Fetches) (fetch : Nat) : Prop := state.fetches[fetch]? = some none

-- The call awaits a fetch that is unfinished, or one that it starts.
def Joins (call fetch : Nat) (before : List FetchEvent) (event : FetchEvent) : Prop :=
  event = .call ∧ ∃ state next, run Fetches.step .initial before = some state ∧
    state.calls = call ∧ state.step .call = some next ∧ next.Unfinished fetch ∧
    (state.Unfinished fetch ∨ fetch = state.fetches.length)

section Phases

-- Whenever a request comes, no fetch is unfinished and the slot is empty, or the one in
-- the slot is and all calls on their way await it. A settled fetch may stay in the slot
-- only until the first of these calls resumes.
inductive Phase (state : Fetches) : Prop where
  | idle (hslot : state.inProgessClusterMetrics = none) (hwaiting : state.waiting = [])
      (hresuming : state.resuming = []) (hdone : ∀ fetch, ¬state.Unfinished fetch)
  | fetching (current : Nat) (hslot : state.inProgessClusterMetrics = some current)
      (hwaiting : state.waiting ≠ []) (hall : ∀ waiter ∈ state.waiting, waiter.fetch = current)
      (hresuming : state.resuming = []) (honly : ∀ fetch, state.Unfinished fetch ↔ fetch = current)
  | resuming (hwaiting : state.waiting = []) (hresuming : state.resuming ≠ [])
      (hdone : ∀ fetch, ¬state.Unfinished fetch)

theorem phase_initial : Phase .initial :=
  .idle rfl rfl rfl fun fetch hunfinished => by cases hunfinished

variable {state next : Fetches}

theorem Phase.at_most_one (h : Phase state) {fetch other : Nat}
    (hfetch : state.Unfinished fetch) (hother : state.Unfinished other) : fetch = other := by
  cases h with
  | idle _ _ _ hdone => exact absurd hfetch (hdone fetch)
  | fetching current _ _ _ _ honly =>
      exact ((honly fetch).mp hfetch).trans ((honly other).mp hother).symm
  | resuming _ _ hdone => exact absurd hfetch (hdone fetch)

theorem Phase.unfinished (h : Phase state) {waiter : Waiter} (hmem : waiter ∈ state.waiting) :
    state.Unfinished waiter.fetch := by
  cases h with
  | idle _ hwaiting _ _ => exact absurd (hwaiting ▸ hmem) List.not_mem_nil
  | fetching current _ _ hall _ honly => exact (honly _).mpr (hall waiter hmem)
  | resuming hwaiting _ _ => exact absurd (hwaiting ▸ hmem) List.not_mem_nil

-- A call either starts a fetch, as none is unfinished, or awaits the unfinished one.
theorem step_call (h : Phase state) (hs : state.step .call = some next) :
    (∀ fetch, ¬state.Unfinished fetch) ∧ state.waiting = [] ∧
        next = { state with
          inProgessClusterMetrics := some state.fetches.length
          fetches := state.fetches ++ [none]
          calls := state.calls + 1
          waiting := [⟨state.calls, state.fetches.length⟩] } ∨
      ∃ current, state.Unfinished current ∧
        next = { state with
          calls := state.calls + 1
          waiting := state.waiting ++ [⟨state.calls, current⟩] } := by
  simp only [Fetches.step] at hs
  split at hs
  · rename_i hnone
    obtain rfl := Option.some.inj hs
    cases h with
    | idle hslot hwaiting _ hdone =>
        refine Or.inl ⟨hdone, hwaiting, ?_⟩
        simp [Fetches.fetch, Fetches.await, hslot, hwaiting]
    | fetching current hslot _ _ _ honly =>
        have hcurrent : state.fetches[current]? = some none := (honly current).mpr rfl
        refine Or.inr ⟨current, hcurrent, ?_⟩
        simp [Fetches.fetch, Fetches.await, hslot, hcurrent]
    | resuming _ hresuming _ => exact absurd hnone hresuming
  · cases hs

theorem step_settle {fetch : Nat} {outcome : Outcome}
    (hs : state.step (.settle fetch outcome) = some next) :
    state.Unfinished fetch ∧ next = { state with
      fetches := state.fetches.set fetch (some outcome)
      waiting := state.waiting.filter (·.fetch ≠ fetch)
      resuming := state.resuming ++ (state.waiting.filter (·.fetch = fetch)).map
        fun waiter => ⟨waiter.call, fetch, outcome⟩ } := by
  simp only [Fetches.step] at hs
  split at hs
  · exact ⟨‹_›, (Option.some.inj hs).symm⟩
  · cases hs

-- All calls on their way await the fetch that settles.
theorem Phase.settled (h : Phase state) {fetch : Nat} {outcome : Outcome}
    (hs : state.step (.settle fetch outcome) = some next) :
    next = { state with
      fetches := state.fetches.set fetch (some outcome)
      waiting := []
      resuming := state.waiting.map fun waiter => ⟨waiter.call, fetch, outcome⟩ } := by
  obtain ⟨hunfinished, rfl⟩ := step_settle hs
  cases h with
  | idle _ _ _ hdone => exact absurd hunfinished (hdone fetch)
  | fetching current _ _ hall hresuming honly =>
      obtain rfl := (honly fetch).mp hunfinished
      have hnone : state.waiting.filter (·.fetch ≠ fetch) = [] :=
        List.filter_eq_nil_iff.mpr fun waiter hmem => by simp [hall waiter hmem]
      have hevery : state.waiting.filter (·.fetch = fetch) = state.waiting :=
        List.filter_eq_self.mpr fun waiter hmem => by simp [hall waiter hmem]
      rw [hnone, hevery, hresuming, List.nil_append]
  | resuming _ _ hdone => exact absurd hunfinished (hdone fetch)

theorem step_resume (hs : state.step .resume = some next) :
    ∃ first rest, state.resuming = first :: rest ∧ next = { state with
      inProgessClusterMetrics := none
      resuming := rest
      results := state.results ++ [first] } := by
  simp only [Fetches.step] at hs
  split at hs
  · cases hs
  · exact ⟨_, _, ‹_›, (Option.some.inj hs).symm⟩

theorem step_giveUp {call : Nat} (hs : state.step (.giveUp call) = some next) :
    next = { state with gaveUp := state.gaveUp ++ [call] } := by
  simp only [Fetches.step] at hs
  split at hs
  · exact (Option.some.inj hs).symm
  · cases hs

theorem unfinished_append {fetch : Nat} (fetches : List (Option Outcome)) :
    (fetches ++ [none])[fetch]? = some none ↔ fetches[fetch]? = some none ∨
      fetch = fetches.length := by
  rw [List.getElem?_append]
  split <;> grind

theorem Phase.step (h : Phase state) {event : FetchEvent} (hs : state.step event = some next) :
    Phase next := by
  cases event with
  | call =>
      have hresuming : state.resuming = [] := by
        by_contra hne
        simp [Fetches.step, hne] at hs
      rcases step_call h hs with ⟨hdone, hwaiting, rfl⟩ | ⟨current, hcurrent, rfl⟩
      · refine .fetching state.fetches.length rfl (by simp) (by simp) hresuming fun fetch => ?_
        exact (unfinished_append _).trans (or_iff_right (hdone fetch))
      · cases h with
        | idle _ _ _ hdone => exact absurd hcurrent (hdone current)
        | fetching fetch hslot _ hall _ honly =>
            obtain rfl := (honly current).mp hcurrent
            refine .fetching current hslot (by simp) (fun waiter hmem => ?_) hresuming honly
            rcases List.mem_append.mp hmem with hold | hnew
            · exact hall waiter hold
            · rw [List.mem_singleton.mp hnew]
        | resuming _ hne _ => exact absurd hresuming hne
  | settle fetch outcome =>
      obtain ⟨hunfinished, _⟩ := step_settle hs
      obtain rfl := h.settled hs
      cases h with
      | idle _ _ _ hdone => exact absurd hunfinished (hdone fetch)
      | fetching current _ hwaiting _ _ honly =>
          refine .resuming rfl (by simpa using hwaiting) fun other hother => ?_
          obtain rfl := (honly fetch).mp hunfinished
          have hne : fetch ≠ other := by
            rintro rfl
            simp [Fetches.Unfinished, List.getElem?_set] at hother
          simp only [Fetches.Unfinished, List.getElem?_set_ne hne] at hother
          exact hne ((honly other).mp hother).symm
      | resuming _ _ hdone => exact absurd hunfinished (hdone fetch)
  | resume =>
      obtain ⟨first, rest, heq, rfl⟩ := step_resume hs
      cases h with
      | idle _ _ hresuming _ => simp [hresuming] at heq
      | fetching _ _ _ _ hresuming _ => simp [hresuming] at heq
      | resuming hwaiting _ hdone =>
          by_cases hrest : rest = []
          · exact .idle rfl hwaiting hrest hdone
          · exact .resuming hwaiting hrest hdone
  | giveUp call =>
      obtain rfl := step_giveUp hs
      cases h with
      | idle hslot hwaiting hresuming hdone => exact .idle hslot hwaiting hresuming hdone
      | fetching current hslot hwaiting hall hresuming honly =>
          exact .fetching current hslot hwaiting hall hresuming honly
      | resuming hwaiting hresuming hdone => exact .resuming hwaiting hresuming hdone

end Phases

section Calls

-- The calls get through in the order in which they came. Each one on its way, and each
-- result, is that of a fetch that the call has joined.
structure Coalesced (events : List FetchEvent) (state : Fetches) : Prop where
  phase : Phase state
  calls : (state.results ++ state.resuming).map (·.call) ++ state.waiting.map (·.call) =
    List.range state.calls
  waiting : ∀ waiter ∈ state.waiting, Sometime (Joins waiter.call waiter.fetch) events
  resumed : ∀ resumed ∈ state.results ++ state.resuming,
    state.fetches[resumed.fetch]? = some (some resumed.outcome) ∧
      Sometime (Joins resumed.call resumed.fetch) events

theorem coalesced_initial : Coalesced [] .initial :=
  ⟨phase_initial, rfl, by simp [Fetches.initial], by simp [Fetches.initial]⟩

theorem sometime_joins {call fetch : Nat} {events : List FetchEvent} (event : FetchEvent)
    (h : Sometime (Joins call fetch) events) : Sometime (Joins call fetch) (events ++ [event]) :=
  (sometime_concat _ events event).mpr (Or.inl h)

variable {events : List FetchEvent} {state next : Fetches}

theorem Coalesced.call (h : Coalesced events state)
    (hrun : run Fetches.step .initial events = some state) (hs : state.step .call = some next) :
    Coalesced (events ++ [.call]) next := by
  have hphase := h.phase.step hs
  have hjoins : ∀ fetch, next.Unfinished fetch →
      (state.Unfinished fetch ∨ fetch = state.fetches.length) →
      Sometime (Joins state.calls fetch) (events ++ [.call]) := fun fetch hafter hbefore =>
    (sometime_concat _ events _).mpr
      (Or.inr ⟨rfl, state, next, hrun, rfl, hs, hafter, hbefore⟩)
  rcases step_call h.phase hs with ⟨hdone, hwaiting, rfl⟩ | ⟨current, hcurrent, rfl⟩
  · have hnew := (unfinished_append state.fetches).mpr (Or.inr rfl)
    refine ⟨hphase, ?_, fun waiter hmem => ?_, fun resumed hmem => ?_⟩
    · have hcalls := h.calls
      rw [hwaiting, List.map_nil, List.append_nil] at hcalls
      simp only [hcalls, List.map_cons, List.map_nil, List.range_succ]
    · obtain rfl := List.mem_singleton.mp hmem
      exact hjoins _ hnew (Or.inr rfl)
    · obtain ⟨houtcome, hjoined⟩ := h.resumed resumed hmem
      exact ⟨List.getElem?_append_left (List.getElem?_eq_some_iff.mp houtcome).1 ▸ houtcome,
        sometime_joins _ hjoined⟩
  · refine ⟨hphase, ?_, fun waiter hmem => ?_, fun resumed hmem => ?_⟩
    · simp only [List.map_append, List.map_cons, List.map_nil, List.range_succ, ← h.calls,
        List.append_assoc]
    · rcases List.mem_append.mp hmem with hold | hnew
      · exact sometime_joins _ (h.waiting waiter hold)
      · obtain rfl := List.mem_singleton.mp hnew
        exact hjoins _ hcurrent (Or.inl hcurrent)
    · exact ⟨(h.resumed resumed hmem).1, sometime_joins _ (h.resumed resumed hmem).2⟩

theorem Coalesced.settle (h : Coalesced events state) {fetch : Nat} {outcome : Outcome}
    (hs : state.step (.settle fetch outcome) = some next) :
    Coalesced (events ++ [.settle fetch outcome]) next := by
  have hphase := h.phase.step hs
  obtain ⟨hunfinished, _⟩ := step_settle hs
  obtain rfl := h.phase.settled hs
  have hresuming : state.resuming = [] := by
    cases h.phase with
    | idle _ _ hresuming _ => exact hresuming
    | fetching _ _ _ _ hresuming _ => exact hresuming
    | resuming _ _ hdone => exact absurd hunfinished (hdone fetch)
  refine ⟨hphase, ?_, by simp, fun resumed hmem => ?_⟩
  · rw [← h.calls, hresuming]
    simp
  · rcases List.mem_append.mp hmem with hold | hnew
    · obtain ⟨houtcome, hjoined⟩ := h.resumed resumed (List.mem_append_left _ hold)
      have hne : fetch ≠ resumed.fetch := by
        intro heq
        rw [← heq, hunfinished] at houtcome
        simp at houtcome
      exact ⟨(List.getElem?_set_ne hne).trans houtcome, sometime_joins _ hjoined⟩
    · obtain ⟨waiter, hwaiter, rfl⟩ := List.mem_map.mp hnew
      obtain rfl := h.phase.at_most_one (h.phase.unfinished hwaiter) hunfinished
      exact ⟨List.getElem?_set_self (List.getElem?_eq_some_iff.mp hunfinished).1,
        sometime_joins _ (h.waiting waiter hwaiter)⟩

theorem Coalesced.step (h : Coalesced events state)
    (hrun : run Fetches.step .initial events = some state) {event : FetchEvent}
    (hs : state.step event = some next) : Coalesced (events ++ [event]) next := by
  cases event with
  | call => exact h.call hrun hs
  | settle fetch outcome => exact h.settle hs
  | resume =>
      have hphase := h.phase.step hs
      obtain ⟨first, rest, heq, rfl⟩ := step_resume hs
      have hsplit : state.results ++ state.resuming = (state.results ++ [first]) ++ rest := by
        rw [heq, List.append_assoc, List.singleton_append]
      refine ⟨hphase, hsplit ▸ h.calls, fun waiter hmem => sometime_joins _ (h.waiting _ hmem),
        fun resumed hmem => ?_⟩
      obtain ⟨houtcome, hjoined⟩ := h.resumed resumed (hsplit ▸ hmem)
      exact ⟨houtcome, sometime_joins _ hjoined⟩
  | giveUp call =>
      have hphase := h.phase.step hs
      obtain rfl := step_giveUp hs
      exact ⟨hphase, h.calls, fun waiter hmem => sometime_joins _ (h.waiting waiter hmem),
        fun resumed hmem =>
          ⟨(h.resumed resumed hmem).1, sometime_joins _ (h.resumed resumed hmem).2⟩⟩

theorem coalesced_run (hrun : run Fetches.step .initial events = some state) :
    Coalesced events state :=
  run_history coalesced_initial (fun _ _ _ _ hrun h hs => h.step hrun hs) hrun

end Calls

section Theorems

-- No two fetches are unfinished at once, and every call awaits the unfinished one, is
-- about to resume, or has its result: that of the fetch that it has joined.
theorem getClusterMetrics_coalesces {events : List FetchEvent} {last : Fetches}
    (hrun : run Fetches.step .initial events = some last) :
    (∀ fetch other, last.Unfinished fetch → last.Unfinished other → fetch = other) ∧
    (last.results ++ last.resuming).map (·.call) ++ last.waiting.map (·.call) =
      List.range last.calls ∧
    (∀ waiter ∈ last.waiting, last.Unfinished waiter.fetch ∧
      Sometime (Joins waiter.call waiter.fetch) events) ∧
    ∀ resumed ∈ last.results ++ last.resuming,
      last.fetches[resumed.fetch]? = some (some resumed.outcome) ∧
        Sometime (Joins resumed.call resumed.fetch) events := by
  have h := coalesced_run hrun
  exact ⟨fun _ _ hfetch hother => h.phase.at_most_one hfetch hother, h.calls,
    fun waiter hmem => ⟨h.phase.unfinished hmem, h.waiting waiter hmem⟩, h.resumed⟩

-- Two calls share a fetch, also when one gives up, and the third starts the next one.
theorem getClusterMetrics_coalesces_twice :
    ∃ last, run Fetches.step .initial [.call, .giveUp 0, .call, .settle 0 (.ok "up 1"), .resume,
        .resume, .call] = some last ∧
      last.results = [⟨0, 0, .ok "up 1"⟩, ⟨1, 0, .ok "up 1"⟩] ∧ last.waiting = [⟨2, 1⟩] ∧
      ∀ fetch, last.Unfinished fetch → fetch = 1 := by
  have hrun : run Fetches.step .initial [.call, .giveUp 0, .call, .settle 0 (.ok "up 1"), .resume,
      .resume, .call] = some ⟨some 1, [some (.ok "up 1"), none], 3, [⟨2, 1⟩], [],
        [⟨0, 0, .ok "up 1"⟩, ⟨1, 0, .ok "up 1"⟩], [0]⟩ := rfl
  obtain ⟨hone, _, hwaiting, _⟩ := getClusterMetrics_coalesces hrun
  refine ⟨_, hrun, rfl, rfl, fun fetch hfetch => ?_⟩
  exact hone fetch 1 hfetch (hwaiting ⟨2, 1⟩ List.mem_cons_self).1

end Theorems

end OpenBalenaVpn.ClusterMetrics
