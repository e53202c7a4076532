import Mathlib.Algebra.GroupWithZero.Nat
import Mathlib.Data.List.Induction
import Mathlib.Data.Option.Basic
import Mathlib.Logic.Function.Basic

namespace OpenBalenaVpn.Transition

section Runs

variable {σ ε : Type*}

-- A run handles its events one after another. It is none as soon as an event
-- is not enabled in the state it meets.
def run (step : σ → ε → Option σ) : σ → List ε → Option σ
  | state, [] => some state
  | state, event :: events => (step state event).bind fun next => run step next events

@[simp] theorem run_nil (step : σ → ε → Option σ) (state : σ) :
    run step state [] = some state := rfl

@[simp] theorem run_singleton (step : σ → ε → Option σ) (state : σ) (event : ε) :
    run step state [event] = step state event := by
  cases h : step state event <;> simp [run, h]

theorem run_cons_eq_some (step : σ → ε → Option σ) (state last : σ) (event : ε)
    (events : List ε) :
    run step state (event :: events) = some last ↔
      ∃ next, step state event = some next ∧ run step next events = some last :=
  Option.bind_eq_some_iff

theorem run_append (step : σ → ε → Option σ) (state : σ) (events later : List ε) :
    run step state (events ++ later) =
      (run step state events).bind fun next => run step next later := by
  induction events generalizing state with
  | nil => rfl
  | cons event events ih =>
      simp only [List.cons_append, run, Option.bind_assoc]
      congr 1
      funext next
      exact ih next

theorem run_append_eq_some (step : σ → ε → Option σ) (state last : σ) (events later : List ε) :
    run step state (events ++ later) = some last ↔
      ∃ middle, run step state events = some middle ∧ run step middle later = some last := by
  rw [run_append]
  exact Option.bind_eq_some_iff

theorem run_concat_eq_some (step : σ → ε → Option σ) (state last : σ) (events : List ε)
    (event : ε) :
    run step state (events ++ [event]) = some last ↔
      ∃ middle, run step state events = some middle ∧ step middle event = some last := by
  simp only [run_append_eq_some, run_cons_eq_some, run_nil, Option.some.injEq, exists_eq_right]

end Runs

section Invariants

variable {σ ε : Type*} {step : σ → ε → Option σ}

-- The rule for a property of the events handled so far together with the state
-- they led to. A history is extended at its end, as the system extends it.
theorem run_history {motive : List ε → σ → Prop} {initial : σ} (hinit : motive [] initial)
    (hstep : ∀ events state event next, run step initial events = some state →
      motive events state → step state event = some next → motive (events ++ [event]) next)
    {events : List ε} {last : σ} (hrun : run step initial events = some last) :
    motive events last := by
  induction events using List.reverseRecOn generalizing last with
  | nil =>
      obtain rfl : initial = last := Option.some.inj hrun
      exact hinit
  | append_singleton events event ih =>
      obtain ⟨middle, hm, hs⟩ := (run_concat_eq_some step initial last events event).mp hrun
      exact hstep events middle event last hm (ih hm) hs

theorem run_invariant {inv : σ → Prop}
    (hstep : ∀ state event next, inv state → step state event = some next → inv next)
    {state last : σ} {events : List ε} (hinv : inv state)
    (hrun : run step state events = some last) : inv last :=
  run_history (motive := fun _ => inv) hinv
    (fun _ middle event next _ hm hs => hstep middle event next hm hs) hrun

-- Every step of the run is taken from a state that meets the condition.
def StepsMeet (step : σ → ε → Option σ) (condition : σ → ε → Prop) : σ → List ε → Prop
  | _, [] => True
  | state, event :: events => condition state event ∧
      ∀ next, step state event = some next → StepsMeet step condition next events

instance decidableStepsMeet {condition : σ → ε → Prop}
    [∀ state event, Decidable (condition state event)] :
    (state : σ) → (events : List ε) → Decidable (StepsMeet step condition state events)
  | _, [] => isTrue trivial
  | state, event :: events =>
      have : ∀ next, Decidable (StepsMeet step condition next events) :=
        fun next => decidableStepsMeet next events
      inferInstanceAs (Decidable (condition state event ∧
        ∀ next ∈ step state event, StepsMeet step condition next events))

-- Every state that the run passes through, the first and the last included.
def Throughout (step : σ → ε → Option σ) (property : σ → Prop) : σ → List ε → Prop
  | state, [] => property state
  | state, event :: events => property state ∧
      ∀ next, step state event = some next → Throughout step property next events

theorem Throughout.first {property : σ → Prop} {state : σ} {events : List ε}
    (h : Throughout step property state events) : property state := by
  cases events with
  | nil => exact h
  | cons event events => exact h.1

theorem Throughout.last {property : σ → Prop} {state last : σ} {events : List ε}
    (h : Throughout step property state events) (hrun : run step state events = some last) :
    property last := by
  induction events generalizing state with
  | nil => exact Option.some.inj hrun ▸ h
  | cons event events ih =>
      obtain ⟨next, hs, hrest⟩ := (run_cons_eq_some step state last event events).mp hrun
      exact ih (h.2 next hs) hrest

-- The rule for a property that one step keeps only when it is taken under the
-- condition. The invariant needs no condition.
theorem throughout_of_stepsMeet {inv property : σ → Prop} {condition : σ → ε → Prop}
    (hinv : ∀ state event next, inv state → step state event = some next → inv next)
    (hkeep : ∀ state event next, inv state → property state → condition state event →
      step state event = some next → property next)
    {state : σ} {events : List ε} (hi : inv state) (hp : property state)
    (hc : StepsMeet step condition state events) : Throughout step property state events := by
  induction events generalizing state with
  | nil => exact hp
  | cons event events ih =>
      refine ⟨hp, fun next hs => ?_⟩
      exact ih (hinv state event next hi hs) (hkeep state event next hi hp hc.1 hs) (hc.2 next hs)

theorem throughout_of_keeps {property : σ → Prop} {condition : σ → ε → Prop}
    (hkeep : ∀ state event next, property state → condition state event →
      step state event = some next → property next)
    {state : σ} {events : List ε} (hp : property state)
    (hc : StepsMeet step condition state events) : Throughout step property state events :=
  throughout_of_stepsMeet (fun _ _ _ (_ : True) _ => trivial)
    (fun state event next _ => hkeep state event next) trivial hp hc

theorem Throughout.imp {property weaker : σ → Prop}
    (himp : ∀ state, property state → weaker state) {state : σ} {events : List ε}
    (h : Throughout step property state events) : Throughout step weaker state events := by
  induction events generalizing state with
  | nil => exact himp state h
  | cons event events ih => exact ⟨himp state h.1, fun next hs => ih (h.2 next hs)⟩

-- A condition may use what holds in every state of the run.
theorem StepsMeet.imp {inv : σ → Prop} {condition weaker : σ → ε → Prop}
    (hinv : ∀ state event next, inv state → step state event = some next → inv next)
    (himp : ∀ state event, inv state → condition state event → weaker state event)
    {state : σ} {events : List ε} (hi : inv state)
    (h : StepsMeet step condition state events) : StepsMeet step weaker state events := by
  induction events generalizing state with
  | nil => trivial
  | cons event events ih =>
      exact ⟨himp state event hi h.1, fun next hs =>
        ih (hinv state event next hi hs) (h.2 next hs)⟩

-- A condition on the events alone holds of each step of the run.
theorem StepsMeet.and_forall {condition : σ → ε → Prop} {quiet : ε → Prop} {state : σ}
    {events : List ε} (h : StepsMeet step condition state events)
    (hquiet : ∀ event ∈ events, quiet event) :
    StepsMeet step (fun state event => condition state event ∧ quiet event) state events := by
  induction events generalizing state with
  | nil => trivial
  | cons event events ih =>
      exact ⟨⟨h.1, hquiet event List.mem_cons_self⟩, fun next hs =>
        ih (h.2 next hs) fun other ho => hquiet other (List.mem_cons_of_mem event ho)⟩

-- Two machines that do the same on the events of a run.
theorem run_congr {other : σ → ε → Option σ} {state : σ} {events : List ε}
    (h : ∀ event ∈ events, ∀ state, step state event = other state event) :
    run step state events = run other state events := by
  induction events generalizing state with
  | nil => rfl
  | cons event events ih =>
      obtain ⟨hevent, hrest⟩ := List.forall_mem_cons.mp h
      rw [run, run, hevent]
      exact Option.bind_congr fun next _ => ih hrest

theorem stepsMeet_congr {other : σ → ε → Option σ} {condition : σ → ε → Prop} {state : σ}
    {events : List ε} (h : ∀ event ∈ events, ∀ state, step state event = other state event) :
    StepsMeet step condition state events ↔ StepsMeet other condition state events := by
  induction events generalizing state with
  | nil => rfl
  | cons event events ih =>
      obtain ⟨hevent, hrest⟩ := List.forall_mem_cons.mp h
      simp only [StepsMeet, hevent, ih hrest]

-- A machine whose events are those of another one under other names.
theorem throughout_map {κ : Type*} (rename : κ → ε) {property : σ → Prop} {state : σ}
    {events : List κ} (h : Throughout step property state (events.map rename)) :
    Throughout (fun state event => step state (rename event)) property state events := by
  induction events generalizing state with
  | nil => exact h
  | cons event events ih => exact ⟨h.1, fun next hs => ih (h.2 next hs)⟩

theorem stepsMeet_map {κ : Type*} (rename : κ → ε) {condition : σ → κ → Prop}
    {renamed : σ → ε → Prop} (himp : ∀ state event, condition state event →
      renamed state (rename event)) {state : σ} {events : List κ}
    (h : StepsMeet (fun state event => step state (rename event)) condition state events) :
    StepsMeet step renamed state (events.map rename) := by
  induction events generalizing state with
  | nil => trivial
  | cons event events ih => exact ⟨himp state event h.1, fun next hs => ih (h.2 next hs)⟩

-- The converse rule: a step taken against the condition breaks the property.
theorem stepsMeet_of_throughout {inv property : σ → Prop} {condition : σ → ε → Prop}
    (hinv : ∀ state event next, inv state → step state event = some next → inv next)
    (hbreak : ∀ state event next, inv state → property state → step state event = some next →
      property next → condition state event)
    {state last : σ} {events : List ε} (hi : inv state)
    (hrun : run step state events = some last)
    (hp : Throughout step property state events) : StepsMeet step condition state events := by
  induction events generalizing state with
  | nil => trivial
  | cons event events ih =>
      obtain ⟨next, hs, hrest⟩ := (run_cons_eq_some step state last event events).mp hrun
      have hn := hp.2 next hs
      refine ⟨hbreak state event next hi hp.1 hs hn.first, fun other ho => ?_⟩
      obtain rfl : next = other := Option.some.inj (hs.symm.trans ho)
      exact ih (hinv state event next hi hs) hrest hn

-- What no event of the run can restore has held from the start if it holds at the end.
theorem throughout_of_last {inv property : σ → Prop} {quiet : ε → Prop}
    (hinv : ∀ state event next, inv state → step state event = some next → inv next)
    (hback : ∀ state event next, inv state → quiet event → step state event = some next →
      property next → property state)
    {state last : σ} {events : List ε} (hquiet : ∀ event ∈ events, quiet event)
    (hi : inv state) (hrun : run step state events = some last) (hp : property last) :
    Throughout step property state events := by
  induction events generalizing state with
  | nil =>
      obtain rfl : state = last := Option.some.inj hrun
      exact hp
  | cons event events ih =>
      obtain ⟨next, hs, hrest⟩ := (run_cons_eq_some step state last event events).mp hrun
      have hlater := ih (fun other ho => hquiet other (List.mem_cons_of_mem event ho))
        (hinv state event next hi hs) hrest
      have hfirst := hquiet event List.mem_cons_self
      refine ⟨hback state event next hi hfirst hs hlater.first, fun other ho => ?_⟩
      obtain rfl : next = other := Option.some.inj (hs.symm.trans ho)
      exact hlater

end Invariants

section Simulation

variable {σ ρ ε κ : Type*} (step : κ → σ → ε → Option σ) (related : σ → ρ → Prop)

-- The rule for a machine that follows a total one. The machines of a family that take
-- the same steps reach the same state.
theorem run_simulates {next : ρ → ε → ρ}
    (hstep : ∀ state abstract event, related state abstract →
      ∃ state', (∀ index, step index state event = some state') ∧
        related state' (next abstract event))
    {state : σ} {abstract : ρ} (h : related state abstract) (events : List ε) :
    ∃ last, (∀ index, run (step index) state events = some last) ∧
      related last (events.foldl next abstract) := by
  induction events generalizing state abstract with
  | nil => exact ⟨state, fun _ => rfl, h⟩
  | cons event events ih =>
      obtain ⟨middle, hs, hm⟩ := hstep state abstract event h
      obtain ⟨last, hr, hl⟩ := ih hm
      refine ⟨last, fun index => ?_, hl⟩
      rw [run, hs index]
      exact hr index

-- The rule for a machine that a more abstract one explains: each of its steps is a run of
-- that one, from a related state to a related state.
theorem run_refines {step : σ → ε → Option σ} {abstractly : ρ → κ → Option ρ}
    {related : σ → ρ → Prop} {condition : ε → Prop}
    (hstep : ∀ state abstract event next, related state abstract → condition event →
      step state event = some next → ∃ labels abstract',
        run abstractly abstract labels = some abstract' ∧ related next abstract')
    {state last : σ} {abstract : ρ} {events : List ε} (h : related state abstract)
    (hmeet : ∀ event ∈ events, condition event) (hrun : run step state events = some last) :
    ∃ labels abstract', run abstractly abstract labels = some abstract' ∧
      related last abstract' := by
  induction events generalizing state abstract with
  | nil =>
      obtain rfl : state = last := Option.some.inj hrun
      exact ⟨[], abstract, rfl, h⟩
  | cons event events ih =>
      obtain ⟨next, hs, hrest⟩ := (run_cons_eq_some step state last event events).mp hrun
      obtain ⟨labels, middle, hm, hrelated⟩ :=
        hstep state abstract event next h (hmeet event List.mem_cons_self) hs
      obtain ⟨later, abstract', hl, hlast⟩ :=
        ih hrelated (fun event he => hmeet event (List.mem_cons_of_mem _ he)) hrest
      exact ⟨labels ++ later, abstract',
        (run_append_eq_some abstractly abstract abstract' labels later).mpr ⟨middle, hm, hl⟩,
        hlast⟩

end Simulation

section Rank

variable {σ ε : Type*} {step : σ → ε → Option σ}

-- An invariant that also speaks of the events to come.
theorem run_ahead {inv : List ε → σ → Prop}
    (hinv : ∀ state event events next, inv (event :: events) state →
      step state event = some next → inv events next)
    {state last : σ} {events : List ε} (hi : inv events state)
    (hrun : run step state events = some last) : inv [] last := by
  induction events generalizing state with
  | nil => exact Option.some.inj hrun ▸ hi
  | cons event events ih =>
      obtain ⟨next, hs, hrest⟩ := (run_cons_eq_some step state last event events).mp hrun
      exact ih (hinv state event events next hi hs) hrest

-- The rule for a rank that each step lowers, up to what its event adds: a run is no longer
-- than the rank it started with and what its events added to it. The invariant may bound
-- what the events to come can do.
theorem length_add_rank_le_of_ahead {inv : List ε → σ → Prop} {rank : σ → Nat} {cost : ε → Nat}
    (hinv : ∀ state event events next, inv (event :: events) state →
      step state event = some next → inv events next)
    (hrank : ∀ state event events next, inv (event :: events) state →
      step state event = some next → rank next + 1 ≤ rank state + cost event)
    {state last : σ} {events : List ε} (hi : inv events state)
    (hrun : run step state events = some last) :
    events.length + rank last ≤ rank state + (events.map cost).sum := by
  induction events generalizing state with
  | nil =>
      obtain rfl : state = last := Option.some.inj hrun
      simp
  | cons event events ih =>
      obtain ⟨next, hs, hrest⟩ := (run_cons_eq_some step state last event events).mp hrun
      have hone := hrank state event events next hi hs
      have hlater := ih (hinv state event events next hi hs) hrest
      simp only [List.length_cons, List.map_cons, List.sum_cons]
      omega

theorem length_add_rank_le {inv : σ → Prop} {rank : σ → Nat} {cost : ε → Nat}
    (hinv : ∀ state event next, inv state → step state event = some next → inv next)
    (hrank : ∀ state event next, inv state → step state event = some next →
      rank next + 1 ≤ rank state + cost event)
    {state last : σ} {events : List ε} (hi : inv state)
    (hrun : run step state events = some last) :
    events.length + rank last ≤ rank state + (events.map cost).sum := by
  have hall := @length_add_rank_le_of_ahead σ ε step (fun _ => inv) rank cost
  exact hall (fun state event _ => hinv state event) (fun state event _ => hrank state event) hi
    hrun

-- A machine whose turns each lower a rank comes to rest if it is left to them.
theorem exists_run_to_rest {inv : σ → Prop} {turns : ε → Prop} {rank : σ → Nat}
    (hinv : ∀ state event next, inv state → turns event → step state event = some next → inv next)
    (hrank : ∀ state event next, inv state → turns event → step state event = some next →
      rank next < rank state) (state : σ) (hi : inv state) :
    ∃ events last, (∀ event ∈ events, turns event) ∧ run step state events = some last ∧
      (∀ event, turns event → step last event = none) ∧ events.length ≤ rank state := by
  induction hr : rank state using Nat.strongRecOn generalizing state with
  | ind left ih =>
      by_cases hrest : ∀ event, turns event → step state event = none
      · exact ⟨[], state, nofun, rfl, hrest, Nat.zero_le _⟩
      · push Not at hrest
        obtain ⟨event, hturn, hsome⟩ := hrest
        obtain ⟨next, hs⟩ := Option.ne_none_iff_exists'.mp hsome
        have hlower := hrank state event next hi hturn hs
        obtain ⟨events, last, hturns, hrun, hlast, hlength⟩ :=
          ih (rank next) (hr ▸ hlower) next (hinv state event next hi hturn hs) rfl
        refine ⟨event :: events, last, ?_, ?_, hlast, ?_⟩
        · exact List.forall_mem_cons.mpr ⟨hturn, hturns⟩
        · exact (run_cons_eq_some step state last event events).mpr ⟨next, hs, hrun⟩
        · rw [List.length_cons]
          omega

end Rank

section Loops

variable {α : Type*} (loop : Nat → Nat → Option α) {exit : Nat → Option α}

-- A loop with fuel that counts its rounds up ends in the first round with an exit.
theorem loop_eq_of_first
    (hloop : ∀ fuel round, loop (fuel + 1) round = (exit round).or (loop fuel (round + 1)))
    {last : Nat} {result : α} (hlast : exit last = some result) {round : Nat}
    (hround : round ≤ last) (hfirst : ∀ other, round ≤ other → other < last → exit other = none)
    {fuel : Nat} (hfuel : last < round + fuel) : loop fuel round = some result := by
  induction fuel generalizing round with
  | zero => omega
  | succ fuel ih =>
      rw [hloop]
      by_cases heq : round = last
      · rw [heq, hlast, Option.some_or]
      · rw [hfirst round (Nat.le_refl _) (by omega), Option.none_or]
        exact ih (by omega) (fun other ho hlt => hfirst other (by omega) hlt) (by omega)

-- Without an exit it uses up any fuel.
theorem loop_eq_none
    (hloop : ∀ fuel round, loop (fuel + 1) round = (exit round).or (loop fuel (round + 1)))
    (hzero : ∀ round, loop 0 round = none) {round : Nat}
    (hnever : ∀ other, round ≤ other → exit other = none) (fuel : Nat) :
    loop fuel round = none := by
  induction fuel generalizing round with
  | zero => exact hzero round
  | succ fuel ih =>
      rw [hloop, hnever round (Nat.le_refl _), Option.none_or]
      exact ih fun other ho => hnever other (by omega)

end Loops

section History

variable {ε : Type*}

-- At some point of the history an event came that has the property, given the
-- events before it.
def Sometime (property : List ε → ε → Prop) (events : List ε) : Prop :=
  ∃ before event later, events = before ++ event :: later ∧ property before event

theorem not_sometime_nil (property : List ε → ε → Prop) : ¬Sometime property [] := by
  rintro ⟨before, event, later, h, _⟩
  simp at h

theorem sometime_concat (property : List ε → ε → Prop) (events : List ε) (event : ε) :
    Sometime property (events ++ [event]) ↔ Sometime property events ∨ property events event := by
  constructor
  · rintro ⟨before, first, later, h, hp⟩
    rcases List.eq_nil_or_concat later with rfl | ⟨later, last, rfl⟩
    · obtain ⟨rfl, hlast⟩ := List.append_inj' h rfl
      obtain rfl : event = first := List.singleton_inj.mp hlast
      exact Or.inr hp
    · have hsplit : events ++ [event] = (before ++ first :: later) ++ [last] := by simp [h]
      obtain ⟨rfl, _⟩ := List.append_inj' hsplit rfl
      exact Or.inl ⟨before, first, later, rfl, hp⟩
  · rintro (⟨before, first, later, rfl, hp⟩ | hp)
    · exact ⟨before, first, later ++ [event], by simp, hp⟩
    · exact ⟨events, event, [], rfl, hp⟩

-- At every point of the history.
def Always (property : List ε → ε → Prop) (events : List ε) : Prop :=
  ∀ before event later, events = before ++ event :: later → property before event

theorem always_iff_not_sometime (property : List ε → ε → Prop) (events : List ε) :
    Always property events ↔ ¬Sometime (fun before event => ¬property before event) events := by
  constructor
  · rintro h ⟨before, event, later, heq, hnot⟩
    exact hnot (h before event later heq)
  · intro h before event later heq
    by_contra hnot
    exact h ⟨before, event, later, heq, hnot⟩

theorem always_nil (property : List ε → ε → Prop) : Always property [] :=
  (always_iff_not_sometime property []).mpr (not_sometime_nil _)

theorem always_concat (property : List ε → ε → Prop) (events : List ε) (event : ε) :
    Always property (events ++ [event]) ↔ Always property events ∧ property events event := by
  rw [always_iff_not_sometime, always_iff_not_sometime, sometime_concat, not_or, not_not]

-- The rule for a property of each point that is the same as a condition on it, as long
-- as the condition was met before.
theorem always_iff_always {inv : List ε → Prop} {property condition : List ε → ε → Prop}
    (hinit : inv [])
    (hstep : ∀ events event, inv events → condition events event → inv (events ++ [event]))
    (hiff : ∀ events event, inv events → (property events event ↔ condition events event))
    (events : List ε) : Always property events ↔ Always condition events := by
  have hinv : ∀ events, Always condition events → inv events := by
    intro events
    induction events using List.reverseRecOn with
    | nil => exact fun _ => hinit
    | append_singleton events event ih =>
        intro h
        obtain ⟨hall, hlast⟩ := (always_concat condition events event).mp h
        exact hstep events event (ih hall) hlast
  induction events using List.reverseRecOn with
  | nil => exact iff_of_true (always_nil property) (always_nil condition)
  | append_singleton events event ih =>
      rw [always_concat, always_concat]
      exact (and_congr_left' ih).trans
        (and_congr_right fun hall => hiff events event (hinv events hall))

end History

section Updates

-- A step that assigns one entry of a map: an entry is the one assigned, or was there before.
theorem update_eq_some {κ ν : Type*} [DecidableEq κ] {map : κ → Option ν} {key other : κ}
    {value : Option ν} {entry : ν} (h : Function.update map key value other = some entry) :
    (other = key ∧ value = some entry) ∨ (other ≠ key ∧ map other = some entry) := by
  by_cases hother : other = key
  · rw [hother, Function.update_self] at h
    exact Or.inl ⟨hother, h⟩
  · rw [Function.update_of_ne hother] at h
    exact Or.inr ⟨hother, h⟩

end Updates

end OpenBalenaVpn.Transition
