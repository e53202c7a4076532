import OpenBalenaVpn.Foundation.Memo

namespace OpenBalenaVpn.Memo

open Transition

variable {κ α ρ : Type*} [DecidableEq κ] {key : α → κ} {maxAge : Nat}

section Spacing

-- From a time on, the key has stood for a call of the function, or for a value that was
-- settled since.
structure Held (since : Nat) (name : κ) (cache : Cache κ α ρ) : Prop where
  past : since ≤ cache.now
  entry : ∃ entry, cache.entries name = some entry ∧
    ∀ arg value time, entry = .settled arg value time → since ≤ time

omit [DecidableEq κ] in
theorem Held.entries {since : Nat} {name : κ} {cache next : Cache κ α ρ}
    (h : Held since name cache) (hnow : cache.now ≤ next.now)
    (hentries : next.entries name = cache.entries name) : Held since name next where
  past := Nat.le_trans h.past hnow
  entry := hentries ▸ h.entry

omit [DecidableEq κ] in
theorem held_pending {cache : Cache κ α ρ} {name : κ} {since : Nat} {arg : α} {waiting : List α}
    (hpast : since ≤ cache.now) (hentry : cache.entries name = some (.pending arg waiting)) :
    Held since name cache where
  past := hpast
  entry := ⟨_, hentry, nofun⟩

theorem held_call {since : Nat} {name : κ} {cache : Cache κ α ρ} (h : Held since name cache)
    (arg : α) : Held since name (cache.call key maxAge arg) := by
  by_cases hname : key arg = name
  · subst hname
    cases hlive : cache.live maxAge (key arg) with
    | none =>
        rw [call_of_none hlive]
        exact held_pending h.past (Function.update_self _ _ _)
    | some entry =>
        cases entry with
        | pending first waiting =>
            rw [call_of_pending hlive]
            exact held_pending h.past (Function.update_self _ _ _)
        | settled first value time =>
            rw [call_of_settled hlive]
            exact h.entries (Nat.le_refl _) rfl
  · have hnow : (cache.call key maxAge arg).now = cache.now := by
      unfold Cache.call
      split <;> rfl
    exact h.entries (Nat.le_of_eq hnow.symm) (entries_call_of_ne cache hname)

theorem held_settle {since : Nat} {name other : κ} {cache next : Cache κ α ρ} {value : Option ρ}
    (h : Held since name cache) (hno : ¬(other = name ∧ value = none))
    (hs : cache.settle other value = some next) : Held since name next := by
  obtain ⟨arg, waiting, _, ⟨result, rfl, rfl⟩ | ⟨rfl, rfl⟩⟩ := settle_cases hs
  · by_cases hname : other = name
    · subst hname
      refine ⟨h.past, _, Function.update_self _ _ _, fun first value time he => ?_⟩
      obtain ⟨_, _, rfl⟩ := Entry.settled.inj he
      exact h.past
    · exact h.entries (Nat.le_refl _) (Function.update_of_ne (Ne.symm hname) _ _)
  · have hname : other ≠ name := fun he => hno ⟨he, rfl⟩
    exact h.entries (Nat.le_refl _) (Function.update_of_ne (Ne.symm hname) _ _)

-- Only a rejection lets go of a key.
theorem held_step {since : Nat} {name : κ} {cache next : Cache κ α ρ} {event : Event κ α ρ}
    (h : Held since name cache) (hno : event ≠ .settle name none)
    (hs : step key maxAge cache event = some next) : Held since name next := by
  cases event with
  | tick time =>
      obtain rfl := Option.some.inj hs
      exact h.entries (Nat.le_add_right _ _) rfl
  | call arg =>
      obtain rfl := Option.some.inj hs
      exact held_call h arg
  | settle other value =>
      refine held_settle h ?_ hs
      rintro ⟨rfl, rfl⟩
      exact hno rfl

omit [DecidableEq κ] in
-- A key that is held is asked for again only when its value is too old.
theorem held_asks {since : Nat} {name : κ} {cache : Cache κ α ρ} (h : Held since name cache)
    (hasks : cache.live maxAge name = none) : since + maxAge < cache.now := by
  obtain ⟨entry, hentry, hsettled⟩ := h.entry
  cases entry with
  | pending arg waiting =>
      rw [Cache.live, hentry] at hasks
      cases hasks
  | settled arg value time =>
      have hsince := hsettled arg value time rfl
      rw [Cache.live, hentry] at hasks
      simp only [ite_eq_right_iff, reduceCtorEq, imp_false, not_or] at hasks
      omega

-- The calls that reach the function in a run, with their times.
def asked (key : α → κ) (maxAge : Nat) : Cache κ α ρ → List (Event κ α ρ) → List (α × Nat)
  | _, [] => []
  | cache, event :: events => match step key maxAge cache event with
    | none => []
    | some next => match event with
      | .call arg =>
          if (cache.live maxAge (key arg)).isNone then
            (arg, cache.now) :: asked key maxAge next events
          else asked key maxAge next events
      | .tick _ => asked key maxAge next events
      | .settle _ _ => asked key maxAge next events

theorem asked_cons_cases {cache next : Cache κ α ρ} {event : Event κ α ρ}
    (hs : step key maxAge cache event = some next) (events : List (Event κ α ρ)) :
    (∃ arg, event = .call arg ∧ cache.live maxAge (key arg) = none ∧
      asked key maxAge cache (event :: events) =
        (arg, cache.now) :: asked key maxAge next events) ∨
    asked key maxAge cache (event :: events) = asked key maxAge next events := by
  rw [asked, hs]
  cases event with
  | tick time => exact Or.inr rfl
  | settle name value => exact Or.inr rfl
  | call arg =>
      simp only
      split
      · rename_i hnone
        exact Or.inl ⟨arg, rfl, Option.isNone_iff_eq_none.mp hnone, rfl⟩
      · exact Or.inr rfl

theorem now_le_step {cache next : Cache κ α ρ} {event : Event κ α ρ}
    (hs : step key maxAge cache event = some next) : cache.now ≤ next.now := by
  cases event with
  | tick time =>
      obtain rfl := Option.some.inj hs
      exact Nat.le_add_right _ _
  | call arg =>
      obtain rfl := Option.some.inj hs
      unfold Cache.call
      split <;> exact Nat.le_refl _
  | settle name value =>
      obtain ⟨_, _, _, ⟨_, _, rfl⟩ | ⟨_, rfl⟩⟩ := settle_cases hs <;> exact Nat.le_refl _

theorem now_le_asked (cache : Cache κ α ρ) (events : List (Event κ α ρ)) :
    ∀ call ∈ asked key maxAge cache events, cache.now ≤ call.2 := by
  induction events generalizing cache with
  | nil => exact nofun
  | cons event events ih =>
      intro call hcall
      cases hs : step key maxAge cache event with
      | none =>
          rw [asked, hs] at hcall
          cases hcall
      | some next =>
          have hlater : ∀ call ∈ asked key maxAge next events, cache.now ≤ call.2 :=
            fun call hc => Nat.le_trans (now_le_step hs) (ih next call hc)
          rcases asked_cons_cases hs events with ⟨arg, _, _, heq⟩ | heq
          · rw [heq] at hcall
            rcases List.mem_cons.mp hcall with rfl | hcall
            · exact Nat.le_refl _
            · exact hlater call hcall
          · exact hlater call (heq ▸ hcall)

end Spacing

section Windows

-- The calls of the function for a key between two times.
def askedWithin (key : α → κ) (maxAge : Nat) (name : κ) (start finish : Nat)
    (cache : Cache κ α ρ) (events : List (Event κ α ρ)) : Nat :=
  (asked key maxAge cache events).countP fun call =>
    key call.1 = name ∧ start ≤ call.2 ∧ call.2 ≤ finish

def Event.rejects (name : κ) : Event κ α ρ → Bool
  | .tick _ => false
  | .call _ => false
  | .settle other value => other = name && value.isNone

theorem not_rejects {name : κ} {event : Event κ α ρ} (h : event.rejects name = false) :
    event ≠ .settle name none := by
  rintro rfl
  simp [Event.rejects] at h

-- The times at which calls for a key are rejected in a run.
def rejected (key : α → κ) (maxAge : Nat) (name : κ) :
    Cache κ α ρ → List (Event κ α ρ) → List Nat
  | _, [] => []
  | cache, event :: events => match step key maxAge cache event with
    | none => []
    | some next =>
        if event.rejects name then cache.now :: rejected key maxAge name next events
        else rejected key maxAge name next events

def rejectedWithin (key : α → κ) (maxAge : Nat) (name : κ) (start finish : Nat)
    (cache : Cache κ α ρ) (events : List (Event κ α ρ)) : Nat :=
  (rejected key maxAge name cache events).countP fun time => start ≤ time ∧ time ≤ finish

variable {name : κ} {start finish : Nat}

theorem askedWithin_of_late {cache : Cache κ α ρ} (h : finish < cache.now)
    (events : List (Event κ α ρ)) : askedWithin key maxAge name start finish cache events = 0 := by
  refine List.countP_eq_zero.mpr fun call hcall => ?_
  have hnow := now_le_asked cache events call hcall
  simp only [decide_eq_true_eq, not_and]
  omega

-- A turn before the later time calls the function for this key between the two times, or
-- does not.
theorem askedWithin_cons {cache next : Cache κ α ρ} {event : Event κ α ρ}
    (hs : step key maxAge cache event = some next) (hfinish : cache.now ≤ finish)
    (events : List (Event κ α ρ)) :
    (askedWithin key maxAge name start finish cache (event :: events) =
        askedWithin key maxAge name start finish next events + 1 ∧ start ≤ cache.now ∧
      cache.live maxAge name = none ∧ event.rejects name = false ∧
      Held cache.now name next) ∨
    askedWithin key maxAge name start finish cache (event :: events) =
      askedWithin key maxAge name start finish next events := by
  rcases asked_cons_cases hs events with ⟨arg, rfl, hnone, heq⟩ | heq
  · by_cases hin : key arg = name ∧ start ≤ cache.now
    · obtain ⟨rfl, hstart⟩ := hin
      have hnext : cache.call key maxAge arg = next := Option.some.inj hs
      refine Or.inl ⟨?_, hstart, hnone, rfl, ?_⟩
      · simp [askedWithin, heq, hstart, hfinish]
      · rw [← hnext, call_of_none hnone]
        exact held_pending (Nat.le_refl _) (Function.update_self _ _ _)
    · refine Or.inr ?_
      rw [askedWithin, heq, List.countP_cons_of_neg]
      · rfl
      · simp only [decide_eq_true_eq]
        exact fun h => hin ⟨h.1, h.2.1⟩
  · exact Or.inr (by rw [askedWithin, heq, askedWithin])

theorem rejectedWithin_cons {cache next : Cache κ α ρ} {event : Event κ α ρ}
    (hs : step key maxAge cache event = some next) (events : List (Event κ α ρ)) :
    rejectedWithin key maxAge name start finish cache (event :: events) =
      rejectedWithin key maxAge name start finish next events +
        if event.rejects name ∧ start ≤ cache.now ∧ cache.now ≤ finish then 1 else 0 := by
  rw [rejectedWithin, rejected, hs]
  cases hrejects : event.rejects name <;> simp [rejectedWithin, List.countP_cons]

-- Where the key is held, the next call of the function comes after the maximal age, or
-- after a rejection. A rejection leads from one bound to the other, and a call of the
-- function back.
structure Spaced (key : α → κ) (maxAge : Nat) (name : κ) (start finish : Nat)
    (cache : Cache κ α ρ) (events : List (Event κ α ρ)) : Prop where
  held : ∀ since, Held since name cache → start ≤ since →
    askedWithin key maxAge name start finish cache events = 0 ∨
    askedWithin key maxAge name start finish cache events * (maxAge + 1) + since ≤
      finish + rejectedWithin key maxAge name start finish cache events * (maxAge + 1)
  free : askedWithin key maxAge name start finish cache events = 0 ∨
    askedWithin key maxAge name start finish cache events * (maxAge + 1) + max start cache.now ≤
      finish + (rejectedWithin key maxAge name start finish cache events + 1) * (maxAge + 1)

theorem spaced_of_none {cache : Cache κ α ρ} {events : List (Event κ α ρ)}
    (h : askedWithin key maxAge name start finish cache events = 0) :
    Spaced key maxAge name start finish cache events :=
  ⟨fun _ _ _ => Or.inl h, Or.inl h⟩

theorem Spaced.asks {cache next : Cache κ α ρ} {event : Event κ α ρ} {events : List (Event κ α ρ)}
    (h : Spaced key maxAge name start finish next events)
    (hs : step key maxAge cache event = some next) (hkept : event.rejects name = false)
    (hone : askedWithin key maxAge name start finish cache (event :: events) =
      askedWithin key maxAge name start finish next events + 1) (hstart : start ≤ cache.now)
    (hfinish : cache.now ≤ finish) (hnone : cache.live maxAge name = none)
    (hnext : Held cache.now name next) :
    Spaced key maxAge name start finish cache (event :: events) := by
  have hlater := h.held cache.now hnext hstart
  have hnow := now_le_step hs
  constructor
  all_goals
    rw [hone, rejectedWithin_cons hs, hkept]
    simp only [Bool.false_eq_true, false_and, if_false, Nat.add_zero]
  · intro since hsince _
    have hgap := held_asks hsince hnone
    rcases hlater with hzero | hle
    · rw [hzero]
      omega
    · rw [Nat.add_mul, Nat.one_mul]
      omega
  · rw [Nat.max_eq_right hstart]
    rcases hlater with hzero | hle
    · rw [hzero, Nat.add_mul, Nat.add_mul]
      omega
    · rw [Nat.add_mul, Nat.add_mul]
      omega

theorem Spaced.rejects {cache next : Cache κ α ρ} {event : Event κ α ρ}
    {events : List (Event κ α ρ)} (h : Spaced key maxAge name start finish next events)
    (hs : step key maxAge cache event = some next) (hrejects : event.rejects name = true)
    (hsame : askedWithin key maxAge name start finish cache (event :: events) =
      askedWithin key maxAge name start finish next events) (hfinish : cache.now ≤ finish) :
    Spaced key maxAge name start finish cache (event :: events) := by
  have hnow := now_le_step hs
  constructor
  all_goals rw [hsame, rejectedWithin_cons hs]
  · intro since hsince hle
    have hpast := hsince.past
    refine h.free.imp_right fun h => ?_
    rw [if_pos ⟨hrejects, by omega, hfinish⟩]
    omega
  · refine h.free.imp_right fun h => ?_
    by_cases hstart : start ≤ cache.now
    · rw [if_pos ⟨hrejects, hstart, hfinish⟩, Nat.add_mul (_ + 1)]
      omega
    · rw [if_neg fun hin => hstart hin.2.1]
      simp only [Nat.add_zero]
      omega

theorem Spaced.other {cache next : Cache κ α ρ} {event : Event κ α ρ}
    {events : List (Event κ α ρ)} (h : Spaced key maxAge name start finish next events)
    (hs : step key maxAge cache event = some next) (hkept : event.rejects name = false)
    (hsame : askedWithin key maxAge name start finish cache (event :: events) =
      askedWithin key maxAge name start finish next events) :
    Spaced key maxAge name start finish cache (event :: events) := by
  have hnow := now_le_step hs
  constructor
  all_goals
    rw [hsame, rejectedWithin_cons hs, hkept]
    simp only [Bool.false_eq_true, false_and, if_false, Nat.add_zero]
  · intro since hsince hle
    exact h.held since (held_step hsince (not_rejects hkept) hs) hle
  · exact h.free.imp_right fun h => by omega

theorem spaced (cache : Cache κ α ρ) (events : List (Event κ α ρ)) :
    Spaced key maxAge name start finish cache events := by
  induction events generalizing cache with
  | nil => exact spaced_of_none rfl
  | cons event events ih =>
      by_cases hlate : finish < cache.now
      · exact spaced_of_none (askedWithin_of_late hlate (event :: events))
      have hfinish : cache.now ≤ finish := Nat.le_of_not_lt hlate
      cases hs : step key maxAge cache event with
      | none => exact spaced_of_none (by simp [askedWithin, asked, hs])
      | some next =>
          rcases askedWithin_cons hs hfinish events with
            ⟨hone, hstart, hnone, hkept, hnext⟩ | hsame
          · exact (ih next).asks hs hkept hone hstart hfinish hnone hnext
          · cases hrejects : event.rejects name with
            | false => exact (ih next).other hs hrejects hsame
            | true => exact (ih next).rejects hs hrejects hsame hfinish

end Windows

section Lookups

end Lookups

section Answers

-- The callers that wait for the call that a key stands for.
def Cache.waiting (cache : Cache κ α ρ) (name : κ) : List α :=
  match cache.entries name with
  | some (.pending _ waiting) => waiting
  | _ => []

-- The calls with a key that got a value.
def Cache.answered (key : α → κ) (cache : Cache κ α ρ) (name : κ) : Nat :=
  cache.returned.countP fun got => key got.arg = name

def Event.calls (key : α → κ) (name : κ) : Event κ α ρ → Nat
  | .tick _ => 0
  | .call arg => if key arg = name then 1 else 0
  | .settle _ _ => 0

end Answers

end OpenBalenaVpn.Memo
