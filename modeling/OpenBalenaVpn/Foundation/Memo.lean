import OpenBalenaVpn.Foundation.Transition
import Mathlib.Logic.Function.Basic

namespace OpenBalenaVpn.Memo

section Cache

-- What a key stands for: a call that is not settled yet, with all the callers that wait
-- for it, or the value of a call and when it was settled.
inductive Entry (α ρ : Type*) where
  | pending (arg : α) (waiting : List α)
  | settled (arg : α) (value : ρ) (time : Nat)

def Entry.arg {α ρ : Type*} : Entry α ρ → α
  | pending arg _ => arg
  | settled arg _ _ => arg

structure Stamp (α ρ : Type*) where
  arg : α
  value : ρ
  time : Nat

-- The values that the function has given, and those that the callers got.
structure Cache (κ α ρ : Type*) where
  now : Nat
  entries : κ → Option (Entry α ρ)
  computed : List (Stamp α ρ)
  returned : List (Stamp α ρ)

inductive Event (κ α ρ : Type*) where
  | tick (time : Nat)
  | call (arg : α)
  | settle (key : κ) (value : Option ρ)

variable {κ α ρ : Type*}

def Cache.empty : Cache κ α ρ := ⟨0, fun _ => none, [], []⟩

-- An entry is there for its maximal age from when it was settled. A maximal age of 0 is
-- none at all: such an entry does not expire.
def Cache.live (maxAge : Nat) (cache : Cache κ α ρ) (key : κ) : Option (Entry α ρ) :=
  match cache.entries key with
  | some (.settled arg value time) =>
      if maxAge = 0 ∨ cache.now ≤ time + maxAge then some (.settled arg value time) else none
  | entry => entry

variable [DecidableEq κ] (key : α → κ) (maxAge : Nat)

def Cache.call (cache : Cache κ α ρ) (arg : α) : Cache κ α ρ :=
  match cache.live maxAge (key arg) with
  | none =>
      { cache with
        entries := Function.update cache.entries (key arg) (some (.pending arg [arg])) }
  | some (.pending first waiting) =>
      { cache with
        entries := Function.update cache.entries (key arg)
          (some (.pending first (waiting ++ [arg]))) }
  | some (.settled _ value _) =>
      { cache with returned := cache.returned ++ [⟨arg, value, cache.now⟩] }

-- A call of the function ends. Where it is rejected the entry is dropped.
def Cache.settle (cache : Cache κ α ρ) (key : κ) (value : Option ρ) : Option (Cache κ α ρ) :=
  match cache.entries key, value with
  | some (.pending arg waiting), some value =>
      some { cache with
        entries := Function.update cache.entries key (some (.settled arg value cache.now))
        computed := cache.computed ++ [⟨arg, value, cache.now⟩]
        returned := cache.returned ++ waiting.map fun caller => ⟨caller, value, cache.now⟩ }
  | some (.pending _ _), none =>
      some { cache with entries := Function.update cache.entries key none }
  | _, _ => none

def step (cache : Cache κ α ρ) : Event κ α ρ → Option (Cache κ α ρ)
  | .tick time => some { cache with now := cache.now + time }
  | .call arg => some (cache.call key maxAge arg)
  | .settle key value => cache.settle key value

end Cache

section Entries

variable {κ α ρ : Type*}

theorem Cache.live_of_none {maxAge : Nat} {cache : Cache κ α ρ} {name : κ}
    (h : cache.entries name = none) : cache.live maxAge name = none := by
  rw [Cache.live, h]

theorem Cache.entries_of_live {maxAge : Nat} {cache : Cache κ α ρ} {name : κ}
    {entry : Entry α ρ} (h : cache.live maxAge name = some entry) :
    cache.entries name = some entry := by
  unfold Cache.live at h
  split at h
  · rename_i hentry
    split at h
    · rw [hentry, h]
    · cases h
  · exact h

theorem Cache.age_of_live {maxAge : Nat} (hage : 0 < maxAge) {cache : Cache κ α ρ} {name : κ}
    {arg : α} {value : ρ} {time : Nat}
    (h : cache.live maxAge name = some (.settled arg value time)) : cache.now ≤ time + maxAge := by
  have hentry := Cache.entries_of_live h
  rw [Cache.live, hentry] at h
  simp only at h
  split at h
  · rename_i hlive
    exact hlive.resolve_left (Nat.ne_of_gt hage)
  · cases h

-- Entries stand under the key of their argument, and what is settled was computed.
structure Recorded (key : α → κ) (cache : Cache κ α ρ) : Prop where
  keyed : ∀ name entry, cache.entries name = some entry → key entry.arg = name
  settled : ∀ name arg value time, cache.entries name = some (.settled arg value time) →
    ⟨arg, value, time⟩ ∈ cache.computed
  past : ∀ stamp ∈ cache.computed, stamp.time ≤ cache.now

theorem recorded_empty (key : α → κ) : Recorded key (Cache.empty : Cache κ α ρ) where
  keyed _ _ h := by cases h
  settled _ _ _ _ h := by cases h
  past _ h := by cases h

end Entries

section Sharing

variable {κ α ρ : Type*} [DecidableEq κ] {key : α → κ} {maxAge : Nat}

theorem Recorded.update {cache : Cache κ α ρ} (h : Recorded key cache) {name : κ}
    {value : Option (Entry α ρ)} {computed : List (Stamp α ρ)}
    (hkey : ∀ entry, value = some entry → key entry.arg = name)
    (hvalue : ∀ arg result time, value = some (.settled arg result time) →
      ⟨arg, result, time⟩ ∈ computed)
    (hcomputed : ∀ stamp ∈ cache.computed, stamp ∈ computed)
    (hpast : ∀ stamp ∈ computed, stamp.time ≤ cache.now) (returned : List (Stamp α ρ)) :
    Recorded key ⟨cache.now, Function.update cache.entries name value, computed, returned⟩ where
  keyed other entry he := by
    rcases Transition.update_eq_some he with ⟨rfl, hv⟩ | ⟨_, hold⟩
    · exact hkey entry hv
    · exact h.keyed other entry hold
  settled other arg result time he := by
    rcases Transition.update_eq_some he with ⟨rfl, hv⟩ | ⟨_, hold⟩
    · exact hvalue arg result time hv
    · exact hcomputed _ (h.settled other arg result time hold)
  past := hpast

theorem recorded_call {cache : Cache κ α ρ} (h : Recorded key cache) (arg : α) :
    Recorded key (cache.call key maxAge arg) := by
  unfold Cache.call
  cases hlive : cache.live maxAge (key arg) with
  | none =>
      refine h.update ?_ ?_ (fun _ hs => hs) h.past _
      · rintro entry hentry
        obtain rfl := Option.some.inj hentry
        rfl
      · rintro first value time hentry
        cases hentry
  | some entry =>
      cases entry with
      | pending first waiting =>
          refine h.update ?_ ?_ (fun _ hs => hs) h.past _
          · rintro entry hentry
            obtain rfl := Option.some.inj hentry
            exact h.keyed _ (.pending first waiting) (Cache.entries_of_live hlive)
          · rintro first value time hentry
            cases hentry
      | settled first value time => exact ⟨h.keyed, h.settled, h.past⟩

-- What the end of a call of the function does.
theorem settle_cases {cache next : Cache κ α ρ} {name : κ} {value : Option ρ}
    (h : cache.settle name value = some next) :
    ∃ arg waiting, cache.entries name = some (.pending arg waiting) ∧
      ((∃ result, value = some result ∧ next = ⟨cache.now,
          Function.update cache.entries name (some (.settled arg result cache.now)),
          cache.computed ++ [⟨arg, result, cache.now⟩],
          cache.returned ++ waiting.map fun caller => ⟨caller, result, cache.now⟩⟩) ∨
        (value = none ∧ next = ⟨cache.now, Function.update cache.entries name none,
          cache.computed, cache.returned⟩)) := by
  unfold Cache.settle at h
  split at h
  · rename_i arg waiting result hentry
    exact ⟨arg, waiting, hentry, Or.inl ⟨result, rfl, (Option.some.inj h).symm⟩⟩
  · rename_i arg waiting hentry
    exact ⟨arg, waiting, hentry, Or.inr ⟨rfl, (Option.some.inj h).symm⟩⟩
  · cases h

theorem recorded_settle {cache next : Cache κ α ρ} (h : Recorded key cache) {name : κ}
    {value : Option ρ} (hs : cache.settle name value = some next) : Recorded key next := by
  obtain ⟨arg, waiting, hentry, ⟨result, rfl, rfl⟩ | ⟨rfl, rfl⟩⟩ := settle_cases hs
  · refine h.update ?_ ?_ (fun _ hstamp => List.mem_append_left _ hstamp) ?_ _
    · rintro entry he
      obtain rfl := Option.some.inj he
      exact h.keyed name (.pending arg waiting) hentry
    · rintro first value time he
      obtain ⟨rfl, rfl, rfl⟩ := Entry.settled.inj (Option.some.inj he)
      exact List.mem_append_right _ List.mem_cons_self
    · intro stamp hstamp
      rcases List.mem_append.mp hstamp with hold | hnew
      · exact h.past stamp hold
      · obtain rfl := List.mem_singleton.mp hnew
        exact Nat.le_refl _
  · refine h.update ?_ ?_ (fun _ hstamp => hstamp) h.past _
    · rintro entry he
      cases he
    · rintro first value time he
      cases he

theorem recorded_step {cache next : Cache κ α ρ} (h : Recorded key cache) {event : Event κ α ρ}
    (hs : step key maxAge cache event = some next) : Recorded key next := by
  cases event with
  | tick time =>
      obtain rfl := Option.some.inj hs
      refine ⟨h.keyed, h.settled, fun stamp hstamp => ?_⟩
      exact Nat.le_trans (h.past stamp hstamp) (Nat.le_add_right _ _)
  | call arg =>
      obtain rfl := Option.some.inj hs
      exact recorded_call h arg
  | settle name value => exact recorded_settle h hs

theorem call_of_none {cache : Cache κ α ρ} {arg : α} (h : cache.live maxAge (key arg) = none) :
    cache.call key maxAge arg = { cache with
      entries := Function.update cache.entries (key arg) (some (.pending arg [arg])) } := by
  rw [Cache.call, h]

theorem call_of_pending {cache : Cache κ α ρ} {arg first : α} {waiting : List α}
    (h : cache.live maxAge (key arg) = some (.pending first waiting)) :
    cache.call key maxAge arg = { cache with
      entries := Function.update cache.entries (key arg)
        (some (.pending first (waiting ++ [arg]))) } := by
  rw [Cache.call, h]

theorem call_of_settled {cache : Cache κ α ρ} {arg first : α} {value : ρ} {time : Nat}
    (h : cache.live maxAge (key arg) = some (.settled first value time)) :
    cache.call key maxAge arg = { cache with
      returned := cache.returned ++ [⟨arg, value, cache.now⟩] } := by
  rw [Cache.call, h]

@[simp] theorem call_computed (cache : Cache κ α ρ) (arg : α) :
    (cache.call key maxAge arg).computed = cache.computed := by
  unfold Cache.call
  split <;> rfl

theorem mem_returned_call (cache : Cache κ α ρ) (arg : α) {stamp : Stamp α ρ}
    (h : stamp ∈ cache.returned) : stamp ∈ (cache.call key maxAge arg).returned := by
  unfold Cache.call
  split
  · exact h
  · exact h
  · exact List.mem_append_left _ h

-- A key without an entry gets one by a call only.
theorem entries_call_of_ne (cache : Cache κ α ρ) {arg : α} {name : κ} (h : key arg ≠ name) :
    (cache.call key maxAge arg).entries name = cache.entries name := by
  unfold Cache.call
  split
  · exact Function.update_of_ne (Ne.symm h) _ _
  · exact Function.update_of_ne (Ne.symm h) _ _
  · rfl

theorem entries_settle_of_none {cache next : Cache κ α ρ} {name other : κ} {value : Option ρ}
    (h : cache.entries name = none) (hs : cache.settle other value = some next) :
    next.entries name = none := by
  obtain ⟨arg, waiting, hentry, hnext⟩ := settle_cases hs
  have hne : name ≠ other := by
    rintro rfl
    rw [h] at hentry
    cases hentry
  obtain ⟨result, _, rfl⟩ | ⟨_, rfl⟩ := hnext
  · exact (Function.update_of_ne hne _ _).trans h
  · exact (Function.update_of_ne hne _ _).trans h

-- What was rejected leaves no entry.
theorem entries_settle_none {cache next : Cache κ α ρ} {name : κ}
    (hs : cache.settle name none = some next) : next.entries name = none := by
  obtain ⟨arg, waiting, _, ⟨result, hvalue, _⟩ | ⟨_, rfl⟩⟩ := settle_cases hs
  · cases hvalue
  · exact Function.update_self _ _ _

-- A call is answered by an entry of a related argument only.
def Joins (key : α → κ) (maxAge : Nat) (related : α → α → Prop) (cache : Cache κ α ρ) :
    Event κ α ρ → Prop
  | .call arg => ∀ entry, cache.live maxAge (key arg) = some entry → related entry.arg arg
  | _ => True

-- Every value that a caller got was computed, for a related argument, at most the maximal
-- age before.
def Fresh (maxAge : Nat) (related : α → α → Prop) (cache : Cache κ α ρ) : Prop :=
  ∀ got ∈ cache.returned, ∃ stamp ∈ cache.computed, related stamp.arg got.arg ∧
    stamp.value = got.value ∧ stamp.time ≤ got.time ∧ got.time ≤ stamp.time + maxAge

def Agreeing (maxAge : Nat) (related : α → α → Prop) (cache : Cache κ α ρ) : Prop :=
  Fresh maxAge related cache ∧
    ∀ name arg waiting, cache.entries name = some (.pending arg waiting) →
      ∀ caller ∈ waiting, related arg caller

theorem agreeing_call (hage : 0 < maxAge) {related : α → α → Prop}
    (hrefl : ∀ arg, related arg arg) {cache : Cache κ α ρ} (hr : Recorded key cache)
    (h : Agreeing maxAge related cache) {arg : α}
    (hjoins : Joins key maxAge related cache (.call arg)) :
    Agreeing maxAge related (cache.call key maxAge arg) := by
  obtain ⟨hfresh, hwaiting⟩ := h
  unfold Cache.call
  cases hlive : cache.live maxAge (key arg) with
  | none =>
      refine ⟨hfresh, fun name first waiting he caller hcaller => ?_⟩
      rcases Transition.update_eq_some he with ⟨rfl, hv⟩ | ⟨_, hold⟩
      · obtain ⟨rfl, rfl⟩ := Entry.pending.inj (Option.some.inj hv)
        rw [List.mem_singleton.mp hcaller]
        exact hrefl _
      · exact hwaiting name first waiting hold caller hcaller
  | some entry =>
      have hrelated := hjoins entry hlive
      have hentry := Cache.entries_of_live hlive
      cases entry with
      | pending first waiting =>
          refine ⟨hfresh, fun name other callers he caller hcaller => ?_⟩
          rcases Transition.update_eq_some he with ⟨rfl, hv⟩ | ⟨_, hold⟩
          · obtain ⟨rfl, rfl⟩ := Entry.pending.inj (Option.some.inj hv)
            rcases List.mem_append.mp hcaller with hearlier | hlast
            · exact hwaiting _ first waiting hentry caller hearlier
            · rw [List.mem_singleton.mp hlast]
              exact hrelated
          · exact hwaiting name other callers hold caller hcaller
      | settled first value time =>
          refine ⟨fun got hgot => ?_, hwaiting⟩
          rcases List.mem_append.mp hgot with hearlier | hlast
          · exact hfresh got hearlier
          · obtain rfl := List.mem_singleton.mp hlast
            have hstamp := hr.settled _ first value time hentry
            exact ⟨_, hstamp, hrelated, rfl, hr.past _ hstamp,
              Cache.age_of_live hage hlive⟩

theorem agreeing_settle {related : α → α → Prop} {cache next : Cache κ α ρ}
    (h : Agreeing maxAge related cache) {name : κ} {value : Option ρ}
    (hs : cache.settle name value = some next) : Agreeing maxAge related next := by
  obtain ⟨hfresh, hwaiting⟩ := h
  have hkept : ∀ {entry : Option (Entry α ρ)},
      (∀ arg waiting, entry ≠ some (.pending arg waiting)) →
      ∀ other arg waiting, Function.update cache.entries name entry other =
        some (.pending arg waiting) → ∀ caller ∈ waiting, related arg caller := by
    intro entry hentry other arg waiting he
    rcases Transition.update_eq_some he with ⟨_, hv⟩ | ⟨_, hold⟩
    · exact absurd hv (hentry arg waiting)
    · exact hwaiting other arg waiting hold
  obtain ⟨arg, waiting, hpending, ⟨result, rfl, rfl⟩ | ⟨rfl, rfl⟩⟩ := settle_cases hs
  · refine ⟨fun got hgot => ?_, hkept nofun⟩
    rcases List.mem_append.mp hgot with hearlier | hnew
    · obtain ⟨stamp, hstamp, hrest⟩ := hfresh got hearlier
      exact ⟨stamp, List.mem_append_left _ hstamp, hrest⟩
    · obtain ⟨caller, hcaller, rfl⟩ := List.mem_map.mp hnew
      exact ⟨_, List.mem_append_right _ List.mem_cons_self,
        hwaiting name arg waiting hpending caller hcaller, rfl, Nat.le_refl _,
        Nat.le_add_right _ _⟩
  · exact ⟨hfresh, hkept nofun⟩

omit [DecidableEq κ] in
-- Calls with one key are always related.
theorem joins_key {cache : Cache κ α ρ} (hr : Recorded key cache) (event : Event κ α ρ) :
    Joins key maxAge (fun first second => key first = key second) cache event := by
  cases event with
  | tick | settle => trivial
  | call arg =>
      intro entry hentry
      exact hr.keyed _ entry (Cache.entries_of_live hentry)

-- In a run whose calls join related entries only, the callers get fresh values of related
-- arguments throughout.
theorem fresh_throughout (hage : 0 < maxAge) {related : α → α → Prop}
    (hrefl : ∀ arg, related arg arg) {events : List (Event κ α ρ)}
    (h : Transition.StepsMeet (step key maxAge) (Joins key maxAge related) Cache.empty events) :
    Transition.Throughout (step key maxAge) (Fresh maxAge related) Cache.empty events := by
  have hagreeing : Transition.Throughout (step key maxAge) (Agreeing maxAge related) Cache.empty
      events := by
    have hrecorded : ∀ (cache : Cache κ α ρ) event next, Recorded key cache →
        step key maxAge cache event = some next → Recorded key next :=
      fun _ _ _ hr hs => recorded_step hr hs
    refine Transition.throughout_of_stepsMeet hrecorded ?_ (recorded_empty key)
      ⟨nofun, nofun⟩ h
    intro cache event next hr ha hjoins hs
    cases event with
    | tick time =>
        obtain rfl := Option.some.inj hs
        exact ha
    | call arg =>
        obtain rfl := Option.some.inj hs
        exact agreeing_call hage hrefl hr ha hjoins
    | settle name value => exact agreeing_settle ha hs
  exact hagreeing.imp fun _ ha => ha.1

end Sharing

end OpenBalenaVpn.Memo
