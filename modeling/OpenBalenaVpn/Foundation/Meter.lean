import Mathlib.Algebra.Order.Group.Defs
import Mathlib.Data.List.Basic
import Mathlib.Order.Basic

namespace OpenBalenaVpn

variable {α τ : Type*}

-- What a counter shows at some time.
structure Reading (α τ : Type*) where
  amount : α
  time : τ

def Reading.Precedes [LE α] [LE τ] (reading later : Reading α τ) : Prop :=
  reading.amount ≤ later.amount ∧ reading.time ≤ later.time

-- A meter passes on what came since its last reading, provided that time has passed.
structure Meter (α τ : Type*) where
  last : Reading α τ
  passed : α

namespace Meter

section Definitions

variable [LinearOrder τ]

-- A reading at the time of the one before shows the same, unless none at a later time
-- comes after it.
def NothingWithheld : Reading α τ → List (Reading α τ) → Prop
  | _, [] => True
  | last, reading :: readings =>
      (reading.time = last.time → (∃ later ∈ readings, reading.time < later.time) →
        reading.amount = last.amount) ∧ NothingWithheld reading readings

variable [AddCommGroup α]

def read (meter : Meter α τ) (reading : Reading α τ) : Meter α τ where
  last := reading
  passed :=
    if meter.last.time < reading.time then meter.passed + (reading.amount - meter.last.amount)
    else meter.passed

-- Right after each reading that is passed on, all that the counter shows has been.
def PassesAll : Meter α τ → List (Reading α τ) → Prop
  | _, [] => True
  | meter, reading :: readings =>
      (meter.last.time < reading.time → (meter.read reading).passed = reading.amount) ∧
        PassesAll (meter.read reading) readings

end Definitions

section Read

variable [AddCommGroup α] [LinearOrder τ]

theorem read_of_lt {meter : Meter α τ} {reading : Reading α τ}
    (h : meter.last.time < reading.time) :
    (meter.read reading).passed = meter.passed + (reading.amount - meter.last.amount) := if_pos h

theorem read_of_eq {meter : Meter α τ} {reading : Reading α τ}
    (h : reading.time = meter.last.time) : (meter.read reading).passed = meter.passed :=
  if_neg (by rw [h]; exact lt_irrefl _)

end Read

section Monotone

variable [PartialOrder α] [LinearOrder τ]

theorem nothingWithheld_of_not_lt {last : Reading α τ} {readings : List (Reading α τ)}
    (hsorted : (last :: readings).Pairwise Reading.Precedes)
    (h : ∀ later ∈ readings, ¬last.time < later.time) : NothingWithheld last readings := by
  induction readings generalizing last with
  | nil => trivial
  | cons reading readings ih =>
      obtain ⟨hlast, hrest⟩ := List.pairwise_cons.mp hsorted
      have hsame : reading.time = last.time :=
        le_antisymm (not_lt.mp (h reading List.mem_cons_self))
          (hlast reading List.mem_cons_self).2
      have hnone : ∀ later ∈ readings, ¬reading.time < later.time := fun later hlater =>
        hsame ▸ h later (List.mem_cons_of_mem _ hlater)
      exact ⟨fun _ ⟨later, hlater, hlt⟩ => absurd hlt (hnone later hlater), ih hrest hnone⟩

variable [AddCommGroup α]

-- What has been withheld is never passed on.
theorem passesAll_iff_of_lt {meter : Meter α τ} {readings : List (Reading α τ)}
    (hsorted : (meter.last :: readings).Pairwise Reading.Precedes)
    (hless : meter.passed < meter.last.amount) :
    meter.PassesAll readings ↔ ∀ later ∈ readings, ¬meter.last.time < later.time := by
  induction readings generalizing meter with
  | nil => exact iff_of_true trivial nofun
  | cons reading readings ih =>
      obtain ⟨hlast, hrest⟩ := List.pairwise_cons.mp hsorted
      obtain ⟨hamount, htime⟩ := hlast reading List.mem_cons_self
      rcases lt_or_eq_of_le htime with hlt | heq
      · refine iff_of_false (fun h => ?_) fun h => h reading List.mem_cons_self hlt
        have hpassed := h.1 hlt
        rw [read_of_lt hlt, add_sub_assoc', add_sub_right_comm, add_eq_right, sub_eq_zero]
          at hpassed
        exact hless.ne hpassed
      · have hnext : (meter.read reading).passed < (meter.read reading).last.amount := by
          rw [read_of_eq heq.symm]
          exact hless.trans_le hamount
        have hnot : ¬meter.last.time < reading.time := heq.not_lt
        have hsame : (meter.read reading).last.time = meter.last.time := heq.symm
        have hih := ih hrest hnext
        rw [hsame] at hih
        rw [PassesAll, hih, List.forall_mem_cons]
        exact and_congr (iff_of_true (fun hlt => absurd hlt hnot) hnot) Iff.rfl

-- A meter that has passed on all so far goes on to do so if and only if it withholds
-- nothing.
theorem passesAll_iff {meter : Meter α τ} {readings : List (Reading α τ)}
    (hsorted : (meter.last :: readings).Pairwise Reading.Precedes)
    (hall : meter.passed = meter.last.amount) :
    meter.PassesAll readings ↔ NothingWithheld meter.last readings := by
  induction readings generalizing meter with
  | nil => exact iff_of_true trivial trivial
  | cons reading readings ih =>
      obtain ⟨hlast, hrest⟩ := List.pairwise_cons.mp hsorted
      obtain ⟨hamount, htime⟩ := hlast reading List.mem_cons_self
      rw [PassesAll, NothingWithheld]
      rcases lt_or_eq_of_le htime with hlt | heq
      · have hpassed : (meter.read reading).passed = reading.amount := by
          rw [read_of_lt hlt, hall, add_sub_cancel]
        have hih : (meter.read reading).PassesAll readings ↔ NothingWithheld reading readings :=
          ih hrest hpassed
        refine and_congr (iff_of_true (fun _ => hpassed) fun hsame => ?_) hih
        exact absurd hsame hlt.ne'
      · have hpassed : (meter.read reading).passed = meter.last.amount := by
          rw [read_of_eq heq.symm, hall]
        have hnot : ¬meter.last.time < reading.time := heq.not_lt
        rw [and_iff_right fun hlt => absurd hlt hnot, forall_prop_of_true heq.symm]
        rcases lt_or_eq_of_le hamount with hmore | hsame
        · -- the reading is withheld, so nothing may be passed on after it
          have hless : (meter.read reading).passed < (meter.read reading).last.amount := by
            rw [hpassed]
            exact hmore
          have hiff : (meter.read reading).PassesAll readings ↔
              ∀ later ∈ readings, ¬reading.time < later.time := passesAll_iff_of_lt hrest hless
          rw [hiff]
          constructor
          · intro h
            exact ⟨fun ⟨later, hlater, hlt⟩ => absurd hlt (h later hlater),
              nothingWithheld_of_not_lt hrest h⟩
          · rintro ⟨h, _⟩ later hlater hlt
            exact absurd (h ⟨later, hlater, hlt⟩) hmore.ne'
        · have hexact : (meter.read reading).passed = (meter.read reading).last.amount :=
            hpassed.trans hsame
          have hih : (meter.read reading).PassesAll readings ↔
              NothingWithheld reading readings := ih hrest hexact
          rw [hih]
          exact (and_iff_right fun _ => hsame.symm).symm

end Monotone

end Meter

end OpenBalenaVpn
