import OpenBalenaVpn.Foundation.Number.Integer
import Mathlib.Algebra.Ring.Int.Defs

namespace OpenBalenaVpn

-- The numbers of JavaScript that integers round to, with what comes of them by sums and
-- differences. Zero stands for both zeros.
inductive Double where
  | nan
  | infinity (negative : Bool)
  | finite (integer : Number.Integer)
  deriving DecidableEq

namespace Double

open Number

-- The double nearest to an integer.
def ofInt (n : Int) : Double :=
  match h : ofNat n.natAbs with
  | .finite value =>
      .finite ⟨if n < 0 then -value else value, by
        have habs : (if n < 0 then -(value : Int) else value).natAbs = value := by
          split <;> simp
        rw [habs]
        exact ofNat_of_ofNat h⟩
  | .infinity => .infinity (n < 0)

def add : Double → Double → Double
  | .finite first, .finite second => ofInt (first.value + second.value)
  | .infinity negative, .finite _ => .infinity negative
  | .finite _, .infinity negative => .infinity negative
  | .infinity first, .infinity second => if first = second then .infinity first else .nan
  | .nan, _ => .nan
  | _, .nan => .nan

def neg : Double → Double
  | .nan => .nan
  | .infinity negative => .infinity !negative
  | .finite integer => .finite ⟨-integer.value, by simpa using integer.exact⟩

def sub (first second : Double) : Double := first.add second.neg

-- The value of a finite double.
def value : Double → Option Int
  | .finite integer => some integer.value
  | _ => none

def Nonneg : Double → Prop
  | .nan => False
  | .infinity negative => negative = false
  | .finite integer => 0 ≤ integer.value

instance (double : Double) : Decidable double.Nonneg :=
  match double with
  | .nan => inferInstanceAs (Decidable False)
  | .infinity negative => inferInstanceAs (Decidable (negative = false))
  | .finite integer => inferInstanceAs (Decidable (0 ≤ integer.value))

section Exact

-- Up to here each integer has a double of its own.
def exactBound : Int := 2 ^ 53

theorem value_eq_some {double : Double} {n : Int} (h : double.value = some n) :
    ∃ integer, double = .finite integer ∧ integer.value = n := by
  cases double with
  | nan | infinity => cases h
  | finite integer => exact ⟨integer, rfl, Option.some.inj h⟩

theorem value_ofInt_of_finite {n : Int} {value : Nat} (h : ofNat n.natAbs = .finite value) :
    (ofInt n).value = some (if n < 0 then -(value : Int) else value) := by
  unfold ofInt
  split
  · rename_i other hother
    obtain rfl := Number.finite.inj (hother.symm.trans h)
    rfl
  · rename_i hinfinity
    cases hinfinity.symm.trans h

theorem value_ofInt {n : Int} (hlow : -exactBound ≤ n) (hhigh : n ≤ exactBound) :
    (ofInt n).value = some n := by
  unfold exactBound at hlow hhigh
  rw [value_ofInt_of_finite (ofNat_of_le (show n.natAbs ≤ 2 ^ 53 by omega))]
  congr 1
  split
  · omega
  · omega

theorem value_add {first second : Double} {m n : Int} (hfirst : first.value = some m)
    (hsecond : second.value = some n) (hlow : -exactBound ≤ m + n) (hhigh : m + n ≤ exactBound) :
    (first.add second).value = some (m + n) := by
  obtain ⟨_, rfl, rfl⟩ := value_eq_some hfirst
  obtain ⟨_, rfl, rfl⟩ := value_eq_some hsecond
  exact value_ofInt hlow hhigh

theorem value_neg {double : Double} {n : Int} (h : double.value = some n) :
    double.neg.value = some (-n) := by
  obtain ⟨_, rfl, rfl⟩ := value_eq_some h
  rfl

theorem value_sub {first second : Double} {m n : Int} (hfirst : first.value = some m)
    (hsecond : second.value = some n) (hlow : -exactBound ≤ m - n) (hhigh : m - n ≤ exactBound) :
    (first.sub second).value = some (m - n) :=
  value_add hfirst (value_neg hsecond) hlow hhigh

end Exact

section Order

theorem nonneg_ofInt {n : Int} (h : 0 ≤ n) : (ofInt n).Nonneg := by
  unfold ofInt
  split
  · simp [Nonneg, Int.not_lt.mpr h]
  · simpa [Nonneg] using h

-- The difference of the doubles of two natural numbers is not negative where the numbers do
-- not fall, unless they are too large for a double.
theorem nonneg_sub_ofInt {m n : Int} (hm : 0 ≤ m) (h : m ≤ n)
    (hfinite : ofNat n.natAbs ≠ .infinity) : ((ofInt n).sub (ofInt m)).Nonneg := by
  obtain ⟨value, hvalue⟩ : ∃ value, ofNat n.natAbs = .finite value := by
    cases hn : ofNat n.natAbs with
    | finite value => exact ⟨value, rfl⟩
    | infinity => exact absurd hn hfinite
  have hsmall := ofNat_finite_of_le hvalue (show m.natAbs ≤ n.natAbs by omega)
  obtain ⟨high, hhigh, hlast⟩ := value_eq_some (value_ofInt_of_finite hvalue)
  obtain ⟨low, hlow, hfirst⟩ := value_eq_some (value_ofInt_of_finite hsmall)
  rw [if_neg (by omega)] at hlast hfirst
  have hmono := roundNat_mono (show m.natAbs ≤ n.natAbs by omega)
  rw [ofNat_eq_finite hvalue] at hlast
  rw [hhigh, hlow, sub, neg, add]
  refine nonneg_ofInt ?_
  simp only
  omega

end Order

end Double

end OpenBalenaVpn
