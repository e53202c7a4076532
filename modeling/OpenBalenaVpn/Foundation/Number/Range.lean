import OpenBalenaVpn.Foundation.Number

namespace OpenBalenaVpn.Number

section Range

-- From here on the numbers round to 10 ^ 21 or more, which does not print as digits.
def plainBound : Nat := 10 ^ 21 - 2 ^ 16

theorem roundNat_of_small {n : Nat} (h : n < 2 ^ 53) : roundNat n = n := if_pos h

-- Rounding stays between the powers of two around the number.
theorem roundNat_bounds {n : Nat} (h : 2 ^ 53 ≤ n) :
    2 ^ Nat.log 2 n ≤ roundNat n ∧ roundNat n ≤ 2 ^ (Nat.log 2 n + 1) := by
  obtain ⟨exponent, hlog, hround, hlow, hhigh⟩ := roundNat_of_large h
  have hsignificand : 2 ^ 52 ≤ significand n exponent ∧ significand n exponent ≤ 2 ^ 53 := by
    rcases significand_cases n exponent with hs | hs <;> omega
  rw [hlog, hround, show exponent + 52 = 52 + exponent by omega,
    show 52 + exponent + 1 = 53 + exponent by omega, Nat.pow_add, Nat.pow_add]
  exact ⟨Nat.mul_le_mul_right _ hsignificand.1, Nat.mul_le_mul_right _ hsignificand.2⟩

-- Around 10 ^ 21 the doubles are the multiples of 2 ^ 17.
theorem roundNat_near {n : Nat} (hlow : 2 ^ 69 ≤ n) (hhigh : n < 2 ^ 70) :
    roundNat n = significand n 17 * 2 ^ 17 := by
  obtain ⟨exponent, hlog, hround, _⟩ := roundNat_of_large (show 2 ^ 53 ≤ n by omega)
  have hsixty : Nat.log 2 n = 69 := (Nat.log_eq_iff (Or.inl (by omega))).mpr ⟨hlow, hhigh⟩
  obtain rfl : exponent = 17 := by omega
  exact hround

theorem roundNat_lt_iff (n : Nat) : roundNat n < 10 ^ 21 ↔ n < plainBound := by
  unfold plainBound
  by_cases hsmall : n < 2 ^ 53
  · rw [roundNat_of_small hsmall]
    omega
  obtain ⟨hlower, hupper⟩ := roundNat_bounds (show 2 ^ 53 ≤ n by omega)
  by_cases hnear : n < 2 ^ 69
  · have hlog : Nat.log 2 n < 69 := Nat.log_lt_of_lt_pow (by omega) hnear
    have hpow : 2 ^ (Nat.log 2 n + 1) ≤ 2 ^ 69 := Nat.pow_le_pow_right (by omega) (by omega)
    omega
  · by_cases hfar : n < 2 ^ 70
    · rw [roundNat_near (by omega) hfar]
      unfold significand
      simp only
      split <;> omega
    · have hlog : 70 ≤ Nat.log 2 n := Nat.le_log_of_pow_le (by omega) (by omega)
      have hpow : 2 ^ 70 ≤ 2 ^ Nat.log 2 n := Nat.pow_le_pow_right (by omega) hlog
      omega

-- The numbers below 10 ^ 21 that round to it.
theorem roundNat_eq_of_near {n : Nat} (hlow : plainBound ≤ n) (hhigh : n < 10 ^ 21) :
    roundNat n = 10 ^ 21 := by
  unfold plainBound at hlow
  rw [roundNat_near (by omega) (by omega)]
  unfold significand
  simp only
  split <;> omega

theorem shortest_lt_iff {value : Nat} (h : ofNat value = .finite value) :
    shortest value < 10 ^ 21 ↔ value < 10 ^ 21 := by
  have hround : roundNat (shortest value) = value := by
    have hshortest := ofNat_shortest h
    unfold ofNat at hshortest
    split at hshortest
    · exact Number.finite.inj hshortest
    · cases hshortest
  constructor
  · intro hlt
    by_contra hge
    have hbound : ¬shortest value < plainBound := by
      rw [← roundNat_lt_iff, hround]
      exact hge
    have hvalue : value = 10 ^ 21 := by
      rw [← hround]
      exact roundNat_eq_of_near (by omega) hlt
    subst hvalue
    exact absurd hlt (by decide +kernel)
  · intro hlt
    rw [← hround, roundNat_lt_iff] at hlt
    unfold plainBound at hlt
    omega

-- Exactly the numbers below the bound print as digits.
theorem plain_ofNat_iff (n : Nat) : Plain (ofNat n) ↔ n < plainBound := by
  by_cases hfinite : roundNat n < (2 ^ 256) ^ 4
  · have hof : ofNat n = .finite (roundNat n) := if_pos hfinite
    rw [hof, Plain, shortest_lt_iff (ofNat_of_ofNat hof), roundNat_lt_iff]
  · have hof : ofNat n = .infinity := if_neg hfinite
    rw [hof]
    refine iff_of_false id fun hlt => hfinite ?_
    have hround := (roundNat_lt_iff n).mpr hlt
    exact Nat.lt_trans hround (by decide)

end Range

section Order

theorem significand_mono {m n : Nat} (h : m ≤ n) (exponent : Nat) :
    significand m exponent ≤ significand n exponent := by
  have hquotient : m / 2 ^ exponent ≤ n / 2 ^ exponent := Nat.div_le_div_right h
  rcases Nat.lt_or_eq_of_le hquotient with hlt | heq
  · have hup : significand m exponent ≤ m / 2 ^ exponent + 1 := by
      rcases significand_cases m exponent with hs | hs <;> omega
    have hdown : n / 2 ^ exponent ≤ significand n exponent := by
      rcases significand_cases n exponent with hs | hs <;> omega
    omega
  · have hm := Nat.div_add_mod m (2 ^ exponent)
    have hn := Nat.div_add_mod n (2 ^ exponent)
    rw [← heq] at hn
    have hrest : m % 2 ^ exponent ≤ n % 2 ^ exponent := by omega
    unfold significand
    simp only [← heq]
    split <;> split <;> omega

theorem roundNat_mono {m n : Nat} (h : m ≤ n) : roundNat m ≤ roundNat n := by
  by_cases hn : n < 2 ^ 53
  · rw [roundNat_of_small hn, roundNat_of_small (by omega)]
    exact h
  have hlower := (roundNat_bounds (Nat.le_of_not_lt hn)).1
  by_cases hm : m < 2 ^ 53
  · have hpow : 2 ^ 53 ≤ 2 ^ Nat.log 2 n :=
      Nat.pow_le_pow_right (by omega) (Nat.le_log_of_pow_le (by omega) (Nat.le_of_not_lt hn))
    rw [roundNat_of_small hm]
    omega
  have hupper := (roundNat_bounds (Nat.le_of_not_lt hm)).2
  rcases Nat.lt_or_eq_of_le (@Nat.log_mono_right 2 m n h) with hlt | heq
  · have hpow : 2 ^ (Nat.log 2 m + 1) ≤ 2 ^ Nat.log 2 n := Nat.pow_le_pow_right (by omega) hlt
    omega
  · obtain ⟨exponent, hlog, hround, _⟩ := roundNat_of_large (Nat.le_of_not_lt hm)
    obtain ⟨other, hother, hround', _⟩ := roundNat_of_large (Nat.le_of_not_lt hn)
    obtain rfl : exponent = other := by omega
    rw [hround, hround']
    exact Nat.mul_le_mul_right _ (significand_mono h exponent)

-- Up to 2 ^ 53 each natural number is a double.
theorem ofNat_of_le {n : Nat} (h : n ≤ 2 ^ 53) : ofNat n = .finite n := by
  rcases Nat.lt_or_eq_of_le h with hlt | rfl
  · rw [ofNat, roundNat_of_small hlt]
    exact if_pos (Nat.lt_trans hlt (by decide))
  · have hround : roundNat (2 ^ 53) = 2 ^ 53 := roundNat_mul 1 (Nat.le_refl _) (by decide)
    rw [ofNat, hround]
    exact if_pos (by decide)

theorem ofNat_eq_finite {n value : Nat} (h : ofNat n = .finite value) : value = roundNat n := by
  unfold ofNat at h
  split at h
  · exact (Number.finite.inj h).symm
  · cases h

theorem ofNat_finite_of_le {m n value : Nat} (h : ofNat n = .finite value) (hle : m ≤ n) :
    ofNat m = .finite (roundNat m) := by
  have hmono := roundNat_mono hle
  unfold ofNat at h
  split at h
  · rename_i hlt
    exact if_pos (Nat.lt_of_le_of_lt hmono hlt)
  · cases h

end Order

end OpenBalenaVpn.Number
