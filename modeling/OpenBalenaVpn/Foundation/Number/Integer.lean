import OpenBalenaVpn.Foundation.Number.Range

namespace OpenBalenaVpn.Number

-- An integer that is a number of JavaScript: there is a double for its magnitude.
structure Integer where
  value : Int
  exact : ofNat value.natAbs = .finite value.natAbs
  deriving DecidableEq

namespace Integer

-- The text of an integer in a template literal.
def text (integer : Integer) : List Char :=
  (if integer.value < 0 then ['-'] else []) ++ Number.text (.finite integer.value.natAbs)

theorem notMem_text {c : Char} (hdigit : c.isDigit = false) (hother : c ∉ ['-', '.', 'e', '+'])
    (integer : Integer) : c ∉ integer.text := by
  rw [List.mem_cons, not_or] at hother
  have hmagnitude := notMem_text_finite hdigit hother.2 integer.value.natAbs
  unfold text
  split
  · simpa using ⟨hother.1, hmagnitude⟩
  · exact hmagnitude

theorem natAbs_inj {first second : Integer}
    (h : Number.text (.finite first.value.natAbs) = Number.text (.finite second.value.natAbs)) :
    first.value.natAbs = second.value.natAbs := by
  have hfirst := ofNat_shortest first.exact
  have hsecond := ofNat_shortest second.exact
  rw [text_finite_inj h, hsecond] at hfirst
  exact (Number.finite.inj hfirst).symm

theorem minus_notMem (value : Nat) : '-' ∉ Number.text (.finite value) :=
  notMem_text_finite (by decide) (by decide) value

theorem text_inj {first second : Integer} (h : first.text = second.text) : first = second := by
  have hvalue : first.value = second.value := by
    unfold text at h
    split at h <;> split at h
    · have habs := natAbs_inj (List.cons.inj h).2
      omega
    · refine absurd ?_ (minus_notMem second.value.natAbs)
      rw [← List.nil_append (Number.text _), ← h]
      exact List.mem_cons_self
    · refine absurd ?_ (minus_notMem first.value.natAbs)
      rw [← List.nil_append (Number.text _), h]
      exact List.mem_cons_self
    · have habs := natAbs_inj h
      omega
  cases first
  cases second
  cases hvalue
  rfl

section Small

theorem roundNat_eq_small_iff {n value : Nat} (h : value < 2 ^ 53) :
    roundNat n = value ↔ n = value := by
  by_cases hn : n < 2 ^ 53
  · rw [roundNat_of_small hn]
  · have hlog : 53 ≤ Nat.log 2 n := Nat.le_log_of_pow_le (by omega) (by omega)
    have hpow : 2 ^ 53 ≤ 2 ^ Nat.log 2 n := Nat.pow_le_pow_right (by omega) hlog
    have hbound := (roundNat_bounds (show 2 ^ 53 ≤ n by omega)).1
    omega

theorem ofNat_small {value : Nat} (h : value < 2 ^ 53) : ofNat value = .finite value := by
  rw [ofNat, roundNat_of_small h]
  exact if_pos (Nat.lt_trans h (by decide))

-- The natural numbers below 2 ^ 53 are such integers, and print as their digits.
def ofSmall (value : Nat) (h : value < 2 ^ 53) : Integer where
  value := value
  exact := ofNat_small h

theorem text_ofSmall {value : Nat} (h : value < 2 ^ 53) :
    (ofSmall value h).text = Nat.toDigits 10 value := by
  have hshortest : shortest value = value := by
    have hround := ofNat_shortest (ofNat_small h)
    rw [ofNat] at hround
    split at hround
    · exact (roundNat_eq_small_iff h).mp (Number.finite.inj hround)
    · cases hround
  have hnonneg : ¬((value : Int) < 0) := by omega
  have hplain : Plain (.finite value) := by
    rw [Plain, hshortest]
    omega
  rw [text, ofSmall, if_neg hnonneg, List.nil_append, Int.natAbs_natCast, text_of_plain hplain,
    hshortest]

end Small

end Integer

end OpenBalenaVpn.Number
