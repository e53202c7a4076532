import Mathlib.Algebra.Ring.Nat
import Mathlib.Data.Nat.Log
import Mathlib.Data.List.Basic

namespace OpenBalenaVpn

-- The values that `parseInt` gives for a text of digits: the doubles that are
-- natural numbers, and Infinity.
inductive Number where
  | finite (value : Nat)
  | infinity
  deriving DecidableEq

namespace Number

-- Rounding of an integer to 53 significant bits, with ties to the even one.
def significand (n exponent : Nat) : Nat :=
  let quotient := n / 2 ^ exponent
  let rest := n % 2 ^ exponent
  if 2 * rest < 2 ^ exponent ∨ (2 * rest = 2 ^ exponent ∧ quotient % 2 = 0) then quotient
  else quotient + 1

def roundNat (n : Nat) : Nat :=
  if n < 2 ^ 53 then n
  else
    let exponent := Nat.log 2 n - 52
    significand n exponent * 2 ^ exponent

-- The double nearest to a natural number. From 2 ^ 1024 on there is none.
def ofNat (n : Nat) : Number :=
  if roundNat n < (2 ^ 256) ^ 4 then .finite (roundNat n) else .infinity

-- `parseInt(text, 10)` of a text of digits.
def parseInt (digits : List Char) : Number := ofNat (Nat.ofDigitChars 10 digits 0)

-- The candidates with a given number of significant digits: the two multiples of a
-- power of ten around the value, the nearer one first.
def candidates (value unit : Nat) : List Nat :=
  let low := value / unit * unit
  let high := low + unit
  if value - low < high - value ∨ (value - low = high - value ∧ value / unit % 2 = 0) then
    [low, high]
  else [high, low]

-- The number with the fewest significant digits among those that round to the value.
def shortest (value : Nat) : Nat :=
  let length := (Nat.toDigits 10 value).length
  (((List.range length).reverse.flatMap fun zeros => candidates value (10 ^ zeros)).find?
    fun candidate => ofNat candidate = .finite value).getD value

def exponential (digits : List Char) : List Char :=
  let significant := (digits.reverse.dropWhile (· = '0')).reverse
  significant.take 1 ++ (if significant.length ≤ 1 then [] else '.' :: significant.drop 1) ++
    "e+".toList ++ Nat.toDigits 10 (digits.length - 1)

-- The text of a number in a template literal.
def text : Number → List Char
  | .finite value =>
      let digits := Nat.toDigits 10 (shortest value)
      if shortest value < 10 ^ 21 then digits else exponential digits
  | .infinity => "Infinity".toList

section Rounding

theorem significand_mul (m exponent : Nat) : significand (m * 2 ^ exponent) exponent = m := by
  have hpos : 0 < 2 ^ exponent := Nat.two_pow_pos exponent
  have hquotient : m * 2 ^ exponent / 2 ^ exponent = m := Nat.mul_div_cancel m hpos
  have hrest : m * 2 ^ exponent % 2 ^ exponent = 0 := Nat.mul_mod_left m _
  simp [significand, hquotient, hrest, hpos]

-- A number with 53 significant bits is its own rounding.
theorem roundNat_mul {m : Nat} (exponent : Nat) (hlow : 2 ^ 52 ≤ m) (hhigh : m < 2 ^ 53) :
    roundNat (m * 2 ^ exponent) = m * 2 ^ exponent := by
  unfold roundNat
  split
  · rfl
  · have hlog : Nat.log 2 (m * 2 ^ exponent) = exponent + 52 := by
      rw [Nat.log_eq_iff (by omega)]
      constructor
      · rw [Nat.pow_add, Nat.mul_comm]
        exact Nat.mul_le_mul_right _ hlow
      · rw [show exponent + 52 + 1 = 53 + exponent by omega, Nat.pow_add]
        exact Nat.mul_lt_mul_of_pos_right hhigh (Nat.two_pow_pos exponent)
    simp only [hlog, Nat.add_sub_cancel, significand_mul]

theorem significand_cases (n exponent : Nat) :
    significand n exponent = n / 2 ^ exponent ∨ significand n exponent = n / 2 ^ exponent + 1 := by
  unfold significand
  simp only
  split
  · exact Or.inl rfl
  · exact Or.inr rfl

-- A number that does not fit into 53 bits, and the part of it that does.
theorem roundNat_of_large {n : Nat} (h : 2 ^ 53 ≤ n) :
    ∃ exponent, Nat.log 2 n = exponent + 52 ∧
      roundNat n = significand n exponent * 2 ^ exponent ∧
      2 ^ 52 ≤ n / 2 ^ exponent ∧ n / 2 ^ exponent < 2 ^ 53 := by
  have hround : roundNat n = significand n (Nat.log 2 n - 52) * 2 ^ (Nat.log 2 n - 52) :=
    if_neg (by omega)
  have hlog : 53 ≤ Nat.log 2 n := Nat.le_log_of_pow_le (by omega) h
  have hle : 2 ^ Nat.log 2 n ≤ n := Nat.pow_log_le_self 2 (by omega)
  have hlt : n < 2 ^ (Nat.log 2 n + 1) := Nat.lt_pow_succ_log_self (by omega) n
  obtain ⟨exponent, he⟩ : ∃ exponent, Nat.log 2 n = exponent + 52 :=
    ⟨_, (Nat.sub_add_cancel (by omega)).symm⟩
  rw [he] at hle hlt hround
  rw [Nat.add_sub_cancel] at hround
  refine ⟨exponent, he, hround, ?_, ?_⟩
  · rw [Nat.le_div_iff_mul_le (Nat.two_pow_pos exponent), ← Nat.pow_add, Nat.add_comm]
    exact hle
  · rw [Nat.div_lt_iff_lt_mul (Nat.two_pow_pos exponent), ← Nat.pow_add,
      show 53 + exponent = exponent + 52 + 1 by omega]
    exact hlt

theorem roundNat_roundNat (n : Nat) : roundNat (roundNat n) = roundNat n := by
  by_cases hn : n < 2 ^ 53
  · have hround : roundNat n = n := if_pos hn
    rw [hround, hround]
  · obtain ⟨exponent, _, hround, hlow, hhigh⟩ := roundNat_of_large (Nat.le_of_not_lt hn)
    rw [hround]
    rcases significand_cases n exponent with hs | hs
    · rw [hs]
      exact roundNat_mul exponent hlow hhigh
    · rw [hs]
      by_cases hmax : n / 2 ^ exponent + 1 < 2 ^ 53
      · exact roundNat_mul exponent (by omega) hmax
      · -- rounding up carried into a new bit
        have hcarry : (n / 2 ^ exponent + 1) * 2 ^ exponent = 2 ^ 52 * 2 ^ (exponent + 1) := by
          rw [show n / 2 ^ exponent + 1 = 2 ^ 53 by omega, Nat.pow_succ]
          omega
        rw [hcarry]
        exact roundNat_mul (exponent + 1) (Nat.le_refl _) (by omega)

theorem ofNat_of_ofNat {n value : Nat} (h : ofNat n = .finite value) :
    ofNat value = .finite value := by
  unfold ofNat at h
  split at h
  · rename_i hlt
    obtain rfl := Number.finite.inj h
    rw [ofNat, roundNat_roundNat, if_pos hlt]
  · cases h

end Rounding

section Text

theorem ofNat_shortest {value : Nat} (h : ofNat value = .finite value) :
    ofNat (shortest value) = .finite value := by
  unfold shortest
  simp only
  generalize hfind : List.find? _ _ = found
  cases found with
  | none => exact h
  | some candidate => simpa using List.find?_some hfind

-- The number prints as its digits only.
def Plain : Number → Prop
  | .finite value => shortest value < 10 ^ 21
  | .infinity => False

theorem text_of_plain {value : Nat} (h : Plain (.finite value)) :
    text (.finite value) = Nat.toDigits 10 (shortest value) := if_pos h

theorem text_digits {number : Number} (h : Plain number) :
    text number ≠ [] ∧ ∀ c ∈ text number, c.isDigit = true := by
  cases number with
  | infinity => cases h
  | finite value =>
      rw [text_of_plain h]
      exact ⟨Nat.toDigits_ne_nil, fun c hc => Nat.isDigit_of_mem_toDigits (by omega) (by omega) hc⟩

theorem text_of_not_plain {number : Number} (h : ¬Plain number) :
    ∃ c ∈ text number, c.isDigit = false := by
  cases number with
  | infinity => exact ⟨'I', by decide, by decide⟩
  | finite value =>
      have htext : text (.finite value) = exponential (Nat.toDigits 10 (shortest value)) :=
        if_neg (show ¬shortest value < 10 ^ 21 from h)
      refine ⟨'e', ?_, by decide⟩
      rw [htext, exponential]
      exact List.mem_append_left _ (List.mem_append_right _ (by decide))

-- What prints as digits is read back as it was.
theorem parseInt_text {digits : List Char} (h : Plain (parseInt digits)) :
    parseInt (text (parseInt digits)) = parseInt digits := by
  cases hn : parseInt digits with
  | infinity =>
      rw [hn] at h
      cases h
  | finite value =>
      rw [hn] at h
      rw [text_of_plain h, parseInt, Nat.ofDigitChars_ten_toDigits]
      exact ofNat_shortest (ofNat_of_ofNat hn)

end Text

section Injective

def mantissa (significant : List Char) : List Char :=
  significant.take 1 ++ (if significant.length ≤ 1 then [] else '.' :: significant.drop 1)

def significantDigits (digits : List Char) : List Char :=
  (digits.reverse.dropWhile (· = '0')).reverse

theorem exponential_eq (digits : List Char) : exponential digits =
    mantissa (significantDigits digits) ++ 'e' :: '+' :: Nat.toDigits 10 (digits.length - 1) := by
  simp [exponential, mantissa, significantDigits]

-- What is left out are zeros.
theorem significantDigits_append (digits : List Char) :
    digits = significantDigits digits ++
      List.replicate (digits.length - (significantDigits digits).length) '0' := by
  have hsplit : digits.reverse.takeWhile (· = '0') ++ digits.reverse.dropWhile (· = '0') =
      digits.reverse := List.takeWhile_append_dropWhile
  have hzeros : (digits.reverse.takeWhile (· = '0')).reverse =
      List.replicate (digits.reverse.takeWhile (· = '0')).length '0' := by
    refine List.eq_replicate_iff.mpr ⟨List.length_reverse, fun c hc => ?_⟩
    simpa using List.all_eq_true.mp List.all_takeWhile c (List.mem_reverse.mp hc)
  have hdigits : digits = significantDigits digits ++
      (digits.reverse.takeWhile (· = '0')).reverse := by
    have hreverse := congrArg List.reverse hsplit
    rw [List.reverse_append, List.reverse_reverse] at hreverse
    exact hreverse.symm
  have hlength := congrArg List.length hdigits
  rw [List.length_append, List.length_reverse] at hlength
  rw [show digits.length - (significantDigits digits).length =
    (digits.reverse.takeWhile (· = '0')).length by omega, ← hzeros]
  exact hdigits

theorem mem_of_mem_significantDigits {digits : List Char} {c : Char}
    (h : c ∈ significantDigits digits) : c ∈ digits :=
  List.mem_reverse.mp (List.dropWhile_sublist _ |>.mem (List.mem_reverse.mp h))

theorem filter_mantissa {significant : List Char} (h : '.' ∉ significant) :
    (mantissa significant).filter (· ≠ '.') = significant := by
  have hfilter : significant.filter (· ≠ '.') = significant := by
    rw [List.filter_eq_self]
    intro c hc
    have hne : c ≠ '.' := fun he => h (he ▸ hc)
    simpa using hne
  unfold mantissa
  split
  · rename_i hshort
    rw [List.append_nil, List.take_of_length_le hshort]
    exact hfilter
  · rw [List.filter_append, List.filter_cons_of_neg (by decide), ← List.filter_append,
      List.take_append_drop]
    exact hfilter

theorem toDigits_inj {first second : Nat} (h : Nat.toDigits 10 first = Nat.toDigits 10 second) :
    first = second := by
  have hfirst : Nat.ofDigitChars 10 (Nat.toDigits 10 first) 0 = first :=
    Nat.ofDigitChars_ten_toDigits
  rw [← hfirst, h, Nat.ofDigitChars_ten_toDigits]

theorem notMem_digits {digits : List Char} (h : ∀ c ∈ digits, c.isDigit = true) {c : Char}
    (hc : c.isDigit = false) : c ∉ digits := by
  intro hm
  rw [h c hm] at hc
  cases hc

theorem notMem_mantissa {significant : List Char} {c : Char} (h : c ∉ significant)
    (hc : c ≠ '.') : c ∉ mantissa significant := by
  intro hm
  have hdrop : c ∉ significant.drop 1 := fun hd => h (List.mem_of_mem_drop hd)
  rcases List.mem_append.mp hm with ht | hd
  · exact h (List.mem_of_mem_take ht)
  · split at hd
    · cases hd
    · rcases List.mem_cons.mp hd with rfl | hd
      · exact hc rfl
      · exact hdrop hd

theorem exponential_inj {first second : List Char} (hfirst : ∀ c ∈ first, c.isDigit = true)
    (hsecond : ∀ c ∈ second, c.isDigit = true) (hne : first ≠ []) (hne' : second ≠ [])
    (h : exponential first = exponential second) : first = second := by
  have hsig := fun c (hc : c ∈ significantDigits first) =>
    hfirst c (mem_of_mem_significantDigits hc)
  have hsig' := fun c (hc : c ∈ significantDigits second) =>
    hsecond c (mem_of_mem_significantDigits hc)
  rw [exponential_eq, exponential_eq] at h
  have he := notMem_mantissa (notMem_digits hsig (show 'e'.isDigit = false by decide)) (by decide)
  have hplus : ∀ n, 'e' ∉ '+' :: Nat.toDigits 10 n := by
    intro n hm
    rcases List.mem_cons.mp hm with hp | hd
    · cases hp
    · have hdigit := Nat.isDigit_of_mem_toDigits (by omega) (by omega) hd
      exact absurd hdigit (by decide)
  obtain ⟨hmantissa, _, hexponent⟩ :=
    (List.append_cons_inj_of_notMem he (hplus (first.length - 1))).mp h
  have hlength := toDigits_inj (List.cons.inj hexponent).2
  have hpos := List.length_pos_iff.mpr hne
  have hpos' := List.length_pos_iff.mpr hne'
  have hsame := congrArg (List.filter (· ≠ '.')) hmantissa
  rw [filter_mantissa (notMem_digits hsig (by decide)),
    filter_mantissa (notMem_digits hsig' (by decide))] at hsame
  rw [significantDigits_append first, significantDigits_append second, hsame,
    show first.length = second.length by omega]

-- A number that `parseInt` gives.
def Produced (number : Number) : Prop := ∃ digits, number = parseInt digits

theorem shortest_of_produced {value : Nat} (h : Produced (.finite value)) :
    ofNat (shortest value) = .finite value := by
  obtain ⟨digits, hdigits⟩ := h
  exact ofNat_shortest (ofNat_of_ofNat hdigits.symm)

theorem notMem_exponential {digits : List Char} (h : ∀ c ∈ digits, c.isDigit = true) {c : Char}
    (hc : c.isDigit = false) (hne : c ∉ ['.', 'e', '+']) : c ∉ exponential digits := by
  rw [exponential_eq]
  simp only [List.mem_cons, List.not_mem_nil, or_false, not_or] at hne
  intro hm
  rcases List.mem_append.mp hm with hmantissa | hexponent
  · exact notMem_mantissa (notMem_digits
      (fun d hd => h d (mem_of_mem_significantDigits hd)) hc) hne.1 hmantissa
  · rcases List.mem_cons.mp hexponent with rfl | hexponent
    · exact hne.2.1 rfl
    · rcases List.mem_cons.mp hexponent with rfl | hexponent
      · exact hne.2.2 rfl
      · exact notMem_digits (fun d hd =>
          Nat.isDigit_of_mem_toDigits (by omega) (by omega) hd) hc hexponent

theorem isDigit_toDigits (value : Nat) : ∀ c ∈ Nat.toDigits 10 value, c.isDigit = true :=
  fun _ hc => Nat.isDigit_of_mem_toDigits (by omega) (by omega) hc

-- A character that is in no text of a number.
theorem notMem_text_finite {c : Char} (hdigit : c.isDigit = false)
    (hexponent : c ∉ ['.', 'e', '+']) (value : Nat) : c ∉ text (.finite value) := by
  unfold text
  simp only
  split
  · exact notMem_digits (isDigit_toDigits _) hdigit
  · exact notMem_exponential (isDigit_toDigits _) hdigit hexponent

theorem notMem_text {c : Char} (hdigit : c.isDigit = false) (hexponent : c ∉ ['.', 'e', '+'])
    (hinfinity : c ∉ "Infinity".toList) (number : Number) : c ∉ number.text := by
  cases number with
  | infinity => exact hinfinity
  | finite value => exact notMem_text_finite hdigit hexponent value

theorem text_infinity_ne (value : Nat) : text .infinity ≠ text (.finite value) := by
  intro h
  refine notMem_text_finite (show 'I'.isDigit = false by decide) (by decide) value ?_
  rw [← h]
  decide

theorem e_mem_exponential (digits : List Char) : 'e' ∈ exponential digits := by
  rw [exponential_eq]
  exact List.mem_append_right _ List.mem_cons_self

theorem text_finite_inj {first second : Nat} (h : text (.finite first) = text (.finite second)) :
    shortest first = shortest second := by
  unfold text at h
  simp only at h
  split at h <;> split at h
  · exact toDigits_inj h
  · have hmem := e_mem_exponential (Nat.toDigits 10 (shortest second))
    rw [← h] at hmem
    exact absurd hmem (notMem_digits (isDigit_toDigits _) (by decide))
  · have hmem := e_mem_exponential (Nat.toDigits 10 (shortest first))
    rw [h] at hmem
    exact absurd hmem (notMem_digits (isDigit_toDigits _) (by decide))
  · exact toDigits_inj (exponential_inj (isDigit_toDigits _) (isDigit_toDigits _)
      Nat.toDigits_ne_nil Nat.toDigits_ne_nil h)

-- Two numbers that print alike are the same.
theorem text_inj {first second : Number} (hfirst : Produced first) (hsecond : Produced second)
    (h : text first = text second) : first = second := by
  cases first with
  | infinity =>
      cases second with
      | infinity => rfl
      | finite value => exact absurd h (text_infinity_ne value)
  | finite value =>
      cases second with
      | infinity => exact absurd h.symm (text_infinity_ne value)
      | finite other =>
          rw [← shortest_of_produced hfirst, text_finite_inj h, shortest_of_produced hsecond]

end Injective

end Number

end OpenBalenaVpn
