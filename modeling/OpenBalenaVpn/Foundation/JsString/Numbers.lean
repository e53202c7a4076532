import OpenBalenaVpn.Foundation.JsString
import OpenBalenaVpn.Foundation.Json.Digits
import OpenBalenaVpn.Foundation.Number.Double
import Mathlib.Data.List.TakeWhile

namespace OpenBalenaVpn

namespace JsString

section Digits

theorem isSpace_of_isDigit {unit : Nat} (h : Json.isDigit unit = true) : isSpace unit = false := by
  simp only [Json.isDigit, Bool.and_eq_true, decide_eq_true_eq] at h
  have hzero : '0'.toNat = 0x30 := rfl
  have hnine : '9'.toNat = 0x39 := rfl
  simp only [isSpace, List.mem_cons, List.not_mem_nil, or_false, Bool.or_eq_false_iff,
    decide_eq_false_iff_not, Bool.and_eq_false_imp, decide_eq_true_eq]
  omega

theorem sign_of_digit {digit : Nat} (h : Json.isDigit digit = true) (rest : JsString) :
    sign (digit :: rest) = (false, digit :: rest) := by
  have hne : ∀ c : Char, Json.isDigit c.toNat = false → digit ≠ c.toNat := by
    rintro c hc rfl
    cases h.symm.trans hc
  rw [sign, if_neg (hne '-' rfl), if_neg (hne '+' rfl)]

theorem parseInt_toDigits (value : Nat) :
    parseInt (utf16 (Nat.toDigits 10 value)) = .number false (Number.ofNat value) := by
  have hnatural := Json.natural_toDigits value
  have hchars : (utf16 (Nat.toDigits 10 value)).map Char.ofNat = Nat.toDigits 10 value := by
    rw [Json.utf16_toDigits, List.map_map]
    exact List.map_id'' (fun c => Char.ofNat_toNat c) _
  have htake : (utf16 (Nat.toDigits 10 value)).takeWhile Json.isDigit =
      utf16 (Nat.toDigits 10 value) := List.takeWhile_eq_self_iff.mpr hnatural.digits
  cases hunits : utf16 (Nat.toDigits 10 value) with
  | nil => exact absurd hunits hnatural.nonempty
  | cons digit rest =>
      have hdigit := hnatural.digits digit (hunits ▸ List.mem_cons_self)
      have hspace := isSpace_of_isDigit hdigit
      rw [hunits] at htake hchars
      rw [parseInt, List.dropWhile_cons_of_neg (by simp [hspace]), sign_of_digit hdigit]
      simp only [htake, hchars, List.cons_ne_nil, if_false, Number.parseInt,
        Nat.ofDigitChars_ten_toDigits]

end Digits

end JsString

namespace Double

open Number

section Reparse

-- The text of a number in a template literal.
def text : Double → List Char
  | .nan => "NaN".toList
  | .infinity negative => (if negative then ['-'] else []) ++ Number.text .infinity
  | .finite integer => integer.text

def ofParsed : ParsedInt → Double
  | .nan => .nan
  | .number negative (.finite magnitude) => ofInt (if negative then -magnitude else magnitude)
  | .number negative .infinity => .infinity negative

-- `parseInt(number, 10)` reads the text of the number.
def reparse (double : Double) : Double := ofParsed (JsString.parseInt (utf16 double.text))

theorem ofInt_of_finite {n : Int} {value : Nat} (hn : 0 ≤ n)
    (h : ofNat n.natAbs = .finite value) : ofInt n = ofInt value := by
  obtain ⟨first, hfirst, hsame⟩ := value_eq_some (value_ofInt_of_finite h)
  obtain ⟨second, hsecond, hother⟩ := value_eq_some (@value_ofInt_of_finite value value
    (ofNat_of_ofNat h))
  have hvalue : first.value = second.value := by
    rw [hsame, hother, if_neg (by omega), if_neg (by omega)]
  rw [hfirst, hsecond]
  cases first
  cases second
  cases hvalue
  rfl

-- A number that prints as its digits is read as it is.
theorem reparse_ofInt {n : Int} (hn : 0 ≤ n) (hplain : n < plainBound) :
    (ofInt n).reparse = ofInt n := by
  have hprints : Plain (ofNat n.natAbs) := (plain_ofNat_iff _).mpr (by omega)
  obtain ⟨value, hvalue⟩ : ∃ value, ofNat n.natAbs = .finite value := by
    cases h : ofNat n.natAbs with
    | finite value => exact ⟨value, rfl⟩
    | infinity =>
        rw [h] at hprints
        cases hprints
  rw [hvalue] at hprints
  have hexact := ofNat_of_ofNat hvalue
  rw [ofInt_of_finite hn hvalue]
  obtain ⟨integer, hinteger, hsame⟩ := value_eq_some (@value_ofInt_of_finite value value hexact)
  rw [if_neg (by omega)] at hsame
  have htext : (ofInt value).text = Nat.toDigits 10 (shortest value) := by
    have hnonneg : ¬integer.value < 0 := by omega
    rw [hinteger, text, Integer.text, if_neg hnonneg, hsame, List.nil_append, Int.natAbs_natCast,
      text_of_plain hprints]
  rw [reparse, htext, JsString.parseInt_toDigits, ofNat_shortest hexact]
  rfl

end Reparse

end Double

end OpenBalenaVpn
