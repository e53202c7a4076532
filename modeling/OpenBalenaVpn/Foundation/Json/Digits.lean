import OpenBalenaVpn.Foundation.Json.Lemmas
import OpenBalenaVpn.Foundation.Number

namespace OpenBalenaVpn.Json

section Digits

-- A natural number as JSON wants it written.
structure Natural (literal : JsString) : Prop where
  digits : ∀ unit ∈ literal, isDigit unit = true
  nonempty : literal ≠ []
  leading : literal.head? = some '0'.toNat → literal = ['0'.toNat]

theorem parseDigits_of_digits {literal : JsString} (hdigits : ∀ unit ∈ literal, isDigit unit = true)
    (hne : literal ≠ []) {unit : Nat} (hunit : isDigit unit = false) (rest : JsString) :
    parseDigits (literal ++ unit :: rest) = some (literal, unit :: rest) := by
  rw [parseDigits, List.takeWhile_append_of_pos hdigits, List.dropWhile_append_of_pos hdigits,
    List.takeWhile_cons_of_neg (by simp [hunit]), List.dropWhile_cons_of_neg (by simp [hunit]),
    List.append_nil]
  exact if_neg hne

theorem Natural.parseInteger {literal : JsString} (h : Natural literal) {unit : Nat}
    (hunit : isDigit unit = false) (rest : JsString) :
    Json.parseInteger (literal ++ unit :: rest) = some (literal, unit :: rest) := by
  have hread := parseDigits_of_digits h.digits h.nonempty hunit rest
  cases literal with
  | nil => exact absurd rfl h.nonempty
  | cons digit digits =>
      by_cases hzero : digit = '0'.toNat
      · obtain ⟨rfl, rfl⟩ := List.cons.inj (h.leading (congrArg some hzero))
        rfl
      · rw [List.cons_append, Json.parseInteger, if_neg hzero]
        exact hread

theorem Natural.parseNumber {literal : JsString} (h : Natural literal) {unit : Nat}
    (hunit : unit = ','.toNat ∨ unit = '}'.toNat) (rest : JsString) :
    Json.parseNumber (literal ++ unit :: rest) = some (literal, unit :: rest) := by
  have hdigit : isDigit unit = false := by rcases hunit with rfl | rfl <;> rfl
  have hfraction : parseFraction (unit :: rest) = some ([], unit :: rest) := by
    rcases hunit with rfl | rfl <;> rfl
  have hexponent : parseExponent (unit :: rest) = some ([], unit :: rest) := by
    rcases hunit with rfl | rfl <;> rfl
  have hminus : parseMinus (literal ++ unit :: rest) = ([], literal ++ unit :: rest) := by
    cases literal with
    | nil => exact absurd rfl h.nonempty
    | cons digit digits =>
        have hne : digit ≠ '-'.toNat := by
          rintro rfl
          exact absurd (h.digits _ List.mem_cons_self) (by decide)
        exact if_neg hne
  rw [Json.parseNumber, hminus]
  simp only [Option.bind_eq_bind, h.parseInteger hdigit, Option.bind_some, hfraction, hexponent,
    List.nil_append, List.append_nil]

theorem parseValue_digit {digit : Nat} (hdigit : isDigit digit = true) (fuel : Nat)
    (rest : JsString) : parseValue (fuel + 1) (digit :: rest) =
      (parseNumber (digit :: rest)).map fun (literal, rest) => (.number literal, rest) := by
  have hne : ∀ c : Char, isDigit c.toNat = false → digit ≠ c.toNat := by
    rintro c hc rfl
    cases hdigit.symm.trans hc
  rw [parseValue, if_neg (hne '{' rfl), if_neg (hne '[' rfl), if_neg (hne '"' rfl),
    if_neg (hne 't' rfl), if_neg (hne 'f' rfl), if_neg (hne 'n' rfl)]

theorem isSpace_of_isDigit {unit : Nat} (h : isDigit unit = true) : isSpace unit = false := by
  simp only [isDigit, Bool.and_eq_true, decide_eq_true_eq] at h
  have hzero : '0'.toNat = 0x30 := rfl
  simp only [isSpace, Bool.or_eq_false_iff, decide_eq_false_iff_not]
  omega

theorem reads_natural {literal : JsString} (h : Natural literal) :
    Reads literal (.number literal) := by
  intro fuel unit rest hunit
  cases hliteral : literal with
  | nil => exact absurd hliteral h.nonempty
  | cons digit digits =>
      have hdigit := h.digits digit (hliteral ▸ List.mem_cons_self)
      rw [List.cons_append, skipSpace_of_not_isSpace (isSpace_of_isDigit hdigit),
        parseValue_digit hdigit, ← List.cons_append, ← hliteral, h.parseNumber hunit]
      rfl

theorem utf16_eq_map {text : List Char} (h : ∀ c ∈ text, c.toNat < 0x10000) :
    utf16 text = text.map Char.toNat := by
  induction text with
  | nil => rfl
  | cons c text ih =>
      have htail := ih fun other ho => h other (List.mem_cons_of_mem c ho)
      rw [utf16_cons (h c List.mem_cons_self), htail, List.map_cons]

theorem head?_toDigits {n : Nat} (h : 0 < n) : (Nat.toDigits 10 n).head? ≠ some '0' := by
  induction n using Nat.strongRecOn with
  | ind n ih =>
      by_cases hlt : n < 10
      · rw [Nat.toDigits_of_lt_base hlt]
        have hdigit : ∀ n < 10, 0 < n → [Nat.digitChar n].head? ≠ some '0' := by decide
        exact hdigit n hlt h
      · rw [Nat.toDigits_of_base_le (by omega) (Nat.le_of_not_lt hlt)]
        have hrest := ih (n / 10) (by omega) (by omega)
        cases hdigits : Nat.toDigits 10 (n / 10) with
        | nil => exact absurd hdigits Nat.toDigits_ne_nil
        | cons c digits => rwa [hdigits] at hrest

theorem toNat_lt_of_isDigit {c : Char} (h : c.isDigit = true) :
    '0'.toNat ≤ c.toNat ∧ c.toNat ≤ '9'.toNat := by
  simpa [Char.isDigit, Char.le_def, UInt32.le_iff_toNat_le] using h

theorem utf16_toDigits (n : Nat) :
    utf16 (Nat.toDigits 10 n) = (Nat.toDigits 10 n).map Char.toNat := by
  refine utf16_eq_map fun c hc => ?_
  have hle := (toNat_lt_of_isDigit (Number.isDigit_toDigits n c hc)).2
  exact Nat.lt_of_le_of_lt hle (by decide)

theorem natural_toDigits (n : Nat) : Natural (utf16 (Nat.toDigits 10 n)) where
  digits unit hunit := by
    rw [utf16_toDigits] at hunit
    obtain ⟨c, hc, rfl⟩ := List.mem_map.mp hunit
    simpa [isDigit] using toNat_lt_of_isDigit (Number.isDigit_toDigits n c hc)
  nonempty := by
    rw [utf16_toDigits]
    simp
  leading hzero := by
    rw [utf16_toDigits, List.head?_map] at hzero
    rcases Nat.eq_zero_or_pos n with rfl | hpos
    · rfl
    · obtain ⟨c, hc, hchar⟩ := Option.map_eq_some_iff.mp hzero
      exact absurd (Char.toNat_inj.mp hchar ▸ hc) (head?_toDigits hpos)

end Digits

end OpenBalenaVpn.Json
