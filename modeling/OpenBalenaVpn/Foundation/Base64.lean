import Mathlib.Data.List.GetD

namespace OpenBalenaVpn.Base64

def alphabet : List Char :=
  "ABCDEFGHIJKLMNOPQRSTUVWXYZabcdefghijklmnopqrstuvwxyz0123456789+/".toList

def sextet (n : Nat) : Char := alphabet.getD n '/'

-- Three bytes make four characters, and the last group is padded.
def encode : List UInt8 → List Char
  | [] => []
  | [a] => [sextet (a.toNat / 4), sextet (a.toNat % 4 * 16), '=', '=']
  | [a, b] => [sextet (a.toNat / 4), sextet (a.toNat % 4 * 16 + b.toNat / 16),
      sextet (b.toNat % 16 * 4), '=']
  | a :: b :: c :: rest => sextet (a.toNat / 4) :: sextet (a.toNat % 4 * 16 + b.toNat / 16) ::
      sextet (b.toNat % 16 * 4 + c.toNat / 64) :: sextet (c.toNat % 64) :: encode rest

-- The standard alphabet, and the two characters of the one for urls.
def sextetOf (c : Char) : Option Nat :=
  if c = '-' then some 62 else if c = '_' then some 63 else alphabet.idxOf? c

def fromSextets : List Nat → List UInt8
  | a :: b :: c :: d :: rest => UInt8.ofNat (a * 4 + b / 16) ::
      UInt8.ofNat (b % 16 * 16 + c / 4) :: UInt8.ofNat (c % 4 * 64 + d) :: fromSextets rest
  | [a, b, c] => [UInt8.ofNat (a * 4 + b / 16), UInt8.ofNat (b % 16 * 16 + c / 4)]
  | [a, b] => [UInt8.ofNat (a * 4 + b / 16)]
  | _ => []

-- `Buffer.from(text, 'base64')`: the text ends at its padding, and other characters do not
-- count.
def decode (text : List Char) : List UInt8 :=
  fromSextets ((text.takeWhile (· ≠ '=')).filterMap sextetOf)

theorem sextet_mem (n : Nat) : sextet n ∈ alphabet := by
  unfold sextet
  by_cases h : n < alphabet.length
  · rw [List.getD_eq_getElem _ _ h]
    exact List.getElem_mem h
  · rw [List.getD_eq_default _ _ (by omega)]
    decide

theorem mem_encode {bytes : List UInt8} {c : Char} (h : c ∈ encode bytes) :
    c ∈ alphabet ∨ c = '=' := by
  induction bytes using encode.induct with
  | case1 => cases h
  | case2 a =>
      simp only [encode, List.mem_cons, List.not_mem_nil, or_false] at h
      rcases h with rfl | rfl | rfl | rfl <;> simp [sextet_mem]
  | case3 a b =>
      simp only [encode, List.mem_cons, List.not_mem_nil, or_false] at h
      rcases h with rfl | rfl | rfl | rfl <;> simp [sextet_mem]
  | case4 a b c rest ih =>
      simp only [encode, List.mem_cons] at h
      rcases h with rfl | rfl | rfl | rfl | h
      · exact Or.inl (sextet_mem _)
      · exact Or.inl (sextet_mem _)
      · exact Or.inl (sextet_mem _)
      · exact Or.inl (sextet_mem _)
      · exact ih h

theorem sextet_digit : ∀ n < 64, sextetOf (sextet n) = some n ∧ sextet n ≠ '=' := by
  decide +kernel

theorem takeWhile_sextet {n : Nat} (h : n < 64) (rest : List Char) :
    ((sextet n :: rest).takeWhile (· ≠ '=')).filterMap sextetOf =
      n :: (rest.takeWhile (· ≠ '=')).filterMap sextetOf := by
  obtain ⟨hdigit, hne⟩ := sextet_digit n h
  rw [List.takeWhile_cons_of_pos (by simpa using hne), List.filterMap_cons_some hdigit]

-- What was encoded is decoded as it was.
theorem decode_encode (bytes : List UInt8) : decode (encode bytes) = bytes := by
  have hbyte : ∀ {byte : UInt8} {n : Nat}, n = byte.toNat → UInt8.ofNat n = byte := by
    rintro byte n rfl
    exact UInt8.ofNat_toNat
  unfold decode
  induction bytes using encode.induct with
  | case1 => rfl
  | case2 a =>
      have ha := a.toNat_lt
      rw [encode, takeWhile_sextet (by omega), takeWhile_sextet (by omega)]
      exact congrArg (· :: []) (hbyte (by omega))
  | case3 a b =>
      have ha := a.toNat_lt
      have hb := b.toNat_lt
      rw [encode, takeWhile_sextet (by omega), takeWhile_sextet (by omega),
        takeWhile_sextet (by omega)]
      exact congrArg₂ (fun first second => [first, second]) (hbyte (by omega)) (hbyte (by omega))
  | case4 a b c rest ih =>
      have ha := a.toNat_lt
      have hb := b.toNat_lt
      have hc := c.toNat_lt
      rw [encode, takeWhile_sextet (by omega), takeWhile_sextet (by omega),
        takeWhile_sextet (by omega), takeWhile_sextet (by omega), fromSextets, ih]
      rw [hbyte (show _ = a.toNat by omega), hbyte (show _ = b.toNat by omega),
        hbyte (show _ = c.toNat by omega)]

end OpenBalenaVpn.Base64
