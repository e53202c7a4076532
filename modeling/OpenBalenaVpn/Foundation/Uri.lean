import OpenBalenaVpn.Foundation.JsString
import OpenBalenaVpn.Foundation.Utf8.Encode

namespace OpenBalenaVpn.Uri

section Decoder

def hexByte (high low : Nat) : Option UInt8 := do
  let high ← Json.hexDigit high
  let low ← Json.hexDigit low
  some (UInt8.ofNat (high * 16 + low))

-- The text of a run of escaped bytes, where they are the bytes of a text.
def decodeRun (bytes : List UInt8) : Option JsString :=
  if Utf8.encode (Utf8.decode bytes) = bytes then some (utf16 (Utf8.decode bytes)) else none

-- The run of escaped bytes at the start, and the text after it.
def scan : JsString → Option (List UInt8 × JsString)
  | [] => some ([], [])
  | unit :: rest =>
      if unit = '%'.toNat then
        match rest with
        | high :: low :: rest =>
            (hexByte high low).bind fun byte =>
              (scan rest).map fun (bytes, text) => (byte :: bytes, text)
        | _ => none
      else
        (scan rest).bind fun (bytes, text) =>
          (decodeRun bytes).map fun run => ([], unit :: (run ++ text))

-- None stands for the URIError.
def decodeURIComponent (text : JsString) : Option JsString :=
  (scan text).bind fun (bytes, text) => (decodeRun bytes).map fun run => run ++ text

end Decoder

section Encoder

def digit (value : Nat) : Nat := if value < 10 then '0'.toNat + value else 'A'.toNat + (value - 10)

def escape (byte : UInt8) : JsString :=
  ['%'.toNat, digit (byte.toNat / 16), digit (byte.toNat % 16)]

-- A text of which some characters are escaped. The others are kept, and none of them is
-- the escape itself.
inductive Encodes : JsString → JsString → Prop where
  | nil : Encodes [] []
  | kept {unit : Nat} {text encoded : JsString} (hunit : unit ≠ '%'.toNat)
      (hrest : Encodes text encoded) : Encodes (unit :: text) (unit :: encoded)
  | escaped (c : Char) {text encoded : JsString} (hrest : Encodes text encoded) :
      Encodes (utf16Char c ++ text) ((String.utf8EncodeChar c).flatMap escape ++ encoded)

theorem hexDigit_digit {value : Nat} (h : value < 16) :
    Json.hexDigit (digit value) = some value := by
  have hall : ∀ value < 16, Json.hexDigit (digit value) = some value := by decide
  exact hall value h

theorem hexByte_digits (byte : UInt8) :
    hexByte (digit (byte.toNat / 16)) (digit (byte.toNat % 16)) = some byte := by
  have hlt := byte.toNat_lt
  have hvalue : byte.toNat / 16 * 16 + byte.toNat % 16 = byte.toNat := Nat.div_add_mod' _ _
  rw [hexByte, hexDigit_digit (by omega), hexDigit_digit (by omega)]
  simp only [Option.bind_eq_bind, Option.bind_some, hvalue, UInt8.ofNat_toNat]

theorem scan_cons {unit : Nat} (h : unit ≠ '%'.toNat) (rest : JsString) :
    scan (unit :: rest) = (scan rest).bind fun (bytes, text) =>
      (decodeRun bytes).map fun run => ([], unit :: (run ++ text)) := by
  rw [scan.eq_def]
  exact if_neg h

theorem scan_escape (byte : UInt8) (rest : JsString) :
    scan (escape byte ++ rest) =
      (scan rest).map fun (bytes, text) => (byte :: bytes, text) := by
  rw [escape, List.cons_append, List.cons_append, List.cons_append, List.nil_append, scan,
    if_pos rfl]
  simp only [hexByte_digits, Option.bind_some]

theorem scan_flatMap_escape (bytes : List UInt8) (rest : JsString) :
    scan (bytes.flatMap escape ++ rest) =
      (scan rest).map fun (run, text) => (bytes ++ run, text) := by
  induction bytes with
  | nil => simp
  | cons byte bytes ih =>
      rw [List.flatMap_cons, List.append_assoc, scan_escape, ih, Option.map_map]
      rfl

theorem decodeRun_encode (text : List Char) :
    decodeRun (Utf8.encode text) = some (utf16 text) := by
  rw [decodeRun, Utf8.decode_encode, if_pos rfl]

theorem scan_of_encodes {text encoded : JsString} (h : Encodes text encoded) :
    ∃ run rest, scan encoded = some (Utf8.encode run, rest) ∧ text = utf16 run ++ rest := by
  induction h with
  | nil => exact ⟨[], [], rfl, rfl⟩
  | kept hunit hrest ih =>
      rename_i unit text encoded
      obtain ⟨run, rest, hscan, rfl⟩ := ih
      refine ⟨[], unit :: (utf16 run ++ rest), ?_, rfl⟩
      rw [scan_cons hunit, hscan, Option.bind_some]
      simp only [decodeRun_encode, Option.map_some]
      rfl
  | escaped c hrest ih =>
      obtain ⟨run, rest, hscan, rfl⟩ := ih
      refine ⟨c :: run, rest, ?_, ?_⟩
      · rw [scan_flatMap_escape, hscan, Option.map_some, Utf8.encode_cons]
      · exact (List.append_assoc _ _ _).symm

-- However the text was escaped, it is decoded as it was.
theorem decode_of_encodes {text encoded : JsString} (h : Encodes text encoded) :
    decodeURIComponent encoded = some text := by
  obtain ⟨run, rest, hscan, rfl⟩ := scan_of_encodes h
  rw [decodeURIComponent, hscan, Option.bind_some]
  simp only [decodeRun_encode, Option.map_some]

example : decodeURIComponent (utf16 "a%C3%A9%20b".toList) = some (utf16 "a\u00e9 b".toList) := by
  decide +kernel

end Encoder

end OpenBalenaVpn.Uri
