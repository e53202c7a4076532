import OpenBalenaVpn.Foundation.Json.Lemmas
import OpenBalenaVpn.Foundation.Uri
import Mathlib.Data.List.DropRight
import Mathlib.Data.List.TakeWhile

namespace OpenBalenaVpn.Uri

section Path

-- `url.parse` trims these units from the end of a URL.
def trimmed (unit : Nat) : Bool := unit ≤ 0x20 || unit = 0xA0 || unit = 0xFEFF

def endsPath (unit : Nat) : Bool := unit = '?'.toNat || unit = '#'.toNat

-- What is left for the path of a text at the end of a URL.
def pathPart (text : JsString) : JsString := (text.rdropWhile trimmed).takeWhile (!endsPath ·)

-- A text of which some ASCII characters are escaped. A '%' of the text stays, and looks like
-- an escape.
inductive Escapes : JsString → JsString → Prop where
  | nil : Escapes [] []
  | kept (unit : Nat) {text encoded : JsString} (hrest : Escapes text encoded) :
      Escapes (unit :: text) (unit :: encoded)
  | escaped (c : Char) {text encoded : JsString} (hascii : c.toNat < 0x80)
      (hpercent : c.toNat ≠ '%'.toNat) (hrest : Escapes text encoded) :
      Escapes (c.toNat :: text) (escape (UInt8.ofNat c.toNat) ++ encoded)

theorem escapes_refl (text : JsString) : Escapes text text := by
  induction text with
  | nil => exact .nil
  | cons unit text ih => exact .kept unit ih

theorem cut_trimmed (text : JsString) : pathPart text <+: text.rdropWhile trimmed :=
  List.takeWhile_prefix _

theorem trimmed_start (text : JsString) : text.rdropWhile trimmed <+: text :=
  List.rdropWhile_prefix _ _

theorem pathPart_start (text : JsString) : pathPart text <+: text :=
  (cut_trimmed text).trans (trimmed_start text)

theorem pathPart_eq_self_iff (text : JsString) : pathPart text = text ↔
    (∀ unit ∈ text, endsPath unit = false) ∧ ∀ unit ∈ text.getLast?, trimmed unit = false := by
  have hlast : text.rdropWhile trimmed = text ↔ ∀ unit ∈ text.getLast?, trimmed unit = false := by
    rw [List.rdropWhile_eq_self_iff]
    constructor
    · intro h unit hunit
      obtain ⟨hne, rfl⟩ := List.mem_getLast?_eq_getLast hunit
      exact Bool.not_eq_true _ ▸ h hne
    · intro h hne
      rw [h _ (List.getLast?_eq_some_getLast hne)]
      exact Bool.false_ne_true
  have hall : ∀ text : JsString, text.takeWhile (!endsPath ·) = text ↔
      ∀ unit ∈ text, endsPath unit = false := by
    intro text
    simp [List.takeWhile_eq_self_iff]
  constructor
  · intro h
    have hdrop : text.rdropWhile trimmed = text := by
      refine (trimmed_start text).eq_of_length_le ?_
      calc text.length = (pathPart text).length := by rw [h]
        _ ≤ (text.rdropWhile trimmed).length := (cut_trimmed text).length_le
    rw [pathPart, hdrop] at h
    exact ⟨(hall text).mp h, hlast.mp hdrop⟩
  · rintro ⟨hkept, hend⟩
    rw [pathPart, hlast.mpr hend, (hall text).mpr hkept]

-- Without a '%' in the text, the escapes are those of a text that is decoded as it was.
theorem encodes_of_escapes {text encoded : JsString} (h : Escapes text encoded)
    (hpercent : '%'.toNat ∉ text) : Encodes text encoded := by
  induction h with
  | nil => exact .nil
  | kept unit hrest ih =>
      rw [List.mem_cons, not_or] at hpercent
      exact .kept (Ne.symm hpercent.1) (ih hpercent.2)
  | escaped c hascii hother hrest ih =>
      have htext := ih fun hmem => hpercent (List.mem_cons_of_mem _ hmem)
      have hle : c.val.toNat ≤ 127 := Nat.le_of_lt_succ hascii
      have hbytes : String.utf8EncodeChar c = [UInt8.ofNat c.toNat] := by
        simp only [String.utf8EncodeChar, hle, if_true]
        rfl
      have hencodes := Encodes.escaped c htext
      rw [Json.utf16Char_of_lt (by omega), hbytes] at hencodes
      simpa using hencodes

end Path

section Length

theorem length_utf16Char_le (c : Char) :
    (utf16Char c).length ≤ (String.utf8EncodeChar c).length := by
  rw [String.length_utf8EncodeChar]
  unfold utf16Char
  split
  · exact Char.utf8Size_pos c
  · rename_i hlarge
    have hval : ¬c.val.toNat < 0x10000 := hlarge
    simp only [Char.utf8Size, UInt32.le_iff_toNat_le, List.length_cons, List.length_nil]
    split
    · rename_i hsmall
      have hlt : c.val.toNat ≤ 127 := hsmall
      omega
    · split
      · omega
      · split <;> omega

theorem length_utf16_le (text : List Char) : (utf16 text).length ≤ (Utf8.encode text).length := by
  induction text with
  | nil => exact Nat.le_refl _
  | cons c text ih =>
      have hchar := length_utf16Char_le c
      have hcons : utf16 (c :: text) = utf16Char c ++ utf16 text := rfl
      rw [hcons, Utf8.encode_cons, List.length_append, List.length_append]
      omega

theorem length_decodeRun {bytes : List UInt8} {run : JsString} (h : decodeRun bytes = some run) :
    run.length ≤ bytes.length := by
  unfold decodeRun at h
  split at h
  · rename_i hbytes
    obtain rfl := Option.some.inj h
    calc (utf16 (Utf8.decode bytes)).length
        ≤ (Utf8.encode (Utf8.decode bytes)).length := length_utf16_le _
      _ = bytes.length := by rw [hbytes]
  · cases h

theorem ne_percent_of_hexDigit {unit value : Nat} (h : Json.hexDigit unit = some value) :
    unit ≠ '%'.toNat := by
  rintro rfl
  cases h

-- An escape is three units for one byte.
theorem length_scan {encoded : JsString} {bytes : List UInt8} {text : JsString}
    (h : scan encoded = some (bytes, text)) :
    bytes.length + text.length + 2 * encoded.count '%'.toNat ≤ encoded.length := by
  induction encoded using scan.induct generalizing bytes text with
  | case1 =>
      obtain ⟨rfl, rfl⟩ := Prod.mk.inj (Option.some.inj h)
      exact Nat.le_refl _
  | case2 high low rest ih =>
      rw [scan, if_pos rfl] at h
      simp only [Option.bind_eq_some_iff, Option.map_eq_some_iff] at h
      obtain ⟨byte, hbyte, ⟨run, following⟩, hrest, hpair⟩ := h
      obtain ⟨rfl, rfl⟩ := Prod.mk.inj hpair
      simp only [hexByte, Option.bind_eq_bind, Option.bind_eq_some_iff] at hbyte
      obtain ⟨_, hhigh, _, hlow, _⟩ := hbyte
      have hle := ih hrest
      rw [List.count_cons_self, List.count_cons_of_ne (ne_percent_of_hexDigit hhigh),
        List.count_cons_of_ne (ne_percent_of_hexDigit hlow)]
      simp only [List.length_cons]
      omega
  | case3 rest hshort =>
      rw [scan, if_pos rfl] at h
      · cases h
      · exact hshort
  | case4 unit rest hunit ih =>
      rw [scan_cons hunit] at h
      simp only [Option.bind_eq_some_iff, Option.map_eq_some_iff] at h
      obtain ⟨⟨run, following⟩, hrest, decoded, hrun, hpair⟩ := h
      obtain ⟨rfl, rfl⟩ := Prod.mk.inj hpair
      have hle := ih hrest
      have hdecoded : decoded.length ≤ run.length := length_decodeRun hrun
      rw [List.count_cons_of_ne hunit]
      simp only [List.length_cons, List.length_nil, List.length_append]
      omega

theorem length_decodeURIComponent {encoded text : JsString}
    (h : decodeURIComponent encoded = some text) :
    text.length + 2 * encoded.count '%'.toNat ≤ encoded.length := by
  simp only [decodeURIComponent, Option.bind_eq_some_iff, Option.map_eq_some_iff] at h
  obtain ⟨⟨bytes, rest⟩, hscan, run, hrun, rfl⟩ := h
  have hle := length_scan hscan
  have hdecoded : run.length ≤ bytes.length := length_decodeRun hrun
  simp only [List.length_append]
  omega

theorem digit_ne_percent {value : Nat} (h : value < 16) : digit value ≠ '%'.toNat := by
  have hall : ∀ value < 16, digit value ≠ '%'.toNat := by decide
  exact hall value h

theorem count_escape (byte : UInt8) : (escape byte).count '%'.toNat = 1 := by
  have hlt := byte.toNat_lt
  rw [escape, List.count_cons_self, List.count_cons_of_ne (digit_ne_percent (by omega)),
    List.count_cons_of_ne (digit_ne_percent (by omega)), List.count_nil]

theorem Escapes.length {text encoded : JsString} (h : Escapes text encoded) :
    encoded.length + 2 * text.count '%'.toNat = text.length + 2 * encoded.count '%'.toNat := by
  induction h with
  | nil => rfl
  | kept unit hrest ih =>
      simp only [List.count_cons, List.length_cons]
      omega
  | escaped c hascii hpercent hrest ih =>
      have hthree : ∀ byte, (escape byte).length = 3 := fun _ => rfl
      rw [List.count_cons_of_ne hpercent, List.count_append, count_escape, List.length_append,
        hthree, List.length_cons]
      omega

-- A '%' that stays costs two units of what is decoded.
theorem Escapes.length_decoded {text encoded decoded : JsString} (h : Escapes text encoded)
    (hdecoded : decodeURIComponent encoded = some decoded) :
    decoded.length + 2 * text.count '%'.toNat ≤ text.length := by
  have hlength := h.length
  have hle := length_decodeURIComponent hdecoded
  omega

end Length

section Exact

variable {text encoded : JsString}

-- The path gives a text back if and only if the text ends no path, is not trimmed and has
-- no '%'.
theorem decode_pathPart_iff (h : Escapes (pathPart text) encoded) :
    decodeURIComponent encoded = some text ↔ pathPart text = text ∧ '%'.toNat ∉ text := by
  constructor
  · intro hdecoded
    have hle := h.length_decoded hdecoded
    have hsame : pathPart text = text := (pathPart_start text).eq_of_length_le (by omega)
    rw [hsame] at hle
    exact ⟨hsame, List.count_eq_zero.mp (by omega)⟩
  · rintro ⟨hsame, hpercent⟩
    rw [hsame] at h
    exact decode_of_encodes (encodes_of_escapes h hpercent)

end Exact

end OpenBalenaVpn.Uri
