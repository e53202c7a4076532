import OpenBalenaVpn.Foundation.JsString
import OpenBalenaVpn.Foundation.Json.Lemmas
import OpenBalenaVpn.Foundation.Utf8
import Mathlib.Data.List.DropRight

namespace OpenBalenaVpn.JsString

-- `text.split(/\r?\n/)`
def splitLines : JsString → List JsString
  | [] => [[]]
  | unit :: rest =>
      if unit = '\n'.toNat then [] :: splitLines rest
      else if unit = '\r'.toNat ∧ rest.head? = some '\n'.toNat then splitLines rest
      else (splitLines rest).modifyHead (unit :: ·)

def trimEnd (text : JsString) : JsString := text.rdropWhile isSpace

-- `text.trim()`
def trim (text : JsString) : JsString := (trimEnd text).dropWhile isSpace

section Units

theorem mem_utf16_iff {c : Char} (hc : c.toNat < 0xD800) (text : List Char) :
    c.toNat ∈ utf16 text ↔ c ∈ text := by
  constructor
  · intro h
    obtain ⟨other, ho, hmem⟩ := List.mem_flatMap.mp h
    unfold utf16Char at hmem
    split at hmem
    · rwa [Char.toNat_inj.mp (List.mem_singleton.mp hmem)]
    · simp only [List.mem_cons, List.not_mem_nil, or_false] at hmem
      omega
  · exact Json.toNat_mem_utf16 (by omega)

-- A replacement character is one unit, and no part of another character.
theorem count_utf16 (text : List Char) :
    (utf16 text).count Utf8.replacement.toNat = text.count Utf8.replacement := by
  induction text with
  | nil => rfl
  | cons c text ih =>
      have hone : (utf16Char c).count Utf8.replacement.toNat = [c].count Utf8.replacement := by
        by_cases hc : c.toNat < 0x10000
        · rw [Json.utf16Char_of_lt hc, List.count_singleton, List.count_singleton]
          simp only [beq_iff_eq, Char.toNat_inj]
        · have hne : c ≠ Utf8.replacement := by
            rintro rfl
            exact hc (by decide)
          have hvalid : c.toNat < 0x110000 := by
            rcases c.valid with h | h
            · exact Nat.lt_trans h (by decide)
            · exact h.2
          have hreplacement := Utf8.toNat_replacement
          rw [utf16Char, if_neg hc, List.count_cons_of_ne (by omega),
            List.count_cons_of_ne (by omega), List.count_cons_of_ne hne, List.count_nil,
            List.count_nil]
      rw [utf16, List.flatMap_cons, List.count_append, hone, ← utf16, ih, ← List.count_append]
      rfl

end Units

section Trim

theorem trimEnd_cons_congr (unit : Nat) {first second : JsString}
    (h : trimEnd first = trimEnd second) : trimEnd (unit :: first) = trimEnd (unit :: second) := by
  have hcons : ∀ text : JsString, trimEnd (unit :: text) =
      if trimEnd text = [] then trimEnd [unit] else unit :: trimEnd text := by
    intro text
    unfold trimEnd
    induction text using List.reverseRecOn with
    | nil => simp
    | append_singleton text last ih =>
        rw [← List.cons_append, List.rdropWhile_concat, List.rdropWhile_concat, ih]
        by_cases hspace : isSpace last <;> simp [hspace]
  rw [hcons first, hcons second, h]

theorem count_dropWhile {unit : Nat} (h : isSpace unit = false) (text : JsString) :
    (text.dropWhile isSpace).count unit = text.count unit := by
  induction text with
  | nil => rfl
  | cons first text ih =>
      by_cases hspace : isSpace first
      · have hne : first ≠ unit := by
          rintro rfl
          exact absurd hspace (by simp [h])
        rw [List.dropWhile_cons_of_pos hspace, ih, List.count_cons_of_ne hne]
      · rw [List.dropWhile_cons_of_neg hspace]

-- What is cut off is white space.
theorem count_trim {unit : Nat} (h : isSpace unit = false) (text : JsString) :
    (trim text).count unit = text.count unit := by
  rw [trim, count_dropWhile h, trimEnd, List.rdropWhile, List.count_reverse, count_dropWhile h,
    List.count_reverse]

theorem trimEnd_concat {unit : Nat} (h : isSpace unit = true) (text : JsString) :
    trimEnd (text ++ [unit]) = trimEnd text := List.rdropWhile_concat_pos _ _ _ h

theorem trimEnd_append {unit : Nat} (h : isSpace unit = false) (first rest : JsString) :
    trimEnd (first ++ unit :: rest) = first ++ unit :: trimEnd rest := by
  induction rest using List.reverseRecOn with
  | nil => exact List.rdropWhile_concat_neg _ _ _ (by simp [h])
  | append_singleton rest last ih =>
      have happend : first ++ unit :: (rest ++ [last]) = first ++ unit :: rest ++ [last] := by simp
      rw [happend]
      cases hlast : isSpace last with
      | true => rw [trimEnd_concat hlast, trimEnd_concat hlast, ih]
      | false =>
          rw [trimEnd, List.rdropWhile_concat_neg _ _ _ (by simp [hlast]), trimEnd,
            List.rdropWhile_concat_neg _ _ _ (by simp [hlast])]
          simp

-- Nothing is trimmed up to a unit that is no white space.
theorem trim_append {start unit : Nat} (hstart : isSpace start = false) (h : isSpace unit = false)
    (first rest : JsString) :
    trim (start :: first ++ unit :: rest) = start :: first ++ unit :: trimEnd rest := by
  rw [trim, trimEnd_append h, List.cons_append, List.dropWhile_cons_of_neg (by simp [hstart])]

end Trim

section Lines

variable {text : JsString}

theorem exists_last_of_mem {α : Type} {a : α} {xs : List α} (h : a ∈ xs) :
    ∃ first last, xs = first ++ a :: last ∧ a ∉ last := by
  obtain ⟨before, rest, hsplit, hbefore⟩ := List.eq_append_cons_of_mem (List.mem_reverse.mpr h)
  refine ⟨rest.reverse, before.reverse, ?_, fun hmem => hbefore (List.mem_reverse.mp hmem)⟩
  rw [← List.reverse_reverse xs, hsplit]
  simp

theorem split_append_cons (text rest : JsString) (separator : Char) :
    split (text ++ separator.toNat :: rest) separator =
      split text separator ++ split rest separator :=
  List.splitOn_append_cons_self text rest

-- All pieces but the last are the same, whatever is appended to the text.
theorem exists_split (text : JsString) (separator : Char) :
    ∃ pieces last, split text separator = pieces ++ [last] ∧
      ∀ rest, split (text ++ rest) separator = pieces ++ split (last ++ rest) separator := by
  by_cases hmem : separator.toNat ∈ text
  · obtain ⟨first, last, rfl, hlast⟩ := exists_last_of_mem hmem
    refine ⟨split first separator, last, ?_, fun rest => ?_⟩
    · rw [split_append_cons, split_of_notMem hlast]
    · rw [List.append_assoc, List.cons_append, split_append_cons]
  · exact ⟨[], text, split_of_notMem hmem, fun rest => rfl⟩

-- A line ends at its line feed. The carriage return before it is trimmed anyway.
theorem splitLines_split (text : JsString) :
    ∃ lines pieces last, splitLines text = lines ++ [last] ∧
      split text '\n' = pieces ++ [last] ∧ lines.map trimEnd = pieces.map trimEnd := by
  induction text with
  | nil => exact ⟨[], [], [], rfl, rfl, rfl⟩
  | cons unit rest ih =>
      obtain ⟨lines, pieces, last, hlines, hpieces, htrim⟩ := ih
      by_cases hfeed : unit = '\n'.toNat
      · subst hfeed
        refine ⟨[] :: lines, [] :: pieces, last, ?_, ?_, by simp only [List.map_cons, htrim]⟩
        · rw [splitLines, if_pos rfl, hlines, List.cons_append]
        · rw [← List.nil_append (_ :: rest), split_append_cons, hpieces]
          rfl
      have hsplit : split (unit :: rest) '\n' = (split rest '\n').modifyHead (unit :: ·) := by
        rw [split, List.splitOn_cons_eq_if_modifyHead, if_neg (by simpa using hfeed)]
        rfl
      rw [hsplit, hpieces]
      by_cases hreturn : unit = '\r'.toNat ∧ rest.head? = some '\n'.toNat
      · obtain ⟨rfl, hhead⟩ := hreturn
        obtain ⟨later, rfl⟩ : ∃ later, rest = '\n'.toNat :: later := by
          cases rest with
          | nil => cases hhead
          | cons next later => exact ⟨later, by rw [Option.some.inj hhead]⟩
        rw [← List.nil_append (_ :: later), split_append_cons] at hpieces
        cases pieces with
        | nil =>
            have hlength := congrArg List.length hpieces
            have hpos := List.length_pos_iff.mpr (List.splitOn_ne_nil '\n'.toNat later)
            simp only [split, List.splitOn_nil, List.length_append, List.length_cons,
              List.length_nil] at hlength
            omega
        | cons first pieces =>
            obtain ⟨rfl, _⟩ := List.cons.inj hpieces
            refine ⟨lines, ['\r'.toNat] :: pieces, last, ?_, rfl, ?_⟩
            · rw [splitLines, if_neg (by decide), if_pos ⟨rfl, rfl⟩, hlines]
            · rw [htrim]
              rfl
      · rw [splitLines, if_neg hfeed, if_neg hreturn, hlines]
        cases lines with
        | nil =>
            obtain rfl := List.map_eq_nil_iff.mp htrim.symm
            exact ⟨[], [], unit :: last, rfl, rfl, rfl⟩
        | cons line lines =>
            cases pieces with
            | nil => cases htrim
            | cons piece pieces =>
                obtain ⟨hline, hrest⟩ := List.cons.inj htrim
                refine ⟨(unit :: line) :: lines, (unit :: piece) :: pieces, last, rfl, rfl, ?_⟩
                rw [List.map_cons, List.map_cons, hrest, trimEnd_cons_congr unit hline]

theorem map_trim_congr {lines pieces : List JsString}
    (h : lines.map trimEnd = pieces.map trimEnd) : lines.map trim = pieces.map trim := by
  have htrim : trim = (fun text : JsString => text.dropWhile isSpace) ∘ trimEnd := rfl
  rw [htrim, ← List.map_map, ← List.map_map, h]

-- The lines of a text without the unfinished one, trimmed.
def finished (text : JsString) : List JsString := (splitLines text).dropLast.map trim

theorem finished_of_notMem (h : '\n'.toNat ∉ text) : finished text = [] := by
  obtain ⟨lines, pieces, last, hlines, hpieces, htrim⟩ := splitLines_split text
  rw [split_of_notMem h] at hpieces
  cases pieces with
  | nil =>
      obtain rfl := List.map_eq_nil_iff.mp htrim
      rw [finished, hlines]
      rfl
  | cons piece pieces =>
      have hlength := congrArg List.length hpieces
      simp at hlength

-- The unfinished line does not count.
theorem finished_append (text : JsString) {rest : JsString} (h : '\n'.toNat ∉ rest) :
    finished (text ++ '\n'.toNat :: rest) = (split text '\n').map trim := by
  obtain ⟨lines, pieces, last, hlines, hpieces, htrim⟩ :=
    splitLines_split (text ++ '\n'.toNat :: rest)
  rw [split_append_cons, split_of_notMem h] at hpieces
  obtain ⟨rfl, _⟩ := List.append_inj' hpieces rfl
  rw [finished, hlines, List.dropLast_concat, map_trim_congr htrim]

theorem finished_eq (text : JsString) : finished text = (split text '\n').dropLast.map trim := by
  obtain ⟨lines, pieces, last, hlines, hpieces, htrim⟩ := splitLines_split text
  rw [finished, hlines, hpieces, List.dropLast_concat, List.dropLast_concat,
    map_trim_congr htrim]

-- A line with its CR LF comes before the lines of the rest.
theorem finished_line {line : JsString} (h : '\n'.toNat ∉ line) (rest : JsString) :
    finished (line ++ ['\r'.toNat, '\n'.toNat] ++ rest) = trim line :: finished rest := by
  have hfeed : '\n'.toNat ∉ line ++ ['\r'.toNat] := by
    rw [List.mem_append, not_or]
    exact ⟨h, by decide⟩
  have hsplit : split (line ++ ['\r'.toNat, '\n'.toNat] ++ rest) '\n' =
      (line ++ ['\r'.toNat]) :: split rest '\n' := by
    have happend : line ++ ['\r'.toNat, '\n'.toNat] ++ rest =
        (line ++ ['\r'.toNat]) ++ '\n'.toNat :: rest := by simp
    rw [happend, split_append hfeed]
  have hne : split rest '\n' ≠ [] := List.splitOn_ne_nil _ rest
  rw [finished_eq, hsplit, List.dropLast_cons_of_ne_nil hne, List.map_cons, ← finished_eq, trim,
    trimEnd_concat (by decide), trim]

theorem count_split {unit : Nat} (h : unit ≠ '\n'.toNat) (text : JsString) :
    (split text '\n').flatten.count unit = text.count unit := by
  induction text with
  | nil => rfl
  | cons first text ih =>
      rw [split, List.splitOn_cons_eq_if_modifyHead]
      split
      · rename_i heq
        obtain rfl := beq_iff_eq.mp heq
        rw [List.flatten_cons, List.nil_append, List.count_cons_of_ne (Ne.symm h)]
        exact ih
      · rw [List.count_cons, ← ih, split]
        obtain ⟨line, lines, hlines⟩ := List.exists_cons_of_ne_nil
          (List.splitOn_ne_nil '\n'.toNat text)
        rw [hlines, List.modifyHead_cons, List.flatten_cons, List.cons_append, List.count_cons,
          List.flatten_cons]

theorem count_map_trim {unit : Nat} (h : isSpace unit = false) (lines : List JsString) :
    (lines.map trim).flatten.count unit = lines.flatten.count unit := by
  induction lines with
  | nil => rfl
  | cons line lines ih =>
      rw [List.map_cons, List.flatten_cons, List.flatten_cons, List.count_append,
        List.count_append, count_trim h, ih]

-- The lines have what the text has, other than white space.
theorem count_finished {unit : Nat} (h : isSpace unit = false) (text : JsString)
    {rest : JsString} (hrest : '\n'.toNat ∉ rest) :
    (finished (text ++ '\n'.toNat :: rest)).flatten.count unit = text.count unit := by
  have hne : unit ≠ '\n'.toNat := by
    rintro rfl
    exact absurd h (by decide)
  rw [finished_append text hrest, count_map_trim h, count_split hne]

end Lines

end OpenBalenaVpn.JsString
