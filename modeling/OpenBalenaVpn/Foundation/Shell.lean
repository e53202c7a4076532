import OpenBalenaVpn.Foundation.Http
import Mathlib.Data.List.Basic

namespace OpenBalenaVpn.Shell

-- The lines of a file. The newline at its end ends its last line.
def lines (file : Text) : List Text :=
  let pieces := file.splitOn '\n'
  if pieces.getLast? = some [] then pieces.dropLast else pieces

-- `grep "^start"`
def grepStart (start : Text) (lines : List Text) : List Text := lines.filter (start.isPrefixOf ·)

-- A field of a line for `cut -d -f`, which prints a line without the delimiter as it is.
def cut (delimiter : Char) (field : Nat) (line : Text) : Text :=
  if delimiter ∈ line then (line.splitOn delimiter).getD (field - 1) [] else line

-- `$(...)` of a command that prints these lines: the newlines at the end are dropped.
def substitute (lines : List Text) : Text :=
  ((lines.flatMap (· ++ ['\n'])).reverse.dropWhile (· = '\n')).reverse

section Lines

theorem lines_singleton {line : Text} (h : '\n' ∉ line) : lines (line ++ ['\n']) = [line] := by
  have hsplit : (line ++ ['\n']).splitOn '\n' = [line, []] := by
    rw [List.splitOn_append_cons_self_of_not_mem h, List.splitOn_nil]
  simp [lines, hsplit]

theorem substitute_singleton {line : Text} (h : '\n' ∉ line) : substitute [line] = line := by
  have hdrop : line.reverse.dropWhile (· = '\n') = line.reverse := by
    cases hr : line.reverse with
    | nil => rfl
    | cons c rest =>
        have hc : c ≠ '\n' := by
          rintro rfl
          exact h (List.mem_reverse.mp (hr ▸ List.mem_cons_self))
        exact List.dropWhile_cons_of_neg (by simpa using hc)
  simp [substitute, hdrop]

end Lines

section Assignments

variable {name value : Text}

theorem grepStart_assignment (name value : Text) :
    grepStart (name ++ ['=']) [name ++ '=' :: value] = [name ++ '=' :: value] := by
  have hprefix : (name ++ ['=']).isPrefixOf (name ++ '=' :: value) = true :=
    List.isPrefixOf_iff_prefix.mpr ⟨value, by simp⟩
  simp [grepStart, hprefix]

theorem cut_assignment (hname : '=' ∉ name) (hvalue : '=' ∉ value) :
    cut '=' 2 (name ++ '=' :: value) = value := by
  have hsplit : (name ++ '=' :: value).splitOn '=' = [name, value] := by
    rw [List.splitOn_append_cons_self_of_not_mem hname, List.splitOn_eq_singleton hvalue]
  rw [cut, if_pos (List.mem_append_right name List.mem_cons_self), hsplit]
  rfl

-- What `$(grep "^name=" file | cut -d= -f2)` is where the file assigns the variable once.
theorem substitute_assignment (hname : '=' ∉ name ∧ '\n' ∉ name) (hvalue : '=' ∉ value ∧ '\n' ∉ value) :
    substitute ((grepStart (name ++ ['=']) (lines (name ++ '=' :: value ++ ['\n']))).map
      (cut '=' 2)) = value := by
  have hline : '\n' ∉ name ++ '=' :: value := by
    simp only [List.mem_append, List.mem_cons, not_or]
    exact ⟨hname.2, by decide, hvalue.2⟩
  rw [lines_singleton hline, grepStart_assignment, List.map_singleton,
    cut_assignment hname.1 hvalue.1, substitute_singleton hvalue.2]

end Assignments

section Joined

-- One turn of a loop that builds a list: a separator comes before all pieces but the first.
def join (separator : Char) (joined piece : Text) : Text :=
  if joined ≠ [] then joined ++ separator :: piece else piece

theorem intercalate_join {separator : Char} {joined : Text} (h : joined ≠ []) (piece : Text)
    (pieces : List Text) : [separator].intercalate (join separator joined piece :: pieces) =
      [separator].intercalate (joined :: piece :: pieces) := by
  rw [join, if_pos h]
  cases pieces with
  | nil => simp [List.intercalate_cons_cons]
  | cons next pieces => simp [List.intercalate_cons_cons]

theorem foldl_join_of_ne_nil {separator : Char} {pieces : List Text}
    (hpieces : ∀ piece ∈ pieces, piece ≠ []) {joined : Text} (h : joined ≠ []) :
    pieces.foldl (join separator) joined = [separator].intercalate (joined :: pieces) := by
  induction pieces generalizing joined with
  | nil => exact List.intercalate_singleton.symm
  | cons piece pieces ih =>
      have hjoin : join separator joined piece ≠ [] := by simp [join, h]
      rw [List.foldl_cons, ih (fun other ho => hpieces other (List.mem_cons_of_mem _ ho)) hjoin,
        intercalate_join h]

theorem foldl_join {separator : Char} {pieces : List Text}
    (hpieces : ∀ piece ∈ pieces, piece ≠ []) :
    pieces.foldl (join separator) [] = [separator].intercalate pieces := by
  cases pieces with
  | nil => rfl
  | cons piece pieces =>
      have hpiece := hpieces piece List.mem_cons_self
      exact foldl_join_of_ne_nil (fun other ho => hpieces other (List.mem_cons_of_mem _ ho)) hpiece

end Joined

end OpenBalenaVpn.Shell
