import Mathlib.Data.List.Basic
import Mathlib.Data.List.Infix

namespace OpenBalenaVpn

-- How entries with a body in brackets are written one after another.
structure Bracketed (α : Type*) where
  label : List α
  opening : α
  closing : α
  separator : α
  closing_notMem : closing ∉ separator :: (label ++ [opening])

namespace Bracketed

variable {α : Type*} (format : Bracketed α)

def entry (body : List α) : List α :=
  format.label ++ format.opening :: body ++ [format.closing]

-- What was written before is kept, and the next entry comes after a separator.
def extend : Option (List α) → List α → List α
  | none, body => format.entry body
  | some header, body => header ++ format.separator :: format.entry body

def written (bodies : List (List α)) : Option (List α) :=
  bodies.foldl (fun header body => some (format.extend header body)) none

structure IsBody (body : List α) : Prop where
  opening_notMem : format.opening ∉ body
  closing_notMem : format.closing ∉ body

section Infix

-- A text that ends in `c` and is met in a text whose last part has its only `c` at
-- the end: it comes before that part, or it comes last.
theorem concat_infix_append_concat_iff {c : α} {last : List α} (h : c ∉ last)
    (text before : List α) :
    text ++ [c] <:+: before ++ last ++ [c] ↔ text ++ [c] <:+: before ∨ text <:+ before ++ last := by
  rw [List.infix_concat_iff, List.suffix_append_self_iff, or_comm]
  refine or_congr_left ⟨fun hinfix => ?_, List.infix_append_of_infix_left⟩
  rcases List.infix_append_iff_ne_nil.mp hinfix with hbefore | hlast | ⟨l, r, _, hr, hsplit, _, hpre⟩
  · exact hbefore
  · exact absurd (hlast.subset (List.mem_append_right text List.mem_cons_self)) h
  · -- the `c` at the end would be in the last part
    have hc : c ∈ r := by
      have hend := congrArg List.getLast? hsplit
      rw [List.getLast?_concat, List.getLast?_append_of_ne_nil l hr] at hend
      exact List.mem_of_getLast? hend.symm
    exact absurd (hpre.subset hc) h

-- Where two texts end alike, what follows their last `c` is the same.
theorem eq_of_cons_suffix {c : α} {body other text label : List α} (hbody : c ∉ body)
    (hother : c ∉ other) (h : label ++ c :: body <:+ text ++ c :: other) : body = other := by
  obtain ⟨before, h⟩ := h
  rw [← List.append_assoc] at h
  rcases List.append_eq_append_iff.mp h with ⟨rest, _, h⟩ | ⟨rest, _, h⟩
  · cases rest with
    | nil => exact (List.cons.inj h).2
    | cons d rest =>
        rw [List.cons_append, List.cons.injEq] at h
        exact absurd (h.2 ▸ List.mem_append_right rest List.mem_cons_self) hbody
  · cases rest with
    | nil => exact (List.cons.inj h).2.symm
    | cons d rest =>
        rw [List.cons_append, List.cons.injEq] at h
        exact absurd (h.2 ▸ List.mem_append_right rest List.mem_cons_self) hother

end Infix

section Written

variable {format}

-- An entry is met before the last one, or it is the last one. It is not met across both.
theorem entry_infix_append_iff {body other joint : List α} (hbody : format.IsBody body)
    (hother : format.IsBody other) (hjoint : format.closing ∉ joint) (before : List α) :
    format.entry body <:+: before ++ joint ++ format.entry other ↔
      format.entry body <:+: before ∨ body = other := by
  have hfixed := format.closing_notMem
  simp only [List.mem_cons, List.mem_append, List.not_mem_nil, or_false, not_or] at hfixed
  have hlast : format.closing ∉ joint ++ (format.label ++ format.opening :: other) := by
    simp only [List.mem_append, List.mem_cons, not_or]
    exact ⟨hjoint, hfixed.2.1, hfixed.2.2, hother.closing_notMem⟩
  have hsplit : before ++ joint ++ format.entry other =
      before ++ (joint ++ (format.label ++ format.opening :: other)) ++ [format.closing] := by
    simp only [entry, List.append_assoc]
  rw [hsplit, entry, concat_infix_append_concat_iff hlast]
  refine or_congr_right ⟨fun hsuffix => ?_, ?_⟩
  · rw [← List.append_assoc, ← List.append_assoc] at hsuffix
    exact eq_of_cons_suffix hbody.opening_notMem hother.opening_notMem hsuffix
  · rintro rfl
    exact ⟨before ++ joint, List.append_assoc _ _ _⟩

-- One more entry adds its own body to the bodies that are found, and no other.
theorem entry_infix_extend_iff {body other : List α} (hbody : format.IsBody body)
    (hother : format.IsBody other) (header : Option (List α)) :
    format.entry body <:+: format.extend header other ↔
      (∃ text ∈ header, format.entry body <:+: text) ∨ body = other := by
  cases header with
  | none =>
      have hiff := entry_infix_append_iff hbody hother List.not_mem_nil []
      have hne : ¬format.entry body <:+: [] := by simp [entry]
      simpa [extend, hne] using hiff
  | some text =>
      have hjoint : format.closing ∉ [format.separator] := fun hmem =>
        format.closing_notMem (List.mem_cons.mpr (Or.inl (List.mem_singleton.mp hmem)))
      have hiff := entry_infix_append_iff hbody hother hjoint text
      rw [List.append_assoc, List.singleton_append] at hiff
      simpa only [extend, Option.mem_some_iff, exists_eq_left'] using hiff

theorem written_concat (bodies : List (List α)) (body : List α) :
    format.written (bodies ++ [body]) = some (format.extend (format.written bodies) body) := by
  rw [written, List.foldl_append]
  rfl

-- The entries that are found in what was written are those that were written.
theorem entry_infix_written_iff {bodies : List (List α)} {body : List α}
    (hbodies : ∀ other ∈ bodies, format.IsBody other) (hbody : format.IsBody body) :
    (∃ text ∈ format.written bodies, format.entry body <:+: text) ↔ body ∈ bodies := by
  induction bodies using List.reverseRecOn with
  | nil => simp [written]
  | append_singleton bodies other ih =>
      have hinit := ih fun b hb => hbodies b (List.mem_append_left _ hb)
      have hother := hbodies other (List.mem_append_right _ List.mem_cons_self)
      simp only [written_concat, Option.mem_some_iff, exists_eq_left', List.mem_append,
        List.mem_singleton]
      rw [entry_infix_extend_iff hbody hother, hinit]

end Written

end Bracketed

end OpenBalenaVpn
