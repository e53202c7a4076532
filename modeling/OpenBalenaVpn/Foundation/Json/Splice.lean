import OpenBalenaVpn.Foundation.Json.Lemmas
import Mathlib.Data.List.Induction

namespace OpenBalenaVpn.Json

-- What a text is read back as that a program has put between two quotes.
section Splice

def Unescaped (value : JsString) : Prop := ∀ unit ∈ value, unit ≠ '"'.toNat ∧ unit ≠ '\\'.toNat

theorem unescaped_of_charsWeight_le {value : JsString} (h : charsWeight value ≤ value.length) :
    Unescaped value := by
  refine fun unit hmem => ⟨fun hquote => ?_, fun hbackslash => ?_⟩
  · have hlt := length_lt_charsWeight hmem (Or.inl hquote)
    omega
  · have hlt := length_lt_charsWeight hmem (Or.inr hbackslash)
    omega

theorem parseChars_quote (rest : JsString) : parseChars ('"'.toNat :: rest) = some ([], rest) :=
  parseChars_of_readsChars (.quote rest)

theorem parseChars_control {unit : Nat} (hunit : unit < 0x20) (rest : JsString) :
    parseChars (unit :: rest) = none := by
  have hquote : unit ≠ '"'.toNat := fun heq => absurd (heq ▸ hunit) (by decide)
  have hslash : unit ≠ '\\'.toNat := fun heq => absurd (heq ▸ hunit) (by decide)
  rw [parseChars.eq_def]
  simp only [if_neg hquote, if_neg hslash, if_pos hunit]

theorem head_of_parseChars_nil {text rest : JsString} (h : parseChars text = some ([], rest)) :
    text.head? = some '"'.toNat := by
  cases readsChars_of_parseChars h with
  | quote => rfl

-- A literal that comes to a quote, or to the end, before any backslash.
theorem unescaped_of_no_backslash {start more value rest : JsString}
    (hbackslash : '\\'.toNat ∉ start) (hquote : '"'.toNat ∈ start ∨ more = [])
    (h : parseChars (start ++ more) = some (value, rest)) : Unescaped value := by
  induction start generalizing value with
  | nil =>
      rcases hquote with hmem | rfl
      · cases hmem
      · cases h
  | cons unit start ih =>
      by_cases hunit : unit = '"'.toNat
      · subst hunit
        rw [List.cons_append, parseChars_quote] at h
        obtain ⟨rfl, _⟩ := Prod.mk.inj (Option.some.inj h)
        exact nofun
      · have hslash : unit ≠ '\\'.toNat := fun heq => hbackslash (heq ▸ List.mem_cons_self)
        by_cases hcontrol : unit < 0x20
        · rw [List.cons_append, parseChars_control hcontrol] at h
          cases h
        · rw [List.cons_append, parseChars_cons ⟨Nat.le_of_not_lt hcontrol, hunit, hslash⟩] at h
          obtain ⟨⟨tail, rest'⟩, htail, heq⟩ := Option.map_eq_some_iff.mp h
          obtain ⟨rfl, rfl⟩ := Prod.mk.inj heq
          have hrest := ih (fun hmem => hbackslash (List.mem_cons_of_mem _ hmem))
            (hquote.imp_left fun hmem => (List.mem_cons.mp hmem).resolve_left (Ne.symm hunit)) htail
          exact List.forall_mem_cons.mpr ⟨⟨hunit, hslash⟩, hrest⟩

theorem hexUnit_ne_quote {a b c d unit : Nat} (h : hexUnit a b c d = some unit) :
    a ≠ '"'.toNat ∧ b ≠ '"'.toNat ∧ c ≠ '"'.toNat ∧ d ≠ '"'.toNat := by
  have hne : ∀ {digit value : Nat}, hexDigit digit = some value → digit ≠ '"'.toNat := by
    rintro _ value hvalue rfl
    cases (show none = some value from hvalue)
  obtain ⟨_, ha, h⟩ := Option.bind_eq_some_iff.mp h
  obtain ⟨_, hb, h⟩ := Option.bind_eq_some_iff.mp h
  obtain ⟨_, hc, h⟩ := Option.bind_eq_some_iff.mp h
  obtain ⟨_, hd, _⟩ := Option.bind_eq_some_iff.mp h
  exact ⟨hne ha, hne hb, hne hc, hne hd⟩

theorem cons_of_splice {start after text : JsString} {unit quote : Nat} (hne : unit ≠ quote)
    (h : start ++ quote :: after = unit :: text) :
    ∃ tail, start = unit :: tail ∧ tail ++ quote :: after = text := by
  cases start with
  | nil => exact absurd (List.cons.inj h).1.symm hne
  | cons first tail =>
      obtain ⟨rfl, htail⟩ := List.cons.inj h
      exact ⟨tail, rfl, htail⟩

-- A literal either ends by the quote after the spliced text, or has that quote in it
-- because the spliced text ends with a backslash.
def Ends (start after value rest : JsString) : Prop :=
  charsWeight value ≤ start.length ∨ ∃ before more chars, start = before ++ ['\\'.toNat] ∧
    parseChars after = some (chars, rest) ∧ value = more ++ '"'.toNat :: chars

theorem Ends.cons {start after value rest : JsString} (h : Ends start after value rest)
    (read : JsString) {unit : Nat} (hread : unitWeight unit ≤ read.length) :
    Ends (read ++ start) after (unit :: value) rest := by
  rcases h with hle | ⟨before, more, chars, rfl, hchars, rfl⟩
  · refine Or.inl ?_
    rw [charsWeight_cons, List.length_append]
    omega
  · exact Or.inr ⟨read ++ before, unit :: more, chars, (List.append_assoc _ _ _).symm, hchars, rfl⟩

theorem parseChars_splice {start after value rest : JsString}
    (h : parseChars (start ++ '"'.toNat :: after) = some (value, rest)) :
    Ends start after value rest := by
  have hslash : '\\'.toNat ≠ '"'.toNat := by decide
  replace h := readsChars_of_parseChars h
  generalize htext : start ++ '"'.toNat :: after = text at h
  induction h generalizing start with
  | quote => exact Or.inl (Nat.zero_le _)
  | @hex a b c d unit text value rest hunit _ ih =>
      obtain ⟨ha, hb, hc, hd⟩ := hexUnit_ne_quote hunit
      obtain ⟨s₁, rfl, h₁⟩ := cons_of_splice hslash htext
      obtain ⟨s₂, rfl, h₂⟩ := cons_of_splice (by decide) h₁
      obtain ⟨s₃, rfl, h₃⟩ := cons_of_splice ha h₂
      obtain ⟨s₄, rfl, h₄⟩ := cons_of_splice hb h₃
      obtain ⟨s₅, rfl, h₅⟩ := cons_of_splice hc h₄
      obtain ⟨s₆, rfl, h₆⟩ := cons_of_splice hd h₅
      exact (ih h₆).cons [_, _, a, b, c, d] (Nat.le_trans (unitWeight_le unit) (by simp))
  | @escape escape unit text value rest hunit hreads ih =>
      obtain ⟨s₁, rfl, h₁⟩ := cons_of_splice hslash htext
      cases s₁ with
      | nil =>
          -- the backslash escapes the quote after the spliced text
          obtain ⟨rfl, rfl⟩ := List.cons.inj h₁
          obtain rfl : '"'.toNat = unit := Option.some.inj hunit
          exact Or.inr ⟨[], [], value, rfl, parseChars_of_readsChars hreads, rfl⟩
      | cons first s₂ =>
          obtain ⟨rfl, h₂⟩ := List.cons.inj h₁
          exact (ih h₂).cons [_, first] (unitWeight_le unit)
  | @plain unit text value rest hquote hbackslash _ _ ih =>
      obtain ⟨s₁, rfl, h₁⟩ := cons_of_splice hquote htext
      have hweight : unitWeight unit = 1 := if_neg (not_or.mpr ⟨hquote, hbackslash⟩)
      exact (ih h₁).cons [unit] (Nat.le_of_eq hweight)

theorem suffix_append_cases {start before after : JsString} (h : start <:+ before ++ after) :
    start <:+ after ∨ ∃ tail, tail ≠ [] ∧ tail <:+ before ∧ start = tail ++ after := by
  rcases List.suffix_or_suffix_of_suffix h (List.suffix_append before after) with hle | hge
  · exact Or.inl hle
  · obtain ⟨tail, rfl⟩ := hge
    cases tail with
    | nil => exact Or.inl List.suffix_rfl
    | cons unit tail =>
        exact Or.inr ⟨_, List.cons_ne_nil _ _, List.suffix_append_self_iff.mp h, rfl⟩

-- A text with a backslash at its end is not read back by a literal that goes beyond it.
theorem not_parseChars_of_getLast {value after first more chars rest : JsString}
    (hafter : '\\'.toNat ∉ after) (hnext : after.head? ≠ some '"'.toNat)
    (htail : first ++ ['\\'.toNat] <:+ value) (hvalue : value = more ++ '"'.toNat :: chars) :
    parseChars after ≠ some (chars, rest) := by
  intro hrest
  obtain ⟨earlier, hearlier⟩ := htail
  have hlast : value.getLast? = some '\\'.toNat := by
    rw [← hearlier, ← List.append_assoc, List.getLast?_concat]
  have hclean : Unescaped chars := unescaped_of_no_backslash hafter (Or.inr rfl)
    (by rwa [List.append_nil])
  induction chars using List.reverseRecOn with
  | nil => exact hnext (head_of_parseChars_nil hrest)
  | append_singleton chars unit _ =>
      rw [hvalue, ← List.cons_append, ← List.append_assoc, List.getLast?_concat] at hlast
      exact (hclean unit List.mem_concat_self).2 (Option.some.inj hlast)

-- A text between two quotes that is read back anywhere needs no escape.
theorem unescaped_of_literal {before value after : JsString} (hbefore : '\\'.toNat ∉ before)
    (hafter : '\\'.toNat ∉ after) (hnext : after.head? ≠ some '"'.toNat)
    (h : Literal (before ++ '"'.toNat :: (value ++ '"'.toNat :: after)) value) :
    Unescaped value := by
  obtain ⟨start, rest, hsuffix, hchars⟩ := h
  have hsplit : before ++ '"'.toNat :: (value ++ '"'.toNat :: after) =
      (before ++ ['"'.toNat]) ++ (value ++ '"'.toNat :: after) := by simp
  rw [hsplit] at hsuffix
  have hlate : '\\'.toNat ∉ '"'.toNat :: after := by
    rw [List.mem_cons, not_or]
    exact ⟨by decide, hafter⟩
  have hearly : '\\'.toNat ∉ before ++ ['"'.toNat] :=
    fun hmem => (List.mem_append.mp hmem).elim hbefore (by decide)
  rcases suffix_append_cases hsuffix with hsuffix | ⟨tail, hne, htail, rfl⟩
  · rcases suffix_append_cases hsuffix with htail | ⟨tail, _, htail, rfl⟩
    · -- the literal starts behind the text
      rw [← List.append_nil start] at hchars
      exact unescaped_of_no_backslash (fun hmem => hlate (htail.mem hmem)) (Or.inr rfl) hchars
    · rcases parseChars_splice hchars with hle | ⟨first, more, chars, rfl, hrest, hvalue⟩
      · exact unescaped_of_charsWeight_le (Nat.le_trans hle htail.length_le)
      · exact absurd hrest (not_parseChars_of_getLast hafter hnext htail hvalue)
  · -- the literal starts before the text, and comes to the quote in front of it
    obtain ⟨_, rfl, _⟩ := (List.suffix_concat_iff.mp htail).resolve_left hne
    exact unescaped_of_no_backslash (fun hmem => hearly (htail.mem hmem))
      (Or.inl List.mem_concat_self) hchars

end Splice

end OpenBalenaVpn.Json
