import OpenBalenaVpn.Foundation.Json
import Mathlib.Algebra.Ring.Nat

namespace OpenBalenaVpn.Json

section Suffix

variable {text rest : JsString}

theorem skipSpace_suffix (text : JsString) : skipSpace text <:+ text :=
  List.dropWhile_suffix isSpace

-- What `parseChars` does where it succeeds: a quote ends the literal, and before it come
-- escapes and code units that stand for themselves.
inductive ReadsChars : JsString → JsString → JsString → Prop where
  | quote (rest : JsString) : ReadsChars ('"'.toNat :: rest) [] rest
  | hex {a b c d unit : Nat} {text value rest : JsString} (hunit : hexUnit a b c d = some unit)
      (h : ReadsChars text value rest) :
      ReadsChars ('\\'.toNat :: 'u'.toNat :: a :: b :: c :: d :: text) (unit :: value) rest
  | escape {escape unit : Nat} {text value rest : JsString} (hunit : escaped escape = some unit)
      (h : ReadsChars text value rest) :
      ReadsChars ('\\'.toNat :: escape :: text) (unit :: value) rest
  | plain {unit : Nat} {text value rest : JsString} (hquote : unit ≠ '"'.toNat)
      (hbackslash : unit ≠ '\\'.toNat) (hcontrol : ¬unit < 0x20) (h : ReadsChars text value rest) :
      ReadsChars (unit :: text) (unit :: value) rest

theorem readsChars_of_parseChars {value : JsString} (h : parseChars text = some (value, rest)) :
    ReadsChars text value rest := by
  fun_induction parseChars text generalizing value rest with
  | case1 | case3 | case5 | case7 => cases h
  | case2 rest' =>
      obtain ⟨rfl, rfl⟩ := Prod.mk.inj (Option.some.inj h)
      exact .quote rest'
  | case4 a b c d rest' hne ih =>
      obtain ⟨unit, hunit, h⟩ := Option.bind_eq_some_iff.mp h
      obtain ⟨⟨tail, rest''⟩, htail, h⟩ := Option.bind_eq_some_iff.mp h
      obtain ⟨rfl, rfl⟩ := Prod.mk.inj (Option.some.inj h)
      exact .hex hunit (ih htail)
  | case6 escape rest' hu hne ih =>
      obtain ⟨unit, hunit, h⟩ := Option.bind_eq_some_iff.mp h
      obtain ⟨⟨tail, rest''⟩, htail, h⟩ := Option.bind_eq_some_iff.mp h
      obtain ⟨rfl, rfl⟩ := Prod.mk.inj (Option.some.inj h)
      exact .escape hunit (ih htail)
  | case8 unit rest' hquote hbackslash hcontrol ih =>
      obtain ⟨⟨tail, rest''⟩, htail, h⟩ := Option.bind_eq_some_iff.mp h
      obtain ⟨rfl, rfl⟩ := Prod.mk.inj (Option.some.inj h)
      exact .plain hquote hbackslash hcontrol (ih htail)

theorem parseChars_of_readsChars {value : JsString} (h : ReadsChars text value rest) :
    parseChars text = some (value, rest) := by
  induction h with
  | quote rest =>
      rw [parseChars.eq_def]
      exact if_pos rfl
  | hex hunit _ ih =>
      rw [parseChars.eq_def]
      simp [hunit, ih]
  | @escape escape unit text value rest hunit _ ih =>
      have hne : escape ≠ 'u'.toNat := by
        rintro rfl
        cases hunit
      have hslash : '\\'.toNat ≠ '"'.toNat := by decide
      rw [parseChars.eq_def]
      simp only [if_neg hslash, if_true, if_neg hne, hunit, ih]
      rfl
  | plain hquote hbackslash hcontrol _ ih =>
      rw [parseChars.eq_def]
      simp only [if_neg hquote, if_neg hbackslash, if_neg hcontrol, ih]
      rfl

theorem parseChars_suffix {value : JsString} (h : parseChars text = some (value, rest)) :
    rest <:+ text := by
  replace h := readsChars_of_parseChars h
  induction h with
  | quote rest => exact List.suffix_cons _ rest
  | @hex a b c d _ text _ _ _ _ ih =>
      exact ih.trans (List.suffix_append [_, _, a, b, c, d] text)
  | @escape escape _ text _ _ _ _ ih => exact ih.trans (List.suffix_append [_, escape] text)
  | @plain unit text _ _ _ _ _ _ ih => exact ih.trans (List.suffix_cons unit text)

theorem parseString_suffix {value : JsString} (h : parseString text = some (value, rest)) :
    rest <:+ text := by
  unfold parseString at h
  split at h
  · cases h
  · split at h
    · exact (parseChars_suffix h).trans (List.suffix_cons _ _)
    · cases h

theorem parseUnit_suffix {expected : Char} (h : parseUnit expected text = some rest) :
    rest <:+ text := by
  unfold parseUnit at h
  split at h
  · cases h
  · split at h
    · obtain rfl := Option.some.inj h
      exact List.suffix_cons _ _
    · cases h

theorem parseWord_suffix {word : List Char} {value result : Json}
    (h : parseWord word value text = some (result, rest)) : rest <:+ text := by
  obtain ⟨rest', hdrop, h⟩ := Option.map_eq_some_iff.mp h
  obtain ⟨_, rfl⟩ := Prod.mk.inj h
  obtain ⟨before, rfl, _⟩ := List.dropPrefix?_eq_some_iff.mp hdrop
  exact List.suffix_append _ _

theorem parseWord_value {word : List Char} {value result : Json}
    (h : parseWord word value text = some (result, rest)) : result = value := by
  obtain ⟨rest', _, h⟩ := Option.map_eq_some_iff.mp h
  exact (Prod.mk.inj h).1.symm

theorem parseDigits_suffix {digits : JsString} (h : parseDigits text = some (digits, rest)) :
    rest <:+ text := by
  unfold parseDigits at h
  simp only at h
  split at h
  · cases h
  · obtain ⟨_, rfl⟩ := Prod.mk.inj (Option.some.inj h)
    exact List.dropWhile_suffix isDigit

theorem parseInteger_suffix {integer : JsString} (h : parseInteger text = some (integer, rest)) :
    rest <:+ text := by
  unfold parseInteger at h
  split at h
  · cases h
  · split at h
    · obtain ⟨_, rfl⟩ := Prod.mk.inj (Option.some.inj h)
      exact List.suffix_cons _ _
    · exact parseDigits_suffix h

theorem parseFraction_suffix {fraction : JsString}
    (h : parseFraction text = some (fraction, rest)) : rest <:+ text := by
  unfold parseFraction at h
  split at h
  · obtain ⟨_, rfl⟩ := Prod.mk.inj (Option.some.inj h)
    exact List.suffix_rfl
  · split at h
    · obtain ⟨⟨digits, rest'⟩, hdigits, h⟩ := Option.bind_eq_some_iff.mp h
      obtain ⟨_, rfl⟩ := Prod.mk.inj (Option.some.inj h)
      exact (parseDigits_suffix hdigits).trans (List.suffix_cons _ _)
    · obtain ⟨_, rfl⟩ := Prod.mk.inj (Option.some.inj h)
      exact List.suffix_rfl

theorem parseSign_suffix (text : JsString) : (parseSign text).2 <:+ text := by
  unfold parseSign
  split
  · exact List.suffix_rfl
  · split
    · exact List.suffix_cons _ _
    · exact List.suffix_rfl

theorem parseExponent_suffix {exponent : JsString}
    (h : parseExponent text = some (exponent, rest)) : rest <:+ text := by
  unfold parseExponent at h
  split at h
  · obtain ⟨_, rfl⟩ := Prod.mk.inj (Option.some.inj h)
    exact List.suffix_rfl
  · rename_i unit tail
    split at h
    · obtain ⟨⟨digits, rest'⟩, hdigits, h⟩ := Option.bind_eq_some_iff.mp h
      obtain ⟨_, rfl⟩ := Prod.mk.inj (Option.some.inj h)
      have hsign : rest' <:+ (parseSign tail).2 := parseDigits_suffix hdigits
      exact (hsign.trans (parseSign_suffix tail)).trans (List.suffix_cons unit tail)
    · obtain ⟨_, rfl⟩ := Prod.mk.inj (Option.some.inj h)
      exact List.suffix_rfl

theorem parseMinus_suffix (text : JsString) : (parseMinus text).2 <:+ text := by
  unfold parseMinus
  split
  · exact List.suffix_rfl
  · split
    · exact List.suffix_cons _ _
    · exact List.suffix_rfl

theorem parseNumber_suffix {literal : JsString} (h : parseNumber text = some (literal, rest)) :
    rest <:+ text := by
  obtain ⟨⟨integer, rest₁⟩, hinteger, h⟩ := Option.bind_eq_some_iff.mp h
  obtain ⟨⟨fraction, rest₂⟩, hfraction, h⟩ := Option.bind_eq_some_iff.mp h
  obtain ⟨⟨exponent, rest₃⟩, hexponent, h⟩ := Option.bind_eq_some_iff.mp h
  obtain ⟨_, rfl⟩ := Prod.mk.inj (Option.some.inj h)
  have h₁ : rest₁ <:+ (parseMinus text).2 := parseInteger_suffix hinteger
  have h₂ : rest₂ <:+ rest₁ := parseFraction_suffix hfraction
  have h₃ : rest₃ <:+ rest₂ := parseExponent_suffix hexponent
  exact ((h₃.trans h₂).trans h₁).trans (parseMinus_suffix text)

end Suffix

section Found

-- What a value can be, by its first code unit.
theorem parseValue_cases {fuel : Nat} {text rest : JsString} {value : Json}
    (h : parseValue (fuel + 1) text = some (value, rest)) :
    ∃ unit tail, text = unit :: tail ∧
      ((∃ members, value = .object members ∧
        (members = [] ∧ parseUnit '}' (skipSpace tail) = some rest ∨
          parseMembers fuel (skipSpace tail) = some (members, rest))) ∨
      (∃ items, value = .array items ∧
        (items = [] ∧ parseUnit ']' (skipSpace tail) = some rest ∨
          parseItems fuel (skipSpace tail) = some (items, rest))) ∨
      (∃ chars, value = .string chars ∧ parseChars tail = some (chars, rest)) ∨
      (∃ word, (value = .null ∨ ∃ bool, value = .bool bool) ∧
        parseWord word value text = some (value, rest)) ∨
      ∃ literal, value = .number literal ∧ parseNumber text = some (literal, rest)) := by
  cases text with
  | nil => cases h
  | cons unit tail =>
      refine ⟨unit, tail, rfl, ?_⟩
      simp only [parseValue] at h
      split_ifs at h
      · split at h
        · rename_i hbrace
          obtain ⟨rfl, rfl⟩ := Prod.mk.inj (Option.some.inj h)
          exact Or.inl ⟨[], rfl, Or.inl ⟨rfl, hbrace⟩⟩
        · obtain ⟨⟨members, rest'⟩, hmembers, h⟩ := Option.map_eq_some_iff.mp h
          obtain ⟨rfl, rfl⟩ := Prod.mk.inj h
          exact Or.inl ⟨members, rfl, Or.inr hmembers⟩
      · split at h
        · rename_i hbracket
          obtain ⟨rfl, rfl⟩ := Prod.mk.inj (Option.some.inj h)
          exact Or.inr (Or.inl ⟨[], rfl, Or.inl ⟨rfl, hbracket⟩⟩)
        · obtain ⟨⟨items, rest'⟩, hitems, h⟩ := Option.map_eq_some_iff.mp h
          obtain ⟨rfl, rfl⟩ := Prod.mk.inj h
          exact Or.inr (Or.inl ⟨items, rfl, Or.inr hitems⟩)
      · obtain ⟨⟨chars, rest'⟩, hchars, h⟩ := Option.map_eq_some_iff.mp h
        obtain ⟨rfl, rfl⟩ := Prod.mk.inj h
        exact Or.inr (Or.inr (Or.inl ⟨chars, rfl, hchars⟩))
      · obtain rfl := parseWord_value h
        exact Or.inr (Or.inr (Or.inr (Or.inl ⟨_, Or.inr ⟨_, rfl⟩, h⟩)))
      · obtain rfl := parseWord_value h
        exact Or.inr (Or.inr (Or.inr (Or.inl ⟨_, Or.inr ⟨_, rfl⟩, h⟩)))
      · obtain rfl := parseWord_value h
        exact Or.inr (Or.inr (Or.inr (Or.inl ⟨_, Or.inl rfl, h⟩)))
      · obtain ⟨⟨literal, rest'⟩, hnumber, h⟩ := Option.map_eq_some_iff.mp h
        obtain ⟨rfl, rfl⟩ := Prod.mk.inj h
        exact Or.inr (Or.inr (Or.inr (Or.inr ⟨literal, rfl, hnumber⟩)))

theorem parseValue_object_cases {fuel : Nat} {text rest : JsString}
    {members : List (JsString × Json)}
    (h : parseValue (fuel + 1) text = some (.object members, rest)) :
    ∃ unit tail, text = unit :: tail ∧
      (members = [] ∨ parseMembers fuel (skipSpace tail) = some (members, rest)) := by
  obtain ⟨unit, tail, htext, hcases⟩ := parseValue_cases h
  refine ⟨unit, tail, htext, ?_⟩
  rcases hcases with ⟨others, hobject, hmembers⟩ | ⟨_, harray, _⟩ | ⟨_, hstring, _⟩ |
    ⟨_, hword, _⟩ | ⟨_, hnumber, _⟩
  · obtain rfl := Json.object.inj hobject
    exact hmembers.imp_left And.left
  · cases harray
  · cases hstring
  · rcases hword with hnull | ⟨_, hbool⟩
    · cases hnull
    · cases hbool
  · cases hnumber

-- A string literal of the text, after its opening quote.
def Literal (text value : JsString) : Prop :=
  ∃ start rest, start <:+ text ∧ parseChars start = some (value, rest)

theorem Literal.mono {text more value : JsString} (h : Literal text value) (hs : text <:+ more) :
    Literal more value := by
  obtain ⟨start, rest, hstart, hchars⟩ := h
  exact ⟨start, rest, hstart.trans hs, hchars⟩

-- What each of the three parsers leaves, and where it has its strings from, by induction
-- on the fuel that they share.
structure Finds (fuel : Nat) : Prop where
  value : ∀ text value rest, parseValue fuel text = some (value, rest) →
    rest <:+ text ∧ ∀ chars, value = .string chars → Literal text chars
  members : ∀ text members rest, parseMembers fuel text = some (members, rest) →
    rest <:+ text ∧ ∀ key chars, (key, .string chars) ∈ members → Literal text chars
  items : ∀ text items rest, parseItems fuel text = some (items, rest) → rest <:+ text

theorem parseMembers_finds {fuel : Nat} (ih : Finds fuel) {text rest : JsString}
    {members : List (JsString × Json)}
    (h : parseMembers (fuel + 1) text = some (members, rest)) :
    rest <:+ text ∧ ∀ key chars, (key, .string chars) ∈ members → Literal text chars := by
  obtain ⟨⟨key, rest₁⟩, hkey, h⟩ := Option.bind_eq_some_iff.mp h
  obtain ⟨rest₂, hcolon, h⟩ := Option.bind_eq_some_iff.mp h
  obtain ⟨⟨value, rest₃⟩, hvalue, h⟩ := Option.bind_eq_some_iff.mp h
  have h₁ : skipSpace rest₁ <:+ text := (skipSpace_suffix rest₁).trans (parseString_suffix hkey)
  have h₂ : skipSpace rest₂ <:+ text :=
    ((skipSpace_suffix rest₂).trans (parseUnit_suffix hcolon)).trans h₁
  obtain ⟨hrest, hfirst⟩ := ih.value _ _ _ hvalue
  have h₃ : skipSpace rest₃ <:+ text := ((skipSpace_suffix rest₃).trans hrest).trans h₂
  have hvalue : ∀ other chars, (other, Json.string chars) = (key, value) → Literal text chars :=
    fun other chars heq => (hfirst chars (Prod.mk.inj heq).2.symm).mono h₂
  simp only at h
  split at h
  · rename_i rest₄ hcomma
    obtain ⟨⟨later, rest₅⟩, hlater, h⟩ := Option.bind_eq_some_iff.mp h
    obtain ⟨rfl, rfl⟩ := Prod.mk.inj (Option.some.inj h)
    have h₄ : skipSpace rest₄ <:+ text :=
      ((skipSpace_suffix rest₄).trans (parseUnit_suffix hcomma)).trans h₃
    obtain ⟨hrest, hmembers⟩ := ih.members _ _ _ hlater
    refine ⟨hrest.trans h₄, fun other chars hmem => ?_⟩
    rcases List.mem_cons.mp hmem with heq | hmem
    · exact hvalue other chars heq
    · exact (hmembers other chars hmem).mono h₄
  · obtain ⟨rest₄, hbrace, h⟩ := Option.map_eq_some_iff.mp h
    obtain ⟨rfl, rfl⟩ := Prod.mk.inj h
    exact ⟨(parseUnit_suffix hbrace).trans h₃,
      fun other chars hmem => hvalue other chars (List.mem_singleton.mp hmem)⟩

theorem parseItems_finds {fuel : Nat} (ih : Finds fuel) {text rest : JsString} {items : List Json}
    (h : parseItems (fuel + 1) text = some (items, rest)) : rest <:+ text := by
  obtain ⟨⟨item, rest₁⟩, hitem, h⟩ := Option.bind_eq_some_iff.mp h
  have h₁ : skipSpace rest₁ <:+ text :=
    (skipSpace_suffix rest₁).trans (ih.value _ _ _ hitem).1
  simp only at h
  split at h
  · rename_i rest₂ hcomma
    obtain ⟨⟨later, rest₃⟩, hlater, h⟩ := Option.bind_eq_some_iff.mp h
    obtain ⟨_, rfl⟩ := Prod.mk.inj (Option.some.inj h)
    have h₂ : skipSpace rest₂ <:+ text :=
      ((skipSpace_suffix rest₂).trans (parseUnit_suffix hcomma)).trans h₁
    exact (ih.items _ _ _ hlater).trans h₂
  · obtain ⟨rest₂, hbracket, h⟩ := Option.map_eq_some_iff.mp h
    obtain ⟨_, rfl⟩ := Prod.mk.inj h
    exact (parseUnit_suffix hbracket).trans h₁

theorem parseValue_finds {fuel : Nat} (ih : Finds fuel) {text rest : JsString} {value : Json}
    (h : parseValue (fuel + 1) text = some (value, rest)) :
    rest <:+ text ∧ ∀ chars, value = .string chars → Literal text chars := by
  obtain ⟨unit, tail, rfl, hcases⟩ := parseValue_cases h
  have htail : skipSpace tail <:+ unit :: tail :=
    (skipSpace_suffix tail).trans (List.suffix_cons unit tail)
  rcases hcases with ⟨members, rfl, ⟨rfl, hbrace⟩ | hmembers⟩ |
    ⟨items, rfl, ⟨rfl, hbracket⟩ | hitems⟩ | ⟨chars, rfl, hchars⟩ | ⟨word, hword, hparse⟩ |
    ⟨literal, rfl, hnumber⟩
  · exact ⟨(parseUnit_suffix hbrace).trans htail, fun _ heq => by cases heq⟩
  · exact ⟨(ih.members _ _ _ hmembers).1.trans htail, fun _ heq => by cases heq⟩
  · exact ⟨(parseUnit_suffix hbracket).trans htail, fun _ heq => by cases heq⟩
  · exact ⟨(ih.items _ _ _ hitems).trans htail, fun _ heq => by cases heq⟩
  · refine ⟨(parseChars_suffix hchars).trans (List.suffix_cons unit tail), fun other heq => ?_⟩
    obtain rfl := Json.string.inj heq
    exact ⟨tail, rest, List.suffix_cons unit tail, hchars⟩
  · refine ⟨parseWord_suffix hparse, fun chars heq => ?_⟩
    subst heq
    rcases hword with hnull | ⟨_, hbool⟩
    · cases hnull
    · cases hbool
  · exact ⟨parseNumber_suffix hnumber, fun _ heq => by cases heq⟩

theorem finds (fuel : Nat) : Finds fuel := by
  induction fuel with
  | zero =>
      refine ⟨fun text _ _ h => ?_, fun _ _ _ h => ?_, fun _ _ _ h => ?_⟩
      · cases text <;> cases h
      · cases h
      · cases h
  | succ fuel ih =>
      exact ⟨fun _ _ _ h => parseValue_finds ih h, fun _ _ _ h => parseMembers_finds ih h,
        fun _ _ _ h => parseItems_finds ih h⟩

theorem mem_of_get {members : List (JsString × Json)} {key : JsString} {value : Json}
    (h : (Json.object members).get key = some value) : (key, value) ∈ members := by
  obtain ⟨⟨found, value'⟩, hfind, rfl⟩ := Option.map_eq_some_iff.mp h
  have hmem := List.mem_reverse.mp (List.mem_of_find?_eq_some hfind)
  have hkey := List.find?_some hfind
  simp only [decide_eq_true_eq] at hkey
  exact hkey ▸ hmem

-- A property that is a string has it from a literal of the text.
theorem literal_of_parse {text key chars : JsString} {members : List (JsString × Json)}
    (h : parse text = some (.object members))
    (hget : (Json.object members).get key = some (.string chars)) : Literal text chars := by
  have hmem := mem_of_get hget
  obtain ⟨⟨value, rest⟩, hvalue, h⟩ := Option.bind_eq_some_iff.mp h
  simp only at h
  split at h
  · obtain rfl := Option.some.inj h
    obtain ⟨unit, tail, htext, hmembers⟩ := parseValue_object_cases hvalue
    have htail : skipSpace tail <:+ text := (skipSpace_suffix tail).trans
      ((List.suffix_cons unit tail).trans (htext ▸ skipSpace_suffix text))
    rcases hmembers with rfl | hmembers
    · cases hmem
    · exact (((finds _).members _ _ _ hmembers).2 key chars hmem).mono htail
  · cases h

end Found

end OpenBalenaVpn.Json
