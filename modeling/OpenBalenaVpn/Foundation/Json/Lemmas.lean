import OpenBalenaVpn.Foundation.Json.Literal
import Mathlib.Algebra.Ring.Nat

namespace OpenBalenaVpn.Json

section Weight

-- The fewest code units that a code unit takes inside a string literal.
def unitWeight (unit : Nat) : Nat := if unit = '"'.toNat ∨ unit = '\\'.toNat then 2 else 1

def charsWeight (value : JsString) : Nat := (value.map unitWeight).sum

def stringWeight (value : JsString) : Nat := charsWeight value + 2

def valueWeight : Json → Nat
  | .string value => stringWeight value
  | _ => 0

-- A member with its colon and the comma or brace after it.
def memberWeight (member : JsString × Json) : Nat :=
  stringWeight member.1 + valueWeight member.2 + 2

@[simp] theorem charsWeight_cons (unit : Nat) (value : JsString) :
    charsWeight (unit :: value) = unitWeight unit + charsWeight value := rfl

theorem unitWeight_le (unit : Nat) : unitWeight unit ≤ 2 := by
  unfold unitWeight
  split <;> omega

theorem skipSpace_length (text : JsString) : (skipSpace text).length ≤ text.length :=
  (skipSpace_suffix text).length_le

-- A string literal is at least as long as its value, and longer where the value
-- has a quote or a backslash.
theorem parseChars_weight {text value rest : JsString}
    (h : parseChars text = some (value, rest)) :
    rest.length + charsWeight value + 1 ≤ text.length := by
  replace h := readsChars_of_parseChars h
  induction h with
  | quote rest => simp [charsWeight]
  | @hex a b c d unit text value rest _ _ ih =>
      have hunit := unitWeight_le unit
      simp only [charsWeight_cons, List.length_cons]
      omega
  | @escape escape unit text value rest _ _ ih =>
      have hunit := unitWeight_le unit
      simp only [charsWeight_cons, List.length_cons]
      omega
  | @plain unit text value rest hquote hbackslash _ _ ih =>
      have hunit : unitWeight unit = 1 := if_neg (not_or.mpr ⟨hquote, hbackslash⟩)
      simp only [charsWeight_cons, List.length_cons]
      omega

theorem parseString_weight {text value rest : JsString}
    (h : parseString text = some (value, rest)) :
    rest.length + stringWeight value ≤ text.length := by
  unfold parseString at h
  split at h
  · cases h
  · split at h
    · have hchars := parseChars_weight h
      simp only [stringWeight, List.length_cons]
      omega
    · cases h

theorem parseUnit_length {expected : Char} {text rest : JsString}
    (h : parseUnit expected text = some rest) : rest.length + 1 = text.length := by
  unfold parseUnit at h
  split at h
  · cases h
  · split at h
    · obtain rfl := Option.some.inj h
      rfl
    · cases h

theorem parseWord_weight {word : List Char} {value result : Json} {text rest : JsString}
    (h : parseWord word value text = some (result, rest)) (hvalue : valueWeight value = 0) :
    rest.length + valueWeight result ≤ text.length := by
  obtain ⟨rest', hdrop, h⟩ := Option.map_eq_some_iff.mp h
  obtain ⟨rfl, rfl⟩ := Prod.mk.inj h
  obtain ⟨before, rfl, _⟩ := List.dropPrefix?_eq_some_iff.mp hdrop
  rw [hvalue, List.length_append]
  omega

-- What a text of each kind weighs, by induction on the fuel that the three parsers share.
structure Weighs (fuel : Nat) : Prop where
  value : ∀ text value rest, parseValue fuel text = some (value, rest) →
    rest.length + valueWeight value ≤ text.length
  members : ∀ text members rest, parseMembers fuel text = some (members, rest) →
    rest.length + (members.map memberWeight).sum ≤ text.length
  items : ∀ text items rest, parseItems fuel text = some (items, rest) →
    rest.length ≤ text.length

theorem parseMembers_weight {fuel : Nat} (ih : Weighs fuel) (text rest : JsString)
    (members : List (JsString × Json))
    (h : parseMembers (fuel + 1) text = some (members, rest)) :
    rest.length + (members.map memberWeight).sum ≤ text.length := by
  obtain ⟨⟨key, rest₁⟩, hkey, h⟩ := Option.bind_eq_some_iff.mp h
  obtain ⟨rest₂, hcolon, h⟩ := Option.bind_eq_some_iff.mp h
  obtain ⟨⟨value, rest₃⟩, hvalue, h⟩ := Option.bind_eq_some_iff.mp h
  have h₁ := parseString_weight hkey
  have h₂ := parseUnit_length hcolon
  have h₃ := ih.value _ _ _ hvalue
  have hspace₁ := skipSpace_length rest₁
  have hspace₂ := skipSpace_length rest₂
  have hspace₃ := skipSpace_length rest₃
  simp only at h
  split at h
  · rename_i rest₄ hcomma
    obtain ⟨⟨later, rest₅⟩, hlater, h⟩ := Option.bind_eq_some_iff.mp h
    obtain ⟨rfl, rfl⟩ := Prod.mk.inj (Option.some.inj h)
    have h₄ := parseUnit_length hcomma
    have h₅ := ih.members _ _ _ hlater
    have hspace₄ := skipSpace_length rest₄
    simp only [List.map_cons, List.sum_cons, memberWeight]
    omega
  · obtain ⟨rest₄, hbrace, h⟩ := Option.map_eq_some_iff.mp h
    obtain ⟨rfl, rfl⟩ := Prod.mk.inj h
    have h₄ := parseUnit_length hbrace
    simp only [List.map_cons, List.map_nil, List.sum_cons, List.sum_nil, memberWeight]
    omega

theorem parseItems_length {fuel : Nat} (ih : Weighs fuel) (text rest : JsString)
    (items : List Json) (h : parseItems (fuel + 1) text = some (items, rest)) :
    rest.length ≤ text.length := by
  obtain ⟨⟨item, rest₁⟩, hitem, h⟩ := Option.bind_eq_some_iff.mp h
  have h₁ := ih.value _ _ _ hitem
  have hspace₁ := skipSpace_length rest₁
  simp only at h
  split at h
  · rename_i rest₂ hcomma
    obtain ⟨⟨later, rest₃⟩, hlater, h⟩ := Option.bind_eq_some_iff.mp h
    obtain ⟨rfl, rfl⟩ := Prod.mk.inj (Option.some.inj h)
    have h₂ := parseUnit_length hcomma
    have h₃ := ih.items _ _ _ hlater
    have hspace₂ := skipSpace_length rest₂
    simp only
    omega
  · obtain ⟨rest₂, hbracket, h⟩ := Option.map_eq_some_iff.mp h
    obtain ⟨_, rfl⟩ := Prod.mk.inj h
    have h₂ := parseUnit_length hbracket
    omega

theorem parseValue_weight {fuel : Nat} (ih : Weighs fuel) (text rest : JsString) (value : Json)
    (h : parseValue (fuel + 1) text = some (value, rest)) :
    rest.length + valueWeight value ≤ text.length := by
  obtain ⟨unit, tail, rfl, hcases⟩ := parseValue_cases h
  have hspace := skipSpace_length tail
  simp only [List.length_cons]
  rcases hcases with ⟨members, rfl, ⟨rfl, hbrace⟩ | hmembers⟩ |
    ⟨items, rfl, ⟨rfl, hbracket⟩ | hitems⟩ | ⟨chars, rfl, hchars⟩ | ⟨word, hword, hparse⟩ |
    ⟨literal, rfl, hnumber⟩
  · have hlength := parseUnit_length hbrace
    simp only [valueWeight]
    omega
  · have hlength := ih.members _ _ _ hmembers
    simp only [valueWeight]
    omega
  · have hlength := parseUnit_length hbracket
    simp only [valueWeight]
    omega
  · have hlength := ih.items _ _ _ hitems
    simp only [valueWeight]
    omega
  · have hlength := parseChars_weight hchars
    simp only [valueWeight, stringWeight]
    omega
  · refine parseWord_weight hparse ?_
    rcases hword with rfl | ⟨bool, rfl⟩ <;> rfl
  · exact (parseNumber_suffix hnumber).length_le

theorem weighs (fuel : Nat) : Weighs fuel := by
  induction fuel with
  | zero =>
      refine ⟨fun text _ _ h => ?_, fun _ _ _ h => ?_, fun _ _ _ h => ?_⟩
      · cases text <;> cases h
      · cases h
      · cases h
  | succ fuel ih =>
      exact ⟨fun text value rest h => parseValue_weight ih text rest value h,
        fun text members rest h => parseMembers_weight ih text rest members h,
        fun text items rest h => parseItems_length ih text rest items h⟩

-- An object is at least as long as its members with its opening brace.
theorem parseValue_object {fuel : Nat} {text rest : JsString} {members : List (JsString × Json)}
    (h : parseValue (fuel + 1) text = some (.object members, rest)) :
    members = [] ∨ rest.length + (members.map memberWeight).sum + 1 ≤ text.length := by
  obtain ⟨unit, tail, rfl, hmembers⟩ := parseValue_object_cases h
  have hspace := skipSpace_length tail
  refine hmembers.imp_right fun hmembers => ?_
  have hlength := (weighs fuel).members _ _ _ hmembers
  simp only [List.length_cons]
  omega

theorem parse_object_weight {text : JsString} {members : List (JsString × Json)}
    (h : parse text = some (.object members)) :
    members = [] ∨ (members.map memberWeight).sum + 1 ≤ text.length := by
  obtain ⟨⟨value, rest⟩, hvalue, h⟩ := Option.bind_eq_some_iff.mp h
  have hspace := skipSpace_length text
  simp only at h
  split at h
  · obtain rfl := Option.some.inj h
    refine (parseValue_object hvalue).imp_right fun hlength => ?_
    omega
  · cases h

theorem le_sum_of_mem {α : Type*} (weight : α → Nat) {items : List α} {a : α} (ha : a ∈ items) :
    weight a ≤ (items.map weight).sum := by
  obtain ⟨before, later, rfl⟩ := List.append_of_mem ha
  simp only [List.map_append, List.map_cons, List.sum_append, List.sum_cons]
  omega

theorem sum_two_le {α : Type*} (weight : α → Nat) {items : List α} {a b : α} (ha : a ∈ items)
    (hb : b ∈ items) (hne : a ≠ b) : weight a + weight b ≤ (items.map weight).sum := by
  induction items with
  | nil => cases ha
  | cons item items ih =>
      simp only [List.map_cons, List.sum_cons]
      rcases List.mem_cons.mp ha with ha | ha
      · have hb' := (List.mem_cons.mp hb).resolve_left fun he => hne (ha.trans he.symm)
        have hle := le_sum_of_mem weight hb'
        rw [ha]
        omega
      · rcases List.mem_cons.mp hb with hb | hb
        · have hle := le_sum_of_mem weight ha
          rw [hb]
          omega
        · have hle := ih ha hb
          omega

-- An object in which two keys have string values is at least as long as the two.
theorem parse_two_members {text : JsString} {value : Json} (h : parse text = some value)
    {first second a b : JsString} (hne : first ≠ second)
    (ha : value.get first = some (.string a)) (hb : value.get second = some (.string b)) :
    memberWeight (first, .string a) + memberWeight (second, .string b) + 1 ≤ text.length := by
  cases value with
  | object members =>
      have hfirst := mem_of_get ha
      have hsecond := mem_of_get hb
      have hsum := sum_two_le memberWeight hfirst hsecond (fun he => hne (Prod.mk.inj he).1)
      rcases parse_object_weight h with rfl | hlength
      · cases hfirst
      · omega
  | null | bool | number | string | array => cases ha

theorem charsWeight_append (value more : JsString) :
    charsWeight (value ++ more) = charsWeight value + charsWeight more := by
  simp [charsWeight]

theorem length_le_charsWeight (value : JsString) : value.length ≤ charsWeight value := by
  induction value with
  | nil => exact Nat.le_refl _
  | cons unit value ih =>
      have hunit : 1 ≤ unitWeight unit := by
        unfold unitWeight
        split <;> omega
      simp only [charsWeight_cons, List.length_cons]
      omega

theorem length_lt_charsWeight {value : JsString} {unit : Nat} (hmem : unit ∈ value)
    (hunit : unit = '"'.toNat ∨ unit = '\\'.toNat) : value.length < charsWeight value := by
  obtain ⟨before, later, rfl⟩ := List.append_of_mem hmem
  have hbefore := length_le_charsWeight before
  have hlater := length_le_charsWeight later
  have htwo : unitWeight unit = 2 := if_pos hunit
  simp only [charsWeight_append, charsWeight_cons, List.length_append, List.length_cons]
  omega

end Weight

section Literals

-- A code unit that stands for itself in a string literal.
def Plain (unit : Nat) : Prop := 0x20 ≤ unit ∧ unit ≠ '"'.toNat ∧ unit ≠ '\\'.toNat

def quoted (value : JsString) : JsString := '"'.toNat :: (value ++ ['"'.toNat])

theorem quoted_append (value rest : JsString) :
    quoted value ++ rest = '"'.toNat :: (value ++ '"'.toNat :: rest) := by
  simp [quoted]

theorem parseChars_cons {unit : Nat} (hunit : Plain unit) (rest : JsString) :
    parseChars (unit :: rest) =
      (parseChars rest).map fun (value, rest) => (unit :: value, rest) := by
  obtain ⟨hcontrol, hquote, hbackslash⟩ := hunit
  rw [parseChars.eq_def]
  simp only [if_neg hquote, if_neg hbackslash, if_neg (Nat.not_lt.mpr hcontrol)]
  cases parseChars rest <;> rfl

theorem parseChars_plain {value : JsString} (hvalue : ∀ unit ∈ value, Plain unit)
    (rest : JsString) : parseChars (value ++ '"'.toNat :: rest) = some (value, rest) := by
  induction value with
  | nil => exact parseChars_of_readsChars (.quote rest)
  | cons unit value ih =>
      have hunit := hvalue unit List.mem_cons_self
      have htail := ih fun other ho => hvalue other (List.mem_cons_of_mem unit ho)
      rw [List.cons_append, parseChars_cons hunit, htail]
      rfl

theorem parseString_quoted {value : JsString} (hvalue : ∀ unit ∈ value, Plain unit)
    (rest : JsString) : parseString (quoted value ++ rest) = some (value, rest) := by
  rw [quoted_append, parseString, if_pos rfl, parseChars_plain hvalue]

theorem parseValue_quoted {value : JsString} (hvalue : ∀ unit ∈ value, Plain unit)
    (fuel : Nat) (rest : JsString) :
    parseValue (fuel + 1) (quoted value ++ rest) = some (.string value, rest) := by
  have hquote : ∀ text, parseValue (fuel + 1) ('"'.toNat :: text) =
      (parseChars text).map fun (value, rest) => (.string value, rest) := fun _ => rfl
  rw [quoted_append, hquote, parseChars_plain hvalue]
  rfl

@[simp] theorem parseUnit_self (expected : Char) (rest : JsString) :
    parseUnit expected (expected.toNat :: rest) = some rest := if_pos rfl

-- A text that starts with a code unit other than a space.
theorem skipSpace_of_not_isSpace {unit : Nat} (hunit : isSpace unit = false) (rest : JsString) :
    skipSpace (unit :: rest) = unit :: rest := by
  simp [skipSpace, hunit]

-- A text that is read as the value up to the comma or the brace after it.
def Reads (text : JsString) (value : Json) : Prop :=
  ∀ fuel unit rest, unit = ','.toNat ∨ unit = '}'.toNat →
    parseValue (fuel + 1) (skipSpace (text ++ unit :: rest)) = some (value, unit :: rest)

theorem reads_quoted {value : JsString} (hvalue : ∀ unit ∈ value, Plain unit) :
    Reads (quoted value) (.string value) := by
  intro fuel unit rest _
  have hquote : skipSpace (quoted value ++ unit :: rest) = quoted value ++ unit :: rest :=
    skipSpace_of_not_isSpace rfl _
  rw [hquote, parseValue_quoted hvalue]

theorem Reads.space {text : JsString} {value : Json} (h : Reads text value) {space : Nat}
    (hspace : isSpace space = true) : Reads (space :: text) value := by
  intro fuel unit rest hunit
  rw [List.cons_append, skipSpace, List.dropWhile_cons_of_pos hspace]
  exact h fuel unit rest hunit

-- The members of an object as they are written behind its opening brace.
inductive Writes : List (JsString × Json) → JsString → Prop where
  | last {key text : JsString} {value : Json} (hkey : ∀ unit ∈ key, Plain unit)
      (hvalue : Reads text value) :
      Writes [(key, value)] (quoted key ++ ':'.toNat :: (text ++ ['}'.toNat]))
  | cons {key text rest : JsString} {value : Json} {members : List (JsString × Json)}
      (hkey : ∀ unit ∈ key, Plain unit) (hvalue : Reads text value) (hrest : Writes members rest) :
      Writes ((key, value) :: members) (quoted key ++ ':'.toNat :: (text ++ ','.toNat :: rest))

theorem Writes.start {members : List (JsString × Json)} {text : JsString}
    (h : Writes members text) : ∃ rest, text = '"'.toNat :: rest := by
  cases h with
  | last => exact ⟨_, quoted_append _ _⟩
  | cons => exact ⟨_, quoted_append _ _⟩

theorem Writes.skipSpace {members : List (JsString × Json)} {text : JsString}
    (h : Writes members text) : Json.skipSpace text = text := by
  obtain ⟨rest, rfl⟩ := h.start
  exact skipSpace_of_not_isSpace rfl rest

theorem Writes.length_le {members : List (JsString × Json)} {text : JsString}
    (h : Writes members text) : members.length ≤ text.length := by
  induction h with
  | last =>
      simp only [List.length_cons, List.length_append]
      omega
  | cons _ _ _ ih =>
      simp only [List.length_cons, List.length_append]
      omega

theorem Writes.parseMembers {members : List (JsString × Json)} {text : JsString}
    (h : Writes members text) {fuel : Nat} (hfuel : members.length < fuel) :
    Json.parseMembers fuel text = some (members, []) := by
  have hcolon : ∀ rest, Json.skipSpace (':'.toNat :: rest) = ':'.toNat :: rest :=
    skipSpace_of_not_isSpace rfl
  have hcomma : ∀ rest, Json.skipSpace (','.toNat :: rest) = ','.toNat :: rest :=
    skipSpace_of_not_isSpace rfl
  have hbrace : ∀ rest, Json.skipSpace ('}'.toNat :: rest) = '}'.toNat :: rest :=
    skipSpace_of_not_isSpace rfl
  induction h generalizing fuel with
  | last hkey hvalue =>
      obtain ⟨fuel, rfl⟩ := Nat.exists_eq_add_of_lt hfuel
      rw [Json.parseMembers, parseString_quoted hkey]
      simp only [Option.bind_eq_bind, Option.bind_some, hcolon, parseUnit_self]
      rw [List.length_singleton, Nat.add_comm 1, hvalue _ _ _ (Or.inr rfl)]
      simp only [Option.bind_some, hbrace, parseUnit_self]
      rfl
  | cons hkey hvalue hrest ih =>
      obtain ⟨fuel, rfl⟩ := Nat.exists_eq_add_of_lt hfuel
      rw [Json.parseMembers, parseString_quoted hkey]
      simp only [Option.bind_eq_bind, Option.bind_some, hcolon, parseUnit_self]
      rw [List.length_cons, Nat.add_right_comm, hvalue _ _ _ (Or.inl rfl)]
      simp only [Option.bind_some, hcomma, parseUnit_self, hrest.skipSpace]
      rw [ih (by omega)]
      rfl

theorem parse_object {members : List (JsString × Json)} {text : JsString}
    (h : Writes members text) : parse ('{'.toNat :: text) = some (.object members) := by
  have hopen : skipSpace ('{'.toNat :: text) = '{'.toNat :: text := skipSpace_of_not_isSpace rfl _
  have hclose : parseUnit '}' (skipSpace text) = none := by
    rw [h.skipSpace]
    obtain ⟨rest, rfl⟩ := h.start
    rfl
  have hlength := h.length_le
  obtain ⟨fuel, hfuel⟩ : ∃ fuel, 2 * ('{'.toNat :: text).length + 1 = fuel + 1 := ⟨_, rfl⟩
  have hless : members.length < fuel := by
    simp only [List.length_cons] at hfuel
    omega
  have hmembers : parseMembers fuel text = some (members, []) := h.parseMembers hless
  rw [parse, hopen, hfuel, parseValue, if_pos rfl, hclose, h.skipSpace, hmembers]
  rfl

theorem get_cons_of_notMem {members : List (JsString × Json)} {key : JsString}
    (h : key ∉ members.map Prod.fst) (value : Json) :
    (Json.object ((key, value) :: members)).get key = some value := by
  have hnone : members.reverse.find? (fun member => member.1 = key) = none := by
    rw [List.find?_eq_none]
    intro member hmem heq
    exact h (List.mem_map.mpr ⟨member, List.mem_reverse.mp hmem, of_decide_eq_true heq⟩)
  simp [get, hnone]

theorem get_concat (members : List (JsString × Json)) (key : JsString) (value : Json) :
    (Json.object (members ++ [(key, value)])).get key = some value := by
  simp [get]

end Literals

section Units

theorem utf16_append (text more : List Char) : utf16 (text ++ more) = utf16 text ++ utf16 more :=
  List.flatMap_append

theorem utf16Char_of_lt {c : Char} (hc : c.toNat < 0x10000) : utf16Char c = [c.toNat] := if_pos hc

theorem toNat_mem_utf16 {c : Char} {text : List Char} (hc : c.toNat < 0x10000)
    (hmem : c ∈ text) : c.toNat ∈ utf16 text := by
  refine List.mem_flatMap.mpr ⟨c, hmem, ?_⟩
  rw [utf16Char_of_lt hc]
  exact List.mem_singleton_self _

theorem utf16_cons {c : Char} (hc : c.toNat < 0x10000) (text : List Char) :
    utf16 (c :: text) = c.toNat :: utf16 text := by
  rw [utf16, List.flatMap_cons, utf16Char_of_lt hc]
  rfl

-- The code units of a character are at least as large as those below which JSON
-- wants an escape, and no quote or backslash but its own.
theorem plain_of_mem_utf16Char {c : Char} {unit : Nat} (hcontrol : 0x20 ≤ c.toNat)
    (hquote : c ≠ '"') (hbackslash : c ≠ '\\') (hmem : unit ∈ utf16Char c) : Plain unit := by
  by_cases hc : c.toNat < 0x10000
  · rw [utf16Char_of_lt hc] at hmem
    obtain rfl := List.mem_singleton.mp hmem
    exact ⟨hcontrol, fun he => hquote (Char.toNat_inj.mp he),
      fun he => hbackslash (Char.toNat_inj.mp he)⟩
  · have hsurrogate : 0xD800 ≤ unit := by
      rw [utf16Char, if_neg hc] at hmem
      simp only [List.mem_cons, List.not_mem_nil, or_false] at hmem
      omega
    have hq : '"'.toNat = 0x22 := rfl
    have hb : '\\'.toNat = 0x5C := rfl
    refine ⟨?_, ?_, ?_⟩ <;> omega

theorem utf16_plain {text : List Char} (hcontrol : ∀ c ∈ text, 0x20 ≤ c.toNat)
    (hquote : '"' ∉ text) (hbackslash : '\\' ∉ text) : ∀ unit ∈ utf16 text, Plain unit := by
  intro unit hunit
  obtain ⟨c, hc, hmem⟩ := List.mem_flatMap.mp hunit
  exact plain_of_mem_utf16Char (hcontrol c hc) (fun he => hquote (he ▸ hc))
    (fun he => hbackslash (he ▸ hc)) hmem

-- No surrogate is a character of its own.
theorem toNat_notMem_utf16 {c : Char} {text : List Char} (hc : c.toNat < 0xD800)
    (hmem : c ∉ text) : c.toNat ∉ utf16 text := by
  intro hunit
  obtain ⟨other, hother, hunit⟩ := List.mem_flatMap.mp hunit
  by_cases hlt : other.toNat < 0x10000
  · rw [utf16Char_of_lt hlt] at hunit
    exact hmem (Char.toNat_inj.mp (List.mem_singleton.mp hunit) ▸ hother)
  · rw [utf16Char, if_neg hlt] at hunit
    simp only [List.mem_cons, List.not_mem_nil, or_false] at hunit
    omega

theorem utf16Char_ne_nil (c : Char) : utf16Char c ≠ [] := by
  unfold utf16Char
  split <;> exact List.cons_ne_nil _ _

-- The first unit of a character tells how many there are: no character is a surrogate.
theorem utf16Char_append_inj {first second : Char} {more others : JsString}
    (h : utf16Char first ++ more = utf16Char second ++ others) :
    first = second ∧ more = others := by
  have hrange : ∀ c : Char, c.toNat < 0xD800 ∨ 0xDFFF < c.toNat ∧ c.toNat < 0x110000 :=
    fun c => c.valid
  have hfirst := hrange first
  have hsecond := hrange second
  unfold utf16Char at h
  split at h <;> split at h <;>
    simp only [List.cons_append, List.nil_append, List.cons.injEq] at h
  · exact ⟨Char.toNat_inj.mp h.1, h.2⟩
  · omega
  · omega
  · exact ⟨Char.toNat_inj.mp (by omega), h.2.2⟩

theorem utf16_injective : Function.Injective utf16 := by
  intro text other h
  induction text generalizing other with
  | nil =>
      cases other with
      | nil => rfl
      | cons c rest => exact absurd (List.append_eq_nil_iff.mp h.symm).1 (utf16Char_ne_nil c)
  | cons c text ih =>
      cases other with
      | nil => exact absurd (List.append_eq_nil_iff.mp h).1 (utf16Char_ne_nil c)
      | cons first rest =>
          obtain ⟨rfl, hrest⟩ := utf16Char_append_inj h
          rw [ih hrest]

-- Only a text without quotes and backslashes is as heavy as it is long.
theorem plain_of_charsWeight_le {text : List Char}
    (h : charsWeight (utf16 text) ≤ (utf16 text).length) : '"' ∉ text ∧ '\\' ∉ text := by
  refine ⟨fun hmem => ?_, fun hmem => ?_⟩
  · have hlt := length_lt_charsWeight (toNat_mem_utf16 (by decide) hmem) (Or.inl rfl)
    omega
  · have hlt := length_lt_charsWeight (toNat_mem_utf16 (by decide) hmem) (Or.inr rfl)
    omega

end Units

end OpenBalenaVpn.Json
