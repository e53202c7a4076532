import Mathlib.Data.List.Basic

namespace OpenBalenaVpn

-- A JavaScript string: its UTF-16 code units.
abbrev JsString := List Nat

def utf16Char (c : Char) : JsString :=
  if c.toNat < 0x10000 then [c.toNat]
  else [0xD800 + (c.toNat - 0x10000) / 0x400, 0xDC00 + (c.toNat - 0x10000) % 0x400]

def utf16 (text : List Char) : JsString := text.flatMap utf16Char

-- A value as `JSON.parse` gives it. A number is kept as it is written, and the
-- members of an object in the order in which they come.
inductive Json where
  | null
  | bool (value : Bool)
  | number (literal : JsString)
  | string (value : JsString)
  | array (items : List Json)
  | object (members : List (JsString × Json))

namespace Json

def isSpace (unit : Nat) : Bool :=
  unit = 0x20 || unit = 0x09 || unit = 0x0A || unit = 0x0D

def skipSpace (text : JsString) : JsString := text.dropWhile isSpace

def isDigit (unit : Nat) : Bool := '0'.toNat ≤ unit && unit ≤ '9'.toNat

section Strings

def hexDigit (unit : Nat) : Option Nat :=
  if '0'.toNat ≤ unit ∧ unit ≤ '9'.toNat then some (unit - '0'.toNat)
  else if 'a'.toNat ≤ unit ∧ unit ≤ 'f'.toNat then some (unit - 'a'.toNat + 10)
  else if 'A'.toNat ≤ unit ∧ unit ≤ 'F'.toNat then some (unit - 'A'.toNat + 10)
  else none

def hexUnit (a b c d : Nat) : Option Nat := do
  let a ← hexDigit a
  let b ← hexDigit b
  let c ← hexDigit c
  let d ← hexDigit d
  some (((a * 16 + b) * 16 + c) * 16 + d)

-- The code unit that stands after a backslash, other than u.
def escaped (unit : Nat) : Option Nat :=
  if unit = '"'.toNat ∨ unit = '\\'.toNat ∨ unit = '/'.toNat then some unit
  else if unit = 'b'.toNat then some 0x08
  else if unit = 'f'.toNat then some 0x0C
  else if unit = 'n'.toNat then some 0x0A
  else if unit = 'r'.toNat then some 0x0D
  else if unit = 't'.toNat then some 0x09
  else none

-- A string after its opening quote, with what follows the closing one.
def parseChars : JsString → Option (JsString × JsString)
  | [] => none
  | unit :: rest =>
      if unit = '"'.toNat then some ([], rest)
      else if unit = '\\'.toNat then
        match rest with
        | [] => none
        | escape :: rest =>
            if escape = 'u'.toNat then
              match rest with
              | a :: b :: c :: d :: rest => do
                  let unit ← hexUnit a b c d
                  let (value, rest) ← parseChars rest
                  some (unit :: value, rest)
              | _ => none
            else do
              let unit ← escaped escape
              let (value, rest) ← parseChars rest
              some (unit :: value, rest)
      else if unit < 0x20 then none
      else do
        let (value, rest) ← parseChars rest
        some (unit :: value, rest)

def parseString : JsString → Option (JsString × JsString)
  | [] => none
  | unit :: rest => if unit = '"'.toNat then parseChars rest else none

end Strings

section Numbers

def parseDigits (text : JsString) : Option (JsString × JsString) :=
  let digits := text.takeWhile isDigit
  if digits = [] then none else some (digits, text.dropWhile isDigit)

def parseInteger : JsString → Option (JsString × JsString)
  | [] => none
  | unit :: rest =>
      if unit = '0'.toNat then some ([unit], rest)
      else parseDigits (unit :: rest)

def parseFraction : JsString → Option (JsString × JsString)
  | [] => some ([], [])
  | unit :: rest =>
      if unit = '.'.toNat then do
        let (digits, rest) ← parseDigits rest
        some (unit :: digits, rest)
      else some ([], unit :: rest)

def parseSign : JsString → JsString × JsString
  | [] => ([], [])
  | unit :: rest =>
      if unit = '+'.toNat ∨ unit = '-'.toNat then ([unit], rest) else ([], unit :: rest)

def parseExponent : JsString → Option (JsString × JsString)
  | [] => some ([], [])
  | unit :: rest =>
      if unit = 'e'.toNat ∨ unit = 'E'.toNat then do
        let (sign, rest) := parseSign rest
        let (digits, rest) ← parseDigits rest
        some (unit :: sign ++ digits, rest)
      else some ([], unit :: rest)

def parseMinus : JsString → JsString × JsString
  | [] => ([], [])
  | unit :: rest => if unit = '-'.toNat then ([unit], rest) else ([], unit :: rest)

def parseNumber (text : JsString) : Option (JsString × JsString) := do
  let (minus, rest) := parseMinus text
  let (integer, rest) ← parseInteger rest
  let (fraction, rest) ← parseFraction rest
  let (exponent, rest) ← parseExponent rest
  some (minus ++ integer ++ fraction ++ exponent, rest)

end Numbers

section Values

def parseWord (word : List Char) (value : Json) (text : JsString) : Option (Json × JsString) :=
  (text.dropPrefix? (utf16 word)).map fun rest => (value, rest)

def parseUnit (expected : Char) : JsString → Option JsString
  | [] => none
  | unit :: rest => if unit = expected.toNat then some rest else none

mutual

-- A value at the start of a text.
def parseValue : Nat → JsString → Option (Json × JsString)
  | 0, _ => none
  | _, [] => none
  | fuel + 1, unit :: rest =>
      if unit = '{'.toNat then
        match parseUnit '}' (skipSpace rest) with
        | some rest => some (.object [], rest)
        | none => (parseMembers fuel (skipSpace rest)).map fun (members, rest) =>
            (.object members, rest)
      else if unit = '['.toNat then
        match parseUnit ']' (skipSpace rest) with
        | some rest => some (.array [], rest)
        | none => (parseItems fuel (skipSpace rest)).map fun (items, rest) =>
            (.array items, rest)
      else if unit = '"'.toNat then
        (parseChars rest).map fun (value, rest) => (.string value, rest)
      else if unit = 't'.toNat then parseWord "true".toList (.bool true) (unit :: rest)
      else if unit = 'f'.toNat then parseWord "false".toList (.bool false) (unit :: rest)
      else if unit = 'n'.toNat then parseWord "null".toList .null (unit :: rest)
      else (parseNumber (unit :: rest)).map fun (literal, rest) => (.number literal, rest)

-- The members of an object up to its closing brace.
def parseMembers : Nat → JsString → Option (List (JsString × Json) × JsString)
  | 0, _ => none
  | fuel + 1, text => do
      let (key, rest) ← parseString text
      let rest ← parseUnit ':' (skipSpace rest)
      let (value, rest) ← parseValue fuel (skipSpace rest)
      match parseUnit ',' (skipSpace rest) with
      | some rest => do
          let (members, rest) ← parseMembers fuel (skipSpace rest)
          some ((key, value) :: members, rest)
      | none => (parseUnit '}' (skipSpace rest)).map fun rest => ([(key, value)], rest)

-- The items of an array up to its closing bracket.
def parseItems : Nat → JsString → Option (List Json × JsString)
  | 0, _ => none
  | fuel + 1, text => do
      let (item, rest) ← parseValue fuel text
      match parseUnit ',' (skipSpace rest) with
      | some rest => do
          let (items, rest) ← parseItems fuel (skipSpace rest)
          some (item :: items, rest)
      | none => (parseUnit ']' (skipSpace rest)).map fun rest => ([item], rest)

end

-- Two calls of the recursion take a code unit or more, so the fuel is enough.
def parse (text : JsString) : Option Json := do
  let (value, rest) ← parseValue (2 * text.length + 1) (skipSpace text)
  if skipSpace rest = [] then some value else none

-- A property of an object. Of a repeated key the last value counts.
def get (key : JsString) : Json → Option Json
  | .object members => (members.reverse.find? fun member => member.1 = key).map (·.2)
  | _ => none

end Values

section Text

def isNull : Json → Bool
  | .null => true
  | _ => false

-- How JavaScript writes the double of a number.
variable (numberText : JsString → JsString)

mutual

-- `String(value)`, or none where it throws: a property of its own hides the
-- `toString` that an object inherits, and is no function.
def asText : Json → Option JsString
  | .null => some (utf16 "null".toList)
  | .bool true => some (utf16 "true".toList)
  | .bool false => some (utf16 "false".toList)
  | .number literal => some (numberText literal)
  | .string value => some value
  | .array items => (itemTexts items).map fun texts => (texts.intersperse [','.toNat]).flatten
  | .object members =>
      if members.any fun member => member.1 = utf16 "toString".toList then none
      else some (utf16 "[object Object]".toList)

-- The texts of the items of an array, of which a null has the empty one.
def itemTexts : List Json → Option (List JsString)
  | [] => some []
  | item :: items => do
      let text ← if item.isNull then some [] else asText item
      let texts ← itemTexts items
      some (text :: texts)

end

end Text

end Json

end OpenBalenaVpn
