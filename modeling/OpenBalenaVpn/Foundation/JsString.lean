import OpenBalenaVpn.Foundation.Json
import OpenBalenaVpn.Foundation.Number

namespace OpenBalenaVpn

-- What `parseInt` gives: NaN, or a number with its sign.
inductive ParsedInt where
  | nan
  | number (negative : Bool) (magnitude : Number)
  deriving DecidableEq

namespace JsString

def startsWith (text : JsString) (searchString : String) : Bool :=
  (utf16 searchString.toList).isPrefixOf text

def split (text : JsString) (separator : Char) : List JsString := text.splitOn separator.toNat

def join (pieces : List JsString) (separator : Char) : JsString :=
  [separator.toNat].intercalate pieces

-- White space and line terminators
def isSpace (unit : Nat) : Bool :=
  unit ∈ [0x09, 0x0A, 0x0B, 0x0C, 0x0D, 0x20, 0xA0, 0x1680, 0x2028, 0x2029, 0x202F, 0x205F,
    0x3000, 0xFEFF] || (0x2000 ≤ unit && unit ≤ 0x200A)

def sign : JsString → Bool × JsString
  | [] => (false, [])
  | unit :: rest =>
      if unit = '-'.toNat then (true, rest)
      else if unit = '+'.toNat then (false, rest)
      else (false, unit :: rest)

-- `parseInt(text, 10)`
def parseInt (text : JsString) : ParsedInt :=
  let (negative, unsigned) := sign (text.dropWhile isSpace)
  let digits := unsigned.takeWhile Json.isDigit
  if digits = [] then .nan else .number negative (Number.parseInt (digits.map Char.ofNat))

section Split

-- What was split at the separator is joined back, whatever it contains.
theorem join_split (text : JsString) (separator : Char) :
    join (split text separator) separator = text :=
  List.intercalate_splitOn separator.toNat

theorem split_of_notMem {text : JsString} {separator : Char} (h : separator.toNat ∉ text) :
    split text separator = [text] :=
  List.splitOn_eq_singleton h

theorem split_append {text : JsString} {separator : Char} (h : separator.toNat ∉ text)
    (rest : JsString) :
    split (text ++ separator.toNat :: rest) separator = text :: split rest separator :=
  List.splitOn_append_cons_self_of_not_mem h rest

-- The first piece ends at the first separator.
theorem split_head_eq_iff (text : JsString) (separator : Char) :
    (split text separator).head? = some text ↔ separator.toNat ∉ text := by
  constructor
  · intro hhead hmem
    obtain ⟨before, rest, rfl, hbefore⟩ := List.eq_append_cons_of_mem hmem
    rw [split_append hbefore, List.head?_cons, Option.some.injEq] at hhead
    have hlength := congrArg List.length hhead
    simp at hlength
  · intro h
    rw [split_of_notMem h]
    rfl

end Split

end JsString

end OpenBalenaVpn
