import OpenBalenaVpn.Foundation.OrderedMap
import Mathlib.Data.List.Basic

namespace OpenBalenaVpn

-- The text of a message on the wire.
abbrev Text := List Char

namespace Http

-- The head of a request. Header names are in lower case.
structure Head where
  method : Text
  target : Text
  headers : OrderedMap Text Text

-- The pieces of a text between its CR LF pairs.
def splitLines : Text → List Text
  | [] => [[]]
  | '\r' :: '\n' :: rest => [] :: splitLines rest
  | c :: rest => match splitLines rest with
    | [] => [[c]]
    | line :: lines => (c :: line) :: lines

def trim (value : Text) : Text :=
  ((value.dropWhile (·.isWhitespace)).reverse.dropWhile (·.isWhitespace)).reverse

def headerName (line : Text) : Text := (line.takeWhile (· ≠ ':')).map Char.toLower

-- A header that is sent twice is joined, except for a few of which the first counts.
def combine (name value : Text) : Option Text → Text
  | none => value
  | some first =>
      if name = "authorization".toList ∨ name = "proxy-authorization".toList ∨
          name = "host".toList ∨ name = "user-agent".toList ∨ name = "content-length".toList then
        first
      else first ++ ", ".toList ++ value

def addHeader (headers : OrderedMap Text Text) (line : Text) : Option (OrderedMap Text Text) :=
  match line.dropWhile (· ≠ ':') with
  | [] => none
  | _ :: value =>
      let name := headerName line
      if name = [] then none
      else some (headers.set name (combine name (trim value) (headers.get name)))

def parseRequestLine (line : Text) : Option (Text × Text) :=
  let method := line.takeWhile (· ≠ ' ')
  let rest := (line.dropWhile (· ≠ ' ')).drop 1
  let target := rest.takeWhile (· ≠ ' ')
  let version := (rest.dropWhile (· ≠ ' ')).drop 1
  if method ≠ [] ∧ target ≠ [] ∧ (version = "HTTP/1.0".toList ∨ version = "HTTP/1.1".toList) then
    some (method, target)
  else none

-- The head ends at the first blank line. It is within the limit on a head, above which a
-- request is refused unread.
def parseHead (text : Text) : Option Head :=
  match splitLines text with
  | [] => none
  | requestLine :: rest =>
      if [] ∈ rest then do
        let (method, target) ← parseRequestLine requestLine
        let headers ← (rest.takeWhile (· ≠ [])).foldlM addHeader .empty
        some ⟨method, target, headers⟩
      else none

section Lines

theorem splitLines_line {line : Text} (h : '\r' ∉ line) (rest : Text) :
    splitLines (line ++ '\r' :: '\n' :: rest) = line :: splitLines rest := by
  induction line with
  | nil => rfl
  | cons c line ih =>
      have hc : c ≠ '\r' := fun he => h (he ▸ List.mem_cons_self)
      have hline : '\r' ∉ line := fun hm => h (List.mem_cons_of_mem c hm)
      rw [List.cons_append, splitLines, ih hline]
      intro rest' he
      exact absurd he hc

end Lines

section Headers

-- A text is cut at the first separator.
theorem takeWhile_ne_append {separator : Char} {text : Text} (h : separator ∉ text)
    (rest : Text) : (text ++ separator :: rest).takeWhile (· ≠ separator) = text := by
  have hall : ∀ c ∈ text, decide (c ≠ separator) = true :=
    fun c hc => decide_eq_true (ne_of_mem_of_not_mem hc h)
  rw [List.takeWhile_append_of_pos hall, List.takeWhile_cons_of_neg (by simp), List.append_nil]

theorem dropWhile_ne_append {separator : Char} {text : Text} (h : separator ∉ text)
    (rest : Text) :
    (text ++ separator :: rest).dropWhile (· ≠ separator) = separator :: rest := by
  have hall : ∀ c ∈ text, decide (c ≠ separator) = true :=
    fun c hc => decide_eq_true (ne_of_mem_of_not_mem hc h)
  rw [List.dropWhile_append_of_pos hall, List.dropWhile_cons_of_neg (by simp)]

theorem headerName_append {name : Text} (h : ':' ∉ name) (value : Text) :
    headerName (name ++ ':' :: value) = name.map Char.toLower := by
  rw [headerName, takeWhile_ne_append h]

theorem addHeader_append {name : Text} (h : ':' ∉ name) (hne : name ≠ []) (value : Text)
    (headers : OrderedMap Text Text) :
    addHeader headers (name ++ ':' :: value) = some (headers.set (name.map Char.toLower)
      (combine (name.map Char.toLower) (trim value)
        (headers.get (name.map Char.toLower)))) := by
  have hdrop : (name ++ ':' :: value).dropWhile (· ≠ ':') = ':' :: value :=
    dropWhile_ne_append h value
  have hname : name.map Char.toLower ≠ [] := by simpa using hne
  simp only [addHeader, hdrop, headerName_append h, if_neg hname]

theorem dropWhile_of_head {α : Type} {p : α → Bool} {xs : List α}
    (h : ∀ x, xs.head? = some x → p x = false) : xs.dropWhile p = xs := by
  cases xs with
  | nil => rfl
  | cons x xs => exact List.dropWhile_cons_of_neg (by simp [h x rfl])

-- The white space around a value is left out, and nothing else.
theorem trim_append {lead value : Text} (hlead : ∀ c ∈ lead, c.isWhitespace = true)
    (hhead : ∀ c, value.head? = some c → c.isWhitespace = false)
    (hlast : ∀ c, value.getLast? = some c → c.isWhitespace = false) :
    trim (lead ++ value) = value := by
  rw [trim, List.dropWhile_append_of_pos hlead, dropWhile_of_head hhead,
    dropWhile_of_head (fun c hc => hlast c (List.head?_reverse ▸ hc)), List.reverse_reverse]

theorem parseHead_of_lines {text requestLine method target : Text}
    {headers : OrderedMap Text Text} (lines rest : List Text)
    (hsplit : splitLines text = requestLine :: (lines ++ [] :: rest))
    (hne : ∀ line ∈ lines, line ≠ [])
    (hrequest : parseRequestLine requestLine = some (method, target))
    (hheaders : lines.foldlM addHeader .empty = some headers) :
    parseHead text = some ⟨method, target, headers⟩ := by
  have htake : (lines ++ [] :: rest).takeWhile (· ≠ []) = lines := by
    rw [List.takeWhile_append_of_pos (by simpa using hne), List.takeWhile_cons_of_neg (by simp),
      List.append_nil]
  have hblank : [] ∈ lines ++ [] :: rest := List.mem_append_right _ List.mem_cons_self
  simp only [parseHead, hsplit, if_pos hblank, hrequest, htake, hheaders, Option.bind_eq_bind,
    Option.bind_some]

end Headers

end Http

end OpenBalenaVpn
