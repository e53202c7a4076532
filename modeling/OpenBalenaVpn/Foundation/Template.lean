import OpenBalenaVpn.Foundation.Http

namespace OpenBalenaVpn.Template

-- The values of a template: truth values and texts.
inductive Value where
  | bool (value : Bool)
  | text (value : Text)
  deriving DecidableEq

namespace Value

-- Every text is true but the empty one.
def truth : Value → Bool
  | bool value => value
  | text value => value ≠ []

-- Both give one of their arguments, not its truth.
def and (first second : Value) : Value := if first.truth then second else first

def or (first second : Value) : Value := if first.truth then first else second

-- How a value is printed
def print : Value → Text
  | bool true => "true".toList
  | bool false => "false".toList
  | text value => value

end Value

def eq (first second : Text) : Value := .bool (first = second)

-- Texts are compared byte by byte, which is the order of their code points.
def precedes (first second : Text) : Bool :=
  first.lex second fun c d => decide (c.toNat < d.toNat)

def gt (first second : Text) : Value := .bool (precedes second first)

-- A variable that is not set or empty has the default.
def getenv {Key : Type} (env : Key → Option Text) (key : Key) (default : Text) : Text :=
  if (env key).getD [] = [] then default else (env key).getD []

section Lemmas

variable {Key : Type}

@[simp] theorem truth_text_iff (value : Text) : (Value.text value).truth = true ↔ value ≠ [] :=
  decide_eq_true_iff

@[simp] theorem truth_eq_iff (first second : Text) : (eq first second).truth = true ↔ first = second :=
  decide_eq_true_iff

@[simp] theorem truth_gt (first second : Text) : (gt first second).truth = precedes second first :=
  rfl

theorem print_or_of_truth {first : Value} (h : first.truth = true) (second : Value) :
    (first.or second).print = first.print := by
  rw [Value.or, if_pos h]

theorem print_or_of_not_truth {first : Value} (h : ¬first.truth = true) (second : Value) :
    (first.or second).print = second.print := by
  rw [Value.or, if_neg h]

-- A default that is left out is the empty text.
theorem getenv_nil (env : Key → Option Text) (key : Key) :
    getenv env key [] = (env key).getD [] := by
  unfold getenv
  split
  · rename_i h
    exact h.symm
  · rfl

end Lemmas

end OpenBalenaVpn.Template
