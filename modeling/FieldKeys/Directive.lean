import FieldKeys.Fault
import FieldKeys.Source.Attribute

/-! What the attributes of a field ask for. Two names are looked at; every other attribute is
passed over, and what it holds is never read. -/

namespace FieldKeys

inductive Directive where
  /-- The field gets no key. -/
  | ignore
  /-- The field gets the key that an expression gives; without one the field is malformed. -/
  | custom (span : Span) (key : Option Expression)
  | other
deriving DecidableEq

def Directive.ignoreName : Text := "coding_key_ignored".toList

def Directive.customName : Text := "coding_key".toList

/-- The label that may stand before a custom key. -/
def Directive.label : Text := "custom".toList

/-- What follows a label and its equals sign in front. -/
def afterLabel? (ts : List Token) : Option (List Token) :=
  (Phrase.attributes.read ts).bind fun attributes =>
    match attributes.rest with
    | label :: equals :: rest =>
      if label.lexeme.isWord Directive.label ∧ isSign '=' equals ∧
          (signAt 0 "==" ||| signAt 0 "=>").holds (equals :: rest) = false then
        some rest
      else none
    | _ => none

def atArgumentEnd : List Token → Bool
  | [] => true
  | t :: _ => isSign ',' t

/-- The expression after a label in front, if it is the whole of the argument. -/
def labelled? (ts : List Token) : Option Expression :=
  ((afterLabel? ts).bind Expression.read?).bind fun (e, rest) =>
    if atArgumentEnd rest then some e else none

/-- The key among the arguments of a list: the first of them, without its label. All arguments
have to be expressions. -/
def customKey? (ts : List Token) : Option (Option Expression) :=
  (Expression.listOfTokens? ts).map fun arguments =>
    (labelled? ts).or arguments.head?

def Directive.ofAttribute (a : Attribute) : Except Fault Directive :=
  if a.isNamed Directive.ignoreName then .ok .ignore
  else if a.isNamed Directive.customName then
    match a.form with
    | .bare => .ok (.custom a.span none)
    | .value e => .ok (.custom a.span (some e))
    | .list inside =>
      match customKey? inside with
      | some key => .ok (.custom a.span key)
      | none => .error .illFormed
  else .ok .other

def Directive.ofAttributes : List Attribute → Except Fault (List Directive)
  | [] => .ok []
  | a :: as =>
    match Directive.ofAttribute a with
    | .error f => .error f
    | .ok d => (Directive.ofAttributes as).map (d :: ·)

end FieldKeys
