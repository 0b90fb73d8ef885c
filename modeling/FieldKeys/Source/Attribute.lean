import FieldKeys.Source.Expression

/-! Attributes of items and fields. What a list holds stays unread until it is asked for. -/

namespace FieldKeys

inductive Attribute.Form where
  | bare
  | value (expression : Expression)
  | list (inside : List Token)
deriving DecidableEq

structure Attribute where
  path : List Token
  form : Attribute.Form
  span : Span
deriving DecidableEq

/-- Whether the path is exactly one word, and which. -/
def Attribute.isNamed (a : Attribute) (name : Text) : Bool :=
  match a.path with
  | [t] => t.lexeme == .word name
  | _ => false

def isOpening (d : Delimiter) (t : Token) : Bool :=
  t.lexeme == .opening d

def isClosing (d : Delimiter) (t : Token) : Bool :=
  t.lexeme == .closing d

/-- The path of an attribute: words that are names, or `unsafe` alone. -/
def Attribute.readPath? (ts : List Token) : Option (List Token × List Token) :=
  match ts with
  | t :: rest =>
    if t.lexeme = .word "unsafe".toList then some ([t], rest)
    else (Phrase.plainPath.read ts).map fun r => (r.written, r.rest)
  | [] => none

def Attribute.readForm? (ts : List Token) : Option (Attribute.Form × List Token) :=
  match ts with
  | t :: rest =>
    match t.lexeme with
    | .opening _ => (cutGroup 1 rest).map fun (inside, rest) => (.list inside.dropLast, rest)
    | .sign '=' _ =>
      (Phrase.attributeValue.read rest).map fun r => (.value ⟨r.shape, r.written⟩, r.rest)
    | _ => some (.bare, ts)
  | [] => some (.bare, ts)

/-- The attribute in front, from its number sign to its bracket. -/
def Attribute.read? (ts : List Token) : Option (Attribute × List Token) :=
  match ts with
  | hash :: bracket :: ts =>
    if isSign '#' hash ∧ isOpening .bracket bracket then
      (Attribute.readPath? ts).bind fun (path, ts) =>
        (Attribute.readForm? ts).bind fun (form, ts) =>
          match ts with
          | last :: rest =>
            if isClosing .bracket last then
              some (⟨path, form, hash.span.join last.span⟩, rest)
            else none
          | [] => none
    else none
  | _ => none

/-- The attributes in front, as many as there are; the number bounds them. -/
def Attribute.readAll? : Nat → List Token → Option (List Attribute × List Token)
  | 0, ts => some ([], ts)
  | n + 1, ts =>
    if ts.head?.any (isSign '#') then
      (Attribute.read? ts).bind fun (a, rest) =>
        (Attribute.readAll? n rest).map fun (as, rest) => (a :: as, rest)
    else some ([], ts)

def Attribute.inFront? (ts : List Token) : Option (List Attribute × List Token) :=
  Attribute.readAll? ts.length ts

def Attribute.listOfTokens? (ts : List Token) : Option (List Attribute) :=
  match Attribute.inFront? ts with
  | some (as, []) => some as
  | _ => none

end FieldKeys
