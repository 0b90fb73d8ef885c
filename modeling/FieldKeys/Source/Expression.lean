import FieldKeys.Grammar
import FieldKeys.Text.Quoted

/-! Expressions as they stand in attributes: kept as tokens, with as much of their shape as
the derivation of keys asks for. -/

namespace FieldKeys

structure Expression where
  shape : Shape
  tokens : List Token
deriving DecidableEq

def isSign (c : Char) (t : Token) : Bool :=
  match t.lexeme with
  | .sign d _ => d == c
  | _ => false

/-- The expression in front. If its groups are not read as a `whole`, they may hold more than what
belongs to it. -/
def Expression.inFront? (whole : Bool) (ts : List Token) : Option (Expression × List Token) :=
  ((Phrase.expression true).inFront whole .other ts).map fun r => (⟨r.shape, r.written⟩, r.rest)

def Expression.read? (ts : List Token) : Option (Expression × List Token) :=
  Expression.inFront? true ts

def Expression.ofTokens? (ts : List Token) : Option Expression :=
  match Expression.read? ts with
  | some (e, []) => some e
  | _ => none

/-- Expressions with commas between them and perhaps one at the end; the number bounds how
many there are. -/
def Expression.readList? : Nat → List Token → Option (List Expression)
  | _, [] => some []
  | 0, _ :: _ => none
  | n + 1, t :: ts =>
    match Expression.read? (t :: ts) with
    | some (e, []) => some [e]
    | some (e, comma :: rest) =>
      if isSign ',' comma then (Expression.readList? n rest).map (e :: ·) else none
    | none => none

def Expression.listOfTokens? (ts : List Token) : Option (List Expression) :=
  Expression.readList? ts.length ts

def Token.word? (t : Token) : Option Text :=
  match t.lexeme with
  | .word name => some name
  | _ => none

def Token.literal? (t : Token) : Option Text :=
  match t.lexeme with
  | .literal text => some text
  | _ => none

/-- The name that an expression consists of, if it is a path of one word and no more. -/
def Expression.name? (e : Expression) : Option Text :=
  if e.shape = .name then e.tokens.getLast?.bind Token.word? else none

/-- The value of an expression that is a string literal. -/
def Expression.stringValue? (e : Expression) : Option Text :=
  if e.shape = .literal then
    (e.tokens.getLast?.bind Token.literal?).bind FieldKeys.stringValue?
  else none

def Expression.span (e : Expression) : Span :=
  (Token.spanOf? e.tokens).getD ⟨.origin, .origin⟩

end FieldKeys
