import FieldKeys.Span

/-! Tokens of a text. Brackets are tokens of their own, so that a text is a flat list in which
they are balanced. -/

namespace FieldKeys

inductive Delimiter where
  | paren
  | bracket
  | brace
deriving DecidableEq, Repr

/-- A sign is joint when the next character is a sign too; only joint signs make up an operator
of several characters. -/
inductive Lexeme where
  | word (name : Text)
  | lifetime (name : Text)
  | literal (text : Text)
  | sign (char : Char) (joint : Bool)
  | opening (delimiter : Delimiter)
  | closing (delimiter : Delimiter)
deriving DecidableEq, Repr

structure Token where
  lexeme : Lexeme
  span : Span
deriving DecidableEq, Repr

/-- A token that stands in no text. -/
def Lexeme.token (l : Lexeme) : Token :=
  ⟨l, ⟨.origin, .origin⟩⟩

def Delimiter.openChar : Delimiter → Char
  | .paren => '('
  | .bracket => '['
  | .brace => '\x7b'

def Delimiter.closeChar : Delimiter → Char
  | .paren => ')'
  | .bracket => ']'
  | .brace => '\x7d'

def Lexeme.text : Lexeme → Text
  | .word name => name
  | .lifetime name => '\'' :: name
  | .literal text => text
  | .sign c _ => [c]
  | .opening d => [d.openChar]
  | .closing d => [d.closeChar]

/-- Whether two tokens are written without a space between them. Braces keep their space. -/
def Lexeme.hugs : Lexeme → Lexeme → Bool
  | _, .closing .paren | _, .closing .bracket => true
  | .opening .paren, _ | .opening .bracket, _ => true
  | .sign _ joint, _ => joint
  | _, _ => false

/-- The text of a list of tokens: one space between neighbours that do not hug. -/
def render : List Lexeme → Text
  | [] => []
  | [a] => a.text
  | a :: b :: r => a.text ++ (if a.hugs b then [] else [' ']) ++ render (b :: r)

def Token.render (ts : List Token) : Text :=
  FieldKeys.render (ts.map (·.lexeme))

/-- Whether every bracket is closed by its own kind, with `pending` still to be closed. -/
def balanced : (pending : List Delimiter) → List Token → Bool
  | pending, [] => pending.isEmpty
  | pending, t :: ts =>
    match t.lexeme, pending with
    | .opening d, _ => balanced (d :: pending) ts
    | .closing d, e :: rest => d == e && balanced rest ts
    | .closing _, [] => false
    | _, _ => balanced pending ts

def Token.spanOf? : List Token → Option Span
  | [] => none
  | t :: ts => some (t.span.join ((t :: ts).getLast (by simp)).span)

end FieldKeys
