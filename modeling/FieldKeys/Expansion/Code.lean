import FieldKeys.Token

/-! Pieces of generated code as lexemes. -/

namespace FieldKeys

/-- An operator of one or more characters. -/
def operator : Text → List Lexeme
  | [] => []
  | [c] => [.sign c false]
  | c :: cs => .sign c true :: operator cs

def op (s : String) : List Lexeme := operator s.toList

def ident (s : String) : List Lexeme := [.word s.toList]

def inParens (inside : List Lexeme) : List Lexeme :=
  .opening .paren :: (inside ++ [.closing .paren])

def inBrackets (inside : List Lexeme) : List Lexeme :=
  .opening .bracket :: (inside ++ [.closing .bracket])

def inBraces (inside : List Lexeme) : List Lexeme :=
  .opening .brace :: (inside ++ [.closing .brace])

def rooted (names : List String) : List Lexeme :=
  names.flatMap fun n => op "::" ++ ident n

def within (first : String) (names : List String) : List Lexeme :=
  ident first ++ rooted names

/-- Parts with a comma between them. -/
def separated : List (List Lexeme) → List Lexeme
  | [] => []
  | [part] => part
  | part :: parts => part ++ op "," ++ separated parts

/-- Parts with a comma after each. -/
def terminated (parts : List (List Lexeme)) : List Lexeme :=
  parts.flatMap fun part => part ++ op ","

end FieldKeys
