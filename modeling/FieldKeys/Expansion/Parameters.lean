import FieldKeys.Expansion.Code
import FieldKeys.Source.Generics

/-! Generic parameters in generated code: where they are declared and where they are used. -/

namespace FieldKeys

def Parameter.commaLexemes (p : Parameter) : List Lexeme :=
  if p.comma then op "," else []

/-- A parameter where it is declared, without its default and without an idle colon. -/
def Parameter.declared (p : Parameter) : List Lexeme :=
  p.attributes.map (·.lexeme) ++ (if p.sort = .constant then ident "const" else []) ++
    [p.name.lexeme] ++
    (if p.afterColon.isEmpty then [] else op ":" ++ p.afterColon.map (·.lexeme)) ++
    p.commaLexemes

def Parameter.used (p : Parameter) : List Lexeme :=
  p.name.lexeme :: p.commaLexemes

/-- Parameters in angle brackets, lifetimes first. Each keeps the comma that it has, and the
last lifetime gets one before others. -/
def Generics.lexemes (g : Generics) (write : Parameter → List Lexeme) : List Lexeme :=
  let lifetimes := g.parameters.filter (·.sort == .lifetime)
  let others := g.parameters.filter (·.sort != .lifetime)
  let comma := !others.isEmpty && lifetimes.getLast?.any (!·.comma)
  if g.parameters.isEmpty then []
  else op "<" ++ lifetimes.flatMap write ++ (if comma then op "," else []) ++
    others.flatMap write ++ op ">"

end FieldKeys
