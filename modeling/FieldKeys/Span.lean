import FieldKeys.Text

/-! Places in a text: lines count from one, columns from zero in characters, and the end of a
span is exclusive. -/

namespace FieldKeys

structure Position where
  line : Nat
  column : Nat
deriving DecidableEq, Repr

def Position.origin : Position := ⟨1, 0⟩

/-- The position after a character: only a line feed opens a line. -/
def Position.next (p : Position) (c : Char) : Position :=
  if c = '\n' then ⟨p.line + 1, 0⟩ else ⟨p.line, p.column + 1⟩

def Position.advance (p : Position) (t : Text) : Position :=
  t.foldl Position.next p

theorem Position.advance_append (p : Position) (a b : Text) :
    p.advance (a ++ b) = (p.advance a).advance b :=
  List.foldl_append

structure Span where
  start : Position
  stop : Position
deriving DecidableEq, Repr

/-- The span from the start of one to the stop of another. -/
def Span.join (a b : Span) : Span := ⟨a.start, b.stop⟩

end FieldKeys
