import FieldKeys.Fault
import FieldKeys.Source.Attribute
import FieldKeys.Style

/-! The option of a record that sets its naming style. Options are read from left to right: the
first fault decides, and without a fault the last style does. -/

namespace FieldKeys

def StyleOption.attributeName : Text := "coding_keys".toList

def StyleOption.argumentName : Text := "style".toList

/-- The style that an expression names, as a word or as a string. -/
def Style.ofExpression (e : Expression) : Except Fault Style :=
  match (e.name?.or e.stringValue?).bind Style.ofName? with
  | some s => .ok s
  | none => .error (.unrecognizedStyle e.span)

/-- The span of a path from its first word. -/
def pathSpan (path : List Token) : Span :=
  (Token.spanOf? (path.dropWhile (isSign ':'))).getD ⟨.origin, .origin⟩

/-- The value of an argument. If its groups are not read as a `whole`, what is left over in them
does not matter. -/
def StyleOption.readValue (whole : Bool) (ts : List Token) : Except Fault (Style × List Token) :=
  match ts with
  | t :: rest =>
    if isSign '=' t then
      match Expression.inFront? whole rest with
      | some (e, rest) => (Style.ofExpression e).map (·, rest)
      | none => .error .illFormed
    else .error .illFormed
  | [] => .error .illFormed

/-- One argument. Another name than `style` is refused, whatever follows it. -/
def StyleOption.readArgument (whole : Bool) (ts : List Token) : Except Fault (Style × List Token) :=
  match Phrase.nestedPath.read ts with
  | none => .error .illFormed
  | some r =>
    match r.written with
    | [t] =>
      if t.lexeme.isWord StyleOption.argumentName then StyleOption.readValue whole r.rest
      else .error (.unknownArgument (pathSpan r.written))
    | _ => .error (.unknownArgument (pathSpan r.written))

/-- The styles of arguments with commas between them, of which one may end the list; the number
bounds them. -/
def StyleOption.readArguments (whole : Bool) : Nat → List Token → Except Fault (List Style)
  | _, [] => .ok []
  | 0, _ :: _ => .error .illFormed
  | n + 1, t :: ts =>
    match StyleOption.readArgument whole (t :: ts) with
    | .error f => .error f
    | .ok (s, []) => .ok [s]
    | .ok (s, comma :: rest) =>
      if isSign ',' comma then (StyleOption.readArguments whole n rest).map (s :: ·)
      else .error .illFormed

/-- What is left over in the groups of a value is a fault too, but only if no argument has another
one. -/
def StyleOption.ofAttribute (a : Attribute) : Except Fault (List Style) :=
  match a.form with
  | .bare => .ok []
  | .value _ => .error .illFormed
  | .list inside =>
    match StyleOption.readArguments false inside.length inside with
    | .error f => .error f
    | .ok _ => StyleOption.readArguments true inside.length inside

def StyleOption.ofAttributes : List Attribute → Except Fault (List Style)
  | [] => .ok []
  | a :: as =>
    match StyleOption.ofAttribute a with
    | .error f => .error f
    | .ok styles => (StyleOption.ofAttributes as).map (styles ++ ·)

def Style.ofAttributes (attributes : List Attribute) : Except Fault Style :=
  (StyleOption.ofAttributes (attributes.filter (·.isNamed StyleOption.attributeName))).map
    fun styles => styles.getLast?.getD Style.standard

end FieldKeys
