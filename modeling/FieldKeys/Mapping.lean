import FieldKeys.Directive
import FieldKeys.Style

/-! The key of every field of a record. What is decided about a field is noted as it is
decided, and the first malformed field ends the work. -/

namespace FieldKeys

inductive Key where
  | custom (expression : Expression)
  | derived (name : Text)
deriving DecidableEq

/-- A derived key is written as a string literal. -/
def Key.lexemes : Key → List Lexeme
  | .custom e => e.tokens.map (·.lexeme)
  | .derived name => [.literal (quote name)]

/-- A named field and what its attributes ask for. -/
structure Declaration where
  name : Text
  directives : List Directive
deriving DecidableEq

inductive Disposition where
  | skip
  | rename (key : Key)
  | keep
deriving DecidableEq

def Directive.isIgnore : Directive → Bool
  | .ignore => true
  | _ => false

def firstCustom? : List Directive → Option (Span × Option Expression)
  | [] => none
  | .custom span key :: _ => some (span, key)
  | _ :: ds => firstCustom? ds

/-- What becomes of a field. To ignore it wins over everything else, and the first custom key
over the others. -/
def Declaration.resolve (d : Declaration) : Except Fault Disposition :=
  if d.directives.any Directive.isIgnore then .ok .skip
  else match firstCustom? d.directives with
    | some (_, some e) => .ok (.rename (.custom e))
    | some (span, none) => .error (.malformedCustomKey span)
    | none => .ok .keep

/-- A field that gets a key. It has none of its own if its name without the raw mark is the
key. -/
structure Entry where
  field : Text
  key : Option Key
deriving DecidableEq

inductive Note where
  | style (style : Style)
  | skipped (field : Text)
  | decided (entry : Entry)
deriving DecidableEq

def backquoted (t : Text) : Text := '`' :: (t ++ ['`'])

def Note.text : Note → Text
  | .style s => "TRACE coding keys style resolved to ".toList ++ s.label
  | .skipped field => "DEBUG coding key for ".toList ++ backquoted field ++ " skipped".toList
  | .decided e =>
    "DEBUG coding key for ".toList ++ backquoted e.field ++ ": ".toList ++
      match e.key with
      | some key => render key.lexemes
      | none => "identifier".toList

/-- The notes taken on the way, and what came out in the end. -/
structure Outcome (α : Type) where
  notes : List Note
  result : Except Fault α

/-- The key that a style derives for a field, if it differs from the name. -/
def Style.derived? (s : Style) (field : Text) : Option Key :=
  if s.normalize field = unescape field then none else some (.derived (s.normalize field))

/-- The entry of a field that is not ignored. -/
def Entry.of (s : Style) (field : Text) : Disposition → Option Entry
  | .skip => none
  | .rename key => some ⟨field, some key⟩
  | .keep => some ⟨field, s.derived? field⟩

def Style.entries (s : Style) : List Declaration → Outcome (List Entry)
  | [] => ⟨[], .ok []⟩
  | d :: ds =>
    match d.resolve with
    | .error f => ⟨[], .error f⟩
    | .ok disposition =>
      let others := s.entries ds
      match Entry.of s d.name disposition with
      | none => ⟨.skipped d.name :: others.notes, others.result⟩
      | some e => ⟨.decided e :: others.notes, others.result.map (e :: ·)⟩

/-- The mapping of a record: none if no field gets a key. -/
def Style.mapping (s : Style) (fields : List Declaration) : Outcome (Option (List Entry)) :=
  let entries := s.entries fields
  ⟨entries.notes, entries.result.map fun es => if es.isEmpty then none else some es⟩

end FieldKeys
