import FieldKeys.Mapping

/-! Tables of keys at work. Every row is a variant; the first row that answers a question
shadows those after it. -/

namespace FieldKeys

/-- A field name without its raw mark, and the key of the field. -/
structure Row where
  field : Text
  key : Text
deriving DecidableEq, Repr

abbrev KeyTable := List Row

/-- A row with its place in the table, counted from zero. -/
structure Variant where
  index : Nat
  row : Row
deriving DecidableEq, Repr

inductive LookupError where
  | unknownKey (key : Text)
  | unknownField (name : Text)
  | invalidType
deriving DecidableEq, Repr

def LookupError.message : LookupError → Text
  | .unknownKey key => "Unknown coding key ".toList ++ backquoted key
  | .unknownField name => "No coding key for field ".toList ++ backquoted name
  | .invalidType => []

def KeyTable.variants (t : KeyTable) : List Variant :=
  t.zipIdx.map fun (row, index) => ⟨index, row⟩

def KeyTable.keys (t : KeyTable) : List Text :=
  t.map Row.key

def KeyTable.fromKey (t : KeyTable) (key : Text) : Except LookupError Variant :=
  match (KeyTable.variants t).find? (·.row.key == key) with
  | some v => .ok v
  | none => .error (.unknownKey key)

def KeyTable.fromFieldName (t : KeyTable) (name : Text) : Except LookupError Variant :=
  match (KeyTable.variants t).find? (·.row.field == name) with
  | some v => .ok v
  | none => .error (.unknownField name)

/-- The key of a field, if the field has one. -/
def KeyTable.keyForField (t : KeyTable) (name : Text) : Option Text :=
  match KeyTable.fromFieldName t name with
  | .ok v => some v.row.key
  | .error _ => none

/-- How a variant is shown, what it is displayed and referred to as, and how it is serialized. -/
def Variant.debugText (v : Variant) : Text := v.row.field

def Variant.displayText (v : Variant) : Text := v.row.key

def Variant.serialized (v : Variant) : Text := v.row.key

/-- The key of an entry as a text; a custom key has to be a string literal. -/
def Entry.keyText? (e : Entry) : Option Text :=
  match e.key with
  | some (.custom expression) => expression.stringValue?
  | some (.derived name) => some name
  | none => some (unescape e.field)

def Entry.row? (e : Entry) : Option Row :=
  e.keyText?.map fun key => ⟨unescape e.field, key⟩

/-- The table of the entries, if all custom keys are string literals. -/
def KeyTable.ofEntries? : List Entry → Option KeyTable
  | [] => some []
  | e :: es =>
    match e.row?, KeyTable.ofEntries? es with
    | some row, some rows => some (row :: rows)
    | _, _ => none

end FieldKeys
