import FieldKeys.Expansion.Parameters
import FieldKeys.Record

/-! The declarations generated for a record: an enumeration with a variant for every entry, and
what it has to provide. Variants keep the names of their fields, raw marks included. -/

namespace FieldKeys

/-- The value that a variant stands for, and how it is spelled in the generated code. -/
def variantPath (field : Text) : List Lexeme :=
  ident "Self" ++ op "::" ++ [.word field]

/-- The key of an entry in the generated code. Without a key of its own the field has its name
as its key. -/
def Entry.keyLexemes (e : Entry) : List Lexeme :=
  match e.key with
  | some key => key.lexemes
  | none => [.literal (quote (unescape e.field))]

def Entry.fieldLexemes (e : Entry) : List Lexeme :=
  [.literal (quote (unescape e.field))]

/-- A function without inputs of its own that gives every variant a text. -/
def textFunction (function : String) (arms : List (List Lexeme)) : List Lexeme :=
  ident "fn" ++ ident function ++ inParens (op "&" ++ ident "self") ++ op "->" ++ op "&" ++
    [.lifetime "static".toList] ++ ident "str" ++
    inBraces (ident "match" ++ ident "self" ++ inBraces (terminated arms))

def arm (e : Entry) (value : List Lexeme) : List Lexeme :=
  variantPath e.field ++ op "=>" ++ value

def Record.keysName (r : Record) : Lexeme := .word (FieldKeys.keysName r.name)

def Record.enumLexemes (r : Record) (entries : List Entry) : List Lexeme :=
  op "#" ++ inBrackets (ident "doc" ++ op "=" ++
      [.literal (quote ("Serialization keys of [".toList ++ backquoted r.name ++ "].".toList))]) ++
    op "#" ++ inBrackets (ident "derive" ++ inParens (separated
      [ident "Debug", ident "Clone", ident "Copy", ident "PartialEq", ident "Eq", ident "Hash"])) ++
    op "#" ++ inBrackets (ident "allow" ++ inParens (ident "non_camel_case_types")) ++
    r.visibility.map (·.lexeme) ++ ident "enum" ++ [r.keysName] ++
    inBraces (separated (entries.map fun e => [.word e.field]))

/-- The list of all variants, their keys and their field names. -/
def Record.keyLexemes (r : Record) (entries : List Entry) : List Lexeme :=
  ident "impl" ++ rooted ["coding_keys", "CodingKey"] ++ ident "for" ++ [r.keysName] ++
    inBraces
      (ident "const" ++ ident "ALL" ++ op ":" ++ op "&" ++ [.lifetime "static".toList] ++
        inBrackets (ident "Self") ++ op "=" ++ op "&" ++
        inBrackets (separated (entries.map fun e => variantPath e.field)) ++ op ";" ++
        textFunction "as_str" (entries.map fun e => arm e e.keyLexemes) ++
        textFunction "field_name" (entries.map fun e => arm e e.fieldLexemes))

def keyOfSelf : List Lexeme :=
  rooted ["coding_keys", "CodingKey", "as_str"] ++ inParens (ident "self")

def Record.displayLexemes (r : Record) : List Lexeme :=
  ident "impl" ++ rooted ["core", "fmt", "Display"] ++ ident "for" ++ [r.keysName] ++
    inBraces
      (ident "fn" ++ ident "fmt" ++
        inParens (op "&" ++ ident "self" ++ op "," ++ ident "f" ++ op ":" ++ op "&" ++ ident "mut" ++
          rooted ["core", "fmt", "Formatter"] ++ op "<" ++ [.lifetime "_".toList] ++ op ">") ++
        op "->" ++ rooted ["core", "fmt", "Result"] ++
        inBraces (ident "f" ++ op "." ++ ident "write_str" ++ inParens keyOfSelf))

def Record.asRefLexemes (r : Record) : List Lexeme :=
  ident "impl" ++ rooted ["core", "convert", "AsRef"] ++ op "<" ++ ident "str" ++ op ">" ++
    ident "for" ++ [r.keysName] ++
    inBraces
      (ident "fn" ++ ident "as_ref" ++ inParens (op "&" ++ ident "self") ++ op "->" ++ op "&" ++
        ident "str" ++ inBraces keyOfSelf)

/-- The record is tied to the type of its keys. -/
def Record.ownerLexemes (r : Record) : List Lexeme :=
  ident "impl" ++ r.generics.lexemes Parameter.declared ++
    rooted ["coding_keys", "HasCodingKeys"] ++ ident "for" ++ [.word r.name] ++
    r.generics.lexemes Parameter.used ++ r.generics.conditions.map (·.lexeme) ++
    inBraces (ident "type" ++ ident "CodingKeys" ++ op "=" ++ [r.keysName] ++ op ";")

def dataPath (names : List String) : List Lexeme :=
  rooted (["coding_keys", "__private", "serde"] ++ names)

def Record.serializeLexemes (r : Record) : List Lexeme :=
  ident "impl" ++ dataPath ["Serialize"] ++ ident "for" ++ [r.keysName] ++
    inBraces
      (ident "fn" ++ ident "serialize" ++ op "<" ++ ident "S" ++ op ">" ++
        inParens (op "&" ++ ident "self" ++ op "," ++ ident "serializer" ++ op ":" ++ ident "S") ++
        op "->" ++ rooted ["core", "result", "Result"] ++ op "<" ++ within "S" ["Ok"] ++ op "," ++
        within "S" ["Error"] ++ op ">" ++ ident "where" ++ ident "S" ++ op ":" ++
        dataPath ["Serializer"] ++ op "," ++
        inBraces (ident "serializer" ++ op "." ++ ident "serialize_str" ++ inParens keyOfSelf))

/-- Keys are read back by looking them up. -/
def Record.deserializeLexemes (r : Record) : List Lexeme :=
  ident "impl" ++ op "<" ++ de ++ op ">" ++ dataPath ["Deserialize"] ++ op "<" ++ de ++ op ">" ++
    ident "for" ++ [r.keysName] ++
    inBraces
      (ident "fn" ++ ident "deserialize" ++ op "<" ++ ident "D" ++ op ">" ++
        inParens (ident "deserializer" ++ op ":" ++ ident "D") ++ op "->" ++
        rooted ["core", "result", "Result"] ++ op "<" ++ ident "Self" ++ op "," ++
        within "D" ["Error"] ++ op ">" ++ ident "where" ++ ident "D" ++ op ":" ++
        dataPath ["Deserializer"] ++ op "<" ++ de ++ op ">" ++ op "," ++
        inBraces
          (ident "let" ++ ident "key" ++ op "=" ++ op "<" ++
            rooted ["std", "string", "String"] ++ ident "as" ++ dataPath ["Deserialize"] ++
            op "<" ++ de ++ op ">>" ++ rooted ["deserialize"] ++
            inParens (ident "deserializer") ++ op "?" ++ op ";" ++
            op "<" ++ ident "Self" ++ ident "as" ++ rooted ["coding_keys", "CodingKey"] ++ op ">" ++
            rooted ["from_key"] ++ inParens (op "&" ++ ident "key") ++ op "." ++ ident "map_err" ++
            inParens (op "<" ++ within "D" ["Error"] ++ ident "as" ++ dataPath ["de", "Error"] ++
              op ">" ++ rooted ["custom"])))
where
  de : List Lexeme := [.lifetime "de".toList]

/-- All that is generated for a record with entries. With `data` its keys can be written and
read as data. -/
def Record.expansion (r : Record) (data : Bool) (entries : List Entry) : List Lexeme :=
  r.enumLexemes entries ++ r.keyLexemes entries ++ r.displayLexemes ++ r.asRefLexemes ++
    r.ownerLexemes ++ if data then r.serializeLexemes ++ r.deserializeLexemes else []

/-- What is generated for an item: nothing if no field gets a key. -/
def Item.expand (i : Item) (data : Bool) : Outcome (List Lexeme) :=
  let mapping := i.mapping
  ⟨mapping.notes, mapping.result.map fun m =>
    match m.entries with
    | some entries => m.record.expansion data entries
    | none => []⟩

end FieldKeys
