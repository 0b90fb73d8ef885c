import FieldKeys.Source.Attribute
import FieldKeys.Source.Generics
import FieldKeys.Token.Scan

/-! Items: structures, and the other types of which keys cannot be derived. -/

namespace FieldKeys

/-- A named field. Its visibility and its type have to be well formed; no key depends on them. -/
structure Field where
  attributes : List Attribute
  visibility : List Token
  name : Text
  type : List Token
deriving DecidableEq

inductive Body where
  | named (fields : List Field)
  | tuple
  | unit
  | noStructure

structure Item where
  attributes : List Attribute
  visibility : List Token
  name : Text
  generics : Generics
  body : Body
  span : Span

def readFieldType? (name : Text) (ts : List Token) : Option (List Token × List Token) :=
  match ts with
  | colon :: rest =>
    if isSign ':' colon then
      let shape := if name = "_".toList then Shape.name else .other
      (Phrase.fieldType.readAfter shape rest).map fun r => (r.written, r.rest)
    else none
  | [] => none

def Field.read? (ts : List Token) : Option (Field × List Token) :=
  (Attribute.inFront? ts).bind fun (attributes, ts) =>
    (Phrase.visibility.read ts).bind fun visibility =>
      match visibility.rest with
      | t :: rest =>
        if Test.anyName.fits t.lexeme || t.lexeme.isWord "_".toList then
          (readFieldType? t.lexeme.text rest).map fun (type, rest) =>
            (⟨attributes, visibility.written, t.lexeme.text, type⟩, rest)
        else none
      | [] => none

def Field.ofTokens? (ts : List Token) : Option Field :=
  match Field.read? ts with
  | some (f, []) => some f
  | _ => none

def isTupleField (ts : List Token) : Bool :=
  (Phrase.tupleField.read ts).any fun r => r.rest.isEmpty

/-- Named fields up to the closing brace; the number bounds them. -/
def Field.readAll? : Nat → List Token → Option (List Field × List Token)
  | _, [] => none
  | 0, _ :: _ => none
  | n + 1, t :: ts =>
    if isClosing .brace t then some ([], ts)
    else
      (Field.read? (t :: ts)).bind fun (f, rest) =>
        match rest with
        | u :: rest =>
          if isClosing .brace u then some ([f], rest)
          else if isSign ',' u then
            (Field.readAll? n rest).map fun (fs, rest) => (f :: fs, rest)
          else none
        | [] => none

def readNamed? (ts : List Token) : Option (Body × List Token) :=
  match ts with
  | t :: rest =>
    if isOpening .brace t then
      (Field.readAll? rest.length rest).map fun (fields, rest) => (.named fields, rest)
    else none
  | [] => none

/-- The semicolon that ends a structure without braces. -/
def endWith? (body : Body) (ts : List Token) : Option (Body × List Token) :=
  match ts with
  | t :: rest => if isSign ';' t then some (body, rest) else none
  | [] => none

/-- A structure after its parameters. Conditions stand before braces or a semicolon, and after
the fields of a tuple. -/
def readStructure? (ts : List Token) : Option (List Token × Body × List Token) :=
  if ts.head?.any (isOpening .paren) then
    (Phrase.tupleFields.read (ts.drop 1)).bind fun r =>
      match r.rest with
      | t :: rest =>
        if isClosing .paren t then
          (readConditions? rest).bind fun (conditions, rest) =>
            (endWith? .tuple rest).map (conditions, ·)
        else none
      | [] => none
  else
    (readConditions? ts).bind fun (conditions, rest) =>
      ((readNamed? rest).or (endWith? .unit rest)).map (conditions, ·)

/-- An enumeration or a union after its parameters. -/
def readOther? (inside : Phrase) (ts : List Token) : Option (List Token × Body × List Token) :=
  (readConditions? ts).bind fun (conditions, rest) =>
    match rest with
    | t :: rest =>
      if isOpening .brace t then
        (inside.read rest).bind fun r =>
          match r.rest with
          | u :: rest => if isClosing .brace u then some (conditions, .noStructure, rest) else none
          | [] => none
      else none
    | [] => none

/-- What follows the parameters of an item, by the word that opens it. -/
def readBody? (opening : Token) (ts : List Token) : Option (List Token × Body × List Token) :=
  if opening.lexeme.isWord "struct".toList then readStructure? ts
  else if opening.lexeme.isWord "enum".toList then readOther? .variants ts
  else if opening.lexeme.isWord "union".toList then readOther? .namedFieldItems ts
  else none

def Item.ofTokens? (ts : List Token) : Option Item :=
  (Attribute.inFront? ts).bind fun (attributes, rest) =>
    (Phrase.visibility.read rest).bind fun visibility =>
      match visibility.rest with
      | opening :: name :: rest =>
        if Test.anyName.fits name.lexeme then
          (Parameter.listInFront? rest).bind fun (parameters, rest) =>
            match readBody? opening rest with
            | some (conditions, body, []) =>
              some {
                attributes := attributes
                visibility := visibility.written
                name := name.lexeme.text
                generics := ⟨parameters, conditions⟩
                body := body
                span := (Token.spanOf? ts).getD ⟨.origin, .origin⟩ }
            | _ => none
        else none
      | _ => none

def Item.ofText? (text : Text) : Option Item :=
  (Token.scan? text).bind Item.ofTokens?

end FieldKeys
