import FieldKeys.Source.Expression

/-! Generic parameters of a record and the conditions on them. -/

namespace FieldKeys

inductive Parameter.Sort where
  | lifetime
  | type
  | constant
deriving DecidableEq

/-- A parameter without its default. After its colon stand the bounds of a lifetime or a type,
or the type of a constant. -/
structure Parameter where
  sort : Parameter.Sort
  attributes : List Token
  name : Token
  afterColon : List Token
  comma : Bool

structure Generics where
  parameters : List Parameter
  conditions : List Token

def readAfterColon? (phrase : Phrase) (ts : List Token) : Option (List Token × List Token) :=
  match ts with
  | colon :: rest =>
    if isSign ':' colon then (phrase.read rest).map fun r => (r.written, r.rest)
    else some ([], ts)
  | [] => some ([], ts)

def skipDefault? (phrase : Phrase) (ts : List Token) : Option (List Token) :=
  match ts with
  | equals :: rest =>
    if isSign '=' equals then (phrase.read rest).map (·.rest) else some ts
  | [] => some ts

def readLifetimeParameter? (attributes ts : List Token) : Option (Parameter × List Token) :=
  match ts with
  | name :: rest =>
    (readAfterColon? .lifetimeBounds rest).map fun (bounds, rest) =>
      (⟨.lifetime, attributes, name, bounds, false⟩, rest)
  | [] => none

def readTypeParameter? (attributes ts : List Token) : Option (Parameter × List Token) :=
  match ts with
  | name :: rest =>
    (readAfterColon? .parameterBounds rest).bind fun (bounds, rest) =>
      (skipDefault? (.type true) rest).map fun rest =>
        (⟨.type, attributes, name, bounds, false⟩, rest)
  | [] => none

def readConstantParameter? (attributes ts : List Token) : Option (Parameter × List Token) :=
  match ts with
  | name :: colon :: rest =>
    if Test.anyName.fits name.lexeme ∧ isSign ':' colon then
      ((Phrase.type true).read rest).bind fun r =>
        (skipDefault? .constant r.rest).map fun rest =>
          (⟨.constant, attributes, name, r.written, false⟩, rest)
    else none
  | _ => none

def Parameter.read? (ts : List Token) : Option (Parameter × List Token) :=
  (Phrase.attributes.read ts).bind fun attributes =>
    match attributes.rest with
    | t :: rest =>
      if Test.lifetime.fits t.lexeme then readLifetimeParameter? attributes.written (t :: rest)
      else if Test.anyName.fits t.lexeme then readTypeParameter? attributes.written (t :: rest)
      else if t.lexeme.isWord "_".toList then
        some (⟨.type, attributes.written, t, [], false⟩, rest)
      else if t.lexeme.isWord "const".toList then readConstantParameter? attributes.written rest
      else none
    | [] => none

/-- Parameters up to the closing angle bracket; the number bounds them. -/
def Parameter.readAll? : Nat → List Token → Option (List Parameter × List Token)
  | _, [] => none
  | 0, _ :: _ => none
  | n + 1, t :: ts =>
    if isSign '>' t then some ([], ts)
    else
      (Parameter.read? (t :: ts)).bind fun (p, rest) =>
        match rest with
        | u :: rest =>
          if isSign '>' u then some ([p], rest)
          else if isSign ',' u then
            (Parameter.readAll? n rest).map fun (ps, rest) => ({ p with comma := true } :: ps, rest)
          else none
        | [] => none

def Parameter.listInFront? (ts : List Token) : Option (List Parameter × List Token) :=
  match ts with
  | t :: rest => if isSign '<' t then Parameter.readAll? ts.length rest else some ([], ts)
  | [] => some ([], ts)

/-- The conditions in front, if there are any; the word `where` alone sets none. -/
def readConditions? (ts : List Token) : Option (List Token × List Token) :=
  match ts with
  | t :: rest =>
    if t.lexeme.isWord "where".toList then
      if parametersAhead.holds rest then none
      else (Phrase.whereItems.read rest).map fun r =>
        (if r.written.isEmpty then [] else t :: r.written, r.rest)
    else some ([], ts)
  | [] => some ([], ts)

end FieldKeys
