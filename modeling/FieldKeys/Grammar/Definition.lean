import FieldKeys.Grammar.Generics

/-! The items that a block may define: functions, modules, imports, constants, types, traits,
implementations and macros. -/

namespace FieldKeys

/-- The words before `fn`. In a foreign block a function may be marked as `safe`. -/
def functionMarks (safe : Bool) : PhraseRule :=
  optionalWord "const" ++ optionalWord "async" ++
    .choose (wordAt 0 "unsafe") (word "unsafe") (if safe then optionalWord "safe" else .done) ++ abi

def signatureRule (safe : Bool) : PhraseRule :=
  functionMarks safe ++ word "fn" ++ anyName ++ .call .generics ++
    group .paren (.call (.inputs true)) ++
    whenAhead (signAt 0 "->") (sign "->" ++ .call (.type true)) ++ .call .whereClause

/-- A `self` at the given place that is no path and takes no further inputs. -/
def selfAt (skip : Nat) : Look :=
  wordAt skip "self" &&& ~~~signAt (skip + 1) "::" &&&
    ~~~(signAt (skip + 1) ":" &&& signAt (skip + 2) "...")

def receiverAhead : Look :=
  selfAt 0 ||| (wordAt 0 "mut" &&& selfAt 1) ||| (signAt 0 "&" &&&
    (wordAt 1 "self" ||| (wordAt 1 "mut" &&& wordAt 2 "self") |||
      (.ahead 1 .lifetime &&& (wordAt 2 "self" ||| (wordAt 2 "mut" &&& wordAt 3 "self")))))

/-- The inputs of a function. An input without a name, as it once could be, gets the name `_`. -/
def inputsRule (first : Bool) : PhraseRule :=
  .choose atFinish .done
    (.call .attributes ++
      firstOf [
        (signAt 0 "...", further),
        (receiverAhead, if first then receiver ++ others else .fail),
        (.ahead 0 .anyName &&& signAt 1 "<", .rewrite .unnamed (.call (.type true)) ++ others)]
      (.call .patternCase ++ sign ":" ++
        .choose (signAt 0 "...") further (.call (.type true) ++ others)))
where
  further : PhraseRule := sign "..." ++ .choose atFinish .done (sign ",")
  others : PhraseRule := .choose atFinish .done (sign "," ++ .call (.inputs false))
  receiver : PhraseRule :=
    .choose (signAt 0 "&")
      (sign "&" ++ whenAhead (.ahead 0 .lifetime) (.take .lifetime) ++ optionalWord "mut" ++
        word "self")
      (optionalWord "mut" ++ word "self" ++
        whenAhead (signAt 0 ":") (sign ":" ++ .call (.type true)))

def itemsRule : PhraseRule :=
  .choose atFinish .done (.call .attributes ++ .call .item ++ .call .items)

/-- An item behind its attributes. -/
def itemRule : PhraseRule :=
  .choose (wordAt 0 "pub") (.call .visibility ++ .call (.definition false))
    (.call (.definition true))

/-- A function with its body, or with a semicolon for it. -/
def functionDefinition (safe : Bool) : PhraseRule :=
  .call (.signature safe) ++ .choose (signAt 0 ";") (sign ";") (.call .openBlock)

def constantDefinition : PhraseRule :=
  word "const" ++ .choose (wordAt 0 "_") (word "_") anyName ++ .call .generics ++ sign ":" ++
    .call (.type true) ++ whenAhead (signAt 0 "=") (sign "=" ++ .call (.expression true)) ++
    .call .whereClause ++ sign ";"

def typeName : PhraseRule :=
  word "type" ++ anyName ++ .call .generics

def typeValue : PhraseRule :=
  whenAhead (signAt 0 "=") (sign "=" ++ .call (.type true))

def typeBounds : PhraseRule :=
  whenAhead (signAt 0 ":") (sign ":" ++ .call .itemBounds)

def structureDefinition : PhraseRule :=
  word "struct" ++ anyName ++ .call .generics ++
    .choose (openingAt 0 .paren)
      (group .paren (.call .tupleFields) ++ .call .whereClause ++ sign ";")
      (.call .whereClause ++ .choose (openingAt 0 .brace) (.call .namedFields) (sign ";"))

/-- What follows the parameters of a trait. -/
def traitBody : PhraseRule :=
  afterColon itemBoundsEnd .itemBounds ++ .call .whereClause ++
    group .brace (.call .innerAttributes ++ .call (.members .trait))

def traitDefinition : PhraseRule :=
  word "trait" ++ anyName ++ .call .generics ++
    .choose (signAt 0 "=")
      (sign "=" ++ .call .itemBounds ++ .call .whereClause ++ sign ";") traitBody

/-- A trait with marks, which stands for no bounds. -/
def markedTraitDefinition : PhraseRule :=
  optionalWord "unsafe" ++ optionalWord "auto" ++ word "trait" ++ anyName ++ .call .generics ++
    traitBody

def implementationDefinition : PhraseRule :=
  optionalWord "default" ++ optionalWord "unsafe" ++ word "impl" ++
    whenAhead parametersAhead (.call .generics) ++
    firstOf [
      (wordAt 0 "const", word "const"),
      (signAt 0 "?" &&& wordAt 1 "const", sign "?" ++ word "const")]
      .done ++
    whenAhead (signAt 0 "!" &&& ~~~openingAt 1 .brace) (sign "!") ++
    .call (.type true) ++ whenAhead (wordAt 0 "for") (word "for" ++ .call (.type true)) ++
    .call .whereClause ++
    group .brace (.call .innerAttributes ++ .call (.members .implementation))

def moduleDefinition : PhraseRule :=
  optionalWord "unsafe" ++ word "mod" ++ .choose (wordAt 0 "try") (word "try") anyName ++
    .choose (signAt 0 ";") (sign ";") (group .brace (.call .innerAttributes ++ .call .items))

def foreignDefinition : PhraseRule :=
  optionalWord "unsafe" ++ abi ++
    group .brace (.call .innerAttributes ++ .call (.members .foreign))

/-- An imported path with what may stand in front of it. -/
def importedPath (rooted : Bool) : PhraseRule :=
  if rooted then
    .choose (signAt 0 "::") (sign "::" ++ .call (.useTree false)) (.call (.useTree true))
  else .call (.useTree false)

/-- Behind its first word an imported path is not rooted any more. -/
def useTreeRule (rooted : Bool) : PhraseRule :=
  firstOf [
    (.ahead 0 .anyName ||| wordAt 0 "self" ||| wordAt 0 "super" ||| wordAt 0 "crate" |||
        wordAt 0 "try",
      .take .anyWord ++
        firstOf [
          (signAt 0 "::", sign "::" ++ .call (.useTree false)),
          (wordAt 0 "as", word "as" ++ .choose (wordAt 0 "_") (word "_") anyName)]
        .done),
    (signAt 0 "*", sign "*"),
    (openingAt 0 .brace, group .brace (.call (.useTrees rooted)))]
  .fail

def useTreesRule (rooted : Bool) : PhraseRule :=
  commaItem (importedPath rooted) (.useTrees rooted)

def externalCrate : PhraseRule :=
  word "extern" ++ word "crate" ++ .choose (wordAt 0 "self") (word "self") anyName ++
    whenAhead (wordAt 0 "as") (word "as" ++ .choose (wordAt 0 "_") (word "_") anyName) ++ sign ";"

/-- A static item needs a type or a value. -/
def staticDefinition : PhraseRule :=
  word "static" ++ optionalWord "mut" ++ anyName ++
    .choose (signAt 0 "=") value
      (sign ":" ++ .call (.type true) ++ .choose (signAt 0 ";") .done value) ++ sign ";"
where
  value : PhraseRule := sign "=" ++ .call (.expression true)

/-- A macro call as an item. Only braces end it by themselves. -/
def macroItem (name : PhraseRule) : PhraseRule :=
  .choose (.ahead 0 .anyName ||| wordAt 0 "self" ||| wordAt 0 "super" ||| wordAt 0 "crate" |||
      signAt 0 "::")
    (.call .plainPath ++ sign "!" ++ name ++
      .choose (openingAt 0 .brace) .raw (.raw ++ sign ";"))
    .fail

/-- What an item defines, by the words in front. -/
def definitionRule (bare : Bool) : PhraseRule :=
  .probe (functionMarks false ++ word "fn") (functionDefinition false)
    (firstOf [
      (wordAt 0 "extern" &&& wordAt 1 "crate", externalCrate),
      (wordAt 0 "extern" ||| (wordAt 0 "unsafe" &&& wordAt 1 "extern"),
        if bare then foreignDefinition else .fail),
      (wordAt 0 "use", word "use" ++ importedPath true ++ sign ";"),
      (wordAt 0 "static", staticDefinition),
      (wordAt 0 "const", constantDefinition),
      (wordAt 0 "mod" ||| (wordAt 0 "unsafe" &&& wordAt 1 "mod"), moduleDefinition),
      (wordAt 0 "type",
        typeName ++ typeBounds ++ .call .whereClause ++ typeValue ++ sign ";"),
      (wordAt 0 "struct", structureDefinition),
      (wordAt 0 "enum", word "enum" ++ anyName ++ .call .generics ++ .call .whereClause ++
        group .brace (.call .variants)),
      (wordAt 0 "union" &&& .ahead 1 .anyName, word "union" ++ anyName ++ .call .generics ++
        .call .whereClause ++ .call .namedFields),
      (wordAt 0 "trait", traitDefinition),
      ((wordAt 0 "auto" &&& wordAt 1 "trait") ||| (wordAt 0 "unsafe" &&&
          (wordAt 1 "trait" ||| (wordAt 1 "auto" &&& wordAt 2 "trait"))), markedTraitDefinition),
      (wordAt 0 "impl" ||| (wordAt 0 "unsafe" &&& wordAt 1 "impl") |||
        (wordAt 0 "default" &&& ~~~signAt 1 "!"), implementationDefinition),
      (wordAt 0 "macro", word "macro" ++ anyName ++ whenAhead (openingAt 0 .paren) .raw ++
        .choose (openingAt 0 .brace) .raw .fail)]
    (if bare then
      macroItem (.choose (wordAt 0 "try") (word "try") (whenAhead (.ahead 0 .anyName) anyName))
    else .fail))

/-- The members of a trait, of an implementation or of a foreign block. -/
def membersRule (place : MemberPlace) : PhraseRule :=
  .choose atFinish .done
    (.call .attributes ++
      .choose (wordAt 0 "pub") (.call .visibility ++ marked false) (marked true) ++
      .call (.members place))
where
  /-- In an implementation a macro may be called `default`. -/
  marked (bare : Bool) : PhraseRule :=
    match place with
    | .trait =>
      .choose (wordAt 0 "default") (word "default" ++ .call (.member place false))
        (.call (.member place bare))
    | .implementation =>
      .choose (wordAt 0 "default" &&& ~~~signAt 1 "!")
        (word "default" ++ .call (.member place false)) (.call (.member place bare))
    | .foreign => .call (.member place bare)

/-- Conditions on a type stand behind its value, in a foreign block before or behind it. -/
def typeMember (place : MemberPlace) : PhraseRule :=
  match place with
  | .trait =>
    typeName ++ afterColon itemBoundsEnd .itemBounds ++ typeValue ++ .call .whereClause ++ sign ";"
  | .implementation => typeName ++ typeBounds ++ typeValue ++ .call .whereClause ++ sign ";"
  | .foreign =>
    typeName ++ typeBounds ++
      .choose (wordAt 0 "where") (.call .whereClause ++ typeValue)
        (typeValue ++ .call .whereClause) ++ sign ";"

def foreignStatic : PhraseRule :=
  .choose (wordAt 0 "unsafe") (word "unsafe") (optionalWord "safe") ++ word "static" ++
    optionalWord "mut" ++ anyName ++ sign ":" ++ .call (.type true) ++
    whenAhead (signAt 0 "=") (sign "=" ++ .call (.expression true)) ++ sign ";"

def memberRule (place : MemberPlace) (bare : Bool) : PhraseRule :=
  .probe (functionMarks (place == .foreign) ++ word "fn") (functionDefinition (place == .foreign))
    (firstOf [
      (if place = .foreign then
          wordAt 0 "static" ||| ((wordAt 0 "unsafe" ||| wordAt 0 "safe") &&& wordAt 1 "static")
        else wordAt 0 "const",
        if place = .foreign then foreignStatic else constantDefinition),
      (wordAt 0 "type", typeMember place)]
    (if bare then macroItem .done else .fail))

end FieldKeys
