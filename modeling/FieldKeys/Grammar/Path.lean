import FieldKeys.Grammar.Phrase

/-! Attributes and paths. -/

namespace FieldKeys

def attributesRule : PhraseRule :=
  whenAhead (signAt 0 "#") (sign "#" ++ .call .attribute ++ .call .attributes)

/-- An attribute after its number sign. What a list holds is not looked at. -/
def attributeRule : PhraseRule :=
  group .bracket
    (.choose (wordAt 0 "unsafe") (word "unsafe") (.call .plainPath) ++
      firstOf [
        (.ahead 0 .anyOpening, .raw),
        (signAt 0 "=", sign "=" ++ .call .attributeValue)]
      .done)

/-- The value of an attribute. A number below zero is a literal if it is the whole of it. -/
def attributeValueRule : PhraseRule :=
  firstOf [
    (signAt 0 "-" &&& .ahead 1 .number &&& .ahead 2 .finish, literal ++ .mark .literal),
    (signAt 0 "#" &&& openingAt 1 .bracket, .fail)]
  (.call (.expression true))

def innerAttributesRule : PhraseRule :=
  whenAhead (signAt 0 "#" &&& signAt 1 "!")
    (sign "#" ++ sign "!" ++ .call .attribute ++ .call .innerAttributes)

def plainPathRule : PhraseRule :=
  optionalSign "::" ++ .call .plainPathWords

def plainPathWordsRule : PhraseRule :=
  .choose (.ahead 0 .anyName ||| pathKeywordAhead) (.take .anyWord) .fail ++
    whenAhead (signAt 0 "::") (sign "::" ++ .call .plainPathWords)

def pathRule (place : PathPlace) : PhraseRule :=
  .mark .name ++ whenAhead (signAt 0 "::") (sign "::" ++ .mark .names) ++
    .call (.pathWord place) ++ .call (.pathRest place)

def argumentsAhead : PathPlace → Look
  | .expression => signAt 0 "::" &&& signAt 2 "<"
  | .type => (signAt 0 "<" &&& ~~~signAt 0 "<=") ||| (signAt 0 "::" &&& signAt 2 "<")

def pathWordRule (place : PathPlace) : PhraseRule :=
  .choose (wordAt 0 "super" ||| wordAt 0 "self" ||| wordAt 0 "crate" ||| wordAt 0 "try")
    (.take .anyWord)
    (.choose (wordAt 0 "Self") (word "Self") anyName ++
      whenAhead (argumentsAhead place)
        (.onShape [.name] (.call .angle ++ .mark .nameWithArguments)
          (.call .angle ++ .mark .namesWithArguments)))

/-- A double colon goes on with a path unless a parenthesis follows it. -/
def pathRestRule (place : PathPlace) : PhraseRule :=
  whenAhead (signAt 0 "::" &&& ~~~openingAt 2 .paren)
    (sign "::" ++
      .onShape [.name, .names] (.mark .names) (.mark .namesAfterArguments) ++
      .call (.pathWord place) ++ .call (.pathRest place))

def qualifiedRule (place : PathPlace) : PhraseRule :=
  sign "<" ++ .call (.type true) ++
    whenAhead (wordAt 0 "as") (word "as" ++ .call (.path .type)) ++
    sign ">" ++ sign "::" ++ .mark .names ++ .call (.qualifiedRest place)

def qualifiedRestRule (place : PathPlace) : PhraseRule :=
  .call (.pathWord place) ++
    whenAhead (signAt 0 "::") (sign "::" ++ .mark .names ++ .call (.qualifiedRest place))

def angleRule : PhraseRule :=
  optionalSign "::" ++ sign "<" ++ .call .angleItems ++ sign ">"

def angleItemsRule : PhraseRule :=
  .choose (signAt 0 ">") .done
    (.call .angleItem ++ .choose (signAt 0 ">") .done (sign "," ++ .call .angleItems))

/-- An argument is a lifetime, a constant, a type, or a name with its type or its bounds. -/
def angleItemRule : PhraseRule :=
  firstOf [
    (.ahead 0 .lifetime &&& ~~~signAt 1 "+", .take .lifetime),
    (literalAhead ||| openingAt 0 .brace, .call .constant)]
  (.call (.type true) ++
    .onShape [.name, .nameWithArguments]
      (firstOf [
        (signAt 0 "=", sign "=" ++
          .choose (literalAhead ||| openingAt 0 .brace) (.call .constant) (.call (.type true))),
        (signAt 0 ":", sign ":" ++ .call .parameterBounds)]
        .done)
      .done)

def constantRule : PhraseRule :=
  firstOf [
    (literalAhead, literal),
    (.ahead 0 .anyName, anyName),
    (openingAt 0 .brace, .call .openBlock)]
  .fail

/-- A path of any words, as the arguments of an attribute have it. -/
def nestedPathRule : PhraseRule :=
  optionalSign "::" ++ .call .nestedPathWords

def nestedPathWordsRule : PhraseRule :=
  .take .anyWord ++ whenAhead (signAt 0 "::") (sign "::" ++ .call .nestedPathWords)

end FieldKeys
