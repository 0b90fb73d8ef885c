import FieldKeys.Grammar.Phrase

/-! Types and bounds. -/

namespace FieldKeys

/-- Paths, as far as they are types that may turn out to be bounds. -/
def pathShapes : List Shape :=
  [.name, .nameWithArguments, .names, .namesAfterArguments, .namesWithArguments]

def functionAhead : Look :=
  wordAt 0 "fn" ||| wordAt 0 "unsafe" ||| wordAt 0 "extern"

def typeRule (plus : Bool) : PhraseRule :=
  firstOf [
    (wordAt 0 "for", .call .binder ++
      firstOf [
        (functionAhead, .call .functionType ++ .mark .other),
        (.ahead 0 .anyName ||| pathKeywordAhead,
          .call .typePath ++
            .onShape [.other] .done
              ((if plus then .call .looseBounds else .done) ++ .mark .bound))]
      .fail),
    (openingAt 0 .paren, .call (.typeParen plus)),
    (functionAhead, .call .functionType ++ .mark .other),
    (signAt 0 "<", .call (.qualified .type) ++ .call .callInputs ++ .mark .other),
    (.ahead 0 .anyName ||| pathKeywordAhead ||| signAt 0 "::",
      .call .typePath ++
        if plus then
          .onShape (.bound :: pathShapes)
            (whenAhead (signAt 0 "+") (.call .looseBounds ++ .mark .other)) .done
        else .done),
    (wordAt 0 "dyn", word "dyn" ++ optionalSign "*" ++
      .call (.boundsWithTrait .object plus) ++ .mark .other),
    (openingAt 0 .bracket, group .bracket (.call (.type true) ++
      whenAhead (signAt 0 ";") (sign ";" ++ .call (.expression true))) ++ .mark .other),
    (signAt 0 "*", sign "*" ++ .choose (wordAt 0 "const") (word "const") (word "mut") ++
      .call (.type false) ++ .mark .other),
    (signAt 0 "&", sign "&" ++ whenAhead (.ahead 0 .lifetime) (.take .lifetime) ++
      optionalWord "mut" ++ .call (.type false) ++ .mark .other),
    (signAt 0 "!", sign "!" ++ .mark .other),
    (wordAt 0 "impl", word "impl" ++ .call (.boundsWithTrait .anonymous plus) ++ .mark .other),
    (wordAt 0 "_", word "_" ++ .mark .other),
    (.ahead 0 .lifetime, .call (.boundsWithTrait .object true) ++ .mark .other)]
  .fail

/-- A path as a type, perhaps with inputs in parentheses or as a macro call. -/
def typePathRule : PhraseRule :=
  .call (.path .type) ++
    .onShape [.name, .names]
      (.choose macroAhead (macroCall ++ .mark .other) (.call .callInputs))
      (.call .callInputs)

/-- The inputs and the result of a bound on functions. A double colon before them is dropped. -/
def callInputsRule : PhraseRule :=
  .onShape [.name, .names, .namesAfterArguments]
    (whenAhead (openingAt 0 .paren ||| (signAt 0 "::" &&& openingAt 2 .paren))
      (.rewrite .nothing (optionalSign "::") ++ group .paren (.call .types) ++
        whenAhead (signAt 0 "->") (sign "->" ++ .call (.type false)) ++
        .mark .namesWithArguments))
    .done

/-- What begins with a parenthesis: a tuple, a type in parentheses, or bounds of which the
first stands in parentheses. -/
def typeParenRule (plus : Bool) : PhraseRule :=
  .take (.opening .paren) ++
    firstOf [
      (atFinish, .close .paren ++ .mark .other),
      (.ahead 0 .lifetime, .call (.type true) ++ .close .paren ++ .mark .other),
      (signAt 0 "?", .call (.boundPath .object) ++ .close .paren ++ .call .plusBounds ++
        .mark .other)]
    (.call (.type true) ++
      .choose (signAt 0 ",")
        (sign "," ++ .call .types ++ .close .paren ++ .mark .other)
        (.close .paren ++
          (if plus then
            .onShape (.bound :: pathShapes)
              (whenAhead (signAt 0 "+") (.call .plusBounds)) .done
          else .done) ++
          .mark .other))

def typesRule : PhraseRule :=
  commaItem (.call (.type true)) .types

def functionTypeRule : PhraseRule :=
  optionalWord "unsafe" ++ abi ++ word "fn" ++ group .paren (.call (.functionInputs true)) ++
    whenAhead (signAt 0 "->") (sign "->" ++ .call (.type false))

/-- The inputs of a function type, each perhaps with a name, which may be `self` for the first;
three points stand for more. -/
def functionInputsRule (first : Bool) : PhraseRule :=
  .choose atFinish .done
    (.call .attributes ++
      .choose (signAt 0 "..." ||| ((.ahead 0 .anyName ||| wordAt 0 "_") &&& signAt 1 ":" &&&
          signAt 2 "..."))
        (whenAhead (.ahead 0 .anyWord) (.take .anyWord ++ sign ":") ++ sign "..." ++
          optionalSign ",")
        ((if first then
            .choose (wordAt 0 "mut" &&& wordAt 1 "self")
              (word "mut" ++ word "self" ++
                whenAhead (signAt 0 ":" &&& ~~~signAt 0 "::") (sign ":" ++ .call (.type true)))
              (input (.ahead 0 .anyName ||| wordAt 0 "_" ||| wordAt 0 "self"))
          else input (.ahead 0 .anyName ||| wordAt 0 "_")) ++
          .choose atFinish .done (sign "," ++ .call (.functionInputs false))))
where
  input (name : Look) : PhraseRule :=
    whenAhead (name &&& signAt 1 ":" &&& ~~~signAt 1 "::") (.take .anyWord ++ sign ":") ++
      .call (.type true)

/-- Lifetimes that a type or a bound is said for. -/
def binderRule : PhraseRule :=
  word "for" ++ sign "<" ++ .call .binderItems ++ sign ">"

def binderItemsRule : PhraseRule :=
  .choose (signAt 0 ">") .done
    (.call .attributes ++ .take .lifetime ++
      .choose (signAt 0 ">") .done (sign "," ++ .call .binderItems))

/-- One bound: a lifetime, or a trait with its modifiers. -/
def boundRule (place : BoundPlace) : PhraseRule :=
  firstOf [
    (.ahead 0 .lifetime, .take .lifetime),
    (wordAt 0 "use",
      if place = .anonymous then word "use" ++ sign "<" ++ .call .captures ++ sign ">" else .fail),
    (openingAt 0 .paren, group .paren (.call (.boundPath place)))]
  (.call (.boundPath place))

def boundPathRule (place : BoundPlace) : PhraseRule :=
  .choose (wordAt 0 "for")
    (.call .binder ++ constMark ++ .choose (signAt 0 "?") .fail .done)
    (constMark ++ whenAhead (signAt 0 "?") (sign "?" ++ .choose (wordAt 0 "for") .fail .done)) ++
    .call (.path .type) ++ .call .callInputs
where
  constMark : PhraseRule :=
    if place = .object then .choose (openingAt 0 .bracket ||| wordAt 0 "const") .fail .done
    else firstOf [
      (openingAt 0 .bracket, group .bracket (word "const")),
      (wordAt 0 "const", word "const")]
      .done

/-- Bounds after the first, with plus signs before them, of which the last may be idle. -/
def boundsRule (place : BoundPlace) : PhraseRule :=
  whenAhead (signAt 0 "+")
    (sign "+" ++
      whenAhead
        (.ahead 0 .anyWord ||| signAt 0 "::" ||| signAt 0 "?" ||| .ahead 0 .lifetime |||
          openingAt 0 .paren ||| openingAt 0 .bracket)
        (.call (.bound place) ++ .call (.bounds place)))

/-- Bounds of which one at least is a trait; without `plus` there is just one. -/
def boundsWithTraitRule (place : BoundPlace) (plus : Bool) : PhraseRule :=
  .choose (.ahead 0 .lifetime)
    (if plus then .take .lifetime ++ sign "+" ++ .call (.boundsWithTrait place plus) else .fail)
    (.call (.bound place) ++ if plus then .call (.bounds place) else .done)

/-- Bounds that each plus sign must have after it. -/
def plusBoundsRule : PhraseRule :=
  whenAhead (signAt 0 "+") (sign "+" ++ .call (.bound .object) ++ .call .plusBounds)

/-- Bounds after a type that has turned out to be the first of them. -/
def looseBoundsRule : PhraseRule :=
  whenAhead (signAt 0 "+")
    (sign "+" ++
      whenAhead
        (.ahead 0 .anyWord ||| signAt 0 "::" ||| signAt 0 "?" ||| .ahead 0 .lifetime |||
          openingAt 0 .paren)
        (.call (.bound .object) ++ .call .looseBounds))

def capturesRule : PhraseRule :=
  .choose (signAt 0 ">") .done
    (firstOf [(.ahead 0 .lifetime, .take .lifetime), (wordAt 0 "Self", word "Self")] anyName ++
      .choose (signAt 0 ">") .done (sign "," ++ .call .captures))

def parameterBoundsRule : PhraseRule :=
  .choose (signAt 0 "," ||| signAt 0 ">" ||| signAt 0 "=") .done
    (.call (.bound .parameter) ++
      whenAhead (signAt 0 "+") (sign "+" ++ .call .parameterBounds))

def lifetimeBoundsRule : PhraseRule :=
  whenAhead (.ahead 0 .lifetime)
    (.take .lifetime ++ whenAhead (signAt 0 "+") (sign "+" ++ .call .lifetimeBounds))

def whereEnd : Look :=
  atFinish ||| openingAt 0 .brace ||| signAt 0 "," ||| signAt 0 ";" |||
    (signAt 0 ":" &&& ~~~signAt 0 "::") ||| signAt 0 "="

/-- Conditions on lifetimes and types, with commas between them. -/
def whereItemsRule : PhraseRule :=
  .choose whereEnd .done
    (.choose (.ahead 0 .lifetime &&& signAt 1 ":")
      (.take .lifetime ++ sign ":" ++ .call .lifetimeBounds)
      (whenAhead (wordAt 0 "for") (.call .binder) ++ .call (.type true) ++ sign ":" ++
        .call .whereBounds) ++
      whenAhead (signAt 0 ",") (sign "," ++ .call .whereItems))

def whereBoundsRule : PhraseRule :=
  .choose whereEnd .done
    (.call (.bound .parameter) ++
      whenAhead (signAt 0 "+") (sign "+" ++ .call .whereBounds))

end FieldKeys
