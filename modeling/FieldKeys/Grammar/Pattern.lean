import FieldKeys.Grammar.Phrase

/-! Patterns. -/

namespace FieldKeys

/-- A pattern of one case or several, with a bar in front perhaps. -/
def patternRule : PhraseRule :=
  optionalSign "|" ++ .call .patternCase ++ .call .patternCases

def patternCasesRule : PhraseRule :=
  whenAhead (signAt 0 "|" &&& ~~~signAt 0 "||" &&& ~~~signAt 0 "|=")
    (sign "|" ++ .call .patternCase ++ .call .patternCases)

def patternPathAhead : Look :=
  (.ahead 0 .anyName &&&
    (signAt 1 "::" ||| signAt 1 "!" ||| openingAt 1 .brace ||| openingAt 1 .paren |||
      signAt 1 "..")) |||
    (wordAt 0 "self" &&& signAt 1 "::") ||| signAt 0 "::" ||| signAt 0 "<" |||
    wordAt 0 "Self" ||| wordAt 0 "super" ||| wordAt 0 "crate"

/-- The end of a range of patterns; after an equals sign there must be one. -/
def patternRangeTail : PhraseRule :=
  firstOf [
    (signAt 0 "..=", sign "..=" ++ .call .patternEnd),
    (signAt 0 "...", sign "..." ++ .call .patternEnd)]
  (sign ".." ++ .choose
    (atFinish ||| signAt 0 "|" ||| signAt 0 "=" ||| (signAt 0 ":" &&& ~~~signAt 0 "::") |||
      signAt 0 "," ||| signAt 0 ";" ||| wordAt 0 "if")
    .done (.call .patternEnd))

/-- One end of a range: a literal, a path or a constant block. -/
def patternEndRule : PhraseRule :=
  firstOf [
    (literalAhead, literal),
    (signAt 0 "<", .call (.qualified .expression)),
    (.ahead 0 .anyName ||| pathKeywordAhead ||| signAt 0 "::", .call (.path .expression)),
    (wordAt 0 "const", word "const" ++ .call .openBlock)]
  .fail

def patternPathTail : PhraseRule :=
  firstOf [
    (openingAt 0 .brace, group .brace (.call .patternFields)),
    (openingAt 0 .paren, group .paren (.call .patterns)),
    (signAt 0 "..", patternRangeTail)]
  .done

def patternCaseRule : PhraseRule :=
  firstOf [
    (patternPathAhead,
      .choose (signAt 0 "<") (.call (.qualified .expression) ++ patternPathTail)
        (.call (.path .expression) ++
          .onShape [.name, .names] (.choose macroAhead macroCall patternPathTail)
            patternPathTail)),
    (wordAt 0 "_", word "_"),
    (wordAt 0 "box", word "box" ++ .call .patternCase),
    (literalAhead ||| wordAt 0 "const", .call .patternEnd ++
      whenAhead (signAt 0 "..") patternRangeTail),
    (wordAt 0 "ref" ||| wordAt 0 "mut" ||| wordAt 0 "self" ||| .ahead 0 .anyName,
      optionalWord "ref" ++ optionalWord "mut" ++
        .choose (wordAt 0 "self") (word "self") anyName ++
        whenAhead (signAt 0 "@") (sign "@" ++ .call .patternCase)),
    (signAt 0 "&", sign "&" ++ optionalWord "mut" ++ .call .patternCase),
    (openingAt 0 .paren, group .paren (.call .patterns)),
    (openingAt 0 .bracket, group .bracket (.call .patterns)),
    (signAt 0 ".." &&& ~~~signAt 0 "...", patternRangeTail)]
  .fail

def patternsRule : PhraseRule :=
  commaItem (.call .pattern) .patterns

/-- The fields of a structure in a pattern; two points stand for the others, at the end. -/
def patternFieldsRule : PhraseRule :=
  .choose atFinish .done
    (.call .attributes ++
      .choose (signAt 0 "..") (sign "..")
        (field ++ .choose atFinish .done (sign "," ++ .call .patternFields)))
where
  field : PhraseRule :=
    firstOf [
      (wordAt 0 "box" ||| wordAt 0 "ref" ||| wordAt 0 "mut",
        optionalWord "box" ++ optionalWord "ref" ++ optionalWord "mut" ++ anyName),
      (.ahead 0 .anyName, anyName ++ whenAhead (signAt 0 ":") (sign ":" ++ .call .pattern))]
    (.take .index ++ sign ":" ++ .call .pattern)

end FieldKeys
