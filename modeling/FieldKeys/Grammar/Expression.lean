import FieldKeys.Grammar.Phrase

/-! Expressions. Operators are read one after the other: an operand takes what binds tighter
than the operator before it, and what follows goes on with the whole. -/

namespace FieldKeys

/-- The operators of two operands, each before those that it begins with. -/
def binaryOperators : List (String × Precedence) := [
  ("+=", .assign), ("-=", .assign), ("*=", .assign), ("/=", .assign), ("%=", .assign),
  ("^=", .assign), ("&=", .assign), ("|=", .assign), ("<<=", .assign), (">>=", .assign),
  ("&&", .and), ("||", .or), ("<<", .shift), (">>", .shift), ("==", .compare),
  ("<=", .compare), ("!=", .compare), (">=", .compare), ("+", .sum), ("-", .sum),
  ("*", .product), ("/", .product), ("%", .product), ("^", .bitXor), ("&", .bitAnd),
  ("|", .bitOr), ("<", .compare), (">", .compare)]

def expressionRule (braces : Bool) : PhraseRule :=
  .call (.unary braces) ++ .call (.operators .lowest braces)

def unaryRule (braces : Bool) : PhraseRule :=
  .call .attributes ++
    firstOf [
      (signAt 0 "&", sign "&" ++
        .choose (wordAt 0 "raw" &&& (wordAt 1 "mut" ||| wordAt 1 "const"))
          (word "raw" ++ .choose (wordAt 0 "mut") (word "mut") (word "const"))
          (optionalWord "mut") ++
        .call (.unary braces) ++ .mark .other),
      (signAt 0 "*", sign "*" ++ .call (.unary braces) ++ .mark .other),
      (signAt 0 "!", sign "!" ++ .call (.unary braces) ++ .mark .other),
      (signAt 0 "-", sign "-" ++ .call (.unary braces) ++ .mark .other)]
    (.call (.atom braces) ++ .call .trailers)

/-- Calls, fields, indices and question marks after an operand. -/
def trailersRule : PhraseRule :=
  .onShape [.range] .done
    (firstOf [
      (openingAt 0 .paren, group .paren (.call .expressions) ++ .mark .other ++ .call .trailers),
      (signAt 0 "." &&& ~~~signAt 0 "..", sign "." ++ member ++ .mark .other ++ .call .trailers),
      (openingAt 0 .bracket,
        group .bracket (.call (.expression true)) ++ .mark .other ++ .call .trailers),
      (signAt 0 "?", sign "?" ++ .mark .other ++ .call .trailers)]
    .done)
where
  method : PhraseRule :=
    anyName ++
      .choose (signAt 0 "::")
        (sign "::" ++ .call .angle ++ group .paren (.call .expressions))
        (whenAhead (openingAt 0 .paren) (group .paren (.call .expressions)))
  simpleMember : PhraseRule :=
    firstOf [(wordAt 0 "await", word "await"), (.ahead 0 .anyName, method)] (.take .index)
  member : PhraseRule :=
    .choose (.ahead 0 .decimalIndex)
      (.choose (.ahead 0 .pointedIndex) (.take .decimalIndex ++ simpleMember)
        (.take .decimalIndex))
      simpleMember

def binaryRule (outer : Precedence) (braces : Bool) (text : String) (inner : Precedence) :
    PhraseRule :=
  if outer.admits inner then
    let operand := sign text ++ .call (.unary braces) ++ .call (.operators inner braces)
    if inner = .compare then
      .onShape [.comparison] .fail
        (operand ++ .mark .comparison ++ .call (.operators outer braces))
    else operand ++ .mark .other ++ .call (.operators outer braces)
  else .done

/-- Two points, perhaps with an equals sign, and the end of the range. -/
def rangeRule (braces : Bool) : PhraseRule :=
  firstOf [
    (signAt 0 "..=", sign "..=" ++ .call (.unary braces) ++ .call (.operators .range braces)),
    (signAt 0 "...", .fail)]
  (sign ".." ++ .call (.rangeEnd braces)) ++ .mark .range

/-- The end of a range that needs none. -/
def rangeEndRule (braces : Bool) : PhraseRule :=
  .choose
    ((if braces then atFinish else atFinish ||| openingAt 0 .brace) ||| signAt 0 "," |||
      signAt 0 ";" ||| (signAt 0 "." &&& ~~~signAt 0 "..") ||| signAt 0 "?" |||
      signAt 0 "=" ||| signAt 0 "+" ||| signAt 0 "/" ||| signAt 0 "%" ||| signAt 0 "^" |||
      signAt 0 ">" ||| signAt 0 "<=" ||| signAt 0 "!=" ||| signAt 0 "-=" ||| signAt 0 "*=" |||
      signAt 0 "&=" ||| signAt 0 "|=" ||| signAt 0 "<<=" ||| wordAt 0 "as")
    .done (.call (.unary braces) ++ .call (.operators .range braces))

/-- The operators after an operand, as far as `outer` admits them. Nothing goes on with a range,
and comparisons do not follow each other. -/
def operatorsRule (outer : Precedence) (braces : Bool) : PhraseRule :=
  .onShape [.range] .done
    (firstOf (binaryOperators.map fun (text, inner) =>
        (signAt 0 text, binaryRule outer braces text inner))
      (firstOf [
        (signAt 0 "=" &&& ~~~signAt 0 "=>",
          if outer.admits .assign then
            sign "=" ++ .call (.expression braces) ++ .mark .other ++
              .call (.operators outer braces)
          else .done),
        (signAt 0 "..", if outer.admits .range then rangeRule braces else .done),
        (wordAt 0 "as",
          if outer.admits .cast then
            word "as" ++ .call (.type false) ++
              .choose
                ((signAt 0 "." &&& ~~~signAt 0 "..") ||| signAt 0 "?" |||
                  openingAt 0 .bracket ||| openingAt 0 .paren)
                .fail .done ++
              .mark .other ++ .call (.operators outer braces)
          else .done)]
      .done))

def expressionsRule : PhraseRule :=
  commaItem (.call (.expression true)) .expressions

def expressionAhead : Look :=
  (.ahead 0 .anyWord &&& ~~~wordAt 0 "as") ||| .ahead 0 .anyOpening ||| .ahead 0 .literal |||
    (signAt 0 "!" &&& ~~~signAt 0 "!=") |||
    (signAt 0 "-" &&& ~~~signAt 0 "-=" &&& ~~~signAt 0 "->") |||
    (signAt 0 "*" &&& ~~~signAt 0 "*=") ||| (signAt 0 "|" &&& ~~~signAt 0 "|=") |||
    (signAt 0 "&" &&& ~~~signAt 0 "&=") ||| signAt 0 ".." |||
    (signAt 0 "<" &&& ~~~signAt 0 "<=" &&& ~~~signAt 0 "<<=") ||| signAt 0 "::" |||
    .ahead 0 .lifetime ||| signAt 0 "#"

def closureAhead : Look :=
  signAt 0 "|" ||| wordAt 0 "move" |||
    (wordAt 0 "for" &&& signAt 1 "<" &&& (.ahead 2 .lifetime ||| signAt 2 ">")) |||
    (wordAt 0 "const" &&& ~~~openingAt 1 .brace) ||| wordAt 0 "static" |||
    (wordAt 0 "async" &&& (signAt 1 "|" ||| wordAt 1 "move"))

def closureRule (braces : Bool) : PhraseRule :=
  whenAhead (wordAt 0 "for") (.call .binder) ++ optionalWord "const" ++
    optionalWord "static" ++ optionalWord "async" ++ optionalWord "move" ++
    sign "|" ++ .call .closureInputs ++ sign "|" ++
    .choose (signAt 0 "->") (sign "->" ++ .call (.type true) ++ .call .block)
      (.call (.expression braces)) ++
    .mark .other

def closureInputsRule : PhraseRule :=
  .choose (signAt 0 "|") .done
    (.call .attributes ++ .call .patternCase ++
      whenAhead (signAt 0 ":") (sign ":" ++ .call (.type true)) ++
      .choose (signAt 0 "|") .done (sign "," ++ .call .closureInputs))

/-- A path with what belongs to it: the group of a macro, or the fields of a structure. -/
def pathExpressionRule (braces : Bool) : PhraseRule :=
  .choose (signAt 0 "<") (.call (.qualified .expression) ++ .mark .names ++ fields)
    (.call (.path .expression) ++
      .onShape [.name, .names]
        (.choose macroAhead (macroCall ++ .mark .other) fields) fields)
where
  fields : PhraseRule :=
    if braces then
      whenAhead (openingAt 0 .brace) (group .brace (.call .structureItems) ++ .mark .other)
    else .done

/-- The fields of a structure; two points bring in the others, at the end. -/
def structureItemsRule : PhraseRule :=
  .choose atFinish .done
    (.choose (signAt 0 "..")
      (sign ".." ++ .choose atFinish .done (.call (.expression true)))
      (.call .attributes ++
        .choose (.ahead 0 .anyName)
          (anyName ++ whenAhead (signAt 0 ":") (sign ":" ++ .call (.expression true)))
          (.take .index ++ sign ":" ++ .call (.expression true)) ++
        .choose atFinish .done (sign "," ++ .call .structureItems)))

def conditionalRule : PhraseRule :=
  word "if" ++ .call (.expression false) ++ .call .block ++
    whenAhead (wordAt 0 "else")
      (word "else" ++ .choose (wordAt 0 "if") (.call .conditional) (.call .block))

/-- The arms of a match; only an arm that ends like a block needs no comma. -/
def armsRule : PhraseRule :=
  .choose atFinish .done
    (.call .attributes ++ .call .pattern ++
      whenAhead (wordAt 0 "if") (word "if" ++ .call (.expression true)) ++
      sign "=>" ++ .call .statementExpression ++
      .onShape [.blockLike] (optionalSign ",") (.choose atFinish .done (sign ",")) ++
      .call .arms)

def loopCases : List (Look × PhraseRule) := [
  (wordAt 0 "while",
    word "while" ++ .call (.expression false) ++ .call .openBlock ++ .mark .blockLike),
  (wordAt 0 "for",
    word "for" ++ .call .pattern ++ word "in" ++ .call (.expression false) ++
      .call .openBlock ++ .mark .blockLike),
  (wordAt 0 "loop", word "loop" ++ .call .openBlock ++ .mark .blockLike)]

def atomRule (braces : Bool) : PhraseRule :=
  firstOf ([
    (.ahead 0 .literal, .take .literal ++ .mark .literal),
    (wordAt 0 "async" &&&
        (openingAt 1 .brace ||| (wordAt 1 "move" &&& openingAt 2 .brace)),
      word "async" ++ optionalWord "move" ++ .call .block ++ .mark .other),
    (wordAt 0 "try" &&& openingAt 1 .brace, word "try" ++ .call .block ++ .mark .blockLike),
    (closureAhead, .call (.closure braces)),
    (wordAt 0 "builtin" &&& signAt 1 "#",
      word "builtin" ++ sign "#" ++ anyName ++ .choose (openingAt 0 .paren) .raw .fail ++
        .mark .other),
    (.ahead 0 .anyName ||| signAt 0 "::" ||| signAt 0 "<" ||| pathKeywordAhead |||
        (wordAt 0 "try" &&& (signAt 1 "!" ||| signAt 1 "::")),
      .call (.pathExpression braces)),
    (openingAt 0 .paren, group .paren (.call .expressions) ++ .mark .other),
    (wordAt 0 "break" &&& .ahead 1 .lifetime &&& signAt 2 ":", .fail),
    (wordAt 0 "break", word "break" ++ whenAhead (.ahead 0 .lifetime) (.take .lifetime) ++
      whenAhead (if braces then expressionAhead else expressionAhead &&& ~~~openingAt 0 .brace)
        (.call (.expression braces)) ++
      .mark .other),
    (wordAt 0 "continue", word "continue" ++
      whenAhead (.ahead 0 .lifetime) (.take .lifetime) ++ .mark .other),
    (wordAt 0 "return", word "return" ++
      whenAhead expressionAhead (.call (.expression true)) ++ .mark .other),
    (wordAt 0 "become", word "become" ++ .call (.expression true) ++ .mark .other),
    (openingAt 0 .bracket, group .bracket
      (.choose atFinish .done
        (.call (.expression true) ++
          .choose (signAt 0 ";") (sign ";" ++ .call (.expression true))
            (.choose atFinish .done (sign "," ++ .call .expressions)))) ++
      .mark .other),
    (wordAt 0 "let", word "let" ++ .call .pattern ++ sign "=" ++ .call (.unary braces) ++
      .call (.operators .condition braces) ++ .mark .other),
    (wordAt 0 "if", .call .conditional ++ .mark .blockLike)] ++
    loopCases ++ [
    (wordAt 0 "match", word "match" ++ .call (.expression false) ++
      group .brace (.call .innerAttributes ++ .call .arms) ++ .mark .blockLike),
    (wordAt 0 "yield", word "yield" ++
      .choose (atFinish ||| signAt 0 "," ||| signAt 0 ";") .done (.call (.expression true)) ++
      .mark .other),
    (wordAt 0 "unsafe", word "unsafe" ++ .call .openBlock ++ .mark .blockLike),
    (wordAt 0 "const", word "const" ++ .call .openBlock ++ .mark .blockLike),
    (openingAt 0 .brace, .call .openBlock ++ .mark .blockLike),
    (signAt 0 "..", rangeRule braces),
    (wordAt 0 "_", word "_" ++ .mark .other),
    (.ahead 0 .lifetime, .take .lifetime ++ sign ":" ++
      firstOf (loopCases ++ [(openingAt 0 .brace, .call .openBlock ++ .mark .blockLike)]) .fail)])
  .fail

end FieldKeys
