import FieldKeys.Grammar.Type

/-! Blocks and statements. -/

namespace FieldKeys

def blockRule : PhraseRule :=
  group .brace (.call .statements)

/-- A block that may begin with attributes of its own. -/
def openBlockRule : PhraseRule :=
  group .brace (.call .innerAttributes ++ .call .statements)

def statementsRule : PhraseRule :=
  .choose (signAt 0 ";") (sign ";" ++ .call .statements)
    (.choose atFinish .done (.call .statement ++ .call .statements))

def goesOnAhead : Look :=
  (signAt 0 "." &&& ~~~signAt 0 "..") ||| signAt 0 "?"

/-- Whether an item stands in front, a macro apart. -/
def itemAhead : Look :=
  wordAt 0 "pub" ||| (wordAt 0 "crate" &&& ~~~signAt 1 "::") ||| wordAt 0 "extern" |||
    wordAt 0 "use" ||| (wordAt 0 "static" &&& (wordAt 1 "mut" ||| .ahead 1 .anyName)) |||
    (wordAt 0 "const" &&& ~~~openingAt 1 .brace &&& ~~~wordAt 1 "static" &&& ~~~wordAt 1 "move" &&&
      ~~~signAt 1 "|" &&& ~~~(wordAt 1 "async" &&& ~~~functionAhead.after 2)) |||
    (wordAt 0 "unsafe" &&& ~~~openingAt 1 .brace) |||
    (wordAt 0 "async" &&& functionAhead.after 1) ||| wordAt 0 "fn" ||| wordAt 0 "mod" |||
    wordAt 0 "type" ||| wordAt 0 "struct" ||| wordAt 0 "enum" |||
    (wordAt 0 "union" &&& .ahead 1 .anyName) ||| (wordAt 0 "auto" &&& wordAt 1 "trait") |||
    wordAt 0 "trait" ||| (wordAt 0 "default" &&& (wordAt 1 "unsafe" ||| wordAt 1 "impl")) |||
    wordAt 0 "impl" ||| wordAt 0 "macro"

/-- A declaration, an item, a macro with braces, or an expression, which needs a semicolon unless
it ends the block or is like a block itself. -/
def statementRule : PhraseRule :=
  .call .attributes ++
    .probe (macroInBraces ++ .choose goesOnAhead .fail .done)
      (macroInBraces ++ optionalSign ";")
      (.choose (wordAt 0 "let") declaration
        (.choose itemAhead (.call .item)
          (.probe namedMacro (.call .item) expression)))
where
  macroInBraces : PhraseRule :=
    .call .plainPath ++ sign "!" ++ .choose (openingAt 0 .brace) .raw .fail
  namedMacro : PhraseRule :=
    .call .plainPath ++ sign "!" ++ .choose (.ahead 0 .anyName ||| wordAt 0 "try") .done .fail
  declaration : PhraseRule :=
    word "let" ++ .call .patternCase ++
      whenAhead (signAt 0 ":") (sign ":" ++ .call (.type true)) ++
      whenAhead (signAt 0 "=")
        (sign "=" ++ .braced (.call (.expression true)) ++
          .onShape [.blockLike] .done
            (whenAhead (wordAt 0 "else") (word "else" ++ .call .block))) ++
      sign ";"
  expression : PhraseRule :=
    .call .statementExpression ++
      .choose (signAt 0 ";") (sign ";")
        (.onShape [.blockLike] .done (.choose atFinish .done .fail))

/-- An expression that ends early: a block at its front is the whole of it, unless a field, a
call of a method or a question mark follows. -/
def statementExpressionRule : PhraseRule :=
  .call .attributes ++
    .choose
      (wordAt 0 "if" ||| wordAt 0 "while" ||| (wordAt 0 "for" &&& ~~~signAt 1 "<") |||
        wordAt 0 "loop" ||| wordAt 0 "match" ||| wordAt 0 "unsafe" |||
        (wordAt 0 "try" &&& openingAt 1 .brace) |||
        (wordAt 0 "const" &&& openingAt 1 .brace) ||| openingAt 0 .brace ||| .ahead 0 .lifetime)
      (.call (.atom true)) (.call (.unary true)) ++
    .onShape [.blockLike]
      (whenAhead goesOnAhead (.call .trailers ++ .call (.operators .lowest true)))
      (.call (.operators .lowest true))

end FieldKeys
