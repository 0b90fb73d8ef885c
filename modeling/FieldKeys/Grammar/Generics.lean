import FieldKeys.Grammar.Type

/-! Generic parameters and the conditions on them, as items have them. Colons without bounds are
not written, nor are angle brackets without parameters, nor a `where` without conditions. -/

namespace FieldKeys

/-- Whether an angle bracket opens generic parameters, and not the type of a qualified path. -/
def parametersAhead : Look :=
  signAt 0 "<" &&&
    (signAt 1 ">" ||| signAt 1 "#" ||| wordAt 1 "const" |||
      ((.ahead 1 .lifetime ||| .ahead 1 .anyName) &&&
        (signAt 2 ">" ||| signAt 2 "," ||| (signAt 2 ":" &&& ~~~signAt 2 "::") ||| signAt 2 "=")))

/-- What follows a colon in front. Where the `finish` stands at once, the colon is idle. -/
def afterColon (finish : Look) (bounds : Phrase) : PhraseRule :=
  firstOf [
    (signAt 0 ":" &&& finish.after 1, .rewrite .nothing (sign ":")),
    (signAt 0 ":", sign ":" ++ .call bounds)]
  .done

def genericsRule : PhraseRule :=
  firstOf [
    (signAt 0 "<" &&& signAt 1 ">", .rewrite .nothing (sign "<" ++ sign ">")),
    (signAt 0 "<", sign "<" ++ .call .parameters ++ sign ">")]
  .done

def parametersRule : PhraseRule :=
  .choose (signAt 0 ">") .done
    (.call .parameter ++ .choose (signAt 0 ">") .done (sign "," ++ .call .parameters))

def parameterRule : PhraseRule :=
  .call .attributes ++
    firstOf [
      (.ahead 0 .lifetime,
        .take .lifetime ++ afterColon (signAt 0 "," ||| signAt 0 ">") .lifetimeBounds),
      (.ahead 0 .anyName,
        anyName ++ afterColon (signAt 0 "," ||| signAt 0 ">" ||| signAt 0 "=") .parameterBounds ++
          whenAhead (signAt 0 "=") (sign "=" ++ .call (.type true))),
      (wordAt 0 "const",
        word "const" ++ anyName ++ sign ":" ++ .call (.type true) ++
          whenAhead (signAt 0 "=") (sign "=" ++ .call .constant)),
      (wordAt 0 "_", word "_")]
    .fail

/-- Parameters after `where` are kept for later. -/
def whereClauseRule : PhraseRule :=
  firstOf [
    (wordAt 0 "where" &&& parametersAhead.after 1, .fail),
    (wordAt 0 "where" &&& whereEnd.after 1, .rewrite .nothing (word "where")),
    (wordAt 0 "where", word "where" ++ .call .whereItems)]
  .done

/-- Where the bounds of a trait or of a type that is defined are at their end. -/
def itemBoundsEnd : Look :=
  wordAt 0 "where" ||| openingAt 0 .brace ||| signAt 0 "=" ||| signAt 0 ";"

def itemBoundsRule : PhraseRule :=
  .choose itemBoundsEnd .done
    (.call (.bound .parameter) ++
      .choose itemBoundsEnd .done (sign "+" ++ .call .itemBounds))

end FieldKeys
