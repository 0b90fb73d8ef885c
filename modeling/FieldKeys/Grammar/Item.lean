import FieldKeys.Grammar.Phrase

/-! The parts of items: visibility, fields and variants. -/

namespace FieldKeys

/-- A parenthesis after `pub` belongs to it only if it holds a single word or a path. -/
def visibilityRule : PhraseRule :=
  whenAhead (wordAt 0 "pub")
    (word "pub" ++
      firstOf [
        (openingAt 0 .paren &&& wordAt 1 "in",
          group .paren (word "in" ++ .call .plainPath)),
        (openingAt 0 .paren &&& (wordAt 1 "crate" ||| wordAt 1 "self" ||| wordAt 1 "super") &&&
            .ahead 2 .finish,
          group .paren (.take .anyWord))]
      .done)

/-- The type of a field. A field without a name may hold fields of its own. -/
def fieldTypeRule : PhraseRule :=
  .onShape [.name]
    (.choose (wordAt 0 "struct" ||| (wordAt 0 "union" &&& openingAt 1 .brace))
      (.take .anyWord ++ .call .namedFields) (.call (.type true)))
    (.call (.type true))

def namedFieldsRule : PhraseRule :=
  group .brace (.call .namedFieldItems)

def namedFieldItemsRule : PhraseRule :=
  commaItem
    (.call .attributes ++ .call .visibility ++
      .choose (wordAt 0 "_") (word "_" ++ .mark .name) (anyName ++ .mark .other) ++
      sign ":" ++ .call .fieldType)
    .namedFieldItems

def tupleFieldRule : PhraseRule :=
  .call .attributes ++ .call .visibility ++ .call (.type true)

def tupleFieldsRule : PhraseRule :=
  commaItem (.call .tupleField) .tupleFields

def variantsRule : PhraseRule :=
  commaItem
    (.call .attributes ++ .call .visibility ++ anyName ++
      firstOf [
        (openingAt 0 .brace, .call .namedFields),
        (openingAt 0 .paren, group .paren (.call .tupleFields))]
      .done ++
      whenAhead (signAt 0 "=") (sign "=" ++ .call (.expression true)))
    .variants

end FieldKeys
