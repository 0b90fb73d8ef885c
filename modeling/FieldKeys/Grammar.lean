import FieldKeys.Grammar.Definition
import FieldKeys.Grammar.Expression
import FieldKeys.Grammar.Item
import FieldKeys.Grammar.Path
import FieldKeys.Grammar.Pattern
import FieldKeys.Grammar.Statement

/-! The grammar: one rule for each phrase, and the reader that it gives. -/

namespace FieldKeys

def grammar : Phrase → PhraseRule
  | .attributes => attributesRule
  | .attribute => attributeRule
  | .attributeValue => attributeValueRule
  | .innerAttributes => innerAttributesRule
  | .plainPath => plainPathRule
  | .plainPathWords => plainPathWordsRule
  | .path place => pathRule place
  | .pathWord place => pathWordRule place
  | .pathRest place => pathRestRule place
  | .qualified place => qualifiedRule place
  | .qualifiedRest place => qualifiedRestRule place
  | .angle => angleRule
  | .angleItems => angleItemsRule
  | .angleItem => angleItemRule
  | .constant => constantRule
  | .nestedPath => nestedPathRule
  | .nestedPathWords => nestedPathWordsRule
  | .type plus => typeRule plus
  | .typePath => typePathRule
  | .typeParen plus => typeParenRule plus
  | .types => typesRule
  | .functionType => functionTypeRule
  | .functionInputs first => functionInputsRule first
  | .callInputs => callInputsRule
  | .binder => binderRule
  | .binderItems => binderItemsRule
  | .bound place => boundRule place
  | .boundPath place => boundPathRule place
  | .bounds place => boundsRule place
  | .boundsWithTrait place plus => boundsWithTraitRule place plus
  | .plusBounds => plusBoundsRule
  | .looseBounds => looseBoundsRule
  | .captures => capturesRule
  | .parameterBounds => parameterBoundsRule
  | .lifetimeBounds => lifetimeBoundsRule
  | .whereItems => whereItemsRule
  | .whereBounds => whereBoundsRule
  | .pattern => patternRule
  | .patternCase => patternCaseRule
  | .patternCases => patternCasesRule
  | .patterns => patternsRule
  | .patternFields => patternFieldsRule
  | .patternEnd => patternEndRule
  | .expression braces => expressionRule braces
  | .unary braces => unaryRule braces
  | .atom braces => atomRule braces
  | .pathExpression braces => pathExpressionRule braces
  | .trailers => trailersRule
  | .operators outer braces => operatorsRule outer braces
  | .rangeEnd braces => rangeEndRule braces
  | .expressions => expressionsRule
  | .structureItems => structureItemsRule
  | .closure braces => closureRule braces
  | .closureInputs => closureInputsRule
  | .conditional => conditionalRule
  | .arms => armsRule
  | .block => blockRule
  | .openBlock => openBlockRule
  | .statements => statementsRule
  | .statement => statementRule
  | .statementExpression => statementExpressionRule
  | .visibility => visibilityRule
  | .fieldType => fieldTypeRule
  | .namedFields => namedFieldsRule
  | .namedFieldItems => namedFieldItemsRule
  | .tupleField => tupleFieldRule
  | .tupleFields => tupleFieldsRule
  | .variants => variantsRule
  | .generics => genericsRule
  | .parameters => parametersRule
  | .parameter => parameterRule
  | .whereClause => whereClauseRule
  | .itemBounds => itemBoundsRule
  | .signature safe => signatureRule safe
  | .inputs first => inputsRule first
  | .items => itemsRule
  | .item => itemRule
  | .definition bare => definitionRule bare
  | .useTree rooted => useTreeRule rooted
  | .useTrees rooted => useTreesRule rooted
  | .members place => membersRule place
  | .member place bare => memberRule place bare

/-- How deep phrases can nest over so many tokens. A phrase calls no more than fifteen others
in a chain before a token is read. -/
def depthFor (tokens : Nat) : Nat := 16 * (tokens + 1)

/-- Reads a phrase from the tokens in front, after something of the given shape. Groups are read as
a `whole`, or only as far as the rules go. -/
def Phrase.inFront (whole : Bool) (phrase : Phrase) (shape : Shape) (ts : List Token) :
    Option Reading :=
  readPhrase whole grammar (depthFor ts.length) phrase shape ts

def Phrase.readAfter (phrase : Phrase) (shape : Shape) (ts : List Token) : Option Reading :=
  phrase.inFront true shape ts

def Phrase.read (phrase : Phrase) (ts : List Token) : Option Reading :=
  phrase.readAfter .other ts

end FieldKeys
