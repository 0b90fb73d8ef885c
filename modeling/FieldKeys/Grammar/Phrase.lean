import FieldKeys.Grammar.Rule

/-! The phrases of the grammar and the small rules out of which the others are built. -/

namespace FieldKeys

/-- How tightly an operator binds, the loosest first. A condition with a pattern stands between
conjunction and comparison. -/
inductive Precedence where
  | lowest
  | assign
  | range
  | or
  | and
  | condition
  | compare
  | bitOr
  | bitXor
  | bitAnd
  | shift
  | sum
  | product
  | cast
deriving DecidableEq, Repr

def Precedence.level : Precedence → Nat
  | .lowest => 0
  | .assign => 1
  | .range => 2
  | .or => 3
  | .and => 4
  | .condition => 5
  | .compare => 6
  | .bitOr => 7
  | .bitXor => 8
  | .bitAnd => 9
  | .shift => 10
  | .sum => 11
  | .product => 12
  | .cast => 13

/-- Whether an operand of an operator may itself hold an operator without brackets. Assignment
binds to the right, the others to the left. -/
def Precedence.admits (outer inner : Precedence) : Bool :=
  decide (outer.level < inner.level) || (outer == .assign && inner == .assign)

/-- Where a path stands: in an expression its arguments need a double colon before them. -/
inductive PathPlace where
  | expression
  | type
deriving DecidableEq, Repr

/-- Where a bound stands, which decides about its modifiers. -/
inductive BoundPlace where
  | parameter
  | object
  | anonymous
deriving DecidableEq, Repr

/-- Where a member is defined: in a trait, in an implementation, or in a foreign block. -/
inductive MemberPlace where
  | trait
  | implementation
  | foreign
deriving DecidableEq, Repr

/-- What the grammar reads. `braces` says whether a brace after a path opens a structure,
`plus` whether a type may go on with a plus, `first` whether an input is the first one, which may be
`self`, `rooted` whether an imported path may begin with a double colon, and `bare` whether an item
has neither a visibility nor another mark in front. -/
inductive Phrase where
  | attributes
  | attribute
  | attributeValue
  | innerAttributes
  | plainPath
  | plainPathWords
  | path (place : PathPlace)
  | pathWord (place : PathPlace)
  | pathRest (place : PathPlace)
  | qualified (place : PathPlace)
  | qualifiedRest (place : PathPlace)
  | angle
  | angleItems
  | angleItem
  | constant
  | nestedPath
  | nestedPathWords
  | type (plus : Bool)
  | typePath
  | typeParen (plus : Bool)
  | types
  | functionType
  | functionInputs (first : Bool)
  | callInputs
  | binder
  | binderItems
  | bound (place : BoundPlace)
  | boundPath (place : BoundPlace)
  | bounds (place : BoundPlace)
  | boundsWithTrait (place : BoundPlace) (plus : Bool)
  | plusBounds
  | looseBounds
  | captures
  | parameterBounds
  | lifetimeBounds
  | whereItems
  | whereBounds
  | pattern
  | patternCase
  | patternCases
  | patterns
  | patternFields
  | patternEnd
  | expression (braces : Bool)
  | unary (braces : Bool)
  | atom (braces : Bool)
  | pathExpression (braces : Bool)
  | trailers
  | operators (outer : Precedence) (braces : Bool)
  | rangeEnd (braces : Bool)
  | expressions
  | structureItems
  | closure (braces : Bool)
  | closureInputs
  | conditional
  | arms
  | block
  | openBlock
  | statements
  | statement
  | statementExpression
  | visibility
  | fieldType
  | namedFields
  | namedFieldItems
  | tupleField
  | tupleFields
  | variants
  | generics
  | parameters
  | parameter
  | whereClause
  | itemBounds
  | signature (safe : Bool)
  | inputs (first : Bool)
  | items
  | item
  | definition (bare : Bool)
  | useTree (rooted : Bool)
  | useTrees (rooted : Bool)
  | members (place : MemberPlace)
  | member (place : MemberPlace) (bare : Bool)
deriving DecidableEq, Repr

abbrev PhraseRule := Rule Phrase

def wordAt (skip : Nat) (w : String) : Look := .ahead skip (.word w.toList)

def signAt (skip : Nat) (s : String) : Look := .ahead skip (.sign s.toList)

def openingAt (skip : Nat) (d : Delimiter) : Look := .ahead skip (.opening d)

/-- Whether the group, or the whole text, is at its end. -/
def atFinish : Look := .ahead 0 .finish

instance : AndOp Look := ⟨.both⟩

instance : OrOp Look := ⟨.either⟩

instance : Complement Look := ⟨.no⟩

def word (w : String) : PhraseRule := .take (.word w.toList)

def sign (s : String) : PhraseRule := .take (.sign s.toList)

def anyName : PhraseRule := .take .anyName

def group (d : Delimiter) (inside : PhraseRule) : PhraseRule :=
  .take (.opening d) ++ (inside ++ .close d)

def whenAhead (look : Look) (rule : PhraseRule) : PhraseRule :=
  .choose look rule .done

def optionalWord (w : String) : PhraseRule := whenAhead (wordAt 0 w) (word w)

def optionalSign (s : String) : PhraseRule := whenAhead (signAt 0 s) (sign s)

def firstOf (cases : List (Look × PhraseRule)) (otherwise : PhraseRule) : PhraseRule :=
  cases.foldr (fun (look, rule) rest => .choose look rule rest) otherwise

/-- One item of a list with commas, which may end with one; `self` reads the rest of it. -/
def commaItem (item : PhraseRule) (self : Phrase) : PhraseRule :=
  .choose atFinish .done
    (item ++ .choose atFinish .done (sign "," ++ .call self))

/-- The words that may stand in a path though they are no names. -/
def pathKeywordAhead : Look :=
  wordAt 0 "super" ||| wordAt 0 "self" ||| wordAt 0 "Self" ||| wordAt 0 "crate"

def literalAhead : Look :=
  .ahead 0 .literal ||| (signAt 0 "-" &&& .ahead 1 .number)

/-- A literal. A number below zero is one literal with its sign. -/
def literal : PhraseRule :=
  .choose (signAt 0 "-") (.rewrite .literal (sign "-" ++ .take .number)) (.take .literal)

/-- The name of a calling convention, after the word `extern`. -/
def abi : PhraseRule :=
  whenAhead (wordAt 0 "extern") (word "extern" ++ whenAhead (.ahead 0 .string) (.take .string))

def macroCall : PhraseRule :=
  sign "!" ++ .raw

def macroAhead : Look := signAt 0 "!" &&& ~~~signAt 0 "!="

end FieldKeys
