import Interposer.Source.Terminal

/-! What the rules of a grammar are made of. A phrase is the list of the ways to write it down; a
rule gives a phrase to a nonterminal, with what decides between rules where a text has several
readings. -/

namespace Interposer.Source

/-- The nonterminals of Go. Where alternatives are compared, the order of the constructors counts.
From `moreItems` on they are repetitions. -/
inductive Nonterminal where
  | file
  | packageClause
  | importDecl
  | importSpec
  | importDot
  | importSpecs
  | constDecl
  | constSpec
  | varDecl
  | varSpec
  | varSpecs
  | functionDecl
  | methodDecl
  | typeParams
  | typeParamDecl
  | params
  | paramDecl
  | variadicParamDecl
  | aliasDecl
  | typeDecl
  | typeDef
  | expressions
  | parenType
  | simpleType
  | genericType
  | typeArgs
  | pointerType
  | arrayType
  | inferredArrayType
  | sliceType
  | structType
  | tildeType
  | fieldDecls
  | fieldDecl
  | interfaceType
  | methodSpec
  | typeElem
  | mapType
  | chanType
  | funcType
  | block
  | statements
  | statement
  | emptyStmt
  | simpleStmt
  | expressionStmt
  | sendStmt
  | receiveStmt
  | incrementStmt
  | decrementStmt
  | assignment
  | shortVarDecl
  | labeledStmt
  | emptyLabeledStmt
  | fallthroughStmt
  | breakStmt
  | continueStmt
  | gotoStmt
  | returnStmt
  | goStmt
  | deferStmt
  | ifStmt
  | forStmt
  | forClause
  | rangeClause
  | switchStmt
  | expressionCase
  | defaultCase
  | typeSwitchStmt
  | typeSwitchHeader
  | typeCase
  | selectStmt
  | commCase
  | expression
  | parenExpr
  | callExpr
  | variadicArg
  | newArgs
  | args
  | selectorExpr
  | indexExpr
  | sliceExpr
  | typeAssertion
  | conversion
  | instantiation
  | compositeLiteral
  | literalValue
  | element
  | keyedElement
  | funcLiteral
  | unaryExpr
  | binaryExpr
  | qualifiedType
  | rawString
  | quotedString
  | moreItems
  | moreImportSpecs
  | moreConstSpecs
  | moreNames
  | moreVarSpecs
  | moreTypeParamDecls
  | moreParamDecls
  | moreTypeSpecs
  | moreExpressions
  | moreTypeElems
  | moreFieldDecls
  | moreInterfaceElems
  | moreTypeTerms
  | moreStatements
  | moreExpressionCases
  | moreTypeCases
  | moreTypes
  | moreCommCases
  | moreArgs
  | moreElements
  | moreQuotedParts
  /-- A file as a whole. -/
  | text
  deriving DecidableEq, Repr, Inhabited

namespace Nonterminal

def all : List Nonterminal := (List.range (text.ctorIdx + 1)).map ofNat

def isRepetition (n : Nonterminal) : Bool :=
  moreItems.ctorIdx ≤ n.ctorIdx && n.ctorIdx < text.ctorIdx

/-- Whether a nonterminal shows in a tree; the parts of others stand for themselves. -/
def isVisible : Nonterminal → Bool
  | simpleType | statements | statement | simpleStmt | typeSwitchHeader
  | expression => false
  | n => !n.isRepetition

end Nonterminal

inductive Symbol where
  | terminal (t : Terminal)
  | nonterminal (n : Nonterminal)
  deriving DecidableEq, Repr, Inhabited

/-- Which of two readings of equal level counts: the one that ends first, the one that goes on, or
both. -/
inductive Grouping where
  | left
  | right
  | free
  deriving DecidableEq, Repr, Inhabited

/-- The ways to write something down. -/
structure Phrase where
  ways : List (List Symbol)

namespace Phrase

instance : Coe Terminal Phrase := ⟨fun t => ⟨[[.terminal t]]⟩⟩

instance : Coe Nonterminal Phrase := ⟨fun n => ⟨[[.nonterminal n]]⟩⟩

def choice (ps : List Phrase) : Phrase := ⟨ps.flatMap (·.ways)⟩

/-- One phrase after the other. -/
def seq (ps : List Phrase) : Phrase :=
  ⟨ps.foldr (fun p rest => p.ways.flatMap fun way => rest.map (way ++ ·)) [[]]⟩

def opt (p : Phrase) : Phrase := ⟨p.ways ++ [[]]⟩

end Phrase

/-- A phrase of a nonterminal. Rules of a higher level hold their parts together more tightly; of
the readings of a text the one of most weight counts. -/
structure Rule where
  phrase : Phrase
  level : Int := 0
  grouping : Grouping := .free
  weight : Int := 0

namespace Rule

instance : Coe Phrase (List Rule) := ⟨fun p => [⟨p, 0, .free, 0⟩]⟩

def leveled (level : Int) (p : Phrase) : List Rule := [⟨p, level, .free, 0⟩]

def left (p : Phrase) (level : Int := 0) : List Rule := [⟨p, level, .left, 0⟩]

def right (p : Phrase) (level : Int := 0) : List Rule := [⟨p, level, .right, 0⟩]

def weighted (weight : Int) (p : Phrase) : List Rule := [⟨p, 0, .free, weight⟩]

end Rule

end Interposer.Source
