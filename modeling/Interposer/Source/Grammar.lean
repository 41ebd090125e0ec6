import Interposer.Source.Grammar.Rule

/-! The grammar of Go. It takes more than Go does: statements stand at top level, and keywords that
name types or values count as expressions. -/

namespace Interposer.Source

open Terminal Nonterminal Phrase Rule

namespace Grammar

/-- What ends a statement. -/
def terminator : Phrase := choice [newline, semicolon, null]

/-- `p` and `rest`, where `rest` repeats `separated p`. -/
def list (p : Phrase) (rest : Nonterminal) : Phrase := seq [p, opt rest]

/-- A repetition has any number of parts but none, grouped in any way. -/
def repetition (self : Nonterminal) (p : Phrase) : Phrase := choice [seq [self, self], p]

def type : Phrase := choice [simpleType, parenType]

def string : Phrase := choice [rawString, quotedString]

def topLevelDecl : Phrase := choice [packageClause, functionDecl, methodDecl, importDecl]

def result : Phrase := opt (choice [params, simpleType])

def interfaceElem : Phrase := choice [methodSpec, typeElem]

def newOrMake : Phrase := choice [kwNew, kwMake]

def multiplication : Phrase :=
  choice [star, slash, percent, leftShift, rightShift, ampersand, ampersandCaret]

def addition : Phrase := choice [plus, minus, bar, caret]

def comparison : Phrase := choice [equal, notEqual, less, lessEqual, greater, greaterEqual]

def assignOperator : Phrase :=
  choice [starAssign, slashAssign, percentAssign, leftShiftAssign, rightShiftAssign,
    ampersandAssign, ampersandCaretAssign, plusAssign, minusAssign, barAssign, caretAssign, assign]

def binary (op : Phrase) : Phrase := seq [expression, op, expression]

/-- Parts of a declaration that stands for one of them or for a list in parentheses. -/
def grouped (p : Phrase) (terminated : Nonterminal) : Phrase :=
  choice [p, seq [leftParen, opt terminated, rightParen]]

/-- Parts with terminators between them, and maybe one at the end. -/
def separated (p : Phrase) (rest : Nonterminal) : Phrase := opt (seq [list p rest, opt terminator])

/-- Parts with commas between them, and maybe one at the end. -/
def commaSeparated (p : Phrase) (rest : Nonterminal) : Phrase := seq [list p rest, opt comma]

end Grammar

open Grammar

/-- The rules of a nonterminal. -/
def Nonterminal.rules : Nonterminal → List Rule
  | .text => (file : Phrase)
  | .file => seq [opt moreItems, opt topLevelDecl]
  | .packageClause => seq [kwPackage, identifier]
  | .importDecl => seq [kwImport, choice [importSpec, importSpecs]]
  | .importSpec => seq [opt (choice [importDot, underscore, identifier]), string]
  | .importDot => (dot : Phrase)
  | .importSpecs => seq [leftParen, separated importSpec moreImportSpecs, rightParen]
  | .constDecl => seq [kwConst, grouped constSpec moreConstSpecs]
  | .constSpec =>
    left (seq [list identifier moreNames, opt (seq [opt type, assign, expressions])])
  | .varDecl => seq [kwVar, choice [varSpec, varSpecs]]
  | .varSpec =>
    seq [list identifier moreNames,
      choice [seq [type, opt (seq [assign, expressions])], seq [assign, expressions]]]
  | .varSpecs => seq [leftParen, opt moreVarSpecs, rightParen]
  | .functionDecl => right (seq [kwFunc, identifier, opt typeParams, params, result, opt block]) 1
  | .methodDecl => right (seq [kwFunc, params, identifier, params, result, opt block]) 1
  | .typeParams =>
    seq [leftBracket, commaSeparated typeParamDecl moreTypeParamDecls, rightBracket]
  | .typeParamDecl => seq [list identifier moreNames, typeElem]
  | .params =>
    seq [leftParen,
      opt (seq [opt (list (choice [paramDecl, variadicParamDecl]) moreParamDecls), opt comma]),
      rightParen]
  | .paramDecl => seq [opt (list identifier moreNames), type]
  | .variadicParamDecl => seq [opt identifier, ellipsis, type]
  | .aliasDecl => seq [identifier, assign, type]
  | .typeDecl => seq [kwType, grouped (choice [typeDef, aliasDecl]) moreTypeSpecs]
  | .typeDef => seq [identifier, opt typeParams, type]
  | .expressions => list expression moreExpressions
  | .parenType => seq [leftParen, type, rightParen]
  | .simpleType =>
    weighted (-1) identifier ++
      (choice [genericType, qualifiedType, pointerType, structType, interfaceType, arrayType,
        sliceType, mapType, chanType, funcType, tildeType] : Phrase)
  | .genericType => weighted 1 (seq [choice [identifier, qualifiedType, tildeType], typeArgs])
  | .typeArgs =>
    weighted 2 (seq [leftBracket, commaSeparated typeElem moreTypeElems, rightBracket])
  | .pointerType => leveled 6 (seq [star, type])
  | .arrayType => right (seq [leftBracket, expression, rightBracket, type])
  | .inferredArrayType => seq [leftBracket, ellipsis, rightBracket, type]
  | .sliceType => right (seq [leftBracket, rightBracket, type])
  | .structType => seq [kwStruct, fieldDecls]
  | .tildeType => left (seq [tilde, type])
  | .fieldDecls => seq [leftBrace, separated fieldDecl moreFieldDecls, rightBrace]
  | .fieldDecl =>
    seq [choice [seq [list identifier moreNames, type],
        seq [opt star, choice [identifier, qualifiedType, genericType]]],
      opt string]
  | .interfaceType =>
    seq [kwInterface, leftBrace, separated interfaceElem moreInterfaceElems, rightBrace]
  | .methodSpec => seq [identifier, params, result]
  | .typeElem => list type moreTypeTerms
  | .mapType => right (seq [kwMap, leftBracket, type, rightBracket, type])
  | .chanType =>
    left (seq [kwChan, type]) ++ left (seq [kwChan, arrow, type]) ++
      left (seq [arrow, kwChan, type]) 6
  | .funcType => right (seq [kwFunc, params, result])
  | .block => seq [leftBrace, opt statements, rightBrace]
  | .statements =>
    choice [seq [list statement moreStatements, opt (seq [terminator, opt emptyLabeledStmt])],
      emptyLabeledStmt]
  | .statement =>
    choice [constDecl, typeDecl, varDecl, simpleStmt, returnStmt, goStmt, deferStmt, ifStmt,
      forStmt, switchStmt, typeSwitchStmt, selectStmt, labeledStmt, fallthroughStmt, breakStmt,
      continueStmt, gotoStmt, block, emptyStmt]
  | .emptyStmt => (semicolon : Phrase)
  | .simpleStmt =>
    choice [expressionStmt, sendStmt, incrementStmt, decrementStmt, assignment, shortVarDecl]
  | .expressionStmt => (expression : Phrase)
  | .sendStmt => seq [expression, arrow, expression]
  | .receiveStmt => seq [opt (seq [expressions, choice [assign, define]]), expression]
  | .incrementStmt => seq [expression, increment]
  | .decrementStmt => seq [expression, decrement]
  | .assignment => seq [expressions, assignOperator, expressions]
  | .shortVarDecl => seq [expressions, define, expressions]
  | .labeledStmt => seq [identifier, colon, statement]
  | .emptyLabeledStmt => seq [identifier, colon]
  | .fallthroughStmt => left kwFallthrough
  | .breakStmt => seq [kwBreak, opt identifier]
  | .continueStmt => seq [kwContinue, opt identifier]
  | .gotoStmt => seq [kwGoto, identifier]
  | .returnStmt => seq [kwReturn, opt expressions]
  | .goStmt => seq [kwGo, expression]
  | .deferStmt => seq [kwDefer, expression]
  | .ifStmt =>
    seq [kwIf, opt (seq [simpleStmt, semicolon]), expression, block,
      opt (seq [kwElse, choice [block, ifStmt]])]
  | .forStmt => seq [kwFor, opt (choice [expression, forClause, rangeClause]), block]
  | .forClause => seq [opt simpleStmt, semicolon, opt expression, semicolon, opt simpleStmt]
  | .rangeClause => seq [opt (seq [expressions, choice [assign, define]]), kwRange, expression]
  | .switchStmt =>
    seq [kwSwitch, opt (seq [simpleStmt, semicolon]), opt expression, leftBrace,
      opt moreExpressionCases, rightBrace]
  | .expressionCase => seq [kwCase, expressions, colon, opt statements]
  | .defaultCase => seq [kwDefault, colon, opt statements]
  | .typeSwitchStmt => seq [kwSwitch, typeSwitchHeader, leftBrace, opt moreTypeCases, rightBrace]
  | .typeSwitchHeader =>
    seq [opt (seq [simpleStmt, semicolon]), opt (seq [expressions, define]), expression, dot,
      leftParen, kwType, rightParen]
  | .typeCase => seq [kwCase, list type moreTypes, colon, opt statements]
  | .selectStmt => seq [kwSelect, leftBrace, opt moreCommCases, rightBrace]
  | .commCase => seq [kwCase, choice [sendStmt, receiveStmt], colon, opt statements]
  | .expression =>
    choice [unaryExpr, binaryExpr, selectorExpr, indexExpr, sliceExpr, callExpr, typeAssertion,
      conversion, instantiation, identifier, newOrMake, compositeLiteral, funcLiteral, string,
      intLiteral, floatLiteral, imaginaryLiteral, runeLiteral, kwNil, kwTrue, kwFalse, kwIota,
      parenExpr]
  | .parenExpr => seq [leftParen, expression, rightParen]
  | .callExpr =>
    leveled 7 (choice [seq [newOrMake, newArgs], seq [expression, opt typeArgs, args]])
  | .variadicArg => right (seq [expression, ellipsis])
  | .newArgs =>
    seq [leftParen, opt (seq [list type moreExpressions, opt comma]), rightParen]
  | .args =>
    seq [leftParen, opt (commaSeparated (choice [expression, variadicArg]) moreArgs), rightParen]
  | .selectorExpr => leveled 7 (seq [expression, dot, identifier])
  | .indexExpr => leveled 7 (seq [expression, leftBracket, expression, rightBracket])
  | .sliceExpr =>
    leveled 7 (seq [expression, leftBracket,
      choice [seq [opt expression, colon, opt expression],
        seq [opt expression, colon, expression, colon, expression]],
      rightBracket])
  | .typeAssertion => leveled 7 (seq [expression, dot, leftParen, type, rightParen])
  | .conversion => weighted (-1) (seq [type, leftParen, expression, opt comma, rightParen])
  | .instantiation =>
    leveled 7 (seq [type, leftBracket, commaSeparated type moreTypes, rightBracket])
  | .compositeLiteral =>
    leveled (-1) (seq [choice [mapType, sliceType, arrayType, inferredArrayType, structType,
        identifier, genericType, qualifiedType], literalValue])
  | .literalValue =>
    seq [leftBrace,
      opt (seq [opt (list (choice [element, keyedElement]) moreElements), opt comma]),
      rightBrace]
  | .element => choice [expression, literalValue]
  | .keyedElement => seq [element, colon, element]
  | .funcLiteral => seq [kwFunc, params, result, block]
  | .unaryExpr =>
    leveled 6 (seq [choice [plus, minus, bang, caret, star, ampersand, arrow], expression])
  | .binaryExpr =>
    left (binary multiplication) 5 ++ left (binary addition) 4 ++ left (binary comparison) 3 ++
      left (binary logicalAnd) 2 ++ left (binary logicalOr) 1
  | .qualifiedType => seq [identifier, dot, identifier]
  | .rawString => seq [openBackquote, rawContent, closeBackquote]
  | .quotedString => seq [openQuote, opt moreQuotedParts, closeQuote]
  | .moreItems =>
    repetition moreItems (seq [choice [statement, topLevelDecl], terminator])
  | .moreImportSpecs => repetition moreImportSpecs (seq [terminator, importSpec])
  | .moreConstSpecs => repetition moreConstSpecs (seq [constSpec, terminator])
  | .moreNames => repetition moreNames (seq [comma, identifier])
  | .moreVarSpecs => repetition moreVarSpecs (seq [varSpec, terminator])
  | .moreTypeParamDecls => repetition moreTypeParamDecls (seq [comma, typeParamDecl])
  | .moreParamDecls =>
    repetition moreParamDecls (seq [comma, choice [paramDecl, variadicParamDecl]])
  | .moreTypeSpecs =>
    repetition moreTypeSpecs (seq [choice [typeDef, aliasDecl], terminator])
  | .moreExpressions => repetition moreExpressions (seq [comma, expression])
  | .moreTypeElems => repetition moreTypeElems (seq [comma, typeElem])
  | .moreFieldDecls => repetition moreFieldDecls (seq [terminator, fieldDecl])
  | .moreInterfaceElems => repetition moreInterfaceElems (seq [terminator, interfaceElem])
  | .moreTypeTerms => repetition moreTypeTerms (seq [bar, type])
  | .moreStatements => repetition moreStatements (seq [terminator, statement])
  | .moreExpressionCases =>
    repetition moreExpressionCases (choice [expressionCase, defaultCase])
  | .moreTypeCases => repetition moreTypeCases (choice [typeCase, defaultCase])
  | .moreTypes => repetition moreTypes (seq [comma, type])
  | .moreCommCases => repetition moreCommCases (choice [commCase, defaultCase])
  | .moreArgs => repetition moreArgs (seq [comma, choice [expression, variadicArg]])
  | .moreElements =>
    repetition moreElements (seq [comma, choice [element, keyedElement]])
  | .moreQuotedParts => repetition moreQuotedParts (choice [quotedContent, escape])

end Interposer.Source
