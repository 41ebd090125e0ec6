import Interposer.Source.Outline
import Interposer.Source.Parser

/-! Source files: what their outlines declare at top level, in any order. -/

namespace Interposer.Source

namespace Outline

/-! ## Types -/

def textsOf (t : Terminal) (os : List Outline) : List String :=
  (os.filter (·.isToken t)).map Outline.text

mutual

/-- Reads a type. What has no description of its own is kept as it is written. -/
def type : Outline → TypeSyntax
  | .token _ _ text => .name (String.ofList text)
  | .phrase .qualifiedType span _ [package, _, name] => .qualified package.text name.text span
  | .phrase .genericType _ _ [base, .phrase _ _ _ args] => .generic (type base) (elems args)
  | .phrase .pointerType _ _ [_, elem] => .pointer (type elem)
  | .phrase .sliceType _ _ [_, _, elem] => .slice (type elem)
  | .phrase .arrayType span _ [_, length, _, elem] => .array length.span (type elem) span
  | .phrase .mapType _ _ [_, _, key, _, value] => .map (type key) (type value)
  | .phrase .funcType _ _ [_, .phrase _ _ _ params] => .func (paramDecls params) []
  | .phrase .funcType _ _ [_, .phrase _ _ _ params, results] =>
    .func (paramDecls params) (result results)
  | .phrase .chanType span _ parts => .chan (lastType parts) span
  | .phrase .structType _ _ _ => .struct
  | .phrase .interfaceType _ _ parts => .interface (members parts)
  | .phrase .parenType _ _ [_, inner, _] => .paren (type inner)
  | .phrase _ span _ _ => .tilde span

/-- The type at the end of a phrase. -/
def lastType : List Outline → TypeSyntax
  | [] => default
  | [o] => type o
  | _ :: os => lastType os

def elem : Outline → Option ElemSyntax
  | .phrase .typeElem span _ terms => some (.mk (types terms) span)
  | _ => none

def types : List Outline → List TypeSyntax
  | [] => []
  | .token .bar _ _ :: os => types os
  | o :: os => type o :: types os

def elems : List Outline → List ElemSyntax
  | [] => []
  | o :: os => (elem o).toList ++ elems os

def paramDecl : Outline → Option ParamSyntax
  | .phrase .paramDecl _ _ parts =>
    some (.group (textsOf .identifier parts.dropLast) (lastType parts))
  | .phrase .variadicParamDecl _ _ parts =>
    some (.variadic ((textsOf .identifier parts.dropLast).headD "") (lastType parts))
  | _ => none

def paramDecls : List Outline → List ParamSyntax
  | [] => []
  | o :: os => (paramDecl o).toList ++ paramDecls os

/-- A single result has no parentheses. -/
def result : Outline → List ParamSyntax
  | .phrase .params _ _ parts => paramDecls parts
  | .phrase n span text parts => [.group [] (type (.phrase n span text parts))]
  | .token t span text => [.group [] (type (.token t span text))]

def member : Outline → Option MemberSyntax
  | .phrase .methodSpec _ _ [name, .phrase _ _ _ params] =>
    some (.method name.text (paramDecls params) [])
  | .phrase .methodSpec _ _ [name, .phrase _ _ _ params, results] =>
    some (.method name.text (paramDecls params) (result results))
  | .phrase .typeElem span _ terms => some (.elem (.mk (types terms) span))
  | _ => none

def members : List Outline → List MemberSyntax
  | [] => []
  | o :: os => (member o).toList ++ members os

end

/-! ## Declarations -/

/-- The parts that are phrases `n`, or parts of a list of them in parentheses. -/
def specs (n list : Nonterminal) (parts : List Outline) : List Outline :=
  parts.flatMap fun o =>
    if o.isPhrase n then [o]
    else if o.isPhrase list then o.parts.filter (·.isPhrase n)
    else []

def importSpec (o : Outline) : Option ImportSpec :=
  match o.parts with
  | [path] => some ⟨none, path.text⟩
  | [name, path] => some ⟨some name.text, path.text⟩
  | _ => none

def typeSpec : Outline → Option TypeSpec
  | .phrase .typeDef _ _ [name, .phrase .typeParams _ _ decls, t] =>
    some (.definition name.text (decls.flatMap fun o => textsOf .identifier o.parts) (type t))
  | .phrase .typeDef _ _ [name, t] => some (.definition name.text [] (type t))
  | .phrase .aliasDecl _ _ [name, _, t] => some (.synonym name.text (type t))
  | _ => none

/-- The names at the beginning of a declaration. -/
def leadingNames : List Outline → List Outline
  | name :: o :: os => if o.isToken .comma then name :: o :: leadingNames os else [name]
  | os => os

def varNames (o : Outline) : List String := textsOf .identifier (leadingNames o.parts)

/-- The commas between the names of constants count as names too. -/
def constNames (o : Outline) : List String := (leadingNames o.parts).map Outline.text

def item : Outline → Item
  | .phrase .packageClause _ _ (_ :: name :: _) => .package name.text
  | .phrase .importDecl _ _ parts =>
    .imports ((specs .importSpec .importSpecs parts).filterMap importSpec)
  | .phrase .typeDecl _ _ parts => .types (parts.filterMap typeSpec)
  | .phrase .varDecl _ _ parts => .vars ((specs .varSpec .varSpecs parts).flatMap varNames)
  | .phrase .constDecl _ _ parts =>
    .consts ((parts.filter (·.isPhrase .constSpec)).flatMap constNames)
  | .phrase .functionDecl _ _ (_ :: name :: _) => .func name.text
  | _ => .nothing

end Outline

/-- The items of a source file, or the number of the line where it is no Go. -/
def parse (text : List Char) : Except Nat (List Item) :=
  match Tree.ofText text with
  | none => .error 1
  | some tree =>
    if tree.cost > 0 then .error (tree.errorLine?.getD 0 + 1)
    else .ok ((Outline.ofTree none tree).flatMap fun o => o.parts.map Outline.item)

end Interposer.Source
