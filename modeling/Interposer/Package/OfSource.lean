import Interposer.Source.File
import Interposer.ImportTable
import Interposer.Failure

/-! Packages from source files. The declarations of a file are read against its imports, wherever
these stand, and each declaration on its own. -/

namespace Interposer

namespace Source

def predeclaredTypes : List String :=
  ["any", "bool", "byte", "comparable", "complex64", "complex128", "error", "float32", "float64",
    "int", "int8", "int16", "int32", "int64", "rune", "string", "uint", "uint8", "uint16", "uint32",
    "uint64", "uintptr"]

/-- Segments between slashes, empty ones left out. -/
def pathSegments (path : String) : List (List Char) :=
  (path.toList.splitOn '/').filter (!·.isEmpty)

/-- Whether a path segment is the major version of a module, as `v2` is. -/
def isMajorVersion : List Char → Bool
  | 'v' :: d :: ds => (d :: ds).all Char.isDigit
  | _ => false

/-- The name that a package is expected to have, given its import path: the default alias of the
last segment, where a major version at the end and `go-` in front of the name do not count. -/
def guessName (path : String) : String :=
  let segments := pathSegments path
  let segments :=
    match segments.getLast? with
    | some last =>
      if segments.length > 1 && isMajorVersion last then segments.dropLast else segments
    | none => segments
  let last := segments.getLast?.getD path.toList
  let last := if ['g', 'o', '-'].isPrefixOf last then last.drop 3 else last
  defaultAlias (String.ofList last)

def isQuoteMark (c : Char) : Bool := c == '"' || c == '\x60'

def unquotedPath (text : String) : String :=
  String.ofList (((text.toList.dropWhile isQuoteMark).reverse.dropWhile isQuoteMark).reverse)

/-- The name and the path of an import, unless no name refers to it. -/
def ImportSpec.binding? (spec : ImportSpec) : Option Import :=
  let path := unquotedPath spec.path
  let name := spec.name.getD (guessName path)
  if name == "_" || name == "." then none else some ⟨name, path⟩

def isDigitOf (radix : Nat) (c : Char) : Bool :=
  if radix = 16 then isHexDigit c else c.isDigit

def digitValue (c : Char) : Nat :=
  if c.isDigit then c.toNat - 0x30
  else if c ≤ 'F' then c.toNat - 0x37
  else c.toNat - 0x57

/-- The machine word that digits denote; they may have a plus in front. -/
def wordOfDigits? (radix : Nat) (cs : List Char) : Option Nat :=
  let ds :=
    match cs with
    | '+' :: ds => ds
    | ds => ds
  if ds.isEmpty || !ds.all (isDigitOf radix) then none
  else
    let n := ds.foldl (fun n d => n * radix + digitValue d) 0
    if n < lengthBound then some n else none

/-- The value of an array length, if its text is an integer in decimal or hexadecimal. -/
def lengthOfText? (text : List Char) : Option Nat :=
  match text.filter (· ≠ '_') with
  | '0' :: 'x' :: ds | '0' :: 'X' :: ds => wordOfDigits? 16 ds
  | ds => wordOfDigits? 10 ds

/-- A channel's direction is told from how its type begins in the source. -/
def directionOfText (text : List Char) : Direction :=
  if "<-".toList.isPrefixOf text then .receive
  else if "chan<-".toList.isPrefixOf text || "chan <-".toList.isPrefixOf text then .send
  else .both

/-- What names mean in a declaration. -/
structure Scope where
  text : List Char
  /-- The import path of the package itself. -/
  path : String
  imports : List Import
  typeParams : List String

namespace Scope

/-- Later imports of a name hide earlier ones. -/
def importPath? (scope : Scope) (name : String) : Option String :=
  (scope.imports.reverse.find? (·.name == name)).map (·.path)

def slice (scope : Scope) (span : Span) : List Char :=
  (scope.text.drop span.start).take (span.stop - span.start)

def quotedText (scope : Scope) (span : Span) : String :=
  "`" ++ String.ofList (scope.slice span) ++ "`"

def typeNamed (scope : Scope) (name : String) : SourceType :=
  if scope.typeParams.contains name then .typeParam name
  else if predeclaredTypes.contains name then .basic name
  else .named scope.path name []

def typeQualified (scope : Scope) (package name : String) (span : Span) : SourceType :=
  match scope.importPath? package with
  | some path => .named path name []
  | none => .other (scope.quotedText span ++ " refers to a package that is not imported")

def arrayType (scope : Scope) (length : Span) (elem : SourceType) (span : Span) : SourceType :=
  match lengthOfText? (scope.slice length) with
  | some n => .array n elem
  | none => .other ("array length in " ++ scope.quotedText span ++ " is not an integer literal")

/-- A named type with arguments; other types have none. -/
def instantiate (args : List SourceType) : SourceType → SourceType
  | .named package name _ => .named package name args
  | t => t

end Scope

def ParamSyntax.isVariadic : ParamSyntax → Bool
  | .variadic .. => true
  | .group .. => false

mutual

def Scope.readType (scope : Scope) : TypeSyntax → SourceType
  | .name text => scope.typeNamed text
  | .qualified package name span => scope.typeQualified package name span
  | .generic base args => Scope.instantiate (scope.readElems args) (scope.readType base)
  | .pointer elem => .pointer (scope.readType elem)
  | .slice elem => .slice (scope.readType elem)
  | .array length elem span => scope.arrayType length (scope.readType elem) span
  | .map key value => .map (scope.readType key) (scope.readType value)
  | .func params results =>
    .func (scope.readParams params) (scope.readParams results) (params.any ParamSyntax.isVariadic)
  | .chan elem span => .chan (directionOfText (scope.slice span)) (scope.readType elem)
  | .struct => .struct []
  | .interface members => .interface (scope.readMembers members)
  | .paren inner => scope.readType inner
  | .tilde span => .other (scope.quotedText span)

/-- A single type stands for itself; unions and `~T` have no description. -/
def Scope.readElem (scope : Scope) : ElemSyntax → SourceType
  | .mk [.tilde _] span => .other ("constraint " ++ scope.quotedText span)
  | .mk [t] _ => scope.readType t
  | .mk _ span => .other ("constraint " ++ scope.quotedText span)

def Scope.readElems (scope : Scope) : List ElemSyntax → List SourceType
  | [] => []
  | e :: rest => scope.readElem e :: scope.readElems rest

def Scope.readParams (scope : Scope) : List ParamSyntax → List Variable
  | [] => []
  | .group [] type :: rest => .mk "" (scope.readType type) :: scope.readParams rest
  | .group names type :: rest =>
    names.map (fun name => .mk name (scope.readType type)) ++ scope.readParams rest
  | .variadic name type :: rest =>
    .mk name (.slice (scope.readType type)) :: scope.readParams rest

def Scope.readMembers (scope : Scope) : List MemberSyntax → List Member
  | [] => []
  | .method name params results :: rest =>
    .method name (scope.readParams params) (scope.readParams results)
      (params.any ParamSyntax.isVariadic) :: scope.readMembers rest
  | .elem e :: rest => .embedded (scope.readElem e) :: scope.readMembers rest

end

/-- The scope of a type declaration: that of the file with its type parameters. -/
def Scope.readTypeSpec (scope : Scope) : TypeSpec → Declaration
  | .definition name params type =>
    .type name params ({ scope with typeParams := params }.readType type)
  | .synonym name type => .typeAlias name (scope.readType type)

/-- The declarations of one item; blank variables and constants declare nothing. -/
def Scope.readItem (scope : Scope) : Item → List Declaration
  | .types specs => specs.map scope.readTypeSpec
  | .vars names => (names.filter (· ≠ "_")).map .var
  | .consts names => (names.filter (· ≠ "_")).map .const
  | .func name => [.func name]
  | .package _ | .imports _ | .nothing => []

/-- The name of the last package clause, empty if there is none. -/
def packageName (items : List Item) : String :=
  (items.filterMap fun
    | .package name => some name
    | _ => none).getLast?.getD ""

def importEntries (items : List Item) : List Import :=
  items.flatMap fun
    | .imports specs => specs.filterMap ImportSpec.binding?
    | _ => []

end Source

/-- The package that a single source file makes up, imported from `path`. -/
def Package.ofSource (location text path : String) : Except Failure Package :=
  match Source.parse text.toList with
  | .error line => .error (.load location (.syntaxError line))
  | .ok items =>
    let scope : Source.Scope := ⟨text.toList, path, Source.importEntries items, []⟩
    .ok ⟨Source.packageName items, path, items.flatMap scope.readItem⟩

end Interposer
