import Interposer.Json.Parser
import Interposer.Failure

/-! Packages described in JSON. A record is an object with its fields in any order or an array of
its fields in order; the fields that have a default may be left out, in an array only at the end.
A record of several kinds has its kind in the field `kind` or in front of the array. Fields that
are not known are passed over, but none of the known ones may be repeated. -/

namespace Interposer

namespace Json

/-- The value of a key that stands at most once; the answer is `none` if it is repeated. -/
def uniqueMember (members : List (String × Json)) (key : String) : Option (Option Json) :=
  match members.filter (·.1 == key) with
  | [] => some none
  | [(_, value)] => some (some value)
  | _ => none

/-- The fields of a record, in the order of their names; `none` stands for one left out. -/
def record (names : List String) : Json → Option (List (Option Json))
  | object members => names.mapM (uniqueMember members)
  | array items =>
    if items.length ≤ names.length then
      some (items.map some ++ List.replicate (names.length - items.length) none)
    else none
  | _ => none

/-- The kind of a record and the record without it. -/
def splitKind : Json → Option (Json × Json)
  | object members => do
    let kind ← (← uniqueMember members "kind")
    some (kind, object (members.filter (·.1 != "kind")))
  | array (kind :: items) => some (kind, array items)
  | _ => none

def asString? : Json → Option String
  | string s => some s
  | _ => none

def asBool? : Json → Option Bool
  | bool b => some b
  | _ => none

def asList? (item? : Json → Option α) : Json → Option (List α)
  | array items => items.mapM item?
  | _ => none

/-- A field that must be there. -/
def required (read? : Json → Option α) (field : Option Json) : Option α := field.bind read?

/-- A field that may be left out. -/
def defaulting (default : α) (read? : Json → Option α) : Option Json → Option α
  | none => some default
  | some j => read? j

end Json

namespace Description

open Json

/-- The kinds of types, by name or by number. -/
def typeKinds : List String :=
  ["basic", "named", "pointer", "slice", "array", "map", "signature", "interface", "struct", "chan",
    "type_param", "other"]

def readTypeKind : Json → Option String
  | .string s => if typeKinds.contains s then some s else none
  | .natural n => typeKinds[n]?
  | _ => none

def direction? : String → Option Direction
  | "both" => some .both
  | "send" => some .send
  | "recv" => some .receive
  | _ => none

/-- A direction by its name alone, or as the only key of an object with nothing in it. -/
def readDirection? : Json → Option Direction
  | .string s => direction? s
  | .object [(s, .null)] | .object [(s, .object [])] => direction? s
  | _ => none

def readLength? : Json → Option Nat
  | .natural n => if n < lengthBound then some n else none
  | _ => none

section

variable (readType : Json → Option SourceType)

def readVariable (j : Json) : Option Variable :=
  match j.record ["name", "type"] with
  | some [name, type] => do
    let name ← defaulting "" asString? name
    let type ← required readType type
    some (.mk name type)
  | _ => none

def readVariables : Json → Option (List Variable) := asList? (readVariable readType)

/-- A signature's parameters, results and whether it is variadic. -/
def readSignature (j : Json) : Option (List Variable × List Variable × Bool) :=
  match j.record ["params", "results", "variadic"] with
  | some [params, results, variadic] => do
    let params ← defaulting [] (readVariables readType) params
    let results ← defaulting [] (readVariables readType) results
    let variadic ← defaulting false asBool? variadic
    some (params, results, variadic)
  | _ => none

/-- A method: a signature with a name among its fields. It cannot be an array. -/
def readMethod : Json → Option Member
  | .object members => do
    let name ← required asString? (← uniqueMember members "name")
    let (params, results, variadic) ← readSignature readType (.object members)
    some (.method name params results variadic)
  | _ => none

def readEmbedded : Json → Option Member
  | .object members => do
    let type ← required readType (← uniqueMember members "embed")
    some (.embedded type)
  | _ => none

/-- A method wherever it can be read as one, and else an embedded type. -/
def readMember (j : Json) : Option Member := readMethod readType j <|> readEmbedded readType j

/-- The type of a kind, from its other fields. -/
def readTypeOfKind (kind : String) (fields : Json) : Option SourceType :=
  match kind with
  | "basic" =>
    match fields.record ["name"] with
    | some [name] => do
      let name ← required asString? name
      some (.basic name)
    | _ => none
  | "named" =>
    match fields.record ["package", "name", "type_args"] with
    | some [package, name, args] => do
      let package ← defaulting "" asString? package
      let name ← required asString? name
      let args ← defaulting [] (asList? readType) args
      some (.named package name args)
    | _ => none
  | "pointer" =>
    match fields.record ["elem"] with
    | some [elem] => do
      let elem ← required readType elem
      some (.pointer elem)
    | _ => none
  | "slice" =>
    match fields.record ["elem"] with
    | some [elem] => do
      let elem ← required readType elem
      some (.slice elem)
    | _ => none
  | "array" =>
    match fields.record ["len", "elem"] with
    | some [length, elem] => do
      let length ← required readLength? length
      let elem ← required readType elem
      some (.array length elem)
    | _ => none
  | "map" =>
    match fields.record ["key", "value"] with
    | some [key, value] => do
      let key ← required readType key
      let value ← required readType value
      some (.map key value)
    | _ => none
  | "signature" => do
    let (params, results, variadic) ← readSignature readType fields
    some (.func params results variadic)
  | "interface" =>
    match fields.record ["methods"] with
    | some [members] => do
      let members ← defaulting [] (asList? (readMember readType)) members
      some (.interface members)
    | _ => none
  | "struct" =>
    match fields.record ["fields"] with
    | some [vars] => do
      let vars ← defaulting [] (readVariables readType) vars
      some (.struct vars)
    | _ => none
  | "chan" =>
    match fields.record ["dir", "elem"] with
    | some [direction, elem] => do
      let direction ← defaulting .both readDirection? direction
      let elem ← required readType elem
      some (.chan direction elem)
    | _ => none
  | "type_param" =>
    match fields.record ["name"] with
    | some [name] => do
      let name ← required asString? name
      some (.typeParam name)
    | _ => none
  | "other" =>
    match fields.record ["description"] with
    | some [description] => do
      let description ← required asString? description
      some (.other description)
    | _ => none
  | _ => none

end

/-- A type, whose description is nested at most `depth` deep. -/
def readType : (depth : Nat) → Json → Option SourceType
  | 0, _ => none
  | depth + 1, j => do
    let (kind, fields) ← j.splitKind
    let kind ← readTypeKind kind
    readTypeOfKind (readType depth) kind fields

def readDeclarationOfKind (kind : String) (fields : Json) : Option Declaration :=
  match kind with
  | "type" =>
    match fields.record ["name", "type_params", "type"] with
    | some [name, typeParams, underlying] => do
      let name ← required asString? name
      let typeParams ← defaulting [] (asList? asString?) typeParams
      let underlying ← required (readType fields.depth) underlying
      some (.type name typeParams underlying)
    | _ => none
  | "alias" =>
    match fields.record ["name", "type"] with
    | some [name, target] => do
      let name ← required asString? name
      let target ← required (readType fields.depth) target
      some (.typeAlias name target)
    | _ => none
  | "var" | "const" | "func" =>
    match fields.record ["name"] with
    | some [name] => do
      let name ← required asString? name
      some (if kind = "var" then .var name else if kind = "const" then .const name else .func name)
    | _ => none
  | _ => none

/-- The nesting that the whole description may have. -/
def maxNesting : Nat := 127

/-- A declaration. It is two levels inside the description, and all of it must be readable. -/
def readDeclaration (j : Json) : Option Declaration :=
  if j.isReadable && j.depth + 2 ≤ maxNesting then do
    let (kind, fields) ← j.splitKind
    readDeclarationOfKind (← kind.asString?) fields
  else none

def readPackage (j : Json) : Option Package :=
  match j.record ["name", "path", "objects"] with
  | some [name, path, declarations] => do
    let name ← required asString? name
    let path ← required asString? path
    let declarations ← defaulting [] (asList? readDeclaration) declarations
    some ⟨name, path, declarations⟩
  | _ => none

end Description

/-- The package that a text describes. -/
def Package.ofDescription (location text : String) : Except Failure Package :=
  match (Json.parse? text).bind Description.readPackage with
  | some p => .ok p
  | none => .error (.load location .invalidDescription)

end Interposer
