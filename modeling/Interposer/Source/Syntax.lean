/-! Syntax of Go source files as far as declarations go: types, signatures and the names that
top-level declarations introduce. Expressions and statements only have to be there, so nothing of
them is kept. Where the exact text of a piece of syntax matters later, its place is kept. -/

namespace Interposer.Source

/-- A stretch of the source, by the offsets of its first character and of the one after its last. -/
structure Span where
  start : Nat
  stop : Nat
  deriving DecidableEq, Repr, Inhabited

mutual

inductive TypeSyntax where
  | name (text : String)
  | qualified (package name : String) (span : Span)
  | generic (base : TypeSyntax) (args : List ElemSyntax)
  | pointer (elem : TypeSyntax)
  | slice (elem : TypeSyntax)
  | array (length : Span) (elem : TypeSyntax) (span : Span)
  | map (key value : TypeSyntax)
  | func (params results : List ParamSyntax)
  | chan (elem : TypeSyntax) (span : Span)
  /-- A struct; its fields are not kept. -/
  | struct
  | interface (members : List MemberSyntax)
  | paren (inner : TypeSyntax)
  /-- `~T` -/
  | tilde (span : Span)

/-- A union of types, mostly of a single one: a constraint, an argument or an embedded type. -/
inductive ElemSyntax where
  | mk (terms : List TypeSyntax) (span : Span)

/-- Parameters that share a type. -/
inductive ParamSyntax where
  /-- Without any names, one parameter that has none. -/
  | group (names : List String) (type : TypeSyntax)
  /-- `name ...T`; the name may be empty. -/
  | variadic (name : String) (type : TypeSyntax)

inductive MemberSyntax where
  | method (name : String) (params results : List ParamSyntax)
  | elem (e : ElemSyntax)

end

instance : Inhabited TypeSyntax := ⟨.struct⟩

instance : Inhabited ElemSyntax := ⟨.mk [] default⟩

inductive TypeSpec where
  | definition (name : String) (typeParams : List String) (type : TypeSyntax)
  | synonym (name : String) (type : TypeSyntax)
  deriving Inhabited

structure ImportSpec where
  /-- The explicit name, which may be a dot or an underscore. -/
  name : Option String
  /-- The path as it is written, with its quotes. -/
  path : String
  deriving Inhabited

inductive Item where
  | package (name : String)
  | imports (specs : List ImportSpec)
  | types (specs : List TypeSpec)
  | vars (names : List String)
  | consts (names : List String)
  | func (name : String)
  /-- A method or a statement, which declare nothing at top level. -/
  | nothing
  deriving Inhabited

end Interposer.Source
