import Interposer.SourceType

/-! A package: its name, its import path and what it declares at top level, in source order. -/

namespace Interposer

inductive Declaration where
  /-- `type Name[P any] T` -/
  | type (name : String) (typeParams : List String) (underlying : SourceType)
  /-- `type Name = T` -/
  | typeAlias (name : String) (target : SourceType)
  | var (name : String)
  | const (name : String)
  | func (name : String)
  deriving Inhabited

namespace Declaration

def name : Declaration → String
  | type name .. | typeAlias name _ | var name | const name | func name => name

/-- The kind of a declaration, for messages. -/
def describe : Declaration → String
  | type .. => "a type"
  | typeAlias .. => "a type alias"
  | var .. => "a variable"
  | const .. => "a constant"
  | func .. => "a function"

end Declaration

structure Package where
  name : String
  path : String
  declarations : List Declaration
  deriving Inhabited

namespace Package

/-- The first declaration of that name. -/
def lookup? (p : Package) (name : String) : Option Declaration :=
  p.declarations.find? (·.name == name)

end Package

end Interposer
