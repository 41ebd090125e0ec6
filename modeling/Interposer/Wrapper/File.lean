import Interposer.Method
import Interposer.ImportTable

/-! Syntax of a generated file: as much of Go as a wrapper needs. The fragments of hooks are carried
along as text. -/

namespace Interposer.Wrapper

inductive Statement where
  /-- Verbatim code, of one line or several. -/
  | raw (code : String)
  /-- An empty line between groups of statements. -/
  | blank
  | ifThen (condition : String) (body : List Statement)
  | ifElse (condition : String) (body alternative : List Statement)
  | returns (values : List String)

instance : Inhabited Statement := ⟨.blank⟩

structure Function where
  doc : Option String
  receiver : Option Parameter
  name : String
  params : List Parameter
  /-- A single result may be without a name. -/
  results : List Parameter
  variadic : Bool
  body : List Statement

inductive TopLevel where
  | struct (doc : Option String) (name : String) (fields : List Parameter)
  | var (name : String) (type : Option SignatureType) (value : String)
  | func (f : Function)

structure File where
  /-- The comment on top. -/
  header : String
  package : String
  /-- Imports in the order in which they are written. -/
  imports : List Import
  declarations : List TopLevel

end Interposer.Wrapper
