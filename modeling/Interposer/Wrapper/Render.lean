import Interposer.Wrapper.File
import Interposer.Text.Lines
import Interposer.Text.Quoted
import Interposer.Text.Blank

/-! The text of a generated file, indented with tabs. Every block is put one level deeper than the
statement that holds it, as a text, so verbatim code is indented along with the rest. -/

namespace Interposer.Wrapper

def renderImport (i : Import) : String := i.name ++ " " ++ Text.quote i.path

/-- A field, parameter or result; without a name it is just its type. -/
def renderField (p : Parameter) : String :=
  if p.name.isEmpty then p.type.render else p.name ++ " " ++ p.type.render

/-- Statements one level deeper, every line ended. -/
def blockText (statements : List String) : String :=
  if statements.isEmpty then "" else Text.indent 1 ("\n".intercalate statements) ++ "\n"

def returnText (values : List String) : String :=
  if values.isEmpty then "return" else "return " ++ ", ".intercalate values

mutual

def Statement.render : Statement → String
  | .raw code => code
  | .blank => ""
  | .ifThen condition body =>
    "if " ++ condition ++ " \x7b\n" ++ blockText (renderAll body) ++ "\x7d"
  | .ifElse condition body alternative =>
    "if " ++ condition ++ " \x7b\n" ++ blockText (renderAll body) ++ "\x7d else \x7b\n" ++
      blockText (renderAll alternative) ++ "\x7d"
  | .returns values => returnText values

def renderAll : List Statement → List String
  | [] => []
  | s :: rest => s.render :: renderAll rest

end

/-- A comment line for every line of the text. -/
def renderDoc : Option String → String
  | none => ""
  | some doc => String.join ((Text.lines doc).map fun line => "// " ++ line ++ "\n")

/-- Parameters, the last one as `name ...T` in a variadic function. -/
def renderParams (variadic : Bool) : List Parameter → List String
  | [] => []
  | [p] => [if variadic then p.name ++ " " ++ p.type.renderVariadic else renderField p]
  | p :: rest => renderField p :: renderParams variadic rest

def renderResults : List Parameter → String
  | [] => ""
  | [single] =>
    if single.name.isEmpty then " " ++ single.type.render else " (" ++ renderField single ++ ")"
  | many => " (" ++ ", ".intercalate (many.map renderField) ++ ")"

def Function.render (f : Function) : String :=
  renderDoc f.doc ++ "func " ++
    (match f.receiver with
      | none => ""
      | some receiver => "(" ++ renderField receiver ++ ") ") ++
    f.name ++ "(" ++ ", ".intercalate (renderParams f.variadic f.params) ++ ")" ++
    renderResults f.results ++ " \x7b\n" ++ blockText (renderAll f.body) ++ "\x7d"

def TopLevel.render : TopLevel → String
  | .struct doc name fields =>
    renderDoc doc ++ "type " ++ name ++ " struct \x7b\n" ++
      String.join (fields.map fun field => "\t" ++ renderField field ++ "\n") ++ "\x7d"
  | .var name (some type) value => "var " ++ name ++ " " ++ type.render ++ " = " ++ value
  | .var name none value => "var " ++ name ++ " = " ++ value
  | .func f => f.render

/-- The import block, if there is anything to import. -/
def renderImports (imports : List Import) : List String :=
  if imports.isEmpty then []
  else ["import (\n" ++ String.join (imports.map fun i => "\t" ++ renderImport i ++ "\n") ++ ")"]

def renderHeader (header : String) : String :=
  String.ofList (Text.trimEndBy Text.isBlank (renderDoc (some header)).toList)

def File.render (file : File) : String :=
  "\n\n".intercalate
    ([renderHeader file.header, "package " ++ file.package] ++ renderImports file.imports ++
      file.declarations.map TopLevel.render) ++ "\n"

end Interposer.Wrapper
