import Interposer.Hook
import Interposer.Text.Quoted
import Interposer.Text.SnakeCase

/-! The hook that reports calls to Sentry. Every call leaves a breadcrumb on the hub of its context
and, unless performance monitoring is off, runs in a span whose status tells whether it failed.
All methods must take a context first. -/

namespace Interposer.Sentry

structure Options where
  /-- Category of the breadcrumbs. -/
  category : String := "db.query"
  /-- Leave the arguments out of the breadcrumbs. -/
  noArgs : Bool := false
  /-- Leave the results out of the breadcrumbs. -/
  noResults : Bool := false
  /-- Of the results, put only the error in the breadcrumbs. -/
  onlyError : Bool := false
  /-- Have no spans. -/
  noPerf : Bool := false
  /-- Operation of the spans. -/
  spanOp : String := "db.query"
  deriving DecidableEq, Repr

def importPath : String := "github.com/getsentry/sentry-go"

def hookName : String := "sentry"

def noContext (m : Method) : Failure :=
  .precondition hookName m.name "methods must accept a context.Context as their first argument"

/-- The context that a method takes first, and its other parameters. -/
def contextAndRest (m : Method) : Except Failure (Parameter × List Parameter) :=
  match m.params with
  | [] => .error (noContext m)
  | context :: rest => if context.type.isContext then .ok (context, rest) else .error (noContext m)

/-- The alias under which the file imports the client library. -/
def clientName (table : ImportTable) : String := (table.aliasOf? importPath).getD hookName

def spanText (sentry context op description : String) : String :=
  "__sentry_span := " ++ sentry ++ ".StartSpan(" ++ context ++ ", " ++ Text.quote op ++ ")\n" ++
  "__sentry_span.Description = " ++ Text.quote description ++ "\n" ++
  context ++ " = __sentry_span.Context()\n" ++
  "\n" ++
  "defer __sentry_span.Finish()"

def spanFragment (options : Options) : Capability := fun m table => do
  let (context, _) ← contextAndRest m
  .ok (some (spanText (clientName table) context.name options.spanOp m.name))

def statusText (sentry status : String) : String :=
  "__sentry_span.Status = " ++ sentry ++ "." ++ status

def statusFragment (status : String) : Capability := fun m table => do
  let _ ← contextAndRest m
  .ok (some (statusText (clientName table) status))

/-- Keys for variables: their names in snake case, with underscores after those used before. -/
def dataKeys (used : List String) : List Parameter → List String
  | [] => []
  | p :: rest =>
    let key := freshAfter used (Text.snakeCase p.name)
    key :: dataKeys (key :: used) rest

/-- A map literal from the keys of variables to their values. -/
def dataMap (vars : List Parameter) : String :=
  let entries := List.zipWith (fun key (p : Parameter) => Text.quote key ++ ": " ++ p.name)
    (dataKeys [] vars) vars
  "map[string]any\x7b" ++ ", ".intercalate entries ++ "\x7d"

def errorMap (m : Method) : String :=
  match m.errorResult? with
  | some err => "map[string]any\x7b\"err\": " ++ err.name ++ "\x7d"
  | none => "map[string]any\x7b\x7d"

/-- The entries of a breadcrumb's data. -/
def dataEntries (options : Options) (m : Method) (args : List Parameter) : List String :=
  (if options.noArgs then [] else ["\"args\": " ++ dataMap args ++ ","]) ++
  (if options.noResults then []
    else ["\"results\": " ++ (if options.onlyError then errorMap m else dataMap m.results) ++ ","])

def dataLines (entries : List String) : List String :=
  if entries.isEmpty then ["\t\tData: map[string]any\x7b\x7d,"]
  else ["\t\tData: map[string]any\x7b"] ++ entries.map ("\t\t\t" ++ ·) ++ ["\t\t\x7d,"]

def breadcrumbFragment (options : Options) : Capability := fun m table => do
  let (context, args) ← contextAndRest m
  let sentry := clientName table
  .ok (some ("\n".intercalate (
    ["if __sentry_hub := " ++ sentry ++ ".GetHubFromContext(" ++ context.name ++
        "); __sentry_hub != nil \x7b",
      "\t__sentry_hub.AddBreadcrumb(&" ++ sentry ++ ".Breadcrumb\x7b",
      "\t\tCategory: " ++ Text.quote options.category ++ ",",
      "\t\tMessage: " ++ Text.quote m.name ++ ","] ++
    dataLines (dataEntries options m args) ++
    ["\t\x7d, nil)", "\x7d"])))

def hook (options : Options) : Hook where
  name := hookName
  imports := [importPath]
  capability?
    | .preCall => if options.noPerf then none else some (spanFragment options)
    | .postCall => some (breadcrumbFragment options)
    | .onSuccess => if options.noPerf then none else some (statusFragment "SpanStatusOK")
    | .onError => if options.noPerf then none else some (statusFragment "SpanStatusInternalError")

end Interposer.Sentry
