import Interposer.Method
import Interposer.ImportTable
import Interposer.Failure
import Interposer.Text.Shown

/-! Hooks: named sources of code for the methods of a wrapper. A hook may have something to say at
each of four points of a method; what it says is a fragment of code, nothing, or that it cannot
be used on that method. -/

namespace Interposer

/-- The points of a method at which hooks may add code. -/
inductive HookPoint where
  | preCall
  | postCall
  /-- After a call that returned no error, or that cannot return one. -/
  | onSuccess
  /-- After a call that returned an error. -/
  | onError
  deriving DecidableEq, Repr

namespace HookPoint

def all : List HookPoint := [preCall, postCall, onSuccess, onError]

def name : HookPoint → String
  | preCall => "pre-call"
  | postCall => "post-call"
  | onSuccess => "on-success"
  | onError => "on-error"

end HookPoint

/-- What a hook has for a method, given the aliases of the file. -/
abbrev Capability := Method → ImportTable → Except Failure (Option String)

structure Hook where
  name : String
  /-- The import paths that the fragments refer to. -/
  imports : List String
  capability? : HookPoint → Option Capability

namespace Hook

def supports (h : Hook) (point : HookPoint) : Bool := (h.capability? point).isSome

def supported (h : Hook) : List HookPoint := HookPoint.all.filter h.supports

/-- The hook's fragment at a point; none where it has no capability. -/
def fragment (h : Hook) (point : HookPoint) (m : Method) (table : ImportTable) :
    Except Failure (Option String) :=
  match h.capability? point with
  | none => .ok none
  | some capability => capability m table

def shownList (items : List String) : String :=
  "[" ++ ", ".intercalate (items.map Text.shown) ++ "]"

/-- A hook in one line: its name, its imports and the points where it has something to say. -/
def summary (h : Hook) : String :=
  "Hook \x7b name: " ++ Text.shown h.name ++ ", imports: " ++ shownList h.imports ++
    ", capabilities: " ++ shownList (h.supported.map (·.name)) ++ " \x7d"

end Hook

end Interposer
