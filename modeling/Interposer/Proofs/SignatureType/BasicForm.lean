import Interposer.Proofs.SignatureType.Conversion

/-! The two descriptions of a predeclared type. It is described as a basic type or as a declared
type of no package; in the basic form of a type all predeclared types have the first description. A
type and its basic form are converted alike, and where they fail they fail alike
(`SignatureType.ofSource_basicForm`). -/

namespace Interposer

/-! ## Basic forms -/

mutual

/-- The type with every predeclared type in it described as a basic one. -/
def SourceType.basicForm : SourceType → SourceType
  | .named package name args =>
    if package = "" ∧ args.isEmpty then .basic name
    else .named package name (SourceType.basicForms args)
  | .pointer elem => .pointer elem.basicForm
  | .slice elem => .slice elem.basicForm
  | .array length elem => .array length elem.basicForm
  | .map key value => .map key.basicForm value.basicForm
  | .func params results variadic =>
    .func (Variable.basicForms params) (Variable.basicForms results) variadic
  | .interface members => .interface (Member.basicForms members)
  | .struct fields => .struct (Variable.basicForms fields)
  | .chan direction elem => .chan direction elem.basicForm
  | .basic name => .basic name
  | .typeParam name => .typeParam name
  | .other description => .other description

def SourceType.basicForms : List SourceType → List SourceType
  | [] => []
  | t :: types => t.basicForm :: SourceType.basicForms types

def Variable.basicForms : List Variable → List Variable
  | [] => []
  | .mk name type :: vars => .mk name type.basicForm :: Variable.basicForms vars

def Member.basicForms : List Member → List Member
  | [] => []
  | .method name params results variadic :: members =>
    .method name (Variable.basicForms params) (Variable.basicForms results) variadic ::
      Member.basicForms members
  | .embedded type :: members => .embedded type.basicForm :: Member.basicForms members

end

def Declaration.basicForm : Declaration → Declaration
  | .type name typeParams underlying => .type name typeParams underlying.basicForm
  | .typeAlias name target => .typeAlias name target.basicForm
  | .var name => .var name
  | .const name => .const name
  | .func name => .func name

def Unsupported.basicForm : Unsupported → Unsupported
  | .inSignature type => .inSignature type.basicForm
  | .embedding type => .embedding type.basicForm
  | what => what

def NotNamed.basicForm : NotNamed → NotNamed
  | .aliasOf target => .aliasOf target.basicForm
  | .declaration d => .declaration d.basicForm
  | .aliasCycle => .aliasCycle

/-- The failure with the types in it in basic form. Its kind is the same, and so is what is said but
for the kind of a predeclared type. -/
def Failure.basicForm : Failure → Failure
  | .notNamed name found => .notNamed name found.basicForm
  | .notInterface name found => .notInterface name found.basicForm
  | .unsupported what => .unsupported what.basicForm
  | failure => failure

theorem SourceType.isEmpty_basicForms (types : List SourceType) :
    (SourceType.basicForms types).isEmpty = types.isEmpty := by
  cases types <;> rfl

theorem Variable.isEmpty_basicForms (vars : List Variable) :
    (Variable.basicForms vars).isEmpty = vars.isEmpty := by
  match vars with
  | [] | .mk _ _ :: _ => rfl

theorem Variable.basicForms_append (vars vars' : List Variable) :
    Variable.basicForms (vars ++ vars') =
      Variable.basicForms vars ++ Variable.basicForms vars' := by
  induction vars with
  | nil => rfl
  | cons v vars ih =>
    cases v with
    | mk name type => rw [List.cons_append, basicForms, ih, basicForms, List.cons_append]

theorem Variable.map_name_basicForms (vars : List Variable) :
    (Variable.basicForms vars).map (·.name) = vars.map (·.name) := by
  induction vars with
  | nil => rfl
  | cons v vars ih =>
    cases v with
    | mk name type => rw [basicForms, List.map_cons, List.map_cons, ih]; rfl

/-! ## Failing in basic form -/

namespace Importing

variable {α β : Type}

/-- The computation with its failures in basic form. -/
def inBasicForm (m : Importing α) : Importing α := fun table =>
  match m table with
  | .ok a table' => .ok a table'
  | .error failure table' => .error failure.basicForm table'

theorem inBasicForm_eq_ok_iff {m : Importing α} {table table' : ImportTable} {a : α} :
    inBasicForm m table = .ok a table' ↔ m table = .ok a table' := by
  rw [inBasicForm]
  cases m table with
  | ok _ _ => rfl
  | error _ _ => exact iff_of_false nofun nofun

theorem inBasicForm_eq_error_iff {m : Importing α} {table table' : ImportTable}
    {failure : Failure} : inBasicForm m table = .error failure table' ↔
      ∃ failure', m table = .error failure' table' ∧ failure'.basicForm = failure := by
  rw [inBasicForm]
  cases m table with
  | ok _ _ => exact iff_of_false nofun nofun
  | error failure' table₁ =>
    simp only [EStateM.Result.error.injEq]
    constructor
    · rintro ⟨rfl, rfl⟩
      exact ⟨failure', ⟨rfl, rfl⟩, rfl⟩
    · rintro ⟨_, ⟨rfl, rfl⟩, rfl⟩
      exact ⟨rfl, rfl⟩

@[simp] theorem inBasicForm_pure (a : α) : inBasicForm (pure a) = pure a := rfl

@[simp] theorem inBasicForm_importing (path : String) :
    inBasicForm (importing path) = importing path := rfl

@[simp] theorem inBasicForm_throw (failure : Failure) :
    inBasicForm (throw failure : Importing α) = throw failure.basicForm := rfl

@[simp] theorem inBasicForm_bind (m : Importing α) (f : α → Importing β) :
    inBasicForm (m >>= f) = inBasicForm m >>= fun a => inBasicForm (f a) := by
  funext table
  change inBasicForm (EStateM.bind m f) table = EStateM.bind (inBasicForm m) _ table
  simp only [inBasicForm, EStateM.bind]
  cases m table <;> rfl

@[simp] theorem inBasicForm_map (f : α → β) (m : Importing α) :
    inBasicForm (f <$> m) = f <$> inBasicForm m := by
  rw [← bind_pure_comp, inBasicForm_bind, ← bind_pure_comp]
  rfl

end Importing

open Importing

namespace SignatureType

theorem importing_empty {α : Type} (f : String → Importing α) :
    (importing "" >>= f) = f "" := by
  funext table
  change EStateM.bind (importing "") f table = _
  rw [EStateM.bind, importing, ImportTable.add_empty]

mutual

theorem ofSource_basicForm : ∀ t : SourceType,
    ofSource t.basicForm = inBasicForm (ofSource t)
  | .named package name args => by
    rw [SourceType.basicForm]
    split
    · next hpredeclared =>
      obtain ⟨rfl, hargs⟩ := hpredeclared
      rw [ofSource, ofSource, if_pos hargs, importing_empty]
      rfl
    · rw [ofSource, ofSource, SourceType.isEmpty_basicForms]
      split <;> simp [Failure.basicForm, Unsupported.basicForm]
  | .pointer elem => by simp [SourceType.basicForm, ofSource, ofSource_basicForm elem]
  | .slice elem => by simp [SourceType.basicForm, ofSource, ofSource_basicForm elem]
  | .array length elem => by
    rw [SourceType.basicForm, ofSource, ofSource]
    split
    · simp [ofSource_basicForm elem]
    · rfl
  | .map key value => by
    simp [SourceType.basicForm, ofSource, ofSource_basicForm key, ofSource_basicForm value]
  | .func params results variadic => by
    simp [SourceType.basicForm, ofSource, ofVariables_basicForms params,
      ofVariables_basicForms results]
  | .interface _ | .struct _ | .chan _ _ | .basic _ | .typeParam _ | .other _ => rfl

theorem ofVariables_basicForms : ∀ vars : List Variable,
    ofVariables (Variable.basicForms vars) = inBasicForm (ofVariables vars)
  | [] => rfl
  | .mk _ type :: rest => by
    simp [Variable.basicForms, ofVariables, ofSource_basicForm type, ofVariables_basicForms rest]

end

end SignatureType

end Interposer
