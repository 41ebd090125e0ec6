import Interposer.Package.OfSource

/-! What the names in types mean. A type is read reference by reference: a name, with a qualifier or
without, is replaced by the type that it means, and all else follows the syntax. So the declarations
of a file are those that any way to understand names gives which agrees with the reader about the
references in them (`Scope.readItem_eq`). -/

namespace Interposer.Source

/-- A name in a type, as it is written. -/
inductive Reference where
  | plain (name : String)
  | qualified (qualifier name : String) (span : Span)

/-! ## References -/

mutual

/-- The references of a type, as far as they are read. -/
def TypeSyntax.references : TypeSyntax → List Reference
  | .name text => [.plain text]
  | .qualified package name span => [.qualified package name span]
  | .generic base args => base.references ++ ElemSyntax.referencesOfAll args
  | .pointer elem | .slice elem | .array _ elem _ | .chan elem _ => elem.references
  | .map key value => key.references ++ value.references
  | .func params results =>
    ParamSyntax.referencesOfAll params ++ ParamSyntax.referencesOfAll results
  | .interface members => MemberSyntax.referencesOfAll members
  | .paren inner => inner.references
  | .struct | .tilde _ => []

/-- Of a union nothing is read. -/
def ElemSyntax.references : ElemSyntax → List Reference
  | .mk [t] _ => t.references
  | .mk _ _ => []

def ElemSyntax.referencesOfAll : List ElemSyntax → List Reference
  | [] => []
  | e :: rest => e.references ++ ElemSyntax.referencesOfAll rest

def ParamSyntax.referencesOfAll : List ParamSyntax → List Reference
  | [] => []
  | .group _ type :: rest | .variadic _ type :: rest =>
    type.references ++ ParamSyntax.referencesOfAll rest

def MemberSyntax.referencesOfAll : List MemberSyntax → List Reference
  | [] => []
  | .method _ params results :: rest =>
    ParamSyntax.referencesOfAll params ++ ParamSyntax.referencesOfAll results ++
      MemberSyntax.referencesOfAll rest
  | .elem e :: rest => e.references ++ MemberSyntax.referencesOfAll rest

end

namespace TypeSpec

def type : TypeSpec → TypeSyntax
  | .definition _ _ type => type
  | .synonym _ type => type

def name : TypeSpec → String
  | .definition name _ _ => name
  | .synonym name _ => name

end TypeSpec

namespace Scope

/-- The scope of the type that a declaration gives a name. -/
def within (scope : Scope) : TypeSpec → Scope
  | .definition _ params _ => { scope with typeParams := params }
  | .synonym _ _ => scope

/-! ## Reading by meanings -/

mutual

/-- Reads a type with the references in it as they are meant. -/
def readTypeBy (scope : Scope) (meaning : Reference → SourceType) : TypeSyntax → SourceType
  | .name text => meaning (.plain text)
  | .qualified package name span => meaning (.qualified package name span)
  | .generic base args =>
    Scope.instantiate (scope.readElemsBy meaning args) (scope.readTypeBy meaning base)
  | .pointer elem => .pointer (scope.readTypeBy meaning elem)
  | .slice elem => .slice (scope.readTypeBy meaning elem)
  | .array length elem span => scope.arrayType length (scope.readTypeBy meaning elem) span
  | .map key value => .map (scope.readTypeBy meaning key) (scope.readTypeBy meaning value)
  | .func params results =>
    .func (scope.readParamsBy meaning params) (scope.readParamsBy meaning results)
      (params.any ParamSyntax.isVariadic)
  | .chan elem span =>
    .chan (directionOfText (scope.slice span)) (scope.readTypeBy meaning elem)
  | .struct => .struct []
  | .interface members => .interface (scope.readMembersBy meaning members)
  | .paren inner => scope.readTypeBy meaning inner
  | .tilde span => .other (scope.quotedText span)

def readElemBy (scope : Scope) (meaning : Reference → SourceType) : ElemSyntax → SourceType
  | .mk [.tilde _] span => .other ("constraint " ++ scope.quotedText span)
  | .mk [t] _ => scope.readTypeBy meaning t
  | .mk _ span => .other ("constraint " ++ scope.quotedText span)

def readElemsBy (scope : Scope) (meaning : Reference → SourceType) :
    List ElemSyntax → List SourceType
  | [] => []
  | e :: rest => scope.readElemBy meaning e :: scope.readElemsBy meaning rest

def readParamsBy (scope : Scope) (meaning : Reference → SourceType) :
    List ParamSyntax → List Variable
  | [] => []
  | .group [] type :: rest =>
    .mk "" (scope.readTypeBy meaning type) :: scope.readParamsBy meaning rest
  | .group names type :: rest =>
    names.map (fun name => .mk name (scope.readTypeBy meaning type)) ++
      scope.readParamsBy meaning rest
  | .variadic name type :: rest =>
    .mk name (.slice (scope.readTypeBy meaning type)) :: scope.readParamsBy meaning rest

def readMembersBy (scope : Scope) (meaning : Reference → SourceType) :
    List MemberSyntax → List Member
  | [] => []
  | .method name params results :: rest =>
    .method name (scope.readParamsBy meaning params) (scope.readParamsBy meaning results)
      (params.any ParamSyntax.isVariadic) :: scope.readMembersBy meaning rest
  | .elem e :: rest =>
    .embedded (scope.readElemBy meaning e) :: scope.readMembersBy meaning rest

end

/-- What a reference means in each scope. -/
abbrev Meaning := Scope → Reference → SourceType

def readTypeSpecBy (meaning : Meaning) (scope : Scope) (spec : TypeSpec) : Declaration :=
  let type := (scope.within spec).readTypeBy (meaning (scope.within spec)) spec.type
  match spec with
  | .definition name params _ => .type name params type
  | .synonym name _ => .typeAlias name type

def readItemBy (meaning : Meaning) (scope : Scope) : Item → List Declaration
  | .types specs => specs.map (scope.readTypeSpecBy meaning)
  | item => scope.readItem item

/-- What the reader takes a reference to mean. -/
def meaning : Meaning
  | scope, .plain name => scope.typeNamed name
  | scope, .qualified qualifier name span => scope.typeQualified qualifier name span

/-! ## What the reader does -/

section Agreement

variable {scope : Scope} {m : Reference → SourceType}

mutual

theorem readType_eq : ∀ {t : TypeSyntax}, (∀ r ∈ t.references, scope.meaning r = m r) →
    scope.readType t = scope.readTypeBy m t
  | .name _, h | .qualified _ _ _, h => h _ List.mem_cons_self
  | .struct, _ | .tilde _, _ => rfl
  | .generic base args, h => by
    obtain ⟨hbase, hargs⟩ := List.forall_mem_append.mp h
    rw [readType, readElems_eq hargs, readType_eq hbase, readTypeBy]
  | .pointer elem, h => by rw [readType, readType_eq (t := elem) h, readTypeBy]
  | .slice elem, h => by rw [readType, readType_eq (t := elem) h, readTypeBy]
  | .array length elem span, h => by rw [readType, readType_eq (t := elem) h, readTypeBy]
  | .map key value, h => by
    obtain ⟨hkey, hvalue⟩ := List.forall_mem_append.mp h
    rw [readType, readType_eq hkey, readType_eq hvalue, readTypeBy]
  | .func params results, h => by
    obtain ⟨hparams, hresults⟩ := List.forall_mem_append.mp h
    rw [readType, readParams_eq hparams, readParams_eq hresults, readTypeBy]
  | .chan elem span, h => by rw [readType, readType_eq (t := elem) h, readTypeBy]
  | .interface members, h => by
    have hmembers : ∀ r ∈ MemberSyntax.referencesOfAll members, scope.meaning r = m r := h
    rw [readType, readMembers_eq hmembers, readTypeBy]
  | .paren inner, h => by rw [readType, readType_eq (t := inner) h, readTypeBy]

theorem readElem_eq : ∀ {e : ElemSyntax}, (∀ r ∈ e.references, scope.meaning r = m r) →
    scope.readElem e = scope.readElemBy m e
  | .mk [] _, _ => rfl
  | .mk (t :: _ :: _) _, _ => by cases t <;> rfl
  | .mk [t] span, h => by
    have ht := readType_eq (t := t) h
    cases t with
    | tilde inner => rfl
    | _ => exact ht

theorem readElems_eq : ∀ {es : List ElemSyntax},
    (∀ r ∈ ElemSyntax.referencesOfAll es, scope.meaning r = m r) →
      scope.readElems es = scope.readElemsBy m es
  | [], _ => rfl
  | e :: rest, h => by
    obtain ⟨he, hrest⟩ := List.forall_mem_append.mp h
    rw [readElems, readElem_eq he, readElems_eq hrest, readElemsBy]

theorem readParams_eq : ∀ {ps : List ParamSyntax},
    (∀ r ∈ ParamSyntax.referencesOfAll ps, scope.meaning r = m r) →
      scope.readParams ps = scope.readParamsBy m ps
  | [], _ => rfl
  | .group [] type :: rest, h => by
    obtain ⟨htype, hrest⟩ := List.forall_mem_append.mp h
    rw [readParams, readType_eq htype, readParams_eq hrest, readParamsBy]
  | .group (name :: names) type :: rest, h => by
    obtain ⟨htype, hrest⟩ := List.forall_mem_append.mp h
    rw [readParams, readType_eq htype, readParams_eq hrest, readParamsBy] <;> exact nofun
  | .variadic name type :: rest, h => by
    obtain ⟨htype, hrest⟩ := List.forall_mem_append.mp h
    rw [readParams, readType_eq htype, readParams_eq hrest, readParamsBy]

theorem readMembers_eq : ∀ {ms : List MemberSyntax},
    (∀ r ∈ MemberSyntax.referencesOfAll ms, scope.meaning r = m r) →
      scope.readMembers ms = scope.readMembersBy m ms
  | [], _ => rfl
  | .method name params results :: rest, h => by
    obtain ⟨hsignature, hrest⟩ := List.forall_mem_append.mp h
    obtain ⟨hparams, hresults⟩ := List.forall_mem_append.mp hsignature
    rw [readMembers, readParams_eq hparams, readParams_eq hresults, readMembers_eq hrest,
      readMembersBy]
  | .elem e :: rest, h => by
    obtain ⟨he, hrest⟩ := List.forall_mem_append.mp h
    rw [readMembers, readElem_eq he, readMembers_eq hrest, readMembersBy]

end

end Agreement

variable {scope : Scope} {m : Meaning}

theorem readTypeSpec_eq {spec : TypeSpec}
    (h : ∀ r ∈ spec.type.references, meaning (scope.within spec) r = m (scope.within spec) r) :
    scope.readTypeSpec spec = scope.readTypeSpecBy m spec := by
  cases spec with
  | definition name params type => exact congrArg (Declaration.type name params) (readType_eq h)
  | synonym name type => exact congrArg (Declaration.typeAlias name) (readType_eq h)

theorem readItem_eq {item : Item} (h : ∀ specs, item = .types specs → ∀ spec ∈ specs,
    ∀ r ∈ spec.type.references, meaning (scope.within spec) r = m (scope.within spec) r) :
    scope.readItem item = scope.readItemBy m item := by
  cases item with
  | types specs =>
    apply List.map_congr_left
    intro spec hspec
    exact readTypeSpec_eq (h specs rfl spec hspec)
  | _ => rfl

end Scope

end Interposer.Source
