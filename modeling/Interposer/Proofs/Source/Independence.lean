import Interposer.Proofs.Package.Files
import Interposer.Proofs.SignatureType.Acceptance
import Interposer.Proofs.Source.Meaning

/-! Declarations are read independently of each other. A reader may go through a file and keep its
imports and the type parameters at hand in mind: it finds in each declaration what it finds there
when it has read no other one (`Reader.readItems_apply`). So declarations can change places, and
imports can stand anywhere between them (`SourceFile.independenceLaws`). -/

namespace Interposer

namespace Source

/-! ## Syntax that has moved -/

mutual

/-- A type whose text has moved. -/
def TypeSyntax.relocate (move : Span → Span) : TypeSyntax → TypeSyntax
  | .name text => .name text
  | .qualified package name span => .qualified package name (move span)
  | .generic base args => .generic (base.relocate move) (ElemSyntax.relocateAll move args)
  | .pointer elem => .pointer (elem.relocate move)
  | .slice elem => .slice (elem.relocate move)
  | .array length elem span => .array (move length) (elem.relocate move) (move span)
  | .map key value => .map (key.relocate move) (value.relocate move)
  | .func params results =>
    .func (ParamSyntax.relocateAll move params) (ParamSyntax.relocateAll move results)
  | .chan elem span => .chan (elem.relocate move) (move span)
  | .struct => .struct
  | .interface members => .interface (MemberSyntax.relocateAll move members)
  | .paren inner => .paren (inner.relocate move)
  | .tilde span => .tilde (move span)

def TypeSyntax.relocateAll (move : Span → Span) : List TypeSyntax → List TypeSyntax
  | [] => []
  | t :: rest => t.relocate move :: TypeSyntax.relocateAll move rest

def ElemSyntax.relocate (move : Span → Span) : ElemSyntax → ElemSyntax
  | .mk terms span => .mk (TypeSyntax.relocateAll move terms) (move span)

def ElemSyntax.relocateAll (move : Span → Span) : List ElemSyntax → List ElemSyntax
  | [] => []
  | e :: rest => e.relocate move :: ElemSyntax.relocateAll move rest

def ParamSyntax.relocateAll (move : Span → Span) : List ParamSyntax → List ParamSyntax
  | [] => []
  | .group names type :: rest =>
    .group names (type.relocate move) :: ParamSyntax.relocateAll move rest
  | .variadic name type :: rest =>
    .variadic name (type.relocate move) :: ParamSyntax.relocateAll move rest

def MemberSyntax.relocateAll (move : Span → Span) : List MemberSyntax → List MemberSyntax
  | [] => []
  | .method name params results :: rest =>
    .method name (ParamSyntax.relocateAll move params) (ParamSyntax.relocateAll move results) ::
      MemberSyntax.relocateAll move rest
  | .elem e :: rest => .elem (e.relocate move) :: MemberSyntax.relocateAll move rest

end

mutual

/-- The places of what is kept as it is written. -/
def TypeSyntax.spans : TypeSyntax → List Span
  | .name _ | .struct => []
  | .qualified _ _ span | .tilde span => [span]
  | .generic base args => base.spans ++ ElemSyntax.spansOfAll args
  | .pointer elem | .slice elem | .paren elem => elem.spans
  | .array length elem span => length :: span :: elem.spans
  | .map key value => key.spans ++ value.spans
  | .func params results => ParamSyntax.spansOfAll params ++ ParamSyntax.spansOfAll results
  | .chan elem span => span :: elem.spans
  | .interface members => MemberSyntax.spansOfAll members

def TypeSyntax.spansOfAll : List TypeSyntax → List Span
  | [] => []
  | t :: rest => t.spans ++ TypeSyntax.spansOfAll rest

def ElemSyntax.spans : ElemSyntax → List Span
  | .mk terms span => span :: TypeSyntax.spansOfAll terms

def ElemSyntax.spansOfAll : List ElemSyntax → List Span
  | [] => []
  | e :: rest => e.spans ++ ElemSyntax.spansOfAll rest

def ParamSyntax.spansOfAll : List ParamSyntax → List Span
  | [] => []
  | .group _ type :: rest | .variadic _ type :: rest => type.spans ++ ParamSyntax.spansOfAll rest

def MemberSyntax.spansOfAll : List MemberSyntax → List Span
  | [] => []
  | .method _ params results :: rest =>
    ParamSyntax.spansOfAll params ++ ParamSyntax.spansOfAll results ++
      MemberSyntax.spansOfAll rest
  | .elem e :: rest => e.spans ++ MemberSyntax.spansOfAll rest

end

def TypeSpec.relocate (move : Span → Span) : TypeSpec → TypeSpec
  | .definition name params type => .definition name params (type.relocate move)
  | .synonym name type => .synonym name (type.relocate move)

def Item.relocate (move : Span → Span) : Item → Item
  | .types specs => .types (specs.map (·.relocate move))
  | item => item

def Item.spans : Item → List Span
  | .types specs => specs.flatMap (·.type.spans)
  | _ => []

namespace Scope

/-- Two scopes in which names mean the same; their texts may be different. -/
structure Agrees (scope scope' : Scope) : Prop where
  path : scope'.path = scope.path
  typeParams : scope'.typeParams = scope.typeParams
  imports : ∀ name, scope'.importPath? name = scope.importPath? name

section Relocation

variable {scope scope' : Scope} {move : Span → Span}

theorem any_isVariadic_relocateAll (params : List ParamSyntax) :
    (ParamSyntax.relocateAll move params).any ParamSyntax.isVariadic =
      params.any ParamSyntax.isVariadic := by
  induction params with
  | nil => rfl
  | cons param params ih =>
    cases param <;> rw [ParamSyntax.relocateAll, List.any_cons, List.any_cons, ih] <;> rfl

theorem quotedText_relocate {span : Span} (h : scope'.slice (move span) = scope.slice span) :
    scope'.quotedText (move span) = scope.quotedText span := by
  rw [quotedText, quotedText, h]

mutual

/-- Of the text only what is kept as it is written makes a difference. -/
theorem readType_relocate (h : scope.Agrees scope') : ∀ {t : TypeSyntax},
    (∀ span ∈ t.spans, scope'.slice (move span) = scope.slice span) →
      scope'.readType (t.relocate move) = scope.readType t
  | .name text, _ => by
    rw [TypeSyntax.relocate, readType, readType, typeNamed, typeNamed, h.typeParams, h.path]
  | .qualified package name span, hspans => by
    rw [TypeSyntax.relocate, readType, readType, typeQualified, typeQualified, h.imports,
      quotedText_relocate (hspans _ List.mem_cons_self)]
  | .generic base args, hspans => by
    obtain ⟨hbase, hargs⟩ := List.forall_mem_append.mp hspans
    rw [TypeSyntax.relocate, readType, readType, readElems_relocate h hargs,
      readType_relocate h hbase]
  | .pointer elem, hspans => by
    rw [TypeSyntax.relocate, readType, readType, readType_relocate h (t := elem) hspans]
  | .slice elem, hspans => by
    rw [TypeSyntax.relocate, readType, readType, readType_relocate h (t := elem) hspans]
  | .array length elem span, hspans => by
    obtain ⟨hlength, hrest⟩ := List.forall_mem_cons.mp hspans
    obtain ⟨hspan, helem⟩ := List.forall_mem_cons.mp hrest
    rw [TypeSyntax.relocate, readType, readType, readType_relocate h helem, arrayType, arrayType,
      hlength, quotedText_relocate hspan]
  | .map key value, hspans => by
    obtain ⟨hkey, hvalue⟩ := List.forall_mem_append.mp hspans
    rw [TypeSyntax.relocate, readType, readType, readType_relocate h hkey,
      readType_relocate h hvalue]
  | .func params results, hspans => by
    obtain ⟨hparams, hresults⟩ := List.forall_mem_append.mp hspans
    rw [TypeSyntax.relocate, readType, readType, readParams_relocate h hparams,
      readParams_relocate h hresults, any_isVariadic_relocateAll]
  | .chan elem span, hspans => by
    obtain ⟨hspan, helem⟩ := List.forall_mem_cons.mp hspans
    rw [TypeSyntax.relocate, readType, readType, readType_relocate h helem, hspan]
  | .struct, _ => rfl
  | .interface members, hspans => by
    have hmembers : ∀ span ∈ MemberSyntax.spansOfAll members,
        scope'.slice (move span) = scope.slice span := hspans
    rw [TypeSyntax.relocate, readType, readType, readMembers_relocate h hmembers]
  | .paren inner, hspans => by
    rw [TypeSyntax.relocate, readType, readType, readType_relocate h (t := inner) hspans]
  | .tilde span, hspans => by
    rw [TypeSyntax.relocate, readType, readType,
      quotedText_relocate (hspans _ List.mem_cons_self)]

theorem readElem_relocate (h : scope.Agrees scope') : ∀ {e : ElemSyntax},
    (∀ span ∈ e.spans, scope'.slice (move span) = scope.slice span) →
      scope'.readElem (e.relocate move) = scope.readElem e
  | .mk [] span, hspans =>
    congrArg (fun text => SourceType.other ("constraint " ++ text))
      (quotedText_relocate (hspans _ List.mem_cons_self))
  | .mk (t :: _ :: _) span, hspans => by
    have hquoted := quotedText_relocate (hspans _ List.mem_cons_self)
    cases t <;> exact congrArg (fun text => SourceType.other ("constraint " ++ text)) hquoted
  | .mk [t] span, hspans => by
    obtain ⟨hspan, hterms⟩ := List.forall_mem_cons.mp hspans
    have ht := readType_relocate h (t := t) (List.forall_mem_append.mp hterms).1
    cases t with
    | tilde inner =>
      exact congrArg (fun text => SourceType.other ("constraint " ++ text))
        (quotedText_relocate hspan)
    | _ => exact ht

theorem readElems_relocate (h : scope.Agrees scope') : ∀ {es : List ElemSyntax},
    (∀ span ∈ ElemSyntax.spansOfAll es, scope'.slice (move span) = scope.slice span) →
      scope'.readElems (ElemSyntax.relocateAll move es) = scope.readElems es
  | [], _ => rfl
  | e :: rest, hspans => by
    obtain ⟨he, hrest⟩ := List.forall_mem_append.mp hspans
    rw [ElemSyntax.relocateAll, readElems, readElems, readElem_relocate h he,
      readElems_relocate h hrest]

theorem readParams_relocate (h : scope.Agrees scope') : ∀ {ps : List ParamSyntax},
    (∀ span ∈ ParamSyntax.spansOfAll ps, scope'.slice (move span) = scope.slice span) →
      scope'.readParams (ParamSyntax.relocateAll move ps) = scope.readParams ps
  | [], _ => rfl
  | .group [] type :: rest, hspans => by
    obtain ⟨htype, hrest⟩ := List.forall_mem_append.mp hspans
    rw [ParamSyntax.relocateAll, readParams, readParams, readType_relocate h htype,
      readParams_relocate h hrest]
  | .group (name :: names) type :: rest, hspans => by
    obtain ⟨htype, hrest⟩ := List.forall_mem_append.mp hspans
    rw [ParamSyntax.relocateAll, readParams, readParams, readType_relocate h htype,
      readParams_relocate h hrest] <;> exact nofun
  | .variadic name type :: rest, hspans => by
    obtain ⟨htype, hrest⟩ := List.forall_mem_append.mp hspans
    rw [ParamSyntax.relocateAll, readParams, readParams, readType_relocate h htype,
      readParams_relocate h hrest]

theorem readMembers_relocate (h : scope.Agrees scope') : ∀ {ms : List MemberSyntax},
    (∀ span ∈ MemberSyntax.spansOfAll ms, scope'.slice (move span) = scope.slice span) →
      scope'.readMembers (MemberSyntax.relocateAll move ms) = scope.readMembers ms
  | [], _ => rfl
  | .method name params results :: rest, hspans => by
    obtain ⟨hsignature, hrest⟩ := List.forall_mem_append.mp hspans
    obtain ⟨hparams, hresults⟩ := List.forall_mem_append.mp hsignature
    rw [MemberSyntax.relocateAll, readMembers, readMembers, readParams_relocate h hparams,
      readParams_relocate h hresults, any_isVariadic_relocateAll, readMembers_relocate h hrest]
  | .elem e :: rest, hspans => by
    obtain ⟨he, hrest⟩ := List.forall_mem_append.mp hspans
    rw [MemberSyntax.relocateAll, readMembers, readMembers, readElem_relocate h he,
      readMembers_relocate h hrest]

end

theorem readTypeSpec_relocate (h : scope.Agrees scope') {spec : TypeSpec}
    (hspans : ∀ span ∈ spec.type.spans, scope'.slice (move span) = scope.slice span) :
    scope'.readTypeSpec (spec.relocate move) = scope.readTypeSpec spec := by
  cases spec with
  | definition name params type =>
    have hwithin : ({ scope with typeParams := params } : Scope).Agrees
        { scope' with typeParams := params } := ⟨h.path, rfl, h.imports⟩
    exact congrArg (Declaration.type name params) (readType_relocate hwithin hspans)
  | synonym name type =>
    exact congrArg (Declaration.typeAlias name) (readType_relocate h hspans)

theorem readItem_relocate (h : scope.Agrees scope') {item : Item}
    (hspans : ∀ span ∈ item.spans, scope'.slice (move span) = scope.slice span) :
    scope'.readItem (item.relocate move) = scope.readItem item := by
  cases item with
  | types specs =>
    rw [Item.relocate, readItem, readItem, List.map_map]
    apply List.map_congr_left
    intro spec hspec
    exact readTypeSpec_relocate h fun span hspan =>
      hspans span (List.mem_flatMap_of_mem hspec hspan)
  | _ => rfl

end Relocation

end Scope

/-! ## Type parameters -/

namespace TypeSpec

def typeParams : TypeSpec → List String
  | .definition _ params _ => params
  | .synonym _ _ => []

end TypeSpec

end Source

namespace SourceType

variable {params : List String} {t : SourceType}

/-- All type parameters in the type are among `params`. -/
def ParamsIn (params : List String) (t : SourceType) : Prop :=
  ∀ name, (SourceType.typeParam name).OccursIn t → name ∈ params

theorem ParamsIn.of_parts (hself : ∀ name, t = .typeParam name → name ∈ params)
    (hparts : ∀ part ∈ t.parts, part.ParamsIn params) : t.ParamsIn params := by
  intro name hname
  rcases hname.cases with heq | ⟨part, hpart, hrest⟩
  · exact hself name heq.symm
  · exact hparts part hpart name hrest

end SourceType

/-- The type of the declaration refers to no type parameters but its own. -/
def Declaration.Closed : Declaration → Prop
  | .type _ params underlying => underlying.ParamsIn params
  | .typeAlias _ target => target.ParamsIn []
  | .var _ | .const _ | .func _ => True

namespace Source

open SourceType

namespace Scope

variable {scope : Scope} {params : List String}

theorem typeNamed_paramsIn (scope : Scope) (name : String) :
    (scope.typeNamed name).ParamsIn scope.typeParams := by
  rw [typeNamed]
  split
  · next hparam =>
    refine .of_parts ?_ nofun
    rintro _ ⟨⟩
    exact List.contains_iff_mem.mp hparam
  · split <;> exact .of_parts nofun nofun

theorem typeNamed_eq_typeParam_iff {name : String} :
    scope.typeNamed name = .typeParam name ↔ name ∈ scope.typeParams := by
  rw [typeNamed, ← List.contains_iff_mem]
  split
  · next hparam => exact iff_of_true rfl hparam
  · next hparam =>
    refine iff_of_false ?_ hparam
    split <;> exact nofun

theorem instantiate_paramsIn {args : List SourceType} {t : SourceType}
    (hargs : ∀ arg ∈ args, arg.ParamsIn params) (ht : t.ParamsIn params) :
    (instantiate args t).ParamsIn params := by
  cases t with
  | named package name old => exact .of_parts nofun hargs
  | _ => exact ht

theorem paramsIn_of_types {types types' : List SourceType}
    (h : ∀ t ∈ types, t.ParamsIn params) (h' : ∀ t ∈ types', t.ParamsIn params) :
    ∀ t ∈ types ++ types', t.ParamsIn params :=
  List.forall_mem_append.mpr ⟨h, h'⟩

mutual

/-- A type parameter in what is read is one of those in scope. -/
theorem readType_paramsIn (scope : Scope) :
    ∀ t : TypeSyntax, (scope.readType t).ParamsIn scope.typeParams
  | .name text => scope.typeNamed_paramsIn text
  | .qualified _ _ _ => by
    rw [readType, typeQualified]
    split <;> exact .of_parts nofun nofun
  | .generic base args =>
    instantiate_paramsIn (readElems_paramsIn scope args) (readType_paramsIn scope base)
  | .pointer elem | .slice elem | .chan elem _ =>
    .of_parts nofun (List.forall_mem_singleton.mpr (readType_paramsIn scope elem))
  | .array _ elem _ => by
    rw [readType, arrayType]
    split
    · exact .of_parts nofun (List.forall_mem_singleton.mpr (readType_paramsIn scope elem))
    · exact .of_parts nofun nofun
  | .map key value =>
    .of_parts nofun (List.forall_mem_cons.mpr ⟨readType_paramsIn scope key,
      List.forall_mem_singleton.mpr (readType_paramsIn scope value)⟩)
  | .func params results =>
    .of_parts nofun (paramsIn_of_types (readParams_paramsIn scope params)
      (readParams_paramsIn scope results))
  | .struct | .tilde _ => .of_parts nofun nofun
  | .interface members => .of_parts nofun (readMembers_paramsIn scope members)
  | .paren inner => readType_paramsIn scope inner

theorem readElem_paramsIn (scope : Scope) :
    ∀ e : ElemSyntax, (scope.readElem e).ParamsIn scope.typeParams
  | .mk [] _ => .of_parts nofun nofun
  | .mk (t :: _ :: _) _ => by cases t <;> exact .of_parts nofun nofun
  | .mk [t] _ => by
    have ht := readType_paramsIn scope t
    cases t with
    | tilde inner => exact .of_parts nofun nofun
    | _ => exact ht

theorem readElems_paramsIn (scope : Scope) :
    ∀ es : List ElemSyntax, ∀ t ∈ scope.readElems es, t.ParamsIn scope.typeParams
  | [] => nofun
  | e :: rest =>
    List.forall_mem_cons.mpr ⟨readElem_paramsIn scope e, readElems_paramsIn scope rest⟩

theorem readParams_paramsIn (scope : Scope) : ∀ ps : List ParamSyntax,
    ∀ t ∈ (scope.readParams ps).map (·.type), t.ParamsIn scope.typeParams
  | [] => nofun
  | .group [] type :: rest =>
    List.forall_mem_cons.mpr ⟨readType_paramsIn scope type, readParams_paramsIn scope rest⟩
  | .group (name :: names) type :: rest => by
    rw [readParams, List.map_append, List.map_map]
    · refine paramsIn_of_types ?_ (readParams_paramsIn scope rest)
      rintro _ ht
      obtain ⟨_, -, rfl⟩ := List.mem_map.mp ht
      exact readType_paramsIn scope type
    · exact nofun
  | .variadic _ type :: rest =>
    List.forall_mem_cons.mpr ⟨.of_parts nofun
      (List.forall_mem_singleton.mpr (readType_paramsIn scope type)),
      readParams_paramsIn scope rest⟩

theorem readMembers_paramsIn (scope : Scope) : ∀ ms : List MemberSyntax,
    ∀ t ∈ (scope.readMembers ms).flatMap Member.types, t.ParamsIn scope.typeParams
  | [] => nofun
  | .method _ params results :: rest =>
    paramsIn_of_types (paramsIn_of_types (readParams_paramsIn scope params)
      (readParams_paramsIn scope results)) (readMembers_paramsIn scope rest)
  | .elem e :: rest =>
    List.forall_mem_cons.mpr ⟨readElem_paramsIn scope e, readMembers_paramsIn scope rest⟩

end

/-- What is read outside of a declaration is closed. -/
theorem closed_of_readItem (h : scope.typeParams = []) {item : Item} {d : Declaration}
    (hd : d ∈ scope.readItem item) : d.Closed := by
  cases item with
  | types specs =>
    obtain ⟨spec, -, rfl⟩ := List.mem_map.mp hd
    cases spec with
    | definition name params type => exact readType_paramsIn _ type
    | synonym name type =>
      have htarget := readType_paramsIn scope type
      rw [h] at htarget
      exact htarget
  | vars names | consts names =>
    obtain ⟨_, -, rfl⟩ := List.mem_map.mp hd
    exact trivial
  | func name =>
    obtain rfl := List.mem_singleton.mp hd
    exact trivial
  | package name | imports specs | nothing => cases hd

end Scope

/-! ## Reading with a memory -/

/-- What a reader keeps in mind while it goes through a file. -/
structure Reader where
  imports : List Import
  /-- The type parameters of the declaration at hand. -/
  typeParams : List String

namespace Reader

variable (text : List Char) (path : String)

/-- What names mean to the reader. -/
def scope (reader : Reader) : Scope := ⟨text, path, reader.imports, reader.typeParams⟩

/-- Takes note of imports. -/
def collect (reader : Reader) : Item → Reader
  | .imports specs =>
    { reader with imports := reader.imports ++ specs.filterMap ImportSpec.binding? }
  | _ => reader

/-- Reads a type declaration. Its type parameters are forgotten at the end. -/
def readSpec : TypeSpec → StateM Reader Declaration
  | .definition name params type => do
    modify fun reader => { reader with typeParams := params }
    let underlying := ((← get).scope text path).readType type
    modify fun reader => { reader with typeParams := [] }
    return .type name params underlying
  | .synonym name type => return .typeAlias name (((← get).scope text path).readType type)

def readSpecs : List TypeSpec → StateM Reader (List Declaration)
  | [] => return []
  | spec :: specs => return (← readSpec text path spec) :: (← readSpecs specs)

def readItem : Item → StateM Reader (List Declaration)
  | .types specs => readSpecs text path specs
  | item => return ((← get).scope text path).readItem item

def readItems : List Item → StateM Reader (List Declaration)
  | [] => return []
  | item :: items => return (← readItem text path item) ++ (← readItems items)

/-- Reads a file: first the imports, wherever they stand, and then the declarations. -/
def readFile (items : List Item) : StateM Reader (List Declaration) := do
  modify fun reader => items.foldl collect reader
  readItems text path items

variable {text path} {reader : Reader}

theorem foldl_collect (items : List Item) (reader : Reader) : items.foldl collect reader =
    { reader with imports := reader.imports ++ importEntries items } := by
  induction items generalizing reader with
  | nil => simp [importEntries]
  | cons item items ih =>
    rw [List.foldl_cons, ih]
    cases item <;> simp [collect, importEntries]

/-- A reader that remembers no type parameters remembers none afterwards. -/
theorem readSpec_apply (h : reader.typeParams = []) (spec : TypeSpec) :
    readSpec text path spec reader = ((reader.scope text path).readTypeSpec spec, reader) := by
  obtain ⟨imports, typeParams⟩ := reader
  obtain rfl : typeParams = [] := h
  cases spec <;> rfl

theorem readSpecs_apply (h : reader.typeParams = []) (specs : List TypeSpec) :
    readSpecs text path specs reader =
      (specs.map (reader.scope text path).readTypeSpec, reader) := by
  induction specs with
  | nil => rfl
  | cons spec specs ih =>
    change (let (d, reader') := readSpec text path spec reader
      let (ds, reader'') := readSpecs text path specs reader'
      (d :: ds, reader'')) = _
    rw [readSpec_apply h]
    simp only [ih, List.map_cons]

theorem readItem_apply (h : reader.typeParams = []) (item : Item) :
    readItem text path item reader = ((reader.scope text path).readItem item, reader) := by
  cases item with
  | types specs => exact readSpecs_apply h specs
  | _ => rfl

/-- Each item is read as if there were no other ones. -/
theorem readItems_apply (h : reader.typeParams = []) (items : List Item) :
    readItems text path items reader =
      (items.flatMap (reader.scope text path).readItem, reader) := by
  induction items with
  | nil => rfl
  | cons item items ih =>
    change (let (ds, reader') := readItem text path item reader
      let (rest, reader'') := readItems text path items reader'
      (ds ++ rest, reader'')) = _
    rw [readItem_apply h]
    simp only [ih, List.flatMap_cons]

end Reader

end Source

open Source

/-! ## Files -/

/-- Whether an item declares something in the package. -/
def Source.Item.isDeclaration : Item → Bool
  | .types _ | .vars _ | .consts _ | .func _ => true
  | .package _ | .imports _ | .nothing => false

namespace SourceFile

variable {f f' : SourceFile} {path : String}

/-- The declarations of the file, as they stand there. -/
def declaring (f : SourceFile) : List Item := f.items.filter Item.isDeclaration

/-- A reader that knows the imports of the file. -/
def reader (f : SourceFile) : Reader := ⟨importEntries f.items, []⟩

/-- What is written at a place. -/
def written (f : SourceFile) (span : Span) : List Char := (f.scope "").slice span

/-- The item stands in the other file as well, at another place perhaps. -/
def Moved (f f' : SourceFile) (item item' : Item) : Prop :=
  ∃ move : Span → Span, item' = item.relocate move ∧
    ∀ span ∈ item.spans, f'.written (move span) = f.written span

theorem declarations_eq (f : SourceFile) (path : String) :
    f.declarations path = f.declaring.flatMap (f.scope path).readItem := by
  rw [declarations, declaring]
  induction f.items with
  | nil => rfl
  | cons item items ih =>
    rw [List.flatMap_cons, ih, List.filter_cons]
    cases item <;> rfl

theorem readItem_of_moved (himports : ∀ name,
      (f'.scope path).importPath? name = (f.scope path).importPath? name) {item item' : Item}
    (h : Moved f f' item item') : (f'.scope path).readItem item' =
      (f.scope path).readItem item := by
  obtain ⟨move, rfl, hspans⟩ := h
  have hagrees : (f.scope path).Agrees (f'.scope path) := ⟨rfl, rfl, himports⟩
  exact Scope.readItem_relocate hagrees hspans

theorem declarations_of_moved (himports : ∀ name,
      (f'.scope path).importPath? name = (f.scope path).importPath? name) {order : List Item}
    (h : List.Forall₂ (Moved f f') order f'.declaring) :
    f'.declarations path = order.flatMap (f.scope path).readItem := by
  rw [declarations_eq]
  generalize f'.declaring = items at h
  induction h with
  | nil => rfl
  | cons hitem _ ih =>
    rw [List.flatMap_cons, List.flatMap_cons, readItem_of_moved himports hitem, ih]

/-- That the declarations of a file are read independently of each other. -/
structure IndependenceLaws (f : SourceFile) (path : String) : Prop where
  /-- The declarations of a file that parses make up the package. -/
  loads : f.Parses → ∀ location, Package.ofSource location f.text path =
    .ok ⟨f.packageName, path, f.declarations path⟩
  /-- They are what a reader finds who goes through the file from the beginning to the end. In the
  end it remembers no type parameters. -/
  read : Reader.readFile f.text.toList path f.items ⟨[], []⟩ = (f.declarations path, f.reader)
  /-- In each declaration, alone, a reader finds its part, if it knows the imports. -/
  alone : f.declarations path =
    f.declaring.flatMap fun item => (Reader.readItem f.text.toList path item f.reader).1
  /-- The types in a group are read each alone, too. -/
  alone_in_group : ∀ specs, .types specs ∈ f.declaring →
    (Reader.readItem f.text.toList path (.types specs) f.reader).1 =
      specs.map fun spec => (Reader.readSpec f.text.toList path spec f.reader).1
  /-- A file with some of the declarations in another order has the same, in that order. Where the
  imports stand makes no difference, as long as names refer to the same packages. -/
  moved : ∀ (f' : SourceFile) (order : List Item), List.Forall₂ (Moved f f') order f'.declaring →
    (∀ name, (f'.scope path).importPath? name = (f.scope path).importPath? name) →
      f'.declarations path =
        order.flatMap fun item => (Reader.readItem f.text.toList path item f.reader).1
  permuted : ∀ (f' : SourceFile) (order : List Item), order.Perm f.declaring →
    List.Forall₂ (Moved f f') order f'.declaring →
    (∀ name, (f'.scope path).importPath? name = (f.scope path).importPath? name) →
      (f'.declarations path).Perm (f.declarations path)
  /-- A name stands for a type parameter just where the declaration itself has it as one. -/
  typeParam_iff : ∀ specs, .types specs ∈ f.declaring → ∀ spec ∈ specs, ∀ name,
    ((f.scope path).within spec).readType (.name name) = .typeParam name ↔
      name ∈ spec.typeParams
  /-- So no type refers to the type parameters of another declaration. -/
  closed : ∀ d ∈ f.declarations path, d.Closed

theorem independenceLaws (f : SourceFile) (path : String) : f.IndependenceLaws path := by
  have hread : ∀ item, (Reader.readItem f.text.toList path item f.reader).1 =
      (f.scope path).readItem item := fun item => by
    rw [Reader.readItem_apply rfl]
    rfl
  constructor
  case loads => exact fun h location => Package.ofSource_of_parses h location path
  case read =>
    change Reader.readItems _ _ _ (f.items.foldl Reader.collect ⟨[], []⟩) = _
    rw [Reader.foldl_collect, Reader.readItems_apply rfl]
    rfl
  case alone =>
    simp only [hread]
    exact f.declarations_eq path
  case alone_in_group =>
    intro specs _
    rw [hread]
    apply List.map_congr_left
    intro spec _
    rw [Reader.readSpec_apply rfl]
    rfl
  case moved =>
    intro f' order hmoved himports
    simp only [hread]
    exact declarations_of_moved himports hmoved
  case permuted =>
    intro f' order hperm hmoved himports
    rw [declarations_of_moved himports hmoved, f.declarations_eq path]
    exact hperm.flatMap_right _
  case typeParam_iff =>
    intro specs _ spec _ name
    rw [Scope.readType, Scope.typeNamed_eq_typeParam_iff]
    cases spec <;> rfl
  case closed =>
    intro d hd
    obtain ⟨item, -, hitem⟩ := List.mem_flatMap.mp hd
    exact Scope.closed_of_readItem rfl hitem

/-- A file with a generic type before others, one of which has the name of its type parameter. -/
def genericFirst : SourceFile where
  text := "package shop\n\nimport \"time\"\n\ntype Box[T any] [4]T\n\ntype T string\n\n" ++
    "type Index map[T][2]time.Time\n"
  items :=
    [.package "shop", .imports [⟨none, "\"time\""⟩],
      .types [.definition "Box" ["T"] (.array ⟨46, 47⟩ (.name "T") ⟨45, 49⟩)],
      .types [.definition "T" [] (.name "string")],
      .types [.definition "Index" []
        (.map (.name "T") (.array ⟨84, 85⟩ (.qualified "time" "Time" ⟨86, 95⟩) ⟨83, 95⟩))]]

/-- The file with its outer declarations exchanged and its import between two of them. -/
def genericLast : SourceFile where
  text := "package shop\n\ntype Index map[T][2]time.Time\n\nimport \"time\"\n\n" ++
    "type T string\n\ntype Box[T any] [4]T\n"
  items :=
    [.package "shop",
      .types [.definition "Index" []
        (.map (.name "T") (.array ⟨32, 33⟩ (.qualified "time" "Time" ⟨34, 43⟩) ⟨31, 43⟩))],
      .imports [⟨none, "\"time\""⟩],
      .types [.definition "T" [] (.name "string")],
      .types [.definition "Box" ["T"] (.array ⟨92, 93⟩ (.name "T") ⟨91, 95⟩)]]

/-- The declarations are exchanged, too, and `T` is a type parameter in `Box` alone. -/
theorem genericLast_declarations :
    List.Forall₂ (Moved genericFirst genericLast) genericFirst.declaring.reverse
      genericLast.declaring ∧
    (∀ name, (genericLast.scope "example.com/shop").importPath? name =
      (genericFirst.scope "example.com/shop").importPath? name) ∧
    genericLast.declarations "example.com/shop" =
      [.type "Index" [] (.map (.named "example.com/shop" "T" [])
          (.array 2 (.named "time" "Time" []))),
        .type "T" [] (.basic "string"),
        .type "Box" ["T"] (.array 4 (.typeParam "T"))] ∧
    (genericLast.declarations "example.com/shop").Perm
      (genericFirst.declarations "example.com/shop") := by
  have hlaws := independenceLaws genericFirst "example.com/shop"
  have hmoved : List.Forall₂ (Moved genericFirst genericLast) genericFirst.declaring.reverse
      genericLast.declaring :=
    .cons ⟨fun span => ⟨span.start - 52, span.stop - 52⟩, rfl, by decide +kernel⟩ <|
      .cons ⟨id, rfl, nofun⟩ <|
        .cons ⟨fun span => ⟨span.start + 46, span.stop + 46⟩, rfl, by decide +kernel⟩ .nil
  have hentries : importEntries genericLast.items = importEntries genericFirst.items := rfl
  have himports : ∀ name, (genericLast.scope "example.com/shop").importPath? name =
      (genericFirst.scope "example.com/shop").importPath? name := fun name => by
    rw [Scope.importPath?, Scope.importPath?, scope, scope, hentries]
  refine ⟨hmoved, himports, ?_, ?_⟩
  · exact (hlaws.moved genericLast _ hmoved himports).trans rfl
  · exact hlaws.permuted genericLast _ (List.reverse_perm _) hmoved himports

end SourceFile

end Interposer
