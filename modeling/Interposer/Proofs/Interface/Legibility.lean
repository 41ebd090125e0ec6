import Interposer.Proofs.Generator
import Interposer.Proofs.Source.Names
import Interposer.Proofs.Wrapper.Rendering

/-! Interfaces and hooks whose names and code can be read back. Introspection makes names up and
changes them, but only to what is a name again, so that it ends with legible methods if it begins
with legible names. -/

namespace Interposer

open Source

/-! ## Types -/

namespace SourceType

mutual

/-- The names of the types in a signature. -/
def typeNames : SourceType → List String
  | .basic name | .named _ name _ => [name]
  | .pointer elem | .slice elem | .array _ elem => elem.typeNames
  | .map key value => key.typeNames ++ value.typeNames
  | .func params results _ => typeNamesOfAll params ++ typeNamesOfAll results
  | _ => []

def typeNamesOfAll : List Variable → List String
  | [] => []
  | .mk _ type :: rest => type.typeNames ++ typeNamesOfAll rest

end

theorem typeNamesOfAll_eq (vars : List Variable) :
    typeNamesOfAll vars = vars.flatMap (·.type.typeNames) := by
  induction vars with
  | nil => rfl
  | cons v vars ih => cases v; simp [typeNamesOfAll, ih, Variable.type]

/-- A type is legible if its names and the aliases of its packages are. -/
theorem Representable.legible_toSignature {t : SourceType} (ht : t.Representable)
    {qualify : String → String}
    (hqualify : ∀ path, qualify path = "" ∨ IsName (qualify path).toList)
    (hnames : ∀ name ∈ t.typeNames, IsName name.toList) : (t.toSignature qualify).Legible := by
  induction ht with
  | basic => exact .unqualified (hnames _ (List.mem_singleton_self _))
  | @named package name =>
    have hname := hnames _ (List.mem_singleton_self name)
    rw [toSignature]
    rcases hqualify package with hempty | hqualifier
    · rw [hempty]
      exact .unqualified hname
    · exact .qualified hqualifier hname
  | pointer _ ih => exact .pointer (ih hnames)
  | slice _ ih => exact .slice (ih hnames)
  | array _ _ ih => exact .array (ih hnames)
  | map _ _ ihkey ihvalue =>
    obtain ⟨hkey, hvalue⟩ := List.forall_mem_append.mp hnames
    exact .map (ihkey hkey) (ihvalue hvalue)
  | @func params results variadic _ _ ihparams ihresults =>
    rw [typeNames, typeNamesOfAll_eq, typeNamesOfAll_eq] at hnames
    obtain ⟨hparams, hresults⟩ := List.forall_mem_append.mp hnames
    rw [toSignature, toSignatures_eq, toSignatures_eq]
    exact .func
      (List.forall_mem_map.mpr fun v hv => ihparams v hv fun name hname =>
        hparams name (List.mem_flatMap_of_mem hv hname))
      (List.forall_mem_map.mpr fun v hv => ihresults v hv fun name hname =>
        hresults name (List.mem_flatMap_of_mem hv hname))

end SourceType

theorem ImportTable.qualifier_eq_empty_or_isName (table : ImportTable)
    (haliases : ∀ entry ∈ table.entries, IsName entry.name.toList) (path : String) :
    table.qualifier path = "" ∨ IsName (table.qualifier path).toList := by
  rw [qualifier]
  cases hpath : table.aliasOf? path with
  | none => exact .inl rfl
  | some name => exact .inr (haliases _ (mem_of_aliasOf? hpath))

/-! ## Names of variables -/

theorem isName_syntheticParam (i : Nat) (isLast : Bool) (type : SignatureType) :
    IsName (syntheticParam i isLast type).toList := by
  have hword : IsWord ['p'] := by decide
  simpa [syntheticParam] using (hword.isLiteralName_number i).isName

theorem isName_syntheticResult (i : Nat) (isLast : Bool) (type : SignatureType) :
    IsName (syntheticResult i isLast type).toList := by
  unfold syntheticResult
  split
  · decide
  · have hword : IsWord ['r'] := by decide
    simpa using (hword.isLiteralName_number i).isName

theorem nameOr_isName {synthetic declared : String} (hsynthetic : IsName synthetic.toList)
    (hdeclared : declared = "" ∨ IsName declared.toList) (taken : List String) :
    IsName (nameOr synthetic declared taken).1.toList := by
  unfold nameOr
  split
  · exact hsynthetic.freshAfter taken
  · next hblank =>
    refine hdeclared.resolve_left fun hempty => ?_
    exact (isBlankName_eq_false_iff.mp (Bool.eq_false_iff.mpr hblank)).1 hempty

/-- Blank names are filled in with names. -/
theorem nameVars_isName {synthetic : Nat → Bool → SignatureType → String}
    (hsynthetic : ∀ i isLast type, IsName (synthetic i isLast type).toList) {i : Nat}
    {taken taken' : List String} {vars : List Variable} {named : List Parameter}
    {table table' : ImportTable} (hvars : ∀ v ∈ vars, v.name = "" ∨ IsName v.name.toList)
    (h : nameVars synthetic i taken vars table = .ok (named, taken') table') :
    ∀ v ∈ named, IsName v.name.toList := by
  induction vars generalizing i taken table named with
  | nil =>
    obtain ⟨heq, -⟩ := Importing.pure_eq_ok.mp h
    cases heq
    exact nofun
  | cons v rest ih =>
    obtain ⟨declared, type⟩ := v
    obtain ⟨hdeclared, hrest⟩ := List.forall_mem_cons.mp hvars
    obtain ⟨converted, table₁, -, h⟩ := Importing.bind_eq_ok.mp h
    obtain ⟨⟨named', _⟩, table₂, hnamed, h⟩ := Importing.bind_eq_ok.mp h
    obtain ⟨heq, rfl⟩ := Importing.pure_eq_ok.mp h
    cases heq
    exact List.forall_mem_cons.mpr
      ⟨nameOr_isName (hsynthetic ..) hdeclared taken, ih hrest hnamed⟩

theorem avoidAliases_isName (aliases taken : List String) {vars : List Parameter}
    (h : ∀ v ∈ vars, IsName v.name.toList) :
    ∀ v ∈ (avoidAliases aliases taken vars).1, IsName v.name.toList := by
  induction vars generalizing taken with
  | nil => exact nofun
  | cons v rest ih =>
    obtain ⟨hv, hrest⟩ := List.forall_mem_cons.mp h
    rw [avoidAliases]
    split
    · exact List.forall_mem_cons.mpr ⟨hv.freshAfter _, ih _ hrest⟩
    · exact List.forall_mem_cons.mpr ⟨hv, ih _ hrest⟩

/-! ## Methods -/

/-- Methods with names that the grammar takes for names. Parameters may be without one. -/
structure MethodSpec.Legible (spec : MethodSpec) : Prop where
  isName : IsName spec.name.toList
  vars : ∀ v ∈ spec.params ++ spec.results, v.name = "" ∨ IsName v.name.toList
  types : ∀ v ∈ spec.params ++ spec.results, ∀ name ∈ v.type.typeNames, IsName name.toList

theorem MethodSpec.legible_iff {spec : MethodSpec} : spec.Legible ↔ IsName spec.name.toList ∧
    (∀ v ∈ spec.params ++ spec.results, v.name = "" ∨ IsName v.name.toList) ∧
      ∀ v ∈ spec.params ++ spec.results, ∀ name ∈ v.type.typeNames, IsName name.toList :=
  ⟨fun h => ⟨h.isName, h.vars, h.types⟩, fun h => ⟨h.1, h.2.1, h.2.2⟩⟩

instance (spec : MethodSpec) : Decidable spec.Legible :=
  decidable_of_iff _ MethodSpec.legible_iff.symm

structure Method.Legible (m : Method) : Prop where
  isName : IsName m.name.toList
  vars : ∀ v ∈ m.vars, Wrapper.LegibleVariable v

structure Interface.Legible (i : Interface) : Prop where
  type : i.type.Legible
  methods : ∀ m ∈ i.methods, m.Legible

theorem Method.ofSpec_isName {spec : MethodSpec} {m : Method} {table₁ table₂ : ImportTable}
    (hspec : spec.Legible) (h : Method.ofSpec spec table₁ = .ok m table₂) (table : ImportTable) :
    ∀ v ∈ (m.avoidAliases table).vars, IsName v.name.toList := by
  obtain ⟨hdeclared, hdeclared'⟩ := List.forall_mem_append.mp hspec.vars
  obtain ⟨⟨params, _⟩, _, hparams, h⟩ := Importing.bind_eq_ok.mp h
  obtain ⟨⟨results, _⟩, _, hresults, h⟩ := Importing.bind_eq_ok.mp h
  obtain ⟨rfl, -⟩ := Importing.pure_eq_ok.mp h
  have hnamed := nameVars_isName isName_syntheticParam hdeclared hparams
  have hnamed' := nameVars_isName isName_syntheticResult hdeclared' hresults
  exact List.forall_mem_append.mpr ⟨avoidAliases_isName _ _ hnamed, avoidAliases_isName _ _ hnamed'⟩

theorem Typed.legible {table : ImportTable} {spec : MethodSpec} {m : Method}
    (h : Typed table spec m) (haliases : ∀ entry ∈ table.entries, IsName entry.name.toList)
    (hspec : spec.Legible) (hnames : ∀ v ∈ m.vars, IsName v.name.toList) : m.Legible := by
  have htypes : ∀ t ∈ m.vars.map (·.type), t.Legible := by
    rw [h.vars]
    exact List.forall_mem_map.mpr fun v hv => (h.representable v hv).legible_toSignature
      (table.qualifier_eq_empty_or_isName haliases) (hspec.types v hv)
  exact ⟨h.name ▸ hspec.isName, fun v hv =>
    ⟨hnames v hv, List.forall_mem_map.mp htypes v hv⟩⟩

/-! ## Hooks -/

/-- What a capability says consists of statements, given a method that can be read. -/
def Capability.Legible (capability : Capability) : Prop :=
  ∀ {m : Method} {table : ImportTable} {code : String}, table.WellFormed → m.Legible →
    capability m table = .ok (some code) → IsStatements code.toList

def Hook.Legible (hook : Hook) : Prop :=
  ∀ point capability, hook.capability? point = some capability → capability.Legible

theorem Hook.Legible.isStatements {hook : Hook} {point : HookPoint} {m : Method}
    {table : ImportTable} {code : String} (h : hook.Legible) (H : table.WellFormed) (hm : m.Legible)
    (hcode : hook.fragment point m table = .ok (some code)) : IsStatements code.toList := by
  unfold fragment at hcode
  split at hcode
  · cases hcode
  · next capability hsome => exact h point capability hsome H hm hcode

/-! ## Interfaces -/

/-- An interface in whose method set all names can be read, as can its own. -/
structure Package.LegibleInterface (p : Package) (name : String) : Prop where
  isName : IsName name.toList
  methodSet : ∀ members specs, p.resolve name = .ok members → p.methodSet members = .ok specs →
    ∀ spec ∈ specs, spec.Legible

theorem forall_mem_of_forall₂ {α β : Type} {P : α → Prop} {Q : β → Prop} {as : List α}
    {bs : List β} (h : List.Forall₂ (fun a b => P a → Q b) as bs) (has : ∀ a ∈ as, P a) :
    ∀ b ∈ bs, Q b := by
  induction h with
  | nil => exact nofun
  | cons hab _ ih =>
    obtain ⟨ha, has⟩ := List.forall_mem_cons.mp has
    exact List.forall_mem_cons.mpr ⟨hab ha, ih has⟩

/-- Introspection ends with a legible interface, whatever names it makes up on the way. -/
theorem Package.introspect_legible {p : Package} {name : String} {table table' : ImportTable}
    {i : Interface} (H : table.WellFormed) (h : p.introspect name table = .ok i table')
    (hp : p.LegibleInterface name)
    (haliases : ∀ entry ∈ table'.entries, IsName entry.name.toList) : i.Legible := by
  obtain ⟨members, specs, hresolve, hset, -, htype, htyped⟩ := p.introspect_typed H h
  obtain ⟨members', specs', methods, hresolve', hset', hmethods, -, heq⟩ := p.introspect_eq_ok h
  cases hresolve.symm.trans hresolve'
  cases hset.symm.trans hset'
  have hspecs := hp.methodSet members specs hresolve hset
  refine ⟨?_, forall_mem_of_forall₂ ?_ hspecs⟩
  · rw [htype]
    rcases table'.qualifier_eq_empty_or_isName haliases p.path with hempty | hqualifier
    · rw [hempty]
      exact .unqualified hp.isName
    · exact .qualified hqualifier hp.isName
  · rw [heq, List.forall₂_map_right_iff] at htyped ⊢
    refine htyped.mp (fun spec m htyped hnamed hspec => ?_) (methodsOfSpecs_eq_ok hmethods)
    obtain ⟨_, _, hm⟩ := hnamed
    exact htyped.legible haliases hspec (Method.ofSpec_isName hspec hm table')

/-- The generator has legible methods if names are legible in the package and in its table. -/
theorem Generator.legible_of_new {p : Package} {name : String} {hooks : List Hook} {g : Generator}
    (h : Generator.new p name hooks = .ok g) (hp : p.LegibleInterface name)
    (haliases : ∀ entry ∈ g.imports.entries, IsName entry.name.toList) : g.interface.Legible := by
  rw [Generator.new] at h
  split at h
  · next hintrospect =>
    cases h
    have H := ImportTable.WellFormed.empty.addAll (hooks.flatMap (·.imports))
    exact p.introspect_legible H hintrospect hp haliases
  · cases h

end Interposer
