import Interposer.Proofs.SignatureType.Mentions

/-! Reading the types of a file back. A type is resolved the way a reader of the file does it, with
nothing but the imports that the file declares; the path that the generator keeps inside a named
type is not looked at. Resolution inverts conversion (`Representable.resolve_toSignature`). -/

namespace Interposer

namespace SignatureType

mutual

/-- The type that a reader of a file with these imports understands. -/
def resolve (imports : List Import) : SignatureType → Option SourceType
  | .slice elem => (elem.resolve imports).map .slice
  | .array length elem =>
    if length < 0 then none else (elem.resolve imports).map (.array length.toNat)
  | .map key value => do
    let key ← key.resolve imports
    let value ← value.resolve imports
    some (.map key value)
  | .pointer elem => (elem.resolve imports).map .pointer
  | .func params results variadic => do
    let params ← resolveAll imports params
    let results ← resolveAll imports results
    some (.func params results variadic)
  | .named qualifier _ name =>
    if qualifier = "" then some (.basic name)
    else (imports.find? (·.name == qualifier)).map fun i => .named i.path name []

def resolveAll (imports : List Import) : List SignatureType → Option (List Variable)
  | [] => some []
  | t :: types => do
    let type ← t.resolve imports
    let rest ← resolveAll imports types
    some (.mk "" type :: rest)

end

/-- The imports tell what every reference in the type is to: a predeclared type has no qualifier,
and everything else has the alias of an import. -/
def ResolvedBy (imports : List Import) (t : SignatureType) : Prop :=
  ∀ qualifier path name, t.Mentions qualifier path name →
    qualifier = "" ∧ path = "" ∨ qualifier ≠ "" ∧ path ≠ "" ∧ ⟨qualifier, path⟩ ∈ imports

theorem ResolvedBy.func {imports : List Import} {params results : List SignatureType}
    {variadic : Bool} (h : ∀ t ∈ params ++ results, t.ResolvedBy imports) :
    ResolvedBy imports (.func params results variadic) := by
  intro qualifier path name hmention
  cases hmention with
  | param ht hmention => exact h _ (List.mem_append_left _ ht) _ _ _ hmention
  | result ht hmention => exact h _ (List.mem_append_right _ ht) _ _ _ hmention

end SignatureType

namespace SourceType

mutual

/-- The type without the differences that do not matter in a signature. Parameters have no names,
and a predeclared type has one description. -/
def canonical : SourceType → SourceType
  | .named package name args =>
    if package = "" ∧ args.isEmpty then .basic name else .named package name args
  | .pointer elem => .pointer elem.canonical
  | .slice elem => .slice elem.canonical
  | .array length elem => .array length elem.canonical
  | .map key value => .map key.canonical value.canonical
  | .func params results variadic =>
    .func (canonicalVars params) (canonicalVars results) variadic
  | t => t

def canonicalVars : List Variable → List Variable
  | [] => []
  | .mk _ type :: rest => .mk "" type.canonical :: canonicalVars rest

end

open SignatureType

variable {imports : List Import} {qualify : String → String}

theorem resolveAll_toSignature {vars : List Variable}
    (h : ∀ v ∈ vars, (v.type.toSignature qualify).resolve imports = some v.type.canonical) :
    resolveAll imports (vars.map (·.type.toSignature qualify)) = some (canonicalVars vars) := by
  induction vars with
  | nil => rfl
  | cons v rest ih =>
    obtain ⟨name, type⟩ := v
    obtain ⟨htype, hrest⟩ := List.forall_mem_cons.mp h
    have hhead : (type.toSignature qualify).resolve imports = some type.canonical := htype
    rw [List.map_cons, resolveAll, canonicalVars, ih hrest]
    simp only [Variable.type, hhead, Option.bind_eq_bind, Option.bind_some]

theorem Representable.resolve_toSignature {t : SourceType} (ht : t.Representable)
    (himports : (imports.map (·.name)).Nodup)
    (h : (t.toSignature qualify).ResolvedBy imports) :
    (t.toSignature qualify).resolve imports = some t.canonical := by
  induction ht with
  | basic => rfl
  | @named package name =>
    rw [toSignature, resolve, canonical]
    rcases h _ _ _ .named with ⟨hqualifier, rfl⟩ | ⟨hqualifier, hpackage, hmem⟩
    · rw [if_pos hqualifier, if_pos ⟨rfl, rfl⟩]
    · rw [if_neg hqualifier, if_neg fun hempty => hpackage hempty.1,
        ImportTable.find?_name_eq himports hmem, Option.map_some]
  | pointer _ ih =>
    rw [toSignature, resolve, ih fun _ _ _ hm => h _ _ _ (.pointer hm), canonical, Option.map_some]
  | slice _ ih =>
    rw [toSignature, resolve, ih fun _ _ _ hm => h _ _ _ (.slice hm), canonical, Option.map_some]
  | array _ _ ih =>
    rw [toSignature, resolve, if_neg (Int.not_lt.mpr (Int.natCast_nonneg _)), Int.toNat_natCast,
      ih fun _ _ _ hm => h _ _ _ (.array hm), canonical, Option.map_some]
  | map _ _ ihkey ihvalue =>
    have hkey := ihkey fun _ _ _ hm => h _ _ _ (.mapKey hm)
    have hvalue := ihvalue fun _ _ _ hm => h _ _ _ (.mapValue hm)
    simp only [toSignature, resolve, hkey, hvalue, canonical, Option.bind_eq_bind,
      Option.bind_some]
  | @func params results variadic _ _ ihparams ihresults =>
    rw [toSignature, toSignatures_eq, toSignatures_eq] at h ⊢
    have hparams := resolveAll_toSignature fun v hv => ihparams v hv fun _ _ _ hm =>
      h _ _ _ (.param (List.mem_map_of_mem hv) hm)
    have hresults := resolveAll_toSignature fun v hv => ihresults v hv fun _ _ _ hm =>
      h _ _ _ (.result (List.mem_map_of_mem hv) hm)
    simp only [resolve, hparams, hresults, canonical, Option.bind_eq_bind, Option.bind_some]

end SourceType

end Interposer
