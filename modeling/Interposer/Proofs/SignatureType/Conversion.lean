import Interposer.SignatureType.OfSource
import Interposer.Proofs.ImportTable.Runs

/-! Conversion of source types, told without its import table in passing. A type with a place in
signatures (`SourceType.Representable`) converts on every table; what it enters are its packages,
and its image is `SourceType.toSignature` under the aliases that these have in the end. The aliases
inside a type are those of the final table although most are written while the table still grows,
because entries never change. -/

namespace Interposer

namespace Importing

variable {α β : Type} {m : Importing α} {f : α → Importing β} {table table' : ImportTable}

theorem bind_eq_ok {b : β} : (m >>= f) table = .ok b table' ↔
    ∃ a table₁, m table = .ok a table₁ ∧ f a table₁ = .ok b table' := by
  change EStateM.bind m f table = _ ↔ _
  unfold EStateM.bind
  cases m table <;> simp

theorem pure_eq_ok {a b : α} :
    (pure a : Importing α) table = .ok b table' ↔ a = b ∧ table = table' := by
  change EStateM.Result.ok a table = _ ↔ _
  simp

theorem throw_ne_ok {failure : Failure} {a : α} :
    (throw failure : Importing α) table ≠ .ok a table' := nofun

theorem importing_eq_ok {path name : String} :
    importing path table = .ok name table' ↔ table.add path = (name, table') := by
  simp [importing, Prod.ext_iff]

theorem ofExcept_eq_ok {x : Except Failure α} {a : α} :
    (ofExcept x : Importing α) table = .ok a table' ↔ x = .ok a ∧ table = table' := by
  cases x with
  | ok _ => simp [ofExcept, pure_eq_ok]
  | error _ => simp [ofExcept, throw_ne_ok]

end Importing

open Importing

namespace ImportTable

variable {table table' : ImportTable} {path : String}

/-- The alias under which a file refers to a path, empty for the empty path. -/
def qualifier (table : ImportTable) (path : String) : String := (table.aliasOf? path).getD ""

theorem qualifier_eq_of_mem (H : table.WellFormed) {name : String}
    (hmem : ⟨name, path⟩ ∈ table.entries) : table.qualifier path = name := by
  rw [qualifier, H.aliasOf?_eq_some_iff.mpr hmem, Option.getD_some]

theorem mem_entries_qualifier (H : table.WellFormed) (hpath : path ∈ table.paths) :
    ⟨table.qualifier path, path⟩ ∈ table.entries := by
  obtain ⟨name, hmem⟩ := mem_paths_iff.mp hpath
  rwa [qualifier_eq_of_mem H hmem]

theorem qualifier_empty (H : table.WellFormed) : table.qualifier "" = "" := by
  cases hfound : table.aliasOf? "" with
  | none => rw [qualifier, hfound, Option.getD_none]
  | some name => exact (H.nonempty _ (mem_of_aliasOf? hfound) rfl).elim

theorem qualifier_add (H : table.WellFormed) (path : String) :
    (table.add path).2.qualifier path = (table.add path).1 := by
  by_cases hpath : path = ""
  · subst hpath; exact qualifier_empty H
  · exact qualifier_eq_of_mem (H.add path) (mem_add table hpath)

/-- A path that is entered keeps its alias for good. -/
theorem qualifier_of_le (H : table.WellFormed) (H' : table'.WellFormed) (hle : table ≤ table')
    (hpath : path = "" ∨ path ∈ table.paths) : table'.qualifier path = table.qualifier path := by
  rcases hpath with rfl | hpath
  · rw [qualifier_empty H, qualifier_empty H']
  · exact qualifier_eq_of_mem H' (mem_of_le hle (mem_entries_qualifier H hpath))

/-- The aliases of the paths of a run are those of every later table. -/
theorem qualifier_addAll (H : table.WellFormed) {run : List String} (hpath : path ∈ run)
    (run' : List String) :
    ((table.addAll run).addAll run').qualifier path = (table.addAll run).qualifier path := by
  refine qualifier_of_le (H.addAll run) ((H.addAll run).addAll run') (le_addAll _ _) ?_
  by_cases hempty : path = ""
  · exact .inl hempty
  · exact .inr ((mem_paths_addAll table run).mpr (.inr ⟨hpath, hempty⟩))

end ImportTable

/-! ## Types with a place in signatures -/

namespace SourceType

/-- Types that a wrapper's signatures can contain. -/
inductive Representable : SourceType → Prop
  | basic : Representable (.basic name)
  | named : Representable (.named package name [])
  | pointer : Representable elem → Representable (.pointer elem)
  | slice : Representable elem → Representable (.slice elem)
  | array : length ≤ maxArrayLength → Representable elem → Representable (.array length elem)
  | map : Representable key → Representable value → Representable (.map key value)
  | func : (∀ v ∈ params, Representable v.type) → (∀ v ∈ results, Representable v.type) →
    Representable (.func params results variadic)

mutual

/-- The packages of the named types in a signature, in reading order. -/
def packages : SourceType → List String
  | .named package _ _ => [package]
  | .pointer elem | .slice elem | .array _ elem => elem.packages
  | .map key value => key.packages ++ value.packages
  | .func params results _ => packagesOfAll params ++ packagesOfAll results
  | _ => []

def packagesOfAll : List Variable → List String
  | [] => []
  | .mk _ type :: rest => type.packages ++ packagesOfAll rest

end

mutual

/-- The type with an alias for each package. It is what a conversion ends with, and is of no
interest for types that are not representable. -/
def toSignature (qualify : String → String) : SourceType → SignatureType
  | .basic name => .predeclared name
  | .named package name _ => .named (qualify package) package name
  | .pointer elem => .pointer (elem.toSignature qualify)
  | .slice elem => .slice (elem.toSignature qualify)
  | .array length elem => .array length (elem.toSignature qualify)
  | .map key value => .map (key.toSignature qualify) (value.toSignature qualify)
  | .func params results variadic =>
    .func (toSignatures qualify params) (toSignatures qualify results) variadic
  | _ => .predeclared ""

def toSignatures (qualify : String → String) : List Variable → List SignatureType
  | [] => []
  | .mk _ type :: rest => type.toSignature qualify :: toSignatures qualify rest

end

theorem packagesOfAll_eq (vars : List Variable) :
    packagesOfAll vars = vars.flatMap (·.type.packages) := by
  induction vars with
  | nil => rfl
  | cons v vars ih => cases v; simp [packagesOfAll, ih, Variable.type]

theorem packages_subset_packagesOfAll {vars : List Variable} {v : Variable} (hv : v ∈ vars) :
    v.type.packages ⊆ packagesOfAll vars := fun path hpath => by
  rw [packagesOfAll_eq]
  exact List.mem_flatMap.mpr ⟨v, hv, hpath⟩

theorem toSignatures_eq (qualify : String → String) (vars : List Variable) :
    toSignatures qualify vars = vars.map (·.type.toSignature qualify) := by
  induction vars with
  | nil => rfl
  | cons v vars ih => cases v; simp [toSignatures, ih, Variable.type]

/-! ## Conversion -/

mutual

theorem representable_of_ofSource : ∀ (t : SourceType) {table table' : ImportTable}
    {converted : SignatureType}, SignatureType.ofSource t table = .ok converted table' →
    t.Representable
  | .basic _, _, _, _, _ => .basic
  | .named _ _ args, _, _, _, h => by
    cases args with
    | nil => exact .named
    | cons _ _ => exact (throw_ne_ok h).elim
  | .pointer elem, _, _, _, h => by
    obtain ⟨_, _, helem, -⟩ := bind_eq_ok.mp h
    exact .pointer (representable_of_ofSource elem helem)
  | .slice elem, _, _, _, h => by
    obtain ⟨_, _, helem, -⟩ := bind_eq_ok.mp h
    exact .slice (representable_of_ofSource elem helem)
  | .array length elem, _, _, _, h => by
    rw [SignatureType.ofSource] at h
    split at h
    · obtain ⟨_, _, helem, -⟩ := bind_eq_ok.mp h
      exact .array ‹_› (representable_of_ofSource elem helem)
    · exact (throw_ne_ok h).elim
  | .map key value, _, _, _, h => by
    obtain ⟨_, _, hkey, h⟩ := bind_eq_ok.mp h
    obtain ⟨_, _, hvalue, -⟩ := bind_eq_ok.mp h
    exact .map (representable_of_ofSource key hkey) (representable_of_ofSource value hvalue)
  | .func params results _, _, _, _, h => by
    obtain ⟨_, _, hparams, h⟩ := bind_eq_ok.mp h
    obtain ⟨_, _, hresults, -⟩ := bind_eq_ok.mp h
    exact .func (representable_of_ofVariables params hparams)
      (representable_of_ofVariables results hresults)
  | .interface _, _, _, _, h | .struct _, _, _, _, h | .chan _ _, _, _, _, h
  | .typeParam _, _, _, _, h | .other _, _, _, _, h => (throw_ne_ok h).elim

theorem representable_of_ofVariables : ∀ (vars : List Variable) {table table' : ImportTable}
    {converted : List SignatureType}, SignatureType.ofVariables vars table = .ok converted table' →
    ∀ v ∈ vars, v.type.Representable
  | [], _, _, _, _ => nofun
  | .mk _ type :: rest, _, _, _, h => by
    obtain ⟨_, _, htype, h⟩ := bind_eq_ok.mp h
    obtain ⟨_, _, hrest, -⟩ := bind_eq_ok.mp h
    exact List.forall_mem_cons.mpr
      ⟨representable_of_ofSource type htype, representable_of_ofVariables rest hrest⟩

end

/-- Only the aliases of a type's own packages matter for its conversion. -/
theorem Representable.toSignature_congr {t : SourceType} (ht : t.Representable)
    {qualify qualify' : String → String} (h : ∀ path ∈ t.packages, qualify path = qualify' path) :
    t.toSignature qualify = t.toSignature qualify' := by
  induction ht with
  | basic => rfl
  | named => simp [toSignature, h _ (List.mem_singleton_self _)]
  | pointer _ ih | slice _ ih | array _ _ ih => simp only [toSignature, ih h]
  | map _ _ ihkey ihvalue =>
    simp only [packages, List.mem_append] at h
    simp only [toSignature, ihkey fun path hp => h path (.inl hp),
      ihvalue fun path hp => h path (.inr hp)]
  | func _ _ ihparams ihresults =>
    simp only [packages, packagesOfAll_eq, List.mem_append, List.mem_flatMap] at h
    simp only [toSignature, toSignatures_eq]
    congr 1
    · exact List.map_congr_left fun v hv =>
        ihparams v hv fun path hp => h path (.inl ⟨v, hv, hp⟩)
    · exact List.map_congr_left fun v hv =>
        ihresults v hv fun path hp => h path (.inr ⟨v, hv, hp⟩)

/-- A converted type is what its conversion on any later table would be. -/
theorem Representable.toSignature_addAll {t : SourceType} (ht : t.Representable)
    {table : ImportTable} (H : table.WellFormed) {run : List String} (hrun : t.packages ⊆ run)
    (run' : List String) : t.toSignature ((table.addAll run).addAll run').qualifier =
      t.toSignature (table.addAll run).qualifier :=
  ht.toSignature_congr fun _ hpath => ImportTable.qualifier_addAll H (hrun hpath) run'

/-- What a conversion does on every well-formed table. -/
def Converts (t : SourceType) : Prop :=
  ∀ {table : ImportTable}, table.WellFormed → SignatureType.ofSource t table =
    .ok (t.toSignature (table.addAll t.packages).qualifier) (table.addAll t.packages)

theorem ofVariables_eq {vars : List Variable} (hvars : ∀ v ∈ vars, v.type.Representable)
    (hconv : ∀ v ∈ vars, v.type.Converts) {table : ImportTable} (H : table.WellFormed) :
    SignatureType.ofVariables vars table =
      .ok (vars.map (·.type.toSignature (table.addAll (packagesOfAll vars)).qualifier))
        (table.addAll (packagesOfAll vars)) := by
  induction vars generalizing table with
  | nil => rfl
  | cons v rest ih =>
    obtain ⟨name, type⟩ := v
    obtain ⟨htype, hrest⟩ := List.forall_mem_cons.mp hvars
    obtain ⟨hctype, hcrest⟩ := List.forall_mem_cons.mp hconv
    rw [packagesOfAll, ImportTable.addAll_append, List.map_cons]
    refine bind_eq_ok.mpr ⟨_, _, hctype H, bind_eq_ok.mpr ⟨_, _, ih hrest hcrest (H.addAll _), ?_⟩⟩
    refine pure_eq_ok.mpr ⟨?_, rfl⟩
    congr 1
    exact (htype.toSignature_addAll H (List.Subset.refl _) _).symm

theorem Representable.converts {t : SourceType} (ht : t.Representable) : t.Converts := by
  induction ht with
  | basic => exact fun _ => rfl
  | @named package name =>
    intro table H
    refine bind_eq_ok.mpr ⟨(table.add package).1, (table.add package).2,
      importing_eq_ok.mpr rfl, ?_⟩
    refine pure_eq_ok.mpr ⟨?_, rfl⟩
    simp only [toSignature, packages, ImportTable.addAll_cons, ImportTable.addAll_nil,
      ImportTable.qualifier_add H]
  | pointer _ ih | slice _ ih =>
    exact fun H => bind_eq_ok.mpr ⟨_, _, ih H, rfl⟩
  | array hlength _ ih =>
    intro table H
    rw [SignatureType.ofSource, if_pos hlength]
    exact bind_eq_ok.mpr ⟨_, _, ih H, rfl⟩
  | map hkey _ ihkey ihvalue =>
    intro table H
    rw [packages, ImportTable.addAll_append]
    refine bind_eq_ok.mpr ⟨_, _, ihkey H, bind_eq_ok.mpr ⟨_, _, ihvalue (H.addAll _), ?_⟩⟩
    refine pure_eq_ok.mpr ⟨?_, rfl⟩
    rw [toSignature, hkey.toSignature_addAll H (List.Subset.refl _)]
  | @func params results variadic hparams hresults ihparams ihresults =>
    intro table H
    rw [packages, ImportTable.addAll_append]
    refine bind_eq_ok.mpr ⟨_, _, ofVariables_eq hparams ihparams H, ?_⟩
    refine bind_eq_ok.mpr ⟨_, _, ofVariables_eq hresults ihresults (H.addAll _), ?_⟩
    refine pure_eq_ok.mpr ⟨?_, rfl⟩
    rw [toSignature, toSignatures_eq, toSignatures_eq]
    congr 1
    exact List.map_congr_left fun v hv =>
      ((hparams v hv).toSignature_addAll H (packages_subset_packagesOfAll hv) _).symm

/-- The images of variables under a conversion that succeeded. -/
theorem ofVariables_eq_ok {vars : List Variable} {table table' : ImportTable}
    {converted : List SignatureType} (H : table.WellFormed)
    (h : SignatureType.ofVariables vars table = .ok converted table') :
    (∀ v ∈ vars, v.type.Representable) ∧ table' = table.addAll (packagesOfAll vars) ∧
      converted = vars.map (·.type.toSignature table'.qualifier) := by
  have hvars := representable_of_ofVariables vars h
  rw [ofVariables_eq hvars (fun v hv => (hvars v hv).converts) H] at h
  cases h
  exact ⟨hvars, rfl, rfl⟩

end SourceType

end Interposer
