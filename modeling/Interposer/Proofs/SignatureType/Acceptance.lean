import Interposer.Proofs.SignatureType.Mentions
import Interposer.Proofs.SignatureType.Rejection

/-! Which types a conversion accepts, and what it leaves in the import table. A type is accepted if
everything that it is made up of, at any depth, has a place in signatures; and then it is made up in
the same way as its image, array for array and slice for slice (`SignatureType.conversionLaws`). -/

namespace Interposer

/-! ## What types are made up of -/

def Member.types : Member → List SourceType
  | .method _ params results _ => params.map (·.type) ++ results.map (·.type)
  | .embedded type => [type]

namespace SourceType

/-- The types that a type is directly made up of. -/
def parts : SourceType → List SourceType
  | .named _ _ args => args
  | .pointer elem | .slice elem | .array _ elem | .chan _ elem => [elem]
  | .map key value => [key, value]
  | .func params results _ => params.map (·.type) ++ results.map (·.type)
  | .interface members => members.flatMap Member.types
  | .struct fields => fields.map (·.type)
  | .basic _ | .typeParam _ | .other _ => []

/-- What stands at a place in a type: in a part, given by its number, of a part, and so on. -/
def at? (t : SourceType) : List Nat → Option SourceType
  | [] => some t
  | i :: place => t.parts[i]?.bind (·.at? place)

/-- The type stands somewhere in `t`. -/
def OccursIn (node t : SourceType) : Prop := ∃ place, t.at? place = some node

/-- Whether a type has a place in signatures, its parts aside. -/
def Fits : SourceType → Prop
  | .basic _ | .pointer _ | .slice _ | .map _ _ | .func _ _ _ => True
  | .named _ _ args => args = []
  | .array length _ => length ≤ 2 ^ 63 - 1
  | .interface _ | .struct _ | .chan _ _ | .typeParam _ | .other _ => False

variable {t node : SourceType}

theorem occursIn_self (t : SourceType) : t.OccursIn t := ⟨[], rfl⟩

theorem OccursIn.of_part {part : SourceType} (hpart : part ∈ t.parts) (h : node.OccursIn part) :
    node.OccursIn t := by
  obtain ⟨i, hi⟩ := List.mem_iff_getElem?.mp hpart
  obtain ⟨place, hplace⟩ := h
  exact ⟨i :: place, by rw [at?, hi, Option.bind_some, hplace]⟩

/-- What occurs in a type is the type, or occurs in one of its parts. -/
theorem OccursIn.cases (h : node.OccursIn t) :
    node = t ∨ ∃ part ∈ t.parts, node.OccursIn part := by
  obtain ⟨place, hplace⟩ := h
  cases place with
  | nil => exact .inl (Option.some.inj hplace).symm
  | cons i place =>
    obtain ⟨part, hpart, hrest⟩ := Option.bind_eq_some_iff.mp hplace
    exact .inr ⟨part, List.mem_of_getElem? hpart, place, hrest⟩

theorem maxArrayLength_eq : maxArrayLength = 2 ^ 63 - 1 := by decide

/-! ## Types that are accepted -/

theorem Representable.fits (h : t.Representable) : t.Fits := by
  cases h with
  | array hlength _ => exact hlength.trans maxArrayLength_eq.le
  | named => rfl
  | _ => exact trivial

theorem forall_mem_types_append {params results : List Variable} {P : SourceType → Prop} :
    (∀ part ∈ params.map (·.type) ++ results.map (·.type), P part) ↔
      (∀ v ∈ params, P v.type) ∧ ∀ v ∈ results, P v.type := by
  rw [List.forall_mem_append, List.forall_mem_map, List.forall_mem_map]

theorem Representable.of_mem_parts (h : t.Representable) :
    ∀ part ∈ t.parts, part.Representable := by
  cases h with
  | basic | named => exact nofun
  | pointer helem | slice helem | array _ helem => exact List.forall_mem_singleton.mpr helem
  | map hkey hvalue => exact List.forall_mem_cons.mpr ⟨hkey, List.forall_mem_singleton.mpr hvalue⟩
  | func hparams hresults => exact forall_mem_types_append.mpr ⟨hparams, hresults⟩

theorem Representable.occursIn (h : t.Representable) (hnode : node.OccursIn t) :
    node.Representable := by
  obtain ⟨place, hplace⟩ := hnode
  induction place generalizing t with
  | nil => exact Option.some.inj hplace ▸ h
  | cons i place ih =>
    obtain ⟨part, hpart, hrest⟩ := Option.bind_eq_some_iff.mp hplace
    exact ih (h.of_mem_parts part (List.mem_of_getElem? hpart)) hrest

mutual

theorem representable_of_fits : ∀ t : SourceType,
    (∀ node : SourceType, node.OccursIn t → node.Fits) → t.Representable
  | .basic _, _ => .basic
  | .named _ _ _, h => by
    have hargs := h _ (occursIn_self _)
    subst hargs
    exact .named
  | .pointer elem, h =>
    .pointer (representable_of_fits elem fun _ hn => h _ (hn.of_part List.mem_cons_self))
  | .slice elem, h =>
    .slice (representable_of_fits elem fun _ hn => h _ (hn.of_part List.mem_cons_self))
  | .array _ elem, h =>
    .array (maxArrayLength_eq.ge.trans' (h _ (occursIn_self _)))
      (representable_of_fits elem fun _ hn => h _ (hn.of_part List.mem_cons_self))
  | .map key value, h =>
    .map (representable_of_fits key fun _ hn => h _ (hn.of_part List.mem_cons_self))
      (representable_of_fits value fun _ hn =>
        h _ (hn.of_part (List.mem_cons_of_mem _ List.mem_cons_self)))
  | .func params results _, h => by
    have hparts := forall_mem_types_append.mp fun part hpart node hnode =>
      h node (OccursIn.of_part hpart hnode)
    exact .func (representable_of_all_fit params hparts.1)
      (representable_of_all_fit results hparts.2)
  | .interface _, h | .struct _, h | .chan _ _, h | .typeParam _, h | .other _, h =>
    (h _ (occursIn_self _)).elim

theorem representable_of_all_fit : ∀ vars : List Variable,
    (∀ v ∈ vars, ∀ node : SourceType, node.OccursIn v.type → node.Fits) →
      ∀ v ∈ vars, v.type.Representable
  | [], _ => nofun
  | .mk _ type :: rest, h => by
    obtain ⟨htype, hrest⟩ := List.forall_mem_cons.mp h
    exact List.forall_mem_cons.mpr
      ⟨representable_of_fits type htype, representable_of_all_fit rest hrest⟩

end

theorem representable_iff : t.Representable ↔ ∀ node : SourceType, node.OccursIn t → node.Fits :=
  ⟨fun h _ hnode => (h.occursIn hnode).fits, representable_of_fits t⟩

/-- A named type occurs as the type itself or in a part. -/
theorem named_occursIn_iff {path : String} :
    (∃ name, (SourceType.named path name []).OccursIn t) ↔ (∃ name, t = .named path name []) ∨
      ∃ part ∈ t.parts, ∃ name, (SourceType.named path name []).OccursIn part := by
  constructor
  · rintro ⟨name, hname⟩
    rcases hname.cases with rfl | ⟨part, hpart, hrest⟩
    · exact .inl ⟨name, rfl⟩
    · exact .inr ⟨part, hpart, name, hrest⟩
  · rintro (⟨name, rfl⟩ | ⟨part, hpart, name, hname⟩)
    · exact ⟨name, occursIn_self _⟩
    · exact ⟨name, hname.of_part hpart⟩

/-- The packages that are entered are those of the named types. -/
theorem mem_packages_iff (h : t.Representable) {path : String} :
    path ∈ t.packages ↔ ∃ name, (SourceType.named path name []).OccursIn t := by
  have hvars : ∀ {vars : List Variable}, (∀ v ∈ vars, path ∈ v.type.packages ↔
      ∃ name, (SourceType.named path name []).OccursIn v.type) → (path ∈ packagesOfAll vars ↔
        ∃ part ∈ vars.map (·.type), ∃ name, (SourceType.named path name []).OccursIn part) := by
    intro vars ih
    simp only [packagesOfAll_eq, List.mem_flatMap, List.mem_map, exists_exists_and_eq_and]
    exact exists_congr fun v => and_congr_right (ih v)
  induction h with
  | basic => rw [named_occursIn_iff]; simp [packages, parts]
  | named => rw [named_occursIn_iff]; simp [packages, parts, eq_comm]
  | pointer _ ih | slice _ ih | array _ _ ih => rw [named_occursIn_iff]; simp [packages, parts, ih]
  | map _ _ ihkey ihvalue => rw [named_occursIn_iff]; simp [packages, parts, ihkey, ihvalue]
  | func _ _ ihparams ihresults =>
    rw [named_occursIn_iff, packages, List.mem_append, hvars ihparams, hvars ihresults, parts]
    simp only [List.mem_append, or_and_right, exists_or, reduceCtorEq, exists_false, false_or]

end SourceType

/-! ## Images -/

namespace SignatureType

def parts : SignatureType → List SignatureType
  | .slice elem | .array _ elem | .pointer elem => [elem]
  | .map key value => [key, value]
  | .func params results _ => params ++ results
  | .named _ _ _ => []

/-- What stands at a place in a type. -/
def at? (t : SignatureType) : List Nat → Option SignatureType
  | [] => some t
  | i :: place => t.parts[i]?.bind (·.at? place)

end SignatureType

namespace SourceType

variable {t : SourceType} {qualify : String → String}

theorem Representable.parts_toSignature (h : t.Representable) :
    (t.toSignature qualify).parts = t.parts.map (·.toSignature qualify) := by
  cases h with
  | func _ _ =>
    rw [toSignature, SignatureType.parts, toSignatures_eq, toSignatures_eq, SourceType.parts,
      List.map_append, List.map_map, List.map_map]
    rfl
  | _ => rfl

/-- At each place of the image stands the image of what stands at that place. -/
theorem Representable.at?_toSignature (h : t.Representable) (place : List Nat) :
    (t.toSignature qualify).at? place = (t.at? place).map (·.toSignature qualify) := by
  induction place generalizing t with
  | nil => rfl
  | cons i place ih =>
    rw [SignatureType.at?, SourceType.at?, h.parts_toSignature, List.getElem?_map]
    cases hpart : t.parts[i]? with
    | none => rfl
    | some part => exact ih (h.of_mem_parts part (List.mem_of_getElem? hpart))

theorem toSignature_eq_slice_iff : (∃ elem, t.toSignature qualify = .slice elem) ↔
    ∃ elem, t = .slice elem := by
  cases t <;> simp [toSignature, SignatureType.predeclared]

theorem toSignature_eq_array_iff {length : Int} :
    (∃ elem, t.toSignature qualify = .array length elem) ↔
      ∃ (n : Nat) (elem : SourceType), length = n ∧ t = .array n elem := by
  cases t <;> simp [toSignature, SignatureType.predeclared, eq_comm]

end SourceType

/-! ## The table -/

namespace Importing

variable {α β : Type}

/-- The table that a computation leaves, be it successful or not. -/
def tableAfter (m : Importing α) (table : ImportTable) : ImportTable :=
  match m table with
  | .ok _ table' => table'
  | .error _ table' => table'

/-- The computation only ever enters imports. -/
def Extends (m : Importing α) : Prop := ∀ table, table ≤ m.tableAfter table

theorem Extends.pure (a : α) : Extends (pure a : Importing α) := fun _ => le_rfl

theorem Extends.throw (failure : Failure) : Extends (throw failure : Importing α) :=
  fun _ => le_rfl

theorem Extends.importing (path : String) : Extends (importing path) :=
  fun table => table.le_add path

theorem Extends.bind {m : Importing α} {f : α → Importing β} (hm : Extends m)
    (hf : ∀ a, Extends (f a)) : Extends (m >>= f) := by
  intro table
  have hfirst := hm table
  change table ≤ tableAfter (EStateM.bind m f) table
  unfold tableAfter EStateM.bind at *
  cases h : m table with
  | error failure table₁ => rwa [h] at hfirst
  | ok a table₁ =>
    rw [h] at hfirst
    exact hfirst.trans (hf a table₁)

end Importing

open Importing

namespace SignatureType

mutual

theorem extends_ofSource : ∀ t : SourceType, Extends (ofSource t)
  | .basic _ => .pure _
  | .named package name args => by
    rw [ofSource]
    split
    · exact .bind (.importing package) fun _ => .pure _
    · exact .throw _
  | .pointer elem => .bind (extends_ofSource elem) fun _ => .pure _
  | .slice elem => .bind (extends_ofSource elem) fun _ => .pure _
  | .array length elem => by
    rw [ofSource]
    split
    · exact .bind (extends_ofSource elem) fun _ => .pure _
    · exact .throw _
  | .map key value =>
    .bind (extends_ofSource key) fun _ => .bind (extends_ofSource value) fun _ => .pure _
  | .func params results _ =>
    .bind (extends_ofVariables params) fun _ =>
      .bind (extends_ofVariables results) fun _ => .pure _
  | .interface _ | .struct _ | .chan _ _ | .typeParam _ | .other _ => .throw _

theorem extends_ofVariables : ∀ vars : List Variable, Extends (ofVariables vars)
  | [] => .pure _
  | .mk _ type :: rest =>
    .bind (extends_ofSource type) fun _ => .bind (extends_ofVariables rest) fun _ => .pure _

end

/-! ## Conversion as a whole -/

/-- What a conversion of a type comes to on a table. -/
structure ConversionLaws (t : SourceType) (table : ImportTable) : Prop where
  /-- A type is accepted exactly if all that it is made up of has a place in signatures. -/
  converts_iff : (∃ converted table', ofSource t table = .ok converted table') ↔
    ∀ node : SourceType, node.OccursIn t → node.Fits
  /-- Otherwise it is said to be unsupported. -/
  refused : ¬ (∀ node : SourceType, node.OccursIn t → node.Fits) →
    ∃ what table', ofSource t table = .error (.unsupported what) table'
  /-- Either way the table only grows at its end, and no entry is changed or lost. -/
  grows : table ≤ (ofSource t).tableAfter table
  kept : ∀ name path, table.pathOf? name = some path →
    ((ofSource t).tableAfter table).pathOf? name = some path ∧
      ((ofSource t).tableAfter table).aliasOf? path = table.aliasOf? path
  /-- The packages that a type refers to are entered, once each and unless they are there, and
  nothing else is. -/
  gained : ∀ converted table', ofSource t table = .ok converted table' →
    ∃ new, table'.entries = table.entries ++ new ∧ (new.map (·.path)).Nodup ∧
      ∀ path, path ∈ new.map (·.path) ↔ path ≠ "" ∧ path ∉ table.paths ∧
        ∃ name, (SourceType.named path name []).OccursIn t
  /-- Slices are where slices were. -/
  slices : ∀ converted table', ofSource t table = .ok converted table' → ∀ place,
    (∃ elem, converted.at? place = some (.slice elem)) ↔ ∃ elem, t.at? place = some (.slice elem)
  /-- Arrays are where arrays were, of the same lengths. -/
  arrays : ∀ converted table', ofSource t table = .ok converted table' → ∀ place (length : Int),
    (∃ elem, converted.at? place = some (.array length elem)) ↔
      ∃ (n : Nat) (elem : SourceType), length = n ∧ t.at? place = some (.array n elem)

variable {t : SourceType} {table table' : ImportTable}

theorem ofSource_eq_ok_of_wellFormed (H : table.WellFormed) {converted : SignatureType}
    (h : ofSource t table = .ok converted table') : t.Representable ∧
      converted = t.toSignature table'.qualifier ∧ table' = table.addAll t.packages := by
  have ht := SourceType.representable_of_ofSource t h
  rw [ht.converts H] at h
  cases h
  exact ⟨ht, rfl, rfl⟩

/-- The entries that a run adds to a table. -/
theorem exists_new_addAll (H : table.WellFormed) (run : List String) :
    ∃ new, (table.addAll run).entries = table.entries ++ new ∧ (new.map (·.path)).Nodup ∧
      ∀ path, path ∈ new.map (·.path) ↔ path ≠ "" ∧ path ∉ table.paths ∧ path ∈ run := by
  obtain ⟨new, hnew⟩ := ImportTable.le_addAll table run
  have hpaths : (table.addAll run).paths = table.paths ++ new.map (·.path) := by
    rw [ImportTable.paths, ← hnew, List.map_append, ImportTable.paths]
  have hnodup := (H.addAll run).paths_nodup
  rw [hpaths, List.nodup_append] at hnodup
  obtain ⟨-, hnodup, hdisjoint⟩ := hnodup
  refine ⟨new, hnew.symm, hnodup, fun path => ?_⟩
  have hmem : path ∈ (table.addAll run).paths ↔ path ∈ table.paths ∨ path ∈ run ∧ path ≠ "" :=
    ImportTable.mem_paths_addAll table run
  rw [hpaths, List.mem_append] at hmem
  constructor
  · intro hpath
    have hnot : path ∉ table.paths := fun h => hdisjoint path h path hpath rfl
    obtain ⟨hrun, hne⟩ := (hmem.mp (.inr hpath)).resolve_left hnot
    exact ⟨hne, hnot, hrun⟩
  · rintro ⟨hne, hnot, hrun⟩
    exact (hmem.mpr (.inr ⟨hrun, hne⟩)).resolve_left hnot

theorem aliasOf?_of_le (hle : table ≤ table') {path name : String}
    (h : table.aliasOf? path = some name) : table'.aliasOf? path = some name := by
  obtain ⟨rest, hrest⟩ := hle
  obtain ⟨i, hfind, rfl⟩ := Option.map_eq_some_iff.mp h
  simp [ImportTable.aliasOf?, ← hrest, hfind]

/-- **Conversion.** -/
theorem conversionLaws (t : SourceType) (run : List String) :
    ConversionLaws t (ImportTable.empty.addAll run) := by
  have H := ImportTable.WellFormed.empty.addAll run
  generalize ImportTable.empty.addAll run = table at H
  have hiff : (∃ converted table', ofSource t table = .ok converted table') ↔
      ∀ node : SourceType, node.OccursIn t → node.Fits := by
    rw [← SourceType.representable_iff]
    constructor
    · rintro ⟨_, _, h⟩
      exact SourceType.representable_of_ofSource t h
    · exact fun ht => ⟨_, _, ht.converts H⟩
  have hle := extends_ofSource t table
  constructor
  case converts_iff => exact hiff
  case grows => exact hle
  case refused =>
    intro hnot
    cases h : ofSource t table with
    | ok converted table' => exact absurd (hiff.mp ⟨converted, table', h⟩) hnot
    | error failure table' =>
      obtain ⟨what, rfl⟩ := failsOnly_ofSource t table failure table' h
      exact ⟨what, table', rfl⟩
  case kept =>
    intro name path hpath
    have halias := H.aliasOf?_eq_some_iff.mpr (ImportTable.mem_of_pathOf? hpath)
    exact ⟨ImportTable.pathOf?_of_le hle hpath, (aliasOf?_of_le hle halias).trans halias.symm⟩
  case gained =>
    intro converted table' h
    obtain ⟨ht, -, rfl⟩ := ofSource_eq_ok_of_wellFormed H h
    obtain ⟨new, hnew, hnodup, hpaths⟩ := exists_new_addAll H t.packages
    refine ⟨new, hnew, hnodup, fun path => ?_⟩
    rw [hpaths, SourceType.mem_packages_iff ht]
  case slices =>
    intro converted table' h place
    obtain ⟨ht, rfl, -⟩ := ofSource_eq_ok_of_wellFormed H h
    rw [ht.at?_toSignature]
    cases t.at? place with
    | none => simp
    | some node => simpa using SourceType.toSignature_eq_slice_iff
  case arrays =>
    intro converted table' h place length
    obtain ⟨ht, rfl, -⟩ := ofSource_eq_ok_of_wellFormed H h
    rw [ht.at?_toSignature]
    cases t.at? place with
    | none => simp
    | some node => simpa using SourceType.toSignature_eq_array_iff

end SignatureType

end Interposer
