import Interposer.Hook.Sentry
import Interposer.Proofs.Generator

/-! The imports of a generated file. What is imported is collected from the types of the file and
from the hooks that contributed to it; the aliases were settled before, in the table of the
generator. The two agree: nothing is missing, nothing is left over, and every reference is written
with the alias that its import declares. -/

namespace Interposer

namespace Wrapper

/-- The types that a declaration writes. -/
def TopLevel.types : TopLevel → List SignatureType
  | .struct _ _ fields => fields.map (·.type)
  | .var _ type _ => type.toList
  | .func f => (f.receiver.toList ++ f.params ++ f.results).map (·.type)

def File.types (file : File) : List SignatureType := file.declarations.flatMap (·.types)

/-- The stages of writing a file. -/
theorem file_eq_ok {package typeName : String} {i : Interface} {hooks : List Hook}
    {table : ImportTable} {file : File}
    (h : Wrapper.file package typeName i hooks table = .ok file) :
    ∃ pairs, instrument table hooks i.methods = .ok pairs ∧
      file.declarations = typeDeclarations typeName i.type ++
        pairs.map (fun pair => .func (methodFunction typeName pair.1 pair.2)) ∧
      file.imports = table.sorted.filter
        ((i.type.paths ++
          pairs.flatMap fun pair => methodPaths pair.1 pair.2).contains ·.path) := by
  obtain ⟨pairs, hpairs, h⟩ := bind_eq_ok.mp h
  cases h
  exact ⟨pairs, hpairs, rfl, rfl⟩

/-- The methods of an interface make the file refer to the path: it is mentioned in the type of a
parameter or result, or a hook that contributes to a method declares it. -/
def UsedByMethods (i : Interface) (hooks : List Hook) (table : ImportTable) (path : String) :
    Prop :=
  (∃ m ∈ i.methods, ∃ v ∈ m.params ++ m.results, ∃ qualifier name,
      v.type.Mentions qualifier path name) ∨
    ∃ m ∈ i.methods, ∃ hook ∈ hooks, Contributes hook m table ∧ path ∈ hook.imports

theorem mem_methodPaths {m : Method} {f : Fragments} {hooks : List Hook} {table : ImportTable}
    {path : String} (h : fragments m table hooks = .ok f) (hpath : path ≠ "") :
    path ∈ methodPaths m f ↔
      (∃ v ∈ m.params ++ m.results, ∃ qualifier name, v.type.Mentions qualifier path name) ∨
        ∃ hook ∈ hooks, Contributes hook m table ∧ path ∈ hook.imports := by
  rw [methodPaths, List.mem_append, SignatureType.pathsOfAll_eq, List.mem_flatMap,
    List.mem_flatMap]
  refine or_congr ?_ ?_
  · constructor
    · rintro ⟨t, ht, hmem⟩
      obtain ⟨v, hv, rfl⟩ := List.mem_map.mp ht
      exact ⟨v, hv, (SignatureType.mem_paths_iff.mp hmem).2⟩
    · rintro ⟨v, hv, hmention⟩
      exact ⟨v.type, List.mem_map_of_mem hv, SignatureType.mem_paths_iff.mpr ⟨hpath, hmention⟩⟩
  · constructor
    · rintro ⟨hook, hhook, hmem⟩
      obtain ⟨hhook, hcontributes⟩ := (mem_fragments_hooks h).mp hhook
      exact ⟨hook, hhook, hcontributes, hmem⟩
    · rintro ⟨hook, hhook, hcontributes, hmem⟩
      exact ⟨hook, (mem_fragments_hooks h).mpr ⟨hhook, hcontributes⟩, hmem⟩

/-- A file imports those entries of the table that it needs. -/
theorem mem_imports {package typeName : String} {i : Interface} {hooks : List Hook}
    {table : ImportTable} {file : File} (H : table.WellFormed)
    (h : Wrapper.file package typeName i hooks table = .ok file) {entry : Import} :
    entry ∈ file.imports ↔ entry ∈ table.entries ∧
      ((∃ qualifier name, i.type.Mentions qualifier entry.path name) ∨
        UsedByMethods i hooks table entry.path) := by
  obtain ⟨pairs, hpairs, -, himports⟩ := file_eq_ok h
  rw [himports, List.mem_filter, table.sorted_perm.mem_iff]
  refine and_congr_right fun hentry => ?_
  have hne := H.nonempty entry hentry
  have hmethods := exists_instrumented_iff hpairs (P := fun m f => entry.path ∈ methodPaths m f)
    fun m f hf => mem_methodPaths hf hne
  rw [List.contains_iff_mem, List.mem_append, List.mem_flatMap, SignatureType.mem_paths_iff,
    and_iff_right hne, hmethods]
  simp only [UsedByMethods, and_or_left, exists_or]

/-- The imports of a file are a part of the sorted table. -/
theorem imports_sublist {package typeName : String} {i : Interface} {hooks : List Hook}
    {table : ImportTable} {file : File}
    (h : Wrapper.file package typeName i hooks table = .ok file) :
    file.imports.Sublist table.sorted := by
  obtain ⟨pairs, -, -, himports⟩ := file_eq_ok h
  rw [himports]
  exact List.filter_sublist

theorem mem_entries_of_mem_imports {package typeName : String} {i : Interface} {hooks : List Hook}
    {table : ImportTable} {file : File} (h : Wrapper.file package typeName i hooks table = .ok file)
    {entry : Import} (hentry : entry ∈ file.imports) : entry ∈ table.entries :=
  table.sorted_perm.mem_iff.mp ((imports_sublist h).subset hentry)

/-- The types of a file are those of the interface, of the wrapper and of the methods. -/
theorem mem_types {package typeName : String} {i : Interface} {hooks : List Hook}
    {table : ImportTable} {file : File} (h : Wrapper.file package typeName i hooks table = .ok file)
    {t : SignatureType} (ht : t ∈ file.types) :
    t = i.type ∨ t = .pointer (.predeclared typeName) ∨
      ∃ m ∈ i.methods, ∃ v ∈ m.params ++ m.results, v.type = t := by
  obtain ⟨pairs, hpairs, hdeclarations, -⟩ := file_eq_ok h
  rw [File.types, hdeclarations, List.flatMap_append, List.mem_append] at ht
  rcases ht with ht | ht
  · simp only [typeDeclarations, TopLevel.types, List.flatMap_cons, List.flatMap_nil,
      List.map_cons, List.map_nil, Option.toList_some, Option.toList_none, List.cons_append,
      List.nil_append, List.append_nil, List.mem_cons, List.not_mem_nil, or_false] at ht
    rcases ht with ht | ht | ht | ht
    · exact .inl ht
    · exact .inl ht
    · exact .inl ht
    · exact .inr (.inl ht)
  · obtain ⟨d, hd, ht⟩ := List.mem_flatMap.mp ht
    obtain ⟨pair, hpair, rfl⟩ := List.mem_map.mp hd
    obtain ⟨v, hv, rfl⟩ := List.mem_map.mp ht
    simp only [methodFunction, Option.toList_some, List.cons_append, List.nil_append,
      List.mem_cons] at hv
    rcases hv with rfl | hv
    · exact .inr (.inl rfl)
    · refine .inr (.inr ?_)
      exact (exists_instrumented_iff hpairs
        (P := fun m _ => ∃ w ∈ m.params ++ m.results, w.type = v.type)
        fun _ _ _ => Iff.rfl).mp ⟨pair, hpair, v, hv, rfl⟩

/-! ## The imports of a generated file -/

/-- The import block of a file is what the file needs, under the aliases of the generator. -/
structure ExactImports (p : Package) (g : Generator) (file : File) : Prop where
  paths : ∀ path, path ∈ file.imports.map (·.path) ↔
    path ≠ "" ∧ (path = p.path ∨ UsedByMethods g.interface g.hooks g.imports path)
  aliases : ∀ entry ∈ file.imports, g.imports.aliasOf? entry.path = some entry.name
  increasing : (file.imports.map (·.path)).Pairwise (· < ·)
  pathsDistinct : (file.imports.map (·.path)).Nodup
  aliasesDistinct : (file.imports.map (·.name)).Nodup
  /-- Every reference in a type is written with the alias that the block declares for its path. -/
  types : ∀ t ∈ file.types, ∀ qualifier path name, t.Mentions qualifier path name →
    qualifier ≠ "" ∨ path ≠ "" → ⟨qualifier, path⟩ ∈ file.imports
  /-- So is every reference in a fragment whose hook asks for the alias. -/
  hooks : ∀ m ∈ g.interface.methods, ∀ hook ∈ g.hooks, Contributes hook m g.imports →
    ∀ path ∈ hook.imports, path ≠ "" →
      ∃ name, g.imports.aliasOf? path = some name ∧ ⟨name, path⟩ ∈ file.imports

end Wrapper

namespace Generator

variable {p : Package} {name : String} {hooks : List Hook} {g : Generator}
  {specs : List MethodSpec} {package typeName text path : String} {file : Wrapper.File}

namespace Settled

/-- A type of a method mentions nothing but predeclared types and imports of the table. -/
theorem mem_entries (S : Settled p name hooks g specs) {m : Method} (hm : m ∈ g.interface.methods)
    {v : Parameter} (hv : v ∈ m.params ++ m.results) {qualifier type : String}
    (hmention : v.type.Mentions qualifier path type) :
    qualifier = "" ∧ path = "" ∨ ⟨qualifier, path⟩ ∈ g.imports.entries := by
  obtain ⟨i, rfl⟩ := List.mem_iff_get.mp hm
  obtain ⟨hlength, htyped⟩ := List.forall₂_iff_get.mp S.methods
  exact (htyped i (hlength.symm ▸ i.isLt) i.isLt).mem_entries S.wellFormed hv hmention

/-- What the methods refer to was entered. -/
theorem mem_paths_of_used (S : Settled p name hooks g specs)
    (hused : Wrapper.UsedByMethods g.interface g.hooks g.imports path) (hpath : path ≠ "") :
    path ∈ g.imports.paths := by
  rcases hused with ⟨m, hm, v, hv, qualifier, type, hmention⟩ | ⟨m, -, hook, hhook, -, himport⟩
  · rcases S.mem_entries hm hv hmention with ⟨-, hempty⟩ | hentry
    · exact (hpath hempty).elim
    · exact ImportTable.mem_paths_iff.mpr ⟨qualifier, hentry⟩
  · exact S.hookPaths hook (S.sameHooks ▸ hhook) path himport hpath

/-- The only package that the interface's type mentions is its own. -/
theorem mentions_type_iff (S : Settled p name hooks g specs) :
    (∃ qualifier type, g.interface.type.Mentions qualifier path type) ↔ path = p.path := by
  rw [S.interfaceType]
  constructor
  · rintro ⟨qualifier, type, ⟨⟩⟩
    rfl
  · rintro rfl
    exact ⟨_, _, .named⟩

theorem mem_imports_iff (S : Settled p name hooks g specs)
    (h : Wrapper.file package typeName g.interface g.hooks g.imports = .ok file) {entry : Import} :
    entry ∈ file.imports ↔ entry ∈ g.imports.entries ∧
      (entry.path = p.path ∨ Wrapper.UsedByMethods g.interface g.hooks g.imports entry.path) := by
  rw [Wrapper.mem_imports S.wellFormed h, S.mentions_type_iff]

/-- Nothing that the file needs is missing: it is in the table, from which imports are chosen. -/
theorem mem_map_path_imports_iff (S : Settled p name hooks g specs)
    (h : Wrapper.file package typeName g.interface g.hooks g.imports = .ok file) :
    path ∈ file.imports.map (·.path) ↔
      path ≠ "" ∧ (path = p.path ∨ Wrapper.UsedByMethods g.interface g.hooks g.imports path) := by
  constructor
  · intro hpath
    obtain ⟨entry, hentry, rfl⟩ := List.mem_map.mp hpath
    obtain ⟨hentry, hneeded⟩ := (S.mem_imports_iff h).mp hentry
    exact ⟨S.wellFormed.nonempty entry hentry, hneeded⟩
  · rintro ⟨hne, hneeded⟩
    have hpath : path ∈ g.imports.paths := by
      rcases hneeded with rfl | hused
      · exact S.interfacePath hne
      · exact S.mem_paths_of_used hused hne
    obtain ⟨qualifier, hentry⟩ := ImportTable.mem_paths_iff.mp hpath
    exact List.mem_map.mpr ⟨⟨qualifier, path⟩, (S.mem_imports_iff h).mpr ⟨hentry, hneeded⟩, rfl⟩

/-- What a type of the file mentions is imported under that alias. -/
theorem mem_imports_of_mentions (S : Settled p name hooks g specs)
    (h : Wrapper.file package typeName g.interface g.hooks g.imports = .ok file)
    {t : SignatureType} (ht : t ∈ file.types) {qualifier type : String}
    (hmention : t.Mentions qualifier path type) (hne : qualifier ≠ "" ∨ path ≠ "") :
    ⟨qualifier, path⟩ ∈ file.imports := by
  rw [S.mem_imports_iff h]
  rcases Wrapper.mem_types h ht with rfl | rfl | ⟨m, hm, v, hv, rfl⟩
  · rw [S.interfaceType] at hmention
    cases hmention
    have hpath : p.path ≠ "" := fun hempty => by
      rw [hempty, ImportTable.qualifier_empty S.wellFormed] at hne
      exact hne.elim (· rfl) (· rfl)
    exact ⟨ImportTable.mem_entries_qualifier S.wellFormed (S.interfacePath hpath), .inl rfl⟩
  · cases hmention with
    | pointer hmention => cases hmention; exact (hne.elim (· rfl) (· rfl)).elim
  · refine ⟨(S.mem_entries hm hv hmention).resolve_left fun hempty => ?_,
      .inr (.inl ⟨m, hm, v, hv, qualifier, type, hmention⟩)⟩
    exact hne.elim (· hempty.1) (· hempty.2)

theorem exactImports (S : Settled p name hooks g specs)
    (h : Wrapper.file package typeName g.interface g.hooks g.imports = .ok file) :
    Wrapper.ExactImports p g file := by
  have hsublist := Wrapper.imports_sublist h
  have hincreasing : (file.imports.map (·.path)).Pairwise (· < ·) :=
    List.pairwise_map.mpr (S.wellFormed.sorted_strict.sublist hsublist)
  refine ⟨fun path => S.mem_map_path_imports_iff h, fun entry hentry => ?_, hincreasing,
    hincreasing.imp ne_of_lt, ?_, fun t ht _ _ _ => S.mem_imports_of_mentions h ht, ?_⟩
  · exact S.wellFormed.aliasOf?_eq_some_iff.mpr ((S.mem_imports_iff h).mp hentry).1
  · refine (hsublist.map Import.name).nodup ?_
    exact (g.imports.sorted_perm.map Import.name).nodup_iff.mpr S.wellFormed.nodup
  · intro m hm hook hhook hcontributes path himport hne
    have hused : Wrapper.UsedByMethods g.interface g.hooks g.imports path :=
      .inr ⟨m, hm, hook, hhook, hcontributes, himport⟩
    obtain ⟨qualifier, hentry⟩ := ImportTable.mem_paths_iff.mp (S.mem_paths_of_used hused hne)
    exact ⟨qualifier, S.wellFormed.aliasOf?_eq_some_iff.mpr hentry,
      (S.mem_imports_iff h).mpr ⟨hentry, .inr hused⟩⟩

end Settled

end Generator

end Interposer
