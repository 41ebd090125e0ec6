import Interposer.Proofs.Wrapper.Receiver

/-! The names at the top level of a file: the aliases of its imports, the wrapper's struct and its
constructor. Which aliases there are is settled before the struct has a name, and only the spelling
of that name is checked. So it may be an alias, or blank, or the name of the constructor's
parameter; nothing else can go wrong (`generate_scope`). -/

namespace Interposer

namespace Wrapper

/-- The name that a declaration has at top level. A blank variable has none, and methods belong to
their types. -/
def TopLevel.name? : TopLevel → Option String
  | .struct _ name _ => some name
  | .var name _ _ => if name = "_" then none else some name
  | .func f => if f.receiver.isNone then some f.name else none

def File.declaredNames (file : File) : List String := file.declarations.filterMap (·.name?)

def File.aliases (file : File) : List String := file.imports.map (·.name)

/-- The names at the top level of a file for the wrapper `typeName`. -/
structure ScopeLaws (typeName : String) (file : File) : Prop where
  declaredNames : file.declaredNames = [typeName, "New" ++ typeName]
  nodup_iff : (file.aliases ++ file.declaredNames).Nodup ↔
    typeName ∉ file.aliases ∧ "New" ++ typeName ∉ file.aliases
  blank_iff : "_" ∈ file.aliases ++ file.declaredNames ↔ typeName = "_"
  /-- A parameter of the constructor hides the struct. -/
  hidden_iff : ∀ f, .func f ∈ file.declarations → f.receiver = none →
    (typeName ∈ f.params.map (·.name) ↔ typeName = wrappedName)
  /-- No alias has an underscore. -/
  nodup_of_underscore : '_' ∈ typeName.toList → (file.aliases ++ file.declaredNames).Nodup

variable {package typeName : String} {i : Interface} {hooks : List Hook} {table : ImportTable}
  {file : File}

theorem declaredNames_of_file (h : Wrapper.file package typeName i hooks table = .ok file) :
    file.declaredNames = [typeName, "New" ++ typeName] := by
  obtain ⟨pairs, -, hdeclarations, -⟩ := file_eq_ok h
  have hmethods : (pairs.map fun pair =>
      TopLevel.func (methodFunction typeName pair.1 pair.2)).filterMap (·.name?) = [] := by
    rw [List.filterMap_map]
    exact List.filterMap_eq_nil_iff.mpr fun _ _ => rfl
  rw [File.declaredNames, hdeclarations, List.filterMap_append, hmethods, List.append_nil]
  rfl

theorem constructor_of_file (h : Wrapper.file package typeName i hooks table = .ok file)
    {f : Function} (hf : .func f ∈ file.declarations) (hreceiver : f.receiver = none) :
    f.params = [⟨wrappedName, i.type⟩] := by
  obtain ⟨pairs, -, hdeclarations, -⟩ := file_eq_ok h
  rw [hdeclarations] at hf
  rcases List.mem_append.mp hf with htype | hmethod
  · simp only [typeDeclarations, List.mem_cons, List.not_mem_nil, or_false, reduceCtorEq,
      false_or, TopLevel.func.injEq] at htype
    rw [htype]
  · obtain ⟨pair, -, heq⟩ := List.mem_map.mp hmethod
    cases heq
    cases hreceiver

theorem ne_append_self (s : String) : s ≠ "New" ++ s := by
  intro heq
  have hlength := congrArg String.length heq
  rw [String.length_append] at hlength
  exact absurd hlength (by simp)

theorem blank_ne_append (s : String) : "_" ≠ "New" ++ s := by
  intro heq
  have hhead := congrArg (·.toList.head?) heq
  simp at hhead

/-- The declared names differ from each other, and so do the aliases. -/
theorem scopeLaws (H : table.WellFormed) (haliases : file.aliases.Nodup)
    (h : Wrapper.file package typeName i hooks table = .ok file) : ScopeLaws typeName file := by
  have hdeclared := declaredNames_of_file h
  have hunderscore : ∀ name ∈ file.aliases, '_' ∉ name.toList := by
    intro name hname
    obtain ⟨entry, hentry, rfl⟩ := List.mem_map.mp hname
    exact H.underscore_not_mem (mem_entries_of_mem_imports h hentry)
  have hnodup : (file.aliases ++ file.declaredNames).Nodup ↔
      typeName ∉ file.aliases ∧ "New" ++ typeName ∉ file.aliases := by
    rw [hdeclared, List.nodup_append']
    simp [haliases, ne_append_self]
  refine ⟨hdeclared, hnodup, ?_, ?_, ?_⟩
  · constructor
    · intro hmem
      rcases List.mem_append.mp hmem with halias | hname
      · exact (hunderscore _ halias (List.mem_singleton_self '_')).elim
      · simpa [hdeclared, blank_ne_append, eq_comm] using hname
    · rintro rfl
      exact List.mem_append_right _ (hdeclared ▸ List.mem_cons_self)
  · intro f hf hreceiver
    rw [constructor_of_file h hf hreceiver]
    exact List.mem_singleton
  · intro hmem
    refine hnodup.mpr ⟨fun halias => hunderscore _ halias hmem, fun halias => ?_⟩
    exact hunderscore _ halias (by simp [hmem])

end Wrapper

namespace Generator

variable {p : Package} {name package typeName text : String} {hooks : List Hook} {g : Generator}

/-- **Top level.** A generated file declares the struct and its constructor. -/
theorem generate_scope (hnew : Generator.new p name hooks = .ok g)
    (hgenerate : g.generate package typeName = .ok text) :
    ∃ file, Wrapper.file package typeName g.interface g.hooks g.imports = .ok file ∧
      file.render = text ∧ Wrapper.ScopeLaws typeName file := by
  obtain ⟨specs, S⟩ := settled_of_new hnew
  obtain ⟨file, hfile, hrender⟩ := generate_eq_ok hgenerate
  have hexact := S.exactImports hfile
  exact ⟨file, hfile, hrender, Wrapper.scopeLaws S.wellFormed hexact.aliasesDistinct hfile⟩

/-- A blank struct, one with the name of a package, and one that is hidden in its constructor. -/
theorem scope_clashes : ∃ g blank clashing hidden, Generator.new shop "Store" [] = .ok g ∧
    Wrapper.file "traced" "_" g.interface g.hooks g.imports = .ok blank ∧
    g.generate "traced" "_" = .ok blank.render ∧
    Wrapper.file "traced" "shop" g.interface g.hooks g.imports = .ok clashing ∧
    g.generate "traced" "shop" = .ok clashing.render ∧
    Wrapper.file "traced" "wrapped" g.interface g.hooks g.imports = .ok hidden ∧
    g.generate "traced" "wrapped" = .ok hidden.render ∧
    "_" ∈ blank.declaredNames ∧
    "shop" ∈ clashing.declaredNames ∧ "shop" ∈ clashing.aliases ∧
    "wrapped" ∈ hidden.declaredNames ∧
      ∃ f, .func f ∈ hidden.declarations ∧ f.name = "Newwrapped" ∧
        "wrapped" ∈ f.params.map (·.name) := by
  refine ⟨_, _, _, _, rfl, rfl, rfl, rfl, rfl, rfl, rfl, .head _, .head _, ?_, .head _, ?_⟩
  · refine List.mem_map.mpr ⟨⟨"shop", "example.com/shop"⟩, List.mem_filter.mpr ⟨?_, ?_⟩, rfl⟩
    · exact (ImportTable.sorted_perm _).mem_iff.mpr (by decide +kernel)
    · decide +kernel
  · exact ⟨_, .tail _ (.tail _ (.head _)), rfl, .head _⟩

end Generator

end Interposer
