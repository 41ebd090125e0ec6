import Interposer.Generator
import Interposer.Proofs.Interface.Introspection
import Interposer.Proofs.SignatureType.Mentions
import Interposer.Proofs.Wrapper.Contributions

/-! Generators, as `Generator.new` makes them: the table has every path that a hook declares or a
method mentions, and the methods have their types under the aliases of that table. -/

namespace Interposer

/-- A converted method mentions nothing but predeclared types and imports of the table. -/
theorem Typed.mem_entries {table : ImportTable} {spec : MethodSpec} {m : Method}
    (H : table.WellFormed) (h : Typed table spec m) {v : Parameter} (hv : v ∈ m.vars)
    {qualifier path name : String} (hmention : v.type.Mentions qualifier path name) :
    qualifier = "" ∧ path = "" ∨ ⟨qualifier, path⟩ ∈ table.entries := by
  have hmem := List.mem_map_of_mem (f := (·.type)) hv
  rw [h.vars] at hmem
  obtain ⟨w, hw, heq⟩ := List.mem_map.mp hmem
  rw [← heq] at hmention
  rcases (h.representable w hw).mentions_toSignature hmention with hnone | ⟨rfl, hpath⟩
  · exact .inl hnone
  by_cases hempty : path = ""
  · exact .inl ⟨hempty ▸ ImportTable.qualifier_empty H, hempty⟩
  · refine .inr (ImportTable.mem_entries_qualifier H (h.entered path ?_ hempty))
    exact MethodSpec.packages_subset hw hpath

namespace Generator

/-- What a generator for the interface `name` of `p` has settled, with the method set of the
interface. -/
structure Settled (p : Package) (name : String) (hooks : List Hook) (g : Generator)
    (specs : List MethodSpec) : Prop where
  sameHooks : g.hooks = hooks
  wellFormed : g.imports.WellFormed
  methodSet : ∃ members, p.resolve name = .ok members ∧ p.methodSet members = .ok specs
  hookPaths : ∀ hook ∈ hooks, ∀ path ∈ hook.imports, path ≠ "" → path ∈ g.imports.paths
  interfacePath : p.path ≠ "" → p.path ∈ g.imports.paths
  interfaceType : g.interface.type = .named (g.imports.qualifier p.path) p.path name
  methods : List.Forall₂ (Typed g.imports) specs g.interface.methods

theorem settled_of_new {p : Package} {name : String} {hooks : List Hook} {g : Generator}
    (h : Generator.new p name hooks = .ok g) : ∃ specs, Settled p name hooks g specs := by
  cases hintrospect : p.introspect name (ImportTable.empty.addAll (hooks.flatMap (·.imports))) with
  | error failure table => rw [Generator.new, hintrospect] at h; cases h
  | ok interface table =>
    rw [Generator.new, hintrospect] at h
    cases h
    have H := ImportTable.WellFormed.empty.addAll (hooks.flatMap (·.imports))
    obtain ⟨members, specs, hresolve, hset, rfl, htype, hmethods⟩ :=
      Package.introspect_typed H hintrospect
    refine ⟨specs, rfl, H.addAll _, ⟨members, hresolve, hset⟩, fun hook hhook path hpath hne => ?_,
      fun hne => ?_, htype, hmethods⟩
    · refine ImportTable.mem_paths_of_le (ImportTable.le_addAll ..) ?_
      refine (ImportTable.mem_paths_addAll ..).mpr (.inr ⟨?_, hne⟩)
      exact List.mem_flatMap.mpr ⟨hook, hhook, hpath⟩
    · exact (ImportTable.mem_paths_addAll ..).mpr (.inr ⟨List.mem_cons_self, hne⟩)

theorem isIdentifier_of_generate {g : Generator} {package typeName text : String}
    (h : g.generate package typeName = .ok text) :
    isIdentifier package = true ∧ isIdentifier typeName = true := by
  rw [generate] at h
  cases hpackage : isIdentifier package with
  | false => rw [hpackage] at h; cases h
  | true =>
    cases htype : isIdentifier typeName with
    | false => rw [hpackage, htype] at h; cases h
    | true => exact ⟨rfl, rfl⟩

/-- With names that can be used, generating fails only where the file of the wrapper does. -/
theorem generate_eq_map (g : Generator) {package typeName : String}
    (hpackage : isIdentifier package = true) (htype : isIdentifier typeName = true) :
    g.generate package typeName =
      (Wrapper.file package typeName g.interface g.hooks g.imports).map Wrapper.File.render := by
  rw [generate, hpackage, htype]
  cases Wrapper.file package typeName g.interface g.hooks g.imports <;> rfl

/-- Generating writes the file of the wrapper. -/
theorem generate_eq_ok {g : Generator} {package typeName text : String}
    (h : g.generate package typeName = .ok text) :
    ∃ file, Wrapper.file package typeName g.interface g.hooks g.imports = .ok file ∧
      file.render = text := by
  obtain ⟨hpackage, htype⟩ := isIdentifier_of_generate h
  rw [generate, hpackage, htype] at h
  obtain ⟨file, hfile, h⟩ := Wrapper.bind_eq_ok.mp h
  cases h
  exact ⟨file, hfile, rfl⟩

end Generator

end Interposer
