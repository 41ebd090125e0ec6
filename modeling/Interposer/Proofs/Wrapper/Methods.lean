import Interposer.Proofs.Interface.Flattening
import Interposer.Proofs.SignatureType.Resolution
import Interposer.Proofs.Wrapper.Body
import Interposer.Proofs.Wrapper.Imports

/-! The methods of a generated file. There is one for every method of the interface. Its header,
read with the imports of the file, is the signature that the interface declares, and its body hands
all parameters on to the wrapped value and all results back to the caller. -/

namespace Interposer

/-- The type of the method as a function. -/
def MethodSpec.signature (spec : MethodSpec) : SourceType :=
  .func spec.params spec.results spec.variadic

namespace Wrapper

/-- The method that a function declares. -/
def Function.method (f : Function) : Method := ⟨f.name, f.params, f.results, f.variadic⟩

/-- The type that the header of a function declares. -/
def Function.signature (f : Function) : SignatureType :=
  .func (f.params.map (·.type)) (f.results.map (·.type)) f.variadic

/-- The function is a method of the wrapper that stands for `spec`. -/
structure Forwards (typeName : String) (imports : List Import) (g : Generator) (spec : MethodSpec)
    (f : Function) : Prop where
  name : f.name = spec.name
  /-- References are ambiguous only if a package is imported under an empty name. -/
  signature : (∀ entry ∈ imports, defaultAlias entry.path ≠ "") →
    f.signature.resolve imports = some spec.signature.canonical
  /-- No parameter or result hides the receiver, so the call is one of the wrapped value. -/
  body : ∃ receiver before after,
    f.receiver = some ⟨receiver, .pointer (.predeclared typeName)⟩ ∧
    receiver ∉ f.method.variableNames ∧
    f.body = before ++ .raw (forwardingCall receiver f.method).text ::
      (after ++ returnOf f.results) ∧
    ∀ s ∈ before ++ after, Added (HookCode g.hooks f.method g.imports) s

/-- The function makes a wrapper around a value of the type. -/
structure Constructs (typeName : String) (type : SignatureType) (f : Function) : Prop where
  name : f.name = "New" ++ typeName
  receiver : f.receiver = none
  params : f.params = [⟨wrappedName, type⟩]
  results : f.results = [⟨"", .pointer (.predeclared typeName)⟩]
  body : f.body =
    [.returns ["&" ++ typeName ++ "\x7b" ++ wrappedName ++ ": " ++ wrappedName ++ "\x7d"]]

/-- The declarations of a file: a struct around a value of the interface's type, the assertion that
it implements the interface, its constructor, and then a method for each of `specs`. -/
structure Implements (typeName : String) (g : Generator) (specs : List MethodSpec) (file : File)
    (methods : List Function) : Prop where
  declarations : ∃ doc constructor, file.declarations =
      .struct doc typeName [⟨wrappedName, g.interface.type⟩] ::
      .var "_" (some g.interface.type) ("(*" ++ typeName ++ ")(nil)") ::
      .func constructor :: methods.map .func ∧
    Constructs typeName g.interface.type constructor
  methods : List.Forall₂ (Forwards typeName file.imports g) specs methods

theorem Implements.names {typeName : String} {g : Generator} {specs : List MethodSpec} {file : File}
    {methods : List Function} (h : Implements typeName g specs file methods) :
    methods.map (·.name) = specs.map (·.name) := by
  rw [← List.forall₂_eq_eq_eq, List.forall₂_map_left_iff, List.forall₂_map_right_iff]
  exact h.methods.flip.imp fun _ _ hforwards => hforwards.name

theorem mem_types_of_mem {file : File} {f : Function} (hf : .func f ∈ file.declarations)
    {v : Parameter} (hv : v ∈ f.params ++ f.results) : v.type ∈ file.types := by
  refine List.mem_flatMap.mpr ⟨.func f, hf, List.mem_map_of_mem ?_⟩
  rw [List.append_assoc]
  exact List.mem_append_right _ hv

end Wrapper

theorem Typed.signature {table : ImportTable} {spec : MethodSpec} {m : Method}
    (h : Typed table spec m) : SignatureType.func (m.params.map (·.type)) (m.results.map (·.type))
      m.variadic = spec.signature.toSignature table.qualifier := by
  rw [MethodSpec.signature, SourceType.toSignature, SourceType.toSignatures_eq,
    SourceType.toSignatures_eq, h.params, h.results, h.variadic]

theorem Typed.representable_signature {table : ImportTable} {spec : MethodSpec} {m : Method}
    (h : Typed table spec m) : spec.signature.Representable := by
  obtain ⟨hparams, hresults⟩ := List.forall_mem_append.mp h.representable
  exact .func hparams hresults

namespace Generator

variable {p : Package} {name : String} {hooks : List Hook} {g : Generator}
  {specs : List MethodSpec} {package typeName text : String} {file : Wrapper.File}

namespace Settled

/-- The imports of a file resolve all types in it, unless one of them has an empty name. -/
theorem resolvedBy (S : Settled p name hooks g specs)
    (h : Wrapper.file package typeName g.interface g.hooks g.imports = .ok file)
    (hdefault : ∀ entry ∈ file.imports, defaultAlias entry.path ≠ "") {t : SignatureType}
    (ht : t ∈ file.types) : t.ResolvedBy file.imports := by
  intro qualifier path type hmention
  by_cases hempty : qualifier = "" ∧ path = ""
  · exact .inl hempty
  have hmem := S.mem_imports_of_mentions h ht hmention (not_and_or.mp hempty)
  have hentry := ((S.mem_imports_iff h).mp hmem).1
  exact .inr ⟨S.wellFormed.name_ne_empty hentry (hdefault _ hmem),
    S.wellFormed.nonempty _ hentry, hmem⟩

theorem forwards (S : Settled p name hooks g specs)
    (h : Wrapper.file package typeName g.interface g.hooks g.imports = .ok file)
    {spec : MethodSpec} {m : Method} (htyped : Typed g.imports spec m) {f : Wrapper.Fragments}
    (hf : Wrapper.fragments m g.imports g.hooks = .ok f)
    (hmem : .func (Wrapper.methodFunction typeName m f) ∈ file.declarations) :
    Wrapper.Forwards typeName file.imports g spec (Wrapper.methodFunction typeName m f) := by
  refine ⟨htyped.name, fun hdefault => ?_, ?_⟩
  · have hsignature : (Wrapper.methodFunction typeName m f).signature =
        spec.signature.toSignature g.imports.qualifier := htyped.signature
    rw [hsignature]
    refine htyped.representable_signature.resolve_toSignature (S.exactImports h).aliasesDistinct ?_
    rw [← hsignature]
    refine .func fun t ht => S.resolvedBy h hdefault ?_
    rw [← List.map_append] at ht
    obtain ⟨v, hv, rfl⟩ := List.mem_map.mp ht
    exact Wrapper.mem_types_of_mem hmem hv
  · obtain ⟨before, after, hbody, hadded⟩ :=
      Wrapper.methodBody_eq hf (Wrapper.receiverName typeName m)
    exact ⟨_, before, after, rfl, freshBefore_not_mem m.variableNames _, hbody, hadded⟩

theorem implements (S : Settled p name hooks g specs)
    (h : Wrapper.file package typeName g.interface g.hooks g.imports = .ok file) :
    ∃ methods, Wrapper.Implements typeName g specs file methods := by
  obtain ⟨pairs, hpairs, hdeclarations, -⟩ := Wrapper.file_eq_ok h
  obtain ⟨hmethods, hfragments⟩ := Wrapper.instrument_eq_ok hpairs
  have htyped := S.methods
  rw [← hmethods, List.forall₂_map_right_iff] at htyped
  have hfunctions : file.declarations = Wrapper.typeDeclarations typeName g.interface.type ++
      (pairs.map fun pair => Wrapper.methodFunction typeName pair.1 pair.2).map .func := by
    rw [hdeclarations, List.map_map]
    rfl
  refine ⟨_, ⟨_, _, hfunctions, rfl, rfl, rfl, rfl, rfl⟩, ?_⟩
  rw [List.forall₂_map_right_iff]
  have hboth := (List.forall₂_and_left pairs specs).mpr ⟨fun pair hpair => hpair, htyped.flip⟩
  refine hboth.flip.imp fun spec pair ⟨hpair, htyped⟩ => ?_
  refine S.forwards h htyped (hfragments pair hpair) ?_
  rw [hdeclarations]
  exact List.mem_append_right _ (List.mem_map_of_mem hpair)

end Settled

/-- A generated file implements the interface by forwarding each of its methods: those that its
members stand for, at any depth, the first of each name. -/
theorem generate_methods (hnew : Generator.new p name hooks = .ok g)
    (hgenerate : g.generate package typeName = .ok text) :
    ∃ members specs, p.resolve name = .ok members ∧ p.methodSet members = .ok specs ∧
      (∃ expansion, (∀ methods, p.Expansion members methods ↔ methods = expansion) ∧
        specs = expansion.foldl addNew []) ∧
      (specs.map (·.name)).Nodup ∧
      ∃ file methods, Wrapper.file package typeName g.interface g.hooks g.imports = .ok file ∧
        file.render = text ∧ Wrapper.Implements typeName g specs file methods := by
  obtain ⟨specs, S⟩ := settled_of_new hnew
  obtain ⟨file, hfile, hrender⟩ := generate_eq_ok hgenerate
  obtain ⟨methods, himplements⟩ := S.implements hfile
  obtain ⟨members, hresolve, hset⟩ := S.methodSet
  exact ⟨members, specs, hresolve, hset, Package.expansion_of_methodSet hset,
    p.nodup_methodSet hset, file, methods, hfile, hrender, himplements⟩

/-- The method of the embedded interface comes before the store's own one. -/
theorem generate_shop_methods : ∃ g text, Generator.new shop "Store" [Sentry.hook {}] = .ok g ∧
    g.generate "traced" "Store" = .ok text ∧
    ∃ members specs, shop.resolve "Store" = .ok members ∧ shop.methodSet members = .ok specs ∧
      (∃ expansion, (∀ methods, shop.Expansion members methods ↔ methods = expansion) ∧
        specs = expansion.foldl addNew []) ∧
      (specs.map (·.name)).Nodup ∧
      ∃ file methods, Wrapper.file "traced" "Store" g.interface g.hooks g.imports = .ok file ∧
        file.render = text ∧ Wrapper.Implements "Store" g specs file methods ∧
        methods.map (·.name) = ["Find", "Put"] ∧
        ∀ entry ∈ file.imports, defaultAlias entry.path ≠ "" := by
  obtain ⟨g, text, hnew, hgenerate, hdefault⟩ : ∃ g text,
      Generator.new shop "Store" [Sentry.hook {}] = .ok g ∧
      g.generate "traced" "Store" = .ok text ∧
      ∀ entry ∈ g.imports.entries, defaultAlias entry.path ≠ "" :=
    ⟨_, _, rfl, rfl, by decide +kernel⟩
  obtain ⟨members, specs, hresolve, hset, hexpansion, hnodup, file, methods, hfile, hrender,
    himplements⟩ := generate_methods hnew hgenerate
  have hnames : methods.map (·.name) = ["Find", "Put"] := by
    rw [himplements.names]
    cases hresolve
    cases hset
    rfl
  refine ⟨g, text, hnew, hgenerate, members, specs, hresolve, hset, hexpansion, hnodup, file,
    methods, hfile, hrender, himplements, hnames, fun entry hentry => hdefault entry ?_⟩
  exact g.imports.sorted_perm.mem_iff.mp ((Wrapper.imports_sublist hfile).subset hentry)

end Generator

end Interposer
