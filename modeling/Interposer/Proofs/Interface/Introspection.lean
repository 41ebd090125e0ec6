import Interposer.Interface
import Interposer.Proofs.Interface.Naming

/-! What introspection finds. The methods of an interface are those of its method set, each with the
types of its declaration under the aliases of the final table, and with names that hide neither
imports nor each other. -/

namespace Interposer

open Importing

/-- A method set has one method of a name. -/
theorem Package.nodup_methodSet {p : Package} {members : List Member} {specs : List MethodSpec}
    (h : p.methodSet members = .ok specs) : (specs.map (·.name)).Nodup := by
  have hfirst : ∀ specs, ((firstOfEachName specs).map (·.name)).Nodup := by
    intro specs
    induction specs with
    | nil => exact List.nodup_nil
    | cons m rest ih =>
      rw [firstOfEachName, List.map_cons, List.nodup_cons]
      refine ⟨fun hmem => ?_, (List.filter_sublist.map _).nodup ih⟩
      obtain ⟨m', hm', hname⟩ := List.mem_map.mp hmem
      have hne := (List.mem_filter.mp hm').2
      simp [hname] at hne
  cases hexpand : expandMembers (p.expandEmbedded (maxDepth + 1)) members with
  | error failure => rw [methodSet, hexpand] at h; cases h
  | ok methods => rw [methodSet, hexpand] at h; cases h; exact hfirst methods

theorem methodsOfSpecs_eq_ok {specs : List MethodSpec} {methods : List Method}
    {table table' : ImportTable} (h : methodsOfSpecs specs table = .ok methods table') :
    List.Forall₂ (fun spec m => ∃ table₁ table₂, Method.ofSpec spec table₁ = .ok m table₂)
      specs methods := by
  induction specs generalizing table methods with
  | nil =>
    obtain ⟨rfl, -⟩ := pure_eq_ok.mp h
    exact .nil
  | cons spec rest ih =>
    obtain ⟨m, table₁, hspec, h⟩ := bind_eq_ok.mp h
    obtain ⟨methods', table₂, hrest, h⟩ := bind_eq_ok.mp h
    obtain ⟨rfl, rfl⟩ := pure_eq_ok.mp h
    exact .cons ⟨_, _, hspec⟩ (ih hrest)

/-- The stages of an introspection that succeeds. -/
theorem Package.introspect_eq_ok {p : Package} {name : String} {table table' : ImportTable}
    {i : Interface} (h : p.introspect name table = .ok i table') :
    ∃ members specs methods, p.resolve name = .ok members ∧ p.methodSet members = .ok specs ∧
      methodsOfSpecs specs (table.add p.path).2 = .ok methods table' ∧
      i.type = .named (table.add p.path).1 p.path name ∧
      i.methods = methods.map (·.avoidAliases table') := by
  obtain ⟨members, _, hmembers, h⟩ := bind_eq_ok.mp h
  obtain ⟨hresolve, rfl⟩ := ofExcept_eq_ok.mp hmembers
  obtain ⟨qualifier, _, hadd, h⟩ := bind_eq_ok.mp h
  rw [importing_eq_ok] at hadd
  obtain ⟨specs, _, hspecs, h⟩ := bind_eq_ok.mp h
  obtain ⟨hset, rfl⟩ := ofExcept_eq_ok.mp hspecs
  obtain ⟨methods, _, hmethods, h⟩ := bind_eq_ok.mp h
  obtain ⟨_, _, hget, h⟩ := bind_eq_ok.mp h
  cases hget
  obtain ⟨rfl, rfl⟩ := pure_eq_ok.mp h
  rw [hadd]
  exact ⟨members, specs, methods, hresolve, hset, hmethods, rfl, rfl⟩

/-! ## Names -/

/-- The name of a variable is the declared one if that is neither blank nor an alias. -/
def KeepsName (table : ImportTable) (declared : Variable) (v : Parameter) : Prop :=
  declared.name ≠ "" → declared.name ≠ "_" → table.pathOf? declared.name = none →
    v.name = declared.name

/-- The names of a method can be used in a body that refers to the imports of `table`. -/
structure WellNamed (table : ImportTable) (spec : MethodSpec) (m : Method) : Prop where
  nonblank : ∀ v ∈ m.vars, v.name ≠ "" ∧ v.name ≠ "_"
  unshadowing : ∀ v ∈ m.vars, table.pathOf? v.name = none
  nodup : (((spec.params ++ spec.results).map (·.name)).filter
    fun name => name ≠ "" ∧ name ≠ "_").Nodup → m.variableNames.Nodup
  params : List.Forall₂ (KeepsName table) spec.params m.params
  results : List.Forall₂ (KeepsName table) spec.results m.results

theorem isUnshadowing_iff {table : ImportTable} {name : String} :
    isUnshadowing table.aliases name = true ↔
      (name ≠ "" ∧ name ≠ "_") ∧ table.pathOf? name = none := by
  rw [isUnshadowing, Bool.and_eq_true, Bool.not_eq_true', isBlankName_eq_false_iff,
    ImportTable.pathOf?_eq_none_iff]
  simp

theorem declaredNames_eq (vars : List Variable) :
    declaredNames vars = (vars.map (·.name)).filter fun name => name ≠ "" ∧ name ≠ "_" :=
  List.filter_congr fun name _ => by rw [Bool.eq_iff_iff]; simp [isBlankName]

/-- Names that come through both passes of naming. -/
theorem keepsName_of_relabelled {table : ImportTable} {vars : List Variable}
    {filled changed : List Parameter} {taken taken' avoid avoid' : List String}
    (hfilled : Relabelled (!isBlankName ·) taken (vars.map (·.name)) (filled.map (·.name)) taken')
    (hchanged : Relabelled (isUnshadowing table.aliases) avoid (filled.map (·.name))
      (changed.map (·.name)) avoid') : List.Forall₂ (KeepsName table) vars changed := by
  have hsame := hfilled.same_of_keep_keep hchanged
  rw [List.forall₂_map_left_iff, List.forall₂_map_right_iff] at hsame
  refine hsame.imp fun declared v hkeep hempty hblank halias => hkeep ?_ ?_
  · simpa using isBlankName_eq_false_iff.mpr ⟨hempty, hblank⟩
  · exact isUnshadowing_iff.mpr ⟨⟨hempty, hblank⟩, halias⟩

theorem Method.ofSpec_wellNamed {spec : MethodSpec} {m : Method} {table₁ table₂ : ImportTable}
    (h : Method.ofSpec spec table₁ = .ok m table₂) (table : ImportTable) :
    WellNamed table spec (m.avoidAliases table) := by
  obtain ⟨-, -, -, _, _, hparams, hresults⟩ := Method.ofSpec_eq_ok h
  have hfilled := hparams.append hresults
  rw [← List.map_append, ← List.map_append] at hfilled
  have hblank : ∀ v ∈ m.vars, isBlankName v.name = false := fun v hv => by
    simpa using hfilled.keep_of_mem _ (List.mem_map_of_mem hv)
  obtain ⟨_, _, hparams', hresults'⟩ := Method.avoidAliases_names table hblank
  have hchanged := hparams'.append hresults'
  rw [← List.map_append, ← List.map_append] at hchanged
  have husable : ∀ v ∈ (m.avoidAliases table).vars,
      (v.name ≠ "" ∧ v.name ≠ "_") ∧ table.pathOf? v.name = none := fun v hv =>
    isUnshadowing_iff.mp (hchanged.keep_of_mem _ (List.mem_map_of_mem hv))
  refine ⟨fun v hv => (husable v hv).1, fun v hv => (husable v hv).2, fun hdeclared => ?_,
    keepsName_of_relabelled hparams hparams', keepsName_of_relabelled hresults hresults'⟩
  rw [← declaredNames_eq] at hdeclared
  have hnodup : m.variableNames.Nodup := hfilled.nodup (List.Subset.refl _) hdeclared
  exact hchanged.nodup (List.filter_subset_self _) (hnodup.filter _)

/-- **Names of an introspected interface.** Whatever table introspection starts with, all names of
all methods are usable next to the imports of the table that it ends with. -/
theorem introspect_wellNamed {p : Package} {name : String} {table table' : ImportTable}
    {i : Interface} (h : p.introspect name table = .ok i table') :
    ∃ members specs, p.resolve name = .ok members ∧ p.methodSet members = .ok specs ∧
      List.Forall₂ (WellNamed table') specs i.methods := by
  obtain ⟨members, specs, methods, hresolve, hset, hmethods, -, heq⟩ := p.introspect_eq_ok h
  refine ⟨members, specs, hresolve, hset, ?_⟩
  rw [heq, List.forall₂_map_right_iff]
  refine (methodsOfSpecs_eq_ok hmethods).imp fun spec m ⟨_, _, hspec⟩ => ?_
  exact Method.ofSpec_wellNamed hspec table'

/-- A package with an interface whose parameters are named like imports. -/
def shop : Package where
  name := "shop"
  path := "example.com/shop"
  declarations :=
    let context := SourceType.named "context" "Context" []
    let item := SourceType.pointer (.named "example.com/shop" "Item" [])
    [.type "Item" [] (.struct []),
      .type "Finder" [] (.interface
        [.method "Find" [.mk "context" context, .mk "sentry" (.basic "string")]
          [.mk "" item, .mk "" (.basic "error")] false]),
      .type "Store" [] (.interface
        [.embedded (.named "example.com/shop" "Finder" []),
          .method "Put" [.mk "ctx" context, .mk "_" (.map (.basic "string") (.array 2 item)),
              .mk "items" (.slice item)]
            [.mk "shop" (.basic "int"), .mk "err" (.named "" "error" [])] true])]

/-- Next to the import of a hook, three of the declared names are changed. -/
theorem introspect_shop_wellNamed : ∃ i table', shop.introspect "Store"
      (ImportTable.empty.addAll ["github.com/getsentry/sentry-go"]) = .ok i table' ∧
    i.methods.map (·.variableNames) =
      [["context_", "sentry_", "r0", "err"], ["ctx", "p1", "items", "shop_", "err"]] ∧
    ∃ members specs, shop.resolve "Store" = .ok members ∧ shop.methodSet members = .ok specs ∧
      List.Forall₂ (WellNamed table') specs i.methods := by
  have h : shop.introspect "Store"
      (ImportTable.empty.addAll ["github.com/getsentry/sentry-go"]) = .ok _ _ := rfl
  exact ⟨_, _, h, by decide +kernel, introspect_wellNamed h⟩

/-! ## Types -/

/-- The packages of the named types in a method, in reading order. -/
def MethodSpec.packages (spec : MethodSpec) : List String :=
  SourceType.packagesOfAll spec.params ++ SourceType.packagesOfAll spec.results

theorem MethodSpec.packages_subset {spec : MethodSpec} {v : Variable}
    (hv : v ∈ spec.params ++ spec.results) : v.type.packages ⊆ spec.packages := by
  intro path hpath
  rcases List.mem_append.mp hv with hv | hv
  · exact List.mem_append_left _ (SourceType.packages_subset_packagesOfAll hv hpath)
  · exact List.mem_append_right _ (SourceType.packages_subset_packagesOfAll hv hpath)

/-- A method with the types of its declaration under the aliases of `table`, which has them all. -/
structure Typed (table : ImportTable) (spec : MethodSpec) (m : Method) : Prop where
  name : m.name = spec.name
  variadic : m.variadic = spec.variadic
  representable : ∀ v ∈ spec.params ++ spec.results, v.type.Representable
  entered : ∀ path ∈ spec.packages, path ≠ "" → path ∈ table.paths
  params : m.params.map (·.type) = spec.params.map (·.type.toSignature table.qualifier)
  results : m.results.map (·.type) = spec.results.map (·.type.toSignature table.qualifier)

theorem Method.ofSpec_typed {spec : MethodSpec} {m : Method} {table table' : ImportTable}
    (H : table.WellFormed) (h : Method.ofSpec spec table = .ok m table') :
    table' = table.addAll spec.packages ∧ Typed table' spec m := by
  obtain ⟨hname, hvariadic, ⟨_, hparams, hresults⟩, -⟩ := Method.ofSpec_eq_ok h
  obtain ⟨hpreps, rfl, hparams⟩ := SourceType.ofVariables_eq_ok H hparams
  obtain ⟨hrreps, rfl, hresults⟩ := SourceType.ofVariables_eq_ok (H.addAll _) hresults
  have heq := table.addAll_append (SourceType.packagesOfAll spec.params)
    (SourceType.packagesOfAll spec.results)
  refine ⟨heq.symm, hname, hvariadic, List.forall_mem_append.mpr ⟨hpreps, hrreps⟩,
    fun path hpath hne => ?_, ?_, hresults⟩
  · rw [← heq]
    exact (ImportTable.mem_paths_addAll ..).mpr (.inr ⟨hpath, hne⟩)
  · rw [hparams]
    refine List.map_congr_left fun v hv => ((hpreps v hv).toSignature_addAll H ?_ _).symm
    exact SourceType.packages_subset_packagesOfAll hv

theorem Typed.vars {table : ImportTable} {spec : MethodSpec} {m : Method}
    (h : Typed table spec m) : m.vars.map (·.type) =
      (spec.params ++ spec.results).map (·.type.toSignature table.qualifier) := by
  rw [Method.vars, List.map_append, List.map_append, h.params, h.results]

/-- The types of a method do not change when further imports are entered. -/
theorem Typed.of_le {table table' : ImportTable} {spec : MethodSpec} {m : Method}
    (H : table.WellFormed) (H' : table'.WellFormed) (hle : table ≤ table')
    (h : Typed table spec m) : Typed table' spec m := by
  have htypes : ∀ v ∈ spec.params ++ spec.results,
      v.type.toSignature table.qualifier = v.type.toSignature table'.qualifier := by
    refine fun v hv => (h.representable v hv).toSignature_congr fun path hpath => ?_
    refine (ImportTable.qualifier_of_le H H' hle ?_).symm
    by_cases hempty : path = ""
    · exact .inl hempty
    · exact .inr (h.entered path (MethodSpec.packages_subset hv hpath) hempty)
  obtain ⟨hparams, hresults⟩ := List.forall_mem_append.mp htypes
  refine { h with entered := fun path hpath hne => ?_, params := ?_, results := ?_ }
  · exact ImportTable.mem_paths_of_le hle (h.entered path hpath hne)
  · exact h.params.trans (List.map_congr_left hparams)
  · exact h.results.trans (List.map_congr_left hresults)

/-- The second pass of naming leaves types alone. -/
theorem Typed.avoidAliases {table : ImportTable} {spec : MethodSpec} {m : Method}
    (h : Typed table spec m) (table' : ImportTable) : Typed table spec (m.avoidAliases table') where
  name := h.name
  variadic := h.variadic
  representable := h.representable
  entered := h.entered
  params := (m.avoidAliases_paramTypes table').trans h.params
  results := (m.avoidAliases_resultTypes table').trans h.results

theorem methodsOfSpecs_typed {specs : List MethodSpec} {methods : List Method}
    {table table' : ImportTable} (H : table.WellFormed)
    (h : methodsOfSpecs specs table = .ok methods table') :
    table' = table.addAll (specs.flatMap (·.packages)) ∧
      List.Forall₂ (Typed table') specs methods := by
  induction specs generalizing table methods with
  | nil =>
    obtain ⟨rfl, rfl⟩ := pure_eq_ok.mp h
    exact ⟨rfl, .nil⟩
  | cons spec rest ih =>
    obtain ⟨m, table₁, hspec, h⟩ := bind_eq_ok.mp h
    obtain ⟨methods', table₂, hrest, h⟩ := bind_eq_ok.mp h
    obtain ⟨rfl, rfl⟩ := pure_eq_ok.mp h
    obtain ⟨rfl, hm⟩ := Method.ofSpec_typed H hspec
    obtain ⟨rfl, hmethods⟩ := ih (H.addAll _) hrest
    refine ⟨by rw [List.flatMap_cons, ImportTable.addAll_append], .cons ?_ hmethods⟩
    exact hm.of_le (H.addAll _) ((H.addAll _).addAll _) (ImportTable.le_addAll ..)

/-- What introspection enters, and the types that it ends with. -/
theorem Package.introspect_typed {p : Package} {name : String} {table table' : ImportTable}
    {i : Interface} (H : table.WellFormed) (h : p.introspect name table = .ok i table') :
    ∃ members specs, p.resolve name = .ok members ∧ p.methodSet members = .ok specs ∧
      table' = table.addAll (p.path :: specs.flatMap (·.packages)) ∧
      i.type = .named (table'.qualifier p.path) p.path name ∧
      List.Forall₂ (Typed table') specs i.methods := by
  obtain ⟨members, specs, methods, hresolve, hset, hmethods, htype, heq⟩ := p.introspect_eq_ok h
  obtain ⟨rfl, htyped⟩ := methodsOfSpecs_typed (H.add _) hmethods
  refine ⟨members, specs, hresolve, hset, rfl, ?_, ?_⟩
  · rw [htype, ← ImportTable.qualifier_add H]
    have hlater := ImportTable.qualifier_addAll H (List.mem_singleton_self p.path)
      (specs.flatMap (·.packages))
    exact congrArg (SignatureType.named · p.path name) hlater.symm
  · rw [heq, List.forall₂_map_right_iff]
    exact htyped.imp fun _ _ h => h.avoidAliases _

end Interposer
