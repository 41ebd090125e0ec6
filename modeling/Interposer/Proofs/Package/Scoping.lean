import Interposer.Interface
import Interposer.Proofs.Package.Directory
import Interposer.Proofs.Source.Meaning

/-! Names without a qualifier. In Go a type parameter hides the types of the package, and these hide
the predeclared types. The reader knows the predeclared types by their names, whatever the package
declares; so a package is read by the rules of Go as long as no predeclared type is declared anew in
it (`Package.scopingLaws`), and a type of the package that has such a name is never referred to
(`Package.redeclared_error`). -/

namespace Interposer

namespace Source

/-- What references mean in a package with some types: names without a qualifier by the scopes of
Go, and all else as it is read. -/
def byScope (declared : List String) : Scope.Meaning
  | scope, .plain name =>
    if name ∈ scope.typeParams then .typeParam name
    else if name ∈ declared then .named scope.path name []
    else if name ∈ predeclaredTypes then .basic name
    else .named scope.path name []
  | scope, .qualified qualifier name span => scope.typeQualified qualifier name span

/-- By the scopes of Go the name is that of a type of the package, not of the predeclared type. -/
def Scope.Redeclares (scope : Scope) (declared : List String) (name : String) : Prop :=
  name ∈ declared ∧ name ∈ predeclaredTypes ∧ name ∉ scope.typeParams

variable {scope : Scope} {declared : List String} {name : String}

theorem Scope.typeNamed_eq (scope : Scope) (name : String) : scope.typeNamed name =
    if name ∈ scope.typeParams then .typeParam name
    else if name ∈ predeclaredTypes then .basic name
    else .named scope.path name [] := by
  simp [typeNamed]

/-- The reader goes by the scopes of Go except for types with the names of predeclared ones. -/
theorem Scope.typeNamed_eq_byScope (h : ¬ scope.Redeclares declared name) :
    scope.typeNamed name = byScope declared scope (.plain name) := by
  rw [typeNamed_eq, byScope]
  by_cases hparam : name ∈ scope.typeParams
  · rw [if_pos hparam, if_pos hparam]
  rw [if_neg hparam, if_neg hparam]
  by_cases hpredeclared : name ∈ predeclaredTypes
  · have hdeclared : name ∉ declared := fun hmem => h ⟨hmem, hpredeclared, hparam⟩
    rw [if_pos hpredeclared, if_neg hdeclared]
  · rw [if_neg hpredeclared, ite_self]

theorem Scope.typeNamed_of_redeclares (h : scope.Redeclares declared name) :
    scope.typeNamed name = .basic name ∧
      byScope declared scope (.plain name) = .named scope.path name [] := by
  obtain ⟨hdeclared, hpredeclared, hparam⟩ := h
  rw [typeNamed_eq, byScope]
  simp [hdeclared, hpredeclared, hparam]

end Source

open Source

/-- The types and aliases that the file declares. -/
def SourceFile.typeNames (f : SourceFile) : List String :=
  f.items.flatMap fun
    | .types specs => specs.map (·.name)
    | _ => []

namespace Package

variable {p : Package} {sources : List SourceFile}

/-- What names without a qualifier mean in a package that is made up of some files. -/
structure ScopingLaws (p : Package) (sources : List SourceFile) : Prop where
  /-- A declaration is read by the scopes of Go if it refers to no type of the package, declared in
  any of the files, that has the name of a predeclared one. -/
  declaration : ∀ f ∈ sources, ∀ specs, .types specs ∈ f.items → ∀ spec ∈ specs,
    (∀ name, .plain name ∈ spec.type.references →
      ¬ ((f.scope p.path).within spec).Redeclares (sources.flatMap (·.typeNames)) name) →
      (f.scope p.path).readTypeSpec spec =
        (f.scope p.path).readTypeSpecBy (byScope (sources.flatMap (·.typeNames))) spec
  /-- All declarations are, if the package has no such type. -/
  declarations : (∀ name ∈ sources.flatMap (·.typeNames), name ∉ predeclaredTypes) →
    p.declarations = sources.flatMap fun f =>
      f.items.flatMap ((f.scope p.path).readItemBy (byScope (sources.flatMap (·.typeNames))))
  /-- Otherwise every reference to it is taken for one to the predeclared type. -/
  redeclared : ∀ f ∈ sources, ∀ spec name,
    ((f.scope p.path).within spec).Redeclares (sources.flatMap (·.typeNames)) name →
      ((f.scope p.path).within spec).readType (.name name) = .basic name ∧
        byScope (sources.flatMap (·.typeNames)) ((f.scope p.path).within spec) (.plain name) =
          .named p.path name []

/-- **Names without a qualifier.** -/
theorem scopingLaws (h : p.declarations = sources.flatMap (·.declarations p.path)) :
    p.ScopingLaws sources := by
  have hmeaning : ∀ (scope : Scope) (declared : List String) (r : Reference),
      (∀ name, r = .plain name → ¬ scope.Redeclares declared name) →
        scope.meaning r = byScope declared scope r := by
    intro scope declared r hr
    cases r with
    | plain name => exact Scope.typeNamed_eq_byScope (hr name rfl)
    | qualified qualifier name span => rfl
  constructor
  case declaration =>
    intro f _ specs _ spec _ hnone
    apply Scope.readTypeSpec_eq
    intro r hr
    apply hmeaning
    rintro name rfl
    exact hnone name hr
  case declarations =>
    intro hnone
    rw [h]
    apply List.flatMap_congr
    intro f _
    apply List.flatMap_congr
    intro item _
    apply Scope.readItem_eq
    intro specs _ spec _ r _
    apply hmeaning
    intro name _ hredeclares
    exact hnone name hredeclares.1 hredeclares.2.1
  case redeclared =>
    intro f _ spec name hredeclares
    obtain ⟨hread, hscope⟩ := Scope.typeNamed_of_redeclares hredeclares
    refine ⟨hread, hscope.trans ?_⟩
    cases spec <;> rfl

/-- A file that makes up a package on its own. -/
theorem ofSource_scopingLaws {location text path : String}
    (h : ofSource location text path = .ok p) :
    ∃ f : SourceFile, f.text = text ∧ f.Parses ∧ p.ScopingLaws [f] := by
  obtain ⟨f, hf, hparses, rfl⟩ := ofSource_eq_ok h
  exact ⟨f, hf, hparses, scopingLaws (List.append_nil _).symm⟩

/-- The files of a directory. -/
theorem load_scopingLaws {location : Path} {tree : FileTree}
    (hdirectory : location.extension? ≠ some "json")
    (h : ((load location : ExceptT Failure (StateM FileTree) Package) tree).1 = .ok p) :
    ∃ names sources, tree.list location = .ok names ∧
      List.Forall₂ (SourceFile.IsAt tree) (tree.sourcePaths location names) sources ∧
      p.ScopingLaws sources := by
  rw [load, if_neg hdirectory] at h
  obtain ⟨names, sources, hlist, -, hat, -, hdeclarations⟩ := ofDirectory_eq_ok h
  exact ⟨names, sources, hlist, hat, scopingLaws hdeclarations⟩

/-- A file that declares `error` anew and embeds it. -/
def coded : SourceFile where
  text := "package repo\n\ntype error interface \x7b\n\tCode() int\n\x7d\n\n" ++
    "type Store interface \x7b\n\terror\n\tClose()\n\x7d\n"
  items :=
    [.package "repo",
      .types [.definition "error" []
        (.interface [.method "Code" [] [.group [] (.name "int")]])],
      .types [.definition "Store" []
        (.interface [.elem (.mk [.name "error"] ⟨76, 81⟩), .method "Close" [] []])]]

/-- The method set is not that of the interface which the package declares. -/
theorem redeclared_error :
    (∃ i table', Package.introspect
        ⟨"repo", "example.com/app/repo", coded.declarations "example.com/app/repo"⟩
        "Store" .empty = .ok i table' ∧ i.methods.map (·.name) = ["Error", "Close"]) ∧
    ∃ i table', Package.introspect
        ⟨"repo", "example.com/app/repo", coded.items.flatMap
          ((coded.scope "example.com/app/repo").readItemBy (byScope coded.typeNames))⟩
        "Store" .empty = .ok i table' ∧ i.methods.map (·.name) = ["Code", "Close"] := by
  refine ⟨⟨_, _, rfl, rfl⟩, _, _, rfl, rfl⟩

end Package

end Interposer
