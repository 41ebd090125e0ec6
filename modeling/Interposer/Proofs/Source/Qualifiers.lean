import Interposer.Proofs.Package.Files
import Interposer.Proofs.Source.Meaning

/-! The qualifiers of a file. An import goes by its explicit name or, without one, by a name that is
guessed from its path, and a qualifier stands for the last import that goes by it. So an explicit
name may come to stand for another import, further on, of which it is guessed to be the name
(`QualifierLaws.explicit`, `explicit_import_redirected`); where there is none, all types are read as
if explicit names came before guessed ones (`QualifierLaws.declarations`). -/

namespace Interposer

namespace Source

namespace ImportSpec

variable {spec : ImportSpec} {name : String}

/-- The import path. -/
def target (spec : ImportSpec) : String := unquotedPath spec.path

/-- The name that an import is given, if types can be referred to by it. -/
def explicitName? (spec : ImportSpec) : Option String :=
  spec.name.filter fun name => name ≠ "_" ∧ name ≠ "."

/-- The reader takes `name` for the name of the package. -/
def GoesBy (spec : ImportSpec) (name : String) : Prop :=
  spec.binding? = some ⟨name, spec.target⟩

instance : Decidable (spec.GoesBy name) := inferInstanceAs (Decidable (_ = _))

/-- The reader only guesses that `name` is the name of the package. -/
def Guessed (spec : ImportSpec) (name : String) : Prop := spec.name = none ∧ spec.GoesBy name

instance : Decidable (spec.Guessed name) := inferInstanceAs (Decidable (_ ∧ _))

theorem binding?_eq_some_iff {i : Import} : spec.binding? = some i ↔
    i.path = spec.target ∧ i.name = spec.name.getD (guessName spec.target) ∧
      i.name ≠ "_" ∧ i.name ≠ "." := by
  obtain ⟨name, path⟩ := i
  simp only [binding?, target, Bool.or_eq_true, beq_iff_eq]
  split
  · next hskipped =>
    refine iff_of_false nofun ?_
    rintro ⟨-, rfl, hblank, hdot⟩
    exact hskipped.elim hblank hdot
  · next hkept =>
    rw [Option.some.injEq, Import.mk.injEq]
    constructor
    · rintro ⟨rfl, rfl⟩
      exact ⟨rfl, rfl, not_or.mp hkept⟩
    · rintro ⟨rfl, rfl, -⟩
      exact ⟨rfl, rfl⟩

theorem goesBy_of_binding? {i : Import} (h : spec.binding? = some i) :
    i = ⟨i.name, spec.target⟩ ∧ spec.GoesBy i.name := by
  obtain ⟨name, path⟩ := i
  obtain ⟨rfl, -⟩ := binding?_eq_some_iff.mp h
  exact ⟨rfl, h⟩

/-- The two ways for an import to go by a name. -/
theorem goesBy_iff : spec.GoesBy name ↔ spec.explicitName? = some name ∨ spec.Guessed name := by
  rw [Guessed, explicitName?, Option.filter_eq_some_iff]
  cases hname : spec.name with
  | none => simp
  | some given =>
    rw [GoesBy, binding?_eq_some_iff, hname]
    simp only [Option.getD_some, true_and, Option.some.injEq, reduceCtorEq, false_and, or_false,
      decide_eq_true_eq]
    exact and_congr_left' eq_comm

end ImportSpec

/-- The imports of a file, wherever they stand. -/
def importSpecs (items : List Item) : List ImportSpec :=
  items.flatMap fun
    | .imports specs => specs
    | _ => []

theorem importEntries_eq (items : List Item) :
    importEntries items = (importSpecs items).filterMap ImportSpec.binding? := by
  rw [importEntries, importSpecs, List.filterMap_flatMap]
  congr 1
  funext item
  cases item <;> rfl

theorem filter_bindings (specs : List ImportSpec) (name : String) :
    (specs.filterMap ImportSpec.binding?).filter (·.name == name) =
      (specs.filter (·.GoesBy name)).map fun spec => ⟨name, spec.target⟩ := by
  induction specs with
  | nil => rfl
  | cons spec specs ih =>
    cases hbinding : spec.binding? with
    | none =>
      have hnot : ¬ spec.GoesBy name := by simp [ImportSpec.GoesBy, hbinding]
      rw [List.filterMap_cons_none hbinding, ih, List.filter_cons_of_neg (by simpa using hnot)]
    | some i =>
      obtain ⟨heq, hgoes⟩ := ImportSpec.goesBy_of_binding? hbinding
      rw [List.filterMap_cons_some hbinding]
      by_cases hname : i.name = name
      · subst hname
        rw [List.filter_cons_of_pos (by simp), ih, List.filter_cons_of_pos (by simpa using hgoes),
          List.map_cons, ← heq]
      · have hnot : ¬ spec.GoesBy name := by
          intro h
          cases hbinding.symm.trans h
          exact hname rfl
        rw [List.filter_cons_of_neg (by simpa using hname), ih,
          List.filter_cons_of_neg (by simpa using hnot)]

/-- A qualifier stands for the last import that goes by it. -/
theorem Scope.importPath?_eq {scope : Scope} {specs : List ImportSpec}
    (h : scope.imports = specs.filterMap ImportSpec.binding?) (name : String) :
    scope.importPath? name = (specs.filter (·.GoesBy name)).getLast?.map (·.target) := by
  rw [importPath?, ← List.head?_filter, List.filter_reverse, List.head?_reverse, h,
    filter_bindings, List.getLast?_map, Option.map_map]
  rfl

/-- Where explicit names differ, one of them stands for the last import that is guessed to have it,
of those further on, or else for its own. -/
theorem Scope.importPath?_explicit {scope : Scope} {before after : List ImportSpec}
    {spec : ImportSpec} {name : String}
    (himports : scope.imports = (before ++ spec :: after).filterMap ImportSpec.binding?)
    (hdistinct : ((before ++ spec :: after).filterMap ImportSpec.explicitName?).Nodup)
    (hname : spec.explicitName? = some name) : scope.importPath? name =
      some ((after.filter (·.Guessed name)).getLast?.getD spec).target := by
  have hlater : ∀ later ∈ after, later.explicitName? ≠ some name := by
    intro later hmem hsame
    rw [List.filterMap_append, List.filterMap_cons_some hname] at hdistinct
    have hnot := (List.nodup_cons.mp (List.nodup_append.mp hdistinct).2.1).1
    exact hnot (List.mem_filterMap.mpr ⟨later, hmem, hsame⟩)
  have hguessed : after.filter (·.GoesBy name) = after.filter (·.Guessed name) := by
    apply List.filter_congr
    intro later hmem
    rw [decide_eq_decide, ImportSpec.goesBy_iff, or_iff_right (hlater later hmem)]
  have hgoes : spec.GoesBy name := ImportSpec.goesBy_iff.mpr (.inl hname)
  rw [importPath?_eq himports, List.filter_append, List.filter_cons_of_pos (by simpa using hgoes),
    hguessed, List.getLast?_append_cons, List.getLast?_cons]
  rfl

/-- What references mean if explicit names come before guessed ones. -/
def explicitFirst (specs : List ImportSpec) : Scope.Meaning
  | scope, .plain name => scope.typeNamed name
  | scope, .qualified qualifier name span =>
    match specs.find? (·.explicitName? = some qualifier) with
    | some spec => .named spec.target name []
    | none => scope.typeQualified qualifier name span

/-- No import goes by a guessed name after another path was given that name. -/
def NoneRedirected (specs : List ImportSpec) : Prop :=
  specs.Pairwise fun spec later =>
    ∀ name, spec.explicitName? = some name → later.Guessed name → later.target = spec.target

theorem Scope.meaning_eq_explicitFirst {scope : Scope} {specs : List ImportSpec}
    (himports : scope.imports = specs.filterMap ImportSpec.binding?)
    (hdistinct : (specs.filterMap ImportSpec.explicitName?).Nodup) (hnone : NoneRedirected specs)
    (r : Reference) : scope.meaning r = explicitFirst specs scope r := by
  cases r with
  | plain name => rfl
  | qualified qualifier name span =>
    rw [explicitFirst]
    split
    · next spec hfound =>
      obtain ⟨hname, before, after, rfl, -⟩ := List.find?_eq_some_iff_append.mp hfound
      have hname : spec.explicitName? = some qualifier := by simpa using hname
      have hpath := importPath?_explicit himports hdistinct hname
      rw [meaning, typeQualified, hpath]
      cases hlast : (after.filter (·.Guessed qualifier)).getLast? with
      | none => rfl
      | some later =>
        obtain ⟨hmem, hguessed⟩ := List.mem_filter.mp (List.mem_of_getLast? hlast)
        have hafter := (List.pairwise_cons.mp (List.pairwise_append.mp hnone).2.1).1
        have htarget := hafter later hmem qualifier hname (by simpa using hguessed)
        exact congrArg (SourceType.named · name []) htarget
    · rfl

end Source

open Source

namespace SourceFile

variable {f : SourceFile}

def importSpecs (f : SourceFile) : List ImportSpec := Source.importSpecs f.items

/-- What qualifiers stand for in a file whose explicit import names differ. -/
structure QualifierLaws (f : SourceFile) : Prop where
  /-- A qualifier stands for the last import that goes by it. -/
  last : ∀ path qualifier, (f.scope path).importPath? qualifier =
    (f.importSpecs.filter (·.GoesBy qualifier)).getLast?.map (·.target)
  /-- An explicit name stands for its import unless later on there are imports without a name that
  are guessed to have this one: then it stands for the last of them. -/
  explicit : ∀ path before spec after qualifier, f.importSpecs = before ++ spec :: after →
    spec.explicitName? = some qualifier → ∀ name span,
      (f.scope path).typeQualified qualifier name span =
        .named ((after.filter (·.Guessed qualifier)).getLast?.getD spec).target name []
  /-- If there are none, or they have the same path, then all declarations are as they are if
  explicit names come first. -/
  declarations : NoneRedirected f.importSpecs → ∀ path,
    f.declarations path = f.items.flatMap ((f.scope path).readItemBy (explicitFirst f.importSpecs))

/-- **Qualifiers.** -/
theorem qualifierLaws (hdistinct : (f.importSpecs.filterMap ImportSpec.explicitName?).Nodup) :
    f.QualifierLaws := by
  have himports : ∀ path, (f.scope path).imports = f.importSpecs.filterMap ImportSpec.binding? :=
    fun _ => importEntries_eq f.items
  constructor
  case last =>
    intro path qualifier
    exact Scope.importPath?_eq (himports path) qualifier
  case explicit =>
    intro path before spec after qualifier hsplit hname name span
    have himports := himports path
    rw [hsplit] at himports hdistinct
    rw [Scope.typeQualified, Scope.importPath?_explicit himports hdistinct hname]
  case declarations =>
    intro hnone path
    apply List.flatMap_congr
    intro item _
    apply Scope.readItem_eq
    intro specs _ spec _ r _
    apply Scope.meaning_eq_explicitFirst _ hdistinct hnone
    cases spec <;> exact himports path

/-- A file that gives one of two imports a name, which the other is guessed to have. -/
def mocked : SourceFile where
  text := "package repo\n\nimport (\n\tredis \"github.com/go-redis/redis/v8\"\n\n" ++
    "\t\"example.com/tools/redis-mock\"\n)\n\nvar _ redismock.Mock\n\n" ++
    "type Client = redis.Client\n"
  items :=
    [.package "repo",
      .imports [⟨some "redis", "\"github.com/go-redis/redis/v8\""⟩,
        ⟨none, "\"example.com/tools/redis-mock\""⟩],
      .vars ["_"], .types [.synonym "Client" (.qualified "redis" "Client" ⟨133, 145⟩)]]

/-- The explicit name comes to stand for the import without a name. -/
theorem explicit_import_redirected :
    mocked.importSpecs.filterMap ImportSpec.explicitName? = ["redis"] ∧
    mocked.declarations "example.com/app/repo" =
      [.typeAlias "Client" (.named "example.com/tools/redis-mock" "Client" [])] ∧
    mocked.items.flatMap ((mocked.scope "example.com/app/repo").readItemBy
      (explicitFirst mocked.importSpecs)) =
        [.typeAlias "Client" (.named "github.com/go-redis/redis/v8" "Client" [])] := by
  refine ⟨rfl, rfl, rfl⟩

end SourceFile

/-- **Explicit import names.** A file that loads has the declarations that its items are read to be,
and in these qualifiers stand for what the laws say. -/
theorem Package.ofSource_qualifiers {location text path : String} {p : Package}
    (h : Package.ofSource location text path = .ok p) :
    ∃ f : SourceFile, f.text = text ∧ f.Parses ∧ p.declarations = f.declarations path ∧
      ((f.importSpecs.filterMap ImportSpec.explicitName?).Nodup → f.QualifierLaws) := by
  obtain ⟨f, hf, hparses, rfl⟩ := Package.ofSource_eq_ok h
  exact ⟨f, hf, hparses, rfl, SourceFile.qualifierLaws⟩

end Interposer
