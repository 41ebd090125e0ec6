import Interposer.Proofs.Package.Files

/-! Packages that are loaded from directories. A package is the union of its source files in the
order of their names, each read on its own, and the order in which the names of a directory are
listed makes no difference (`Package.directoryLaws`). -/

namespace Interposer

open FileSystem FileTree

variable {tree : FileTree} {location : Path}

/-! ## Import paths -/

namespace Location

variable {l root names : List String}

theorem mem_ancestors_iff : (root, names) ∈ Location.ancestors l ↔ root ++ names = l := by
  rw [ancestors, List.mem_map]
  constructor
  · rintro ⟨n, -, hsplit⟩
    rw [List.splitAt_eq] at hsplit
    cases hsplit
    exact List.take_append_drop n l
  · rintro rfl
    refine ⟨root.length, ?_, by simp⟩
    rw [List.mem_reverse, List.mem_range, List.length_append]
    omega

/-- Of two places above a location the longer one comes first. -/
theorem pairwise_ancestors (l : Location) :
    (Location.ancestors l).Pairwise fun a b => b.1 <+: a.1 ∧ ¬ a.1 <+: b.1 := by
  rw [ancestors, List.pairwise_map, List.pairwise_reverse]
  refine List.pairwise_lt_range.imp_of_mem fun {m n} _ hn hlt => ?_
  rw [List.mem_range] at hn
  simp only [List.splitAt_eq]
  refine ⟨List.take_prefix_take_left (by omega), fun hprefix => ?_⟩
  have hlength := hprefix.length_le
  rw [List.length_take, List.length_take] at hlength
  omega

end Location

namespace ImportPath

/-- The place at or above `place` where the nearest module file stands. -/
structure IsModuleRoot (tree : FileTree) (place root : Location) : Prop where
  above : root <+: place
  stands : tree.isFile (root.path.join ModuleFile.name) = true
  nearest : ∀ other : Location, other <+: place →
    tree.isFile (other.path.join ModuleFile.name) = true → other <+: root

/-- The import path of a directory: that of its module, and the names from there down to it. -/
def IsImportPath (tree : FileTree) (location : Path) (path : String) : Prop :=
  ∃ (root : Location) (names : List String) (text module : String),
    tree.locate location = .ok (root ++ names) ∧ IsModuleRoot tree (root ++ names) root ∧
    tree.readText (root.path.join ModuleFile.name) = .ok text ∧
    ModuleFile.module? text = some module ∧ path = "/".intercalate (module :: names)

variable {places : List (Location × List String)} {path : String}

theorem search_eq_ok_iff :
    ((search places : ExceptT Failure (StateM FileTree) _) tree).1 = .ok (some path) ↔
      ∃ before root names after text module, places = before ++ (root, names) :: after ∧
        (∀ place ∈ before, tree.isFile (place.1.path.join ModuleFile.name) = false) ∧
        tree.isFile (root.path.join ModuleFile.name) = true ∧
        tree.readText (root.path.join ModuleFile.name) = .ok text ∧
        ModuleFile.module? text = some module ∧ path = "/".intercalate (module :: names) := by
  induction places with
  | nil =>
    constructor
    · intro h
      cases h
    · rintro ⟨before, root, names, after, text, module, hplaces, -⟩
      exact absurd hplaces.symm (List.append_ne_nil_of_right_ne_nil before (List.cons_ne_nil _ _))
  | cons place places ih =>
    obtain ⟨root, names⟩ := place
    have hask : ∀ {β : Type} {f : Bool → ExceptT Failure (StateM FileTree) β} {file : Path},
        ((ExceptT.lift (FileSystem.isFile file) >>= f) tree).1 = (f (tree.isFile file) tree).1 := by
      intro β f file
      rw [step_apply]
      rfl
    rw [search, hask]
    cases hfile : tree.isFile (root.path.join ModuleFile.name) with
    | false =>
      rw [if_neg Bool.false_ne_true, ih]
      constructor
      · rintro ⟨before, root', names', after, text, module, rfl, hbefore, h⟩
        exact ⟨(root, names) :: before, root', names', after, text, module, rfl,
          List.forall_mem_cons.mpr ⟨hfile, hbefore⟩, h⟩
      · rintro ⟨before, root', names', after, text, module, hplaces, hbefore, hstands, h⟩
        cases before with
        | nil =>
          cases hplaces
          rw [hfile] at hstands
          cases hstands
        | cons first before =>
          cases hplaces
          exact ⟨before, root', names', after, text, module, rfl,
            (List.forall_mem_cons.mp hbefore).2, hstands, h⟩
    | true =>
      rw [if_pos rfl, Package.read_eq_ok]
      constructor
      · rintro ⟨text, hread, h⟩
        cases hmodule : ModuleFile.module? text with
        | none => rw [hmodule] at h; cases h
        | some module =>
          rw [hmodule] at h
          cases h
          exact ⟨[], root, names, places, text, module, rfl, List.forall_mem_nil _, hfile, hread,
            hmodule, rfl⟩
      · rintro ⟨before, root', names', after, text, module, hplaces, hbefore, -, hread, hmodule,
          rfl⟩
        cases before with
        | nil =>
          cases hplaces
          exact ⟨text, hread, by rw [hmodule]; rfl⟩
        | cons first before =>
          cases hplaces
          have hnone := hbefore _ List.mem_cons_self
          rw [hfile] at hnone
          cases hnone

/-- The first place on the way up that has a module file. -/
theorem isModuleRoot_iff {root : Location} {names : List String} :
    IsModuleRoot tree (root ++ names) root ↔
    ∃ before after, Location.ancestors (root ++ names) = before ++ (root, names) :: after ∧
      (∀ place ∈ before, tree.isFile (place.1.path.join ModuleFile.name) = false) ∧
      tree.isFile (root.path.join ModuleFile.name) = true := by
  have hordered := Location.pairwise_ancestors (root ++ names)
  constructor
  · intro h
    obtain ⟨before, after, hsplit⟩ :=
      List.append_of_mem (Location.mem_ancestors_iff.mpr (rfl : root ++ names = root ++ names))
    refine ⟨before, after, hsplit, fun place hplace => ?_, h.stands⟩
    rw [hsplit] at hordered
    have hlonger := (List.pairwise_append.mp hordered).2.2 place hplace _ List.mem_cons_self
    rw [← Bool.not_eq_true]
    intro hfile
    have hmem : (place.1, place.2) ∈ Location.ancestors (root ++ names) :=
      hsplit ▸ List.mem_append_left _ hplace
    have habove : place.1 <+: root ++ names := ⟨_, Location.mem_ancestors_iff.mp hmem⟩
    exact hlonger.2 (h.nearest _ habove hfile)
  · rintro ⟨before, after, hsplit, hbefore, hstands⟩
    refine ⟨List.prefix_append _ _, hstands, fun other hother hfile => ?_⟩
    obtain ⟨rest, hrest⟩ := hother
    have hmem := Location.mem_ancestors_iff.mpr hrest
    rw [hsplit] at hmem hordered
    rcases List.mem_append.mp hmem with hmem | hmem
    · rw [hbefore _ hmem] at hfile
      cases hfile
    · rcases List.mem_cons.mp hmem with heq | hmem
      · cases heq
        exact List.prefix_rfl
      · have hafter := (List.pairwise_cons.mp (List.pairwise_append.mp hordered).2.1).1
        exact (hafter _ hmem).1

theorem ofDirectory_eq_ok_iff :
    ((ofDirectory location : ExceptT Failure (StateM FileTree) String) tree).1 = .ok path ↔
      IsImportPath tree location path := by
  have hlocate : ∀ {β : Type} {f : Location → ExceptT Failure (StateM FileTree) β} {b : β},
      ((FileSystem.attempt .resolve location (locate location) >>= f) tree).1 = .ok b ↔
        ∃ place, tree.locate location = .ok place ∧ (f place tree).1 = .ok b := by
    intro β f b
    have hask : Transfers tree tree (FileSystem.attempt .resolve location (locate location)) :=
      .attempt fun _ h => h
    rw [Package.step_eq_ok hask.same, attempt_apply]
    simp only [FileSystem.locate, FileTree.ask]
    cases tree.locate location <;> simp [Except.mapError]
  rw [ofDirectory, hlocate]
  have hsearch : ∀ places, ((search places : ExceptT Failure (StateM FileTree) _) tree).2 = tree :=
    fun places => (Package.transfers_search fun _ _ => ⟨rfl, fun _ h => h⟩ :
      Transfers tree tree (search places)).same
  constructor
  · rintro ⟨place, hplace, h⟩
    obtain ⟨found, hfound, h⟩ := (Package.step_eq_ok (hsearch _)).mp h
    cases found with
    | none => cases h
    | some path =>
      cases h
      obtain ⟨before, root, names, after, text, module, hsplit, hbefore, hstands, hread, hmodule,
        rfl⟩ := search_eq_ok_iff.mp hfound
      have hmem : (root, names) ∈ Location.ancestors place :=
        hsplit ▸ List.mem_append_right _ List.mem_cons_self
      obtain rfl := Location.mem_ancestors_iff.mp hmem
      exact ⟨root, names, text, module, hplace,
        isModuleRoot_iff.mpr ⟨before, after, hsplit, hbefore, hstands⟩, hread, hmodule, rfl⟩
  · rintro ⟨root, names, text, module, hplace, hroot, hread, hmodule, rfl⟩
    obtain ⟨before, after, hsplit, hbefore, hstands⟩ := isModuleRoot_iff.mp hroot
    refine ⟨_, hplace, (Package.step_eq_ok (hsearch _)).mpr ⟨some _, ?_, rfl⟩⟩
    exact search_eq_ok_iff.mpr
      ⟨before, root, names, after, text, module, hsplit, hbefore, hstands, hread, hmodule, rfl⟩

end ImportPath

/-! ## Source files -/

namespace Package

variable {p p' : Package} {names names' : List String}

/-- A file that makes up a package on its own. -/
def ReadsAs (tree : FileTree) (path : String) (file : Path) (q : Package) : Prop :=
  ∃ text, tree.readText file = .ok text ∧ ofSource file.text text path = .ok q

theorem transfers_importPath_self : Transfers tree tree (ImportPath.ofDirectory location) :=
  transfers_importPath (fun _ h => h) fun _ _ _ _ => ⟨rfl, fun _ h => h⟩

theorem path_of_ofSource {location text path : String} (h : ofSource location text path = .ok p) :
    p.path = path := by
  obtain ⟨f, -, -, rfl⟩ := ofSource_eq_ok h
  rfl

theorem addFiles_eq_ok_iff {files : List Path} :
    ((addFiles location p files : ExceptT Failure (StateM FileTree) Package) tree).1 = .ok p' ↔
      ∃ packages, List.Forall₂ (ReadsAs tree p.path) files packages ∧
        (∀ q ∈ packages, q.name = p.name) ∧
        p' = { p with declarations := p.declarations ++ packages.flatMap (·.declarations) } := by
  induction files generalizing p with
  | nil =>
    rw [addFiles]
    constructor
    · intro h
      cases h
      exact ⟨[], .nil, List.forall_mem_nil _, by simp⟩
    · rintro ⟨_, ⟨⟩, -, rfl⟩
      simp
      rfl
  | cons file files ih =>
    rw [addFiles, read_eq_ok]
    constructor
    · rintro ⟨text, hread, h⟩
      obtain ⟨q, hq, h⟩ := lift_eq_ok.mp h
      obtain ⟨p₁, hp₁, h⟩ := lift_eq_ok.mp h
      obtain ⟨hname, rfl⟩ := append_eq_ok.mp hp₁
      obtain ⟨packages, hreads, hnames, rfl⟩ := ih.mp h
      refine ⟨q :: packages, .cons ⟨text, hread, hq⟩ hreads, ?_, ?_⟩
      · exact List.forall_mem_cons.mpr ⟨hname, hnames⟩
      · rw [List.flatMap_cons, List.append_assoc]
    · rintro ⟨_, hreads, hnames, rfl⟩
      cases hreads with
      | @cons _ q _ packages hfirst hreads =>
        obtain ⟨text, hread, hq⟩ := hfirst
        obtain ⟨hname, hnames⟩ := List.forall_mem_cons.mp hnames
        refine ⟨text, hread, lift_eq_ok.mpr ⟨q, hq, lift_eq_ok.mpr ⟨_,
          append_eq_ok.mpr ⟨hname, rfl⟩, ih.mpr ⟨packages, hreads, hnames, ?_⟩⟩⟩⟩
        rw [List.flatMap_cons, List.append_assoc]

/-- Sorting takes no notice of the order before. -/
theorem mergeSort_eq_of_perm (h : names.Perm names') :
    names.mergeSort (· ≤ ·) = names'.mergeSort (· ≤ ·) := by
  have hperm := (List.mergeSort_perm names (· ≤ ·)).trans
    (h.trans (List.mergeSort_perm names' (· ≤ ·)).symm)
  exact eq_of_ordered hperm (pairwise_mergeSort names) (pairwise_mergeSort names')

theorem sourcePaths_eq_of_perm (h : names.Perm names') :
    tree.sourcePaths location names = tree.sourcePaths location names' := by
  rw [FileTree.sourcePaths, mergeSort_eq_of_perm (h.filter _), FileTree.sourcePaths]

/-- The names of the source files in a directory, in order. -/
structure AreSourceNames (tree : FileTree) (location : Path) (names : List String) : Prop where
  ordered : names.Pairwise (· ≤ ·)
  listed : ∃ all, tree.list location = .ok all ∧
    names.Perm (all.filter fun name => isSourceName name && tree.isFile (location.join name))

theorem sourcePaths_eq_map (tree : FileTree) (location : Path) (all : List String) :
    ∃ names : List String, tree.sourcePaths location all = names.map location.join ∧
      names.Pairwise (· ≤ ·) ∧
      names.Perm
        (all.filter fun name => isSourceName name && tree.isFile (location.join name)) := by
  refine ⟨_, List.filter_map, (pairwise_mergeSort _).filter _, ?_⟩
  have hperm := (List.mergeSort_perm (all.filter isSourceName) (· ≤ ·)).filter
    (tree.isFile ∘ location.join)
  rw [List.filter_filter] at hperm
  refine hperm.trans (.of_eq (List.filter_congr fun name _ => ?_))
  exact Bool.and_comm _ _

theorem AreSourceNames.sourcePaths_eq {all : List String} (h : AreSourceNames tree location names)
    (hall : tree.list location = .ok all) :
    tree.sourcePaths location all = names.map location.join := by
  obtain ⟨all', hall', hperm⟩ := h.listed
  cases hall.symm.trans hall'
  obtain ⟨names', heq, hordered, hperm'⟩ := sourcePaths_eq_map tree location all
  rw [heq, eq_of_ordered (hperm'.trans hperm.symm) hordered h.ordered]

theorem ofDirectory_eq_ok_iff :
    ((ofDirectory location : ExceptT Failure (StateM FileTree) Package) tree).1 = .ok p ↔
      ImportPath.IsImportPath tree location p.path ∧ ∃ names packages,
        AreSourceNames tree location names ∧ names ≠ [] ∧
        List.Forall₂ (ReadsAs tree p.path) (names.map location.join) packages ∧
        (∀ q ∈ packages, q.name = p.name) ∧
        p.declarations = packages.flatMap (·.declarations) := by
  have hfiles : ((sourceFiles location : ExceptT Failure (StateM FileTree) _) tree).2 = tree := by
    rw [sourceFiles_apply]
  rw [ofDirectory, step_eq_ok hfiles, sourceFiles_apply]
  constructor
  · rintro ⟨files, hlisted, h⟩
    cases hlist : tree.list location with
    | error why => rw [hlist] at hlisted; cases hlisted
    | ok all =>
      rw [hlist] at hlisted
      obtain rfl : tree.sourcePaths location all = files := Except.ok.inj hlisted
      obtain ⟨names, hnames, hordered, hperm⟩ := sourcePaths_eq_map tree location all
      rw [hnames] at h
      cases names with
      | nil => cases h
      | cons name names =>
        rw [List.map_cons] at h
        obtain ⟨path, himport, h⟩ := (step_eq_ok transfers_importPath_self.same).mp h
        obtain ⟨text, hread, h⟩ := read_eq_ok.mp h
        obtain ⟨q, hq, h⟩ := lift_eq_ok.mp h
        obtain ⟨packages, hreads, hsame, rfl⟩ := addFiles_eq_ok_iff.mp h
        have hpackage := path_of_ofSource hq
        refine ⟨?_, name :: names, q :: packages, ⟨hordered, all, hlist, hperm⟩,
          List.cons_ne_nil _ _, ?_, ?_, ?_⟩
        · rw [hpackage]
          exact ImportPath.ofDirectory_eq_ok_iff.mp himport
        · rw [hpackage] at hreads ⊢
          exact .cons ⟨text, hread, hq⟩ hreads
        · exact List.forall_mem_cons.mpr ⟨rfl, hsame⟩
        · rw [List.flatMap_cons]
  · rintro ⟨himport, names, packages, hnames, hne, hreads, hsame, hdeclarations⟩
    obtain ⟨all, hall, -⟩ := hnames.listed
    refine ⟨names.map location.join, ?_, ?_⟩
    · rw [hall, ← hnames.sourcePaths_eq hall]
      rfl
    · cases names with
      | nil => exact absurd rfl hne
      | cons name names =>
        rw [List.map_cons] at hreads ⊢
        cases hreads with
        | @cons _ q _ packages hfirst hreads =>
          obtain ⟨text, hread, hq⟩ := hfirst
          obtain ⟨hname, hsame⟩ := List.forall_mem_cons.mp hsame
          have hpackage := path_of_ofSource hq
          have hpath := ImportPath.ofDirectory_eq_ok_iff.mpr himport
          refine (step_eq_ok transfers_importPath_self.same).mpr ⟨_, hpath, ?_⟩
          refine read_eq_ok.mpr ⟨text, hread, lift_eq_ok.mpr ⟨q, hq, addFiles_eq_ok_iff.mpr ?_⟩⟩
          refine ⟨packages, hpackage ▸ hreads, hname ▸ hsame, ?_⟩
          rw [List.flatMap_cons] at hdeclarations
          rw [← hdeclarations, hname, hpackage]

theorem exists_sources {path : String} {files : List Path} {packages : List Package}
    (h : List.Forall₂ (ReadsAs tree path) files packages) :
    ∃ sources, List.Forall₂ (SourceFile.IsAt tree) files sources ∧
      packages = sources.map fun f => ⟨f.packageName, path, f.declarations path⟩ := by
  induction h with
  | nil => exact ⟨[], .nil, rfl⟩
  | cons hfirst _ ih =>
    obtain ⟨text, hread, hq⟩ := hfirst
    obtain ⟨f, rfl, hparses, rfl⟩ := ofSource_eq_ok hq
    obtain ⟨sources, hat, rfl⟩ := ih
    exact ⟨f :: sources, .cons ⟨hread, hparses⟩ hat, rfl⟩

/-- The files that make up a package, in the order of their names. -/
theorem ofDirectory_eq_ok
    (h : ((ofDirectory location : ExceptT Failure (StateM FileTree) Package) tree).1 = .ok p) :
    ∃ names sources, tree.list location = .ok names ∧ sources ≠ [] ∧
      List.Forall₂ (SourceFile.IsAt tree) (tree.sourcePaths location names) sources ∧
      (∀ f ∈ sources, f.packageName = p.name) ∧
      p.declarations = sources.flatMap (·.declarations p.path) := by
  obtain ⟨-, names, packages, hnames, hne, hreads, hsame, hdeclarations⟩ :=
    ofDirectory_eq_ok_iff.mp h
  obtain ⟨all, hall, -⟩ := hnames.listed
  obtain ⟨sources, hat, rfl⟩ := exists_sources hreads
  have hlength := hat.length_eq
  rw [← hnames.sourcePaths_eq hall] at hat
  refine ⟨all, sources, hall, ?_, hat, ?_, ?_⟩
  · rintro rfl
    rw [List.length_map] at hlength
    exact hne (List.eq_nil_of_length_eq_zero hlength)
  · exact List.forall_mem_map.mp hsame
  · rw [hdeclarations, List.flatMap_map]

/-! ## Orders of listing -/

end Package

/-- An order in which the names in the directories of a tree are listed. -/
structure FileTree.Listing where
  order : FileTree → Path → List String → List String
  perm : ∀ tree path names, (order tree path names).Perm names

/-- The files of a tree, whose names are listed in the given order. -/
@[reducible] def FileTree.Listing.fileSystem (listing : FileTree.Listing) :
    FileSystem (StateM FileTree) :=
  { (inferInstance : FileSystem (StateM FileTree)) with
    list := fun path => ask fun tree => (tree.list path).map (listing.order tree path) }

namespace Package

variable {listing : FileTree.Listing}

theorem sourceFiles_listing :
    (@sourceFiles _ _ listing.fileSystem location : ExceptT Failure (StateM FileTree) _) tree =
      (sourceFiles location : ExceptT Failure (StateM FileTree) _) tree := by
  rw [sourceFiles_apply]
  unfold sourceFiles
  rw [step_apply, attempt_apply]
  simp only [FileSystem.list, FileTree.ask]
  cases tree.list location with
  | error why => rfl
  | ok names =>
    refine (filterM_ask_apply _ tree).trans ?_
    exact congrArg (fun files => ((.ok files : Except Failure (List Path)), tree))
      (sourcePaths_eq_of_perm (listing.perm tree location names))

theorem search_listing (places : List (Location × List String)) :
    (@ImportPath.search _ _ listing.fileSystem places : ExceptT Failure (StateM FileTree) _) =
      ImportPath.search places := by
  induction places with
  | nil => rfl
  | cons place places ih =>
    unfold ImportPath.search
    rw [ih]
    rfl

theorem importPath_listing :
    (@ImportPath.ofDirectory _ _ listing.fileSystem location :
      ExceptT Failure (StateM FileTree) _) = ImportPath.ofDirectory location := by
  unfold ImportPath.ofDirectory
  simp only [search_listing]
  rfl

theorem addFiles_listing (p : Package) (files : List Path) :
    (@addFiles _ _ listing.fileSystem location p files : ExceptT Failure (StateM FileTree) _) =
      addFiles location p files := by
  induction files generalizing p with
  | nil => rfl
  | cons file files ih =>
    unfold addFiles
    simp only [ih]
    rfl

theorem ofDirectory_listing :
    (@ofDirectory _ _ listing.fileSystem location : ExceptT Failure (StateM FileTree) _) tree =
      (ofDirectory location : ExceptT Failure (StateM FileTree) _) tree := by
  unfold ofDirectory
  rw [step_apply, step_apply, sourceFiles_listing]
  simp only [importPath_listing, addFiles_listing]
  rfl

/-- Loading a directory asks about files and changes none. -/
theorem ofDirectory_same :
    ((ofDirectory location : ExceptT Failure (StateM FileTree) Package) tree).2 = tree := by
  refine (?_ : Transfers tree tree (ofDirectory location)).same
  have hfiles : Transfers tree tree (sourceFiles location) :=
    ⟨by rw [sourceFiles_apply], fun h => Prod.ext h (by rw [sourceFiles_apply])⟩
  rw [ofDirectory]
  refine hfiles.bind fun files _ => ?_
  split
  · exact .throw _
  · refine transfers_importPath_self.bind fun path _ => .bind (.read fun _ h => h) fun text _ => ?_
    exact .bind (.lift _) fun p _ => transfers_addFiles (fun _ _ _ h => h) p

/-- What loading a directory does. -/
structure DirectoryLaws (location : Path) (tree : FileTree) : Prop where
  /-- The order in which the names are listed makes no difference, to failures neither. -/
  any_order : ∀ listing : FileTree.Listing,
    (@ofDirectory _ _ listing.fileSystem location : ExceptT Failure (StateM FileTree) _) tree =
      (ofDirectory location : ExceptT Failure (StateM FileTree) _) tree
  unchanged : ((ofDirectory location : ExceptT Failure (StateM FileTree) Package) tree).2 = tree
  /-- There is a package if there are source files and an import path, and if each of the files
  makes up a package on its own, all with the same name; it has their declarations in order. -/
  loads_iff : ∀ p : Package,
    ((ofDirectory location : ExceptT Failure (StateM FileTree) Package) tree).1 = .ok p ↔
      ImportPath.IsImportPath tree location p.path ∧ ∃ names packages,
        AreSourceNames tree location names ∧ names ≠ [] ∧
        List.Forall₂ (ReadsAs tree p.path) (names.map location.join) packages ∧
        (∀ q ∈ packages, q.name = p.name) ∧
        p.declarations = packages.flatMap (·.declarations)

theorem directoryLaws (location : Path) (tree : FileTree) : DirectoryLaws location tree where
  any_order := fun _ => ofDirectory_listing
  unchanged := ofDirectory_same
  loads_iff := fun _ => ofDirectory_eq_ok_iff

end Package

end Interposer
