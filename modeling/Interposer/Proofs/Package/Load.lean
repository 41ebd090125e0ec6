import Mathlib.Data.List.Perm.Basic
import Interposer.Package.Load
import Interposer.Proofs.FileTree.Answers
import Interposer.Proofs.FileTree.Save

/-! Loading a package asks the tree of files and leaves it as it is. On a tree that has changed in
a file outside of the package the answers are the same, and so is the package. -/

namespace Interposer

open FileSystem FileTree

variable {α β : Type} {tree tree' : FileTree} {place : Location} {location : Path}

/-- A computation that leaves the first tree as it is, and that answers on the second tree what it
answers on the first. -/
structure Transfers (tree tree' : FileTree) (x : ExceptT Failure (StateM FileTree) α) : Prop where
  same : (x tree).2 = tree
  answer : ∀ {a}, (x tree).1 = .ok a → x tree' = (.ok a, tree')

namespace Transfers

theorem pure (a : α) : Transfers tree tree' (pure a) :=
  ⟨rfl, fun h => by cases h; rfl⟩

theorem throw (why : Failure) : Transfers tree tree' (throw why : ExceptT Failure _ α) :=
  ⟨rfl, nofun⟩

theorem bind {x : ExceptT Failure (StateM FileTree) α}
    {f : α → ExceptT Failure (StateM FileTree) β} (hx : Transfers tree tree' x)
    (hf : ∀ a, (x tree).1 = .ok a → Transfers tree tree' (f a)) :
    Transfers tree tree' (x >>= f) := by
  have hsame := hx.same
  have hanswer := @hx.answer
  refine ⟨?_, fun {b} h => ?_⟩
  · rw [step_apply]
    generalize x tree = outcome at *
    obtain ⟨result, t⟩ := outcome
    obtain rfl : t = tree := hsame
    cases result with
    | error why => rfl
    | ok a => exact (hf a rfl).same
  · rw [step_apply] at h ⊢
    generalize x tree = outcome at *
    obtain ⟨result, t⟩ := outcome
    obtain rfl : t = tree := hsame
    cases result with
    | error why => cases h
    | ok a =>
      rw [hanswer rfl]
      exact (hf a rfl).answer h

theorem lift (e : Except Failure α) :
    Transfers tree tree' (liftM e : ExceptT Failure (StateM FileTree) α) := by
  cases e with
  | ok a => exact pure a
  | error why => exact throw why

theorem attempt {action : FileAction} {path : Path} {question : FileTree → Except FileFailure α}
    (h : ∀ a, question tree = .ok a → question tree' = .ok a) :
    Transfers tree tree' (FileSystem.attempt action path (ask question)) := by
  refine ⟨?_, fun {a} ha => ?_⟩
  · rw [attempt_apply]
    rfl
  · rw [attempt_apply] at ha ⊢
    simp only [ask] at ha ⊢
    cases hq : question tree with
    | error why => rw [hq] at ha; cases ha
    | ok b =>
      rw [hq] at ha
      cases ha
      rw [h _ hq]
      rfl

theorem ask {question : FileTree → α} (h : question tree' = question tree) :
    Transfers tree tree' (ExceptT.lift (FileTree.ask question)) := by
  refine ⟨rfl, fun ha => ?_⟩
  cases ha
  exact congrArg (fun a => ((.ok a : Except Failure α), tree')) h

theorem read {path : Path}
    (h : ∀ text, tree.readText path = .ok text → tree'.readText path = .ok text) :
    Transfers tree tree' (FileSystem.read path) := attempt h

end Transfers

/-! ## Source files -/

/-- The source files among some names in a directory, in the order of their names. -/
def FileTree.sourcePaths (tree : FileTree) (directory : Path) (names : List String) : List Path :=
  (((names.filter Package.isSourceName).mergeSort (· ≤ ·)).map directory.join).filter tree.isFile

/-- A filter that asks the tree about each element. -/
theorem filterM_ask_apply (paths : List Path) (tree : FileTree) :
    (paths.filterM (fun file => ExceptT.lift (FileSystem.isFile file)) :
      ExceptT Failure (StateM FileTree) (List Path)) tree =
      (.ok (paths.filter tree.isFile), tree) := by
  have haux : ∀ (paths kept : List Path),
      (paths.filterAuxM (fun file => ExceptT.lift (FileSystem.isFile file)) kept :
        ExceptT Failure (StateM FileTree) (List Path)) tree =
        (.ok ((paths.filter tree.isFile).reverse ++ kept), tree) := by
    intro paths
    induction paths with
    | nil => exact fun kept => rfl
    | cons file paths ih =>
      intro kept
      rw [List.filterAuxM, step_apply]
      change (paths.filterAuxM _ (cond (tree.isFile file) (file :: kept) kept) :
        ExceptT Failure (StateM FileTree) (List Path)) tree = _
      rw [ih]
      cases h : tree.isFile file <;> simp [h]
  rw [List.filterM, step_apply, haux]
  simp
  rfl

theorem pairwise_mergeSort (names : List String) :
    (names.mergeSort (· ≤ ·)).Pairwise (· ≤ ·) := by
  have hsorted : (names.mergeSort (· ≤ ·)).Pairwise fun a b => decide (a ≤ b) = true :=
    List.pairwise_mergeSort (fun a b c hab hbc => by simp_all; exact String.le_trans hab hbc)
      (fun a b => by simpa using String.le_total a b) names
  exact hsorted.imp of_decide_eq_true

/-- There is only one way to put names in order. -/
theorem eq_of_ordered {names names' : List String} (hperm : names.Perm names')
    (h : names.Pairwise (· ≤ ·)) (h' : names'.Pairwise (· ≤ ·)) : names = names' :=
  hperm.eq_of_pairwise (fun _ _ _ _ => String.le_antisymm) h h'

/-- Sorting takes no notice of what is filtered out afterwards. -/
theorem filter_mergeSort_append {names new : List String} {p q : String → Bool}
    (hpq : ∀ name ∈ names ++ new, q name = p name) (hnew : ∀ name ∈ new, p name = false) :
    ((names ++ new).mergeSort (· ≤ ·)).filter q = (names.mergeSort (· ≤ ·)).filter p := by
  have hperm : ((names ++ new).mergeSort (· ≤ ·)).filter p |>.Perm
      ((names.mergeSort (· ≤ ·)).filter p) := by
    have hempty : new.filter p = [] :=
      List.filter_eq_nil_iff.mpr fun name h => by simp [hnew name h]
    have h := (List.mergeSort_perm (names ++ new) (· ≤ ·)).filter p
    rw [List.filter_append, hempty, List.append_nil] at h
    exact h.trans ((List.mergeSort_perm names (· ≤ ·)).filter p).symm
  rw [List.filter_congr fun name hname => hpq name (List.mem_mergeSort.mp hname)]
  exact eq_of_ordered hperm ((pairwise_mergeSort _).filter p) ((pairwise_mergeSort _).filter p)

namespace Package

theorem isProper_of_isSourceName {name : String} (h : isSourceName name = true) :
    Path.IsProper name := by
  have hnone : ∀ name ∈ ["", ".", ".."], isSourceName name = false := by decide +kernel
  have hne : ∀ name' ∈ ["", ".", ".."], name ≠ name' := by
    rintro name' hname' rfl
    rw [hnone name hname'] at h
    cases h
  simp only [List.mem_cons, List.not_mem_nil, or_false, forall_eq_or_imp, forall_eq] at hne
  exact ⟨by simp [Path.isIdle, hne.1, hne.2.1], hne.2.2⟩

/-- Two trees with the same module file in a place, or with none. -/
structure SameModule (tree tree' : FileTree) (root : Location) : Prop where
  isFile : tree'.isFile (root.path.join ModuleFile.name) =
    tree.isFile (root.path.join ModuleFile.name)
  text : ∀ text, tree.readText (root.path.join ModuleFile.name) = .ok text →
    tree'.readText (root.path.join ModuleFile.name) = .ok text

/-- Two trees on which loading the package finds the same. -/
structure LoadsAlike (tree tree' : FileTree) (location : Path) : Prop where
  description : location.extension? = some "json" → ∀ text,
    tree.readText location = .ok text → tree'.readText location = .ok text
  sources : location.extension? ≠ some "json" → ∀ names, tree.list location = .ok names →
    ∃ names', tree'.list location = .ok names' ∧
      tree'.sourcePaths location names' = tree.sourcePaths location names ∧
      ∀ file ∈ tree.sourcePaths location names, ∀ text,
        tree.readText file = .ok text → tree'.readText file = .ok text
  locate : ∀ l, tree.locate location = .ok l → tree'.locate location = .ok l
  module : ∀ names l, tree.list location = .ok names → tree.locate location = .ok l →
    ∀ root, root <+: l → SameModule tree tree' root

theorem LoadsAlike.refl (tree : FileTree) (location : Path) : LoadsAlike tree tree location where
  description := fun _ _ h => h
  sources := fun _ names h => ⟨names, h, rfl, fun _ _ _ h => h⟩
  locate := fun _ h => h
  module := fun _ _ _ _ _ _ => ⟨rfl, fun _ h => h⟩

theorem sourceFiles_apply (location : Path) (tree : FileTree) :
    (sourceFiles location : ExceptT Failure (StateM FileTree) (List Path)) tree =
      (((tree.list location).mapError (.file .readDirectory location.text)).map
        (tree.sourcePaths location), tree) := by
  rw [sourceFiles, step_apply, attempt_apply]
  simp only [FileSystem.list, FileTree.ask]
  cases tree.list location with
  | error why => rfl
  | ok names => exact filterM_ask_apply _ tree

theorem transfers_addFiles {directory : Path} {files : List Path}
    (h : ∀ file ∈ files, ∀ text, tree.readText file = .ok text → tree'.readText file = .ok text)
    (p : Package) : Transfers tree tree' (addFiles directory p files) := by
  induction files generalizing p with
  | nil => exact .pure p
  | cons file files ih =>
    rw [addFiles]
    refine .bind (.read (h file List.mem_cons_self)) fun text _ => ?_
    refine .bind (.lift _) fun q _ => .bind (.lift _) fun p' _ => ?_
    exact ih (fun file hfile => h file (List.mem_cons_of_mem _ hfile)) p'

theorem transfers_search {places : List (Location × List String)}
    (h : ∀ place ∈ places, SameModule tree tree' place.1) :
    Transfers tree tree' (ImportPath.search places) := by
  induction places with
  | nil => exact .pure none
  | cons place places ih =>
    obtain ⟨root, names⟩ := place
    have hroot := h _ List.mem_cons_self
    rw [ImportPath.search]
    refine .bind (.ask hroot.isFile) fun isFile _ => ?_
    split
    · refine .bind (.read hroot.text) fun text _ => ?_
      split
      · exact .pure _
      · exact .throw _
    · exact ih fun place hplace => h place (List.mem_cons_of_mem _ hplace)

theorem transfers_importPath
    (hlocate : ∀ l, tree.locate location = .ok l → tree'.locate location = .ok l)
    (hmodules : ∀ l, tree.locate location = .ok l →
      ∀ place ∈ l.ancestors, SameModule tree tree' place.1) :
    Transfers tree tree' (ImportPath.ofDirectory location) := by
  rw [ImportPath.ofDirectory]
  refine .bind (.attempt hlocate) fun l hl => ?_
  have hfound : tree.locate location = .ok l := by
    rw [attempt_apply] at hl
    simp only [FileSystem.locate, FileTree.ask] at hl
    cases hlocate : tree.locate location with
    | error why => rw [hlocate] at hl; cases hl
    | ok l' => rw [hlocate] at hl; cases hl; rfl
  refine .bind (transfers_search (hmodules l hfound)) fun path? _ => ?_
  split
  · exact .pure _
  · exact .throw _

theorem prefix_of_mem_ancestors {l : Location} {place : Location × List String}
    (h : place ∈ l.ancestors) : place.1 <+: l := by
  simp only [Location.ancestors, List.mem_map] at h
  obtain ⟨n, -, rfl⟩ := h
  rw [List.splitAt_eq]
  exact List.take_prefix n l

theorem load_description {text : String} {p : Package}
    (hjson : location.extension? = some "json") (hread : tree.readText location = .ok text)
    (hdescription : ofDescription location.text text = .ok p) :
    (load location : ExceptT Failure (StateM FileTree) Package) tree = (.ok p, tree) := by
  rw [load, if_pos hjson, step_apply, FileSystem.read, attempt_apply]
  simp only [FileSystem.readText, FileTree.ask, hread, Except.mapError]
  rw [lift_apply, hdescription]

theorem LoadsAlike.transfers_sourceFiles (h : LoadsAlike tree tree' location)
    (hjson : location.extension? ≠ some "json") :
    Transfers tree tree' (sourceFiles location) := by
  refine ⟨by rw [sourceFiles_apply], fun hok => ?_⟩
  rw [sourceFiles_apply] at hok ⊢
  cases hlist : tree.list location with
  | error why => rw [hlist] at hok; cases hok
  | ok names =>
    obtain ⟨names', hlist', hpaths, -⟩ := h.sources hjson names hlist
    rw [hlist] at hok
    cases hok
    rw [hlist', ← hpaths]
    rfl

theorem LoadsAlike.transfers (h : LoadsAlike tree tree' location) :
    Transfers tree tree' (load location) := by
  rw [load]
  split
  · next hjson => exact .bind (.read (h.description hjson)) fun text _ => .lift _
  · next hjson =>
    rw [ofDirectory]
    refine .bind (h.transfers_sourceFiles hjson) fun files hfiles => ?_
    obtain ⟨names, hlist, rfl⟩ : ∃ names, tree.list location = .ok names ∧
        tree.sourcePaths location names = files := by
      rw [sourceFiles_apply] at hfiles
      cases hlist : tree.list location with
      | error why => rw [hlist] at hfiles; cases hfiles
      | ok names =>
        rw [hlist] at hfiles
        cases hfiles
        exact ⟨names, rfl, rfl⟩
    obtain ⟨_, _, _, hread⟩ := h.sources hjson names hlist
    split
    · exact .throw _
    · next file rest heq =>
      rw [heq] at hread
      refine .bind ?_ fun path _ => .bind (.read (hread file List.mem_cons_self)) fun text _ =>
        .bind (.lift _) fun p _ =>
          transfers_addFiles (fun file hfile => hread file (List.mem_cons_of_mem _ hfile)) p
      exact transfers_importPath h.locate fun l hl place hplace =>
        h.module names l hlist hl place.1 (prefix_of_mem_ancestors hplace)

/-! ## The files of a package -/

/-- The place is one of which loading the package reads the text, if a file stands there: that of
the description, or one for a source file in the directory. -/
def IsInput (tree : FileTree) (location : Path) (l : Location) : Prop :=
  if location.extension? = some "json" then tree.locate location = .ok l
  else ∃ directory name, tree.locate location = .ok directory ∧ isSourceName name = true ∧
    l = directory ++ [name]

theorem isProper_moduleFile : Path.IsProper ModuleFile.name := ⟨rfl, by decide⟩

theorem sameModule_of_changed (h : Changed place tree tree') (hwf : tree.WellFormed)
    (hplace : place.getLast? ≠ some ModuleFile.name) {root : Location}
    (hroot : tree.get? root = some .directory) : SameModule tree tree' root := by
  have hlocate := hwf.locate_path hroot
  have hne : root ++ [ModuleFile.name] ≠ place := by
    rintro rfl
    exact hplace List.getLast?_concat
  refine ⟨h.isFile_join hlocate hroot isProper_moduleFile hne, fun text htext => ?_⟩
  refine h.readText htext fun hjoin => hne ?_
  rw [locate_join hlocate hroot isProper_moduleFile] at hjoin
  split at hjoin <;> cases hjoin
  rfl

theorem sourcePaths_of_changed (h : Changed place tree tree') {directory : Location}
    {names new : List String} (hlocate : tree.locate location = .ok directory)
    (hdirectory : tree.get? directory = some .directory)
    (hplace : ∀ name, isSourceName name = true → directory ++ [name] ≠ place)
    (hnew : ∀ name ∈ new, tree.get? (directory ++ [name]) = none) :
    tree'.sourcePaths location (names ++ new) = tree.sourcePaths location names := by
  have hsource : ∀ name ∈ names.filter isSourceName ++ new.filter isSourceName,
      isSourceName name = true := fun name hname =>
    (List.mem_append.mp hname).elim (List.mem_filter.mp · |>.2) (List.mem_filter.mp · |>.2)
  have hsame : ∀ name ∈ names.filter isSourceName ++ new.filter isSourceName,
      tree'.isFile (location.join name) = tree.isFile (location.join name) := fun name hname =>
    have hname := hsource name hname
    h.isFile_join hlocate hdirectory (isProper_of_isSourceName hname) (hplace name hname)
  have hnone : ∀ name ∈ new.filter isSourceName, tree.isFile (location.join name) = false := by
    intro name hname
    obtain ⟨hmem, hname⟩ := List.mem_filter.mp hname
    have hjoin := locate_join hlocate hdirectory (isProper_of_isSourceName hname)
    rw [hnew name hmem] at hjoin
    rw [← Bool.not_eq_true, isFile_iff, hjoin]
    rintro ⟨_, _, hl, -⟩
    cases hl
  rw [sourcePaths, sourcePaths, List.filter_append, List.filter_map, List.filter_map]
  exact congrArg (List.map location.join) (filter_mergeSort_append hsame hnone)

/-- What has changed in no file of the package is loaded alike. -/
theorem loadsAlike_of_changed (h : Changed place tree tree') (hwf : tree.WellFormed)
    (hmodule : place.getLast? ≠ some ModuleFile.name) (hinput : ¬ IsInput tree location place) :
    LoadsAlike tree tree' location where
  description := fun hjson text htext =>
    h.readText htext fun hplace => hinput (by rwa [IsInput, if_pos hjson])
  sources := fun hjson names hlist => by
    obtain ⟨directory, new, hlocate, hdirectory, hlist', hnew⟩ := h.list hlist
    have hplace : ∀ name, isSourceName name = true → directory ++ [name] ≠ place :=
      fun name hname heq =>
        hinput (by rw [IsInput, if_neg hjson]; exact ⟨directory, name, hlocate, hname, heq.symm⟩)
    refine ⟨_, hlist', sourcePaths_of_changed h hlocate hdirectory hplace hnew, ?_⟩
    intro file hfile text htext
    refine h.readText htext fun hfileplace => ?_
    simp only [sourcePaths, List.mem_filter, List.mem_map, List.mem_mergeSort] at hfile
    obtain ⟨⟨name, ⟨-, hname⟩, rfl⟩, -⟩ := hfile
    rw [locate_join hlocate hdirectory (isProper_of_isSourceName hname)] at hfileplace
    split at hfileplace <;> cases hfileplace
    exact hplace name hname rfl
  locate := fun l hl => h.grows.locate hl
  module := fun names l hlist hl root hroot => by
    obtain ⟨directory, _, hlocate, hdirectory, -⟩ := h.list hlist
    cases hlocate.symm.trans hl
    exact sameModule_of_changed h hwf hmodule (hwf.directory_of_isPrefix hdirectory hroot)

end Package

end Interposer
