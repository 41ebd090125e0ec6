import Interposer.Run
import Interposer.Proofs.Package.Description
import Interposer.Proofs.Package.Load

/-! What a run does to a tree of files. It settles everything before it changes anything, so that a
run that fails makes nothing but directories for its output, and a run that generates its file
changes nothing else. The same run once more comes to the same and changes nothing at all. -/

namespace Interposer

open FileSystem FileTree

variable {tree tree' : FileTree} {place : Location} {output : Path} {given : Arguments}
  {config : Config} {arguments : List String}

/-! ## What is asked before the file is written -/

theorem Run.transfers_settle
    (h : ∀ path, given.path? .config = some path → ∀ text,
      tree.readText path = .ok text → tree'.readText path = .ok text) :
    Transfers tree tree' (Run.settle given) := by
  rw [Run.settle]
  split
  · exact .pure _
  · next path hpath =>
    refine .bind ?_ fun config _ => .pure _
    rw [Run.readConfig]
    exact .bind (.read (h path hpath)) fun text _ => .lift _

theorem Run.transfers_compose (h : Package.LoadsAlike tree tree' config.package) :
    Transfers tree tree' (Run.compose config) := by
  rw [Run.compose]
  refine .bind (.lift _) fun _ _ => .bind (.lift _) fun name _ => .bind (.lift _) fun package _ =>
    .bind h.transfers fun p _ => .bind (.lift _) fun g _ => .lift _

theorem Run.settle_apply (given : Arguments) (tree : FileTree) : ∃ result,
    (Run.settle given : ExceptT Failure (StateM FileTree) Config) tree = (result, tree) := by
  have h : Transfers tree tree (Run.settle given) := Run.transfers_settle fun _ _ _ h => h
  exact ⟨_, Prod.ext rfl h.same⟩

theorem Run.compose_apply (config : Config) (tree : FileTree) : ∃ result,
    (Run.compose config : ExceptT Failure (StateM FileTree) String) tree = (result, tree) :=
  ⟨_, Prod.ext rfl (Run.transfers_compose (.refl tree config.package)).same⟩

/-! ## Ends of a run -/

/-- What is reported of the generation. -/
def Report.ofResult : Except Failure Path → Report
  | .ok output => .generated output
  | .error why => .failed why

theorem run_of_request (hrequest : Request.ofCommandLine arguments = .ok (.generate given))
    (tree : FileTree) : (run arguments : StateM FileTree Report) tree =
      (.ofResult ((Run.generate given : ExceptT Failure (StateM FileTree) Path) tree).1,
        ((Run.generate given : ExceptT Failure (StateM FileTree) Path) tree).2) := by
  rw [run, hrequest]
  simp only
  rw [bind_apply, ExceptT.run]
  obtain ⟨result, tree'⟩ := (Run.generate given : ExceptT Failure (StateM FileTree) Path) tree
  cases result <;> rfl

/-- How a run can end, and the tree that it leaves. -/
inductive Ran (arguments : List String) (tree : FileTree) : Report × FileTree → Prop
  /-- There is nothing to generate, or something was wrong before the file was written. -/
  | unchanged {report : Report} : (∀ output, report ≠ .generated output) →
    Ran arguments tree (report, tree)
  | unsaved {given : Arguments} {config : Config} {tree' : FileTree} :
    Request.ofCommandLine arguments = .ok (.generate given) →
    (Run.settle given : ExceptT Failure (StateM FileTree) Config) tree = (.ok config, tree) →
    action = .createDirectory ∨ action = .write →
    MakesAlong config.output tree tree' →
    Ran arguments tree (.failed (.file action location why), tree')
  | generated {given : Arguments} {config : Config} {text : String} {tree' tree'' : FileTree}
      {place : Location} :
    Request.ofCommandLine arguments = .ok (.generate given) →
    (Run.settle given : ExceptT Failure (StateM FileTree) Config) tree = (.ok config, tree) →
    (Run.compose config : ExceptT Failure (StateM FileTree) String) tree = (.ok text, tree) →
    MakesAlong config.output tree tree' → Writes config.output text place tree' tree'' →
    (∀ parent, config.output.parent? = some parent →
      parent.text = "" ∨ tree'.isDirectory parent = true) →
    Ran arguments tree (.generated config.output, tree'')

theorem ran (arguments : List String) (tree : FileTree) :
    Ran arguments tree ((run arguments : StateM FileTree Report) tree) := by
  cases hrequest : Request.ofCommandLine arguments with
  | error why =>
    rw [run, hrequest]
    exact .unchanged fun _ => Report.noConfusion
  | ok request =>
    cases request with
    | help =>
      rw [run, hrequest]
      exact .unchanged fun _ => Report.noConfusion
    | version =>
      rw [run, hrequest]
      exact .unchanged fun _ => Report.noConfusion
    | generate given =>
      rw [run_of_request hrequest, Run.generate, step_apply]
      obtain ⟨result, hsettle⟩ := Run.settle_apply given tree
      rw [hsettle]
      cases result with
      | error why => exact .unchanged fun _ => Report.noConfusion
      | ok config =>
        simp only
        rw [step_apply]
        obtain ⟨result, hcompose⟩ := Run.compose_apply config tree
        rw [hcompose]
        cases result with
        | error why => exact .unchanged fun _ => Report.noConfusion
        | ok text =>
          simp only
          rw [step_apply]
          have hsaved := saved config.output text tree
          generalize (save config.output text : ExceptT Failure (StateM FileTree) Unit) tree =
            outcome at *
          cases hsaved with
          | written halong hwrites hparent =>
            exact .generated hrequest hsettle hcompose halong hwrites hparent
          | failed haction halong => exact .unsaved hrequest hsettle haction halong

/-! ## Runs that fail -/

/-- A run that fails leaves every file as it was. What it may leave behind are new directories on
the path of its output, where these could not be made in full or the file could not be written. -/
theorem run_failed {report : Report} (hcode : report.exitCode ≠ 0)
    (h : (run arguments : StateM FileTree Report) tree = (report, tree')) :
    tree' = tree ∨ ∃ given config action location why,
      Request.ofCommandLine arguments = .ok (.generate given) ∧
      (Run.settle given : ExceptT Failure (StateM FileTree) Config) tree = (.ok config, tree) ∧
      report = .failed (.file action location why) ∧
      (action = .createDirectory ∨ action = .write) ∧ MakesAlong config.output tree tree' := by
  have hran := ran arguments tree
  rw [h] at hran
  cases hran with
  | unchanged => exact .inl rfl
  | unsaved hrequest hsettle haction halong =>
    exact .inr ⟨_, _, _, _, _, hrequest, hsettle, rfl, haction, halong⟩
  | generated => exact absurd rfl hcode

/-! ## Runs that generate their file -/

/-- The second tree has a file where the path leads and new directories on the path, and else it is
the first one. -/
structure DiffersAt (output : Path) (place : Location) (tree tree' : FileTree) : Prop where
  workingDirectory : tree'.workingDirectory = tree.workingDirectory
  locate : tree'.locate output = .ok place
  file : ∃ content, tree'.get? place = some (.file content)
  other : ∀ l, l ≠ place → tree'.get? l = tree.get? l ∨
    tree.get? l = none ∧ tree'.get? l = some .directory ∧ tree'.OnPath output l

/-- The place is one of which a run reads the text: that of the file of its settings, or of a
package. Module files are left out. -/
def Run.IsInput (tree : FileTree) (given : Arguments) (config : Config) (l : Location) : Prop :=
  (∃ path, given.path? .config = some path ∧ tree.locate path = .ok l) ∨
    Package.IsInput tree config.package l

theorem Config.extension?_of_validate (h : config.validate = .ok ()) :
    config.output.extension?.map String.toLower = some "go" := by
  by_contra hne
  rw [validate] at h
  cases hname : config.interfaceName with
  | error why => simp [hname, bind, Except.bind] at h
  | ok name =>
    simp only [hname, bind, Except.bind, if_pos hne] at h
    split at h
    · cases h
    · cases h

/-- A generated file is no module file. -/
theorem Config.output_ne_moduleFile (h : config.validate = .ok ()) {text : String}
    (hwrites : Writes config.output text place tree tree') :
    place.getLast? ≠ some ModuleFile.name := by
  intro hlast
  have hextension := extension?_of_validate h
  rw [Path.extension?, hwrites.fileName?, hlast] at hextension
  exact absurd hextension (by decide +kernel)

theorem Run.validate_of_compose {text : String}
    (h : (Run.compose config : ExceptT Failure (StateM FileTree) String) tree = (.ok text, tree)) :
    config.validate = .ok () := by
  rw [Run.compose, step_apply] at h
  cases hvalidate : config.validate with
  | error why => rw [hvalidate] at h; cases h
  | ok _ => rfl

theorem Run.compose_of_stages {name package : String} {p : Package} {g : Generator}
    {text : String} (hvalidate : config.validate = .ok ())
    (hname : config.interfaceName = .ok name) (hpackage : config.packageName = .ok package)
    (hload : (Package.load config.package : ExceptT Failure (StateM FileTree) Package) tree =
      (.ok p, tree))
    (hnew : Generator.new p name config.buildHooks = .ok g)
    (hgenerate : g.generate package config.typeName = .ok text) :
    (Run.compose config : ExceptT Failure (StateM FileTree) String) tree = (.ok text, tree) := by
  rw [Run.compose, hvalidate, hname, hpackage, step_apply, lift_apply]
  simp only [checked, Except.mapError]
  rw [step_apply, lift_apply]
  simp only
  rw [step_apply, lift_apply]
  simp only
  rw [step_apply, hload]
  simp only
  rw [step_apply, lift_apply, hnew]
  simp only
  rw [lift_apply, hgenerate]

theorem run_of_stages {text : String}
    (hrequest : Request.ofCommandLine arguments = .ok (.generate given))
    (hsettle : (Run.settle given : ExceptT Failure (StateM FileTree) Config) tree =
      (.ok config, tree))
    (hcompose : (Run.compose config : ExceptT Failure (StateM FileTree) String) tree =
      (.ok text, tree))
    (hsave : (save config.output text : ExceptT Failure (StateM FileTree) Unit) tree =
      (.ok (), tree')) :
    (run arguments : StateM FileTree Report) tree = (.generated config.output, tree') := by
  have hgenerate : (Run.generate given : ExceptT Failure (StateM FileTree) Path) tree =
      (.ok config.output, tree') := by
    rw [Run.generate, step_apply, hsettle]
    simp only
    rw [step_apply, hcompose]
    simp only
    rw [step_apply, hsave]
    rfl
  rw [run_of_request hrequest, hgenerate]
  rfl

theorem FileTree.changed_of_writes {tree'' : FileTree} {text : String}
    (halong : MakesAlong output tree tree') (hwrites : Writes output text place tree' tree'') :
    Changed place tree tree'' := by
  refine ⟨halong.grows.trans hwrites.grows, fun hl content => ?_⟩
  rw [hwrites.get?, if_neg hl]
  rcases halong.get? _ with heq | ⟨hnone, hdirectory, -⟩
  · rw [heq]
  · rw [hnone, hdirectory]
    simp

theorem FileTree.differsAt_of_writes {tree'' : FileTree} {text : String}
    (halong : MakesAlong output tree tree') (hwrites : Writes output text place tree' tree'') :
    DiffersAt output place tree tree'' where
  workingDirectory := (halong.grows.trans hwrites.grows).workingDirectory
  locate := hwrites.locate
  file := ⟨_, (hwrites.get? place).trans (if_pos rfl)⟩
  other := fun l hl => by
    rw [hwrites.get?, if_neg hl]
    refine (halong.get? l).imp_right fun ⟨hnone, hdirectory, segments, hbegin, hlocate⟩ => ?_
    exact ⟨hnone, hdirectory, segments, hbegin, hwrites.grows.locate hlocate⟩

/-- A run that generates its file changes nothing but this file and directories that the path of
the file leads through. Unless it has overwritten what it read, the same run can be repeated and
then leaves the whole tree as it is. -/
theorem run_generated (hwf : tree.WellFormed)
    (h : (run arguments : StateM FileTree Report) tree = (.generated output, tree')) :
    ∃ given config place, Request.ofCommandLine arguments = .ok (.generate given) ∧
      (Run.settle given : ExceptT Failure (StateM FileTree) Config) tree = (.ok config, tree) ∧
      config.output = output ∧ DiffersAt output place tree tree' ∧
      (¬ Run.IsInput tree given config place →
        (run arguments : StateM FileTree Report) tree' = (.generated output, tree')) := by
  have hran := ran arguments tree
  rw [h] at hran
  cases hran with
  | unchanged hreport => exact absurd rfl (hreport output)
  | @generated given config text tree₁ _ place hrequest hsettle hcompose halong hwrites hparent =>
    refine ⟨given, config, place, hrequest, hsettle, rfl, differsAt_of_writes halong hwrites,
      fun hinput => ?_⟩
    have hchanged := changed_of_writes halong hwrites
    have hmodule := config.output_ne_moduleFile (Run.validate_of_compose hcompose) hwrites
    have hpackage : Package.LoadsAlike tree tree' config.package :=
      Package.loadsAlike_of_changed hchanged hwf hmodule fun hl => hinput (.inr hl)
    have hsettings : ∀ path, given.path? .config = some path → ∀ text,
        tree.readText path = .ok text → tree'.readText path = .ok text :=
      fun path hpath text htext =>
        hchanged.readText htext fun hl => hinput (.inl ⟨path, hpath, hl⟩)
    exact run_of_stages hrequest
      ((Run.transfers_settle hsettings).answer (congrArg Prod.fst hsettle))
      ((Run.transfers_compose hpackage).answer (congrArg Prod.fst hcompose))
      (save_again hwrites hparent)

/-! ## A run on a package description -/

/-- A tree with nothing but a package description, in the working directory. -/
def journalTree : FileTree := ⟨[], [(["journal.json"], .file journalText.toUTF8)]⟩

/-- The path of the output goes back from a directory that is not there. -/
def journalArguments : List String :=
  ["Journal", "-p", "journal.json", "-o", "fresh/../dblog/wrapper.go"]

def journalGiven : Arguments :=
  { interface := some "Journal"
    values := [(.output, "fresh/../dblog/wrapper.go"), (.package, "journal.json")] }

theorem wellFormed_journalTree : journalTree.WellFormed := by
  have hentry : ∀ {l : Location} {name : String}, (journalTree.get? (l ++ [name])).isSome →
      l = [] ∧ name = "journal.json" := by
    intro l name h
    have heq : l ++ [name] = ["journal.json"] := by
      by_contra hne
      have hnil : l ++ [name] ≠ [] := by simp
      obtain ⟨first, rest, hcons⟩ := List.exists_cons_of_ne_nil hnil
      rw [hcons] at h hne
      simp [journalTree, FileTree.get?, List.lookup_cons, beq_false_of_ne hne] at h
    cases l with
    | nil => exact ⟨rfl, List.singleton_inj.mp heq⟩
    | cons => simp at heq
  exact ⟨fun h => by rw [(hentry h).1]; rfl, fun h => by rw [(hentry h).2]; exact ⟨rfl, by decide⟩⟩

theorem ofCommandLine_journalArguments :
    Request.ofCommandLine journalArguments = .ok (.generate journalGiven) := by
  have hword : Word.ofText "Journal" = .operand "Journal" := by decide +kernel
  have hpackage : Word.ofText "-p" = .short 'p' [] := by decide +kernel
  have houtput : Word.ofText "-o" = .short 'o' [] := by decide +kernel
  have hnamed : namedOption "-p" (.short 'p' []) = .ok (.value .package, none) := rfl
  have hnamed' : namedOption "-o" (.short 'o' []) = .ok (.value .output, none) := rfl
  rw [Request.ofCommandLine, journalArguments]
  simp only [Request.readFrom, hword, hpackage, houtput, hnamed, hnamed']
  rfl

theorem load_journal :
    (Package.load (.ofText "journal.json") : ExceptT Failure (StateM FileTree) Package)
      journalTree = (.ok journal, journalTree) := by
  have hread : journalTree.readText (.ofText "journal.json") = .ok journalText :=
    readText_eq_ok.mpr ⟨["journal.json"], _, by decide +kernel, rfl, fromUTF8?_toUTF8 journalText⟩
  refine Package.load_description (by decide +kernel) hread ?_
  rw [Package.ofDescription, isText_journalText.parse?_eq, Option.bind_some,
    describesPackage_journal.readPackage_eq isText_journalText.isReadable depth_journalDescription]

/-- The description is all that the run reads. -/
theorem not_isInput_journal :
    ¬ Run.IsInput journalTree journalGiven (journalGiven.complete {}) ["dblog", "wrapper.go"] := by
  have hlocate : journalTree.locate (.ofText "journal.json") = .ok ["journal.json"] := by
    decide +kernel
  rintro (⟨path, hpath, -⟩ | hinput)
  · cases hpath
  · have hlocate' : journalTree.locate (.ofText "journal.json") = .ok ["dblog", "wrapper.go"] := by
      rwa [Package.IsInput, if_pos (by decide +kernel)] at hinput
    exact absurd (hlocate.symm.trans hlocate') (by decide)

theorem compose_journal : ∃ text,
    (Run.compose (journalGiven.complete {}) : ExceptT Failure (StateM FileTree) String)
      journalTree = (.ok text, journalTree) := by
  obtain ⟨g, text, hnew, hgenerate⟩ : ∃ g text,
      Generator.new journal "Journal" (journalGiven.complete {}).buildHooks = .ok g ∧
      g.generate "dblog" (journalGiven.complete {}).typeName = .ok text := ⟨_, _, rfl, rfl⟩
  exact ⟨text, Run.compose_of_stages (by decide +kernel) (by decide +kernel) (by decide +kernel)
    load_journal hnew hgenerate⟩

theorem save_journal (text : String) :
    (save (journalGiven.complete {}).output text : ExceptT Failure (StateM FileTree) Unit)
      journalTree =
      (.ok (), ⟨[], [(["journal.json"], .file journalText.toUTF8), (["fresh"], .directory),
          (["dblog"], .directory), (["dblog", "wrapper.go"], .file text.toUTF8)]⟩) := by
  rfl

/-- The first run makes a directory from which its path goes back, and the second finds what the
first has made. -/
theorem run_generated_journal : ∃ tree', journalTree.WellFormed ∧
    (run journalArguments : StateM FileTree Report) journalTree =
      (.generated (.ofText "fresh/../dblog/wrapper.go"), tree') ∧
    DiffersAt (.ofText "fresh/../dblog/wrapper.go") ["dblog", "wrapper.go"] journalTree tree' ∧
    ¬ Run.IsInput journalTree journalGiven (journalGiven.complete {}) ["dblog", "wrapper.go"] ∧
    (run journalArguments : StateM FileTree Report) tree' =
      (.generated (.ofText "fresh/../dblog/wrapper.go"), tree') := by
  obtain ⟨text, hcompose⟩ := compose_journal
  have hrun := run_of_stages ofCommandLine_journalArguments rfl hcompose (save_journal text)
  obtain ⟨given, config, place, hrequest, hsettle, -, hdiffers, hagain⟩ :=
    run_generated wellFormed_journalTree hrun
  cases ofCommandLine_journalArguments.symm.trans hrequest
  obtain rfl : journalGiven.complete {} = config := by cases hsettle; rfl
  obtain rfl : ["dblog", "wrapper.go"] = place := by cases hdiffers.locate; rfl
  exact ⟨_, wellFormed_journalTree, hrun, hdiffers, not_isInput_journal,
    hagain not_isInput_journal⟩

/-- Not every new directory is above the output. -/
theorem not_above_output_journal : ∃ tree',
    (run journalArguments : StateM FileTree Report) journalTree =
      (.generated (.ofText "fresh/../dblog/wrapper.go"), tree') ∧
    tree'.locate (.ofText "fresh/../dblog/wrapper.go") = .ok ["dblog", "wrapper.go"] ∧
    journalTree.get? ["fresh"] = none ∧ tree'.get? ["fresh"] = some .directory ∧
    ¬ ["fresh"] <+: ["dblog", "wrapper.go"] := by
  obtain ⟨text, hcompose⟩ := compose_journal
  exact ⟨_, run_of_stages ofCommandLine_journalArguments rfl hcompose (save_journal text),
    rfl, rfl, rfl, by decide⟩

end Interposer
