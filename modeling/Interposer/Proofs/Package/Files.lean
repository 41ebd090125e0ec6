import Interposer.Proofs.Package.Load

/-! Source files, and the packages that each of them makes up on its own (`Package.ofSource_eq_ok`).
The steps by which packages are loaded succeed if all that they are made up of does. -/

namespace Interposer

open FileSystem FileTree

/-- A source file: its text, and the items that a reader finds there. -/
structure SourceFile where
  text : String
  items : List Source.Item

namespace SourceFile

/-- The items are those of the text. -/
def Parses (f : SourceFile) : Prop := Source.parse f.text.toList = .ok f.items

def packageName (f : SourceFile) : String := Source.packageName f.items

/-- What names mean at the top level of the file, in the package that is imported from `path`. -/
def scope (f : SourceFile) (path : String) : Source.Scope :=
  ⟨f.text.toList, path, Source.importEntries f.items, []⟩

def declarations (f : SourceFile) (path : String) : List Declaration :=
  f.items.flatMap (f.scope path).readItem

/-- The file stands in the tree. -/
def IsAt (tree : FileTree) (file : Path) (f : SourceFile) : Prop :=
  tree.readText file = .ok f.text ∧ f.Parses

end SourceFile

namespace Package

variable {tree : FileTree} {location : Path} {p p' : Package}

theorem ofSource_of_parses {f : SourceFile} (h : f.Parses) (location path : String) :
    ofSource location f.text path = .ok ⟨f.packageName, path, f.declarations path⟩ := by
  unfold ofSource
  unfold SourceFile.Parses at h
  generalize Source.parse f.text.toList = parsed at h
  cases h
  rfl

theorem ofSource_eq_ok {location text path : String} (h : ofSource location text path = .ok p) :
    ∃ f : SourceFile, f.text = text ∧ f.Parses ∧
      p = ⟨f.packageName, path, f.declarations path⟩ := by
  cases hparse : Source.parse text.toList with
  | error line =>
    unfold ofSource at h
    generalize Source.parse text.toList = parsed at h hparse
    cases hparse
    cases h
  | ok items =>
    have hfile : (SourceFile.mk text items).Parses := hparse
    rw [ofSource_of_parses hfile location path] at h
    cases h
    exact ⟨⟨text, items⟩, rfl, hfile, rfl⟩

/-- What is answered after a step that leaves the tree as it is. -/
theorem step_eq_ok {α β : Type} {x : ExceptT Failure (StateM FileTree) α}
    {f : α → ExceptT Failure (StateM FileTree) β} {b : β} (hsame : (x tree).2 = tree) :
    ((x >>= f) tree).1 = .ok b ↔ ∃ a, (x tree).1 = .ok a ∧ (f a tree).1 = .ok b := by
  rw [step_apply]
  generalize x tree = outcome at hsame ⊢
  obtain ⟨result, tree'⟩ := outcome
  obtain rfl : tree' = tree := hsame
  cases result <;> simp

theorem lift_eq_ok {α β : Type} {e : Except Failure α}
    {f : α → ExceptT Failure (StateM FileTree) β} {b : β} :
    (((liftM e : ExceptT Failure (StateM FileTree) α) >>= f) tree).1 = .ok b ↔
      ∃ a, e = .ok a ∧ (f a tree).1 = .ok b := by
  rw [step_eq_ok rfl, lift_apply]

theorem read_eq_ok {file : Path} {β : Type}
    {f : String → ExceptT Failure (StateM FileTree) β} {b : β} :
    ((FileSystem.read file >>= f) tree).1 = .ok b ↔
      ∃ text, tree.readText file = .ok text ∧ (f text tree).1 = .ok b := by
  have hread : Transfers tree tree (FileSystem.read file) := .read fun _ h => h
  rw [step_eq_ok hread.same, FileSystem.read, attempt_apply]
  simp only [FileSystem.readText, FileTree.ask]
  cases tree.readText file <;> simp [Except.mapError]

theorem append_eq_ok {q : Package} : append location p q = .ok p' ↔
    q.name = p.name ∧ p' = { p with declarations := p.declarations ++ q.declarations } := by
  rw [append]
  split
  · next hname => simp [hname, eq_comm]
  · next hname => exact iff_of_false nofun fun h => hname h.1.symm

end Package

end Interposer
