import Interposer.Proofs.FileTree.Walk

/-! What saving a file does to a tree: it makes directories that the path passes through, where
nothing stood, and then the file itself. Saving the same once more changes nothing. -/

namespace Interposer.FileTree

open FileSystem

variable {tree tree' tree'' : FileTree} {l place : Location} {path parent : Path} {text : String}
  {entry : Entry}

/-! ## Steps of a run -/

section

variable {α β : Type}

theorem bind_apply (x : StateM FileTree α) (f : α → StateM FileTree β) (tree : FileTree) :
    (x >>= f) tree = f (x tree).1 (x tree).2 := rfl

/-- A step that a failure ends. -/
theorem step_apply (x : ExceptT Failure (StateM FileTree) α)
    (f : α → ExceptT Failure (StateM FileTree) β) (tree : FileTree) :
    (x >>= f) tree =
      match x tree with
      | (.ok a, tree) => f a tree
      | (.error why, tree) => (.error why, tree) := by
  change (x >>= ExceptT.bindCont f : StateM FileTree _) tree = _
  rw [bind_apply]
  rcases x tree with ⟨_ | _, _⟩ <;> rfl

theorem lift_apply (e : Except Failure α) (tree : FileTree) :
    (liftM e : ExceptT Failure (StateM FileTree) α) tree = (e, tree) := rfl

theorem attempt_apply (action : FileAction) (path : Path)
    (operation : StateM FileTree (Except FileFailure α)) (tree : FileTree) :
    (attempt action path operation : ExceptT Failure (StateM FileTree) α) tree =
      ((operation tree).1.mapError (.file action path.text), (operation tree).2) := by
  have hlift : (liftM operation : ExceptT Failure (StateM FileTree) (Except FileFailure α)) tree =
      (.ok (operation tree).1, (operation tree).2) := rfl
  rw [attempt, step_apply, hlift]
  cases (operation tree).1 <;> rfl

end

/-! ## Setting entries -/

theorem setEntry_of_lookup_eq_none {entries : List (Location × Entry)}
    (h : entries.lookup l = none) : setEntry l entry entries = entries ++ [(l, entry)] := by
  induction entries with
  | nil => rfl
  | cons e entries ih =>
    obtain ⟨l', e'⟩ := e
    rw [List.lookup_cons] at h
    split at h
    · cases h
    · next hne =>
      rw [setEntry, if_neg (fun heq => by simp [heq] at hne), ih h]
      rfl

theorem map_fst_setEntry_of_isSome {entries : List (Location × Entry)}
    (h : (entries.lookup l).isSome) :
    (setEntry l entry entries).map Prod.fst = entries.map Prod.fst := by
  induction entries with
  | nil => cases h
  | cons e entries ih =>
    obtain ⟨l', e'⟩ := e
    rw [setEntry]
    split
    · rfl
    · next hne =>
      rw [List.lookup_cons, beq_false_of_ne (Ne.symm hne)] at h
      rw [List.map_cons, ih h, List.map_cons]

theorem setEntry_self {entries : List (Location × Entry)} (h : entries.lookup l = some entry) :
    setEntry l entry entries = entries := by
  induction entries with
  | nil => cases h
  | cons e entries ih =>
    obtain ⟨l', e'⟩ := e
    rw [setEntry]
    split
    · next heq =>
      subst heq
      rw [List.lookup_cons_self, Option.some.injEq] at h
      rw [h]
    · next hne =>
      rw [List.lookup_cons, beq_false_of_ne (Ne.symm hne)] at h
      rw [ih h]

theorem set_self (hl : l ≠ []) (h : tree.get? l = some entry) : tree.set l entry = tree := by
  obtain ⟨name, names, rfl⟩ := List.exists_cons_of_ne_nil hl
  rw [set, setEntry_self h]

theorem get?_set_of_ne_nil (hl : l ≠ []) (l' : Location) :
    (tree.set l entry).get? l' = if l' = l then some entry else tree.get? l' := by
  by_cases hl' : l' = []
  · subst hl'
    rw [if_neg (Ne.symm hl)]
    rfl
  · exact get?_set tree l l' entry hl'

/-- Nothing but directories where there were directories. -/
theorem grows_set (hl : l ≠ []) (h : tree.get? l = some .directory → entry = .directory) :
    tree.Grows (tree.set l entry) := by
  refine ⟨rfl, fun hdirectory => ?_, fun hsome => ?_, ?_⟩
  · rw [get?_set_of_ne_nil hl]
    split
    · next heq => rw [h (heq ▸ hdirectory)]
    · exact hdirectory
  · rw [get?_set_of_ne_nil hl]
    split
    · rfl
    · exact hsome
  · obtain ⟨name, names, rfl⟩ := List.exists_cons_of_ne_nil hl
    cases hlookup : tree.entries.lookup (name :: names) with
    | none =>
      refine ⟨[name :: names], ?_, ?_⟩
      · rw [set, setEntry_of_lookup_eq_none hlookup, List.map_append]
        rfl
      · intro l' hl'
        rw [List.mem_singleton.mp hl']
        exact hlookup
    | some entry' =>
      refine ⟨[], ?_, nofun⟩
      rw [set, map_fst_setEntry_of_isSome (by rw [hlookup]; rfl), List.append_nil]

/-! ## Making directories -/

/-- The place is one that the path, as it is written, leads through or to. -/
def OnPath (tree : FileTree) (path : Path) (l : Location) : Prop :=
  ∃ segments, segments <+: path.segments ∧ tree.locate ⟨segments⟩ = .ok l

/-- The second tree has new directories on the path, and else it is the first one. -/
structure MakesAlong (path : Path) (tree tree' : FileTree) : Prop where
  grows : tree.Grows tree'
  get? : ∀ l, tree'.get? l = tree.get? l ∨
    tree.get? l = none ∧ tree'.get? l = some .directory ∧ tree'.OnPath path l

namespace MakesAlong

theorem refl (path : Path) (tree : FileTree) : MakesAlong path tree tree :=
  ⟨.refl tree, fun _ => .inl rfl⟩

theorem trans (h : MakesAlong path tree tree') (h' : MakesAlong path tree' tree'') :
    MakesAlong path tree tree'' := by
  refine ⟨h.grows.trans h'.grows, fun l => ?_⟩
  rcases h'.get? l with heq' | ⟨hnone, hdirectory, hpath⟩
  · rcases h.get? l with heq | ⟨hnone, hdirectory, segments, hbegin, hlocate⟩
    · exact .inl (heq'.trans heq)
    · exact .inr ⟨hnone, heq'.trans hdirectory, segments, hbegin, h'.grows.locate hlocate⟩
  · rcases h.get? l with heq | ⟨-, hdirectory', -⟩
    · exact .inr ⟨heq ▸ hnone, hdirectory, hpath⟩
    · rw [hdirectory'] at hnone
      cases hnone

end MakesAlong

theorem makeDirectory_eq_ok (h : tree.makeDirectory path = .ok tree') :
    MakesAlong path tree tree' ∧ tree'.isDirectory path = true := by
  rw [makeDirectory] at h
  cases hend : tree.locateEnd path with
  | error why => simp [hend, bind, Except.bind] at h
  | ok end' =>
    obtain ⟨directory, name⟩ := end'
    simp only [hend, bind, Except.bind] at h
    split at h
    · cases h
    · next hfree =>
      cases h
      obtain ⟨hdots, hnone⟩ : isDots name = false ∧ tree.get? (directory ++ [name]) = none := by
        simpa using hfree
      have hne : directory ++ [name] ≠ [] := by simp
      have hgrows : tree.Grows (tree.set (directory ++ [name]) .directory) :=
        grows_set hne fun _ => rfl
      have hset : (tree.set (directory ++ [name]) .directory).get? (directory ++ [name]) =
          some .directory := by rw [get?_set_of_ne_nil hne, if_pos rfl]
      have hlocate := locate_of_locateEnd (hgrows.locateEnd hend) hdots (by rw [hset]; rfl)
        fun _ => hset
      refine ⟨⟨hgrows, fun l => ?_⟩, isDirectory_iff.mpr ⟨_, hlocate, hset⟩⟩
      by_cases hl : l = directory ++ [name]
      · subst hl
        exact .inr ⟨hnone, hset, _, List.prefix_rfl, hlocate⟩
      · exact .inl (by rw [get?_set_of_ne_nil hne, if_neg hl])

/-- Slashes alone lead to the root, if anywhere. -/
theorem eq_nil_of_locate_blanks {segments : List String} (hblank : ∀ s ∈ segments, s = "")
    (h : tree.locate ⟨segments⟩ = .ok l) : l = [] := by
  obtain ⟨here, rest, hroute, hwalk⟩ := locate_eq_ok.mp h
  match segments with
  | [] => cases hroute
  | [s] =>
    rw [hblank s List.mem_cons_self] at hroute
    cases hroute
  | s :: s' :: segments =>
    rw [hblank s List.mem_cons_self] at hroute
    cases hroute
    rw [walk_idles rfl fun x hx => by rw [hblank x (List.mem_cons_of_mem _ hx)]; rfl] at hwalk
    cases hwalk
    rfl

/-- What is on the way to the directory of a path is on the way to its end. -/
theorem OnPath.of_parent? (h : tree.OnPath parent l) (hparent : path.parent? = some parent)
    (hl : l ≠ []) : tree.OnPath path l := by
  obtain ⟨segments, hbegin, hlocate⟩ := h
  rcases Path.segments_of_parent? hparent with hpath | hblank
  · exact ⟨segments, hbegin.trans hpath, hlocate⟩
  · exact absurd (eq_nil_of_locate_blanks (fun s hs => hblank s (hbegin.subset hs)) hlocate) hl

theorem MakesAlong.of_parent? (h : MakesAlong parent tree tree')
    (hparent : path.parent? = some parent) : MakesAlong path tree tree' := by
  refine ⟨h.grows, fun l => ?_⟩
  rcases h.get? l with heq | ⟨hnone, hdirectory, hpath⟩
  · exact .inl heq
  · refine .inr ⟨hnone, hdirectory, hpath.of_parent? hparent ?_⟩
    rintro rfl
    cases hnone

/-- What making a directory comes to: new directories on its path, and where it succeeds it
stands. -/
structure Made (path : Path) (tree : FileTree) (outcome : Except FileFailure Unit × FileTree) :
    Prop where
  along : MakesAlong path tree outcome.2
  stands : outcome.1 = .ok () → path.text = "" ∨ outcome.2.isDirectory path = true

theorem makesAlong_makeDirectory (path : Path) (tree : FileTree) :
    MakesAlong path tree ((FileSystem.makeDirectory path : StateM FileTree _) tree).2 := by
  simp only [FileSystem.makeDirectory, update]
  split
  · next hmake => exact (makeDirectory_eq_ok hmake).1
  · exact .refl path tree

theorem acceptStanding_error_apply (path : Path) (why : FileFailure) (tree : FileTree) :
    (acceptStanding path (.error why) : StateM FileTree _) tree =
      (if tree.isDirectory path then .ok () else .error why, tree) := by
  rw [acceptStanding, bind_apply]
  cases h : tree.isDirectory path <;> simp [FileSystem.isDirectory, ask, h] <;> rfl

/-- A directory that stands already is as good as a new one. -/
theorem made_acceptStanding (path : Path) (tree : FileTree) :
    Made path tree
      ((FileSystem.makeDirectory path >>= acceptStanding path : StateM FileTree _) tree) := by
  have halong := makesAlong_makeDirectory path tree
  rw [bind_apply]
  cases hmake : tree.makeDirectory path with
  | ok tree' =>
    have hrun : (FileSystem.makeDirectory path : StateM FileTree _) tree = (.ok (), tree') := by
      simp [FileSystem.makeDirectory, update, hmake]
    rw [hrun] at halong ⊢
    exact ⟨halong, fun _ => .inr (makeDirectory_eq_ok hmake).2⟩
  | error why =>
    have hrun : (FileSystem.makeDirectory path : StateM FileTree _) tree = (.error why, tree) := by
      simp [FileSystem.makeDirectory, update, hmake]
    rw [hrun, acceptStanding_error_apply]
    refine ⟨.refl path tree, fun hok => .inr ?_⟩
    by_contra hfalse
    simp [hfalse] at hok

theorem made_makeDirectoriesUpTo (n : Nat) (path : Path) (tree : FileTree) :
    Made path tree ((makeDirectoriesUpTo n path : StateM FileTree _) tree) := by
  induction n generalizing path tree with
  | zero =>
    rw [makeDirectoriesUpTo]
    split
    · next hempty => exact ⟨.refl path tree, fun _ => .inl hempty⟩
    · exact made_acceptStanding path tree
  | succ n ih =>
    rw [makeDirectoriesUpTo]
    split
    · next hempty => exact ⟨.refl path tree, fun _ => .inl hempty⟩
    · have halong := makesAlong_makeDirectory path tree
      have hstanding := made_acceptStanding path tree
      rw [bind_apply] at hstanding ⊢
      generalize (FileSystem.makeDirectory path : StateM FileTree _) tree = made at *
      obtain ⟨result, tree'⟩ := made
      match result, hparent : path.parent? with
      | .error .notFound, some parent =>
        have hparents := ih parent tree'
        simp only
        rw [bind_apply]
        generalize (makeDirectoriesUpTo n parent : StateM FileTree _) tree' = parents at *
        obtain ⟨result, tree''⟩ := parents
        have halong := halong.trans (hparents.along.of_parent? hparent)
        cases result with
        | error why => exact ⟨halong, nofun⟩
        | ok _ =>
          have hagain := made_acceptStanding path tree''
          exact ⟨halong.trans hagain.along, hagain.stands⟩
      | .error .notFound, none => exact hstanding
      | .ok _, _ | .error .alreadyExists, _ | .error .notDirectory, _ | .error .isDirectory, _
      | .error .notText, _ | .error (.unusable _), _ => exact hstanding

/-! ## Saving -/

/-- The second tree has a file at the end of the path in place of what stood there. -/
structure Writes (path : Path) (text : String) (place : Location) (tree tree' : FileTree) :
    Prop where
  set : tree' = tree.set place (.file text.toUTF8)
  ne_nil : place ≠ []
  locateEnd : ∃ directory name, place = directory ++ [name] ∧ isDots name = false ∧
    tree.locateEnd path = .ok (directory, name)
  free : tree.get? place ≠ some .directory
  noSlash : path.segments.getLast? ≠ some ""

theorem writeText_eq_ok (h : tree.writeText path text = .ok tree') :
    ∃ place, Writes path text place tree tree' := by
  rw [writeText] at h
  cases hend : tree.locateEnd path with
  | error why => simp [hend, bind, Except.bind] at h
  | ok end' =>
    obtain ⟨directory, name⟩ := end'
    simp only [hend, bind, Except.bind] at h
    split at h
    · cases h
    · next hname =>
      simp only [Bool.or_eq_true, decide_eq_true_eq, not_or, Bool.not_eq_true] at hname
      split at h
      · cases h
      · next hfree =>
        cases h
        exact ⟨directory ++ [name], rfl, by simp, ⟨directory, name, rfl, hname.1, hend⟩, hfree,
          hname.2⟩

namespace Writes

theorem get? (h : Writes path text place tree tree') (l : Location) :
    tree'.get? l = if l = place then some (.file text.toUTF8) else tree.get? l := by
  rw [h.set, get?_set_of_ne_nil h.ne_nil]

theorem grows (h : Writes path text place tree tree') : tree.Grows tree' := by
  rw [h.set]
  exact grows_set h.ne_nil fun hdirectory => absurd hdirectory h.free

theorem locate (h : Writes path text place tree tree') : tree'.locate path = .ok place := by
  obtain ⟨directory, name, rfl, hdots, hend⟩ := h.locateEnd
  exact locate_of_locateEnd (h.grows.locateEnd hend) hdots (by rw [h.get?, if_pos rfl]; rfl)
    fun hslash => absurd hslash h.noSlash

theorem fileName? (h : Writes path text place tree tree') : path.fileName? = place.getLast? := by
  obtain ⟨directory, name, rfl, hdots, hend⟩ := h.locateEnd
  obtain hdots' | ⟨here, before, blanks, hroute, hname, hblanks, -⟩ := locateEnd_eq_ok hend
  · rw [hdots] at hdots'
    cases hdots'
  · have hblank : blanks = [] := by
      by_contra hne
      exact h.noSlash (getLast?_of_route hroute (getLast?_append_blanks before name hne hblanks))
    subst hblank
    rw [List.getLast?_concat]
    exact Path.fileName?_of_getLast? (getLast?_of_route hroute List.getLast?_concat)
      (isProper_of_isDots hdots hname)

/-- Once written, the same file can be written again, which changes nothing. -/
theorem writeText_again (h : Writes path text place tree tree') :
    tree'.writeText path text = .ok tree' := by
  obtain ⟨directory, name, rfl, hdots, hend⟩ := h.locateEnd
  have hfile : tree'.get? (directory ++ [name]) = some (.file text.toUTF8) := by
    rw [h.get?, if_pos rfl]
  rw [writeText, h.grows.locateEnd hend]
  simp only [bind, Except.bind]
  rw [if_neg (by simp [hdots, h.noSlash]), hfile]
  exact congrArg Except.ok (set_self h.ne_nil hfile)

end Writes

/-- How saving a file can end. Where it fails, directories may have been made, but the file was
not written. -/
inductive Saved (path : Path) (text : String) (tree : FileTree) :
    Except Failure Unit × FileTree → Prop
  | written {tree' tree'' : FileTree} {place : Location} : MakesAlong path tree tree' →
    Writes path text place tree' tree'' →
    (∀ parent, path.parent? = some parent → parent.text = "" ∨ tree'.isDirectory parent = true) →
    Saved path text tree (.ok (), tree'')
  | failed {tree' : FileTree} : action = .createDirectory ∨ action = .write →
    MakesAlong path tree tree' → Saved path text tree (.error (.file action location why), tree')

/-- Writing the file itself, where its directory stands. -/
theorem saved_writeText (halong : MakesAlong path tree tree')
    (hparent : ∀ parent, path.parent? = some parent →
      parent.text = "" ∨ tree'.isDirectory parent = true) :
    Saved path text tree ((attempt .write path (FileSystem.writeText path text) :
      ExceptT Failure (StateM FileTree) Unit) tree') := by
  rw [attempt_apply]
  simp only [FileSystem.writeText, update]
  cases hwrite : tree'.writeText path text with
  | ok tree'' =>
    obtain ⟨place, hwrites⟩ := writeText_eq_ok hwrite
    exact .written halong hwrites hparent
  | error why => exact .failed (.inr rfl) halong

theorem saved (path : Path) (text : String) (tree : FileTree) :
    Saved path text tree ((save path text : ExceptT Failure (StateM FileTree) Unit) tree) := by
  rw [save]
  cases hparent : path.parent? with
  | none => exact saved_writeText (.refl path tree) (by simp [hparent])
  | some parent =>
    have hmade := made_makeDirectoriesUpTo parent.segments.length parent tree
    simp only
    rw [step_apply, attempt_apply, makeDirectories]
    generalize (makeDirectoriesUpTo parent.segments.length parent : StateM FileTree _) tree =
      outcome at *
    obtain ⟨result, tree'⟩ := outcome
    have halong := hmade.along.of_parent? hparent
    cases result with
    | error why => exact .failed (.inl rfl) halong
    | ok _ =>
      refine saved_writeText halong fun parent' hparent' => ?_
      cases hparent.symm.trans hparent'
      exact hmade.stands rfl

theorem makeDirectories_of_stands (h : path.text = "" ∨ tree.isDirectory path = true) :
    (makeDirectories path : StateM FileTree _) tree = (.ok (), tree) := by
  have hstep : path.text ≠ "" →
      (FileSystem.makeDirectory path : StateM FileTree _) tree = (.error .alreadyExists, tree) ∧
      (acceptStanding path (.error .alreadyExists) : StateM FileTree _) tree = (.ok (), tree) := by
    intro htext
    have hdirectory := h.resolve_left htext
    refine ⟨by simp [FileSystem.makeDirectory, update, makeDirectory_of_isDirectory hdirectory], ?_⟩
    rw [acceptStanding_error_apply, if_pos hdirectory]
  rw [makeDirectories]
  cases path.segments.length with
  | zero =>
    rw [makeDirectoriesUpTo]
    split
    · rfl
    · next htext =>
      rw [bind_apply, (hstep htext).1]
      exact (hstep htext).2
  | succ n =>
    rw [makeDirectoriesUpTo]
    split
    · rfl
    · next htext =>
      rw [bind_apply, (hstep htext).1]
      exact (hstep htext).2

/-- Saving the same once more changes nothing. -/
theorem save_again (hwrites : Writes path text place tree tree')
    (hparent : ∀ parent, path.parent? = some parent →
      parent.text = "" ∨ tree.isDirectory parent = true) :
    (save path text : ExceptT Failure (StateM FileTree) Unit) tree' = (.ok (), tree') := by
  have hwrite : (attempt .write path (FileSystem.writeText path text) :
      ExceptT Failure (StateM FileTree) Unit) tree' = (.ok (), tree') := by
    rw [attempt_apply]
    simp [FileSystem.writeText, update, hwrites.writeText_again]
    rfl
  rw [save]
  cases hpath : path.parent? with
  | none => exact hwrite
  | some parent =>
    simp only
    rw [step_apply, attempt_apply, makeDirectories_of_stands
      ((hparent parent hpath).imp_right hwrites.grows.isDirectory)]
    exact hwrite

end Interposer.FileTree
