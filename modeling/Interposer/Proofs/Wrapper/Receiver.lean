import Interposer.Proofs.ImportTable.Aliases
import Interposer.Proofs.Interface.Provenance
import Interposer.Proofs.Source.Names
import Interposer.Proofs.Wrapper.Imports

/-! The receivers of methods. A receiver is named by the first letter of the type, whatever the
aliases of the file are, and gets out of the way of parameters and results only. So it hides a
package whose alias is that letter, and it is blank if the type's name begins with an underscore;
in all other cases it can be used (`generate_receivers`). -/

namespace Interposer

/-! ## Names -/

/-- Keywords have at least two letters and begin with one. -/
theorem isIdentifier_underscores_append {c : Char} (h : isIdentifierStart c = true) (n : Nat) :
    isIdentifier (underscores n ++ String.ofList [c]) = true := by
  have hkeywords : ∀ word ∈ keywords, 2 ≤ word.toList.length ∧ word.toList.head? ≠ some '_' := by
    decide
  have hkeyword : underscores n ++ String.ofList [c] ∉ keywords := by
    intro hmem
    obtain ⟨hlength, hhead⟩ := hkeywords _ hmem
    cases n with
    | zero => simp [underscores] at hlength
    | succ n => simp [underscores, List.replicate_succ] at hhead
  have htext : (underscores n ++ String.ofList [c]).toList = List.replicate n '_' ++ [c] := by
    simp [underscores]
  cases n with
  | zero => exact isIdentifier_of_cons htext h (List.forall_mem_nil _) hkeyword
  | succ n =>
    refine isIdentifier_of_cons htext rfl (List.forall_mem_append.mpr ⟨?_, ?_⟩) hkeyword
    · exact fun c' hc' => List.eq_of_mem_replicate hc' ▸ rfl
    · exact List.forall_mem_singleton.mpr (isIdentifierChar_of_isIdentifierStart h)

theorem underscore_mem_underscores_append {n : Nat} (hn : n ≠ 0) (s : String) :
    '_' ∈ (underscores n ++ s).toList := by
  obtain ⟨n, rfl⟩ := Nat.exists_eq_succ_of_ne_zero hn
  simp [underscores, List.replicate_succ]

namespace Wrapper

variable {typeName : String} {m : Method} {imports : List Import}

/-- The name of a type's receivers where no parameter or result has it. -/
def initialName (typeName : String) : String :=
  match typeName.toList with
  | [] => "w"
  | c :: _ => String.ofList (Text.toLower c)

theorem receiverName_eq (typeName : String) (m : Method) :
    receiverName typeName m = freshBefore m.variableNames (initialName typeName) := rfl

/-- The first character of an identifier is in ASCII, where the lower case of a letter is one letter
and an underscore stays one. -/
theorem initialName_eq (h : isIdentifier typeName = true) :
    ∃ c, isIdentifierStart c = true ∧ initialName typeName = String.ofList [c] ∧
      (c = '_' ↔ typeName.toList.head? = some '_') := by
  have hlower : ∀ n < 0x80, isIdentifierStart (Char.ofNat n) = true →
      isIdentifierStart (Char.ofNat n).toLower = true ∧
        ((Char.ofNat n).toLower = '_' ↔ Char.ofNat n = '_') := by decide
  obtain ⟨c, cs, hs, hstart, -⟩ := exists_of_isIdentifier h
  have hascii := Source.toNat_lt_of_isIdentifierChar (isIdentifierChar_of_isIdentifierStart hstart)
  have hlower := hlower c.toNat hascii
  rw [Char.ofNat_toNat] at hlower
  obtain ⟨hstart, hunderscore⟩ := hlower hstart
  refine ⟨c.toLower, hstart, ?_, ?_⟩
  · have htext : Text.toLower c = [c.toLower] := if_pos hascii
    unfold initialName
    rw [hs]
    simp only [htext]
  · rw [hunderscore, hs, List.head?_cons, Option.some_inj]

theorem isIdentifier_receiverName (h : isIdentifier typeName = true) (m : Method) :
    isIdentifier (receiverName typeName m) = true := by
  obtain ⟨c, hstart, hinitial, -⟩ := initialName_eq h
  obtain ⟨n, hn⟩ := freshBefore_eq_append m.variableNames (initialName typeName)
  rw [receiverName_eq, hn, hinitial]
  exact isIdentifier_underscores_append hstart n

/-- A blank receiver comes of an underscore, which no variable makes longer. -/
theorem receiverName_eq_blank_iff (h : isIdentifier typeName = true)
    (hblank : "_" ∉ m.variableNames) :
    receiverName typeName m = "_" ↔ typeName.toList.head? = some '_' := by
  obtain ⟨c, -, hinitial, hunderscore⟩ := initialName_eq h
  rw [receiverName_eq, hinitial, ← hunderscore]
  constructor
  · intro heq
    obtain ⟨n, hn⟩ := freshBefore_eq_append m.variableNames (String.ofList [c])
    have hlist := congrArg String.toList (hn.symm.trans heq)
    have hlast := congrArg List.getLast? hlist
    simpa [underscores] using hlast
  · rintro rfl
    exact freshBefore_of_not_mem hblank

/-- Aliases have no underscores, so of the names that a receiver may get only the first can be an
alias; and then no variable has it. -/
theorem receiverName_mem_aliases_iff
    (haliases : ∀ entry ∈ imports, '_' ∉ entry.name.toList ∧ entry.name ∉ m.variableNames) :
    receiverName typeName m ∈ imports.map (·.name) ↔
      initialName typeName ∈ imports.map (·.name) := by
  have hfree : initialName typeName ∈ imports.map (·.name) →
      receiverName typeName m = initialName typeName := by
    intro hmem
    obtain ⟨entry, hentry, heq⟩ := List.mem_map.mp hmem
    rw [receiverName_eq]
    exact freshBefore_of_not_mem (heq ▸ (haliases entry hentry).2)
  refine ⟨fun hmem => ?_, fun hmem => by rwa [hfree hmem]⟩
  obtain ⟨n, hn⟩ := freshBefore_eq_append m.variableNames (initialName typeName)
  rw [receiverName_eq, hn] at hmem
  by_cases hzero : n = 0
  · subst hzero
    exact (String.empty_append (s := initialName typeName)) ▸ hmem
  · obtain ⟨entry, hentry, heq⟩ := List.mem_map.mp hmem
    exact ((haliases entry hentry).1 (heq ▸ underscore_mem_underscores_append hzero _)).elim

/-! ## Methods of a file -/

/-- The name of a method's receiver, and the method. -/
def TopLevel.method? : TopLevel → Option (String × Function)
  | .func f => f.receiver.map fun receiver => (receiver.name, f)
  | _ => none

def File.methods (file : File) : List (String × Function) := file.declarations.filterMap (·.method?)

theorem instrumented_of_file {package : String} {i : Interface} {hooks : List Hook}
    {table : ImportTable} {file : File}
    (h : Wrapper.file package typeName i hooks table = .ok file) :
    ∃ pairs, instrument table hooks i.methods = .ok pairs ∧
      file.methods = pairs.map fun pair =>
        (receiverName typeName pair.1, methodFunction typeName pair.1 pair.2) := by
  obtain ⟨pairs, hpairs, hdeclarations, -⟩ := file_eq_ok h
  have htype : (typeDeclarations typeName i.type).filterMap (·.method?) = [] := rfl
  refine ⟨pairs, hpairs, ?_⟩
  rw [File.methods, hdeclarations, List.filterMap_append, htype, List.filterMap_map,
    List.nil_append]
  exact congrFun List.filterMap_eq_map pairs

theorem methods_of_file {package : String} {i : Interface} {hooks : List Hook}
    {table : ImportTable} {file : File}
    (h : Wrapper.file package typeName i hooks table = .ok file) :
    ∃ pairs : List (Method × Fragments), pairs.map (·.1) = i.methods ∧
      file.methods = pairs.map fun pair =>
        (receiverName typeName pair.1, methodFunction typeName pair.1 pair.2) := by
  obtain ⟨pairs, hpairs, hmethods⟩ := instrumented_of_file h
  exact ⟨pairs, (instrument_eq_ok hpairs).1, hmethods⟩

/-- What holds of every method with its fragments holds of the methods of a file. -/
theorem forall₂_methods_of_file {package : String} {i : Interface} {hooks : List Hook}
    {table : ImportTable} {file : File}
    (h : Wrapper.file package typeName i hooks table = .ok file)
    {P : Method → String × Function → Prop}
    (hP : ∀ m f, fragments m table hooks = .ok f →
      P m (receiverName typeName m, methodFunction typeName m f)) :
    List.Forall₂ P i.methods file.methods := by
  obtain ⟨pairs, hinstrument, hmethods⟩ := instrumented_of_file h
  obtain ⟨hpairs, hfragments⟩ := instrument_eq_ok hinstrument
  rw [hmethods, ← hpairs, List.forall₂_map_left_iff, List.forall₂_map_right_iff,
    List.forall₂_same]
  intro pair hpair
  exact hP pair.1 pair.2 (hfragments pair hpair)

/-- What the receiver of a method is like in a file with these imports. -/
structure ReceiverLaws (typeName : String) (imports : List Import) (receiver : String)
    (f : Function) : Prop where
  isIdentifier : isIdentifier receiver = true
  distinct : ∀ v ∈ f.params ++ f.results, v.name ≠ receiver
  blank : receiver = "_" ↔ typeName.toList.head? = some '_'
  captures : receiver ∈ imports.map (·.name) ↔ initialName typeName ∈ imports.map (·.name)

theorem receiverLaws (htype : isIdentifier typeName = true) (hblank : "_" ∉ m.variableNames)
    (haliases : ∀ entry ∈ imports, '_' ∉ entry.name.toList ∧ entry.name ∉ m.variableNames)
    (f : Fragments) : ReceiverLaws typeName imports (receiverName typeName m)
      (methodFunction typeName m f) where
  isIdentifier := isIdentifier_receiverName htype m
  distinct := by
    intro v hv heq
    have hmem : v.name ∈ m.variableNames := List.mem_map_of_mem hv
    rw [heq] at hmem
    exact freshBefore_not_mem _ _ hmem
  blank := receiverName_eq_blank_iff htype hblank
  captures := receiverName_mem_aliases_iff haliases

end Wrapper

/-- A hook of a package with a short name. -/
def tracer : Hook where
  name := "trace"
  imports := ["example.com/trace/s"]
  capability?
    | .preCall => some fun m table =>
      .ok ((table.aliasOf? "example.com/trace/s").map (· ++ ".Enter(" ++ Text.quote m.name ++ ")"))
    | _ => none

namespace Generator

variable {p : Package} {name package typeName text : String} {hooks : List Hook} {g : Generator}

/-- No parameter and no result of a generator's methods is blank or named like an import. -/
theorem usable_of_new (h : Generator.new p name hooks = .ok g) {m : Method}
    (hm : m ∈ g.interface.methods) :
    "_" ∉ m.variableNames ∧ ∀ entry ∈ g.imports.entries, entry.name ∉ m.variableNames := by
  obtain ⟨spec, hnamed⟩ := exists_named_of_mem h hm
  constructor
  · intro hmem
    obtain ⟨v, hv, heq⟩ := List.mem_map.mp hmem
    exact (hnamed.wellNamed.nonblank v hv).2 heq
  · intro entry hentry hmem
    obtain ⟨v, hv, heq⟩ := List.mem_map.mp hmem
    have hnone := ImportTable.pathOf?_eq_none_iff.mp (hnamed.wellNamed.unshadowing v hv)
    exact hnone (heq ▸ List.mem_map_of_mem hentry)

/-- **Receivers.** A generated file has a method for every method of the interface. The receiver can
be used next to its parameters and results, unless the type's name begins with an underscore; and
next to the imports, unless one has the first letter of that name as its alias. -/
theorem generate_receivers (hnew : Generator.new p name hooks = .ok g)
    (hgenerate : g.generate package typeName = .ok text) :
    ∃ file, Wrapper.file package typeName g.interface g.hooks g.imports = .ok file ∧
      file.render = text ∧ file.methods.map (·.2.name) = g.interface.methods.map (·.name) ∧
      ∀ method ∈ file.methods,
        Wrapper.ReceiverLaws typeName file.imports method.1 method.2 := by
  obtain ⟨specs, S⟩ := settled_of_new hnew
  obtain ⟨-, htype⟩ := isIdentifier_of_generate hgenerate
  obtain ⟨file, hfile, hrender⟩ := generate_eq_ok hgenerate
  obtain ⟨pairs, hpairs, hmethods⟩ := Wrapper.methods_of_file hfile
  refine ⟨file, hfile, hrender, ?_, ?_⟩
  · rw [hmethods, ← hpairs, List.map_map, List.map_map]
    rfl
  · rw [hmethods, List.forall_mem_map]
    intro pair hpair
    obtain ⟨hblank, haliases⟩ := usable_of_new hnew (hpairs ▸ List.mem_map_of_mem hpair)
    refine Wrapper.receiverLaws htype hblank (fun entry hentry => ?_) pair.2
    have hmem := Wrapper.mem_entries_of_mem_imports hfile hentry
    exact ⟨S.wellFormed.underscore_not_mem hmem, haliases entry hmem⟩

/-- A blank receiver, and one that hides the package of a hook. -/
theorem receiver_unusable : ∃ g blank capturing, Generator.new shop "Store" [tracer] = .ok g ∧
    Wrapper.file "traced" "_Store" g.interface g.hooks g.imports = .ok blank ∧
    g.generate "traced" "_Store" = .ok blank.render ∧
    Wrapper.file "traced" "Store" g.interface g.hooks g.imports = .ok capturing ∧
    g.generate "traced" "Store" = .ok capturing.render ∧
    blank.methods.map (·.1) = ["_", "_"] ∧ capturing.methods.map (·.1) = ["s", "s"] ∧
    ⟨"s", "example.com/trace/s"⟩ ∈ capturing.imports := by
  refine ⟨_, _, _, rfl, rfl, rfl, rfl, rfl, rfl, rfl, ?_⟩
  -- Sorting does not evaluate, but which imports there are does not depend on it.
  refine List.mem_filter.mpr ⟨(ImportTable.sorted_perm _).mem_iff.mpr ?_, ?_⟩ <;> decide +kernel

end Generator

end Interposer
