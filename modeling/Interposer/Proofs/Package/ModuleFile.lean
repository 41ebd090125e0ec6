import Interposer.Proofs.Package.Directory
import Interposer.Proofs.Text.Blank
import Interposer.Proofs.Text.Lines

/-! Module files. A module's path is read as it is if it is written bare or between quotes; of a raw
string the quotes are taken for a part of it (`ImportPath.follows_module_file`). -/

namespace Interposer

namespace ModuleFile

open Text (isBlank trim trimBy)

/-! ## Comments -/

section

variable {cs rest : List Char}

theorem uncommented_cons {c : Char} (h : c = '/' → cs.head? ≠ some '/') :
    uncommented (c :: cs) = c :: uncommented cs := by
  rw [uncommented.eq_3]
  rintro cs' rfl rfl
  exact h rfl rfl

/-- No comment begins in a text without two slashes in a row, nor at its end if what follows is no
slash. -/
theorem uncommented_append (h : ¬ ['/', '/'] <:+: cs)
    (hend : cs.getLast? = some '/' → rest.head? ≠ some '/') :
    uncommented (cs ++ rest) = cs ++ uncommented rest := by
  induction cs with
  | nil => rfl
  | cons c cs ih =>
    rw [List.infix_cons_iff, not_or] at h
    have hpair : c = '/' → (cs ++ rest).head? ≠ some '/' := by
      rintro rfl
      cases cs with
      | nil => exact hend rfl
      | cons d cs =>
        intro hd
        cases Option.some.inj hd
        exact h.1 ⟨cs, rfl⟩
    have hlast : cs.getLast? = some '/' → rest.head? ≠ some '/' := by
      intro hcs
      refine hend ?_
      rw [List.getLast?_cons, hcs]
      rfl
    rw [List.cons_append, uncommented_cons hpair, ih h.2 hlast, List.cons_append]

theorem uncommented_append_of_notMem (h : '/' ∉ cs) (rest : List Char) :
    uncommented (cs ++ rest) = cs ++ uncommented rest :=
  uncommented_append (fun hslashes => h (hslashes.subset List.mem_cons_self))
    fun hlast => absurd (List.mem_of_getLast? hlast) h

end

/-! ## Directives -/

/-- The ways to write the path of a module. -/
inductive Spelling where
  | bare
  | quoted
  | raw
  deriving DecidableEq, Repr

namespace Spelling

def write (module : String) : Spelling → String
  | bare => module
  | quoted => "\"" ++ module ++ "\""
  | raw => "\x60" ++ module ++ "\x60"

/-- What a module's path is read as. -/
def read (module : String) : Spelling → String
  | bare | quoted => module
  | raw => "\x60" ++ module ++ "\x60"

end Spelling

/-- A path that can be written in each of the ways. -/
structure IsModulePath (module : String) : Prop where
  ne_empty : module ≠ ""
  plain : ∀ c ∈ module.toList, isBlank c = false ∧ c ≠ '"' ∧ c ≠ '\x60'
  no_comment : ¬ ['/', '/'] <:+: module.toList

namespace IsModulePath

variable {module : String}

theorem uncommented_write (h : IsModulePath module) {spelling : Spelling} {rest : List Char}
    (hend : spelling = .bare → module.toList.getLast? = some '/' → rest.head? ≠ some '/') :
    uncommented ((spelling.write module).toList ++ rest) =
      (spelling.write module).toList ++ uncommented rest := by
  have hclosed : ∀ quote : Char, quote ≠ '/' →
      uncommented (quote :: (module.toList ++ quote :: rest)) =
        quote :: (module.toList ++ quote :: uncommented rest) := by
    intro quote hquote
    have hpath : uncommented (module.toList ++ quote :: rest) =
        module.toList ++ uncommented (quote :: rest) :=
      uncommented_append h.no_comment fun _ heq => hquote (Option.some.inj heq)
    rw [uncommented_cons (absurd · hquote), hpath, uncommented_cons (absurd · hquote)]
  cases spelling with
  | bare => exact uncommented_append h.no_comment (hend rfl)
  | quoted => simpa [Spelling.write] using hclosed '"' (by decide)
  | raw => simpa [Spelling.write] using hclosed '\x60' (by decide)

theorem ends_quoted {quote : Char} {p : Char → Bool} (h : p quote = false) (cs : List Char) :
    (∀ c ∈ (quote :: (cs ++ [quote])).head?, p c = false) ∧
      ∀ c ∈ (quote :: (cs ++ [quote])).getLast?, p c = false := by
  have hlast : (quote :: (cs ++ [quote])).getLast? = some quote := by
    rw [← List.cons_append]
    exact List.getLast?_concat
  rw [hlast]
  simpa using h

/-- The ends of a path as it is written are not blank. -/
theorem ends_write (h : IsModulePath module) (spelling : Spelling) :
    (∀ c ∈ (spelling.write module).toList.head?, isBlank c = false) ∧
      ∀ c ∈ (spelling.write module).toList.getLast?, isBlank c = false := by
  cases spelling with
  | bare =>
    exact ⟨fun c hc => (h.plain c (List.mem_of_mem_head? hc)).1,
      fun c hc => (h.plain c (List.mem_of_getLast? hc)).1⟩
  | quoted =>
    have hquote : isBlank '"' = false := by decide
    simpa [Spelling.write] using ends_quoted hquote module.toList
  | raw =>
    have hquote : isBlank '\x60' = false := by decide
    simpa [Spelling.write] using ends_quoted hquote module.toList

theorem trimBy_write (h : IsModulePath module) (spelling : Spelling) :
    trimBy (· == '"') (spelling.write module).toList = (spelling.read module).toList := by
  have hhead : ∀ c ∈ module.toList.head?, (c == '"') = false :=
    fun c hc => beq_false_of_ne (h.plain c (List.mem_of_mem_head? hc)).2.1
  have hlast : ∀ c ∈ module.toList.getLast?, (c == '"') = false :=
    fun c hc => beq_false_of_ne (h.plain c (List.mem_of_getLast? hc)).2.1
  cases spelling with
  | bare => exact Text.trimBy_self hhead hlast
  | quoted =>
    have hquoted : trimBy (· == '"') (['"'] ++ (module.toList ++ ['"'])) = module.toList :=
      Text.trimBy_eq (by simp) (by simp) hhead hlast
    simpa [Spelling.write, Spelling.read] using hquoted
  | raw =>
    have hends := ends_quoted (p := (· == '"')) (by decide : ('\x60' == '"') = false)
      module.toList
    have hraw := Text.trimBy_self hends.1 hends.2
    simpa [Spelling.write, Spelling.read] using hraw

end IsModulePath

/-- A module directive on a line of its own. -/
structure Directive where
  module : String
  spelling : Spelling
  /-- White space before the word, after it, and after the path. -/
  lead : String
  gap : String
  trail : String
  comment? : Option String

def commentText : Option String → String
  | none => ""
  | some comment => "//" ++ comment

namespace Directive

def text (d : Directive) : String :=
  d.lead ++ "module" ++ d.gap ++ d.spelling.write d.module ++ d.trail ++ commentText d.comment?

def read (d : Directive) : String := d.spelling.read d.module

structure WellFormed (d : Directive) : Prop where
  module : IsModulePath d.module
  blank : ∀ c ∈ d.lead.toList ++ d.gap.toList ++ d.trail.toList, isBlank c = true
  gap : d.gap ≠ ""
  line : '\n' ∉ d.text.toList
  /-- A slash right before the comment would be the first of its slashes. -/
  separate : d.spelling = .bare → d.trail = "" → d.comment?.isSome →
    d.module.toList.getLast? ≠ some '/'

end Directive

theorem slash_notMem {cs : List Char} (h : ∀ c ∈ cs, isBlank c = true) : '/' ∉ cs :=
  fun hmem => absurd (h '/' hmem) (by decide)

/-- White space and a comment after a path, as far as they are left by trimming. -/
theorem uncommented_trimEnd {trail : List Char} (h : ∀ c ∈ trail, isBlank c = true)
    (comment? : Option String) :
    ∃ rest, Text.trimEndBy isBlank (trail ++ (commentText comment?).toList) = rest ∧
      (∀ c ∈ uncommented rest, isBlank c = true) ∧
      (rest.head? = some '/' → trail = [] ∧ comment?.isSome) := by
  cases comment? with
  | none =>
    refine ⟨[], ?_, nofun, nofun⟩
    simpa [commentText] using Text.trimEndBy_of_all h
  | some comment =>
    have hne : trail ++ ['/', '/'] ≠ [] := by simp
    have hslash : isBlank ((trail ++ ['/', '/']).getLast hne) = false := by
      simp
      decide
    have htrim := Text.trimEndBy_append hne hslash comment.toList
    refine ⟨trail ++ '/' :: '/' :: Text.trimEndBy isBlank comment.toList,
      by simpa [commentText] using htrim, ?_, fun hhead => ⟨?_, rfl⟩⟩
    · rw [uncommented_append_of_notMem (slash_notMem h), uncommented, List.append_nil]
      exact h
    · cases trail with
      | nil => rfl
      | cons c trail =>
        cases Option.some.inj hhead
        exact absurd List.mem_cons_self (slash_notMem h)

namespace Directive.WellFormed

variable {d : Directive}

theorem write_ne_nil (h : d.WellFormed) : (d.spelling.write d.module).toList ≠ [] := by
  cases d.spelling <;> simp [Spelling.write, h.module.ne_empty]

/-- Of the line there remain the word, the path and, if there is a comment, what is after it. -/
theorem trim_text (h : d.WellFormed) {rest : List Char}
    (hrest : Text.trimEndBy isBlank (d.trail.toList ++ (commentText d.comment?).toList) = rest) :
    trim d.text.toList = "module".toList ++
      (d.gap.toList ++ ((d.spelling.write d.module).toList ++ rest)) := by
  have hlead : ∀ c ∈ d.lead.toList, isBlank c = true :=
    fun c hc => h.blank c (List.mem_append_left _ (List.mem_append_left _ hc))
  have htext : d.text.toList = d.lead.toList ++ 'm' :: ("odule".toList ++ (d.gap.toList ++
      ((d.spelling.write d.module).toList ++
        (d.trail.toList ++ (commentText d.comment?).toList)))) := by
    simp [Directive.text]
  have hsplit : 'm' :: ("odule".toList ++ (d.gap.toList ++ ((d.spelling.write d.module).toList ++
      (d.trail.toList ++ (commentText d.comment?).toList)))) =
        ("module".toList ++ d.gap.toList ++ (d.spelling.write d.module).toList) ++
          (d.trail.toList ++ (commentText d.comment?).toList) := by
    simp
  have hne : "module".toList ++ d.gap.toList ++ (d.spelling.write d.module).toList ≠ [] := by
    simp
  have hlast : isBlank (("module".toList ++ d.gap.toList ++
      (d.spelling.write d.module).toList).getLast hne) = false := by
    rw [List.getLast_append_of_ne_nil hne h.write_ne_nil]
    exact (h.module.ends_write d.spelling).2 _ (List.getLast_mem_getLast? h.write_ne_nil)
  rw [trim, htext, Text.trimBy_append hlead (by decide), hsplit, Text.trimEndBy_append hne hlast,
    hrest]
  simp only [List.append_assoc]

/-- A directive names the module as its spelling is read. -/
theorem directive?_text (h : d.WellFormed) : directive? d.text = some d.read := by
  have hblank := h.blank
  simp only [List.forall_mem_append] at hblank
  obtain ⟨⟨-, hgap⟩, htrail⟩ := hblank
  obtain ⟨rest, hrest, hrestBlank, hhead⟩ := uncommented_trimEnd htrail d.comment?
  have hname : trim (uncommented (d.gap.toList ++ ((d.spelling.write d.module).toList ++ rest))) =
      (d.spelling.write d.module).toList := by
    have hend : d.spelling = .bare → d.module.toList.getLast? = some '/' →
        rest.head? ≠ some '/' := by
      intro hbare hlast hslash
      obtain ⟨htrail, hcomment⟩ := hhead hslash
      exact h.separate hbare (by simpa using htrail) hcomment hlast
    have hends := h.module.ends_write d.spelling
    rw [uncommented_append_of_notMem (slash_notMem hgap), h.module.uncommented_write hend]
    exact Text.trimBy_eq hgap hrestBlank hends.1 hends.2
  have hprefix : "module".toList.isPrefixOf? (trim d.text.toList) =
      some (d.gap.toList ++ ((d.spelling.write d.module).toList ++ rest)) :=
    List.isPrefixOf?_eq_some_iff_append_eq.mpr (h.trim_text hrest).symm
  have hread : (d.spelling.read d.module).toList ≠ [] := by
    cases d.spelling <;> simp [Spelling.read, h.module.ne_empty]
  obtain ⟨c, gap, hcons⟩ :=
    List.exists_cons_of_ne_nil (show d.gap.toList ≠ [] by simpa using h.gap)
  have hc : isBlank c = true := hgap c (hcons ▸ List.mem_cons_self)
  rw [hcons, List.cons_append] at hprefix hname
  simp only [directive?, hprefix, hname, h.module.trimBy_write, hc]
  simp [hread, Directive.read]

end Directive.WellFormed

/-! ## Lines -/

/-- The first word of a line, which white space separates from the others. -/
def firstWord (line : String) : String :=
  String.ofList ((line.toList.dropWhile isBlank).takeWhile (!isBlank ·))

/-- Only a line that begins with the word is a directive. -/
theorem directive?_eq_none {line : String} (h : firstWord line ≠ "module") :
    directive? line = none := by
  unfold directive?
  split
  · next c rest hprefix =>
    refine if_neg fun hnamed => h ?_
    obtain ⟨hc, -⟩ := Bool.and_eq_true_iff.mp hnamed
    obtain ⟨rest', hdrop⟩ := Text.trimBy_prefix isBlank line.toList
    have htrim : "module".toList ++ c :: rest = trim line.toList :=
      List.isPrefixOf?_eq_some_iff_append_eq.mp hprefix
    have hword : "module".toList.all (!isBlank ·) = true := by decide
    rw [← trim, ← htrim] at hdrop
    rw [firstWord, ← hdrop, List.append_assoc, List.takeWhile_append_of_pos (List.all_eq_true.mp hword),
      List.cons_append, List.takeWhile_cons_of_neg (by simp [hc]), List.append_nil]
    rfl
  · rfl

/-- A carriage return at the end of a line makes no difference. -/
theorem directive?_return (line : List Char) :
    directive? (String.ofList (line ++ ['\r'])) = directive? (String.ofList line) := by
  have htrim : trim (line ++ ['\r']) = trim line := Text.trimBy_concat (by decide) line
  simp only [directive?, String.toList_ofList, htrim]

/-- A module file whose first line that begins with the word is a directive. -/
structure Layout where
  earlier : List String
  directive : Directive
  /-- What follows the end of the directive's line, unless the file ends there. -/
  later? : Option String

namespace Layout

def text (l : Layout) : String :=
  String.join (l.earlier.map (· ++ "\n")) ++ l.directive.text ++
    match l.later? with
    | none => ""
    | some later => "\n" ++ later

structure WellFormed (l : Layout) : Prop where
  earlier : ∀ line ∈ l.earlier, '\n' ∉ line.toList ∧ firstWord line ≠ "module"
  directive : l.directive.WellFormed

end Layout

theorem module?_line {line : String} (h : '\n' ∉ line.toList) (rest : String) :
    module? (line ++ "\n" ++ rest) = (directive? line).or (module? rest) := by
  obtain ⟨line', hline, hsplit⟩ := Text.splitLines_line h rest.toList
  have hsame : directive? (String.ofList line') = directive? line := by
    rcases hline with heq | heq
    · rw [← heq, String.ofList_toList]
    · rw [← directive?_return, ← heq, String.ofList_toList]
  have hlines : Text.lines (line ++ "\n" ++ rest) = String.ofList line' :: Text.lines rest := by
    rw [Text.lines, String.toList_append, String.toList_append, List.append_assoc]
    exact congrArg (List.map String.ofList) hsplit
  rw [module?, hlines, List.findSome?_cons, hsame]
  cases directive? line <;> rfl

theorem module?_last {line : String} (h : '\n' ∉ line.toList) (hne : line ≠ "") :
    module? line = directive? line := by
  have hlines : Text.lines line = [line] := by
    rw [Text.lines, Text.splitLines_last h (by simpa using hne), List.map_singleton,
      String.ofList_toList]
  rw [module?, hlines, List.findSome?_singleton]

theorem module?_earlier {earlier : List String}
    (h : ∀ line ∈ earlier, '\n' ∉ line.toList ∧ firstWord line ≠ "module") (rest : String) :
    module? (String.join (earlier.map (· ++ "\n")) ++ rest) = module? rest := by
  induction earlier with
  | nil => simp
  | cons line earlier ih =>
    obtain ⟨⟨hline, hword⟩, hearlier⟩ := List.forall_mem_cons.mp h
    rw [List.map_cons, String.join_cons, String.append_assoc, module?_line hline,
      directive?_eq_none hword, ih hearlier, Option.none_or]

/-- A module file names the module of its directive. -/
theorem Layout.WellFormed.module?_text {l : Layout} (h : l.WellFormed) :
    module? l.text = some l.directive.read := by
  have hdirective := h.directive.directive?_text
  rw [Layout.text, String.append_assoc, module?_earlier h.earlier]
  cases l.later? with
  | none =>
    have hne : l.directive.text ≠ "" := by
      intro heq
      rw [heq] at hdirective
      cases hdirective
    rw [String.append_empty, module?_last h.directive.line hne, hdirective]
  | some later =>
    rw [← String.append_assoc, module?_line h.directive.line, hdirective, Option.some_or]

end ModuleFile

namespace ImportPath

variable {tree : FileTree} {location : Path} {root : Location} {names : List String}
  {l : ModuleFile.Layout}

/-- **Module files.** With a directive in the nearest module file, the import path of a directory is
what the directive is read as, which is the module unless that is written as a raw string, followed
by the names that lead down to the directory. Module files further up make no difference. -/
theorem follows_module_file (hl : l.WellFormed)
    (hlocate : tree.locate location = .ok (root ++ names))
    (hroot : IsModuleRoot tree (root ++ names) root)
    (hread : tree.readText (root.path.join ModuleFile.name) = .ok l.text) :
    ((ofDirectory location : ExceptT Failure (StateM FileTree) String) tree).1 =
        .ok ("/".intercalate (l.directive.read :: names)) ∧
      (l.directive.read = l.directive.module ↔ l.directive.spelling ≠ .raw) := by
  refine ⟨ofDirectory_eq_ok_iff.mpr
    ⟨root, names, l.text, l.directive.read, hlocate, hroot, hread, hl.module?_text, rfl⟩, ?_⟩
  rw [ModuleFile.Directive.read]
  cases l.directive.spelling with
  | bare | quoted => simp [ModuleFile.Spelling.read]
  | raw =>
    have hlength : "\x60" ++ l.directive.module ++ "\x60" ≠ l.directive.module := by
      intro heq
      have hlength := congrArg String.length heq
      simp only [String.length_append] at hlength
      have hquote : "\x60".length = 1 := rfl
      omega
    simpa [ModuleFile.Spelling.read] using hlength

/-- A module file that writes the module as a raw string. -/
def rawLayout : ModuleFile.Layout where
  earlier := []
  directive := ⟨"example.com/app", .raw, "", " ", "", none⟩
  later? := some "\ngo 1.22\n"

/-- A directory with that file in it. -/
def rawTree : FileTree :=
  ⟨["work"], [(["work"], .directory), (["work", "go.mod"], .file rawLayout.text.toUTF8)]⟩

/-- The quotes of a raw string stay in the import path. -/
theorem raw_module_keeps_quotes :
    rawLayout.text = "module \x60example.com/app\x60\n\ngo 1.22\n" ∧
    rawTree.readText (Location.path ["work", "go.mod"]) = .ok rawLayout.text ∧
    ((ofDirectory (.ofText ".") : ExceptT Failure (StateM FileTree) String) rawTree).1 =
      .ok "\x60example.com/app\x60" := by
  have hplain : "example.com/app".toList.all
      (fun c => Text.isBlank c = false ∧ c ≠ '"' ∧ c ≠ '\x60') = true := by decide
  have hmodule : ModuleFile.IsModulePath "example.com/app" :=
    ⟨by decide, by simpa using hplain, by decide +kernel⟩
  have hlayout : rawLayout.WellFormed :=
    ⟨nofun, hmodule, List.forall_mem_singleton.mpr rfl, by decide, by decide, nofun⟩
  have hread : rawTree.readText (Location.path ["work", "go.mod"]) = .ok rawLayout.text :=
    FileTree.readText_eq_ok.mpr
      ⟨["work", "go.mod"], _, by decide +kernel, rfl, FileTree.fromUTF8?_toUTF8 rawLayout.text⟩
  have hroot : IsModuleRoot rawTree ["work"] ["work"] :=
    ⟨List.prefix_rfl, by decide +kernel, fun _ hother _ => hother⟩
  have hlocate : rawTree.locate (.ofText ".") = .ok (["work"] ++ []) := by decide +kernel
  have hpath := (follows_module_file hlayout hlocate hroot hread).1
  exact ⟨rfl, hread, hpath⟩

end ImportPath

end Interposer
