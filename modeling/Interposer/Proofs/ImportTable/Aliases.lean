import Interposer.Identifier
import Interposer.Proofs.ImportTable.Runs
import Interposer.Proofs.Text.Span

/-! The letters of aliases. An alias is cut out of the last segment of its path and perhaps
numbered, so it has none of the characters at which segments are cut, an underscore in particular.
Of the paths that import declarations may have, little is left that keeps an alias from being an
identifier: a digit in front, a tilde, and keywords (`alias_laws`). -/

namespace Interposer

variable {path : String}

/-! ## Default aliases -/

theorem not_isAliasBreak_of_isAlphanum {c : Char} (h : c.isAlphanum = true) :
    isAliasBreak c = false := by
  by_contra hbreak
  rw [Bool.not_eq_false, isAliasBreak, Bool.or_eq_true, Bool.or_eq_true] at hbreak
  simp only [beq_iff_eq] at hbreak
  rcases hbreak with (rfl | rfl) | rfl <;> exact absurd h (by decide)

theorem toList_defaultAlias (path : String) : (defaultAlias path).toList =
    if (lastSegment path.toList).takeWhile (!isAliasBreak ·) = [] then
      (lastSegment path.toList).filter (!isAliasBreak ·)
    else (lastSegment path.toList).takeWhile (!isAliasBreak ·) := by
  unfold defaultAlias
  cases hbase : (lastSegment path.toList).takeWhile (!isAliasBreak ·) with
  | nil => simp [hbase]
  | cons c cs => simp [hbase]

theorem mem_defaultAlias {c : Char} (hc : c ∈ (defaultAlias path).toList) :
    c ∈ lastSegment path.toList ∧ isAliasBreak c = false := by
  rw [toList_defaultAlias] at hc
  split at hc
  · simpa using List.mem_filter.mp hc
  · have hbreak := List.all_eq_true.mp List.all_takeWhile c hc
    exact ⟨List.takeWhile_subset _ hc, by simpa using hbreak⟩

/-- Only a segment that has nothing but breaks leaves nothing for an alias. -/
theorem defaultAlias_ne_empty {c : Char} (hc : c ∈ lastSegment path.toList)
    (hbreak : isAliasBreak c = false) : defaultAlias path ≠ "" := by
  intro hempty
  have hlist := toList_defaultAlias path
  rw [hempty, String.toList_empty] at hlist
  split at hlist
  · have hmem : c ∈ (lastSegment path.toList).filter (!isAliasBreak ·) :=
      List.mem_filter.mpr ⟨hc, by simp [hbreak]⟩
    rw [← hlist] at hmem
    cases hmem
  · next hbase => exact hbase hlist.symm

/-! ## Import paths -/

def isPathChar (c : Char) : Bool :=
  c.isAlphanum || c == '-' || c == '_' || c == '.' || c == '~'

/-- Paths of import declarations: every segment has a letter, and no characters but letters, digits
and the four marks. -/
def IsImportPath (path : String) : Prop :=
  ∀ segment ∈ path.toList.splitOn '/',
    (∀ c ∈ segment, isPathChar c = true) ∧ ∃ c ∈ segment, c.isAlpha = true

instance : Decidable (IsImportPath path) :=
  decidable_of_iff ((path.toList.splitOn '/').all fun segment =>
    segment.all isPathChar && segment.any Char.isAlpha) (by simp [IsImportPath])

theorem splitOn_of_not_mem {c : Char} {cs : List Char} (h : c ∉ cs) : cs.splitOn c = [cs] := by
  have hsplit := List.splitOn_intercalate c (List.forall_mem_singleton.mpr h)
    (List.cons_ne_nil cs [])
  rwa [List.intercalate_singleton] at hsplit

theorem lastSegment_mem_splitOn (cs : List Char) : lastSegment cs ∈ cs.splitOn '/' := by
  by_cases hslash : '/' ∈ cs
  · obtain ⟨after, before, hsplit, hafter⟩ :=
      List.eq_append_cons_of_mem (List.mem_reverse.mpr hslash)
    have hlast : lastSegment cs = after.reverse := by
      rw [lastSegment, hsplit, Text.takeWhile_append_of_head _ (by simp)]
      exact fun c hc => decide_eq_true fun heq => hafter (heq ▸ hc)
    have hcs : cs = before.reverse ++ '/' :: after.reverse := by
      simpa using congrArg List.reverse hsplit
    have happend : cs.splitOn '/' =
        before.reverse.splitOn '/' ++ after.reverse.splitOn '/' := by
      rw [hcs]
      exact List.splitOnP_append_cons _ _ rfl
    rw [hlast, happend, splitOn_of_not_mem (mt List.mem_reverse.mp hafter)]
    exact List.mem_append_right _ (List.mem_singleton_self _)
  · have hwhole : (cs.reverse ++ []).takeWhile (· ≠ '/') = cs.reverse :=
      Text.takeWhile_append_of_head
        (fun c hc => decide_eq_true fun heq => hslash (heq ▸ List.mem_reverse.mp hc)) (by simp)
    rw [List.append_nil] at hwhole
    rw [lastSegment, hwhole, List.reverse_reverse, splitOn_of_not_mem hslash]
    exact List.mem_singleton_self _

namespace IsImportPath

theorem ne_empty (h : IsImportPath path) : path ≠ "" := by
  rintro rfl
  obtain ⟨-, c, hc, -⟩ := h [] (List.mem_singleton_self _)
  cases hc

theorem defaultAlias_ne_empty (h : IsImportPath path) : defaultAlias path ≠ "" := by
  obtain ⟨-, c, hc, halpha⟩ := h _ (lastSegment_mem_splitOn _)
  have halphanum : c.isAlphanum = true := Bool.or_eq_true_iff.mpr (.inl halpha)
  exact Interposer.defaultAlias_ne_empty hc (not_isAliasBreak_of_isAlphanum halphanum)

theorem isAlphanum_of_mem_defaultAlias (h : IsImportPath path) {c : Char}
    (hc : c ∈ (defaultAlias path).toList) : c.isAlphanum = true ∨ c = '~' := by
  obtain ⟨hmem, hbreak⟩ := mem_defaultAlias hc
  have hchar := (h _ (lastSegment_mem_splitOn _)).1 c hmem
  simp only [isPathChar, Bool.or_eq_true, beq_iff_eq] at hchar
  rcases hchar with (((halphanum | rfl) | rfl) | rfl) | rfl
  · exact .inl halphanum
  · exact absurd hbreak (by decide)
  · exact absurd hbreak (by decide)
  · exact absurd hbreak (by decide)
  · exact .inr rfl

end IsImportPath

namespace ImportTable

variable {table : ImportTable}

/-! ## Numbered aliases -/

theorem mem_toString_nat {n : Nat} {c : Char} (hc : c ∈ (toString n).toList) :
    c.isDigit = true := by
  obtain ⟨d, ds, hdigits, hall, -⟩ := Text.toString_eq_cons n
  exact hall c (hdigits ▸ hc)

theorem mem_candidate {n : Nat} {c : Char} (hc : c ∈ (candidate path n).toList) :
    c ∈ (defaultAlias path).toList ∨ c.isDigit = true := by
  cases n with
  | zero => exact .inl hc
  | succ n =>
    rw [candidate, String.toList_append] at hc
    exact (List.mem_append.mp hc).imp_right mem_toString_nat

theorem toList_defaultAlias_isPrefix (path : String) (n : Nat) :
    (defaultAlias path).toList <+: (candidate path n).toList := by
  cases n with
  | zero => exact List.prefix_rfl
  | succ n =>
    rw [candidate, String.toList_append]
    exact List.prefix_append ..

/-- No alias has a character at which segments are cut. -/
theorem WellFormed.not_isAliasBreak (H : table.WellFormed) {i : Import} (hi : i ∈ table.entries)
    {c : Char} (hc : c ∈ i.name.toList) : isAliasBreak c = false := by
  obtain ⟨n, hname, -⟩ := H.first i hi
  rw [hname] at hc
  rcases mem_candidate hc with hc | hdigit
  · exact (mem_defaultAlias hc).2
  · exact not_isAliasBreak_of_isAlphanum (Bool.or_eq_true_iff.mpr (.inr hdigit))

theorem WellFormed.underscore_not_mem (H : table.WellFormed) {i : Import}
    (hi : i ∈ table.entries) : '_' ∉ i.name.toList :=
  fun hmem => absurd (H.not_isAliasBreak hi hmem) (by decide)

/-! ## Identifiers -/

theorem isIdentifier_iff {s : String} (hchars : ∀ c ∈ s.toList, c.isAlphanum = true ∨ c = '~') :
    isIdentifier s = true ↔
      (∃ c ∈ s.toList.head?, c.isAlpha = true) ∧ '~' ∉ s.toList ∧ s ∉ keywords := by
  constructor
  · intro h
    obtain ⟨c, cs, hs, hstart, hall, hkeyword⟩ := exists_of_isIdentifier h
    refine ⟨⟨c, by rw [hs]; rfl, ?_⟩, fun htilde => ?_, hkeyword⟩
    · rcases Bool.or_eq_true_iff.mp hstart with halpha | hunderscore
      · exact halpha
      · rw [beq_iff_eq.mp hunderscore] at hs
        exact absurd (hchars '_' (hs ▸ List.mem_cons_self)) (by decide)
    · exact absurd (hall '~' (hs ▸ htilde)) (by decide)
  · rintro ⟨⟨c, hhead, halpha⟩, htilde, hkeyword⟩
    obtain ⟨cs, hs⟩ : ∃ cs, s.toList = c :: cs := List.head?_eq_some_iff.mp hhead
    have hall : ∀ c' ∈ cs, isIdentifierChar c' = true := by
      intro c' hc'
      have hmem : c' ∈ s.toList := hs ▸ List.mem_cons_of_mem c hc'
      rcases hchars c' hmem with halphanum | rfl
      · rw [isIdentifierChar, halphanum, Bool.true_or]
      · exact (htilde hmem).elim
    exact isIdentifier_of_cons hs (Bool.or_eq_true_iff.mpr (.inl halpha)) hall hkeyword

/-- Keywords have no digits, so a numbered alias is none. -/
theorem eq_defaultAlias_of_mem_keywords {n : Nat} (h : candidate path n ∈ keywords) :
    candidate path n = defaultAlias path := by
  have hkeywords : ∀ word ∈ keywords, word.toList.any Char.isDigit = false := by decide
  cases n with
  | zero => rfl
  | succ n =>
    obtain ⟨d, ds, hdigits, hall, -⟩ := Text.toString_eq_cons n
    have hmem : d ∈ (candidate path (n + 1)).toList := by
      rw [candidate, String.toList_append, hdigits]
      exact List.mem_append_right _ List.mem_cons_self
    have hany := List.any_eq_true.mpr ⟨d, hmem, hall d List.mem_cons_self⟩
    rw [hkeywords _ h] at hany
    cases hany

/-- What the alias of an import path is made of, and whether it can be used as a name. -/
structure AliasLaws (path name : String) : Prop where
  nonempty : name ≠ ""
  chars : ∀ c ∈ name.toList, c.isAlphanum = true ∨ c = '~'
  /-- A number makes an identifier of a keyword, but not of anything else. -/
  isIdentifier_iff : isIdentifier name = true ↔
    (∃ c ∈ (defaultAlias path).toList.head?, c.isAlpha = true) ∧
      '~' ∉ (defaultAlias path).toList ∧ name ∉ keywords
  keyword : name ∈ keywords → name = defaultAlias path

theorem aliasLaws_candidate (h : IsImportPath path) (n : Nat) :
    AliasLaws path (candidate path n) := by
  have hchars : ∀ c ∈ (candidate path n).toList, c.isAlphanum = true ∨ c = '~' := by
    intro c hc
    rcases mem_candidate hc with hc | hdigit
    · exact h.isAlphanum_of_mem_defaultAlias hc
    · exact .inl (by rw [Char.isAlphanum, hdigit, Bool.or_true])
  obtain ⟨rest, hrest⟩ := toList_defaultAlias_isPrefix path n
  have hhead : (candidate path n).toList.head? = (defaultAlias path).toList.head? := by
    cases hdefault : (defaultAlias path).toList with
    | nil => exact (h.defaultAlias_ne_empty (String.toList_eq_nil_iff.mp hdefault)).elim
    | cons c cs => rw [← hrest, hdefault]; rfl
  have htilde : '~' ∈ (candidate path n).toList ↔ '~' ∈ (defaultAlias path).toList := by
    refine ⟨fun hmem => (mem_candidate hmem).resolve_right (by decide), fun hmem => ?_⟩
    rw [← hrest]
    exact List.mem_append_left _ hmem
  refine ⟨candidate_ne_empty h.defaultAlias_ne_empty n, hchars, ?_,
    eq_defaultAlias_of_mem_keywords⟩
  rw [isIdentifier_iff hchars, hhead, htilde]

theorem WellFormed.aliasLaws (H : table.WellFormed) {i : Import} (hi : i ∈ table.entries)
    (hpath : IsImportPath i.path) : AliasLaws i.path i.name := by
  obtain ⟨n, hname, -⟩ := H.first i hi
  rw [hname]
  exact aliasLaws_candidate hpath n

theorem mem_run_of_mem_calls {run : List String} {call : String × String}
    (hcall : call ∈ table.calls run) : call.1 ∈ run := by
  induction run generalizing table with
  | nil => exact (List.not_mem_nil hcall).elim
  | cons first run ih =>
    rcases List.mem_cons.mp hcall with rfl | hcall
    · exact List.mem_cons_self
    · exact List.mem_cons_of_mem _ (ih hcall)

/-- **Aliases of import paths.** In a run that enters import paths, every answer is made of letters,
digits and tildes. It is an identifier unless a digit or a tilde stands in its way, or unless it is
a default alias that is a keyword. -/
theorem alias_laws {run : List String} (hrun : ∀ path ∈ run, IsImportPath path)
    {call : String × String} (hcall : call ∈ empty.calls run) : AliasLaws call.1 call.2 := by
  have hpath : call.1 ∈ run := mem_run_of_mem_calls hcall
  have hmem := mem_addAll_of_mem_calls hcall (hrun _ hpath).ne_empty
  exact (WellFormed.empty.addAll run).aliasLaws hmem (hrun _ hpath)

/-- All three obstacles: a keyword, a digit and a tilde. -/
theorem alias_not_isIdentifier :
    let run := ["github.com/go-redis/go-redis", "example.com/app/2captcha", "git.sr.ht/~user"]
    (∀ path ∈ run, IsImportPath path) ∧
      (empty.calls run).map (·.2) = ["go", "2captcha", "~user"] ∧
      ∀ call ∈ empty.calls run, isIdentifier call.2 = false := by
  decide +kernel

end ImportTable

end Interposer
