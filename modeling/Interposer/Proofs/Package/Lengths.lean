import Interposer.Interface
import Interposer.Proofs.Package.Files
import Interposer.Proofs.SignatureType.Conversion
import Interposer.Proofs.Source.Integers

/-! Array lengths on their way from a source file into a wrapper. A length is read if it is a
decimal or a hexadecimal literal, and no other kind is known to the reader; but octal digits after a
zero are taken for decimal ones. So all lengths that are written are right but these
(`Scope.lengthLaws`), and these are wrong from eight on (`Package.octal_length_misread`). -/

namespace Interposer

namespace Source

open Numeral

variable {radix : Nat} {text cs : List Char} {ds : List Nat} {numeral : Numeral}

/-- What the reader takes the literals of a kind for, if it reads them. -/
def Numeral.takenFor? : Numeral → Option Numeral
  | decimal | zeroOctal => some decimal
  | hexadecimal => some hexadecimal
  | octal | binary => none

/-! ## Reading -/

theorem Digits.ne_nil (h : Digits radix text ds) : ds ≠ [] := by
  cases h <;> exact List.cons_ne_nil _ _

/-- The digits of a literal without the underscores. -/
theorem Digits.forall₂_filter (hle : radix ≤ 16) (h : Digits radix text ds) :
    List.Forall₂ (IsDigit radix) (text.filter (· ≠ '_')) ds := by
  have hkept : ∀ {c d}, IsDigit radix c d → c ≠ '_' := fun hc =>
    (hc.mono hle).ne recognizes_isHexDigit rfl
  induction h with
  | single hc =>
    rw [List.filter_cons_of_pos (by simpa using hkept hc)]
    exact .cons hc .nil
  | next hc _ ih =>
    rw [List.filter_cons_of_pos (by simpa using hkept hc)]
    exact .cons hc ih
  | separated hc _ ih =>
    rw [List.filter_cons_of_pos (by simpa using hkept hc), List.filter_cons_of_neg (by decide)]
    exact .cons hc ih

theorem IsDigit.digitValue {c : Char} {d : Nat} (hle : radix ≤ 16) (h : IsDigit radix c d) :
    digitValue c = d := by
  have hall : ∀ d < 16, Source.digitValue d.digitChar = d ∧
      Source.digitValue d.digitChar.toUpper = d := by decide +kernel
  obtain ⟨hd, rfl | rfl⟩ := h.mono hle
  · exact (hall d hd).1
  · exact (hall d hd).2

theorem foldl_digitValue (hle : radix ≤ 16) (h : List.Forall₂ (IsDigit radix) cs ds) :
    cs.foldl (fun n c => n * radix + digitValue c) 0 = Nat.ofDigits radix ds.reverse := by
  rw [Nat.ofDigits_eq_foldr, List.foldr_reverse]
  generalize 0 = n
  induction h generalizing n with
  | nil => rfl
  | cons hc _ ih =>
    rw [List.foldl_cons, List.foldl_cons, ih, hc.digitValue hle]
    congr 1
    simp [Nat.mul_comm, Nat.add_comm]

theorem wordOfDigits?_eq (hle : radix ≤ 16) (hp : Recognizes (isDigitOf radix) radix)
    (hplus : isDigitOf radix '+' = false) (hne : ds ≠ [])
    (h : List.Forall₂ (IsDigit radix) cs ds) :
    wordOfDigits? radix cs = (some (Nat.ofDigits radix ds.reverse)).filter (· < lengthBound) := by
  have hall : cs.all (isDigitOf radix) = true := by
    have hboth := h.imp fun c d hc => And.intro ((hp c).mpr ⟨d, hc⟩) hc
    exact List.all_eq_true.mpr ((List.forall₂_and_left cs ds).mp hboth).1
  have hempty : cs.isEmpty = false := by
    cases h with
    | nil => exact absurd rfl hne
    | cons _ _ => rfl
  have hsign : ∀ rest, cs ≠ '+' :: rest := by
    rintro rest rfl
    rw [List.all_cons, hplus] at hall
    cases hall
  rw [wordOfDigits?, hempty, hall, foldl_digitValue hle h]
  · simp [Option.filter]
  · exact hsign

theorem recognizes_isDigitOf_ten : Recognizes (isDigitOf 10) 10 := recognizes_isDigit

theorem recognizes_isDigitOf_sixteen : Recognizes (isDigitOf 16) 16 := recognizes_isHexDigit

/-- Decimal digits. -/
theorem lengthOfText?_of_forall₂ (h : List.Forall₂ (IsDigit 10) (text.filter (· ≠ '_')) ds)
    (hne : ds ≠ []) :
    lengthOfText? text = (some (Numeral.decimal.value ds)).filter (· < lengthBound) := by
  have hdigit : ∀ c x rest, text.filter (· ≠ '_') = c :: x :: rest → x.isDigit = true := by
    intro c x rest heq
    rw [heq] at h
    cases h with
    | cons _ h =>
      cases h with
      | cons hx _ => exact (recognizes_isDigit x).mpr ⟨_, hx⟩
  rw [lengthOfText?]
  split
  · next rest heq => cases hdigit _ _ _ heq
  · next rest heq => cases hdigit _ _ _ heq
  · exact wordOfDigits?_eq (by omega) recognizes_isDigitOf_ten rfl hne h

/-- Literals other than decimal ones, without the underscores. -/
theorem Numeral.Spells.exists_mark (h : Spells numeral text ds) (hnumeral : numeral ≠ .decimal) :
    ∃ mark ∈ numeral.marks, ∃ cs, text.filter (· ≠ '_') = mark ++ cs ∧
      List.Forall₂ (IsDigit numeral.radix) cs ds ∧ ds ≠ [] := by
  have hmarks : ∀ mark ∈ numeral.marks, mark.filter (· ≠ '_') = mark := by
    cases numeral <;> decide
  have hradix : numeral.radix ≤ 16 := by
    cases numeral <;> decide
  cases h with
  | decimal => exact absurd rfl hnumeral
  | marked hmark h =>
    refine ⟨_, hmark, _, ?_, h.forall₂_filter hradix, h.ne_nil⟩
    rw [List.filter_append, hmarks _ hmark]
  | separated hmark h =>
    refine ⟨_, hmark, _, ?_, h.forall₂_filter hradix, h.ne_nil⟩
    rw [List.filter_append, hmarks _ hmark, List.filter_cons_of_neg (by simp)]

/-- What a literal is taken for. -/
theorem lengthOfText?_eq (h : Spells numeral text ds) : lengthOfText? text =
    (numeral.takenFor?.map (·.value ds)).filter (· < lengthBound) := by
  by_cases hnumeral : numeral = decimal
  · subst hnumeral
    cases h with
    | decimal h _ => exact lengthOfText?_of_forall₂ (h.forall₂_filter (by omega)) h.ne_nil
    | marked hmark => cases hmark
    | separated hmark => cases hmark
  obtain ⟨mark, hmark, cs, htext, hdigits, hne⟩ := h.exists_mark hnumeral
  cases numeral with
  | decimal => exact absurd rfl hnumeral
  | hexadecimal =>
    have hword := wordOfDigits?_eq (by omega) recognizes_isDigitOf_sixteen rfl hne hdigits
    rw [lengthOfText?, htext]
    rcases (by simpa [marks] using hmark : mark = ['0', 'x'] ∨ mark = ['0', 'X']) with rfl | rfl
    · exact hword
    · exact hword
  | zeroOctal =>
    obtain rfl : mark = ['0'] := by simpa [marks] using hmark
    have hzero : IsDigit 10 '0' 0 := isDigit_digitChar (by omega)
    have hall : List.Forall₂ (IsDigit 10) (text.filter (· ≠ '_')) (0 :: ds) := by
      rw [htext]
      exact .cons hzero (hdigits.imp fun _ _ hc => hc.mono (by decide))
    rw [lengthOfText?_of_forall₂ hall (List.cons_ne_nil _ _), value, Nat.ofDigits_reverse_zero_cons]
    rfl
  | octal =>
    rw [lengthOfText?, htext]
    rcases (by simpa [marks] using hmark : mark = ['0', 'o'] ∨ mark = ['0', 'O']) with rfl | rfl
    · rfl
    · rfl
  | binary =>
    rw [lengthOfText?, htext]
    rcases (by simpa [marks] using hmark : mark = ['0', 'b'] ∨ mark = ['0', 'B']) with rfl | rfl
    · rfl
    · rfl

/-! ## Octal digits as decimal ones -/

theorem ofDigits_ten_eq_eight_iff (h : ∀ d ∈ ds, d < 8) :
    Nat.ofDigits 10 ds = Nat.ofDigits 8 ds ↔ Nat.ofDigits 8 ds < 8 := by
  induction ds with
  | nil => simp
  | cons d ds ih =>
    have hmono := Nat.ofDigits_monotone ds (by omega : 8 ≤ 10)
    have ih := ih fun e he => h e (List.mem_cons_of_mem _ he)
    have hd := h d List.mem_cons_self
    rw [Nat.ofDigits_cons, Nat.ofDigits_cons]
    omega

/-- Octal digits denote the same number as decimal ones below eight only. -/
theorem Numeral.Spells.decimal_value_eq_iff (h : Spells .zeroOctal text ds) :
    Numeral.decimal.value ds = zeroOctal.value ds ↔ zeroOctal.value ds < 8 := by
  apply ofDigits_ten_eq_eight_iff
  obtain ⟨_, _, cs, -, hdigits, -⟩ := h.exists_mark nofun
  have hboth := hdigits.flip.imp fun d c hc => And.intro hc.1 hc
  intro d hd
  exact ((List.forall₂_and_left ds cs).mp hboth).1 d (List.mem_reverse.mp hd)

/-! ## Arrays -/

/-- Octal digits that denote another number than decimal ones. -/
def Numeral.Misread (numeral : Numeral) (ds : List Nat) : Prop :=
  numeral = .zeroOctal ∧ 8 ≤ numeral.value ds

open SignatureType (ofSource)

/-- What comes of the arrays whose length is a literal. -/
structure Scope.LengthLaws (scope : Scope) (length : Span) (numeral : Numeral) (ds : List Nat) :
    Prop where
  /-- If the literal is taken for a length that fits, then that is the length in the wrapper. -/
  accepted : ∀ read, numeral.takenFor? = some read → read.value ds ≤ maxArrayLength →
    ∀ elem span table, ofSource (scope.readType (.array length elem span)) table =
      (ofSource (scope.readType elem) >>= fun t => pure (.array (read.value ds) t)) table
  /-- Otherwise there is a failure. -/
  refused : (∀ read, numeral.takenFor? = some read → maxArrayLength < read.value ds) →
    ∀ elem span table, ∃ failure,
      ofSource (scope.readType (.array length elem span)) table = .error failure table
  /-- What is written between the brackets is a literal in decimal. It denotes the same number
  unless octal digits were misread. -/
  written : ∀ elem span table t table',
    ofSource (scope.readType (.array length elem span)) table = .ok t table' →
      ∃ digits ds' elem', ofSource (scope.readType elem) table = .ok elem' table' ∧
        t.render = "[" ++ digits ++ "]" ++ elem'.render ∧ Spells .decimal digits.toList ds' ∧
        (Numeral.decimal.value ds' = numeral.value ds ↔ ¬ numeral.Misread ds)

theorem Numeral.Spells.value_eq_iff {read : Numeral} (h : Spells numeral text ds)
    (hread : numeral.takenFor? = some read) :
    read.value ds = numeral.value ds ↔ ¬ numeral.Misread ds := by
  cases numeral with
  | octal => cases hread
  | binary => cases hread
  | decimal =>
    cases hread
    exact iff_of_true rfl fun h => nomatch h.1
  | hexadecimal =>
    cases hread
    exact iff_of_true rfl fun h => nomatch h.1
  | zeroOctal =>
    cases hread
    rw [h.decimal_value_eq_iff, Misread, not_and, not_le]
    exact ⟨fun h _ => h, fun h => h rfl⟩

/-- An array has the length that its literal is taken for, if that is a machine word. -/
theorem Scope.readType_array {scope : Scope} {length : Span}
    (h : Spells numeral (scope.slice length) ds) (elem : TypeSyntax) (span : Span) :
    (∃ read, numeral.takenFor? = some read ∧ read.value ds < lengthBound ∧
      scope.readType (.array length elem span) = .array (read.value ds) (scope.readType elem)) ∨
    (∀ read, numeral.takenFor? = some read → lengthBound ≤ read.value ds) ∧
      ∃ description, scope.readType (.array length elem span) = .other description := by
  rw [readType, arrayType, lengthOfText?_eq h]
  cases numeral.takenFor? with
  | none => exact .inr ⟨nofun, _, rfl⟩
  | some read =>
    rcases Nat.lt_or_ge (read.value ds) lengthBound with hfits | hlarge
    · exact .inl ⟨read, rfl, hfits, by simp [Option.filter, hfits]⟩
    · have hnone : (some (read.value ds)).filter (· < lengthBound) = none := by
        simp [Option.filter, Nat.not_lt.mpr hlarge]
      rw [Option.map_some, hnone]
      refine .inr ⟨?_, _, rfl⟩
      rintro _ ⟨⟩
      exact hlarge

/-- **Array lengths.** -/
theorem Scope.lengthLaws {scope : Scope} {length : Span}
    (h : Spells numeral (scope.slice length) ds) : scope.LengthLaws length numeral ds := by
  have hbound : maxArrayLength < lengthBound := by decide
  have haccepted : ∀ read, numeral.takenFor? = some read → read.value ds ≤ maxArrayLength →
      ∀ elem span table, ofSource (scope.readType (.array length elem span)) table =
        (ofSource (scope.readType elem) >>= fun t => pure (.array (read.value ds) t)) table := by
    intro read hread hle elem span table
    rcases readType_array h elem span with ⟨read', hread', -, htype⟩ | ⟨hlarge, -⟩
    · cases hread.symm.trans hread'
      rw [htype, ofSource, if_pos hle]
    · exact absurd (hlarge read hread) (by omega)
  have hrefused : (∀ read, numeral.takenFor? = some read → maxArrayLength < read.value ds) →
      ∀ elem span table, ∃ failure,
        ofSource (scope.readType (.array length elem span)) table = .error failure table := by
    intro hnone elem span table
    rcases readType_array h elem span with ⟨read, hread, -, htype⟩ | ⟨-, description, htype⟩
    · rw [htype, ofSource, if_neg (Nat.not_le.mpr (hnone read hread))]
      exact ⟨_, rfl⟩
    · rw [htype, ofSource]
      exact ⟨_, rfl⟩
  refine ⟨haccepted, hrefused, ?_⟩
  intro elem span table t table' hok
  by_cases hnone : ∀ read, numeral.takenFor? = some read → maxArrayLength < read.value ds
  · obtain ⟨failure, hfailure⟩ := hrefused hnone elem span table
    cases hok.symm.trans hfailure
  · simp only [not_forall, Nat.not_lt] at hnone
    obtain ⟨read, hread, hle⟩ := hnone
    rw [haccepted read hread hle elem span table] at hok
    obtain ⟨elem', _, helem, hpure⟩ := Importing.bind_eq_ok.mp hok
    obtain ⟨rfl, rfl⟩ := Importing.pure_eq_ok.mp hpure
    obtain ⟨ds', hspells, hvalue⟩ := Numeral.spells_toString (read.value ds)
    refine ⟨_, ds', elem', helem, ?_, hspells, ?_⟩
    · rw [SignatureType.render]
      rfl
    · rw [hvalue, h.value_eq_iff hread]

end Source

namespace Package

open Source

/-- A file with an array of eight bytes. -/
def sized : SourceFile where
  text := "package repo\n\ntype Store interface \x7b\n\tKey() [010]byte\n\x7d\n"
  items :=
    [.package "repo",
      .types [.definition "Store" []
        (.interface [.method "Key" []
          [.group [] (.array ⟨45, 48⟩ (.name "byte") ⟨44, 53⟩)]])]]

/-- The wrapper's method has an array of ten bytes. -/
theorem octal_length_misread :
    Numeral.Spells .zeroOctal ((sized.scope "example.com/app/repo").slice ⟨45, 48⟩) [1, 0] ∧
    Numeral.zeroOctal.value [1, 0] = 8 ∧
    ∃ i table', Package.introspect
        ⟨"repo", "example.com/app/repo", sized.declarations "example.com/app/repo"⟩
        "Store" .empty = .ok i table' ∧
      i.methods.map (·.results.map (·.type.render)) = [["[10]byte"]] := by
  have hone : IsDigit 8 '1' 1 := isDigit_digitChar (by omega)
  have hzero : IsDigit 8 '0' 0 := isDigit_digitChar (by omega)
  have hmark : ['0'] ∈ Numeral.zeroOctal.marks := List.mem_cons_self
  refine ⟨?_, rfl, _, _, rfl, by decide +kernel⟩
  exact .marked hmark (.next hone (.single hzero))

end Package

end Interposer
