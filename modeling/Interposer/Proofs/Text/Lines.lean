import Interposer.Text.Lines
import Mathlib.Data.List.Basic

/-! Lines around a part of one. Where a text falls into lines does not depend on a part that ends
none, and indentation keeps that part in one piece, with the same text on either side of it
(`indent_around`). -/

namespace Interposer.Text

/-- Part of a line: some characters, none of which ends a line. -/
structure IsPart (w : List Char) : Prop where
  ne_nil : w ≠ []
  no_end : ∀ c ∈ w, c ≠ '\n' ∧ c ≠ '\r'

instance (w : List Char) : Decidable (IsPart w) :=
  decidable_of_iff (w ≠ [] ∧ w.all (fun c => c ≠ '\n' ∧ c ≠ '\r') = true)
    ⟨fun h => ⟨h.1, by simpa using h.2⟩, fun h => ⟨h.1, by simpa using h.2⟩⟩

theorem IsPart.append {w w' : List Char} (h : IsPart w) (h' : ∀ c ∈ w', c ≠ '\n' ∧ c ≠ '\r') :
    IsPart (w ++ w') :=
  ⟨List.append_ne_nil_of_left_ne_nil h.ne_nil w', List.forall_mem_append.mpr ⟨h.no_end, h'⟩⟩

/-! ## Falling into lines -/

/-- A character that ends no line is in front of the first line of what follows. -/
theorem splitLines_cons {c : Char} {cs : List Char} (hc : c ≠ '\n')
    (hreturn : c = '\r' → cs.head? ≠ some '\n') :
    splitLines (c :: cs) = (c :: (splitLines cs).headD []) :: (splitLines cs).tail := by
  have hpair : ∀ cs', c = '\r' → cs = '\n' :: cs' → False := by
    rintro cs' hc rfl
    exact hreturn hc rfl
  rw [splitLines.eq_4 c cs hc hpair]
  cases splitLines cs <;> rfl

theorem IsPart.splitLines_append {w : List Char} (h : IsPart w) (cs : List Char) :
    splitLines (w ++ cs) = (w ++ (splitLines cs).headD []) :: (splitLines cs).tail := by
  obtain ⟨hne, hend⟩ := h
  induction w with
  | nil => exact absurd rfl hne
  | cons c w ih =>
    obtain ⟨hc, hrest⟩ := List.forall_mem_cons.mp hend
    rw [List.cons_append, splitLines_cons hc.1 fun h => absurd h hc.2]
    cases w with
    | nil => rfl
    | cons c' w => rw [ih (List.cons_ne_nil c' w) hrest]; rfl

theorem IsPart.head?_append {w : List Char} (h : IsPart w) (p cs : List Char)
    (hp : p.head? ≠ some '\n') : (p ++ (w ++ cs)).head? ≠ some '\n' := by
  obtain ⟨c, w, rfl⟩ := List.exists_cons_of_ne_nil h.ne_nil
  cases p with
  | nil => exact fun heq => (h.no_end c List.mem_cons_self).1 (Option.some.inj heq)
  | cons c' p => exact hp

/-- What stands before a part of a line falls into the same lines whatever that part is. -/
theorem splitLines_around (p : List Char) : ∃ earlier start, ∀ w cs, IsPart w →
    splitLines (p ++ (w ++ cs)) =
      earlier ++ (start ++ (w ++ (splitLines cs).headD [])) :: (splitLines cs).tail := by
  induction p with
  | nil => exact ⟨[], [], fun w cs hw => hw.splitLines_append cs⟩
  | cons c p ih =>
    obtain ⟨earlier, start, h⟩ := ih
    by_cases hc : c = '\n'
    · refine ⟨[] :: earlier, start, fun w cs hw => ?_⟩
      rw [hc, List.cons_append, splitLines, h w cs hw, List.cons_append]
    by_cases hpair : c = '\r' ∧ p.head? = some '\n'
    · obtain ⟨rfl, hhead⟩ := hpair
      obtain ⟨p, rfl⟩ := List.head?_eq_some_iff.mp hhead
      exact ⟨earlier, start, fun w cs hw => h w cs hw⟩
    have hcons : ∀ w cs, IsPart w → splitLines (c :: (p ++ (w ++ cs))) =
        (c :: (splitLines (p ++ (w ++ cs))).headD []) :: (splitLines (p ++ (w ++ cs))).tail :=
      fun w cs hw => splitLines_cons hc fun hr => hw.head?_append p cs fun hp => hpair ⟨hr, hp⟩
    cases earlier with
    | nil =>
      refine ⟨[], c :: start, fun w cs hw => ?_⟩
      rw [List.cons_append, hcons w cs hw, h w cs hw]
      rfl
    | cons line earlier =>
      refine ⟨(c :: line) :: earlier, start, fun w cs hw => ?_⟩
      rw [List.cons_append, hcons w cs hw, h w cs hw]
      rfl

theorem splitLines_ne_nil {cs : List Char} (h : cs ≠ []) : splitLines cs ≠ [] := by
  rw [splitLines.eq_def]
  split
  · exact absurd rfl h
  · exact List.cons_ne_nil _ _
  · exact List.cons_ne_nil _ _
  · split <;> exact List.cons_ne_nil _ _

/-- A line before a line feed is one of the lines, but for a carriage return at its end. -/
theorem splitLines_line {line : List Char} (h : '\n' ∉ line) (cs : List Char) :
    ∃ line', (line = line' ∨ line = line' ++ ['\r']) ∧
      splitLines (line ++ '\n' :: cs) = line' :: splitLines cs := by
  induction line with
  | nil => exact ⟨[], .inl rfl, splitLines.eq_2 cs⟩
  | cons c line ih =>
    simp only [List.mem_cons, not_or] at h
    by_cases hpair : c = '\r' ∧ line = []
    · obtain ⟨rfl, rfl⟩ := hpair
      exact ⟨[], .inr rfl, splitLines.eq_3 cs⟩
    obtain ⟨line', hline, hsplit⟩ := ih h.2
    have hhead : c = '\r' → (line ++ '\n' :: cs).head? ≠ some '\n' := by
      intro hc
      cases line with
      | nil => exact absurd ⟨hc, rfl⟩ hpair
      | cons d line =>
        simp only [List.mem_cons, not_or] at h
        exact fun heq => h.2.1 (Option.some.inj heq).symm
    refine ⟨c :: line', hline.imp (congrArg (c :: ·)) (congrArg (c :: ·)), ?_⟩
    rw [List.cons_append, splitLines_cons (Ne.symm h.1) hhead, hsplit]
    rfl

theorem splitLines_last {line : List Char} (h : '\n' ∉ line) (hne : line ≠ []) :
    splitLines line = [line] := by
  induction line with
  | nil => exact absurd rfl hne
  | cons c line ih =>
    simp only [List.mem_cons, not_or] at h
    have hhead : c = '\r' → line.head? ≠ some '\n' :=
      fun _ heq => h.2 (List.mem_of_mem_head? heq)
    rw [splitLines_cons (Ne.symm h.1) hhead]
    cases line with
    | nil => rfl
    | cons d line => rw [ih h.2 (List.cons_ne_nil d line)]; rfl

/-! ## Indentation -/

/-- What becomes of a text by indentation if it goes on in a line. -/
def continued (depth : Nat) (s : String) : String :=
  "\n".intercalate (String.ofList ((splitLines s.toList).headD []) ::
    ((splitLines s.toList).tail.map String.ofList).map (indentLine depth))

theorem intercalate_cons {α : Type} (separator first : List α) (rest : List (List α)) :
    separator.intercalate (first :: rest) = first ++ rest.flatMap (separator ++ ·) := by
  induction rest generalizing first with
  | nil => simp
  | cons second rest ih =>
    rw [List.intercalate_cons_cons, ih, List.flatMap_cons]
    simp only [List.append_assoc]

theorem intercalate_after (sep : String) (earlier : List String) : ∃ before, ∀ s later,
    sep.intercalate (earlier ++ s :: later) = before ++ sep.intercalate (s :: later) := by
  by_cases hearlier : earlier = []
  · subst hearlier
    exact ⟨"", fun s later => by simp⟩
  · refine ⟨sep.intercalate earlier ++ sep, fun s later => ?_⟩
    exact String.intercalate_append_of_ne_nil hearlier (List.cons_ne_nil s later)

theorem intercalate_around (sep : String) (earlier later : List String) : ∃ before after, ∀ s,
    sep.intercalate (earlier ++ s :: later) = before ++ s ++ after := by
  obtain ⟨before, h⟩ := intercalate_after sep earlier
  refine ⟨before, sep.intercalate ("" :: later), fun s => ?_⟩
  have hcons := String.intercalate_cons_append (s := sep) (t := s) (u := "") (l := later)
  rw [String.append_empty] at hcons
  rw [h, hcons, String.append_assoc]

theorem indentLine_eq {depth : Nat} {line : List Char} (h : line ≠ []) :
    indentLine depth (String.ofList line) =
      String.ofList (List.replicate depth '\t') ++ String.ofList line := by
  rw [indentLine, if_neg]
  simpa using h

/-- A part of a line stays in one piece, and what indentation makes of the text before it and of
the text after it depends on these alone. -/
theorem indent_around (depth : Nat) (p : String) : ∃ before, ∀ w q : String,
    IsPart w.toList → indent depth (p ++ w ++ q) = before ++ w ++ continued depth q := by
  obtain ⟨earlier, start, hlines⟩ := splitLines_around p.toList
  obtain ⟨before, hbefore⟩ := intercalate_after "\n"
    ((earlier.map String.ofList).map (indentLine depth))
  refine ⟨before ++ (String.ofList (List.replicate depth '\t') ++ String.ofList start),
    fun w q hw => ?_⟩
  have hne : start ++ (w.toList ++ (splitLines q.toList).headD []) ≠ [] := by
    simp [hw.ne_nil]
  have hall : lines (p ++ w ++ q) = earlier.map String.ofList ++
      String.ofList (start ++ (w.toList ++ (splitLines q.toList).headD [])) ::
        (splitLines q.toList).tail.map String.ofList := by
    rw [lines, String.toList_append, String.toList_append, List.append_assoc,
      hlines w.toList q.toList hw, List.map_append, List.map_cons]
  rw [indent, hall, List.map_append, List.map_cons, hbefore, indentLine_eq hne,
    String.ofList_append, String.ofList_append, String.ofList_toList, continued]
  simp only [String.intercalate_cons_append, String.append_assoc]

/-- A text that starts with a part of a line starts with the tabs of that line. -/
theorem indent_part (depth : Nat) {w : String} (hw : IsPart w.toList) (q : String) :
    indent depth (w ++ q) =
      String.ofList (List.replicate depth '\t') ++ w ++ continued depth q := by
  have hne : w.toList ++ (splitLines q.toList).headD [] ≠ [] := by
    simp [hw.ne_nil]
  rw [indent, lines, String.toList_append, hw.splitLines_append, List.map_cons, List.map_cons,
    indentLine_eq hne, String.ofList_append, String.ofList_toList, continued]
  simp only [String.intercalate_cons_append, String.append_assoc]

/-- After the end of a line, indentation starts anew. -/
theorem continued_newline (depth : Nat) {s : String} (h : s ≠ "") :
    continued depth ("\n" ++ s) = "\n" ++ indent depth s := by
  have hsplit : splitLines ("\n" ++ s).toList = [] :: splitLines s.toList := by
    rw [String.toList_append]
    exact splitLines.eq_2 s.toList
  have hne : ((splitLines s.toList).map String.ofList).map (indentLine depth) ≠ [] := by
    simpa using splitLines_ne_nil (by simpa using h)
  rw [continued, hsplit, List.headD_cons, List.tail_cons, String.intercalate_cons_of_ne_nil hne]
  rfl

theorem indent_line (depth : Nat) {w s : String} (hw : IsPart w.toList) (h : s ≠ "") :
    indent depth (w ++ "\n" ++ s) =
      String.ofList (List.replicate depth '\t') ++ w ++ "\n" ++ indent depth s := by
  have hall := indent_part depth hw ("\n" ++ s)
  rwa [continued_newline depth h, ← String.append_assoc, ← String.append_assoc] at hall

end Interposer.Text
