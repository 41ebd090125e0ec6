import Interposer.Proofs.Source.Surface

/-! Texts that are types, and lists of parameters and results. They declare nothing. -/

namespace Interposer.Source

variable {cs cs' w : List Char} {items : List (List Char)}

/-- A text that is a type. -/
structure IsType (cs : List Char) : Prop where
  spelled : Spelled .other [.nonterminal .simpleType] cs
  shows : Shows cs []
  /-- A star before it stands by itself. -/
  head : ∃ c cs', cs = c :: cs' ∧ c ≠ '='

/-! ## Parameters -/

/-- A text that stands for a parameter, with a name or without. -/
def IsParam (cs : List Char) : Prop := OneOf [.paramDecl, .variadicParamDecl] .other cs

namespace IsParam

theorem of_type (h : IsType cs) : IsParam cs :=
  ⟨.paramDecl, by decide, .of_way [.nonterminal .simpleType] (by decide) h.spelled⟩

theorem variadic (h : IsType cs) : IsParam ('.' :: '.' :: '.' :: cs) :=
  ⟨.variadicParamDecl, by decide,
    .of_way [.terminal .ellipsis, .nonterminal .simpleType] (by decide)
      (.operator (o := ['.', '.', '.']) (by decide) h.spelled)⟩

theorem named (hw : IsName w) (h : IsType cs) : IsParam (w ++ ' ' :: cs) :=
  ⟨.paramDecl, by decide,
    .of_way [.terminal .identifier, .nonterminal .simpleType] (by decide)
      (.name hw (Nat.le_refl _) (.space (.inl rfl) h.spelled) (free_cons rfl _))⟩

theorem namedVariadic (hw : IsName w) (h : IsType cs) :
    IsParam (w ++ ' ' :: '.' :: '.' :: '.' :: cs) :=
  ⟨.variadicParamDecl, by decide,
    .of_way [.terminal .identifier, .terminal .ellipsis, .nonterminal .simpleType] (by decide)
      (.name hw (Nat.le_refl _) (.space (.inl rfl)
        (.operator (o := ['.', '.', '.']) (by decide) h.spelled)) (free_cons rfl _))⟩

theorem fills (hitems : ∀ cs ∈ items, IsParam cs) :
    Fills .parens .params ([',', ' '].intercalate items) :=
  .of_list [.paramDecl, .variadicParamDecl] .moreParamDecls (by decide) (by decide) hitems

end IsParam

/-! ## Results -/

/-- What may follow a list of parameters. -/
structure IsResult (cs : List Char) : Prop where
  spelled : ∃ phrases ∈ [[], [.params], [.simpleType]],
    Spelled .other (phrases.map .nonterminal) cs
  free : Free cs
  shows : Shows cs []

namespace IsResult

theorem none : IsResult [] := ⟨⟨[], by decide, .nil⟩, free_nil, .nil⟩

theorem single (h : IsType cs) : IsResult (' ' :: cs) :=
  ⟨⟨[.simpleType], by decide, .space (.inl rfl) h.spelled⟩, free_cons rfl _, h.shows.space⟩

theorem several (hitems : ∀ cs ∈ items, IsParam cs) :
    IsResult (' ' :: Brackets.parens.wrap ([',', ' '].intercalate items)) := by
  have hfills := IsParam.fills hitems
  exact ⟨⟨[.params], by decide, .space (.inl rfl) (hfills.spelled _)⟩, free_cons rfl _,
    (Shows.wrap hfills.enclosed).space⟩

end IsResult

/-! ## Types -/

namespace IsType

theorem name (hw : IsName w) : IsType w where
  spelled := by
    rw [← List.append_nil w]
    exact .of_way [.terminal .identifier] (by decide) (.name hw (Nat.le_refl _) .nil free_nil)
  shows := .name hw
  head := by
    obtain ⟨c, cs, rfl, hstart, -⟩ := hw.isWord
    refine ⟨c, cs, rfl, ?_⟩
    rintro rfl
    cases hstart

theorem qualified {q : List Char} (hq : IsName q) (hw : IsName w) : IsType (q ++ '.' :: w) := by
  obtain ⟨c, cs, rfl, hstart, -⟩ := hw.isWord
  have hdot := chunk_dot hstart
  refine ⟨?_, ?_, ?_⟩
  · have hmember : Spelled .other [.terminal .identifier] ((c :: cs) ++ []) :=
      .name hw (Nat.le_refl _) .nil free_nil
    rw [List.append_nil] at hmember
    exact .of_way [.nonterminal .qualifiedType] (by decide)
      (.of_way [.terminal .identifier, .terminal .dot, .terminal .identifier] (by decide)
        (.name hq (Nat.le_refl _) (.operator_char (by decide) nofun hdot hmember)
          (free_cons rfl _)))
  · exact (Shows.name hq).append (.operator (by decide) rfl rfl hdot (.name hw)) (free_cons rfl _)
  · obtain ⟨c', cs', rfl, hstart', -⟩ := hq.isWord
    refine ⟨c', _, rfl, ?_⟩
    rintro rfl
    cases hstart'

theorem slice (h : IsType cs) : IsType ('[' :: ']' :: cs) where
  spelled := .of_way [.nonterminal .sliceType] (by decide)
    (.of_way [.terminal .leftBracket, .terminal .rightBracket, .nonterminal .simpleType] (by decide)
      (.operator (o := ['[']) (by decide) (.operator (o := [']']) (by decide) h.spelled)))
  shows := by
    have hnil : Spelled .other [] [] := .nil
    have hnone : Enclosed .brackets [] := hnil.enclosed [] _
    exact Shows.wrap_append hnone h.shows
  head := ⟨_, _, rfl, by decide⟩

theorem array (n : Nat) (h : IsType cs) : IsType ('[' :: ((toString n).toList ++ ']' :: cs)) where
  spelled := .of_way [.nonterminal .arrayType] (by decide)
    (.of_way [.terminal .leftBracket, .nonterminal .expression, .terminal .rightBracket,
        .nonterminal .simpleType] (by decide)
      (.operator (o := ['[']) (by decide)
        (.number n (.operator (o := [']']) (by decide) h.spelled))))
  shows := by
    have hwrap := Shows.wrap_append (enclosed_number n) h.shows
    simpa [Brackets.wrap, Brackets.opening, Brackets.closing] using hwrap
  head := ⟨_, _, rfl, by decide⟩

theorem spelled_map (hkey : IsType cs) (hvalue : IsType cs') (place : Place) :
    Spelled place [.nonterminal .mapType] ("map".toList ++ '[' :: (cs ++ ']' :: cs')) :=
  .of_way [.terminal .kwMap, .terminal .leftBracket, .nonterminal .simpleType,
      .terminal .rightBracket, .nonterminal .simpleType] (by decide)
    (.keyword (.of_all (by decide)) (by decide) (.operator (o := ['[']) (by decide)
      (hkey.spelled.append (.operator (o := [']']) (by decide) hvalue.spelled)
        (free_cons rfl _))) (free_cons rfl _))

theorem map (hkey : IsType cs) (hvalue : IsType cs') :
    IsType ("map".toList ++ '[' :: (cs ++ ']' :: cs')) where
  spelled := .of_way [.nonterminal .mapType] (by decide) (hkey.spelled_map hvalue _)
  shows := by
    have henclosed : Enclosed .brackets cs := hkey.spelled.enclosed [.simpleType] _
    have hwrap := Shows.wrap_append henclosed hvalue.shows
    have hword : Shows "map".toList [] := .word (.of_all (by decide)) (by decide)
    simpa [Brackets.wrap, Brackets.opening, Brackets.closing] using
      hword.append hwrap (by cases cs <;> exact free_cons rfl _)
  head := ⟨'m', _, rfl, by decide⟩

theorem pointer (h : IsType cs) : IsType ('*' :: cs) := by
  obtain ⟨c, cs', rfl, hc⟩ := h.head
  exact ⟨.of_way [.nonterminal .pointerType] (by decide)
      (.of_way [.terminal .star, .nonterminal .simpleType] (by decide)
        (.operator_char (by decide) nofun (chunk_star hc) h.spelled)),
    .operator (by decide) rfl rfl (chunk_star hc) h.shows, ⟨_, _, rfl, by decide⟩⟩

theorem func (hitems : ∀ cs ∈ items, IsParam cs) (h : IsResult cs) :
    IsType ("func".toList ++ (Brackets.parens.wrap ([',', ' '].intercalate items) ++ cs)) := by
  have hfills := IsParam.fills hitems
  obtain ⟨phrases, hphrases, hspelled⟩ := h.spelled
  have hways : ∀ phrases ∈ [[], [.params], [.simpleType]], .terminal .kwFunc ::
      .nonterminal .params :: phrases.map .nonterminal ∈ Nonterminal.funcType.ways := by decide
  refine ⟨.of_way [.nonterminal .funcType] (by decide) (.of_way _ (hways phrases hphrases)
    (.keyword (.of_all (by decide)) (by decide) ((hfills.spelled _).append hspelled h.free)
      ?_)), ?_, ⟨'f', _, rfl, by decide⟩⟩
  · exact free_cons rfl _
  · have hfunc := Shows.func_wrap hfills.enclosed (.inl rfl)
    simpa using hfunc.append h.shows h.free

end IsType

end Interposer.Source
