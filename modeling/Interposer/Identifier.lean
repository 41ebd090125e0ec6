/-! Identifiers that generated code may use: ASCII letters, digits and underscores, no digit first,
and no keyword. Go itself admits more letters. -/

namespace Interposer

def keywords : List String :=
  ["break", "case", "chan", "const", "continue", "default", "defer", "else", "fallthrough", "for",
    "func", "go", "goto", "if", "import", "interface", "map", "package", "range", "return",
    "select", "struct", "switch", "type", "var"]

def isIdentifierStart (c : Char) : Bool := c.isAlpha || c == '_'

def isIdentifierChar (c : Char) : Bool := c.isAlphanum || c == '_'

def isIdentifier (s : String) : Bool :=
  match s.toList with
  | [] => false
  | c :: cs => isIdentifierStart c && cs.all isIdentifierChar && !keywords.contains s

theorem isIdentifierChar_of_isIdentifierStart {c : Char} (h : isIdentifierStart c = true) :
    isIdentifierChar c = true := by
  have hstart : c.isAlpha || c == '_' := h
  have hchar : (c.isAlpha || c.isDigit) || c == '_' := by
    rcases Bool.or_eq_true_iff.mp hstart with h | h <;> simp [h]
  exact hchar

theorem exists_of_isIdentifier {s : String} (h : isIdentifier s = true) :
    ∃ c cs, s.toList = c :: cs ∧ isIdentifierStart c = true ∧
      (∀ c' ∈ c :: cs, isIdentifierChar c' = true) ∧ s ∉ keywords := by
  unfold isIdentifier at h
  split at h
  · cases h
  · next c cs hs =>
    simp only [Bool.and_eq_true, List.all_eq_true, Bool.not_eq_true', List.contains_eq_mem,
      decide_eq_false_iff_not] at h
    obtain ⟨⟨hstart, hall⟩, hkeyword⟩ := h
    exact ⟨c, cs, hs, hstart,
      List.forall_mem_cons.mpr ⟨isIdentifierChar_of_isIdentifierStart hstart, hall⟩, hkeyword⟩

theorem isIdentifier_of_cons {s : String} {c : Char} {cs : List Char} (hs : s.toList = c :: cs)
    (hstart : isIdentifierStart c = true) (hall : ∀ c' ∈ cs, isIdentifierChar c' = true)
    (hkeyword : s ∉ keywords) : isIdentifier s = true := by
  unfold isIdentifier
  rw [hs]
  simpa [hstart, hkeyword] using hall

end Interposer
