import Interposer.Identifier
import Interposer.Proofs.Fresh
import Interposer.Proofs.Source.Spelling
import Interposer.Proofs.Text.Span

/-! Words that are names to the grammar: identifiers, and what is made of names by adding
underscores, digits and letters. Keywords are made of lower case letters, at least two, so most of
these words are told from them at a glance. -/

namespace Interposer.Source

variable {w : List Char}

theorem isWord_iff :
    IsWord w ↔ (w.head?.any Text.isWordStart && w.tail.all Text.isWordChar) = true := by
  refine ⟨?_, .of_all⟩
  rintro ⟨c, cs, rfl, hstart, hall⟩
  exact Bool.and_eq_true_iff.mpr ⟨hstart, List.all_eq_true.mpr hall⟩

theorem isName_iff : IsName w ↔ IsWord w ∧ (Lexer.keyword? w).all Place.other.admits = true :=
  ⟨fun h => ⟨h.isWord, (Option.all_eq_true ..).mpr h.admits⟩,
    fun h => ⟨h.1, (Option.all_eq_true ..).mp h.2⟩⟩

instance : Decidable (IsWord w) := decidable_of_iff _ isWord_iff.symm

instance : Decidable (IsName w) := decidable_of_iff _ isName_iff.symm

/-! ## Names of literals -/

/-- The words that Go predeclares for values and functions, as far as the grammar knows them. -/
def valueWords : List String := ["new", "make", "nil", "true", "false", "iota"]

/-- A name that a literal can begin with. Where an operand begins, the words of values are no
identifiers. -/
structure IsLiteralName (w : List Char) : Prop where
  isWord : IsWord w
  admits : ∀ k, Lexer.keyword? w = some k → Place.operand.admits k = true

theorem mem_keywordTable {k : Terminal} (h : Lexer.keyword? w = some k) :
    (w, k) ∈ Lexer.keywordTable := by
  obtain ⟨entry, hfound, rfl⟩ := Option.map_eq_some_iff.mp h
  have hword : entry.1 = w := by simpa using List.find?_some hfound
  exact hword ▸ List.mem_of_find?_eq_some hfound

namespace IsLiteralName

theorem isName (h : IsLiteralName w) : IsName w :=
  ⟨h.isWord, fun k hk => Place.admits_mono (Nat.zero_le _) (h.admits k hk)⟩

/-- Of the names, all but the words of values can begin a literal. -/
theorem of_isName (h : IsName w) (hvalue : String.ofList w ∉ valueWords) : IsLiteralName w := by
  have hwords : ∀ p ∈ Lexer.keywordTable, Place.other.admits p.2 = true →
      String.ofList p.1 ∉ valueWords → Place.operand.admits p.2 = true := by decide
  exact ⟨h.isWord, fun k hk => hwords _ (mem_keywordTable hk) (h.admits k hk) hvalue⟩

/-- A word cannot be a keyword if it is short or not in lower case; an underscore is a name. -/
theorem of_not_lower (hw : IsWord w) (h : w.length < 2 ∨ ∃ c ∈ w, c.isLower = false) :
    IsLiteralName w := by
  have hwords : ∀ p ∈ Lexer.keywordTable, Place.operand.admits p.2 = true ∨
      2 ≤ p.1.length ∧ p.1.all Char.isLower = true := by decide
  refine ⟨hw, fun k hk => (hwords _ (mem_keywordTable hk)).resolve_right fun hkeyword => ?_⟩
  obtain ⟨hlength, hlower⟩ := hkeyword
  rcases h with hshort | ⟨c, hc, hother⟩
  · exact absurd hlength (Nat.not_le_of_lt hshort)
  · exact absurd (List.all_eq_true.mp hlower c hc) (by simp [hother])

theorem spelled {symbols : List Symbol} {cs : List Char} (h : IsLiteralName w) (place : Place)
    (hcs : Spelled .other symbols cs) (hfree : Free cs) :
    Spelled place (.terminal .identifier :: symbols) (w ++ cs) :=
  .identifier h.isWord (fun k hk => Place.admits_mono (Nat.zero_le _) (h.admits k hk)) hcs hfree

end IsLiteralName

/-! ## Identifiers -/

theorem toNat_lt_of_isIdentifierChar {c : Char} (h : isIdentifierChar c = true) :
    c.toNat < 0x80 := by
  have hranges : ((decide ('A'.val ≤ c.val ∧ c.val ≤ 'Z'.val) ||
      (decide ('a'.val ≤ c.val) && decide (c.val ≤ 'z'.val))) ||
        (decide ('0'.val ≤ c.val) && decide (c.val ≤ '9'.val))) || c == '_' := h
  simp only [Bool.or_eq_true, Bool.and_eq_true, decide_eq_true_eq, beq_iff_eq] at hranges
  rcases hranges with ((⟨-, hle⟩ | ⟨-, hle⟩) | ⟨-, hle⟩) | rfl
  · exact Nat.lt_of_le_of_lt hle (by decide)
  · exact Nat.lt_of_le_of_lt hle (by decide)
  · exact Nat.lt_of_le_of_lt hle (by decide)
  · decide

theorem isWordStart_of_isIdentifierStart {c : Char} (h : isIdentifierStart c = true) :
    Text.isWordStart c = true := by
  have hascii := toNat_lt_of_isIdentifierChar (isIdentifierChar_of_isIdentifierStart h)
  rwa [Text.isWordStart, if_pos hascii]

theorem isWordChar_of_isIdentifierChar {c : Char} (h : isIdentifierChar c = true) :
    Text.isWordChar c = true := by
  rwa [Text.isWordChar, if_pos (toNat_lt_of_isIdentifierChar h)]

theorem isName_of_isIdentifier {s : String} (h : isIdentifier s = true) : IsName s.toList := by
  have hwords : ∀ p ∈ Lexer.keywordTable,
      Place.other.admits p.2 = true ∨ String.ofList p.1 ∈ keywords := by decide
  obtain ⟨c, cs, hs, hstart, hall, hkeyword⟩ := exists_of_isIdentifier h
  obtain ⟨-, hrest⟩ := List.forall_mem_cons.mp hall
  refine ⟨⟨c, cs, hs, isWordStart_of_isIdentifierStart hstart, fun c' hc' =>
    isWordChar_of_isIdentifierChar (hrest c' hc')⟩, fun k hk => ?_⟩
  refine (hwords _ (mem_keywordTable hk)).resolve_right fun hmem => hkeyword ?_
  rwa [String.ofList_toList] at hmem

/-! ## Words made of words -/

theorem isWordChar_of_isWordStart {c : Char} (h : Text.isWordStart c = true) :
    Text.isWordChar c = true := by
  unfold Text.isWordStart at h
  unfold Text.isWordChar
  split at h
  · next hascii =>
    rw [if_pos hascii]
    exact isIdentifierChar_of_isIdentifierStart h
  · next hascii =>
    rw [if_neg hascii, h, Bool.true_or]

theorem IsWord.isWordChar (h : IsWord w) : ∀ c ∈ w, Text.isWordChar c = true := by
  obtain ⟨c, cs, rfl, hstart, hall⟩ := h
  exact List.forall_mem_cons.mpr ⟨isWordChar_of_isWordStart hstart, hall⟩

theorem IsWord.append {cs : List Char} (h : IsWord w) (hcs : ∀ c ∈ cs, Text.isWordChar c = true) :
    IsWord (w ++ cs) := by
  obtain ⟨c, cs', rfl, hstart, hall⟩ := h
  exact ⟨c, cs' ++ cs, rfl, hstart, List.forall_mem_append.mpr ⟨hall, hcs⟩⟩

theorem not_isLower_of_isDigit {c : Char} (h : c.isDigit = true) : c.isLower = false := by
  have hdigit : (decide ('0'.val ≤ c.val) && decide (c.val ≤ '9'.val)) = true := h
  have hle : c.val ≤ '9'.val := of_decide_eq_true (Bool.and_eq_true_iff.mp hdigit).2
  have hlower : decide ('a'.val ≤ c.val) = false :=
    decide_eq_false fun hge => absurd (UInt32.le_trans hge hle) (by decide)
  have hall : (decide ('a'.val ≤ c.val) && decide (c.val ≤ 'z'.val)) = false := by
    rw [hlower, Bool.false_and]
  exact hall

/-- A word with a number after it. -/
theorem IsWord.isLiteralName_number (h : IsWord w) (n : Nat) :
    IsLiteralName (w ++ (toString n).toList) := by
  obtain ⟨d, ds, hdigits, hall, -⟩ := Text.toString_eq_cons n
  rw [hdigits]
  refine .of_not_lower (h.append fun c hc => isWordChar_of_isIdentifierChar ?_)
    (.inr ⟨d, by simp, not_isLower_of_isDigit (hall d List.mem_cons_self)⟩)
  have hchar : (c.isAlpha || c.isDigit) || c == '_' := by simp [hall c hc]
  exact hchar

theorem IsName.freshAfter {s : String} (h : IsName s.toList) (taken : List String) :
    IsName (freshAfter taken s).toList := by
  obtain ⟨n, hn⟩ := freshAfter_eq_append taken s
  rw [hn]
  cases n with
  | zero => simpa [underscores] using h
  | succ n =>
    have htext : (s ++ underscores (n + 1)).toList = s.toList ++ '_' :: List.replicate n '_' := by
      simp [underscores, List.replicate_succ]
    rw [htext]
    refine (IsLiteralName.of_not_lower (h.isWord.append ?_) (.inr ⟨'_', by simp, rfl⟩)).isName
    exact List.forall_mem_cons.mpr ⟨rfl, fun c hc => List.eq_of_mem_replicate hc ▸ rfl⟩

end Interposer.Source
