import Interposer.Source.Number
import Interposer.Proofs.Text.Span
import Mathlib.Data.Nat.Digits.Lemmas

/-! Integer literals, as the grammar of Go has them, and the numbers that they denote. They are what
the lexer takes for integers (`Number.integer_eq_length_iff`), and every number is denoted by its
numeral (`Numeral.spells_toString`). -/

namespace Interposer.Source

/-- A digit, in either case, and its value. -/
def IsDigit (radix : Nat) (c : Char) (d : Nat) : Prop :=
  d < radix ∧ (c = d.digitChar ∨ c = d.digitChar.toUpper)

/-- Digits, which single underscores may separate, and their values. -/
inductive Digits (radix : Nat) : List Char → List Nat → Prop
  | single : IsDigit radix c d → Digits radix [c] [d]
  | next : IsDigit radix c d → Digits radix text ds → Digits radix (c :: text) (d :: ds)
  | separated : IsDigit radix c d → Digits radix text ds →
    Digits radix (c :: '_' :: text) (d :: ds)

/-- The ways to write an integer. -/
inductive Numeral where
  | decimal
  | hexadecimal
  | octal
  /-- The octal digits stand after a zero, as in C. -/
  | zeroOctal
  | binary
  deriving DecidableEq

namespace Numeral

def radix : Numeral → Nat
  | decimal => 10
  | hexadecimal => 16
  | octal | zeroOctal => 8
  | binary => 2

/-- What stands in front of the digits, unless they are decimal. -/
def marks : Numeral → List (List Char)
  | decimal => []
  | hexadecimal => [['0', 'x'], ['0', 'X']]
  | octal => [['0', 'o'], ['0', 'O']]
  | zeroOctal => [['0']]
  | binary => [['0', 'b'], ['0', 'B']]

/-- The number that digits denote. -/
def value (numeral : Numeral) (ds : List Nat) : Nat := Nat.ofDigits numeral.radix ds.reverse

/-- Integer literals, with their digits. -/
inductive Spells : Numeral → List Char → List Nat → Prop
  | decimal : Digits 10 text ds → (text.head? = some '0' → text = ['0']) → Spells .decimal text ds
  | marked {numeral : Numeral} {mark : List Char} : mark ∈ numeral.marks →
    Digits numeral.radix text ds → Spells numeral (mark ++ text) ds
  | separated {numeral : Numeral} {mark : List Char} : mark ∈ numeral.marks →
    Digits numeral.radix text ds → Spells numeral (mark ++ '_' :: text) ds

end Numeral

variable {radix : Nat} {c : Char} {d : Nat} {text : List Char} {ds : List Nat}

/-! ## Digits -/

theorem isDigit_digitChar (h : d < radix) : IsDigit radix d.digitChar d := ⟨h, .inl rfl⟩

theorem IsDigit.mono {radix' : Nat} (hle : radix ≤ radix') (h : IsDigit radix c d) :
    IsDigit radix' c d := ⟨Nat.lt_of_lt_of_le h.1 hle, h.2⟩

/-- The characters that a predicate holds of are the digits. -/
def Recognizes (p : Char → Bool) (radix : Nat) : Prop :=
  ∀ c, p c = true ↔ ∃ d, IsDigit radix c d

/-- It is enough to look at the characters up to one that is no less than any of them. -/
theorem recognizes_of_le {p : Char → Bool} (last : Char) (hle : ∀ c, p c = true → c ≤ last)
    (hdigit : ∀ n ≤ last.toNat, p (Char.ofNat n) = true → ∃ d < radix,
      Char.ofNat n = d.digitChar ∨ Char.ofNat n = d.digitChar.toUpper)
    (hall : ∀ d < radix, p d.digitChar = true ∧ p d.digitChar.toUpper = true) :
    Recognizes p radix := by
  intro c
  constructor
  · intro hp
    have h := hdigit c.toNat (UInt32.le_iff_toNat_le.mp (hle c hp))
    rw [Char.ofNat_toNat] at h
    exact h hp
  · rintro ⟨d, hd, rfl | rfl⟩
    · exact (hall d hd).1
    · exact (hall d hd).2

theorem recognizes_isBinaryDigit : Recognizes isBinaryDigit 2 := by
  refine recognizes_of_le '1' ?_ (by decide +kernel) (by decide)
  intro c hc
  rcases (by simpa [isBinaryDigit] using hc : c = '0' ∨ c = '1') with rfl | rfl <;> decide

theorem recognizes_isOctalDigit : Recognizes isOctalDigit 8 := by
  refine recognizes_of_le '7' ?_ (by decide +kernel) (by decide +kernel)
  intro c hc
  exact of_decide_eq_true (Bool.and_eq_true_iff.mp hc).2

theorem recognizes_isDigit : Recognizes Char.isDigit 10 := by
  refine recognizes_of_le '9' ?_ (by decide +kernel) (by decide +kernel)
  intro c hc
  exact of_decide_eq_true (Bool.and_eq_true_iff.mp hc).2

theorem recognizes_isHexDigit : Recognizes isHexDigit 16 := by
  refine recognizes_of_le 'f' ?_ (by decide +kernel) (by decide +kernel)
  intro c hc
  simp only [isHexDigit, Bool.or_eq_true, Bool.and_eq_true, decide_eq_true_eq] at hc
  obtain (h | ⟨-, h⟩) | ⟨-, h⟩ := hc
  · have hle : c ≤ '9' := of_decide_eq_true (Bool.and_eq_true_iff.mp h).2
    exact Char.le_trans hle (by decide)
  · exact h
  · exact Char.le_trans h (by decide)

theorem IsDigit.ne {p : Char → Bool} {c' : Char} (hp : Recognizes p radix) (h : IsDigit radix c d)
    (hc' : p c' = false) : c ≠ c' := by
  rintro rfl
  exact absurd ((hp c).mpr ⟨d, h⟩) (by simp [hc'])

/-! ## The lexer -/

/-- Digits, or an underscore and digits. -/
def Prefixed (radix : Nat) (text : List Char) : Prop :=
  (∃ ds, Digits radix text ds) ∨ ∃ text' ds, text = '_' :: text' ∧ Digits radix text' ds

theorem prefixed_cons_iff : Prefixed radix (c :: text) ↔
    (∃ ds, Digits radix (c :: text) ds) ∨ c = '_' ∧ ∃ ds, Digits radix text ds := by
  simp [Prefixed, and_assoc]

theorem not_digits_nil : ¬ ∃ ds, Digits radix [] ds := nofun

section Lexer

variable {p : Char → Bool}

theorem digits_cons_iff (hp : Recognizes p radix) : (∃ ds, Digits radix (c :: text) ds) ↔
    p c = true ∧ (text = [] ∨ Prefixed radix text) := by
  rw [hp]
  constructor
  · rintro ⟨ds, h⟩
    cases h with
    | single hc => exact ⟨⟨_, hc⟩, .inl rfl⟩
    | next hc h => exact ⟨⟨_, hc⟩, .inr (.inl ⟨_, h⟩)⟩
    | separated hc h => exact ⟨⟨_, hc⟩, .inr (.inr ⟨_, _, rfl, h⟩)⟩
  · rintro ⟨⟨d, hc⟩, rfl | ⟨ds, h⟩ | ⟨text', ds, rfl, h⟩⟩
    · exact ⟨_, .single hc⟩
    · exact ⟨_, .next hc h⟩
    · exact ⟨_, .separated hc h⟩

namespace Number

theorem moreDigits_eq_length_iff (hp : Recognizes p radix) (hblank : p '_' = false) :
    moreDigits p text = text.length ↔ text = [] ∨ Prefixed radix text := by
  fun_induction moreDigits p text with
  | case1 => simp
  | case2 c hc => simp [prefixed_cons_iff, digits_cons_iff hp, hc]
  | case3 c hc => simp [prefixed_cons_iff, digits_cons_iff hp, hc, not_digits_nil]
  | case4 c d cs hc ih =>
    have hne : c ≠ '_' := by
      rintro rfl
      exact absurd hc (by simp [hblank])
    rw [prefixed_cons_iff, digits_cons_iff hp, ← ih]
    simp [hc, hne]
    omega
  | case5 c d cs hc h ih =>
    rw [prefixed_cons_iff, digits_cons_iff hp, digits_cons_iff hp, ← ih]
    simp [h, hblank]
    omega
  | case6 c d cs hc h =>
    rw [prefixed_cons_iff, digits_cons_iff hp, digits_cons_iff hp]
    rw [not_and, Bool.not_eq_true] at h
    simp +contextual [hc, h]

theorem digits_eq_length_iff (hp : Recognizes p radix) (hblank : p '_' = false) :
    digits p text = text.length ∧ text ≠ [] ↔ ∃ ds, Digits radix text ds := by
  cases text with
  | nil => simp [not_digits_nil]
  | cons c text =>
    rw [digits_cons_iff hp, ← moreDigits_eq_length_iff hp hblank, digits]
    split
    · next hc => simp [hc]; omega
    · next hc => simp [hc]

theorem prefixedDigits_eq_length_iff (hp : Recognizes p radix) (hblank : p '_' = false) :
    prefixedDigits p text = text.length ∧ text ≠ [] ↔ Prefixed radix text := by
  have hdigits : ∀ text, digits p text = text.length ∧ text ≠ [] ↔ ∃ ds, Digits radix text ds :=
    fun _ => digits_eq_length_iff hp hblank
  fun_cases prefixedDigits p text with
  | case1 cs hnone =>
    rw [prefixed_cons_iff, digits_cons_iff hp, ← hdigits, hnone]
    simp +contextual [hblank, eq_comm]
  | case2 cs hsome =>
    rw [prefixed_cons_iff, digits_cons_iff hp, ← hdigits]
    have hne : digits p cs = cs.length → cs ≠ [] := by
      rintro - rfl
      exact hsome rfl
    simpa [hblank] using hne
  | case3 _ hother =>
    rw [hdigits]
    refine (or_iff_left ?_).symm
    rintro ⟨text', _, rfl, -⟩
    exact hother text' rfl

theorem withPrefix_eq_length_iff (hp : Recognizes p radix) (hblank : p '_' = false) {mark : Nat}
    {c' : Char} : withPrefix mark p (c :: c' :: text) = (c :: c' :: text).length ↔
      Prefixed radix ((c :: c' :: text).drop mark) := by
  rw [← prefixedDigits_eq_length_iff hp hblank, withPrefix, List.length_drop, ne_eq,
    List.drop_eq_nil_iff, List.length_cons, List.length_cons]
  cases prefixedDigits p ((c :: c' :: text).drop mark) with
  | zero => simp only; omega
  | succ n => simp only; omega

end Number

end Lexer

namespace Numeral

/-- Literals other than decimal ones. -/
theorem spells_iff (numeral : Numeral) (hnumeral : numeral ≠ .decimal) :
    (∃ ds, Spells numeral text ds) ↔
      ∃ mark ∈ numeral.marks, ∃ rest, text = mark ++ rest ∧ Prefixed numeral.radix rest := by
  constructor
  · rintro ⟨ds, h⟩
    cases h with
    | decimal => exact absurd rfl hnumeral
    | marked hmark h => exact ⟨_, hmark, _, rfl, .inl ⟨_, h⟩⟩
    | separated hmark h => exact ⟨_, hmark, _, rfl, .inr ⟨_, _, rfl, h⟩⟩
  · rintro ⟨mark, hmark, rest, rfl, ⟨ds, h⟩ | ⟨rest', ds, rfl, h⟩⟩
    · exact ⟨ds, .marked hmark h⟩
    · exact ⟨ds, .separated hmark h⟩

theorem spells_decimal_iff : (∃ ds, Spells .decimal text ds) ↔
    (∃ ds, Digits 10 text ds) ∧ (text.head? = some '0' → text = ['0']) := by
  constructor
  · rintro ⟨ds, h⟩
    cases h with
    | decimal h hzero => exact ⟨⟨ds, h⟩, hzero⟩
    | marked hmark => cases hmark
    | separated hmark => cases hmark
  · rintro ⟨⟨ds, h⟩, hzero⟩
    exact ⟨ds, .decimal h hzero⟩

theorem exists_spells_iff : (∃ numeral ds, Spells numeral text ds) ↔
    (∃ ds, Spells .decimal text ds) ∨ (∃ ds, Spells .hexadecimal text ds) ∨
      (∃ ds, Spells .binary text ds) ∨ (∃ ds, Spells .octal text ds) ∨
        ∃ ds, Spells .zeroOctal text ds := by
  constructor
  · rintro ⟨numeral, h⟩
    cases numeral <;> simp only [h, true_or, or_true]
  · rintro (h | h | h | h | h) <;> exact ⟨_, h⟩

/-- The literals that begin with a zero. -/
theorem spells_zero_iff : (∃ numeral ds, Spells numeral ('0' :: c :: text) ds) ↔
    (c = 'x' ∨ c = 'X') ∧ Prefixed 16 text ∨ (c = 'b' ∨ c = 'B') ∧ Prefixed 2 text ∨
      (c = 'o' ∨ c = 'O') ∧ Prefixed 8 text ∨ Prefixed 8 (c :: text) := by
  have hdecimal : ¬ ∃ ds, Spells .decimal ('0' :: c :: text) ds := by
    rw [spells_decimal_iff]
    intro h
    cases h.2 rfl
  rw [exists_spells_iff, or_iff_right hdecimal, spells_iff .hexadecimal nofun,
    spells_iff .binary nofun, spells_iff .octal nofun, spells_iff .zeroOctal nofun]
  rw [or_and_right, or_and_right, or_and_right]
  simp [marks, Numeral.radix]

theorem spells_nonzero_iff (h : c ≠ '0') : (∃ numeral ds, Spells numeral (c :: text) ds) ↔
    ∃ ds, Digits 10 (c :: text) ds := by
  rw [exists_spells_iff, spells_decimal_iff, spells_iff .hexadecimal nofun,
    spells_iff .binary nofun, spells_iff .octal nofun, spells_iff .zeroOctal nofun]
  simp [marks, h]

end Numeral

/-- What the digits after a zero do not begin with. -/
theorem not_prefixed_of_letter (hc : c ∈ ['x', 'X', 'b', 'B', 'o', 'O']) :
    ¬ Prefixed 8 (c :: text) := by
  have hother : isOctalDigit c = false ∧ c ≠ '_' := by
    simp only [List.mem_cons, List.not_mem_nil, or_false] at hc
    rcases hc with rfl | rfl | rfl | rfl | rfl | rfl <;> decide
  rw [prefixed_cons_iff, digits_cons_iff recognizes_isOctalDigit]
  simp [hother]

/-- **Integer literals.** The lexer takes a whole text for an integer exactly if it is a literal. -/
theorem Number.integer_eq_length_iff (htext : text ≠ []) :
    Number.integer text = text.length ↔ ∃ numeral ds, Numeral.Spells numeral text ds := by
  fun_cases Number.integer text with
  | case1 c cs h =>
    rw [withPrefix_eq_length_iff recognizes_isHexDigit rfl, Numeral.spells_zero_iff]
    rcases h with rfl | rfl <;> simp [not_prefixed_of_letter]
  | case2 c cs _ h =>
    rw [withPrefix_eq_length_iff recognizes_isBinaryDigit rfl, Numeral.spells_zero_iff]
    rcases h with rfl | rfl <;> simp [not_prefixed_of_letter]
  | case3 c cs _ _ h =>
    rw [withPrefix_eq_length_iff recognizes_isOctalDigit rfl, Numeral.spells_zero_iff]
    rcases h with rfl | rfl <;> simp [not_prefixed_of_letter]
  | case4 c cs hx hb ho =>
    rw [withPrefix_eq_length_iff recognizes_isOctalDigit rfl, Numeral.spells_zero_iff]
    simp [hx, hb, ho]
  | case5 cs hother =>
    obtain rfl : cs = [] := by
      cases cs with
      | nil => rfl
      | cons c cs => exact (hother c cs rfl rfl).elim
    have hzero : Digits 10 ['0'] [0] := .single (isDigit_digitChar (by omega))
    exact iff_of_true rfl ⟨.decimal, [0], .decimal hzero fun _ => rfl⟩
  | case6 c cs _ hc hdigit =>
    rw [Numeral.spells_nonzero_iff hc, digits_cons_iff recognizes_isDigit,
      ← prefixedDigits_eq_length_iff recognizes_isDigit rfl]
    cases cs with
    | nil => simp [hdigit, prefixedDigits, digits]
    | cons d cs => simp [hdigit]; omega
  | case7 c cs hother hc hdigit =>
    rw [Numeral.spells_nonzero_iff hc, digits_cons_iff recognizes_isDigit]
    simp [hdigit]
  | case8 => exact absurd rfl htext

/-! ## Numbers as they are written -/

theorem Digits.snoc (h : Digits radix text ds) (hc : IsDigit radix c d) :
    Digits radix (text ++ [c]) (ds ++ [d]) := by
  induction h with
  | single hfirst => exact .next hfirst (.single hc)
  | next hfirst _ ih => exact .next hfirst ih
  | separated hfirst _ ih => exact .separated hfirst ih

theorem Numeral.value_snoc (numeral : Numeral) (ds : List Nat) (d : Nat) :
    numeral.value (ds ++ [d]) = d + numeral.radix * numeral.value ds := by
  rw [value, List.reverse_append, List.reverse_singleton, List.singleton_append, Nat.ofDigits_cons,
    value]

theorem digits_toDigits (n : Nat) :
    ∃ ds, Digits 10 (Nat.toDigits 10 n) ds ∧ Numeral.decimal.value ds = n := by
  induction n using Nat.strongRecOn with
  | ind n ih =>
    rcases Nat.lt_or_ge n 10 with hn | hn
    · rw [Nat.toDigits_of_lt_base hn]
      exact ⟨[n], .single (isDigit_digitChar hn), Nat.ofDigits_singleton⟩
    · obtain ⟨ds, hds, hvalue⟩ := ih (n / 10) (by omega)
      rw [Nat.toDigits_of_base_le (by omega) hn]
      refine ⟨ds ++ [n % 10], hds.snoc (isDigit_digitChar (by omega)), ?_⟩
      rw [Numeral.value_snoc, hvalue]
      exact Nat.mod_add_div n 10

/-- Each number is denoted by the text that it is written as. -/
theorem Numeral.spells_toString (n : Nat) :
    ∃ ds, Spells .decimal (toString n).toList ds ∧ decimal.value ds = n := by
  obtain ⟨ds, hds, hvalue⟩ := digits_toDigits n
  obtain ⟨d, rest, htext, -, hzero⟩ := Text.toString_eq_cons n
  have hsame : (toString n).toList = Nat.toDigits 10 n := by
    rw [Nat.toString_eq_ofList_toDigits, String.toList_ofList]
  refine ⟨ds, .decimal (hsame ▸ hds) fun hhead => ?_, hvalue⟩
  rw [htext] at hhead ⊢
  obtain rfl : d = '0' := Option.some.inj hhead
  rw [hzero rfl]

end Interposer.Source
