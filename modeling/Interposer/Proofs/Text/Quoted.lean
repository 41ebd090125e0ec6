import Interposer.Text.Quoted
import Interposer.Text.Hex
import Mathlib.Data.List.Basic

/-! Reading of interpreted string literals by the rules of Go. A literal denotes bytes: a character
stands for its encoding in UTF-8, and an escape for a character or for a single byte. What is quoted
reads back as the text itself (`literal?_quote`). -/

namespace Interposer.Text

/-! ## Escapes -/

/-- The character for which a sign stands after a backslash. -/
def shortEscape? : Char → Option Char
  | 'a' => some '\x07'
  | 'b' => some '\x08'
  | 'f' => some '\x0c'
  | 'n' => some '\n'
  | 'r' => some '\r'
  | 't' => some '\t'
  | 'v' => some '\x0b'
  | '\\' => some '\\'
  | '"' => some '"'
  | _ => none

def octalValue? (c : Char) : Option Nat :=
  if '0' ≤ c ∧ c ≤ '7' then some (c.toNat - 0x30) else none

def octalNumber? (ds : List Char) : Option Nat :=
  ds.foldlM (fun n d => (octalValue? d).map (n * 8 + ·)) 0

/-- The bytes of a character in UTF-8. -/
def encoding (c : Char) : ByteArray := (String.singleton c).toByteArray

/-- The encoding of the character with a number, if there is one. -/
def encoded? (n : Nat) : Option ByteArray :=
  if n.isValidChar then some (encoding (Char.ofNat n)) else none

def byte? (n : Nat) : Option ByteArray :=
  if n < 0x100 then some (.mk #[n.toUInt8]) else none

/-- Bytes in front of what was read further on. -/
def precede (first : ByteArray) (read : ByteArray × List Char) : ByteArray × List Char :=
  (first ++ read.1, read.2)

/-- The bytes of a literal up to its closing quote, and what follows the quote. -/
def readContent : List Char → Option (ByteArray × List Char)
  | [] => none
  | '"' :: cs => some (.empty, cs)
  | '\n' :: _ => none
  | '\\' :: 'x' :: a :: b :: cs => do
    let first ← (hexNumber? [a, b]).bind byte?
    (readContent cs).map (precede first)
  | '\\' :: 'u' :: a :: b :: c :: d :: cs => do
    let first ← (hexNumber? [a, b, c, d]).bind encoded?
    (readContent cs).map (precede first)
  | '\\' :: 'U' :: a :: b :: c :: d :: e :: f :: g :: h :: cs => do
    let first ← (hexNumber? [a, b, c, d, e, f, g, h]).bind encoded?
    (readContent cs).map (precede first)
  | '\\' :: e :: cs =>
    match shortEscape? e, cs with
    | some c, cs => (readContent cs).map (precede (encoding c))
    | none, b :: c :: cs => do
      let first ← (octalNumber? [e, b, c]).bind byte?
      (readContent cs).map (precede first)
    | none, _ => none
  | c :: cs => if c = '\\' then none else (readContent cs).map (precede (encoding c))

/-- The bytes that a text denotes as a literal, if it is one. -/
def literal? (text : String) : Option ByteArray :=
  match text.toList with
  | '"' :: cs =>
    match readContent cs with
    | some (bytes, []) => some bytes
    | _ => none
  | _ => none

theorem hexValue?_hexDigit {n : Nat} (h : n < 16) : hexValue? (hexDigit n) = some n := by
  have hall : ∀ n < 16, hexValue? (hexDigit n) = some n := by decide
  exact hall n h

theorem hexNumber?_digits {n : Nat} (h : n < 0x10000) :
    hexNumber? [hexDigit (n / 0x1000 % 16), hexDigit (n / 0x100 % 16), hexDigit (n / 0x10 % 16),
      hexDigit (n % 16)] = some n := by
  have hdigit : ∀ k, hexValue? (hexDigit (k % 16)) = some (k % 16) :=
    fun k => hexValue?_hexDigit (Nat.mod_lt k (by decide))
  simp [hexNumber?, hdigit]
  omega

theorem encoded?_toNat (c : Char) : encoded? c.toNat = some (encoding c) := by
  have hvalid : c.toNat.isValidChar := c.valid
  rw [encoded?, if_pos hvalid, Char.ofNat_toNat]

theorem encoding_append (c : Char) (cs : List Char) :
    encoding c ++ (String.ofList cs).toByteArray = (String.ofList (c :: cs)).toByteArray := by
  rw [encoding, ← String.toByteArray_append, String.ofList_cons]

/-! ## Quoted texts -/

theorem toNat_lt_of_isControl {c : Char} (h : isControl c = true) : c.toNat < 0xA0 := by
  simp only [isControl, Bool.or_eq_true, Bool.and_eq_true, decide_eq_true_eq] at h
  omega

/-- A character other than the quote, the backslash and the end of the line stands for itself. -/
theorem readContent_plain {c : Char} (hquote : c ≠ '"') (hbackslash : c ≠ '\\')
    (hnewline : c ≠ '\n') (cs : List Char) :
    readContent (c :: cs) = (readContent cs).map (precede (encoding c)) := by
  rw [readContent.eq_def]
  split <;> simp_all

/-- A character reads back, whatever follows it. -/
theorem readContent_escapeChar (c : Char) (cs : List Char) :
    readContent (escapeChar c ++ cs) = (readContent cs).map (precede (encoding c)) := by
  unfold escapeChar
  split_ifs with hquote hbackslash hnewline hreturn htab hcontrol
  · rw [hquote]; rfl
  · rw [hbackslash]; rfl
  · rw [hnewline]; rfl
  · rw [hreturn]; rfl
  · rw [htab]; rfl
  · have hsmall := toNat_lt_of_isControl hcontrol
    have hnumber := hexNumber?_digits (n := c.toNat) (by omega)
    simp [unicodeEscape, readContent, hnumber, encoded?_toNat]
  · exact readContent_plain hquote hbackslash hnewline cs

theorem readContent_quoted (s : List Char) (rest : List Char) :
    readContent (s.flatMap escapeChar ++ '"' :: rest) =
      some ((String.ofList s).toByteArray, rest) := by
  induction s with
  | nil => rfl
  | cons c s ih =>
    rw [List.flatMap_cons, List.append_assoc, readContent_escapeChar, ih, Option.map_some, precede,
      encoding_append]

/-- **Quoted texts** read back. -/
theorem literal?_quote (s : String) : literal? (quote s) = some s.toByteArray := by
  have hread := readContent_quoted s.toList []
  simp only [literal?, quote, String.toList_ofList, hread, String.ofList_toList]

/-- One letter in four ways, and a byte that is no character. -/
example : literal? "\"A\\x41\\101\\u0041\\xff\"" = some (.mk #[65, 65, 65, 65, 255]) := by
  decide +kernel

end Interposer.Text
