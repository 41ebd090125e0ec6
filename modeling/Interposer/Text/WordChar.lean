import Interposer.Text.WordChar.Table

/-! The characters that Go's words are made of: an underscore or a character with the property
XID_Start first, and characters with XID_Continue after it. -/

namespace Interposer.Text

namespace WordChar

def inRanges (ranges : List (Nat × Nat)) (n : Nat) : Bool :=
  ranges.any fun (first, last) => first ≤ n && n ≤ last

end WordChar

def isWordStart (c : Char) : Bool :=
  if c.toNat < 0x80 then c.isAlpha || c == '_'
  else WordChar.inRanges WordChar.startRanges c.toNat

def isWordChar (c : Char) : Bool :=
  if c.toNat < 0x80 then c.isAlphanum || c == '_'
  else WordChar.inRanges WordChar.startRanges c.toNat
    || WordChar.inRanges WordChar.continueRanges c.toNat

end Interposer.Text
