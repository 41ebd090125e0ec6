/-! The lengths of numbers, escapes and rune literals at the beginning of a text, zero where there
is none. Digits may be separated by single underscores. -/

namespace Interposer.Source

def isHexDigit (c : Char) : Bool := c.isDigit || ('a' ≤ c && c ≤ 'f') || ('A' ≤ c && c ≤ 'F')

def isOctalDigit (c : Char) : Bool := '0' ≤ c && c ≤ '7'

def isBinaryDigit (c : Char) : Bool := c == '0' || c == '1'

namespace Number

/-- Digits that satisfy `p`, after another digit. -/
def moreDigits (p : Char → Bool) : List Char → Nat
  | [] => 0
  | [c] => if p c then 1 else 0
  | c :: d :: cs =>
    if p c then 1 + moreDigits p (d :: cs)
    else if c = '_' ∧ p d then 2 + moreDigits p cs
    else 0

def digits (p : Char → Bool) : List Char → Nat
  | [] => 0
  | c :: cs => if p c then 1 + moreDigits p cs else 0

/-- Digits with an underscore before them or not, as they follow a prefix. -/
def prefixedDigits (p : Char → Bool) : List Char → Nat
  | '_' :: cs =>
    match digits p cs with
    | 0 => 0
    | n => n + 1
  | cs => digits p cs

/-- The length of a literal that has `mark` characters before its digits, and of the zero in front
of it if there are no digits. -/
def withPrefix (mark : Nat) (p : Char → Bool) (cs : List Char) : Nat :=
  match prefixedDigits p (cs.drop mark) with
  | 0 => 1
  | n => mark + n

def integer : List Char → Nat
  | '0' :: c :: cs =>
    if c = 'x' ∨ c = 'X' then withPrefix 2 isHexDigit ('0' :: c :: cs)
    else if c = 'b' ∨ c = 'B' then withPrefix 2 isBinaryDigit ('0' :: c :: cs)
    else if c = 'o' ∨ c = 'O' then withPrefix 2 isOctalDigit ('0' :: c :: cs)
    else withPrefix 1 isOctalDigit ('0' :: c :: cs)
  | c :: cs => if c = '0' then 1 else if c.isDigit then 1 + prefixedDigits Char.isDigit cs else 0
  | [] => 0

/-- An exponent after the letter `lower` or `upper`. -/
def exponent (lower upper : Char) : List Char → Nat
  | e :: s :: cs =>
    if e = lower ∨ e = upper then
      if s = '+' ∨ s = '-' then
        match digits Char.isDigit cs with
        | 0 => 0
        | n => n + 2
      else
        match digits Char.isDigit (s :: cs) with
        | 0 => 0
        | n => n + 1
    else 0
  | _ => 0

def decimalFloat (cs : List Char) : Nat :=
  let whole := digits Char.isDigit cs
  match cs.drop whole with
  | '.' :: rest =>
    let fraction := digits Char.isDigit rest
    if whole = 0 ∧ fraction = 0 then 0
    else whole + 1 + fraction + exponent 'e' 'E' (rest.drop fraction)
  | rest =>
    match whole, exponent 'e' 'E' rest with
    | 0, _ | _, 0 => 0
    | n, e => n + e

def hexFloat : List Char → Nat
  | '0' :: x :: cs =>
    if x = 'x' ∨ x = 'X' then
      let whole := prefixedDigits isHexDigit cs
      let (point, fraction) :=
        match cs.drop whole with
        | '.' :: rest => (1, digits isHexDigit rest)
        | _ => (0, 0)
      if whole = 0 ∧ fraction = 0 then 0
      else
        match exponent 'p' 'P' (cs.drop (whole + point + fraction)) with
        | 0 => 0
        | e => 2 + whole + point + fraction + e
    else 0
  | _ => 0

def float (cs : List Char) : Nat := max (decimalFloat cs) (hexFloat cs)

/-- A number of any kind, or digits of any value, with an `i` after it. -/
def imaginary (cs : List Char) : Nat :=
  [digits Char.isDigit cs, integer cs, decimalFloat cs, hexFloat cs].foldl (fun n k =>
    if k > 0 ∧ (cs.drop k).head? = some 'i' then max n (k + 1) else n) 0

end Number

/-! ## Escapes -/

def hexDigits (cs : List Char) : Nat := (cs.takeWhile isHexDigit).length

/-- The digits that a hexadecimal escape takes after its letter. -/
def escapeDigits? : Char → Option Nat
  | 'x' => some 2
  | 'u' => some 4
  | 'U' => some 8
  | _ => none

namespace Escape

/-- The length of an escape in a string. After a backslash any character counts as one, but for
letters that digits must follow. -/
def length : List Char → Nat
  | '\\' :: c :: cs =>
    match escapeDigits? c with
    | some n =>
      let k := hexDigits cs
      if k < n then 0 else if c = 'x' then k + 2 else n + 2
    | none =>
      if c = '\x00' then 0
      else if c.isDigit then (((c :: cs).take 3).takeWhile Char.isDigit).length + 1
      else 2
  | _ => 0

/-- How far a text goes on like an escape that it does not complete. -/
def reach : List Char → Nat
  | '\\' :: c :: cs =>
    match escapeDigits? c with
    | some n => min n (hexDigits cs) + 2
    | none => 1
  | '\\' :: [] => 1
  | _ => 0

end Escape

namespace Rune

/-- The length of an escape in a rune literal, after its backslash, and whether it is complete. -/
def escape : List Char → Nat × Bool
  | c :: cs =>
    match escapeDigits? c with
    | some n => (min n (hexDigits cs) + 1, n ≤ hexDigits cs)
    | none =>
      if isOctalDigit c then
        let n := (((c :: cs).take 3).takeWhile isOctalDigit).length
        (n, n = 3)
      else if ['a', 'b', 'f', 'n', 'r', 't', 'v', '\\', '\'', '"'].contains c then (1, true)
      else (0, false)
  | [] => (0, false)

/-- How far a text goes on like a rune literal up to its end, and whether it gets there. -/
def beforeQuote : List Char → Nat × Bool
  | '\'' :: '\\' :: cs =>
    let (n, complete) := escape cs
    (n + 2, complete)
  | '\'' :: c :: _ => if c = '\'' ∨ c = '\x00' then (1, false) else (2, true)
  | '\'' :: [] => (1, false)
  | _ => (0, false)

def length (cs : List Char) : Nat :=
  match beforeQuote cs with
  | (n, true) => if (cs.drop n).head? = some '\'' then n + 1 else 0
  | _ => 0

/-- How far a text goes on like a rune literal that it does not complete. -/
def reach (cs : List Char) : Nat := (beforeQuote cs).1

end Rune

end Interposer.Source
