import Interposer.Text.LetterCase

/-! Snake case of an identifier. A run of capitals is one word, and a capital that a small letter
follows starts the next one: `userID` becomes `user_id`, `HTTPServer` becomes `http_server`.
Digits belong to the word before them. -/

namespace Interposer.Text

/-- Whether a word starts at a capital, given its neighbours. -/
def startsWord (before after : Option Char) : Bool :=
  match before with
  | none => false
  | some p =>
    if p = '_' then false
    else if isLower p || p.isDigit then true
    else if isUpper p then after.any isLower
    else false

def snakeChars (before : Option Char) : List Char → List Char
  | [] => []
  | c :: cs =>
    if isUpper c then
      (if startsWord before cs.head? then ['_'] else []) ++ (toLower c ++ snakeChars (some c) cs)
    else c :: snakeChars (some c) cs

def snakeCase (s : String) : String := String.ofList (snakeChars none s.toList)

end Interposer.Text
