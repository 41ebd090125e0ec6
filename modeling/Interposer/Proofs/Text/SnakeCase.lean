import Interposer.Proofs.Text.Lines
import Interposer.Text.SnakeCase
import Mathlib.Data.List.Basic

/-! Snake case undoes camel case. In an identifier in camel case, snake case puts an underscore in
front of each word but the first and nowhere else, so it gives the words in small letters with
underscores between them (`snakeCase_camelCase`). -/

namespace Interposer.Text

/-! ## Small letters, digits and capitals -/

/-- What a word in small letters is made of. -/
def IsSmall (c : Char) : Prop := c.isLower = true ∨ c.isDigit = true

instance (c : Char) : Decidable (IsSmall c) := inferInstanceAs (Decidable (_ ∨ _))

theorem IsSmall.toNat_lt {c : Char} (h : IsSmall c) : c.toNat < 0x80 := by
  have hranges : (decide ('a'.val ≤ c.val) && decide (c.val ≤ 'z'.val)) = true ∨
      (decide ('0'.val ≤ c.val) && decide (c.val ≤ '9'.val)) = true := h
  simp only [Bool.and_eq_true, decide_eq_true_eq] at hranges
  rcases hranges with ⟨-, hle⟩ | ⟨-, hle⟩
  · exact Nat.lt_of_le_of_lt hle (by decide)
  · exact Nat.lt_of_le_of_lt hle (by decide)

/-- There are few enough characters in ASCII to look at each. -/
theorem forall_of_ascii {p q : Char → Prop} (hascii : ∀ c, p c → IsSmall c)
    (h : ∀ n < 0x80, p (Char.ofNat n) → q (Char.ofNat n)) (c : Char) (hc : p c) : q c := by
  have hn := h c.toNat (hascii c hc).toNat_lt
  rw [Char.ofNat_toNat] at hn
  exact hn hc

theorem not_isUpper_of_isSmall : ∀ c, IsSmall c → isUpper c = false :=
  forall_of_ascii (fun _ => id) (by decide)

theorem not_isLower_digit : ∀ c : Char, c.isDigit = true → isLower c = false :=
  forall_of_ascii (fun _ => .inr) (by decide)

theorem isLower_small : ∀ c : Char, c.isLower = true → isLower c = true :=
  forall_of_ascii (fun _ => .inl) (by decide)

theorem isUpper_toUpper : ∀ c : Char, c.isLower = true → isUpper c.toUpper = true :=
  forall_of_ascii (fun _ => .inl) (by decide)

theorem not_isLower_toUpper : ∀ c : Char, c.isLower = true → isLower c.toUpper = false :=
  forall_of_ascii (fun _ => .inl) (by decide)

theorem toLower_toUpper : ∀ c : Char, c.isLower = true → toLower c.toUpper = [c] :=
  forall_of_ascii (fun _ => .inl) (by decide)

/-- After a small letter or a digit, every capital starts a word. -/
theorem startsWord_of_isSmall {c : Char} (h : IsSmall c) (after : Option Char) :
    startsWord (some c) after = true := by
  have hclass : ∀ c, IsSmall c → c ≠ '_' ∧ (isLower c || c.isDigit) = true :=
    forall_of_ascii (fun _ => id) (by decide)
  obtain ⟨hunderscore, hsmall⟩ := hclass c h
  rw [startsWord, if_neg hunderscore, if_pos hsmall]

/-- After a capital, the next one starts a word if a small letter follows it. -/
theorem startsWord_toUpper {c : Char} (h : c.isLower = true) (after : Option Char) :
    startsWord (some c.toUpper) after = after.any isLower := by
  have hclass : ∀ c : Char, c.isLower = true →
      c.toUpper ≠ '_' ∧ (isLower c.toUpper || c.toUpper.isDigit) = false :=
    forall_of_ascii (fun _ => .inl) (by decide)
  obtain ⟨hunderscore, hsmall⟩ := hclass c h
  rw [startsWord, if_neg hunderscore, hsmall, if_neg Bool.false_ne_true,
    if_pos (isUpper_toUpper c h)]

/-! ## Spans of one case -/

section

variable {before : Option Char} {c : Char} {w rest : List Char}

theorem snakeChars_toUpper_cons (h : c.isLower = true) :
    snakeChars before (c.toUpper :: rest) =
      (if startsWord before rest.head? then ['_'] else []) ++
        c :: snakeChars (some c.toUpper) rest := by
  rw [snakeChars, if_pos (isUpper_toUpper c h), toLower_toUpper c h, List.singleton_append]

/-- Small letters and digits stay as they are. -/
theorem snakeChars_append_of_isSmall (h : ∀ c ∈ w, IsSmall c) :
    snakeChars before (w ++ rest) = w ++ snakeChars (w.getLast?.or before) rest := by
  induction w generalizing before with
  | nil => rfl
  | cons c w ih =>
    obtain ⟨hc, hw⟩ := List.forall_mem_cons.mp h
    have hupper : ¬ isUpper c = true := by simp [not_isUpper_of_isSmall c hc]
    rw [List.cons_append, snakeChars, if_neg hupper, ih hw, List.getLast?_cons, List.cons_append,
      Option.or_some, Option.some_or]

/-- After a capital, no word starts within capitals, and at the last of them only if a small letter
is next. -/
theorem snakeChars_toUpper_append (hc : c.isLower = true) (hw : ∀ c ∈ w, c.isLower = true)
    (hrest : rest.head?.any isLower = false) :
    snakeChars (some c.toUpper) (w.map Char.toUpper ++ rest) =
      w ++ snakeChars ((c :: w).map Char.toUpper).getLast? rest := by
  induction w generalizing c with
  | nil => rfl
  | cons d w ih =>
    obtain ⟨hd, hw⟩ := List.forall_mem_cons.mp hw
    have hafter : (w.map Char.toUpper ++ rest).head?.any isLower = false := by
      cases w with
      | nil => exact hrest
      | cons e w => exact not_isLower_toUpper e (hw e List.mem_cons_self)
    have hlast : ((c :: d :: w).map Char.toUpper).getLast? =
        ((d :: w).map Char.toUpper).getLast? := List.getLast?_cons_cons
    rw [List.map_cons, List.cons_append, snakeChars_toUpper_cons hd, startsWord_toUpper hc, hafter,
      ih hd hw, hlast]
    rfl

end

/-! ## Words and their case -/

/-- A word: two small letters or more, and any digits after them. -/
structure Word where
  letters : List Char
  digits : List Char := []
  two_le_length : 2 ≤ letters.length := by decide
  all_isLower : letters.all Char.isLower = true := by decide
  all_isDigit : digits.all Char.isDigit = true := by decide

namespace Word

def chars (w : Word) : List Char := w.letters ++ w.digits

def text (w : Word) : String := String.ofList w.chars

theorem exists_letters (w : Word) : ∃ c d letters, w.letters = c :: d :: letters ∧
    ∀ e ∈ c :: d :: letters, e.isLower = true := by
  obtain ⟨letters, digits, hlength, hall, -⟩ := w
  match letters, hlength with
  | c :: d :: letters, _ => exact ⟨c, d, letters, rfl, List.all_eq_true.mp hall⟩

theorem isDigit_of_mem (w : Word) : ∀ c ∈ w.digits, c.isDigit = true :=
  List.all_eq_true.mp w.all_isDigit

theorem isSmall_of_mem_digits (w : Word) : ∀ c ∈ w.digits, IsSmall c :=
  fun c hc => .inr (w.isDigit_of_mem c hc)

end Word

/-- How the letters of a word are written. -/
inductive Casing where
  | small
  | capitalized
  | capitals
  deriving DecidableEq, Repr

namespace Casing

def apply (letters : List Char) : Casing → List Char
  | small => letters
  | capitalized => letters.modifyHead Char.toUpper
  | capitals => letters.map Char.toUpper

theorem apply_capitalized (c : Char) (letters : List Char) :
    capitalized.apply (c :: letters) = c.toUpper :: letters := rfl

theorem apply_capitals (c : Char) (letters : List Char) :
    capitals.apply (c :: letters) = c.toUpper :: letters.map Char.toUpper := rfl

/-- The letters of a word become small whatever their case, with an underscore in front if a word
starts at the first of them. -/
theorem snakeChars_apply_append {casing : Casing} {before : Option Char} {c d : Char}
    {letters rest : List Char} (hall : ∀ e ∈ c :: d :: letters, e.isLower = true)
    (hsmall : casing = small → before = none) (hrest : rest.head?.any isLower = false) :
    snakeChars before (casing.apply (c :: d :: letters) ++ rest) =
      (if startsWord before (casing.apply (c :: d :: letters))[1]? then ['_'] else []) ++
        (c :: d :: letters ++ snakeChars (casing.apply (c :: d :: letters)).getLast? rest) := by
  obtain ⟨hc, hletters⟩ := List.forall_mem_cons.mp hall
  cases casing with
  | small =>
    rw [hsmall rfl]
    exact snakeChars_append_of_isSmall fun e he => .inl (hall e he)
  | capitalized =>
    have hlast : (c.toUpper :: d :: letters).getLast? =
        (d :: letters).getLast?.or (some c.toUpper) := by simp [List.getLast?_cons]
    rw [apply_capitalized, List.cons_append, snakeChars_toUpper_cons hc,
      snakeChars_append_of_isSmall fun e he => .inl (hletters e he), hlast]
    rfl
  | capitals =>
    rw [apply_capitals, List.cons_append, snakeChars_toUpper_cons hc,
      snakeChars_toUpper_append hc hletters hrest]
    rfl

end Casing

/-! ## Parts of identifiers -/

/-- A word as it is written in an identifier. -/
structure Part where
  word : Word
  casing : Casing

namespace Part

def chars (p : Part) : List Char := p.casing.apply p.word.letters ++ p.word.digits

def text (p : Part) : String := String.ofList p.chars

/-- A part may follow another unless it is in small letters or both are in capitals. -/
def Follows (q p : Part) : Prop :=
  q.casing ≠ .small ∧ ¬ (p.casing = .capitals ∧ q.casing = .capitals)

instance (q p : Part) : Decidable (q.Follows p) := inferInstanceAs (Decidable (_ ∧ _))

variable {p q : Part} {before : Option Char} {rest : List Char}

/-- A part becomes its word, with an underscore in front if a word starts at its first character. -/
theorem snakeChars_append (p : Part) (hsmall : p.casing = .small → before = none)
    (hrest : rest.head?.any isLower = false) :
    snakeChars before (p.chars ++ rest) =
      (if startsWord before p.chars[1]? then ['_'] else []) ++
        (p.word.chars ++ snakeChars p.chars.getLast? rest) := by
  obtain ⟨c, d, letters, hletters, hall⟩ := p.word.exists_letters
  -- a digit is no small letter, so the capitals before it are one run still
  have hdigits : (p.word.digits ++ rest).head?.any isLower = false := by
    cases h : p.word.digits with
    | nil => exact hrest
    | cons e digits => exact not_isLower_digit e (p.word.isDigit_of_mem e (by simp [h]))
  have hsecond : p.chars[1]? = (p.casing.apply (c :: d :: letters))[1]? := by
    rw [chars, hletters]
    cases p.casing <;> rfl
  have hlast : p.chars.getLast? =
      p.word.digits.getLast?.or (p.casing.apply (c :: d :: letters)).getLast? := by
    rw [chars, hletters, List.getLast?_append]
  rw [hsecond, hlast, chars, hletters, List.append_assoc,
    Casing.snakeChars_apply_append hall hsmall hdigits,
    snakeChars_append_of_isSmall p.word.isSmall_of_mem_digits, Word.chars, hletters,
    List.append_assoc]

/-- Only a part in capitals can end in one. -/
theorem exists_getLast? (p : Part) : ∃ e, p.chars.getLast? = some e ∧
    (IsSmall e ∨ p.casing = .capitals ∧ ∃ c : Char, c.isLower = true ∧ e = c.toUpper) := by
  obtain ⟨c, d, letters, hletters, hall⟩ := p.word.exists_letters
  obtain ⟨-, hall⟩ := List.forall_mem_cons.mp hall
  rw [chars, List.getLast?_append]
  cases hdigits : p.word.digits.getLast? with
  | some e => exact ⟨e, rfl, .inl (p.word.isSmall_of_mem_digits e (List.mem_of_getLast? hdigits))⟩
  | none =>
    obtain ⟨e, he⟩ : ∃ e, (d :: letters).getLast? = some e := ⟨_, List.getLast?_cons⟩
    have hlower := hall e (List.mem_of_getLast? he)
    rw [hletters, Option.none_or]
    cases p.casing with
    | small | capitalized => exact ⟨e, List.getLast?_cons_cons.trans he, .inl (.inl hlower)⟩
    | capitals =>
      refine ⟨e.toUpper, ?_, .inr ⟨rfl, e, hlower, rfl⟩⟩
      rw [Casing.apply_capitals, List.map_cons, List.getLast?_cons_cons, ← List.map_cons,
        List.getLast?_map, he]
      rfl

theorem isLower_getElem?_one (h : p.casing ≠ .capitals) : p.chars[1]?.any isLower = true := by
  obtain ⟨c, d, letters, hletters, hall⟩ := p.word.exists_letters
  have hd : isLower d = true := isLower_small d (hall d (by simp))
  rw [chars, hletters]
  cases hcasing : p.casing with
  | small | capitalized => exact hd
  | capitals => exact absurd hcasing h

theorem not_isLower_head? (h : p.casing ≠ .small) (rest : List Char) :
    (p.chars ++ rest).head?.any isLower = false := by
  obtain ⟨c, d, letters, hletters, hall⟩ := p.word.exists_letters
  have hc : isLower c.toUpper = false := not_isLower_toUpper c (hall c (by simp))
  rw [chars, hletters]
  cases hcasing : p.casing with
  | small => exact absurd hcasing h
  | capitalized | capitals => exact hc

/-- A word starts where a part follows another. -/
theorem Follows.startsWord (h : q.Follows p) :
    startsWord p.chars.getLast? q.chars[1]? = true := by
  obtain ⟨e, hlast, hsmall | ⟨hcapitals, c, hc, rfl⟩⟩ := p.exists_getLast?
  · rw [hlast, startsWord_of_isSmall hsmall]
  -- behind capitals no part is in capitals, so its second letter is small
  · rw [hlast, startsWord_toUpper hc]
    exact isLower_getElem?_one fun hq => h.2 ⟨hcapitals, hq⟩

end Part

/-! ## Camel case -/

/-- In camel case only the first word may be in small letters, and no two words in capitals stand
side by side. -/
def IsCamelCase (parts : List Part) : Prop := parts.IsChain fun p q => q.Follows p

instance (parts : List Part) : Decidable (IsCamelCase parts) :=
  inferInstanceAs (Decidable (parts.IsChain _))

/-- The identifier that is made of some parts. -/
def camelCase (parts : List Part) : String := String.join (parts.map Part.text)

namespace IsCamelCase

variable {p : Part} {parts : List Part}

theorem not_isLower_head? (h : IsCamelCase (p :: parts)) :
    (parts.flatMap Part.chars).head?.any isLower = false := by
  cases parts with
  | nil => rfl
  | cons q parts => exact Part.not_isLower_head? (List.isChain_cons_cons.mp h).1.1 _

/-- Each of the parts after one becomes its word behind an underscore. -/
theorem snakeChars_flatMap (h : IsCamelCase (p :: parts)) :
    snakeChars p.chars.getLast? (parts.flatMap Part.chars) =
      parts.flatMap fun q => '_' :: q.word.chars := by
  -- what the induction carries along is the last character of the part before
  induction parts generalizing p with
  | nil => rfl
  | cons q parts ih =>
    obtain ⟨hfollows, htail⟩ := List.isChain_cons_cons.mp h
    rw [List.flatMap_cons, q.snakeChars_append (absurd · hfollows.1) (not_isLower_head? htail),
      if_pos hfollows.startsWord, ih htail]
    rfl

end IsCamelCase

/-- **Snake case undoes camel case.** Of an identifier in camel case it gives the words in small
letters, with underscores between them. -/
theorem snakeCase_camelCase {parts : List Part} (h : IsCamelCase parts) :
    snakeCase (camelCase parts) = "_".intercalate (parts.map fun p => p.word.text) := by
  cases parts with
  | nil => rfl
  | cons p parts =>
    have hlist : (camelCase (p :: parts)).toList = p.chars ++ parts.flatMap Part.chars := by
      simp [camelCase, Part.text, List.flatMap_map]
    have hsnake : snakeChars none (p.chars ++ parts.flatMap Part.chars) =
        p.word.chars ++ parts.flatMap fun q => '_' :: q.word.chars := by
      rw [p.snakeChars_append (fun _ => rfl) h.not_isLower_head?, h.snakeChars_flatMap]
      rfl
    have hwords : ("_".intercalate ((p :: parts).map fun p => p.word.text)).toList =
        p.word.chars ++ parts.flatMap fun q => '_' :: q.word.chars := by
      rw [String.toList_intercalate, List.map_map, List.map_cons, intercalate_cons,
        List.flatMap_map]
      simp [Word.text]
    rw [snakeCase, hlist, hsnake, ← hwords, String.ofList_toList]

/-- An acronym between a small word and a capitalized one, and another behind a digit. -/
def serverParts : List Part :=
  [⟨{ letters := ['u', 's', 'e', 'r'] }, .small⟩,
    ⟨{ letters := ['h', 't', 't', 'p'] }, .capitals⟩,
    ⟨{ letters := ['s', 'e', 'r', 'v', 'e', 'r'] }, .capitalized⟩,
    ⟨{ letters := ['p', 'a', 'g', 'e'], digits := ['2'] }, .capitalized⟩,
    ⟨{ letters := ['i', 'd'] }, .capitals⟩]

theorem snakeCase_serverParts :
    IsCamelCase serverParts ∧ camelCase serverParts = "userHTTPServerPage2ID" ∧
      snakeCase "userHTTPServerPage2ID" = "user_http_server_page2_id" := by
  have hcase : IsCamelCase serverParts := by decide
  have htext : camelCase serverParts = "userHTTPServerPage2ID" := by decide
  have hwords : "_".intercalate (serverParts.map fun p => p.word.text) =
      "user_http_server_page2_id" := by decide
  have hsnake := snakeCase_camelCase hcase
  rw [htext, hwords] at hsnake
  exact ⟨hcase, htext, hsnake⟩

/-- Two words in capitals side by side are taken for one. -/
example : snakeCase "HTTPID" = "httpid" := by decide

end Interposer.Text
