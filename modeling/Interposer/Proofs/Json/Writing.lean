import Mathlib.Data.List.DropRight
import Interposer.Json.Parser
import Interposer.Proofs.Text.Span

/-! The texts of JSON values, as the grammar of JSON has them: white space around everything, and
any of the ways to write the characters of a string. The values are those without a null or a
fraction, and with natural numbers that fit into a machine word. The parser reads each of their
texts (`IsText.parse?_eq`). -/

namespace Interposer.Json

/-! ## Strings -/

def IsHexDigit (c : Char) (n : Nat) : Prop :=
  "0123456789abcdef".toList[n]? = some c ∨ "0123456789ABCDEF".toList[n]? = some c

/-- An escaped UTF-16 unit, by its four digits. -/
inductive WritesUnit : Nat → List Char → Prop
  | digits : IsHexDigit c₁ n₁ → IsHexDigit c₂ n₂ → IsHexDigit c₃ n₃ → IsHexDigit c₄ n₄ →
    WritesUnit (((n₁ * 16 + n₂) * 16 + n₃) * 16 + n₄) ['\\', 'u', c₁, c₂, c₃, c₄]

/-- What may follow a backslash, and the character that is meant. -/
def shortEscapes : List (Char × Char) :=
  [('"', '"'), ('\\', '\\'), ('/', '/'), ('b', '\x08'), ('f', '\x0c'), ('n', '\n'), ('r', '\r'),
    ('t', '\t')]

/-- The ways to write a character in a string. -/
inductive WritesChar : Char → List Char → Prop
  | itself : c ≠ '"' → c ≠ '\\' → 0x20 ≤ c.toNat → WritesChar c [c]
  | short : (e, c) ∈ shortEscapes → WritesChar c ['\\', e]
  | unit : WritesUnit c.toNat cs → WritesChar c cs
  /-- A character beyond the first 0x10000, as a pair of surrogates. -/
  | pair : high < 0x400 → low < 0x400 → c.toNat = 0x10000 + high * 0x400 + low →
    WritesUnit (0xD800 + high) cs → WritesUnit (0xDC00 + low) cs' → WritesChar c (cs ++ cs')

/-- The content of a string literal. -/
inductive WritesChars : List Char → List Char → Prop
  | nil : WritesChars [] []
  | cons : WritesChar c text → WritesChars cs texts → WritesChars (c :: cs) (text ++ texts)

/-- A string literal. -/
inductive WritesString (s : String) : List Char → Prop
  | quoted : WritesChars s.toList text → WritesString s ('"' :: (text ++ ['"']))

/-! ## Values -/

/-- White space. -/
def IsSpace (cs : List Char) : Prop := ∀ c ∈ cs, c ∈ [' ', '\n', '\t', '\r']

mutual

/-- The texts of a value, from its first character to its last. -/
inductive Writes : Json → List Char → Prop
  | yes : Writes (.bool true) "true".toList
  | no : Writes (.bool false) "false".toList
  | natural : n < wordBound → Writes (.natural n) (toString n).toList
  | string : WritesString s text → Writes (.string s) text
  | emptyArray : IsSpace space → Writes (.array []) ('[' :: (space ++ [']']))
  | array : WritesItems items text → Writes (.array items) ('[' :: (text ++ [']']))
  | emptyObject : IsSpace space → Writes (.object []) ('\x7b' :: (space ++ ['\x7d']))
  | object : WritesMembers members text → Writes (.object members) ('\x7b' :: (text ++ ['\x7d']))

/-- The texts of a value with white space around it. -/
inductive IsText : Json → List Char → Prop
  | padded : IsSpace before → Writes j text → IsSpace after → IsText j (before ++ (text ++ after))

inductive WritesItems : List Json → List Char → Prop
  | last : IsText j text → WritesItems [j] text
  | more : IsText j text → WritesItems items texts → WritesItems (j :: items) (text ++ ',' :: texts)

inductive WritesMember : String × Json → List Char → Prop
  | entry : IsSpace before → WritesString key name → IsSpace after → IsText j text →
    WritesMember (key, j) (before ++ (name ++ (after ++ ':' :: text)))

inductive WritesMembers : List (String × Json) → List Char → Prop
  | last : WritesMember m text → WritesMembers [m] text
  | more : WritesMember m text → WritesMembers members texts →
    WritesMembers (m :: members) (text ++ ',' :: texts)

end

/-! ## Reading strings -/

variable {cs cs' text rest : List Char}

theorem hexValue?_of_isHexDigit {c : Char} {n : Nat} (h : IsHexDigit c n) :
    Text.hexValue? c = some n := by
  have hlower : ∀ n (hn : n < "0123456789abcdef".toList.length),
      Text.hexValue? ("0123456789abcdef".toList[n]) = some n := by decide
  have hupper : ∀ n (hn : n < "0123456789ABCDEF".toList.length),
      Text.hexValue? ("0123456789ABCDEF".toList[n]) = some n := by decide
  rcases h with h | h <;> obtain ⟨hn, rfl⟩ := List.getElem?_eq_some_iff.mp h
  · exact hlower n hn
  · exact hupper n hn

theorem readPieces_unit {n : Nat} (h : WritesUnit n text) (rest : List Char) :
    readPieces (text ++ rest) =
      (readPieces rest).map fun (pieces, rest) => (.unit n :: pieces, rest) := by
  cases h with
  | digits h₁ h₂ h₃ h₄ =>
    simp only [List.cons_append, List.nil_append, readPieces, Text.hexNumber?, List.foldlM_cons,
      List.foldlM_nil, hexValue?_of_isHexDigit h₁, hexValue?_of_isHexDigit h₂,
      hexValue?_of_isHexDigit h₃, hexValue?_of_isHexDigit h₄]
    cases readPieces rest <;> simp

theorem readPieces_itself {c : Char} (hquote : c ≠ '"') (hbackslash : c ≠ '\\')
    (hspace : 0x20 ≤ c.toNat) (rest : List Char) :
    readPieces (c :: rest) =
      (readPieces rest).map fun (pieces, rest) => (.char c :: pieces, rest) := by
  rw [readPieces.eq_def]
  split
  · contradiction
  · next h => exact absurd (List.cons.inj h).1 hquote
  · next h => exact absurd (List.cons.inj h).1 hbackslash
  · next h => exact absurd (List.cons.inj h).1 hbackslash
  · next h =>
    obtain ⟨rfl, rfl⟩ := List.cons.inj h
    rw [if_neg (by omega)]
    cases readPieces rest <;> rfl

theorem readPieces_short {e c : Char} (h : (e, c) ∈ shortEscapes) (rest : List Char) :
    readPieces ('\\' :: e :: rest) =
      (readPieces rest).map fun (pieces, rest) => (.char c :: pieces, rest) := by
  have hescape : ∀ p ∈ shortEscapes, simpleEscape? p.1 = some p.2 ∧ p.1 ≠ 'u' := by decide
  obtain ⟨hsimple, hu⟩ := hescape _ h
  rw [readPieces]
  · simp only [hsimple]
    cases readPieces rest <;> rfl
  · simp_all

/-- The pieces that the text of a character is read as, whatever follows it. -/
def ReadsAs (c : Char) (text : List Char) : Prop :=
  ∃ pieces, (∀ rest, readPieces (text ++ rest) =
      (readPieces rest).map fun (pieces', rest) => (pieces ++ pieces', rest)) ∧
    ∀ pieces', decodePieces (pieces ++ pieces') = (decodePieces pieces').map (c :: ·)

theorem decodePieces_unit {n : Nat} (hhigh : isHighSurrogate n = false)
    (hlow : isLowSurrogate n = false) (pieces : List Piece) :
    decodePieces (.unit n :: pieces) = (decodePieces pieces).map (Char.ofNat n :: ·) := by
  rw [decodePieces.eq_def]
  split <;> simp_all

theorem decodePieces_pair {high low : Nat} (hhigh : high < 0x400) (hlow : low < 0x400)
    (pieces : List Piece) :
    decodePieces (.unit (0xD800 + high) :: .unit (0xDC00 + low) :: pieces) =
      (decodePieces pieces).map (Char.ofNat (0x10000 + high * 0x400 + low) :: ·) := by
  have h : isHighSurrogate (0xD800 + high) = true := by
    simp only [isHighSurrogate, Bool.and_eq_true, decide_eq_true_eq]
    omega
  have h' : isLowSurrogate (0xDC00 + low) = true := by
    simp only [isLowSurrogate, Bool.and_eq_true, decide_eq_true_eq]
    omega
  simp [decodePieces, h, h']

theorem not_isSurrogate_toNat (c : Char) :
    isHighSurrogate c.toNat = false ∧ isLowSurrogate c.toNat = false := by
  have h : c.toNat < 0xD800 ∨ 0xDFFF < c.toNat ∧ c.toNat < 0x110000 := c.valid
  simp only [isHighSurrogate, isLowSurrogate, Bool.and_eq_false_iff, decide_eq_false_iff_not]
  omega

theorem WritesChar.readsAs {c : Char} (h : WritesChar c text) : ReadsAs c text := by
  cases h with
  | itself hquote hbackslash hspace =>
    exact ⟨[.char c], readPieces_itself hquote hbackslash hspace, fun _ => rfl⟩
  | short hmem => exact ⟨[.char c], readPieces_short hmem, fun _ => rfl⟩
  | unit hunit =>
    obtain ⟨hhigh, hlow⟩ := not_isSurrogate_toNat c
    refine ⟨[.unit c.toNat], readPieces_unit hunit, fun pieces => ?_⟩
    simpa using decodePieces_unit hhigh hlow pieces
  | @pair high low _ cs cs' hhigh hlow hc hunit hunit' =>
    refine ⟨[.unit (0xD800 + high), .unit (0xDC00 + low)], fun rest => ?_, fun pieces => ?_⟩
    · rw [List.append_assoc, readPieces_unit hunit, readPieces_unit hunit', Option.map_map]
      rfl
    · have h := decodePieces_pair hhigh hlow pieces
      rwa [← hc, Char.ofNat_toNat] at h

theorem WritesChars.read (h : WritesChars cs text) (rest : List Char) :
    ∃ pieces, readPieces (text ++ '"' :: rest) = some (pieces, rest) ∧
      decodePieces pieces = some cs := by
  induction h with
  | nil => exact ⟨[], rfl, rfl⟩
  | cons hchar hchars ih =>
    obtain ⟨pieces, hread, hdecode⟩ := hchar.readsAs
    obtain ⟨pieces', hread', hdecode'⟩ := ih
    exact ⟨pieces ++ pieces', by simp [List.append_assoc, hread, hread'],
      by simp [hdecode, hdecode']⟩

/-- A string literal, up to its closing quote, is read as the string. -/
theorem WritesString.read {s : String} (h : WritesString s text) :
    ∃ content, text = '"' :: content ∧
      ∀ rest, readString (content ++ rest) = some (some s, rest) := by
  cases h with
  | @quoted content h =>
    refine ⟨content ++ ['"'], rfl, fun rest => ?_⟩
    obtain ⟨pieces, hread, hdecode⟩ := h.read rest
    simp [readString, hread, hdecode]

/-! ## Reading numbers -/

theorem digitsValue_toString (n : Nat) : digitsValue (toString n).toList = n := by
  rw [Nat.toString_eq_ofList_toDigits, String.toList_ofList]
  conv_rhs => rw [← Nat.ofDigitChars_toDigits (b := 10) (n := n) (by decide) (by decide)]
  simp only [digitsValue, Nat.ofDigitChars, Nat.mul_comm 10]
  rfl

theorem le_foldl_digits (ds : List Char) (m : Nat) :
    m ≤ ds.foldl (fun n d => n * 10 + (d.toNat - 0x30)) m := by
  induction ds generalizing m with
  | nil => exact Nat.le_refl m
  | cons d ds ih =>
    have := ih (m * 10 + (d.toNat - 0x30))
    simp only [List.foldl_cons]
    omega

/-- The digits of a number that is a machine word all fit into one. -/
theorem wordDigits_eq (ds : List Char) (m : Nat)
    (h : ds.foldl (fun n d => n * 10 + (d.toNat - 0x30)) m < wordBound) :
    wordDigits m ds = (ds.foldl (fun n d => n * 10 + (d.toNat - 0x30)) m, 0) := by
  induction ds generalizing m with
  | nil => rfl
  | cons d ds ih =>
    have hle := le_foldl_digits ds (m * 10 + (d.toNat - 0x30))
    simp only [List.foldl_cons] at h
    simp only [wordDigits, if_pos (Nat.lt_of_le_of_lt hle h), ih _ h, List.foldl_cons]

theorem roundToFloat_le {n : Nat} (h : n < wordBound) : roundToFloat n ≤ n + 2048 := by
  have hlog : n.log2 - 52 ≤ 11 := by
    have : n.log2 ≤ 63 := by
      rcases Nat.eq_zero_or_pos n with rfl | hpos
      · decide
      · exact Nat.le_of_lt_succ ((Nat.log2_lt (by omega)).mpr h)
    omega
  have hunit : 1 <<< (n.log2 - 52) ≤ 2048 := by
    rw [Nat.shiftLeft_eq, Nat.one_mul]
    exact Nat.le_trans (Nat.pow_le_pow_right (by decide) hlog) (by decide)
  have hdiv := Nat.div_mul_le_self n (1 <<< (n.log2 - 52))
  simp only [roundToFloat]
  split
  · rw [Nat.add_mul, Nat.one_mul]
    exact Nat.add_le_add hdiv hunit
  · omega

theorem inRange_natural {n : Nat} (h : n < wordBound) :
    inRange (toString n).toList [] 0 = true := by
  have hvalue : wordDigits 0 (toString n).toList = (n, 0) := by
    have := digitsValue_toString n
    rw [digitsValue] at this
    rw [wordDigits_eq _ _ (by rwa [this]), this]
  have hround : roundToFloat n * roundToFloat 1 < overflowBound := by
    have hone : roundToFloat 1 = 1 := by decide
    have hbound : wordBound + 2048 < overflowBound := by decide +kernel
    have := roundToFloat_le h
    rw [hone, Nat.mul_one]
    omega
  simp only [inRange, hvalue, wordDigits]
  simp [hround]

/-- Whether a number that a text follows is over. -/
def EndsNumber (rest : List Char) : Prop :=
  ∀ c ∈ rest.head?, c.isDigit = false ∧ c ≠ '.' ∧ c ≠ 'e' ∧ c ≠ 'E'

theorem EndsNumber.readFraction (h : EndsNumber rest) : readFraction rest = some ([], rest) := by
  cases rest with
  | nil => rfl
  | cons c rest =>
    have := (h c rfl).2.1
    rw [Json.readFraction.eq_def]
    split <;> simp_all

theorem EndsNumber.readExponent (h : EndsNumber rest) : readExponent rest = some (none, rest) := by
  cases rest with
  | nil => rfl
  | cons c rest => simp [Json.readExponent, (h c rfl).2.2]

theorem readNumber_natural {n : Nat} (h : n < wordBound) (hrest : EndsNumber rest) :
    readNumber false ((toString n).toList ++ rest) = some (.natural n, rest) := by
  obtain ⟨d, ds, htext, hdigits, hzero⟩ := Text.toString_eq_cons n
  have hvalue := digitsValue_toString n
  have hrange := inRange_natural h
  rw [htext] at hvalue hrange ⊢
  have htake : (d :: ds ++ rest).takeWhile Char.isDigit = d :: ds :=
    Text.takeWhile_append_of_head hdigits fun c hc => (hrest c hc).1
  have hdrop : (d :: ds ++ rest).dropWhile Char.isDigit = rest :=
    Text.dropWhile_append_of_head hdigits fun c hc => (hrest c hc).1
  have hfirst : ((d :: ds).head? == some '0' && decide ((d :: ds).length > 1)) = false := by
    rw [Bool.and_eq_false_iff, beq_eq_false_iff_ne, decide_eq_false_iff_not]
    by_cases hd : d = '0'
    · simp [hzero hd]
    · exact .inl (by simpa using hd)
  simp only [readNumber, htake, hdrop, List.isEmpty_cons, Bool.false_or, hfirst, hrest.readFraction]
  simp [hrest.readExponent, hrange, hvalue]

/-! ## Reading values -/

theorem isSpace_iff (c : Char) : isSpace c = true ↔ c ∈ [' ', '\n', '\t', '\r'] := by
  simp [isSpace, or_assoc]

theorem IsSpace.skipSpace_append {space : List Char} (h : IsSpace space) (rest : List Char) :
    skipSpace (space ++ rest) = skipSpace rest :=
  List.dropWhile_append_of_pos fun c hc => (isSpace_iff c).mpr (h c hc)

theorem skipSpace_of_head {c : Char} (h : isSpace c = false) :
    skipSpace (c :: cs) = c :: cs := List.dropWhile_cons_of_neg (by simp [h])

theorem skipSpace_skipSpace (cs : List Char) : skipSpace (skipSpace cs) = skipSpace cs :=
  List.dropWhile_idempotent _ _

theorem readValue_skipSpace (fuel : Nat) (cs : List Char) :
    readValue fuel (skipSpace cs) = readValue fuel cs := by
  cases fuel with
  | zero => rfl
  | succ fuel => simp only [readValue, skipSpace_skipSpace]

theorem readItems_skipSpace (fuel : Nat) (cs : List Char) :
    readItems fuel (skipSpace cs) = readItems fuel cs := by
  cases fuel with
  | zero => rfl
  | succ fuel => simp only [readItems, readValue_skipSpace]

theorem readMembers_skipSpace (fuel : Nat) (cs : List Char) :
    readMembers fuel (skipSpace cs) = readMembers fuel cs := by
  cases fuel with
  | zero => rfl
  | succ fuel => simp only [readMembers, skipSpace_skipSpace]

theorem IsSpace.readValue_append {space : List Char} (h : IsSpace space) (fuel : Nat)
    (rest : List Char) : readValue fuel (space ++ rest) = readValue fuel rest := by
  rw [← readValue_skipSpace, h.skipSpace_append, readValue_skipSpace]

theorem IsSpace.endsNumber {space : List Char} (h : IsSpace space) (hrest : EndsNumber rest) :
    EndsNumber (space ++ rest) := by
  cases space with
  | nil => exact hrest
  | cons c space =>
    rintro _ ⟨⟩
    have : ∀ c ∈ [' ', '\n', '\t', '\r'],
        c.isDigit = false ∧ c ≠ '.' ∧ c ≠ 'e' ∧ c ≠ 'E' := by simp
    exact this c (h c List.mem_cons_self)

theorem isSpace_of_isDigit {d : Char} (hd : d.isDigit = true) : isSpace d = false := by
  rw [Bool.eq_false_iff, Ne, isSpace_iff]
  have : ∀ c ∈ [' ', '\n', '\t', '\r'], c.isDigit = false := by simp
  intro h
  simp [this d h] at hd

theorem readValue_digit {d : Char} (hd : d.isDigit = true) (fuel : Nat) (cs : List Char) :
    readValue (fuel + 1) (d :: cs) = readNumber false (d :: cs) := by
  simp only [readValue, skipSpace_of_head (isSpace_of_isDigit hd)]
  split <;> simp_all

theorem ofMembers_map_some (members : List (String × Json)) :
    ofMembers (members.map fun m => (some m.1, m.2)) = .object members := by
  have h : ∀ entry? : Option String × Json → Option (String × Json),
      (∀ key value, entry? (some key, value) = some (key, value)) →
      (members.map fun m => (some m.1, m.2)).mapM entry? = some members := by
    intro entry? hentry
    induction members with
    | nil => rfl
    | cons m members ih =>
      rw [List.map_cons, List.mapM_cons, hentry, ih]
      rfl
  rw [ofMembers, h _ fun _ _ => rfl]

variable {j : Json}

/-- A value begins with a character that is no white space and closes no array. -/
theorem Writes.head (h : Writes j text) :
    ∃ c cs, text = c :: cs ∧ isSpace c = false ∧ c ≠ ']' := by
  cases h with
  | @natural n _ =>
    obtain ⟨d, ds, htext, hdigits, -⟩ := Text.toString_eq_cons n
    have hd := hdigits d List.mem_cons_self
    refine ⟨d, ds, htext, isSpace_of_isDigit hd, ?_⟩
    rintro rfl
    simp at hd
  | string h =>
    obtain ⟨content, rfl, -⟩ := h.read
    exact ⟨'"', content, rfl, rfl, by decide⟩
  | _ => exact ⟨_, _, rfl, rfl, by decide⟩

theorem endsNumber_cons {c : Char} (h : c.isDigit = false ∧ c ≠ '.' ∧ c ≠ 'e' ∧ c ≠ 'E')
    (cs : List Char) : EndsNumber (c :: cs) := by
  rintro _ ⟨⟩
  exact h

theorem IsText.skipSpace_ne (h : IsText j text) (rest cs : List Char) :
    skipSpace (text ++ rest) ≠ ']' :: cs := by
  cases h with
  | padded hbefore h hafter =>
    obtain ⟨c, cs, rfl, hspace, hne⟩ := h.head
    simp [List.append_assoc, hbefore.skipSpace_append, skipSpace_of_head hspace, hne]

/-- An array that is not empty does not begin like an empty one. -/
theorem WritesItems.skipSpace_ne {items : List Json} (h : WritesItems items text)
    (rest cs : List Char) : skipSpace (text ++ rest) ≠ ']' :: cs := by
  cases h with
  | last h => exact h.skipSpace_ne _ _
  | more h _ => exact List.append_assoc .. ▸ h.skipSpace_ne _ _

theorem WritesMember.skipSpace_eq {m : String × Json} (h : WritesMember m text)
    (rest : List Char) : ∃ cs, skipSpace (text ++ rest) = '"' :: cs := by
  cases h with
  | entry hbefore hname hafter htext =>
    obtain ⟨content, rfl, -⟩ := hname.read
    rw [List.append_assoc, hbefore.skipSpace_append]
    exact ⟨_, skipSpace_of_head rfl⟩

/-- The members of an object begin with a quote. -/
theorem WritesMembers.skipSpace_eq {members : List (String × Json)}
    (h : WritesMembers members text) (rest : List Char) :
    ∃ cs, skipSpace (text ++ rest) = '"' :: cs := by
  cases h with
  | last h => exact h.skipSpace_eq rest
  | more h _ => exact List.append_assoc .. ▸ h.skipSpace_eq _

mutual

theorem Writes.read : ∀ {j : Json} {text rest : List Char} {fuel : Nat}, Writes j text →
    2 * text.length ≤ fuel → EndsNumber rest → readValue fuel (text ++ rest) = some (j, rest) := by
  intro j text rest fuel h hfuel hrest
  obtain ⟨_, _, htext, -, -⟩ := h.head
  obtain ⟨fuel, rfl⟩ : ∃ fuel', fuel = fuel' + 1 := ⟨fuel - 1, by simp [htext] at hfuel; omega⟩
  cases h with
  | yes => simp [readValue, skipSpace, isSpace]
  | no => simp [readValue, skipSpace, isSpace]
  | @natural n hn =>
    obtain ⟨d, ds, htext, hdigits, -⟩ := Text.toString_eq_cons n
    have hread := readNumber_natural hn hrest
    rw [htext, List.cons_append] at hread ⊢
    rw [readValue_digit (hdigits d List.mem_cons_self), hread]
  | string h =>
    obtain ⟨content, rfl, hread⟩ := h.read
    rw [List.cons_append, readValue, skipSpace_of_head rfl]
    simp [hread]
  | @emptyArray space hspace =>
    rw [List.cons_append, readValue, skipSpace_of_head rfl]
    simp [hspace.skipSpace_append, skipSpace_of_head (c := ']') rfl]
  | @array items content h =>
    have hread : readItems fuel (content ++ ']' :: rest) = some (items, rest) :=
      WritesItems.read h (by simp at hfuel; omega)
    rw [← readItems_skipSpace] at hread
    have hhead := h.skipSpace_ne (']' :: rest)
    rw [List.cons_append, List.append_assoc, readValue, skipSpace_of_head rfl]
    simp [hread]
  | @emptyObject space hspace =>
    rw [List.cons_append, readValue, skipSpace_of_head rfl]
    simp [hspace.skipSpace_append, skipSpace_of_head (c := '\x7d') rfl]
  | @object members content h =>
    have hread : readMembers fuel (content ++ '\x7d' :: rest) =
        some (members.map fun m => (some m.1, m.2), rest) :=
      WritesMembers.read h (by simp at hfuel; omega)
    rw [← readMembers_skipSpace] at hread
    obtain ⟨cs, hhead⟩ := h.skipSpace_eq ('\x7d' :: rest)
    rw [List.cons_append, List.append_assoc, readValue, skipSpace_of_head rfl]
    rw [hhead] at hread
    simp [hhead, hread, ofMembers_map_some]

theorem IsText.read : ∀ {j : Json} {text rest : List Char} {fuel : Nat}, IsText j text →
    2 * text.length ≤ fuel → EndsNumber rest →
    ∃ after, IsSpace after ∧ readValue fuel (text ++ rest) = some (j, after ++ rest) := by
  intro j text rest fuel h hfuel hrest
  cases h with
  | @padded before _ text after hbefore h hafter =>
    refine ⟨after, hafter, ?_⟩
    rw [List.append_assoc, hbefore.readValue_append, List.append_assoc]
    exact Writes.read h (by simp at hfuel; omega) (hafter.endsNumber hrest)

theorem WritesItems.read : ∀ {items : List Json} {text rest : List Char} {fuel : Nat},
    WritesItems items text → 2 * text.length + 1 ≤ fuel →
    readItems fuel (text ++ ']' :: rest) = some (items, rest) := by
  intro items text rest fuel h hfuel
  obtain ⟨fuel, rfl⟩ : ∃ fuel', fuel = fuel' + 1 := ⟨fuel - 1, by omega⟩
  cases h with
  | @last j _ h =>
    obtain ⟨after, hafter, hread⟩ : ∃ after, IsSpace after ∧
        readValue fuel (text ++ ']' :: rest) = some (j, after ++ ']' :: rest) :=
      IsText.read h (by omega) (endsNumber_cons (by decide) rest)
    simp [readItems, hread, hafter.skipSpace_append, skipSpace_of_head (c := ']') rfl]
  | @more j text items texts h hitems =>
    obtain ⟨after, hafter, hread⟩ : ∃ after, IsSpace after ∧
        readValue fuel (text ++ ',' :: (texts ++ ']' :: rest)) =
          some (j, after ++ ',' :: (texts ++ ']' :: rest)) :=
      IsText.read h (by simp at hfuel; omega) (endsNumber_cons (by decide) _)
    have hreads : readItems fuel (texts ++ ']' :: rest) = some (items, rest) :=
      WritesItems.read hitems (by simp at hfuel; omega)
    simp [readItems, hread, hafter.skipSpace_append, skipSpace_of_head (c := ',') rfl, hreads]

/-- A member begins with its key. -/
theorem WritesMember.read : ∀ {m : String × Json} {text rest : List Char} {fuel : Nat},
    WritesMember m text → 2 * text.length ≤ fuel → EndsNumber rest →
    ∃ key afterKey value after, skipSpace (text ++ rest) = '"' :: key ∧
      readString key = some (some m.1, afterKey) ∧ skipSpace afterKey = ':' :: value ∧
      readValue fuel value = some (m.2, after ++ rest) ∧ IsSpace after := by
  intro m text rest fuel h hfuel hrest
  cases h with
  | @entry before key name between j text hbefore hname hbetween htext =>
    obtain ⟨content, rfl, hkey⟩ := hname.read
    obtain ⟨after, hafter, hread⟩ : ∃ after, IsSpace after ∧
        readValue fuel (text ++ rest) = some (j, after ++ rest) :=
      IsText.read htext (by simp at hfuel; omega) hrest
    refine ⟨content ++ (between ++ ':' :: (text ++ rest)), between ++ ':' :: (text ++ rest),
      text ++ rest, after, ?_, hkey _, ?_, hread, hafter⟩
    · simp [hbefore.skipSpace_append, skipSpace_of_head (c := '"') rfl]
    · rw [hbetween.skipSpace_append, skipSpace_of_head rfl]

theorem WritesMembers.read : ∀ {members : List (String × Json)} {text rest : List Char}
    {fuel : Nat}, WritesMembers members text → 2 * text.length + 1 ≤ fuel →
    readMembers fuel (text ++ '\x7d' :: rest) =
      some (members.map fun m => (some m.1, m.2), rest) := by
  intro members text rest fuel h hfuel
  obtain ⟨fuel, rfl⟩ : ∃ fuel', fuel = fuel' + 1 := ⟨fuel - 1, by omega⟩
  cases h with
  | @last m _ h =>
    obtain ⟨key, afterKey, value, after, hhead, hkey, hcolon, hvalue, hafter⟩ :
        ∃ key afterKey value after, skipSpace (text ++ '\x7d' :: rest) = '"' :: key ∧
          readString key = some (some m.1, afterKey) ∧ skipSpace afterKey = ':' :: value ∧
          readValue fuel value = some (m.2, after ++ '\x7d' :: rest) ∧ IsSpace after :=
      WritesMember.read h (by omega) (endsNumber_cons (by decide) rest)
    simp [readMembers, hhead, hkey, hcolon, hvalue, hafter.skipSpace_append,
      skipSpace_of_head (c := '\x7d') rfl]
  | @more m text members texts h hmembers =>
    obtain ⟨key, afterKey, value, after, hhead, hkey, hcolon, hvalue, hafter⟩ :
        ∃ key afterKey value after,
          skipSpace (text ++ ',' :: (texts ++ '\x7d' :: rest)) = '"' :: key ∧
          readString key = some (some m.1, afterKey) ∧ skipSpace afterKey = ':' :: value ∧
          readValue fuel value = some (m.2, after ++ ',' :: (texts ++ '\x7d' :: rest)) ∧
          IsSpace after :=
      WritesMember.read h (by simp at hfuel; omega) (endsNumber_cons (by decide) _)
    have hreads : readMembers fuel (texts ++ '\x7d' :: rest) =
        some (members.map fun m => (some m.1, m.2), rest) :=
      WritesMembers.read hmembers (by simp at hfuel; omega)
    simp [readMembers, hhead, hkey, hcolon, hvalue, hafter.skipSpace_append,
      skipSpace_of_head (c := ',') rfl, hreads]

end

/-- The parser reads every text of a value as the value. -/
theorem IsText.parse?_eq {s : String} (h : IsText j s.toList) : parse? s = some j := by
  obtain ⟨after, hafter, hread⟩ : ∃ after, IsSpace after ∧
      readValue (2 * s.toList.length + 2) (s.toList ++ []) = some (j, after ++ []) :=
    h.read (by omega) nofun
  have hspace : skipSpace after = [] := by
    rw [← List.append_nil after, hafter.skipSpace_append]
    rfl
  rw [List.append_nil, List.append_nil] at hread
  simp [parse?, hread, hspace]

/-! ## Values that have a text -/

mutual

theorem Writes.isReadable : ∀ {j : Json} {text : List Char}, Writes j text → j.isReadable = true
  | _, _, .yes => rfl
  | _, _, .no => rfl
  | _, _, .natural _ => rfl
  | _, _, .string _ => rfl
  | _, _, .emptyArray _ => rfl
  | _, _, .array h => h.areReadable
  | _, _, .emptyObject _ => rfl
  | _, _, .object h => h.membersReadable

theorem IsText.isReadable : ∀ {j : Json} {text : List Char}, IsText j text → j.isReadable = true
  | _, _, .padded _ h _ => h.isReadable

theorem WritesItems.areReadable : ∀ {items : List Json} {text : List Char},
    WritesItems items text → areReadable items = true
  | _, _, .last h => by rw [Json.areReadable, h.isReadable]; rfl
  | _, _, .more h hs => by rw [Json.areReadable, h.isReadable, hs.areReadable]; rfl

theorem WritesMember.isReadable : ∀ {m : String × Json} {text : List Char},
    WritesMember m text → m.2.isReadable = true
  | _, _, .entry _ _ _ h => h.isReadable

theorem WritesMembers.membersReadable : ∀ {members : List (String × Json)} {text : List Char},
    WritesMembers members text → membersReadable members = true
  | _, _, .last h => by rw [Json.membersReadable, h.isReadable]; rfl
  | _, _, .more h hs => by rw [Json.membersReadable, h.isReadable, hs.membersReadable]; rfl

end

/-! ## The compact text of a value -/

/-- Escapes where it has to, and else writes the character itself. -/
def writeChar (c : Char) : List Char :=
  if c = '"' ∨ c = '\\' then ['\\', c]
  else if c.toNat < 0x20 then
    ['\\', 'u', '0', '0', Nat.digitChar (c.toNat / 16), Nat.digitChar (c.toNat % 16)]
  else [c]

def writeString (s : String) : List Char := '"' :: (s.toList.flatMap writeChar ++ ['"'])

mutual

/-- The text of a value without any white space, if all of the value can be written. -/
def compact? : Json → Option (List Char)
  | .bool true => some "true".toList
  | .bool false => some "false".toList
  | .natural n => if n < wordBound then some (toString n).toList else none
  | .string s => some (writeString s)
  | .array items => (compactItems? items).map fun text => '[' :: (text ++ [']'])
  | .object members => (compactMembers? members).map fun text => '\x7b' :: (text ++ ['\x7d'])
  | .null | .decimal .. | .unreadable => none

def compactItems? : List Json → Option (List Char)
  | [] => some []
  | [j] => j.compact?
  | j :: items => do
    let text ← j.compact?
    let texts ← compactItems? items
    some (text ++ ',' :: texts)

def compactMembers? : List (String × Json) → Option (List Char)
  | [] => some []
  | [(key, j)] => (j.compact?).map fun text => writeString key ++ ':' :: text
  | (key, j) :: members => do
    let text ← j.compact?
    let texts ← compactMembers? members
    some ((writeString key ++ ':' :: text) ++ ',' :: texts)

end

theorem isHexDigit_digitChar : ∀ n < 16, IsHexDigit (Nat.digitChar n) n := by
  have h : ∀ n < 16, "0123456789abcdef".toList[n]? = some (Nat.digitChar n) := by decide
  exact fun n hn => .inl (h n hn)

theorem writesChar_writeChar (c : Char) : WritesChar c (writeChar c) := by
  rw [writeChar]
  split
  · next h =>
    rcases h with rfl | rfl
    · exact .short (by decide)
    · exact .short (by decide)
  · next h =>
    obtain ⟨hquote, hbackslash⟩ := not_or.mp h
    split
    · next h =>
      have hunit := WritesUnit.digits (isHexDigit_digitChar 0 (by decide))
        (isHexDigit_digitChar 0 (by decide)) (isHexDigit_digitChar (c.toNat / 16) (by omega))
        (isHexDigit_digitChar (c.toNat % 16) (by omega))
      have hvalue : ((0 * 16 + 0) * 16 + c.toNat / 16) * 16 + c.toNat % 16 = c.toNat := by omega
      rw [hvalue] at hunit
      exact .unit hunit
    · next h => exact .itself hquote hbackslash (Nat.le_of_not_lt h)

theorem writesString_writeString (s : String) : WritesString s (writeString s) := by
  refine .quoted ?_
  induction s.toList with
  | nil => exact .nil
  | cons c cs ih => exact .cons (writesChar_writeChar c) ih

theorem Writes.isText (h : Writes j text) : IsText j text := by
  have htext : IsText j ([] ++ (text ++ [])) := .padded nofun h nofun
  rwa [List.append_nil, List.nil_append] at htext

theorem Writes.writesMember (h : Writes j text) (key : String) :
    WritesMember (key, j) (writeString key ++ ':' :: text) :=
  @WritesMember.entry [] _ _ [] _ _ nofun (writesString_writeString key) nofun h.isText

mutual

theorem writes_of_compact? : ∀ (j : Json) {text : List Char}, j.compact? = some text →
    Writes j text
  | .bool true, _, h => by cases h; exact .yes
  | .bool false, _, h => by cases h; exact .no
  | .natural n, _, h => by
    rw [compact?] at h
    split at h
    · next hn => cases h; exact .natural hn
    · cases h
  | .string s, _, h => by cases h; exact .string (writesString_writeString s)
  | .array items, _, h => by
    rw [compact?, Option.map_eq_some_iff] at h
    obtain ⟨texts, htexts, rfl⟩ := h
    rcases writesItems_of_compact? items htexts with ⟨rfl, rfl⟩ | hitems
    · exact @Writes.emptyArray [] nofun
    · exact .array hitems
  | .object members, _, h => by
    rw [compact?, Option.map_eq_some_iff] at h
    obtain ⟨texts, htexts, rfl⟩ := h
    rcases writesMembers_of_compact? members htexts with ⟨rfl, rfl⟩ | hmembers
    · exact @Writes.emptyObject [] nofun
    · exact .object hmembers

theorem writesItems_of_compact? : ∀ (items : List Json) {text : List Char},
    compactItems? items = some text → items = [] ∧ text = [] ∨ WritesItems items text
  | [], _, h => by cases h; exact .inl ⟨rfl, rfl⟩
  | [j], _, h => .inr (.last (writes_of_compact? j h).isText)
  | j :: j' :: items, _, h => by
    simp only [compactItems?, Option.bind_eq_bind, Option.bind_eq_some_iff, Option.some.injEq] at h
    obtain ⟨text, htext, texts, htexts, rfl⟩ := h
    obtain ⟨hnil, -⟩ | hitems := writesItems_of_compact? (j' :: items) htexts
    · cases hnil
    · exact .inr (.more (writes_of_compact? j htext).isText hitems)

theorem writesMembers_of_compact? : ∀ (members : List (String × Json)) {text : List Char},
    compactMembers? members = some text → members = [] ∧ text = [] ∨ WritesMembers members text
  | [], _, h => by cases h; exact .inl ⟨rfl, rfl⟩
  | [(key, j)], _, h => by
    rw [compactMembers?, Option.map_eq_some_iff] at h
    obtain ⟨text, htext, rfl⟩ := h
    exact .inr (.last ((writes_of_compact? j htext).writesMember key))
  | (key, j) :: m :: members, _, h => by
    simp only [compactMembers?, Option.bind_eq_bind, Option.bind_eq_some_iff,
      Option.some.injEq] at h
    obtain ⟨text, htext, texts, htexts, rfl⟩ := h
    obtain ⟨hnil, -⟩ | hmembers := writesMembers_of_compact? (m :: members) htexts
    · cases hnil
    · exact .inr (.more ((writes_of_compact? j htext).writesMember key) hmembers)

end

/-! ## Values that can be written -/

def IsWritable (j : Json) : Prop := j.compact?.isSome = true

@[simp]
theorem isWritable_string (s : String) : (Json.string s).IsWritable := rfl

@[simp]
theorem isWritable_bool (b : Bool) : (Json.bool b).IsWritable := by cases b <;> rfl

theorem isWritable_natural {n : Nat} (h : n < wordBound) : (Json.natural n).IsWritable := by
  rw [IsWritable, compact?, if_pos h]
  rfl

theorem IsWritable.array {items : List Json} (h : ∀ j ∈ items, j.IsWritable) :
    (Json.array items).IsWritable := by
  rw [IsWritable, compact?, Option.isSome_map]
  induction items with
  | nil => rfl
  | cons j items ih =>
    obtain ⟨hj, hitems⟩ := List.forall_mem_cons.mp h
    cases items with
    | nil => exact hj
    | cons j' items =>
      obtain ⟨text, htext⟩ := Option.isSome_iff_exists.mp hj
      obtain ⟨texts, htexts⟩ := Option.isSome_iff_exists.mp (ih hitems)
      simp [compactItems?, htext, htexts]

theorem IsWritable.object {members : List (String × Json)} (h : ∀ m ∈ members, m.2.IsWritable) :
    (Json.object members).IsWritable := by
  rw [IsWritable, compact?, Option.isSome_map]
  induction members with
  | nil => rfl
  | cons m members ih =>
    obtain ⟨key, j⟩ := m
    obtain ⟨hj, hmembers⟩ := List.forall_mem_cons.mp h
    obtain ⟨text, htext⟩ := Option.isSome_iff_exists.mp hj
    cases members with
    | nil => simp [compactMembers?, htext]
    | cons m' members =>
      obtain ⟨texts, htexts⟩ := Option.isSome_iff_exists.mp (ih hmembers)
      simp [compactMembers?, htext, htexts]

end Interposer.Json
