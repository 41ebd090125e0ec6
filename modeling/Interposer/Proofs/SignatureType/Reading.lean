import Interposer.SignatureType
import Interposer.Identifier
import Interposer.Proofs.Text.Span

/-! A reader of type expressions, and that it recovers every well-formed type from its text
(`WellFormed.ofText?_render`). It knows nothing of how types are rendered. Spaces may stand wherever
the grammar has more than one token, a list may end with a comma, and a single result may be in
parentheses. -/

namespace Interposer.SignatureType

/-! ## The reader -/

def skipSpaces (cs : List Char) : List Char := cs.dropWhile (· == ' ')

/-- An identifier at the beginning of a text, and what remains. -/
def readName (cs : List Char) : Option (String × List Char) :=
  let name := String.ofList (cs.takeWhile isIdentifierChar)
  if isIdentifier name then some (name, cs.dropWhile isIdentifierChar) else none

/-- A declared type, with a qualifier if a dot follows the first name. -/
def readNamed (cs : List Char) : Option (SignatureType × List Char) := do
  match ← readName cs with
  | (qualifier, '.' :: cs) =>
    let (name, cs) ← readName cs
    some (.named qualifier "" name, cs)
  | (name, cs) => some (.predeclared name, cs)

/-- Whether a type can begin with a character. -/
def beginsType (c : Char) : Bool := c == '*' || c == '[' || isIdentifierStart c

mutual

/-- A type at the beginning of a text, nested at most `fuel` readers deep, and what remains. -/
def readType : (fuel : Nat) → List Char → Option (SignatureType × List Char)
  | 0, _ => none
  | fuel + 1, cs =>
    match skipSpaces cs with
    | '*' :: cs => do
      let (elem, cs) ← readType fuel cs
      some (.pointer elem, cs)
    | '[' :: ']' :: cs => do
      let (elem, cs) ← readType fuel cs
      some (.slice elem, cs)
    | '[' :: cs =>
      match cs.takeWhile Char.isDigit, cs.dropWhile Char.isDigit with
      | d :: ds, ']' :: cs => do
        let (elem, cs) ← readType fuel cs
        some (.array (Nat.ofDigitChars 10 (d :: ds) 0) elem, cs)
      | _, _ => none
    | 'm' :: 'a' :: 'p' :: '[' :: cs => do
      let (key, cs) ← readType fuel cs
      match skipSpaces cs with
      | ']' :: cs => do
        let (value, cs) ← readType fuel cs
        some (.map key value, cs)
      | _ => none
    | 'f' :: 'u' :: 'n' :: 'c' :: '(' :: cs => do
      let (params, variadic, cs) ← readParams fuel cs
      let (results, cs) ← readResults fuel cs
      some (.func params results variadic, cs)
    | cs => readNamed cs

/-- The parameters of a function up to the closing parenthesis, and whether it is variadic. -/
def readParams : (fuel : Nat) → List Char → Option (List SignatureType × Bool × List Char)
  | 0, _ => none
  | fuel + 1, cs =>
    match skipSpaces cs with
    | ')' :: cs => some ([], false, cs)
    | '.' :: '.' :: '.' :: cs => do
      let (elem, cs) ← readType fuel cs
      match skipSpaces cs with
      | ')' :: cs => some ([.slice elem], true, cs)
      | _ => none
    | cs => do
      let (type, cs) ← readType fuel cs
      match skipSpaces cs with
      | ')' :: cs => some ([type], false, cs)
      | ',' :: cs => do
        let (types, variadic, cs) ← readParams fuel cs
        some (type :: types, variadic, cs)
      | _ => none

/-- What a function answers: a list in parentheses, one type, or nothing. -/
def readResults : (fuel : Nat) → List Char → Option (List SignatureType × List Char)
  | 0, _ => none
  | fuel + 1, cs =>
    match skipSpaces cs with
    | '(' :: cs => do
      let (results, variadic, cs) ← readParams fuel cs
      if variadic then none else some (results, cs)
    | [] => some ([], [])
    | c :: cs =>
      if beginsType c then do
        let (result, cs) ← readType fuel (c :: cs)
        some ([result], cs)
      else some ([], c :: cs)

end

/-- The type that a text denotes, as far as the text tells: it does not tell the paths of
packages. -/
def ofText? (text : String) : Option SignatureType :=
  match readType text.length text.toList with
  | some (type, []) => some type
  | _ => none

/-! ## Types to read -/

/-- Types made of identifiers: the alias of a package is one unless it is empty, arrays have a
length, and the last parameter of a variadic function is a slice. -/
inductive WellFormed : SignatureType → Prop
  | slice : WellFormed elem → WellFormed (.slice elem)
  | array : 0 ≤ length → WellFormed elem → WellFormed (.array length elem)
  | map : WellFormed key → WellFormed value → WellFormed (.map key value)
  | pointer : WellFormed elem → WellFormed (.pointer elem)
  | func : (∀ t ∈ params, WellFormed t) → (∀ t ∈ results, WellFormed t) →
    (variadic = true → ∃ elem, params.getLast? = some (.slice elem)) →
    WellFormed (.func params results variadic)
  | named : (qualifier ≠ "" → isIdentifier qualifier = true) → isIdentifier name = true →
    WellFormed (.named qualifier path name)

mutual

/-- The type without the paths of its packages. -/
def withoutPaths : SignatureType → SignatureType
  | .slice elem => .slice elem.withoutPaths
  | .array length elem => .array length elem.withoutPaths
  | .map key value => .map key.withoutPaths value.withoutPaths
  | .pointer elem => .pointer elem.withoutPaths
  | .func params results variadic =>
    .func (withoutPathsAll params) (withoutPathsAll results) variadic
  | .named qualifier _ name => .named qualifier "" name

def withoutPathsAll : List SignatureType → List SignatureType
  | [] => []
  | t :: types => t.withoutPaths :: withoutPathsAll types

end

theorem withoutPathsAll_eq (types : List SignatureType) :
    withoutPathsAll types = types.map withoutPaths := by
  induction types with
  | nil => rfl
  | cons t types ih => rw [withoutPathsAll, ih, List.map_cons]

/-! ## Words -/

/-- What may follow a type inside another one. -/
def Closes (cs : List Char) : Prop := ∀ c ∈ cs.head?, c = ',' ∨ c = ')' ∨ c = ']'

variable {w rest cs : List Char} {t : SignatureType} {fuel : Nat}

theorem closes_nil : Closes [] := nofun

theorem closes_cons {c : Char} (h : c = ',' ∨ c = ')' ∨ c = ']') (cs : List Char) :
    Closes (c :: cs) := fun _ hc => Option.mem_some.mp hc ▸ h

theorem Closes.not_isIdentifierChar (h : Closes rest) :
    ∀ c ∈ rest.head?, isIdentifierChar c = false := by
  intro c hc
  rcases h c hc with rfl | rfl | rfl <;> decide

theorem readName_append {s : String} (hs : isIdentifier s = true)
    (hrest : ∀ c ∈ rest.head?, isIdentifierChar c = false) :
    readName (s.toList ++ rest) = some (s, rest) := by
  obtain ⟨c, cs, hlist, -, hall, -⟩ := exists_of_isIdentifier hs
  rw [readName, Text.takeWhile_append_of_head (hlist ▸ hall) hrest,
    Text.dropWhile_append_of_head (hlist ▸ hall) hrest, String.ofList_toList, if_pos hs]

/-- Where a word ends is told by the text. -/
theorem eq_of_append_eq {w' rest' : List Char} (hw : ∀ c ∈ w, isIdentifierChar c = true)
    (hrest : ∀ c ∈ rest.head?, isIdentifierChar c = false)
    (hw' : ∀ c ∈ w', isIdentifierChar c = true)
    (hrest' : ∀ c ∈ rest'.head?, isIdentifierChar c = false) (h : w ++ rest = w' ++ rest') :
    w = w' := by
  rw [← Text.takeWhile_append_of_head hw hrest, h, Text.takeWhile_append_of_head hw' hrest']

/-- A text that begins with a name is read as a declared type. -/
theorem readType_name {s : String} (hs : isIdentifier s = true)
    (hrest : ∀ c ∈ rest.head?, isIdentifierChar c = false) (fuel : Nat) :
    readType (fuel + 1) (s.toList ++ rest) = readNamed (s.toList ++ rest) := by
  obtain ⟨c, cs, hlist, hstart, hall, hkeyword⟩ := exists_of_isIdentifier hs
  have hhead : ∀ c' cs', isIdentifierStart c' = false → s.toList ++ rest ≠ c' :: cs' := by
    intro c' cs' hc' heq
    rw [hlist, List.cons_append] at heq
    rw [(List.cons.inj heq).1, hc'] at hstart
    cases hstart
  have hword : ∀ w c' cs', String.ofList w ∈ keywords → w.all isIdentifierChar = true →
      isIdentifierChar c' = false → s.toList ++ rest ≠ w ++ c' :: cs' := by
    intro w c' cs' hw hall' hc' heq
    have hrest' : ∀ c ∈ (c' :: cs').head?, isIdentifierChar c = false :=
      fun c hc => Option.mem_some.mp hc ▸ hc'
    have hsw := eq_of_append_eq (hlist ▸ hall) hrest (List.all_eq_true.mp hall') hrest' heq
    rw [← hsw, String.ofList_toList] at hw
    exact hkeyword hw
  have hspace : skipSpaces (s.toList ++ rest) = s.toList ++ rest := by
    rw [hlist, List.cons_append, skipSpaces, List.dropWhile_cons_of_neg]
    intro hc
    rw [eq_of_beq hc] at hstart
    cases hstart
  rw [readType, hspace]
  split
  · next cs' heq => exact absurd heq (hhead '*' cs' rfl)
  · next cs' heq => exact absurd heq (hhead '[' _ rfl)
  · next cs' _ heq => exact absurd heq (hhead '[' _ rfl)
  · next cs' heq =>
    exact absurd heq (hword ['m', 'a', 'p'] '[' cs' (by decide) (by decide) (by decide))
  · next cs' heq =>
    exact absurd heq (hword ['f', 'u', 'n', 'c'] '(' cs' (by decide) (by decide) (by decide))
  · rfl

/-! ## Reading what was rendered -/

/-- A text of a type can be read wherever the type may end. -/
def ReadsBack (t : SignatureType) : Prop :=
  ∀ fuel rest, t.render.toList.length ≤ fuel → Closes rest →
    readType fuel (t.render.toList ++ rest) = some (t.withoutPaths, rest)

/-- What is known of a well-formed type by induction; a slice can be the type of a variadic
parameter. -/
structure Recovered (t : SignatureType) : Prop where
  reads : ReadsBack t
  elem : ∀ elem, t = .slice elem → ReadsBack elem
  /-- The first character of a type does not look like anything else. -/
  begins : ∃ c cs, t.render.toList = c :: cs ∧ beginsType c = true

theorem skipSpaces_of_begins {c : Char} (hc : c ≠ ' ') (cs : List Char) :
    skipSpaces (c :: cs) = c :: cs := by
  rw [skipSpaces, List.dropWhile_cons_of_neg]
  simpa using hc

theorem Closes.skipSpaces (h : Closes rest) : skipSpaces rest = rest := by
  cases rest with
  | nil => rfl
  | cons c cs =>
    refine skipSpaces_of_begins ?_ cs
    rcases h c rfl with rfl | rfl | rfl <;> decide

namespace ReadsBack

variable {elem key value : SignatureType}

theorem slice (h : ReadsBack elem) : ReadsBack (.slice elem) := by
  intro fuel rest hfuel hrest
  have htext : (render (.slice elem)).toList = '[' :: ']' :: elem.render.toList := by
    simp [render]
  rw [htext] at hfuel ⊢
  cases fuel with
  | zero => cases hfuel
  | succ fuel =>
    have helem := h fuel rest (by simp only [List.length_cons] at hfuel; omega) hrest
    simp [readType, SignatureType.skipSpaces, helem, withoutPaths]

theorem pointer (h : ReadsBack elem) : ReadsBack (.pointer elem) := by
  intro fuel rest hfuel hrest
  have htext : (render (.pointer elem)).toList = '*' :: elem.render.toList := by simp [render]
  rw [htext] at hfuel ⊢
  cases fuel with
  | zero => cases hfuel
  | succ fuel =>
    have helem := h fuel rest (by simp only [List.length_cons] at hfuel; omega) hrest
    simp [readType, SignatureType.skipSpaces, helem, withoutPaths]

theorem array (n : Nat) (h : ReadsBack elem) : ReadsBack (.array n elem) := by
  intro fuel rest hfuel hrest
  have htext : (render (.array n elem)).toList =
      '[' :: (Nat.toDigits 10 n ++ ']' :: elem.render.toList) := by
    have hnumber : toString (n : Int) = n.repr := rfl
    simp [render, hnumber]
  have hdigits : ∀ d ∈ Nat.toDigits 10 n, d.isDigit = true := fun _ => Text.isDigit_of_mem_toDigits
  rw [htext] at hfuel ⊢
  cases fuel with
  | zero => cases hfuel
  | succ fuel =>
    have helem := h fuel rest
      (by simp only [List.length_cons, List.length_append] at hfuel; omega) hrest
    have hbracket : ∀ c ∈ (']' :: (elem.render.toList ++ rest)).head?, c.isDigit = false :=
      fun c hc => Option.mem_some.mp hc ▸ by decide
    have htake := Text.takeWhile_append_of_head hdigits hbracket
    have hdrop := Text.dropWhile_append_of_head hdigits hbracket
    have hvalue := Nat.ofDigitChars_toDigits (b := 10) (n := n) (by decide) (Nat.le_refl 10)
    obtain ⟨d, ds, hcons, -⟩ := Text.toDigits_eq_cons n
    rw [hcons] at hdigits htake hdrop hvalue
    have hd : d ≠ ']' := by
      rintro rfl
      exact absurd (hdigits ']' List.mem_cons_self) (by decide)
    have hread : readType (fuel + 1) ('[' :: (d :: ds ++ ']' :: (elem.render.toList ++ rest))) =
        some (.array (Nat.ofDigitChars 10 (d :: ds) 0) elem.withoutPaths, rest) := by
      rw [readType, skipSpaces_of_begins (by decide)]
      split
      · next heq => cases heq
      · next heq => exact absurd (List.cons.inj (List.cons.inj heq).2).1 hd
      · next cs _ heq =>
        rw [← (List.cons.inj heq).2, htake, hdrop]
        simp only [helem, Option.bind_eq_bind, Option.bind_some]
      · next heq => cases heq
      · next heq => cases heq
      · next hne _ _ => exact absurd rfl (hne _)
    rw [hvalue] at hread
    simpa [hcons, withoutPaths] using hread

theorem map (hkey : ReadsBack key) (hvalue : ReadsBack value) : ReadsBack (.map key value) := by
  intro fuel rest hfuel hrest
  have htext : (render (.map key value)).toList =
      'm' :: 'a' :: 'p' :: '[' :: (key.render.toList ++ ']' :: value.render.toList) := by
    simp [render]
  rw [htext] at hfuel ⊢
  cases fuel with
  | zero => cases hfuel
  | succ fuel =>
    simp only [List.length_cons, List.length_append] at hfuel
    have hkey := hkey fuel (']' :: (value.render.toList ++ rest)) (by omega)
      (closes_cons (by decide) _)
    have hvalue := hvalue fuel rest (by omega) hrest
    simp [readType, SignatureType.skipSpaces, hkey, hvalue, withoutPaths]

theorem named {qualifier name : String}
    (hqualifier : qualifier ≠ "" → isIdentifier qualifier = true)
    (hname : isIdentifier name = true) (path : String) :
    ReadsBack (.named qualifier path name) := by
  intro fuel rest hfuel hrest
  have hrest' := hrest.not_isIdentifierChar
  have hpos : 0 < name.toList.length := by
    obtain ⟨c, cs, hlist, -⟩ := exists_of_isIdentifier hname
    simp [hlist]
  by_cases hempty : qualifier = ""
  · have htext : (SignatureType.named qualifier path name).render = name := by
      rw [render, hempty]
      rfl
    have hread : readNamed (name.toList ++ rest) = some (.predeclared name, rest) := by
      rw [readNamed, readName_append hname hrest', Option.bind_eq_bind, Option.bind_some]
      split
      · next heq =>
        have hdot : rest = _ := congrArg Prod.snd heq
        exact absurd (hrest '.' (hdot ▸ rfl)) (by decide)
      · next heq => cases heq; rfl
    rw [htext] at hfuel ⊢
    obtain ⟨fuel, rfl⟩ := Nat.exists_eq_succ_of_ne_zero (show fuel ≠ 0 by omega)
    rw [readType_name hname hrest', hread, withoutPaths, hempty]
    rfl
  · have htext : (SignatureType.named qualifier path name).render.toList =
        qualifier.toList ++ '.' :: name.toList := by
      simp [render, hempty]
    have hdot : ∀ c ∈ ('.' :: (name.toList ++ rest)).head?, isIdentifierChar c = false :=
      fun c hc => Option.mem_some.mp hc ▸ by decide
    have hread : readNamed (qualifier.toList ++ '.' :: (name.toList ++ rest)) =
        some (.named qualifier "" name, rest) := by
      rw [readNamed, readName_append (hqualifier hempty) hdot]
      simp [readName_append hname hrest']
    rw [htext, List.length_append, List.length_cons] at hfuel
    obtain ⟨fuel, rfl⟩ := Nat.exists_eq_succ_of_ne_zero (show fuel ≠ 0 by omega)
    rw [htext, List.append_assoc, List.cons_append, readType_name (hqualifier hempty) hdot, hread,
      withoutPaths]

end ReadsBack

/-! ## Lists of types -/

section

variable {params results : List SignatureType} {variadic : Bool}

/-- A list of parameters up to the closing parenthesis. -/
def paramsText (variadic : Bool) (params : List SignatureType) : List Char :=
  (", ".intercalate (renderParams variadic params)).toList ++ [')']

theorem paramsText_cons (t t' : SignatureType) (types : List SignatureType) :
    paramsText variadic (t :: t' :: types) =
      t.render.toList ++ ',' :: ' ' :: paramsText variadic (t' :: types) := by
  obtain ⟨s, texts, htexts⟩ : ∃ s texts, renderParams variadic (t' :: types) = s :: texts := by
    cases variadic <;> cases t' <;> cases types <;> exact ⟨_, _, rfl⟩
  simp [paramsText, renderParams_cons_cons, htexts, String.toList_intercalate]

theorem readParams_space (fuel : Nat) (cs : List Char) :
    readParams (fuel + 1) (' ' :: cs) = readParams (fuel + 1) cs := by
  rw [readParams, readParams]
  rfl

/-- A parameter that is not variadic is read before it is known whether more of them follow. -/
theorem readParams_type (h : t.Recovered) (fuel : Nat) (cs : List Char) :
    readParams (fuel + 1) (t.render.toList ++ cs) =
      (readType fuel (t.render.toList ++ cs)).bind fun (type, cs) =>
        match skipSpaces cs with
        | ')' :: cs => some ([type], false, cs)
        | ',' :: cs =>
          (readParams fuel cs).bind fun (types, variadic, cs) => some (type :: types, variadic, cs)
        | _ => none := by
  obtain ⟨c, text, htext, hc⟩ := h.begins
  rw [htext, List.cons_append]
  have hspace : c ≠ ' ' := by rintro rfl; cases hc
  rw [readParams, skipSpaces_of_begins hspace]
  split
  · next heq => rw [(List.cons.inj heq).1] at hc; cases hc
  · next heq => rw [(List.cons.inj heq).1] at hc; cases hc
  · rfl

theorem readParams_paramsText (hparams : ∀ t ∈ params, Recovered t)
    (hvariadic : variadic = true → ∃ elem, params.getLast? = some (.slice elem))
    (hfuel : (paramsText variadic params).length ≤ fuel) (rest : List Char) :
    readParams fuel (paramsText variadic params ++ rest) =
      some (params.map withoutPaths, variadic, rest) := by
  induction params generalizing fuel with
  | nil =>
    obtain rfl : variadic = false := by
      cases variadic with
      | false => rfl
      | true => obtain ⟨_, h⟩ := hvariadic rfl; cases h
    cases fuel with
    | zero => cases hfuel
    | succ fuel => rfl
  | cons t types ih =>
    obtain ⟨ht, hrest⟩ := List.forall_mem_cons.mp hparams
    obtain ⟨fuel, rfl⟩ : ∃ n, fuel = n + 1 := by
      refine Nat.exists_eq_succ_of_ne_zero fun h => ?_
      rw [h] at hfuel
      simp [paramsText] at hfuel
    cases types with
    | nil =>
      cases variadic with
      | true =>
        obtain ⟨elem, hlast⟩ := hvariadic rfl
        cases hlast
        have htext : paramsText true [.slice elem] =
            '.' :: '.' :: '.' :: (elem.render.toList ++ [')']) := by
          simp [paramsText, renderParams]
        rw [htext] at hfuel ⊢
        have helem := ht.elem elem rfl fuel (')' :: rest)
          (by simp only [List.length_cons, List.length_append] at hfuel; omega)
          (closes_cons (by decide) _)
        simp [readParams, SignatureType.skipSpaces, helem, withoutPaths]
      | false =>
        have htext : paramsText false [t] = t.render.toList ++ [')'] := by
          simp [paramsText, renderParams_false, renderAll]
        rw [htext] at hfuel ⊢
        have htype := ht.reads fuel (')' :: rest) (by simpa using hfuel) (closes_cons (by decide) _)
        simp [readParams_type ht, htype, skipSpaces]
    | cons t' types =>
      have hlast : variadic = true → ∃ elem, (t' :: types).getLast? = some (.slice elem) := by
        simpa using hvariadic
      rw [paramsText_cons] at hfuel ⊢
      simp only [List.length_append, List.length_cons] at hfuel
      have htype := ht.reads fuel (',' :: ' ' :: (paramsText variadic (t' :: types) ++ rest))
        (by omega) (closes_cons (by decide) _)
      obtain ⟨fuel, rfl⟩ : ∃ n, fuel = n + 1 := Nat.exists_eq_succ_of_ne_zero (by omega)
      have hmore : readParams (fuel + 1) (paramsText variadic (t' :: types) ++ rest) =
          some ((t' :: types).map withoutPaths, variadic, rest) := ih hrest hlast (by omega)
      rw [List.append_assoc, List.cons_append, List.cons_append, readParams_type ht, htype]
      simp [SignatureType.skipSpaces, readParams_space, hmore]

/-- Results as they follow the parameters. -/
theorem readResults_resultText (hresults : ∀ t ∈ results, Recovered t)
    (hfuel : (resultText (renderAll results)).toList.length < fuel) (hrest : Closes rest) :
    readResults fuel ((resultText (renderAll results)).toList ++ rest) =
      some (results.map withoutPaths, rest) := by
  obtain ⟨fuel, rfl⟩ : ∃ n, fuel = n + 1 := Nat.exists_eq_succ_of_ne_zero (by omega)
  cases results with
  | nil =>
    have htext : (resultText (renderAll [])).toList ++ rest = rest := rfl
    rw [htext, readResults, hrest.skipSpaces]
    cases rest with
    | nil => rfl
    | cons c cs =>
      have hc : beginsType c = false ∧ c ≠ '(' := by
        rcases hrest c rfl with rfl | rfl | rfl <;> decide
      split
      · next heq => exact absurd (List.cons.inj heq).1 hc.2
      · next heq => cases heq
      · next heq =>
        cases heq
        rw [hc.1]
        rfl
  | cons t types =>
    obtain ⟨ht, hmore⟩ := List.forall_mem_cons.mp hresults
    cases types with
    | nil =>
      have htext : (resultText (renderAll [t])).toList = ' ' :: t.render.toList := by
        simp [resultText, renderAll]
      rw [htext] at hfuel ⊢
      have htype := ht.reads fuel rest (by simp only [List.length_cons] at hfuel; omega) hrest
      obtain ⟨c, cs, hbegin, hc⟩ := ht.begins
      rw [hbegin] at htype ⊢
      have hspace : c ≠ ' ' := by rintro rfl; cases hc
      have hskip : skipSpaces (' ' :: (c :: cs) ++ rest) = c :: (cs ++ rest) :=
        skipSpaces_of_begins hspace _
      rw [List.cons_append] at htype
      rw [readResults, hskip]
      split
      · next heq => rw [(List.cons.inj heq).1] at hc; cases hc
      · next heq => cases heq
      · next heq =>
        cases heq
        rw [hc, if_pos rfl, htype]
        rfl
    | cons t' types =>
      have htext : (resultText (renderAll (t :: t' :: types))).toList =
          ' ' :: '(' :: paramsText false (t :: t' :: types) := by
        simp [resultText, renderAll, paramsText, renderParams_false]
      rw [htext] at hfuel ⊢
      have hlist : readParams fuel (paramsText false (t :: t' :: types) ++ rest) =
          some ((t :: t' :: types).map withoutPaths, false, rest) :=
        have hfixed : false = true → ∃ elem, (t :: t' :: types).getLast? = some (.slice elem) :=
          fun h => (Bool.false_ne_true h).elim
        readParams_paramsText hresults hfixed (by simp only [List.length_cons] at hfuel; omega) rest
      simp [readResults, skipSpaces, hlist]

theorem ReadsBack.func (hparams : ∀ t ∈ params, Recovered t) (hresults : ∀ t ∈ results, Recovered t)
    (hvariadic : variadic = true → ∃ elem, params.getLast? = some (.slice elem)) :
    ReadsBack (.func params results variadic) := by
  intro fuel rest hfuel hrest
  have htext : (render (.func params results variadic)).toList =
      'f' :: 'u' :: 'n' :: 'c' :: '(' ::
        (paramsText variadic params ++ (resultText (renderAll results)).toList) := by
    simp [render, paramsText]
  rw [htext] at hfuel ⊢
  cases fuel with
  | zero => cases hfuel
  | succ fuel =>
    simp only [List.length_cons, List.length_append] at hfuel
    have hlist : readParams fuel (paramsText variadic params ++
        ((resultText (renderAll results)).toList ++ rest)) =
        some (params.map withoutPaths, variadic,
          (resultText (renderAll results)).toList ++ rest) :=
      readParams_paramsText hparams hvariadic (by omega) _
    have hanswer : readResults fuel ((resultText (renderAll results)).toList ++ rest) =
        some (results.map withoutPaths, rest) := readResults_resultText hresults (by omega) hrest
    simp [readType, skipSpaces, hlist, hanswer, withoutPaths, withoutPathsAll_eq]

end

/-! ## All well-formed types -/

theorem WellFormed.recovered (h : t.WellFormed) : Recovered t := by
  induction h with
  | slice _ ih =>
    refine ⟨ih.reads.slice, fun elem heq => ?_, '[', _, by simp [render]; rfl, by decide⟩
    cases heq
    exact ih.reads
  | @array length elem hlength _ ih =>
    obtain ⟨n, rfl⟩ := Int.eq_ofNat_of_zero_le hlength
    exact ⟨ih.reads.array n, nofun, '[', _, by simp [render]; rfl, by decide⟩
  | map _ _ ihkey ihvalue =>
    exact ⟨ihkey.reads.map ihvalue.reads, nofun, 'm', _, by simp [render]; rfl, by decide⟩
  | pointer _ ih => exact ⟨ih.reads.pointer, nofun, '*', _, by simp [render]; rfl, by decide⟩
  | func _ _ hvariadic ihparams ihresults =>
    exact ⟨.func ihparams ihresults hvariadic, nofun, 'f', _, by simp [render]; rfl, by decide⟩
  | @named qualifier name path hqualifier hname =>
    refine ⟨.named hqualifier hname path, nofun, ?_⟩
    have hbegins : ∀ {s : String}, isIdentifier s = true → ∀ cs,
        ∃ c cs', s.toList ++ cs = c :: cs' ∧ beginsType c = true := by
      intro s hs cs
      obtain ⟨c, cs', hlist, hstart, -⟩ := exists_of_isIdentifier hs
      exact ⟨c, cs' ++ cs, by rw [hlist, List.cons_append], by simp [beginsType, hstart]⟩
    by_cases hempty : qualifier = ""
    · simpa [render, hempty] using hbegins hname []
    · simpa [render, hempty] using hbegins (hqualifier hempty) ('.' :: name.toList)

/-- A well-formed type is recovered from its text, the paths of its packages aside. -/
theorem WellFormed.ofText?_render (h : t.WellFormed) : ofText? t.render = some t.withoutPaths := by
  have hread := h.recovered.reads _ [] (Nat.le_refl _) closes_nil
  rw [List.append_nil] at hread
  rw [ofText?, ← String.length_toList, hread]

/-- Types with the same text are the same, the paths of their packages aside. -/
theorem WellFormed.render_injective {t' : SignatureType} (h : t.WellFormed) (h' : t'.WellFormed)
    (htext : t.render = t'.render) : t.withoutPaths = t'.withoutPaths := by
  have hread := h.ofText?_render
  rw [htext, h'.ofText?_render] at hread
  exact (Option.some.inj hread).symm

end Interposer.SignatureType
