import Mathlib.Data.List.Forall2
import ShapeTypes.Json.Value

/-
  Documents are read back as they are written.

  Strings, numbers, arrays and objects are written without
  gaps.  The reader finds each of them in front of any text
  that does not go on with a number.

  Key definitions include:
    * `ShapeTypes.Json.pieceOf`
    * `ShapeTypes.Json.Closes`
    * `ShapeTypes.Json.Writes`

  Key theorems include:
    * `ShapeTypes.Json.readText?_quoted`
    * `ShapeTypes.Json.Numeral.read?_toDigits`
    * `ShapeTypes.Json.Writes.array`
    * `ShapeTypes.Json.Writes.object`
-/

------------------------------------------------------------
-- Strings
------------------------------------------------------------

namespace ShapeTypes

namespace Json

/-
  What a character is written as.  A control character
  without a letter of its own is a code unit.
-/
def pieceOf
    (c : Char) :
    Piece :=
  if c.toNat < 0x20 ∧ c ∉ ['\n', '\r', '\t', '\x08', '\x0c'] then
    .unit c.toNat
  else
    .char c

/- A letter behind a backslash is read as what it stands for. -/
theorem readPieces?_letter
    {c letter : Char}
    (rest : List Char)
    (hLetter : letter ≠ 'u')
    (hEscape : unescape? letter = some c) :
    readPieces? ('\\' :: letter :: rest) =
      (readPieces? rest).map fun read => (.char c :: read.1, read.2) := by
  rw [readPieces?.eq_4]
  · rw [hEscape]
    cases readPieces? rest <;> rfl
  · intro _ _ _ _ _ hUnit _
    exact hLetter hUnit

/- Any other character is read as itself. -/
theorem readPieces?_plain
    {c : Char}
    (rest : List Char)
    (hQuote : c ≠ '"')
    (hSlash : c ≠ '\\')
    (hControl : ¬ c.toNat < 0x20) :
    readPieces? (c :: rest) =
      (readPieces? rest).map fun read => (.char c :: read.1, read.2) := by
  rw [readPieces?.eq_5]
  · rw [if_neg (by simp [hControl, hSlash])]
    cases readPieces? rest <;> rfl
  · exact hQuote
  · intro _ _ _ _ _ hEq _
    exact hSlash hEq
  · intro _ _ hEq _
    exact hSlash hEq

theorem hexValue?_hexDigit :
    ∀ n < 16, hexValue? (hexDigit n) = some n := by
  decide

/- Two hexadecimal digits behind two zeros are read as their value. -/
theorem readPieces?_unit
    {n : Nat}
    (rest : List Char)
    (hSmall : n < 0x20) :
    readPieces?
        ('\\' :: 'u' :: '0' :: '0' :: hexDigit (n / 16) ::
          hexDigit (n % 16) :: rest) =
      (readPieces? rest).map fun read => (.unit n :: read.1, read.2) := by
  have hZero : hexValue? '0' = some 0 := by decide
  have hHigh := hexValue?_hexDigit (n / 16) (by omega)
  have hLow := hexValue?_hexDigit (n % 16) (by omega)
  have hValue :
      unitValue? '0' '0' (hexDigit (n / 16)) (hexDigit (n % 16)) =
        some n := by
    simp only [unitValue?, hZero, hHigh, hLow, Option.bind_eq_bind,
      Option.bind_some, Option.pure_def, Option.some.injEq]
    omega
  rw [readPieces?.eq_3, hValue]
  cases readPieces? rest <;> rfl

/- A character between quotes is read as one piece. -/
theorem readPieces?_escape
    (c : Char)
    (rest : List Char) :
    readPieces? (escape c ++ rest) =
      (readPieces? rest).map fun read => (pieceOf c :: read.1, read.2) := by
  unfold escape
  split_ifs with hQuote hSlash hFeed hReturn hTab hBack hForm hControl
  · rw [hQuote]
    exact readPieces?_letter rest (by decide) rfl
  · rw [hSlash]
    exact readPieces?_letter rest (by decide) rfl
  · rw [hFeed]
    exact readPieces?_letter rest (by decide) rfl
  · rw [hReturn]
    exact readPieces?_letter rest (by decide) rfl
  · rw [hTab]
    exact readPieces?_letter rest (by decide) rfl
  · rw [hBack]
    exact readPieces?_letter rest (by decide) rfl
  · rw [hForm]
    exact readPieces?_letter rest (by decide) rfl
  · have hPiece : pieceOf c = .unit c.toNat := by
      simp [pieceOf, hControl, hFeed, hReturn, hTab, hBack, hForm]
    rw [hPiece]
    exact readPieces?_unit rest hControl
  · have hPiece : pieceOf c = .char c := by
      rw [pieceOf, if_neg (fun h => hControl h.1)]
    rw [hPiece]
    exact readPieces?_plain rest hQuote hSlash hControl

/- A small code unit writes its own character, whatever follows. -/
theorem textOfPieces?_unit
    {n : Nat}
    (pieces : List Piece)
    (hSmall : n < 0x20) :
    textOfPieces? (.unit n :: pieces) =
      (textOfPieces? pieces).map (Char.ofNat n :: ·) := by
  have hHigh : isHighUnit n = false := by
    simp [isHighUnit]
    omega
  have hLow : isLowUnit n = false := by
    simp [isLowUnit]
    omega
  cases pieces with
  | nil => simp [textOfPieces?, hHigh, hLow]
  | cons piece pieces =>
      cases piece with
      | char c => simp [textOfPieces?, hHigh, hLow]
      | unit low => simp [textOfPieces?, hHigh, hLow]

/- The pieces of a text write the text. -/
theorem textOfPieces?_map_pieceOf
    (text : List Char) :
    textOfPieces? (text.map pieceOf) = some text := by
  induction text with
  | nil => rfl
  | cons c text ih =>
      rw [List.map_cons]
      by_cases hUnit :
          c.toNat < 0x20 ∧ c ∉ ['\n', '\r', '\t', '\x08', '\x0c']
      · rw [pieceOf, if_pos hUnit, textOfPieces?_unit _ hUnit.1, ih,
          Char.ofNat_toNat]
        rfl
      · rw [pieceOf, if_neg hUnit, textOfPieces?, ih]
        rfl

/- Between quotes, a text is read piece by piece. -/
theorem readPieces?_quoted
    (text rest : List Char) :
    readPieces? (text.flatMap escape ++ '"' :: rest) =
      some (text.map pieceOf, rest) := by
  induction text with
  | nil => rfl
  | cons c text ih =>
      rw [List.flatMap_cons, List.append_assoc, readPieces?_escape, ih]
      rfl

/- Any text is read back from between its quotes. -/
theorem readText?_quoted
    (text : String)
    (rest : List Char) :
    readText? (text.toList.flatMap escape ++ '"' :: rest) =
      some (some text, rest) := by
  simp [readText?, readPieces?_quoted, textOfPieces?_map_pieceOf]

end Json

end ShapeTypes

------------------------------------------------------------
-- Numbers
------------------------------------------------------------

namespace ShapeTypes

namespace Json

/- A text that goes on with nothing that belongs to a number. -/
def Closes
    (rest : List Char) : Prop :=
  ∀ c ∈ rest.head?, c.isDigit = false ∧ c ≠ '.' ∧ c ≠ 'e' ∧ c ≠ 'E'

/- The value of a row of digits. -/
theorem digitsValue_eq
    (read : Nat)
    (digits : List Char) :
    digitsValue read digits = Nat.ofDigitChars 10 digits read := by
  induction digits generalizing read with
  | nil => exact Nat.ofDigitChars_nil.symm
  | cons c digits ih =>
      rw [Nat.ofDigitChars_cons]
      exact ih (10 * read + digitValue c)

/- A natural number is written with a digit in front. -/
theorem exists_toDigits_eq_cons
    (n : Nat) :
    ∃ c digits, Nat.toDigits 10 n = c :: digits ∧ c.isDigit = true := by
  cases hDigits : Nat.toDigits 10 n with
  | nil => exact absurd hDigits Nat.toDigits_ne_nil
  | cons c digits =>
      have hMem : c ∈ Nat.toDigits 10 n := by
        rw [hDigits]
        exact List.mem_cons_self
      exact ⟨c, digits, rfl,
        Nat.isDigit_of_mem_toDigits (by decide) (by decide) hMem⟩

/- Only zero is written with a zero in front. -/
theorem eq_zero_of_toDigits
    {n : Nat}
    {digits : List Char}
    (hDigits : Nat.toDigits 10 n = '0' :: digits) :
    n = 0 := by
  induction n using Nat.strongRecOn generalizing digits with
  | ind n ih =>
      by_cases hSmall : n < 10
      · rw [Nat.toDigits_of_lt_base hSmall, List.cons.injEq,
          Nat.digitChar_eq_zero] at hDigits
        exact hDigits.1
      · have hLarge : 10 ≤ n := Nat.not_lt.1 hSmall
        rw [Nat.toDigits_of_base_le (by decide) hLarge] at hDigits
        cases hFront : Nat.toDigits 10 (n / 10) with
        | nil => exact absurd hFront Nat.toDigits_ne_nil
        | cons first more =>
            rw [hFront, List.cons_append, List.cons.injEq] at hDigits
            rw [hDigits.1] at hFront
            have hZero := ih (n / 10) (by omega) hFront
            omega

namespace Numeral

/- A row of digits is read up to what is none. -/
theorem readDigits?_append
    {digits rest : List Char}
    (hSome : digits ≠ [])
    (hDigits : ∀ c ∈ digits, c.isDigit = true)
    (hRest : Closes rest) :
    readDigits? (digits ++ rest) = some (digits, rest) := by
  have hEnd : rest.takeWhile Char.isDigit = [] := by
    cases rest with
    | nil => rfl
    | cons c rest => simp [(hRest c rfl).1]
  have hLeft : rest.dropWhile Char.isDigit = rest := by
    cases rest with
    | nil => rfl
    | cons c rest => simp [(hRest c rfl).1]
  have hTaken :
      (digits ++ rest).takeWhile Char.isDigit = digits := by
    rw [List.takeWhile_append_of_pos hDigits, hEnd, List.append_nil]
  have hDropped :
      (digits ++ rest).dropWhile Char.isDigit = rest := by
    rw [List.dropWhile_append_of_pos hDigits, hLeft]
  rw [readDigits?, hTaken, hDropped]
  cases digits with
  | nil => exact absurd rfl hSome
  | cons c digits => rfl

/- No number is written with a zero before other digits. -/
theorem readWhole?_toDigits
    (n : Nat)
    {rest : List Char}
    (hRest : Closes rest) :
    readWhole? (Nat.toDigits 10 n ++ rest) =
      some (Nat.toDigits 10 n, rest) := by
  have hDigits : ∀ c ∈ Nat.toDigits 10 n, c.isDigit = true :=
    fun c hc => Nat.isDigit_of_mem_toDigits (by decide) (by decide) hc
  rw [readWhole?, readDigits?_append Nat.toDigits_ne_nil hDigits hRest]
  split
  · next hZero =>
      rw [Option.some.injEq, Prod.mk.injEq] at hZero
      rw [eq_zero_of_toDigits hZero.1] at hZero
      simp at hZero
  · rfl

/- What closes a number is no fraction. -/
theorem readFraction?_of_closes
    {rest : List Char}
    (hRest : Closes rest) :
    readFraction? rest = some (none, rest) := by
  cases rest with
  | nil => rfl
  | cons c rest =>
      rw [readFraction?]
      intro _ hPoint
      rw [List.cons.injEq] at hPoint
      exact (hRest c rfl).2.1 hPoint.1

/- What closes a number is no exponent. -/
theorem readExponent?_of_closes
    {rest : List Char}
    (hRest : Closes rest) :
    readExponent? rest = some (none, rest) := by
  cases rest with
  | nil => rfl
  | cons c rest =>
      rw [readExponent?]
      · intro _ hLetter
        rw [List.cons.injEq] at hLetter
        exact (hRest c rfl).2.2.1 hLetter.1
      · intro _ hLetter
        rw [List.cons.injEq] at hLetter
        exact (hRest c rfl).2.2.2 hLetter.1

/- The digits of a natural number are read as a numeral. -/
theorem read?_toDigits
    (n : Nat)
    {rest : List Char}
    (hRest : Closes rest) :
    read? (Nat.toDigits 10 n ++ rest) =
      some (⟨false, Nat.toDigits 10 n, none, none⟩, rest) := by
  rw [read?]
  · rw [readUnsigned?, readWhole?_toDigits n hRest]
    simp [readFraction?_of_closes hRest, readExponent?_of_closes hRest]
  · intro more hSign
    rcases exists_toDigits_eq_cons n with ⟨c, digits, hFirst, hDigit⟩
    rw [hFirst, List.cons_append, List.cons.injEq] at hSign
    rw [hSign.1] at hDigit
    cases hDigit

/- A natural number of 64 bits is read back from its digits. -/
theorem number_toDigits
    {n : Nat}
    (hWord : n < wordSize) :
    number ⟨false, Nat.toDigits 10 n, none, none⟩ = .natural n := by
  have hValue : digitsValue 0 (Nat.toDigits 10 n) = n := by
    rw [digitsValue_eq, Nat.ofDigitChars_ten_toDigits]
  simp [number, hValue, hWord]

end Numeral

end Json

end ShapeTypes

------------------------------------------------------------
-- Values
------------------------------------------------------------

namespace ShapeTypes

namespace Json

variable {fuel : Nat} {rest : List Char}

/-
  A text writes a value: the value is read in front of what
  closes it.  In an array, the text is not taken for the end.
-/
structure Writes
    (text : List Char)
    (value : Json) : Prop where
  starts : ∃ c more, text = c :: more ∧ isGap c = false ∧ c ≠ ']'
  reads :
    ∀ fuel rest,
      2 * text.length ≤ fuel → Closes rest →
        readValue? fuel (text ++ rest) = some (value, rest)

/- A text writes a field: a key between quotes, a colon and a value. -/
def WritesField
    (text : List Char)
    (field : Option String × Json) : Prop :=
  ∃ key value,
    text = (quote key).toList ++ ':' :: value ∧
      field.1 = some key ∧ Writes value field.2

/- There is no gap before a character that is none. -/
theorem skipGap_cons
    {c : Char}
    (rest : List Char)
    (hGap : isGap c = false) :
    skipGap (c :: rest) = c :: rest := by
  simp [skipGap, hGap]

/- A character that a number does not go on with. -/
theorem closes_cons
    {c : Char}
    (rest : List Char)
    (hClose : c ∈ [',', ']', '\x7d']) :
    Closes (c :: rest) := by
  intro d hd
  cases hd
  simp only [List.mem_cons, List.not_mem_nil, or_false] at hClose
  rcases hClose with rfl | rfl | rfl <;> decide

/- It is enough to read the value in one step or more. -/
theorem Writes.of_step
    {text : List Char}
    {value : Json}
    (hStarts : ∃ c more, text = c :: more ∧ isGap c = false ∧ c ≠ ']')
    (hReads :
      ∀ fuel rest,
        2 * text.length ≤ fuel + 1 → Closes rest →
          readValue? (fuel + 1) (text ++ rest) = some (value, rest)) :
    Writes text value := by
  refine ⟨hStarts, ?_⟩
  intro fuel rest hFuel hRest
  rcases hStarts with ⟨c, more, rfl, -⟩
  cases fuel with
  | zero => simp at hFuel
  | succ fuel => exact hReads fuel rest hFuel hRest

theorem Writes.bool
    (value : Bool) :
    Writes (if value then "true" else "false").toList (.bool value) := by
  cases value with
  | true =>
      apply Writes.of_step ⟨'t', _, rfl, by decide, by decide⟩
      intro fuel rest _ _
      change readValue? (fuel + 1) ('t' :: 'r' :: 'u' :: 'e' :: rest) = _
      rw [readValue?, skipGap_cons _ (by decide)]
      rfl
  | false =>
      apply Writes.of_step ⟨'f', _, rfl, by decide, by decide⟩
      intro fuel rest _ _
      change
        readValue? (fuel + 1) ('f' :: 'a' :: 'l' :: 's' :: 'e' :: rest) = _
      rw [readValue?, skipGap_cons _ (by decide)]
      rfl

theorem Writes.string
    (text : String) :
    Writes (quote text).toList (.string (some text)) := by
  rw [quote, String.toList_ofList]
  apply Writes.of_step ⟨'"', _, rfl, by decide, by decide⟩
  intro fuel rest _ _
  rw [readValue?, List.cons_append, List.append_assoc,
    skipGap_cons _ (by decide)]
  simp [readText?_quoted]

theorem ne_of_isDigit
    {c d : Char}
    (hDigit : c.isDigit = true)
    (hOther : d.isDigit = false) :
    c ≠ d := by
  rintro rfl
  rw [hDigit] at hOther
  cases hOther

theorem isGap_of_isDigit
    {c : Char}
    (hDigit : c.isDigit = true) :
    isGap c = false := by
  simp [isGap, ne_of_isDigit hDigit]

/- A value that starts with a digit is a number. -/
theorem readValue?_digit
    {c : Char}
    (hDigit : c.isDigit = true) :
    readValue? (fuel + 1) (c :: rest) =
      (Numeral.read? (c :: rest)).map fun read =>
        (number read.1.number, read.2) := by
  rw [readValue?, skipGap_cons _ (isGap_of_isDigit hDigit)]
  -- Every other kind of value starts with a character that is no digit.
  have hNe :
      ∀ d more, d.isDigit = false → c :: rest ≠ d :: more := by
    intro d more hNot hText
    exact ne_of_isDigit hDigit hNot (List.cons.inj hText).1
  split
  · next hText => exact absurd hText (hNe _ _ (by decide))
  · next hText => exact absurd hText (hNe _ _ (by decide))
  · next hText => exact absurd hText (hNe _ _ (by decide))
  · next hText => exact absurd hText (hNe _ _ (by decide))
  · next hText => exact absurd hText (hNe _ _ (by decide))
  · next hText => exact absurd hText (hNe _ _ (by decide))
  · rfl

theorem Writes.natural
    {n : Nat}
    (hWord : n < Numeral.wordSize) :
    Writes (toString n).toList (.number (.natural n)) := by
  rw [Nat.toString_eq_ofList_toDigits, String.toList_ofList]
  rcases exists_toDigits_eq_cons n with ⟨c, digits, hDigits, hDigit⟩
  rw [hDigits]
  apply Writes.of_step
    ⟨c, digits, rfl, isGap_of_isDigit hDigit,
      ne_of_isDigit hDigit (by decide)⟩
  intro fuel rest _ hRest
  have hRead := Numeral.read?_toDigits n hRest
  rw [hDigits, List.cons_append] at hRead
  rw [List.cons_append, readValue?_digit hDigit, hRead, ← hDigits,
    Option.map_some, Numeral.number_toDigits hWord]

end Json

end ShapeTypes

------------------------------------------------------------
-- Arrays and Objects
------------------------------------------------------------

namespace ShapeTypes

namespace Json

variable {fuel : Nat} {rest : List Char} {texts : List (List Char)}

/- The first of several texts stands before a comma. -/
theorem intercalate_cons_append
    {text : List Char}
    (hOthers : texts ≠ [])
    (rest : List Char) :
    [','].intercalate (text :: texts) ++ rest =
      text ++ ',' :: ([','].intercalate texts ++ rest) := by
  rw [List.intercalate_cons_of_ne_nil hOthers]
  simp

/- The items of an array are read one by one. -/
theorem readItems?_intercalate
    {items : List Json}
    (hWrites : List.Forall₂ Writes texts items)
    (hSome : texts ≠ [])
    (hFuel : 2 * ([','].intercalate texts).length < fuel) :
    readItems? fuel ([','].intercalate texts ++ ']' :: rest) =
      some (items, rest) := by
  induction hWrites generalizing fuel with
  | nil => exact absurd rfl hSome
  | @cons text item texts items hFirst hLater ih =>
      cases fuel with
      | zero => exact absurd hFuel (Nat.not_lt_zero _)
      | succ fuel =>
          rw [readItems?]
          by_cases hLast : texts = []
          · subst hLast
            cases hLater
            rw [List.intercalate_singleton] at hFuel ⊢
            rw [hFirst.reads fuel _ (by omega)
              (closes_cons rest (by decide))]
            rfl
          · rw [List.intercalate_cons_of_ne_nil hLast,
              List.length_append, List.length_append,
              List.length_singleton] at hFuel
            rw [intercalate_cons_append hLast, hFirst.reads fuel _
              (by omega) (closes_cons _ (by decide))]
            simpa [skipGap_cons, isGap] using ih hLast (by omega)

/- A key is read with the colon behind it. -/
theorem readKey?_quote
    (key : String)
    (rest : List Char) :
    readKey? ((quote key).toList ++ ':' :: rest) = some (some key, rest) := by
  rw [quote, String.toList_ofList, List.cons_append, List.append_assoc,
    readKey?, List.singleton_append]
  simp [skipGap_cons, isGap, readText?_quoted]

/- The fields of an object are read one by one. -/
theorem readFields?_intercalate
    {fields : List (Option String × Json)}
    (hWrites : List.Forall₂ WritesField texts fields)
    (hSome : texts ≠ [])
    (hFuel : 2 * ([','].intercalate texts).length < fuel) :
    readFields? fuel ([','].intercalate texts ++ '\x7d' :: rest) =
      some (fields, rest) := by
  induction hWrites generalizing fuel with
  | nil => exact absurd rfl hSome
  | @cons text field texts fields hFirst hLater ih =>
      rcases field with ⟨_, value⟩
      rcases hFirst with ⟨key, valueText, rfl, rfl, hValue⟩
      cases fuel with
      | zero => exact absurd hFuel (Nat.not_lt_zero _)
      | succ fuel =>
          rw [readFields?]
          by_cases hLast : texts = []
          · subst hLast
            cases hLater
            rw [List.intercalate_singleton] at hFuel ⊢
            rw [List.length_append, List.length_cons] at hFuel
            rw [List.append_assoc, List.cons_append, readKey?_quote]
            dsimp only
            rw [hValue.reads fuel _ (by omega)
              (closes_cons rest (by decide))]
            rfl
          · rw [List.intercalate_cons_of_ne_nil hLast,
              List.length_append, List.length_append,
              List.length_append, List.length_cons,
              List.length_singleton] at hFuel
            rw [intercalate_cons_append hLast, List.append_assoc,
              List.cons_append, readKey?_quote]
            dsimp only
            rw [hValue.reads fuel _ (by omega)
              (closes_cons _ (by decide))]
            simpa [skipGap_cons, isGap] using ih hLast (by omega)

/- Behind a bracket come the items, if the array does not end there. -/
theorem readValue?_bracket
    {c : Char}
    (hGap : isGap c = false)
    (hNotEnd : c ≠ ']') :
    readValue? (fuel + 1) ('[' :: c :: rest) =
      (readItems? fuel (c :: rest)).map fun read =>
        (array read.1, read.2) := by
  rw [readValue?, skipGap_cons _ (by decide)]
  simp [skipGap_cons _ hGap, hNotEnd]

/- Behind a brace come the fields, if there is a key. -/
theorem readValue?_brace :
    readValue? (fuel + 1) ('\x7b' :: '"' :: rest) =
      (readFields? fuel ('"' :: rest)).map fun read =>
        (object read.1, read.2) := by
  rw [readValue?, skipGap_cons _ (by decide)]
  simp [skipGap_cons, isGap]

theorem Writes.array
    {items : List Json}
    (hWrites : List.Forall₂ Writes texts items) :
    Writes ('[' :: ([','].intercalate texts ++ [']'])) (.array items) := by
  apply Writes.of_step ⟨'[', _, rfl, by decide, by decide⟩
  intro fuel rest hFuel _
  rw [List.length_cons, List.length_append, List.length_singleton] at hFuel
  rw [List.cons_append, List.append_assoc, List.singleton_append]
  cases hWrites with
  | nil => rfl
  | @cons text item texts items hFirst hLater =>
      have hRead :
          readItems? fuel
              ([','].intercalate (text :: texts) ++ ']' :: rest) =
            some (item :: items, rest) :=
        readItems?_intercalate (.cons hFirst hLater) (by simp) (by omega)
      -- The first item does not look like the end of the array.
      rcases hFirst.starts with ⟨c, more, rfl, hGap, hNotEnd⟩
      rw [List.intercalate_cons_cons_left, List.cons_append] at hRead ⊢
      rw [readValue?_bracket hGap hNotEnd, hRead]
      rfl

theorem Writes.object
    {fields : List (Option String × Json)}
    (hWrites : List.Forall₂ WritesField texts fields) :
    Writes ('\x7b' :: ([','].intercalate texts ++ ['\x7d']))
      (.object fields) := by
  apply Writes.of_step ⟨'\x7b', _, rfl, by decide, by decide⟩
  intro fuel rest hFuel _
  rw [List.length_cons, List.length_append, List.length_singleton] at hFuel
  rw [List.cons_append, List.append_assoc, List.singleton_append]
  cases hWrites with
  | nil => rfl
  | @cons text field texts fields hFirst hLater =>
      have hRead :
          readFields? fuel
              ([','].intercalate (text :: texts) ++ '\x7d' :: rest) =
            some (field :: fields, rest) :=
        readFields?_intercalate (.cons hFirst hLater) (by simp) (by omega)
      -- The first field starts with the quote of its key.
      rcases hFirst with ⟨key, value, rfl, -⟩
      rw [quote, String.toList_ofList, List.cons_append,
        List.intercalate_cons_cons_left, List.cons_append] at hRead ⊢
      rw [readValue?_brace, hRead]
      rfl

/- A document that writes a value is read as the value. -/
theorem Writes.read?_eq
    {text : String}
    {value : Json}
    (hWrites : Writes text.toList value) :
    read? text = some value := by
  have hRead :=
    hWrites.reads (2 * text.length + 2) []
      (by rw [String.length_toList]; omega) (by simp [Closes])
  rw [List.append_nil] at hRead
  rw [read?, hRead]
  rfl

end Json

end ShapeTypes
