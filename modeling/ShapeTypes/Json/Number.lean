/-
  Numbers as JSON writes them.

  A number is read into a significand of at most 64 bits and
  a power of ten.  Digits that no longer fit are dropped.
  The number is within bounds if the product does not round
  to infinity in double precision.

  Key definitions include:
    * `ShapeTypes.Json.Numeral`
    * `ShapeTypes.Json.Numeral.read?`
    * `ShapeTypes.Json.Number`
    * `ShapeTypes.Json.Numeral.number`
-/

namespace ShapeTypes

namespace Json

------------------------------------------------------------
-- Digits
------------------------------------------------------------

/- The value of a decimal digit. -/
def digitValue
    (c : Char) :
    Nat :=
  c.toNat - '0'.toNat

/- The value of a row of digits, behind those already read. -/
def digitsValue : (read : Nat) → List Char → Nat
  | read, [] => read
  | read, c :: cs => digitsValue (10 * read + digitValue c) cs

------------------------------------------------------------
-- Numerals
------------------------------------------------------------

/- The exponent of a numeral. -/
structure Exponent where
  isNegative : Bool
  digits : List Char
deriving DecidableEq, Repr

/- The value of an exponent. -/
def Exponent.value
    (exponent : Exponent) :
    Int :=
  if exponent.isNegative then
    -(digitsValue 0 exponent.digits : Int)
  else
    digitsValue 0 exponent.digits

/- The parts of a number as it is written. -/
structure Numeral where
  isNegative : Bool
  whole : List Char
  fraction : Option (List Char)
  exponent : Option Exponent
deriving DecidableEq, Repr

namespace Numeral

/- Read a row of digits, at least one. -/
def readDigits?
    (cs : List Char) :
    Option (List Char × List Char) :=
  match cs.takeWhile Char.isDigit with
  | [] => none
  | digits => some (digits, cs.dropWhile Char.isDigit)

/- Read the digits before the point: no zero stands before others. -/
def readWhole?
    (cs : List Char) :
    Option (List Char × List Char) :=
  match readDigits? cs with
  | some ('0' :: _ :: _, _) => none
  | result => result

/- Read the digits behind a point, if there is one. -/
def readFraction? : List Char → Option (Option (List Char) × List Char)
  | '.' :: cs => (readDigits? cs).map fun (digits, rest) => (some digits, rest)
  | cs => some (none, cs)

/- Read the sign and digits of an exponent. -/
def readSigned? : List Char → Option (Exponent × List Char)
  | '+' :: cs => (readDigits? cs).map fun (digits, rest) => (⟨false, digits⟩, rest)
  | '-' :: cs => (readDigits? cs).map fun (digits, rest) => (⟨true, digits⟩, rest)
  | cs => (readDigits? cs).map fun (digits, rest) => (⟨false, digits⟩, rest)

/- Read an exponent, if there is one. -/
def readExponent? : List Char → Option (Option Exponent × List Char)
  | 'e' :: cs => (readSigned? cs).map fun (exponent, rest) => (some exponent, rest)
  | 'E' :: cs => (readSigned? cs).map fun (exponent, rest) => (some exponent, rest)
  | cs => some (none, cs)

/- Read a numeral without its sign. -/
def readUnsigned?
    (isNegative : Bool)
    (cs : List Char) :
    Option (Numeral × List Char) := do
  let (whole, cs) ← readWhole? cs
  let (fraction, cs) ← readFraction? cs
  let (exponent, cs) ← readExponent? cs
  pure (⟨isNegative, whole, fraction, exponent⟩, cs)

/- Read a numeral. -/
def read? : List Char → Option (Numeral × List Char)
  | '-' :: cs => readUnsigned? true cs
  | cs => readUnsigned? false cs

------------------------------------------------------------
-- Bounds
------------------------------------------------------------

/- The first value that does not fit in 64 bits. -/
def wordSize : Nat :=
  Nat.pow 2 64

/-
  Add whole digits to a significand as long as they fit.
  Gives also the number of digits dropped.
-/
def absorbWhole : (significand : Nat) → List Char → Nat × Nat
  | significand, [] => (significand, 0)
  | significand, c :: cs =>
      if 10 * significand + digitValue c < wordSize then
        absorbWhole (10 * significand + digitValue c) cs
      else
        (significand, cs.length + 1)

/-
  Add digits behind the point as long as they fit.  Gives
  also the number of digits added.
-/
def absorbFraction : (significand added : Nat) → List Char → Nat × Nat
  | significand, added, [] => (significand, added)
  | significand, added, c :: cs =>
      if 10 * significand + digitValue c < wordSize then
        absorbFraction (10 * significand + digitValue c) (added + 1) cs
      else
        (significand, added)

/- The nearest number of 53 significant bits; a tie goes to the even one. -/
def roundToDouble
    (n : Nat) :
    Nat :=
  if n < Nat.pow 2 53 then
    n
  else
    let unit := Nat.pow 2 (n.log2 - 52)
    let low := n / unit
    if unit < 2 * (n % unit) ∨ unit = 2 * (n % unit) ∧ low % 2 = 1 then
      (low + 1) * unit
    else
      low * unit

/- The least number that rounds to infinity in double precision. -/
def infinity : Nat :=
  Nat.pow 2 1024 - Nat.pow 2 970

/- A significand times a power of ten stays below infinity. -/
def fits
    (significand : Nat)
    (exponent : Int) :
    Bool :=
  if significand = 0 ∨ exponent < 0 then
    true
  else if 308 < exponent then
    false
  else
    roundToDouble significand
        * roundToDouble (Nat.pow 10 exponent.toNat) < infinity

/- The number stays below infinity. -/
def isBounded
    (numeral : Numeral) :
    Bool :=
  let (whole, dropped) := absorbWhole 0 numeral.whole
  let (significand, added) :=
    absorbFraction whole 0 (numeral.fraction.getD [])
  let shift : Int :=
    match numeral.exponent with
    | some exponent => exponent.value
    | none => 0
  fits significand (dropped - added + shift)

end Numeral

------------------------------------------------------------
-- Numbers
------------------------------------------------------------

/-
  A number: a natural number of at most 64 bits written
  with digits alone, another number within bounds, or one
  beyond them.
-/
inductive Number where
  | natural (value : Nat)
  | other
  | unbounded
deriving DecidableEq, Repr

/- The number that a numeral writes. -/
def Numeral.number
    (numeral : Numeral) :
    Number :=
  let value := digitsValue 0 numeral.whole
  if numeral.isNegative = false ∧ numeral.fraction = none
      ∧ numeral.exponent = none ∧ value < Numeral.wordSize then
    .natural value
  else if numeral.isBounded then
    .other
  else
    .unbounded

end Json

end ShapeTypes
