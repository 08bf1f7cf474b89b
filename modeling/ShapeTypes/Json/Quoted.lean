/-
  Strings as JSON writes them.

  Key definitions include:
    * `ShapeTypes.Json.Piece`
    * `ShapeTypes.Json.readPieces?`
    * `ShapeTypes.Json.textOfPieces?`
    * `ShapeTypes.Json.quote`
-/

namespace ShapeTypes

namespace Json

------------------------------------------------------------
-- Reading
------------------------------------------------------------

/- What stands between quotes: characters and escaped code units. -/
inductive Piece where
  | char (c : Char)
  | unit (value : Nat)
deriving DecidableEq, Repr

/- The value of a hexadecimal digit. -/
def hexValue?
    (c : Char) :
    Option Nat :=
  if c.isDigit then
    some (c.toNat - '0'.toNat)
  else if 'a' ≤ c ∧ c ≤ 'f' then
    some (c.toNat - 'a'.toNat + 10)
  else if 'A' ≤ c ∧ c ≤ 'F' then
    some (c.toNat - 'A'.toNat + 10)
  else
    none

/- The code unit that four hexadecimal digits write. -/
def unitValue?
    (a b c d : Char) :
    Option Nat := do
  let a ← hexValue? a
  let b ← hexValue? b
  let c ← hexValue? c
  let d ← hexValue? d
  pure (((a * 16 + b) * 16 + c) * 16 + d)

/- The character behind a backslash stands for this one. -/
def unescape? : Char → Option Char
  | '"' => some '"'
  | '\\' => some '\\'
  | '/' => some '/'
  | 'b' => some '\x08'
  | 'f' => some '\x0c'
  | 'n' => some '\n'
  | 'r' => some '\r'
  | 't' => some '\t'
  | _ => none

/- Read up to the closing quote. -/
def readPieces? : List Char → Option (List Piece × List Char)
  | [] => none
  | '"' :: rest => some ([], rest)
  | '\\' :: 'u' :: a :: b :: c :: d :: rest => do
      let value ← unitValue? a b c d
      let (pieces, rest) ← readPieces? rest
      pure (.unit value :: pieces, rest)
  | '\\' :: c :: rest => do
      let c ← unescape? c
      let (pieces, rest) ← readPieces? rest
      pure (.char c :: pieces, rest)
  | c :: rest =>
      if c.toNat < 0x20 ∨ c = '\\' then
        none
      else do
        let (pieces, rest) ← readPieces? rest
        pure (.char c :: pieces, rest)

/- A code unit that starts a pair. -/
def isHighUnit
    (value : Nat) :
    Bool :=
  0xd800 ≤ value && value ≤ 0xdbff

/- A code unit that ends a pair. -/
def isLowUnit
    (value : Nat) :
    Bool :=
  0xdc00 ≤ value && value ≤ 0xdfff

/-
  The text that pieces write.  Half of a pair alone writes
  none.
-/
def textOfPieces? : List Piece → Option (List Char)
  | [] => some []
  | .char c :: rest => (textOfPieces? rest).map (c :: ·)
  | .unit high :: .unit low :: rest =>
      if isHighUnit high then
        if isLowUnit low then
          (textOfPieces? rest).map
            (Char.ofNat (0x10000 + (high - 0xd800) * 0x400 + (low - 0xdc00))
              :: ·)
        else
          none
      else if isLowUnit high then
        none
      else
        (textOfPieces? (.unit low :: rest)).map (Char.ofNat high :: ·)
  | .unit value :: rest =>
      if isHighUnit value || isLowUnit value then
        none
      else
        (textOfPieces? rest).map (Char.ofNat value :: ·)

------------------------------------------------------------
-- Writing
------------------------------------------------------------

/- A hexadecimal digit. -/
def hexDigit
    (n : Nat) :
    Char :=
  Char.ofNat (if n < 10 then '0'.toNat + n else 'a'.toNat + (n - 10))

/- A character as it stands between quotes. -/
def escape
    (c : Char) :
    List Char :=
  if c = '"' then ['\\', '"']
  else if c = '\\' then ['\\', '\\']
  else if c = '\n' then ['\\', 'n']
  else if c = '\r' then ['\\', 'r']
  else if c = '\t' then ['\\', 't']
  else if c = '\x08' then ['\\', 'b']
  else if c = '\x0c' then ['\\', 'f']
  else if c.toNat < 0x20 then
    ['\\', 'u', '0', '0', hexDigit (c.toNat / 16), hexDigit (c.toNat % 16)]
  else
    [c]

/- A text between quotes. -/
def quote
    (text : String) :
    String :=
  String.ofList ('"' :: (text.toList.flatMap escape ++ ['"']))

end Json

end ShapeTypes
