import ShapeTypes.Json.Number
import ShapeTypes.Json.Quoted

/-
  JSON documents.

  A document keeps the fields of its objects in order, with
  repeated keys.  A string whose escapes write no text has
  none.

  Key definitions include:
    * `ShapeTypes.Json`
    * `ShapeTypes.Json.isSound`
    * `ShapeTypes.Json.read?`
-/

namespace ShapeTypes

------------------------------------------------------------
-- Values
------------------------------------------------------------

/- A JSON value. -/
inductive Json where
  | null
  | bool (value : Bool)
  | number (value : Json.Number)
  | string (text : Option String)
  | array (items : List Json)
  | object (fields : List (Option String × Json))

namespace Json

mutual

/-
  Every string writes a text, every number is within bounds,
  and arrays and objects are nested at most `levels` deep.
-/
def isSound : (levels : Nat) → Json → Bool
  | _, null => true
  | _, bool _ => true
  | _, number value => value != .unbounded
  | _, string text => text.isSome
  | 0, array _ => false
  | levels + 1, array items => areSound levels items
  | 0, object _ => false
  | levels + 1, object fields => areSoundFields levels fields

/- Every value is sound. -/
def areSound : (levels : Nat) → List Json → Bool
  | _, [] => true
  | levels, item :: items => isSound levels item && areSound levels items

/- Every key writes a text and every value is sound. -/
def areSoundFields :
    (levels : Nat) → List (Option String × Json) → Bool
  | _, [] => true
  | levels, (key, value) :: fields =>
      key.isSome && isSound levels value && areSoundFields levels fields

end

------------------------------------------------------------
-- Reading
------------------------------------------------------------

/- A character that may stand between tokens. -/
def isGap
    (c : Char) :
    Bool :=
  c == ' ' || c == '\t' || c == '\n' || c == '\r'

/- The rest of a document from the next token on. -/
def skipGap
    (cs : List Char) :
    List Char :=
  cs.dropWhile isGap

/- Read a string behind its opening quote. -/
def readText?
    (cs : List Char) :
    Option (Option String × List Char) :=
  (readPieces? cs).map fun (pieces, rest) =>
    ((textOfPieces? pieces).map String.ofList, rest)

mutual

/-
  Read a value.  A call either reads a character or is made
  by one that did, so fuel twice the length is enough.
-/
def readValue? : (fuel : Nat) → List Char → Option (Json × List Char)
  | 0, _ => none
  | fuel + 1, cs =>
      match skipGap cs with
      | 'n' :: 'u' :: 'l' :: 'l' :: rest => some (null, rest)
      | 't' :: 'r' :: 'u' :: 'e' :: rest => some (bool true, rest)
      | 'f' :: 'a' :: 'l' :: 's' :: 'e' :: rest => some (bool false, rest)
      | '"' :: rest =>
          (readText? rest).map fun (text, rest) => (string text, rest)
      | '[' :: rest =>
          match skipGap rest with
          | ']' :: rest => some (array [], rest)
          | rest =>
              (readItems? fuel rest).map fun (items, rest) =>
                (array items, rest)
      | '\x7b' :: rest =>
          match skipGap rest with
          | '\x7d' :: rest => some (object [], rest)
          | rest =>
              (readFields? fuel rest).map fun (fields, rest) =>
                (object fields, rest)
      | rest =>
          (Numeral.read? rest).map fun (numeral, rest) =>
            (number numeral.number, rest)

/- Read the items of an array and its closing bracket. -/
def readItems? : (fuel : Nat) → List Char → Option (List Json × List Char)
  | 0, _ => none
  | fuel + 1, cs =>
      match readValue? fuel cs with
      | none => none
      | some (item, rest) =>
          match skipGap rest with
          | ']' :: rest => some ([item], rest)
          | ',' :: rest =>
              (readItems? fuel rest).map fun (items, rest) =>
                (item :: items, rest)
          | _ => none

/- Read the fields of an object and its closing brace. -/
def readFields? :
    (fuel : Nat) → List Char →
      Option (List (Option String × Json) × List Char)
  | 0, _ => none
  | fuel + 1, cs =>
      match readKey? cs with
      | none => none
      | some (key, rest) =>
          match readValue? fuel rest with
          | none => none
          | some (value, rest) =>
              match skipGap rest with
              | '\x7d' :: rest => some ([(key, value)], rest)
              | ',' :: rest =>
                  (readFields? fuel rest).map fun (fields, rest) =>
                    ((key, value) :: fields, rest)
              | _ => none

/- Read a key and the colon behind it. -/
def readKey?
    (cs : List Char) :
    Option (Option String × List Char) :=
  match skipGap cs with
  | '"' :: rest =>
      match readText? rest with
      | none => none
      | some (key, rest) =>
          match skipGap rest with
          | ':' :: rest => some (key, rest)
          | _ => none
  | _ => none

end

/- Read a whole document. -/
def read?
    (text : String) :
    Option Json :=
  match readValue? (2 * text.length + 2) text.toList with
  | some (value, rest) => if skipGap rest = [] then some value else none
  | none => none

end Json

end ShapeTypes
