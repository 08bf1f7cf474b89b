import ShapeTypes.Text.Offset

/-
  The files that a command works on.

  Key definitions include:
    * `ShapeTypes.Content`
    * `ShapeTypes.Directory`
    * `ShapeTypes.Directory.find`
    * `ShapeTypes.Directory.readText`
    * `ShapeTypes.Directory.write`
-/

namespace ShapeTypes

------------------------------------------------------------
-- Files
------------------------------------------------------------

/- What is in a file: a text, or bytes that are none. -/
inductive Content where
  | text (value : String)
  | binary (bytes : List UInt8)
deriving DecidableEq, Repr

/-
  The files that there are.  A name is a path from the
  working directory without detours, its parts divided by
  slashes.
-/
abbrev Directory :=
  List (String × Content)

/- What a path leads to. -/
inductive Entry where
  | missing
  | notDirectory
  | tooLong
  | directory
  | file (name : String) (content : Content)
deriving DecidableEq, Repr

/- Why a file cannot be read. -/
inductive ReadError where
  | missing
  | notDirectory
  | tooLong
  | isDirectory
  | notText
deriving DecidableEq, Repr

/- The text that reports a failure. -/
def ReadError.message : ReadError → String
  | missing => "No such file or directory (os error 2)"
  | notDirectory => "Not a directory (os error 20)"
  | tooLong => "File name too long (os error 36)"
  | isDirectory => "Is a directory (os error 21)"
  | notText => "stream did not contain valid UTF-8"

namespace Directory

------------------------------------------------------------
-- Paths
------------------------------------------------------------

/- The length in bytes that a path may have. -/
def pathLimit : Nat :=
  4095

/- The length in bytes that a name in a directory may have. -/
def nameLimit : Nat :=
  255

/- The parts of a path between its slashes. -/
def parts : List Char → List (List Char)
  | [] => [[]]
  | c :: cs =>
      match c == '/', parts cs with
      | true, rest => [] :: rest
      | false, part :: rest => (c :: part) :: rest
      | false, [] => [[c]]

/- The name of the place that some parts lead to. -/
def nameOf
    (place : List String) :
    String :=
  "/".intercalate place

/- Some file lies below a place. -/
def hasFileBelow
    (files : Directory)
    (place : List String) :
    Bool :=
  files.any fun file => (nameOf place ++ "/").isPrefixOf file.1

/-
  The place above another.  Above the working directory
  places are called after the steps that lead up to them,
  and above the root is the root.
-/
def above
    (place : List String) :
    List String :=
  if place = [""] then
    place
  else if place.all (· == "..") then
    place ++ [".."]
  else
    place.dropLast

/-
  Follow the parts of a path from a place that is a
  directory.  A name is measured when it is looked up, so a
  part before it that leads nowhere is reported first.
-/
def follow
    (files : Directory) :
    (place : List String) → List String → Entry
  | _, [] => .directory
  | place, part :: rest =>
      if part = "" ∨ part = "." then
        follow files place rest
      else if part = ".." then
        follow files (above place) rest
      else if nameLimit < Text.byteLength part.toList then
        .tooLong
      else
        let next := place ++ [part]
        match List.lookup (nameOf next) files with
        | some content =>
            if rest = [] then .file (nameOf next) content else .notDirectory
        | none =>
            if hasFileBelow files next then follow files next rest
            else .missing

/-
  What a path leads to.  A path as a whole is measured
  before any of its parts is followed.
-/
def find
    (files : Directory)
    (path : String) :
    Entry :=
  if pathLimit < Text.byteLength path.toList then
    .tooLong
  else
    match path.toList with
    | [] => .missing
    | '/' :: cs => follow files [""] ((parts cs).map String.ofList)
    | cs => follow files [] ((parts cs).map String.ofList)

/- The place that a path names, whether or not anything is there. -/
def placeOf
    (path : String) :
    List String :=
  let start := if path.toList.head? = some '/' then [""] else []
  ((parts path.toList).map String.ofList).foldl
    (fun place part =>
      if part = "" ∨ part = "." then place
      else if part = ".." then above place
      else place ++ [part])
    start

------------------------------------------------------------
-- Reading and Writing
------------------------------------------------------------

/- Something stands at a path. -/
def Exists
    (files : Directory)
    (path : String) : Prop :=
  match files.find path with
  | .directory => True
  | .file _ _ => True
  | _ => False

instance
    (files : Directory)
    (path : String) :
    Decidable (files.Exists path) := by
  unfold Exists
  split <;> infer_instance

/- Read the text of a file. -/
def readText
    (files : Directory)
    (path : String) :
    Except ReadError String :=
  match files.find path with
  | .missing => .error .missing
  | .notDirectory => .error .notDirectory
  | .tooLong => .error .tooLong
  | .directory => .error .isDirectory
  | .file _ (.binary _) => .error .notText
  | .file _ (.text value) => .ok value

/- Put a text into an existing file. -/
def write
    (files : Directory)
    (path : String)
    (text : String) :
    Directory :=
  match files.find path with
  | .file name _ =>
      files.map fun file => if file.1 = name then (name, .text text) else file
  | _ => files

end Directory

end ShapeTypes
