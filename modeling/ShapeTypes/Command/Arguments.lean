import ShapeTypes.Span

/-
  The arguments of the command line.

  Arguments are read from left to right.  Options may stand
  before or behind the name of the command, and behind `--`
  every argument is a plain one.

  Key definitions include:
    * `ShapeTypes.Command`
    * `ShapeTypes.Invocation`
    * `ShapeTypes.Halt`
    * `ShapeTypes.Arguments.Segment`
    * `ShapeTypes.Arguments.Segment.read`
    * `ShapeTypes.Invocation.ofArguments`
-/

namespace ShapeTypes

------------------------------------------------------------
-- Commands
------------------------------------------------------------

/- What the program is asked to do. -/
inductive Command where
  | scan (path : String)
  | infer (path : String) (range : SourceRange)
  | fix (path : String) (write : Bool)
  | selfTest
deriving DecidableEq, Repr

/- A command with the options that every command has. -/
structure Invocation where
  verbosity : Nat
  config : Option String
  command : Command
deriving DecidableEq, Repr

/- Why no command is run. -/
inductive Halt where
  | version
  | help
  | misuse
deriving DecidableEq, Repr

namespace Arguments

------------------------------------------------------------
-- Values
------------------------------------------------------------

/- What the value of an option may be. -/
inductive ValueKind where
  | path
  | number
deriving DecidableEq, Repr

/- The value of a row of decimal digits, at least one. -/
def digitsValue?
    (cs : List Char) :
    Option Nat :=
  if cs ≠ [] ∧ cs.all Char.isDigit then
    some (cs.foldl (fun n c => 10 * n + (c.toNat - '0'.toNat)) 0)
  else
    none

/- A number of at most 32 bits.  A sign may stand before it. -/
def number?
    (text : String) :
    Option Nat :=
  let value :=
    match text.toList with
    | '+' :: cs => digitsValue? cs
    | '-' :: cs => (digitsValue? cs).filter (· == 0)
    | cs => digitsValue? cs
  value.filter (· < Nat.pow 2 32)

/- The text is a value of the kind. -/
def ValueKind.accepts
    (text : String) :
    ValueKind → Bool
  | path => text != ""
  | number => (number? text).isSome

------------------------------------------------------------
-- Segments
------------------------------------------------------------

/-
  What may stand on one segment of the command line: options
  with a value, switches, plain arguments, and the names of
  commands, which end the segment.
-/
structure Segment where
  options : List (String × ValueKind)
  switches : List String := []
  plain : Nat := 0
  commands : List String := []
  hasVersion : Bool := false
deriving DecidableEq, Repr

/- What was given on one segment. -/
structure Given where
  verbosity : Nat := 0
  values : List (String × String) := []
  switches : List String := []
  plain : List String := []
deriving DecidableEq, Repr

namespace Given

/- The value of an option. -/
def value?
    (given : Given)
    (name : String) :
    Option String :=
  (given.values.find? (·.1 == name)).map (·.2)

/- The value of an option that takes a number. -/
def numberOf?
    (given : Given)
    (name : String) :
    Option Nat :=
  (given.value? name).bind number?

/- Count one wish for more reports. -/
def louder
    (given : Given) :
    Given :=
  { given with verbosity := given.verbosity + 1 }

end Given

namespace Segment

/- Take a plain argument. -/
def addPlain
    (segment : Segment)
    (given : Given)
    (text : String) :
    Except Halt Given :=
  if given.plain.length < segment.plain ∧ text ≠ "" then
    .ok { given with plain := given.plain ++ [text] }
  else
    .error .misuse

/- Take the value of an option, which may be given only once. -/
def addValue
    (segment : Segment)
    (given : Given)
    (name value : String) :
    Except Halt Given :=
  match segment.options.find? (·.1 == name) with
  | some (_, kind) =>
      if kind.accepts value ∧ given.value? name = none then
        .ok { given with values := given.values ++ [(name, value)] }
      else
        .error .misuse
  | none => .error .misuse

/- Take a switch, which may be given only once. -/
def addSwitch
    (segment : Segment)
    (given : Given)
    (name : String) :
    Except Halt Given :=
  if name = "help" then
    .error .help
  else if name = "version" ∧ segment.hasVersion then
    .error .version
  else if name = "verbose" then
    .ok given.louder
  else if name ∈ segment.switches ∧ name ∉ given.switches then
    .ok { given with switches := given.switches ++ [name] }
  else
    .error .misuse

/- Take the letters behind a single hyphen. -/
def addLetters
    (segment : Segment) :
    (given : Given) → List Char → Except Halt Given
  | given, [] => .ok given
  | given, c :: cs =>
      if c = 'h' then
        .error .help
      else if c = 'V' ∧ segment.hasVersion then
        .error .version
      else if c = 'v' then
        segment.addLetters given.louder cs
      else
        .error .misuse

/- An argument by what it starts with. -/
inductive Shape where
  | separator
  | long (name : String) (value : Option String)
  | letters (cs : List Char)
  | plain
deriving DecidableEq, Repr

/- The shape of an argument. -/
def Shape.of
    (text : String) :
    Shape :=
  match text.toList with
  | ['-', '-'] => separator
  | '-' :: '-' :: cs =>
      let name := String.ofList (cs.takeWhile (· ≠ '='))
      match cs.dropWhile (· ≠ '=') with
      | _ :: value => long name (some (String.ofList value))
      | [] => long name none
  | '-' :: c :: cs => letters (c :: cs)
  | _ => plain

/- Take plain arguments only. -/
def readPlain
    (segment : Segment) :
    (given : Given) → List String → Except Halt Given
  | given, [] => .ok given
  | given, text :: rest =>
      match segment.addPlain given text with
      | .ok given => segment.readPlain given rest
      | .error halt => .error halt

/- Take an argument that is neither a value nor behind `--`. -/
def addShape
    (segment : Segment)
    (given : Given)
    (text : String) :
    Shape → Except Halt Given
  | .separator => .ok given
  | .long name (some value) => segment.addValue given name value
  | .long name none => segment.addSwitch given name
  | .letters cs => segment.addLetters given cs
  | .plain => segment.addPlain given text

/-
  Read the arguments of a segment.  Gives also the arguments
  from the name of a command on.
-/
def read
    (segment : Segment) :
    (given : Given) → List String → Except Halt (Given × List String)
  | given, [] => .ok (given, [])
  | given, text :: rest =>
      if text ∈ segment.commands then
        .ok (given, text :: rest)
      else
        match Shape.of text with
        | .separator => (segment.readPlain given rest).map (·, [])
        | .long name none =>
            if segment.options.any (·.1 == name) then
              match rest with
              | value :: rest =>
                  if Shape.of value = .plain then
                    match segment.addValue given name value with
                    | .ok given => segment.read given rest
                    | .error halt => .error halt
                  else
                    .error .misuse
              | [] => .error .misuse
            else
              match segment.addSwitch given name with
              | .ok given => segment.read given rest
              | .error halt => .error halt
        | shape =>
            match segment.addShape given text shape with
            | .ok given => segment.read given rest
            | .error halt => .error halt

end Segment

------------------------------------------------------------
-- The Program's Segments
------------------------------------------------------------

/- The option that every segment has. -/
def shared : List (String × ValueKind) :=
  [("config", .path)]

/- What stands before the command. -/
def top : Segment where
  options := shared
  commands := ["scan", "infer", "fix", "self-test", "help"]
  hasVersion := true

/- What stands behind `scan`. -/
def scanSegment : Segment where
  options := shared
  plain := 1

/- What stands behind `infer`. -/
def inferSegment : Segment where
  options :=
    shared
      ++ [("line", .number), ("column", .number), ("end-line", .number),
          ("end-column", .number)]
  plain := 1

/- What stands behind `fix`. -/
def fixSegment : Segment where
  options := shared
  switches := ["write"]
  plain := 1

/- What stands behind `self-test`. -/
def selfTestSegment : Segment where
  options := shared

/- The range that the options of `infer` select. -/
def range?
    (given : Given) :
    Option SourceRange := do
  let line ← given.numberOf? "line"
  let column ← given.numberOf? "column"
  match given.numberOf? "end-line", given.numberOf? "end-column" with
  | some endLine, some endColumn =>
      pure ⟨⟨line, column⟩, ⟨endLine, endColumn⟩⟩
  | none, none => pure (.caret ⟨line, column⟩)
  | _, _ => none

/- The command that a name and what follows it ask for. -/
def command?
    (name : String)
    (given : Given) :
    Option Command :=
  match name, given.plain with
  | "scan", [path] => some (.scan path)
  | "infer", [path] => (range? given).map (.infer path)
  | "fix", [path] => some (.fix path ("write" ∈ given.switches))
  | "self-test", [] => some .selfTest
  | _, _ => none

/- The segment behind the name of a command. -/
def segmentOf : String → Segment
  | "scan" => scanSegment
  | "infer" => inferSegment
  | "fix" => fixSegment
  | _ => selfTestSegment

end Arguments

------------------------------------------------------------
-- Invocations
------------------------------------------------------------

namespace Invocation

open Arguments

/-
  Put together what stands before and behind the name of a
  command.  What stands behind it wins.
-/
def assemble
    (name : String)
    (before behind : Given) :
    Except Halt Invocation :=
  match command? name behind with
  | none => .error .misuse
  | some command =>
      .ok
        { verbosity :=
            if behind.verbosity = 0 then before.verbosity
            else behind.verbosity
          config := (behind.value? "config").or (before.value? "config")
          command := command }

/- Read what stands behind the name of a command. -/
def ofCommand
    (before : Given)
    (name : String)
    (rest : List String) :
    Except Halt Invocation :=
  match (segmentOf name).read { } rest with
  | .error halt => .error halt
  | .ok (behind, _) => assemble name before behind

/- What stands behind `help`: at most the name of one command. -/
def ofHelp : List String → Halt
  | [] => .help
  | [name] => if name ∈ top.commands then .help else .misuse
  | _ => .misuse

/- Read the arguments of the command line. -/
def ofArguments
    (arguments : List String) :
    Except Halt Invocation :=
  match top.read { } arguments with
  | .error halt => .error halt
  | .ok (_, []) => .error .misuse
  | .ok (before, name :: rest) =>
      if name = "help" then
        .error (ofHelp rest)
      else
        ofCommand before name rest

end Invocation

end ShapeTypes
