import ShapeTypes.Command.Arguments
import ShapeTypes.Command.Directory
import ShapeTypes.Config.Reader
import ShapeTypes.SelfTest

/-
  Runs of the program.

  A run takes the files and the arguments to an exit code,
  to what is printed, and to the files afterwards.

  Key definitions include:
    * `ShapeTypes.CommandError`
    * `ShapeTypes.Command.run`
    * `ShapeTypes.Outcome`
    * `ShapeTypes.Outcome.ofArguments`
-/

namespace ShapeTypes

------------------------------------------------------------
-- Failures
------------------------------------------------------------

/- Why a command fails. -/
inductive CommandError where
  | configUnreadable (path : String) (cause : ReadError)
  | configInvalid (path : String) (cause : ConfigError)
  | pathNotFound (path : String)
  | unreadable (path : String) (cause : ReadError)
  | refused (cause : Refusal)
  | notApplied (cause : EditError)
deriving DecidableEq, Repr

/- The text that reports a failure. -/
def CommandError.message : CommandError → String
  | configUnreadable path cause =>
      "failed to read config file " ++ path ++ ": " ++ cause.message
  | configInvalid path cause =>
      "failed to load config file " ++ path ++ ": " ++ cause.message
  | pathNotFound path => "path not found: " ++ path
  | unreadable path cause =>
      "failed to read " ++ path ++ ": " ++ cause.message
  | refused cause => cause.message
  | notApplied cause => cause.message

------------------------------------------------------------
-- Reading Files
------------------------------------------------------------

/- The configuration in a file, or the default without one. -/
def Config.load
    (files : Directory) :
    Option String → Logged (Except CommandError Config)
  | none => pure (.ok { })
  | some path =>
      match files.readText path with
      | .error cause => pure (.error (.configUnreadable path cause))
      | .ok text =>
          match Config.read text with
          | .error cause => pure (.error (.configInvalid path cause))
          | .ok config => do
              Logged.note (.configLoaded path config.callPatterns.length)
              pure (.ok config)

/- The source in a file. -/
def Directory.readSource
    (files : Directory)
    (path : String) :
    Except CommandError String :=
  if files.Exists path then
    match files.readText path with
    | .ok source => .ok source
    | .error cause => .error (.unreadable path cause)
  else
    .error (.pathNotFound path)

------------------------------------------------------------
-- Commands
------------------------------------------------------------

/- What a command that did not fail leaves behind. -/
structure Completion where
  output : String
  succeeded : Bool
  files : Directory

/- The line that reports a placeholder. -/
def Diagnostic.line
    (path : String)
    (diagnostic : Diagnostic) :
    String :=
  path ++ ":" ++ diagnostic.range.start.render ++ ": "
    ++ diagnostic.severity.text ++ ": " ++ diagnostic.message

/- Texts with a line feed behind each. -/
def unlines
    (texts : List String) :
    String :=
  String.join (texts.map (· ++ "\n"))

/- The line that reports the outcome of a case. -/
def SelfTest.Outcome.line
    (outcome : SelfTest.Outcome) :
    String :=
  outcome.event.message

/- The line that counts the outcomes. -/
def SelfTest.Report.summary
    (report : SelfTest.Report) :
    String :=
  toString report.passed ++ " passed, " ++ toString report.failed ++ " failed"

/- A source with all its fixes, and their number. -/
def Engine.fixAll
    (engine : Engine)
    (table : TreeTable)
    (source : String) :
    Logged (Except CommandError (String × Nat)) := do
  match ← engine.quickFixes table source with
  | .error cause => pure (.error (.refused cause))
  | .ok fixes =>
      match TextEdit.applyAll source (fixes.map (·.edit)) with
      | .error cause => pure (.error (.notApplied cause))
      | .ok fixed => pure (.ok (fixed, fixes.length))

namespace Command

/- List the placeholders of a file. -/
def runScan
    (files : Directory)
    (path : String) :
    Except CommandError Completion := do
  let source ← files.readSource path
  pure
    { output := unlines ((Placeholder.scan source).map (Diagnostic.line path))
      succeeded := true
      files := files }

/- Print the type that belongs at a selection. -/
def runInfer
    (engine : Engine)
    (table : TreeTable)
    (files : Directory)
    (path : String)
    (range : SourceRange) :
    Logged (Except CommandError Completion) :=
  match files.readSource path with
  | .error e => pure (.error e)
  | .ok source => do
      match ← engine.tryInferAt table source range with
      | .error cause => pure (.error (.refused cause))
      | .ok type =>
          pure
            (.ok
              { output := unlines [type.render]
                succeeded := true
                files := files })

/- Print a file with its placeholders replaced, or write it back. -/
def runFix
    (engine : Engine)
    (table : TreeTable)
    (files : Directory)
    (path : String)
    (write : Bool) :
    Logged (Except CommandError Completion) :=
  match files.readSource path with
  | .error e => pure (.error e)
  | .ok source => do
      match ← engine.fixAll table source with
      | .error e => pure (.error e)
      | .ok (fixed, count) =>
          if write then
            pure
              (.ok
                { output :=
                    unlines
                      ["Fixed " ++ toString count ++ " placeholder(s) in "
                        ++ path]
                  succeeded := true
                  files := files.write path fixed })
          else
            pure
              (.ok { output := fixed, succeeded := true, files := files })

/- Run the self-test. -/
def runSelfTest
    (engine : Engine)
    (table : TreeTable)
    (files : Directory) :
    Logged (Except CommandError Completion) := do
  let report ← SelfTest.run engine table SelfTest.cases
  pure
    (.ok
      { output :=
          unlines
            (report.outcomes.map SelfTest.Outcome.line ++ [report.summary])
        succeeded := report.AllPassed
        files := files })

/- Run a command. -/
def run
    (engine : Engine)
    (table : TreeTable)
    (files : Directory) :
    Command → Logged (Except CommandError Completion)
  | scan path => pure (runScan files path)
  | infer path range => runInfer engine table files path range
  | fix path write => runFix engine table files path write
  | selfTest => runSelfTest engine table files

end Command

------------------------------------------------------------
-- Runs
------------------------------------------------------------

/- What a run of the program leaves behind. -/
structure Outcome where
  code : Nat
  stdout : String
  stderr : String
  files : Directory

/- The least important level that is shown. -/
def Level.ofVerbosity : Nat → Level
  | 0 => .warn
  | 1 => .info
  | 2 => .debug
  | _ => .trace

/- The lines of the events that are shown. -/
def Level.shown
    (level : Level)
    (log : List Event) :
    String :=
  unlines
    ((log.filter fun event => event.level.rank ≤ level.rank).map Event.render)

/- Load the configuration and run the command. -/
def Invocation.run
    (invocation : Invocation)
    (table : TreeTable)
    (files : Directory) :
    Logged (Except CommandError Completion) := do
  match ← Config.load files invocation.config with
  | .error e => pure (.error e)
  | .ok config => invocation.command.run config.engine table files

namespace Outcome

/- The text that names the program and its version. -/
def versionText : String :=
  "retype 0.0.1\n"

/- The text that explains the arguments. -/
def helpText : String :=
  unlines
    ["Usage: retype [OPTIONS] <COMMAND>",
     "",
     "Commands:",
     "  scan <PATH>                 Report every `any` placeholder as a warning",
     "  infer <PATH> --line <LINE> --column <COLUMN>",
     "                              Print the type inferred for a selection",
     "  fix <PATH> [--write]        Replace every placeholder in a type position",
     "  self-test                   Run the built-in inference smoke tests",
     "",
     "Options:",
     "  -v, --verbose               Increase log verbosity",
     "      --config <CONFIG>       JSON file with inference options",
     "  -h, --help                  Print help",
     "  -V, --version               Print version"]

/- The outcome when no command is run. -/
def ofHalt
    (files : Directory) :
    Halt → Outcome
  | .version => ⟨0, versionText, "", files⟩
  | .help => ⟨0, helpText, "", files⟩
  | .misuse => ⟨2, "", "error: invalid arguments\n" ++ helpText, files⟩

/- The outcome of a command. -/
def ofResult
    (level : Level)
    (files : Directory)
    (result : Logged (Except CommandError Completion)) :
    Outcome :=
  let shown := level.shown result.log
  match result.value with
  | .ok done =>
      ⟨if done.succeeded then 0 else 1, done.output, shown, done.files⟩
  | .error e => ⟨1, "", shown ++ "Error: " ++ e.message ++ "\n", files⟩

/- The outcome of a run with some arguments. -/
def ofArguments
    (table : TreeTable)
    (files : Directory)
    (arguments : List String) :
    Outcome :=
  match Invocation.ofArguments arguments with
  | .error halt => ofHalt files halt
  | .ok invocation =>
      ofResult (.ofVerbosity invocation.verbosity) files
        (invocation.run table files)

end Outcome

end ShapeTypes
