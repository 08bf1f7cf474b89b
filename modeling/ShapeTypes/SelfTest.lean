import ShapeTypes.QuickFix

/-
  The self-test: sources with the types that they should
  give.

  Key definitions include:
    * `ShapeTypes.SelfTest.Case`
    * `ShapeTypes.SelfTest.cases`
    * `ShapeTypes.SelfTest.Report`
    * `ShapeTypes.SelfTest.run`
-/

namespace ShapeTypes

namespace SelfTest

------------------------------------------------------------
-- Cases
------------------------------------------------------------

/- A source and the text of the type of its first statement. -/
structure Case where
  source : String
  expected : String
deriving DecidableEq, Repr

/- The cases that are built in. -/
def cases : List Case :=
  [⟨"const numbers = [1, 2, 3];", "number[]"⟩,
   ⟨"const mixed = [1, \"a\"];", "Array<number | string>"⟩,
   ⟨"const person = \x7b name: \"John\", age: 30 \x7d;",
    "\x7b name: string; age: number \x7d"⟩,
   ⟨"const state = \x7b user: \x7b name: \"Jane\", id: 123 \x7d, active: true \x7d;",
    "\x7b user: \x7b name: string; id: number \x7d; active: boolean \x7d"⟩,
   ⟨"const value = cond ? \"text\" : 42;", "string | number"⟩,
   ⟨"const app = document.getElementById(\"app\");", "HTMLElement | null"⟩,
   ⟨"const add = (a, b) => a + b;", "(a: unknown, b: unknown) => unknown"⟩,
   ⟨"const nothing = null;", "null"⟩,
   ⟨"const flag = true;", "boolean"⟩,
   ⟨"const sum = 1 + 2;", "number"⟩]

------------------------------------------------------------
-- Outcomes
------------------------------------------------------------

/- A case and the text that it gave. -/
structure Outcome where
  case : Case
  actual : String
deriving DecidableEq, Repr

/- The case gave the expected text. -/
def Outcome.Passed
    (outcome : Outcome) : Prop :=
  outcome.case.expected = outcome.actual

instance
    (outcome : Outcome) :
    Decidable outcome.Passed := by
  unfold Outcome.Passed
  infer_instance

/- The outcomes of some cases. -/
structure Report where
  outcomes : List Outcome
deriving DecidableEq, Repr

namespace Report

/- How many cases passed. -/
def passed
    (report : Report) :
    Nat :=
  report.outcomes.countP fun outcome => outcome.Passed

/- How many cases failed. -/
def failed
    (report : Report) :
    Nat :=
  report.outcomes.length - report.passed

/- No case failed. -/
def AllPassed
    (report : Report) : Prop :=
  report.failed = 0

instance
    (report : Report) :
    Decidable report.AllPassed := by
  unfold AllPassed
  infer_instance

end Report

------------------------------------------------------------
-- Running
------------------------------------------------------------

/- The type of the first statement of a source. -/
def firstType
    (engine : Engine)
    (table : TreeTable)
    (source : String) :
    Logged Descriptor := do
  match ← table.parseLinked source with
  | .error refusal => do
      Logged.note (.caseRefused source refusal)
      pure .unknown
  | .ok store => engine.inferTarget store store.topLevelStatements.head?

/- The report on an outcome. -/
def Outcome.event
    (outcome : Outcome) :
    Event :=
  if outcome.Passed then
    .casePassed outcome.case.source outcome.actual
  else
    .caseFailed outcome.case.source outcome.case.expected outcome.actual

/- Run one case. -/
def runCase
    (engine : Engine)
    (table : TreeTable)
    (case : Case) :
    Logged Outcome := do
  let type ← firstType engine table case.source
  let outcome : Outcome := { case := case, actual := type.render }
  Logged.note outcome.event
  pure outcome

/- Run some cases in order. -/
def run
    (engine : Engine)
    (table : TreeTable)
    (cases : List Case) :
    Logged Report := do
  let outcomes ← cases.mapM (runCase engine table)
  pure { outcomes := outcomes }

end SelfTest

end ShapeTypes
