import ShapeTypes.Command.Arguments

/-
  Arguments with and without a switch.

  Reading a segment is a relation between what was given
  before it, the arguments, what is given behind them, and
  the arguments that are left.  No argument but a switch reads
  or changes the switches.  So `--write` can be taken away
  from the arguments that it is given in, and what is left
  asks for the same fix without writing.

  Key definitions include:
    * `ShapeTypes.Arguments.Segment.Reads`
    * `ShapeTypes.Arguments.Given.bare`
    * `ShapeTypes.Arguments.Blind`
    * `ShapeTypes.Arguments.Segment.ReadsBare`

  Key theorems include:
    * `ShapeTypes.Arguments.Segment.reads_of_read`
    * `ShapeTypes.Arguments.Segment.Reads.read_eq`
    * `ShapeTypes.Arguments.Segment.Reads.until_command`
    * `ShapeTypes.Arguments.Segment.Reads.erase_write`
    * `ShapeTypes.Invocation.ofArguments_erase_write`
-/

------------------------------------------------------------
-- Reading As A Relation
------------------------------------------------------------

namespace ShapeTypes

namespace Arguments

namespace Segment

/-
  Reading goes from what was given before the arguments to
  what is given behind them and the arguments that are left.
-/
inductive Reads
    (segment : Segment) :
    Given → List String → Given → List String → Prop
  | done {given} :
      Reads segment given [] given []
  | command {given text rest}
      (hCommand : text ∈ segment.commands) :
      Reads segment given (text :: rest) given (text :: rest)
  | separator {given text rest final}
      (hText : text ∉ segment.commands)
      (hShape : Shape.of text = .separator)
      (hPlain : segment.readPlain given rest = .ok final) :
      Reads segment given (text :: rest) final []
  | option {given text name value rest next final left}
      (hText : text ∉ segment.commands)
      (hShape : Shape.of text = .long name none)
      (hOption : segment.options.any (·.1 == name))
      (hValue : Shape.of value = .plain)
      (hNext : segment.addValue given name value = .ok next)
      (hRest : Reads segment next rest final left) :
      Reads segment given (text :: value :: rest) final left
  | single {given text rest next final left}
      (hText : text ∉ segment.commands)
      (hSeparator : Shape.of text ≠ .separator)
      (hOption :
        ∀ name, Shape.of text = .long name none →
          ¬segment.options.any (·.1 == name))
      (hNext : segment.addShape given text (Shape.of text) = .ok next)
      (hRest : Reads segment next rest final left) :
      Reads segment given (text :: rest) final left

variable {segment : Segment} {given final : Given}
variable {arguments left : List String}

theorem reads_of_read
    (h : segment.read given arguments = .ok (final, left)) :
    segment.Reads given arguments final left := by
  fun_induction segment.read given arguments with
  | case1 given =>
      cases h
      exact .done
  | case2 given text rest hText =>
      cases h
      exact .command hText
  | case3 given text rest hText hShape =>
      cases hPlain : segment.readPlain given rest with
      | error halt => simp [hPlain, Except.map] at h
      | ok next =>
          simp only [hPlain, Except.map, Except.ok.injEq, Prod.mk.injEq] at h
          rcases h with ⟨rfl, rfl⟩
          exact .separator hText hShape hPlain
  | case4 given text hText name hShape hOption value rest hValue next hNext ih =>
      exact .option hText hShape hOption hValue hNext (ih h)
  | case8 given text rest hText name hShape hOption next hNext ih =>
      refine .single hText (by simp [hShape]) ?_ ?_ (ih h)
      · intro other hOther
        rw [hShape] at hOther
        cases hOther
        exact hOption
      · rw [hShape]
        exact hNext
  | case10 given text rest hText next hSeparator hLong hNext ih =>
      exact .single hText hSeparator (fun name hName => (hLong name hName).elim)
        hNext (ih h)
  | case5 | case6 | case7 | case9 | case11 => cases h

theorem Reads.read_eq
    (h : segment.Reads given arguments final left) :
    segment.read given arguments = .ok (final, left) := by
  induction h with
  | done => rw [read]
  | command hCommand => rw [read, if_pos hCommand]
  | separator hText hShape hPlain =>
      rw [read, if_neg hText, hShape]
      simp only [hPlain, Except.map]
  | option hText hShape hOption hValue hNext hRest ih =>
      rw [read, if_neg hText, hShape]
      simp only [hOption, hValue, if_true, hNext, ih]
  | @single given text rest next final left hText hSeparator hOption hNext hRest ih =>
      rw [read, if_neg hText]
      split
      · contradiction
      · next name hShape =>
          rw [if_neg (hOption name hShape)]
          rw [hShape] at hNext
          change segment.addSwitch given name = .ok _ at hNext
          simp only [hNext, ih]
      · simp only [hNext, ih]

/- An argument with two hyphens and no value is a name behind hyphens. -/
theorem Shape.eq_of_long
    {text name : String}
    (h : Shape.of text = .long name none) :
    text = "--" ++ name := by
  unfold Shape.of at h
  split at h
  · cases h
  · next cs _ hText =>
      split at h
      · cases h
      · next hEnd =>
          cases h
          have hName := @List.takeWhile_append_dropWhile _ (· ≠ '=') cs
          rw [hEnd, List.append_nil] at hName
          apply String.toList_inj.1
          rw [hText, hName]
          simp
  · cases h
  · cases h

end Segment

end Arguments

end ShapeTypes

------------------------------------------------------------
-- Arguments That Are No Switches
------------------------------------------------------------

namespace ShapeTypes

namespace Arguments

/- What was given, without the switches. -/
def Given.bare
    (given : Given) :
    Given :=
  { given with switches := [] }

/- Taking an argument neither reads nor changes the switches. -/
def Blind
    (take : Given → Except Halt Given) : Prop :=
  ∀ given next,
    take given = .ok next →
      next.switches = given.switches ∧ take given.bare = .ok next.bare

namespace Segment

variable (segment : Segment)

theorem blind_addPlain
    (text : String) :
    Blind fun given => segment.addPlain given text := by
  intro given next h
  simp only [addPlain] at h ⊢
  split at h
  · next hRoom =>
      cases h
      exact ⟨rfl, if_pos hRoom⟩
  · cases h

theorem blind_addValue
    (name value : String) :
    Blind fun given => segment.addValue given name value := by
  intro given next h
  simp only [addValue] at h ⊢
  split at h
  · split at h
    · next hNew =>
        cases h
        exact ⟨rfl, if_pos hNew⟩
    · cases h
  · cases h

theorem blind_addLetters
    (cs : List Char) :
    Blind fun given => segment.addLetters given cs := by
  intro given next h
  induction cs generalizing given with
  | nil =>
      cases h
      exact ⟨rfl, rfl⟩
  | cons c cs ih =>
      simp only [addLetters] at h ⊢
      split at h
      · cases h
      · next hHelp =>
          rw [if_neg hHelp]
          split at h
          · cases h
          · next hVersion =>
              rw [if_neg hVersion]
              split at h
              · next hLouder =>
                  rw [if_pos hLouder]
                  exact ih given.louder h
              · cases h

theorem blind_readPlain
    (arguments : List String) :
    Blind fun given => segment.readPlain given arguments := by
  intro given next h
  induction arguments generalizing given with
  | nil =>
      cases h
      exact ⟨rfl, rfl⟩
  | cons text rest ih =>
      simp only [readPlain] at h ⊢
      cases hText : segment.addPlain given text with
      | error halt => simp [hText] at h
      | ok taken =>
          simp only [hText] at h
          rcases segment.blind_addPlain text given taken hText with
            ⟨hSwitches, hBare⟩
          rcases ih taken h with ⟨hRest, hRestBare⟩
          refine ⟨hRest.trans hSwitches, ?_⟩
          simp only at hBare hRestBare
          simp only [hBare, hRestBare]

variable {segment}

/-
  A name behind two hyphens is a wish for more reports, or a
  switch of the segment that was not given before.
-/
theorem addSwitch_cases
    {given next : Given}
    {name : String}
    (h : segment.addSwitch given name = .ok next) :
    name = "verbose" ∧ next = given.louder ∨
      name ∈ segment.switches ∧
        name ∉ given.switches ∧
        next = { given with switches := given.switches ++ [name] } := by
  unfold addSwitch at h
  split at h
  · cases h
  · split at h
    · cases h
    · split at h
      · next hLouder =>
          cases h
          exact Or.inl ⟨hLouder, rfl⟩
      · split at h
        · next hNew =>
            cases h
            exact Or.inr ⟨hNew.1, hNew.2, rfl⟩
        · cases h

/- An argument that is no switch of the segment leaves the switches alone. -/
theorem blind_addShape
    {text : String}
    (hText : ∀ name ∈ segment.switches, text ≠ "--" ++ name) :
    Blind fun given => segment.addShape given text (Shape.of text) := by
  intro given next h
  cases hShape : Shape.of text with
  | separator =>
      simp only [hShape] at h ⊢
      cases h
      exact ⟨rfl, rfl⟩
  | long name value =>
      simp only [hShape] at h ⊢
      cases value with
      | none =>
          rcases addSwitch_cases h with ⟨rfl, rfl⟩ | ⟨hName, -, -⟩
          · exact ⟨rfl, rfl⟩
          · exact (hText name hName (Shape.eq_of_long hShape)).elim
      | some value => exact segment.blind_addValue name value given next h
  | letters cs =>
      simp only [hShape] at h ⊢
      exact segment.blind_addLetters cs given next h
  | plain =>
      simp only [hShape] at h ⊢
      exact segment.blind_addPlain text given next h

end Segment

end Arguments

end ShapeTypes

------------------------------------------------------------
-- The Switch Before And Behind The Command
------------------------------------------------------------

namespace ShapeTypes

namespace Arguments

theorem shape_write :
    Segment.Shape.of "--write" = .long "write" none := by
  decide

namespace Segment

variable {segment : Segment} {given next final : Given}
variable {arguments left : List String}

/- The switch is taken where the segment has it, and once. -/
theorem addShape_write
    (h : segment.addShape given "--write" (Shape.of "--write") =
      .ok next) :
    "write" ∈ segment.switches ∧
      "write" ∉ given.switches ∧
      next = { given with switches := given.switches ++ ["write"] } := by
  rw [shape_write] at h
  rcases addSwitch_cases h with ⟨hName, -⟩ | hTaken
  · simp at hName
  · exact hTaken

/- An option that is not called so, and its value, are not the switch. -/
theorem ne_write_of_option
    {text name value : String}
    (hOptions : ¬segment.options.any (·.1 == "write"))
    (hShape : Shape.of text = .long name none)
    (hOption : segment.options.any (·.1 == name))
    (hValue : Shape.of value = .plain) :
    text ≠ "--write" ∧ value ≠ "--write" := by
  constructor
  · rintro rfl
    rw [shape_write] at hShape
    cases hShape
    exact hOptions hOption
  · rintro rfl
    rw [shape_write] at hValue
    cases hValue

/-
  Where a segment does not have the switch, it does not stand
  before the name of the command, and what stands behind the
  name is not looked at.
-/
theorem Reads.until_command
    (h : segment.Reads given arguments final left)
    (hSwitches : "write" ∉ segment.switches)
    (hOptions : ¬segment.options.any (·.1 == "write"))
    {name : String}
    {rest : List String}
    (hLeft : left = name :: rest) :
    name ∈ segment.commands ∧
      ∃ before,
        arguments = before ++ name :: rest ∧
          "--write" ∉ before ∧
          ∀ other,
            segment.Reads given (before ++ name :: other) final
              (name :: other) := by
  induction h with
  | done => cases hLeft
  | command hCommand =>
      cases hLeft
      exact ⟨hCommand, [], rfl, List.not_mem_nil, fun _ => .command hCommand⟩
  | separator => cases hLeft
  | @option given text _ value _ _ _ _ hText hShape hOption hValue hNext _ ih =>
      rcases ih hLeft with ⟨hCommand, before, rfl, hBefore, hOther⟩
      rcases ne_write_of_option hOptions hShape hOption hValue with
        ⟨hTextNe, hValueNe⟩
      refine ⟨hCommand, text :: value :: before, rfl, ?_, fun other => ?_⟩
      · simp [hTextNe.symm, hValueNe.symm, hBefore]
      · exact .option hText hShape hOption hValue hNext (hOther other)
  | @single given text _ _ _ _ hText hSeparator hOption hNext _ ih =>
      rcases ih hLeft with ⟨hCommand, before, rfl, hBefore, hOther⟩
      have hTextNe : text ≠ "--write" := by
        rintro rfl
        exact hSwitches (addShape_write hNext).1
      refine ⟨hCommand, text :: before, rfl, ?_, fun other => ?_⟩
      · simp [hTextNe.symm, hBefore]
      · exact .single hText hSeparator hOption hNext (hOther other)

/-
  All but the switch is read without the switches, too.  The
  switch is not given, or it is given for the first time.
-/
def ReadsBare
    (segment : Segment)
    (given : Given)
    (arguments : List String)
    (final : Given)
    (left : List String) : Prop :=
  final.switches = given.switches ∧
      segment.Reads given.bare arguments final.bare left ∨
    "write" ∉ given.switches ∧
      final.switches = given.switches ++ ["write"] ∧
      segment.Reads given.bare (arguments.erase "--write") final.bare left

/- Arguments that leave the switches alone may stand before others. -/
theorem ReadsBare.append
    {front rest : List String}
    (h : segment.ReadsBare next rest final left)
    (hFront : "--write" ∉ front)
    (hSame : next.switches = given.switches)
    (hReads :
      ∀ rest,
        segment.Reads next.bare rest final.bare left →
          segment.Reads given.bare (front ++ rest) final.bare left) :
    segment.ReadsBare given (front ++ rest) final left := by
  unfold ReadsBare at h ⊢
  rw [hSame] at h
  rw [List.erase_append_right _ hFront]
  rcases h with ⟨hFinal, hRest⟩ | ⟨hNew, hFinal, hRest⟩
  · exact Or.inl ⟨hFinal, hReads _ hRest⟩
  · exact Or.inr ⟨hNew, hFinal, hReads _ hRest⟩

/-
  Behind the command the switch is given at most once, and
  without it all else is read as before.
-/
theorem Reads.erase_write
    (h : segment.Reads given arguments final left)
    (hSwitches : segment.switches = ["write"])
    (hOptions : ¬segment.options.any (·.1 == "write"))
    (hCommands : segment.commands = []) :
    segment.ReadsBare given arguments final left := by
  induction h with
  | done => exact Or.inl ⟨rfl, .done⟩
  | command hCommand => simp [hCommands] at hCommand
  | separator hText hShape hPlain =>
      rcases segment.blind_readPlain _ _ _ hPlain with ⟨hSame, hBare⟩
      exact Or.inl ⟨hSame, .separator hText hShape hBare⟩
  | @option given text _ value _ _ _ _ hText hShape hOption hValue hNext _ ih =>
      rcases segment.blind_addValue _ _ _ _ hNext with ⟨hSame, hBare⟩
      rcases ne_write_of_option hOptions hShape hOption hValue with
        ⟨hTextNe, hValueNe⟩
      have hFront : "--write" ∉ [text, value] := by
        simp [hTextNe.symm, hValueNe.symm]
      exact ih.append hFront hSame fun _ hRest =>
        .option hText hShape hOption hValue hBare hRest
  | @single given text _ _ _ _ hText hSeparator hOption hNext _ ih =>
      by_cases hWrite : text = "--write"
      · subst hWrite
        rcases addShape_write hNext with ⟨-, hNew, rfl⟩
        rcases ih with ⟨hFinal, hRest⟩ | ⟨hAgain, -, -⟩
        · refine Or.inr ⟨hNew, hFinal, ?_⟩
          rw [List.erase_cons_head]
          exact hRest
        · simp at hAgain
      · have hOther : ∀ name ∈ segment.switches, text ≠ "--" ++ name := by
          intro name hName
          rw [hSwitches, List.mem_singleton] at hName
          rw [hName]
          exact hWrite
        have hFront : "--write" ∉ [text] := by
          simp [Ne.symm hWrite]
        rcases blind_addShape hOther given _ hNext with ⟨hSame, hBare⟩
        exact ih.append hFront hSame fun _ hRest =>
          .single hText hSeparator hOption hBare hRest

end Segment

end Arguments

end ShapeTypes

------------------------------------------------------------
-- Invocations Without The Switch
------------------------------------------------------------

namespace ShapeTypes

namespace Invocation

open Arguments

/-
  Arguments ask for something when the segment before the name
  of a command and the one behind it are read, and what they
  give fits the command.
-/
theorem ofArguments_eq_ok_iff
    {arguments : List String}
    {invocation : Invocation} :
    ofArguments arguments = .ok invocation ↔
      ∃ before name rest behind left,
        top.Reads { } arguments before (name :: rest) ∧
          name ≠ "help" ∧
          (segmentOf name).Reads { } rest behind left ∧
          assemble name before behind = .ok invocation := by
  constructor
  · intro h
    unfold ofArguments at h
    split at h
    · cases h
    · cases h
    · next before name rest hTop =>
        split at h
        · cases h
        · next hHelp =>
            unfold ofCommand at h
            split at h
            · cases h
            · next behind left hBehind =>
                exact ⟨before, name, rest, behind, left,
                  Segment.reads_of_read hTop, hHelp,
                  Segment.reads_of_read hBehind, h⟩
  · rintro ⟨before, name, rest, behind, left, hTop, hHelp, hBehind, hCommand⟩
    simp only [ofArguments, hTop.read_eq, if_neg hHelp, ofCommand,
      hBehind.read_eq, hCommand]

/- A fix is asked for by its name and the path alone. -/
theorem command?_eq_fix_iff
    {name path : String}
    {given : Given}
    {write : Bool} :
    command? name given = some (.fix path write) ↔
      name = "fix" ∧ given.plain = [path] ∧
        decide ("write" ∈ given.switches) = write := by
  unfold command?
  constructor
  · intro h
    split at h
    · cases h
    · simp at h
    · next hPlain =>
        cases h
        exact ⟨rfl, hPlain, rfl⟩
    · cases h
    · cases h
  · rintro ⟨rfl, hPlain, rfl⟩
    rw [hPlain]
    rfl

/-
  Where writing is asked for, printing is asked for by what
  is given without the switch.
-/
theorem assemble_bare
    {name path : String}
    {before behind : Given}
    {invocation : Invocation}
    (h : assemble name before behind = .ok invocation)
    (hCommand : invocation.command = .fix path true) :
    name = "fix" ∧
      "write" ∈ behind.switches ∧
      assemble name before behind.bare =
        .ok { invocation with command := .fix path false } := by
  unfold assemble at h ⊢
  split at h
  · cases h
  · next command hAsked =>
      cases h
      subst hCommand
      rcases command?_eq_fix_iff.1 hAsked with ⟨hName, hPlain, hWrite⟩
      have hPrinted :
          command? name behind.bare = some (.fix path false) :=
        command?_eq_fix_iff.2 ⟨hName, hPlain, rfl⟩
      rw [hPrinted]
      exact ⟨hName, of_decide_eq_true hWrite, rfl⟩

/-
  Arguments that ask for a file to be written ask, without
  the switch, for the same fix to be printed.
-/
theorem ofArguments_erase_write
    {arguments : List String}
    {invocation : Invocation}
    {path : String}
    (h : ofArguments arguments = .ok invocation)
    (hCommand : invocation.command = .fix path true) :
    ofArguments (arguments.erase "--write") =
      .ok { invocation with command := .fix path false } := by
  rcases ofArguments_eq_ok_iff.1 h with
    ⟨before, name, rest, behind, left, hTop, hHelp, hBehind, hAssemble⟩
  rcases assemble_bare hAssemble hCommand with ⟨rfl, hWrite, hPrinted⟩
  rcases hTop.until_command (by decide) (by decide) rfl with
    ⟨-, first, rfl, hFirst, hOther⟩
  rcases hBehind.erase_write rfl (by decide) rfl with
    ⟨hNone, -⟩ | ⟨-, -, hRest⟩
  · simp [hNone] at hWrite
  · rw [List.erase_append_right _ hFirst, List.erase_cons_tail (by decide)]
    exact ofArguments_eq_ok_iff.2
      ⟨before, "fix", rest.erase "--write", behind.bare, left,
        hOther (rest.erase "--write"), hHelp, hRest, hPrinted⟩

end Invocation

end ShapeTypes
