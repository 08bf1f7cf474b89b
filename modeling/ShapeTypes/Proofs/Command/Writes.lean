import ShapeTypes.Command.Run
import ShapeTypes.Proofs.Command.Arguments
import ShapeTypes.Proofs.QuickFix.Edits

/-
  The files that a run writes.

  No command but `fix` with its switch leaves other files
  than it found, and that one changes the file at its path
  alone, to the text that it prints without the switch.

  Key definitions include:
    * `ShapeTypes.Directory.replace`
    * `ShapeTypes.Entry.replace`

  Key theorems include:
    * `ShapeTypes.Directory.find_replace`
    * `ShapeTypes.Command.files_of_run`
    * `ShapeTypes.Invocation.value_run_fix_eq_ok_iff`
    * `ShapeTypes.Outcome.ofArguments_writes`
-/

------------------------------------------------------------
-- Files With One Text Replaced
------------------------------------------------------------

namespace ShapeTypes

/- What a path leads to when the text of one file is replaced. -/
def Entry.replace
    (name text : String) :
    Entry → Entry
  | .file other content =>
      .file other (if other = name then .text text else content)
  | entry => entry

namespace Directory

/- The files with the text of one of them replaced. -/
def replace
    (files : Directory)
    (name text : String) :
    Directory :=
  files.map fun file =>
    (file.1, if file.1 = name then .text text else file.2)

variable (files : Directory) (name text : String)

theorem names_replace :
    (files.replace name text).map (·.1) = files.map (·.1) := by
  unfold replace
  rw [List.map_map]
  rfl

/- Just the named file is another one. -/
theorem lookup_replace
    (other : String) :
    List.lookup other (files.replace name text) =
      (List.lookup other files).map fun content =>
        if other = name then .text text else content := by
  induction files with
  | nil => rfl
  | cons file files ih =>
      unfold replace at ih ⊢
      rw [List.map_cons, List.lookup_cons, List.lookup_cons]
      by_cases hOther : other = file.1
      · simp [hOther]
      · simp only [beq_false_of_ne hOther]
        exact ih

theorem hasFileBelow_replace
    (place : List String) :
    (files.replace name text).hasFileBelow place =
      files.hasFileBelow place := by
  unfold hasFileBelow replace
  rw [List.any_map]
  rfl

theorem follow_replace
    (place parts : List String) :
    (files.replace name text).follow place parts =
      (files.follow place parts).replace name text := by
  induction parts generalizing place with
  | nil => rfl
  | cons part rest ih =>
      simp only [follow, hasFileBelow_replace, lookup_replace, ih]
      split
      · rfl
      · split
        · rfl
        · split
          · rfl
          · cases List.lookup (nameOf (place ++ [part])) files with
            | none =>
                simp only [Option.map_none]
                split <;> rfl
            | some content =>
                simp only [Option.map_some]
                split <;> rfl

theorem find_replace
    (path : String) :
    (files.replace name text).find path =
      (files.find path).replace name text := by
  unfold find
  split
  · rfl
  · split
    · rfl
    · exact files.follow_replace name text _ _
    · exact files.follow_replace name text _ _

variable {files name text} {path : String} {content : Content}

theorem write_eq_replace
    (hFind : files.find path = .file name content) :
    files.write path text = files.replace name text := by
  unfold write replace
  rw [hFind]
  apply List.map_congr_left
  intro file _
  split
  · next hName => rw [hName]
  · rfl

/- A text is read where a path leads to a file that holds it. -/
theorem readText_eq_ok_iff :
    files.readText path = .ok text ↔
      ∃ name, files.find path = .file name (.text text) := by
  unfold readText
  cases files.find path with
  | file name content =>
      cases content with
      | text value => simp
      | binary bytes => simp
  | missing => simp
  | notDirectory => simp
  | tooLong => simp
  | directory => simp

theorem readText_replace
    (hFind : files.find path = .file name content) :
    (files.replace name text).readText path = .ok text := by
  apply readText_eq_ok_iff.2
  refine ⟨name, ?_⟩
  rw [find_replace, hFind]
  exact congrArg (Entry.file name) (if_pos rfl)

/- A source is read where a text is. -/
theorem readSource_eq_ok_iff :
    files.readSource path = .ok text ↔
      ∃ name, files.find path = .file name (.text text) := by
  constructor
  · intro h
    unfold readSource at h
    split at h
    · split at h
      · next hText =>
          cases h
          exact readText_eq_ok_iff.1 hText
      · cases h
    · cases h
  · rintro ⟨name, hFind⟩
    have hExists : files.Exists path := by
      unfold Exists
      rw [hFind]
      trivial
    unfold readSource
    rw [if_pos hExists, readText_eq_ok_iff.2 ⟨name, hFind⟩]

end Directory

end ShapeTypes

------------------------------------------------------------
-- Commands
------------------------------------------------------------

namespace ShapeTypes

/- A source is fixed when its fixes are found and apply. -/
theorem Engine.value_fixAll_eq_ok_iff
    {engine : Engine}
    {table : TreeTable}
    {source fixed : String}
    {count : Nat} :
    (engine.fixAll table source).value = .ok (fixed, count) ↔
      ∃ fixes,
        (engine.quickFixes table source).value = .ok fixes ∧
          TextEdit.applyAll source (fixes.map (·.edit)) = .ok fixed ∧
          fixes.length = count := by
  unfold fixAll
  rw [Reported.value_bind]
  cases hFixes : (engine.quickFixes table source).value with
  | error cause => simp
  | ok fixes =>
      cases hFixed : TextEdit.applyAll source (fixes.map (·.edit)) with
      | error cause => simp [hFixed]
      | ok text => simp [hFixed]

namespace Command

variable {engine : Engine} {table : TreeTable} {files : Directory}
variable {path : String} {done : Completion}

/- The line that counts the fixes that were written. -/
def fixedLine
    (count : Nat)
    (path : String) :
    String :=
  "Fixed " ++ toString count ++ " placeholder(s) in " ++ path ++ "\n"

/- What a fix leaves behind, with and without its switch. -/
def fixCompletion
    (files : Directory)
    (path fixed : String)
    (count : Nat) :
    Bool → Completion
  | true => ⟨fixedLine count path, true, files.write path fixed⟩
  | false => ⟨fixed, true, files⟩

/- The switch decides only what is done with the fixed source. -/
theorem value_runFix_eq_ok_iff
    {write : Bool} :
    (runFix engine table files path write).value = .ok done ↔
      ∃ source fixed count,
        files.readSource path = .ok source ∧
          (engine.fixAll table source).value = .ok (fixed, count) ∧
          fixCompletion files path fixed count write = done := by
  unfold runFix
  cases hSource : files.readSource path with
  | error e => simp
  | ok source =>
      simp only [Reported.value_bind]
      cases hFixed : (engine.fixAll table source).value with
      | error e => simp [hFixed]
      | ok result =>
          rcases result with ⟨fixed, count⟩
          cases write with
          | true => simp [hFixed, fixCompletion, fixedLine, unlines]
          | false => simp [hFixed, fixCompletion]

/- A command that does not write leaves the files it found. -/
theorem files_of_run
    {command : Command}
    (hRun : (command.run engine table files).value = .ok done)
    (hCommand : ∀ path, command ≠ .fix path true) :
    done.files = files := by
  cases command with
  | scan path =>
      change (runScan files path) = .ok done at hRun
      unfold runScan at hRun
      cases hSource : files.readSource path with
      | error e => simp [hSource, bind, Except.bind] at hRun
      | ok source =>
          simp only [hSource, bind, Except.bind, pure, Except.pure,
            Except.ok.injEq] at hRun
          rw [← hRun]
  | infer path range =>
      change (runInfer engine table files path range).value = .ok done at hRun
      unfold runInfer at hRun
      cases hSource : files.readSource path with
      | error e => simp [hSource] at hRun
      | ok source =>
          simp only [hSource, Reported.value_bind] at hRun
          cases hType : (engine.tryInferAt table source range).value with
          | error cause => simp [hType] at hRun
          | ok type =>
              simp only [hType, Reported.value_pure, Except.ok.injEq] at hRun
              rw [← hRun]
  | fix path write =>
      cases write with
      | true => exact (hCommand path rfl).elim
      | false =>
          rcases value_runFix_eq_ok_iff.1 hRun with ⟨_, _, _, _, _, rfl⟩
          rfl
  | selfTest =>
      change (runSelfTest engine table files).value = .ok done at hRun
      simp only [runSelfTest, Reported.value_bind, Reported.value_pure,
        Except.ok.injEq] at hRun
      rw [← hRun]

end Command

namespace Invocation

variable {invocation : Invocation} {table : TreeTable} {files : Directory}
variable {done : Completion}

/- A command is run with the configuration that is loaded. -/
theorem value_run_eq_ok_iff :
    (invocation.run table files).value = .ok done ↔
      ∃ config,
        (Config.load files invocation.config).value = .ok config ∧
          (invocation.command.run config.engine table files).value =
            .ok done := by
  unfold run
  rw [Reported.value_bind]
  cases (Config.load files invocation.config).value with
  | error e => simp
  | ok config => simp

/-
  A fix succeeds when its path leads to a text whose fixes,
  under the configuration that is loaded, are found and apply.
-/
theorem value_run_fix_eq_ok_iff
    {path : String}
    {write : Bool}
    (hFix : invocation.command = .fix path write) :
    (invocation.run table files).value = .ok done ↔
      ∃ config name source fixes text,
        (Config.load files invocation.config).value = .ok config ∧
          files.find path = .file name (.text source) ∧
          (config.engine.quickFixes table source).value = .ok fixes ∧
          TextEdit.applyAll source (fixes.map (·.edit)) = .ok text ∧
          Command.fixCompletion files path text fixes.length write =
            done := by
  rw [value_run_eq_ok_iff, hFix]
  constructor
  · rintro ⟨config, hConfig, hRun⟩
    rcases Command.value_runFix_eq_ok_iff.1 hRun with
      ⟨source, text, count, hSource, hFixed, rfl⟩
    rcases Directory.readSource_eq_ok_iff.1 hSource with ⟨name, hFind⟩
    rcases Engine.value_fixAll_eq_ok_iff.1 hFixed with
      ⟨fixes, hFixes, hApplied, rfl⟩
    exact ⟨config, name, source, fixes, text, hConfig, hFind, hFixes,
      hApplied, rfl⟩
  · rintro ⟨config, name, source, fixes, text, hConfig, hFind, hFixes,
      hApplied, rfl⟩
    refine ⟨config, hConfig, Command.value_runFix_eq_ok_iff.2 ?_⟩
    exact ⟨source, text, fixes.length,
      Directory.readSource_eq_ok_iff.2 ⟨name, hFind⟩,
      Engine.value_fixAll_eq_ok_iff.2 ⟨fixes, hFixes, hApplied, rfl⟩, rfl⟩

end Invocation

end ShapeTypes

------------------------------------------------------------
-- Runs
------------------------------------------------------------

namespace ShapeTypes

namespace Outcome

variable {table : TreeTable} {files : Directory}
variable {arguments : List String} {invocation : Invocation}
variable {done : Completion}

theorem ofArguments_of_done
    (hArguments : Invocation.ofArguments arguments = .ok invocation)
    (hRun : (invocation.run table files).value = .ok done) :
    (ofArguments table files arguments).code =
        (if done.succeeded then 0 else 1) ∧
      (ofArguments table files arguments).stdout = done.output ∧
      (ofArguments table files arguments).files = done.files := by
  simp only [ofArguments, hArguments, ofResult, hRun, and_self]

theorem ofArguments_of_error
    {e : CommandError}
    (hArguments : Invocation.ofArguments arguments = .ok invocation)
    (hRun : (invocation.run table files).value = .error e) :
    (ofArguments table files arguments).code = 1 ∧
      (ofArguments table files arguments).files = files := by
  simp only [ofArguments, hArguments, ofResult, hRun, and_self]

/- A run that changes some file writes fixes and succeeds. -/
theorem exists_fix_of_files_ne
    (hFiles : (ofArguments table files arguments).files ≠ files) :
    ∃ invocation path,
      Invocation.ofArguments arguments = .ok invocation ∧
        invocation.command = .fix path true ∧
        (ofArguments table files arguments).code = 0 := by
  cases hArguments : Invocation.ofArguments arguments with
  | error halt =>
      apply absurd _ hFiles
      simp only [ofArguments, hArguments]
      cases halt <;> rfl
  | ok invocation =>
      cases hRun : (invocation.run table files).value with
      | error e => exact absurd (ofArguments_of_error hArguments hRun).2 hFiles
      | ok done =>
          rcases ofArguments_of_done hArguments hRun with ⟨hCode, -, hDone⟩
          by_cases hFix : ∃ path, invocation.command = .fix path true
          · rcases hFix with ⟨path, hFix⟩
            rcases (Invocation.value_run_fix_eq_ok_iff hFix).1 hRun with
              ⟨_, _, _, _, _, -, -, -, -, rfl⟩
            exact ⟨invocation, path, rfl, hFix, hCode⟩
          · rcases Invocation.value_run_eq_ok_iff.1 hRun with
              ⟨_, -, hCommand⟩
            rw [hDone] at hFiles
            apply absurd _ hFiles
            exact Command.files_of_run hCommand
              (fun path hPath => hFix ⟨path, hPath⟩)

/-
  A run changes files only when it writes fixes and succeeds.
  It then changes the file at its path alone, to the text
  that every run with that path and configuration prints
  without the switch, as the run without it does.  The text is
  the source with some of its placeholders replaced, each by
  the text of its fix, and it reports how many these are.
-/
theorem ofArguments_writes
    (table : TreeTable)
    (files : Directory)
    (arguments : List String) :
    let outcome := ofArguments table files arguments
    (outcome.files ≠ files →
        ∃ invocation path,
          Invocation.ofArguments arguments = .ok invocation ∧
            invocation.command = .fix path true ∧
            outcome.code = 0) ∧
      ∀ invocation path,
        Invocation.ofArguments arguments = .ok invocation →
        invocation.command = .fix path true →
        outcome.code = 0 →
          ∃ config name source fixes text patches last,
            (Config.load files invocation.config).value = .ok config ∧
              files.find path = .file name (.text source) ∧
              (config.engine.quickFixes table source).value = .ok fixes ∧
              (fixes.map (·.edit.range)).Sublist (Placeholder.ranges source) ∧
              (fixes.map (·.edit.range)).Nodup ∧
              TextEdit.applyAll source (fixes.map (·.edit)) = .ok text ∧
              patches.map (·.edit) = fixes.map (·.edit) ∧
              (∀ patch ∈ patches, patch.old = Placeholder.word.toList) ∧
              source.toList = Patch.original patches ++ last ∧
              text.toList = Patch.replaced patches ++ last ∧
              outcome.stdout = Command.fixedLine patches.length path ∧
              outcome.files.map (·.1) = files.map (·.1) ∧
              (∀ other, other ≠ name →
                List.lookup other outcome.files = List.lookup other files) ∧
              outcome.files.readText path = .ok text ∧
              Invocation.ofArguments (arguments.erase "--write") =
                .ok { invocation with command := .fix path false } ∧
              ∀ others printing,
                Invocation.ofArguments others = .ok printing →
                printing.command = .fix path false →
                printing.config = invocation.config →
                  let printed := ofArguments table files others
                  printed.code = 0 ∧
                    printed.stdout = text ∧
                    printed.files = files := by
  intro outcome
  refine ⟨exists_fix_of_files_ne, ?_⟩
  intro invocation path hArguments hFix hCode
  cases hRun : (invocation.run table files).value with
  | error e =>
      have hFailed := (ofArguments_of_error hArguments hRun).1
      cases hFailed.symm.trans hCode
  | ok done =>
      rcases (Invocation.value_run_fix_eq_ok_iff hFix).1 hRun with
        ⟨config, name, source, fixes, text, hConfig, hFind, hFixes, hApplied,
          rfl⟩
      rcases ofArguments_of_done hArguments hRun with ⟨-, hOutput, hFiles⟩
      have hReplaced : outcome.files = files.replace name text :=
        hFiles.trans (Directory.write_eq_replace hFind)
      have hSublist := Engine.ranges_sublist_of_quickFixes hFixes
      rcases Engine.exists_replaced_of_quickFixes hFixes with
        ⟨patches, last, hSource, hEdits, hOld, hReplaces⟩
      have hText : text.toList = Patch.replaced patches ++ last := by
        rw [hApplied, Except.ok.injEq] at hReplaces
        rw [hReplaces, String.toList_ofList]
      have hCount : fixes.length = patches.length := by
        simpa using congrArg List.length hEdits.symm
      rw [hCount] at hOutput
      refine ⟨config, name, source, fixes, text, patches, last, hConfig,
        hFind, hFixes, hSublist,
        hSublist.nodup (Placeholder.ranges_nodup source), hApplied, hEdits,
        hOld, hSource, hText, hOutput, ?_, ?_, ?_,
        Invocation.ofArguments_erase_write hArguments hFix, ?_⟩
      · rw [hReplaced]
        exact files.names_replace name text
      · intro other hOther
        rw [hReplaced, Directory.lookup_replace]
        simp only [if_neg hOther, Option.map_id']
      · rw [hReplaced]
        exact Directory.readText_replace hFind
      · intro others printing hOthers hPrinting hSame
        rw [← hSame] at hConfig
        have hPrinted :=
          (Invocation.value_run_fix_eq_ok_iff hPrinting).2
            ⟨config, name, source, fixes, text, hConfig, hFind, hFixes,
              hApplied, rfl⟩
        exact ofArguments_of_done hOthers hPrinted

/- A configuration, the sample, and a file that nothing asks for. -/
def sampleFiles : Directory :=
  [("other.ts", .text "let b: any"), ("config.json", .text "\x7b\x7d"),
    ("sample.ts", .text Concrete.Sample.source)]

/- The sample with its placeholders replaced. -/
def sampleFixed : String :=
  "let é: \x7b\x7d = \x7b[1 as number]() \x7b\x7d\x7d"

/- The sample is written by a run and printed by another one. -/
theorem ofArguments_writes_sample :
    let table := [⟨.ts, Concrete.Sample.source, Concrete.Sample.tree⟩]
    let written := ofArguments table sampleFiles
      ["--config", "config.json", "fix", "--write", "./sample.ts"]
    written.code = 0 ∧
      written.stdout = Command.fixedLine 2 "./sample.ts" ∧
      List.lookup "other.ts" written.files =
        some (.text "let b: any") ∧
      written.files.readText "./sample.ts" = .ok sampleFixed ∧
      (ofArguments table sampleFiles
          ["fix", "-v", "./sample.ts", "--config=config.json"]).stdout =
        sampleFixed ∧
      ∃ patches last,
        patches.length = 2 ∧
          (∀ patch ∈ patches, patch.old = Placeholder.word.toList) ∧
          Concrete.Sample.source.toList = Patch.original patches ++ last ∧
          sampleFixed.toList = Patch.replaced patches ++ last := by
  intro table written
  have hArguments :
      Invocation.ofArguments
          ["--config", "config.json", "fix", "--write", "./sample.ts"] =
        .ok ⟨0, some "config.json", .fix "./sample.ts" true⟩ := by
    decide +kernel
  have hPrinting :
      Invocation.ofArguments
          ["fix", "-v", "./sample.ts", "--config=config.json"] =
        .ok ⟨1, some "config.json", .fix "./sample.ts" false⟩ := by
    decide +kernel
  have hConfig :
      (Config.load sampleFiles (some "config.json")).value = .ok { } := by
    decide +kernel
  have hFind :
      sampleFiles.find "./sample.ts" =
        .file "sample.ts" (.text Concrete.Sample.source) := by
    decide +kernel
  have hFixes :
      (({ } : Config).engine.quickFixes table Concrete.Sample.source).value =
        .ok Engine.sampleFixes := by
    decide +kernel
  have hApplied :
      TextEdit.applyAll Concrete.Sample.source
          (Engine.sampleFixes.map (·.edit)) =
        .ok sampleFixed := by
    have hResolved :
        TextEdit.resolveAll Concrete.Sample.source
            (Engine.sampleFixes.map (·.edit)) =
          .ok [⟨8, 11, ⟨⟨⟨0, 8⟩, ⟨0, 11⟩⟩, "\x7b\x7d"⟩⟩,
            ⟨21, 24, ⟨⟨⟨0, 21⟩, ⟨0, 24⟩⟩, "number"⟩⟩] := by
      decide +kernel
    rw [TextEdit.applyAll, hResolved]
    dsimp only
    rw [List.mergeSort_of_pairwise (by decide)]
    decide
  have hRun :
      (Invocation.run ⟨0, some "config.json", .fix "./sample.ts" true⟩
          table sampleFiles).value =
        .ok (Command.fixCompletion sampleFiles "./sample.ts" sampleFixed 2
          true) :=
    (Invocation.value_run_fix_eq_ok_iff rfl).2
      ⟨{ }, "sample.ts", _, _, _, hConfig, hFind, hFixes, hApplied, rfl⟩
  rcases ofArguments_of_done hArguments hRun with ⟨hCode, hOutput, -⟩
  rcases (ofArguments_writes table sampleFiles _).2 _ _ hArguments rfl hCode
    with ⟨config, name, source, fixes, text, patches, last, hConfig', hFind',
      hFixes', -, -, hApplied', hEdits, hOld, hSource, hText, -, -, hOthers,
      hRead, -, hPrinted⟩
  cases hConfig.symm.trans hConfig'
  cases hFind.symm.trans hFind'
  cases hFixes.symm.trans hFixes'
  cases hApplied.symm.trans hApplied'
  have hCount : patches.length = 2 := by
    simpa [Engine.sampleFixes] using congrArg List.length hEdits
  exact ⟨hCode, hOutput, hOthers "other.ts" (by decide), hRead,
    (hPrinted _ _ hPrinting rfl rfl).2.1, patches, last, hCount, hOld,
    hSource, hText⟩

end Outcome

end ShapeTypes
