import ClientRegen.CommandLine.Program
import ClientRegen.Proofs.Outcomes
import ClientRegen.Proofs.Preparing

/-!
# A plan and its run

A run looks for its command before it changes anything, and in the same way as
a plan does; so a plan that fails is a run that fails with nothing changed, and
a run that succeeds was launched with the line of its plan
(`plan_agrees_with_run`).

What a run launches, and in which world, is told from outside: by the runs with
launchers that refuse to run just this (`Launches`).  The run itself decides it
before it asks its launcher for anything (`launches_iff`).
-/

namespace ClientRegen

namespace Settings

variable {s : Settings} {launch : Launcher} {w w' before : World} {fault : Failure}
  {program : Path} {args : List String} {command : GeneratorCommand} {cleared : ClearReport}
  {report : Report}

/-- A run gets as far as launching a program with some arguments, in the world
`before`: a launcher that refuses just this makes the run fail with its refusal,
and leaves this world. -/
def Launches (s : Settings) (w : World) (program : Path) (args : List String) (before : World) :
    Prop :=
  ∀ (launch : Launcher) (cause : FileFault), launch program args before = .error cause →
    s.run launch w = .error (.generator (.unlaunched program cause) "") before

/-! ## The steps of a run -/

/-- A run without its command fails before it does anything. -/
theorem run_eq_error_of_command (h : s.command w = .error fault) (launch : Launcher) :
    s.run launch w = .error fault w :=
  Action.bind_eq_error_iff.mpr (Or.inl (Action.look_eq_error_iff.mpr ⟨h, rfl⟩))

/-- What a run does once its command is found and its output directory is
ready. -/
theorem run_eq_of_prepared (hcommand : s.command w = .ok command)
    (hprepare : s.prepareOutput w = .ok cleared before) (launch : Launcher) :
    s.run launch w = (do
      let generator ← Generator.invoke launch command s
      let patched ← s.patchOutput
      let licenseSeeded ← seedLicense s.outputDir s.licenseTemplate
      return {
        client := s.client, outputDir := s.outputDir, cleared, generator, patched,
        licenseSeeded } : Action Report) before := by
  have hlook : Action.look s.command w = .ok command w :=
    Action.look_eq_ok_iff.mpr ⟨hcommand, rfl⟩
  unfold run
  change EStateM.bind (Action.look s.command) _ w = _
  rw [EStateM.bind, hlook]
  change EStateM.bind s.prepareOutput _ w = _
  rw [EStateM.bind, hprepare]

/-- A run that succeeds has found its command, made its output directory ready
and invoked the generator there. -/
theorem exists_invoke_of_run (h : s.run launch w = .ok report w') :
    ∃ command cleared before after, s.command w = .ok command ∧
      s.prepareOutput w = .ok cleared before ∧
      Generator.invoke launch command s before = .ok report.generator after := by
  obtain ⟨command, w₁, hlook, h⟩ := Action.bind_eq_ok_iff.mp h
  obtain ⟨hcommand, rfl⟩ := Action.look_eq_ok_iff.mp hlook
  obtain ⟨cleared, before, hprepare, h⟩ := Action.bind_eq_ok_iff.mp h
  obtain ⟨generator, after, hinvoke, h⟩ := Action.bind_eq_ok_iff.mp h
  obtain ⟨patched, w₂, -, h⟩ := Action.bind_eq_ok_iff.mp h
  obtain ⟨licenseSeeded, w₃, -, h⟩ := Action.bind_eq_ok_iff.mp h
  obtain ⟨rfl, -⟩ := Action.pure_eq_ok_iff.mp h
  exact ⟨command, cleared, before, after, hcommand, hprepare, hinvoke⟩

/-- A generator that does its work was launched, and the line of the command is
reported. -/
theorem invoke_eq_ok {output : GeneratorOutput}
    (h : Generator.invoke launch command s w = .ok output w') :
    (∃ finished root, launch command.program (command.leadingArgs ++ s.arguments) w =
      .ok (finished, root)) ∧ output.commandLine = command.line s.arguments := by
  unfold Generator.invoke at h
  split at h
  · cases h
  · rename_i finished root hlaunch
    split at h
    · rename_i output' hout
      cases h
      refine ⟨⟨finished, root, hlaunch⟩, ?_⟩
      unfold Generator.outcome at hout
      dsimp only at hout
      split at hout
      · cases hout
        rfl
      · cases hout
    · cases h

/-! ## What is launched -/

/-- Settings are refused with a fault of the configuration only. -/
theorem configuration_of_validate (h : s.validate = .error fault) :
    ∃ cause, fault = .configuration cause := by
  unfold validate at h
  dsimp only at h
  split at h
  · cases h
    exact ⟨_, rfl⟩
  · split at h
    · cases h
      exact ⟨_, rfl⟩
    · split at h
      · cases h
        exact ⟨_, rfl⟩
      · cases h

/-- A command is refused only because its program is not found. -/
theorem missingProgram_of_resolve {explicit : Option String}
    (h : GeneratorCommand.resolve w explicit = .error fault) :
    ∃ program, fault = .generator (.missingProgram program) "" := by
  unfold GeneratorCommand.resolve at h
  dsimp only at h
  split at h
  · cases h
  · cases h
    exact ⟨_, rfl⟩

/-- A command that is not found is no command that cannot be launched. -/
theorem command_ne_unlaunched (program : Path) (cause : FileFault) (stderr : String) :
    s.command w ≠ .error (.generator (.unlaunched program cause) stderr) := by
  intro h
  unfold command at h
  cases hvalid : s.validate with
  | error f =>
      rw [hvalid] at h
      obtain ⟨c, rfl⟩ := configuration_of_validate hvalid
      cases h
  | ok u =>
      rw [hvalid] at h
      obtain ⟨p, hp⟩ := missingProgram_of_resolve h
      cases hp

/-- Nor is an output directory that cannot be made ready. -/
theorem prepareOutput_ne_unlaunched (program : Path) (cause : FileFault) (stderr : String) :
    s.prepareOutput w ≠ .error (.generator (.unlaunched program cause) stderr) before := by
  intro h
  rcases Action.bind_eq_error_iff.mp h with hclear | ⟨cleared, between, -, hmake⟩
  · obtain ⟨hclear, -⟩ := Action.change_eq_error_iff.mp hclear
    unfold clear at hclear
    split at hclear
    · cases hclear
    · split at hclear <;> cases hclear
  · rcases Action.bind_eq_error_iff.mp hmake with hmake | ⟨u, after, -, hpure⟩
    · obtain ⟨⟨fault, -, hfault⟩, -⟩ := Action.onPath_eq_error_iff.mp hmake
      cases hfault
    · cases hpure

/-- A program that cannot be launched leaves the world as it is. -/
theorem invoke_of_refusal {cause : FileFault}
    (h : launch command.program (command.leadingArgs ++ s.arguments) w = .error cause) :
    Generator.invoke launch command s w =
      .error (.generator (.unlaunched command.program cause) "") w := by
  rw [Generator.invoke, h]

/-- **What a run launches is decided before its launcher is asked:** the command
that it found with its arguments, in the world with the output directory made
ready. -/
theorem launches_iff : s.Launches w program args before ↔
    ∃ command cleared, s.command w = .ok command ∧ s.prepareOutput w = .ok cleared before ∧
      program = command.program ∧ args = command.leadingArgs ++ s.arguments := by
  constructor
  · intro h
    -- a launcher that tells whether it was given these arguments
    have hrun := h (fun _ given _ =>
      if given = args then .error .notFound else .error .permissionDenied) .notFound
      (if_pos rfl)
    rcases Action.bind_eq_error_iff.mp hrun with hlook | ⟨command, w₁, hlook, hrest⟩
    · exact absurd (Action.look_eq_error_iff.mp hlook).1 (command_ne_unlaunched _ _ _)
    · obtain ⟨hcommand, rfl⟩ := Action.look_eq_ok_iff.mp hlook
      rcases Action.bind_eq_error_iff.mp hrest with hprepare | ⟨cleared, between, hprepare, -⟩
      · exact absurd hprepare (prepareOutput_ne_unlaunched _ _ _)
      · rw [run_eq_of_prepared hcommand hprepare] at hrun
        by_cases hargs : command.leadingArgs ++ s.arguments = args
        · rcases Action.bind_eq_error_iff.mp hrun with hinvoke | ⟨generator, after, hinvoke, -⟩
          · rw [invoke_of_refusal (if_pos hargs)] at hinvoke
            cases hinvoke
            exact ⟨command, cleared, hcommand, hprepare, rfl, hargs.symm⟩
          · rw [invoke_of_refusal (if_pos hargs)] at hinvoke
            cases hinvoke
        · rcases Action.bind_eq_error_iff.mp hrun with hinvoke | ⟨generator, after, hinvoke, -⟩
          · rw [invoke_of_refusal (if_neg hargs)] at hinvoke
            cases hinvoke
          · rw [invoke_of_refusal (if_neg hargs)] at hinvoke
            cases hinvoke
  · intro h launch cause hlaunch
    obtain ⟨command, cleared, hcommand, hprepare, rfl, rfl⟩ := h
    rw [run_eq_of_prepared hcommand hprepare]
    exact Action.bind_eq_error_iff.mpr (Or.inl (invoke_of_refusal hlaunch))

/-! ## The plan of a run -/

/-- A plan is the line of the command that a run would launch. -/
theorem plan_eq_ok_iff {line : String} :
    s.plan w = .ok line ↔ ∃ command, s.command w = .ok command ∧ command.line s.arguments = line :=
  map_eq_ok_iff

/-- It fails where the command does. -/
theorem plan_eq_error_iff : s.plan w = .error fault ↔ s.command w = .error fault := by
  rw [plan]
  cases s.command w <;> simp [Except.map]

/-- **A plan and its run agree.**  A dry run changes nothing.  When there is no
plan, the run fails in the same way and changes nothing either.  And whatever
the generator does, a run that succeeds reports the line that was planned in the
world before it, and this is the line of the program and of the arguments with
which the generator was launched. -/
theorem plan_agrees_with_run (launch : Launcher) (s : Settings) (w : World) :
    (∀ i : CommandLine.Invocation, i.dryRun = true → (CommandLine.execute launch i w).2 = w) ∧
      (∀ fault, s.plan w = .error fault → s.run launch w = .error fault w) ∧
      ∀ report w', s.run launch w = .ok report w' →
        s.plan w = .ok report.generator.commandLine ∧
          ∃ program args before, s.Launches w program args before ∧
            (∃ finished root, launch program args before = .ok (finished, root)) ∧
            report.generator.commandLine = Shell.commandLine (program.text :: args) := by
  refine ⟨fun i hdry => ?_, fun fault h => ?_, fun report w' h => ?_⟩
  · unfold CommandLine.execute
    split
    · rfl
    · rw [if_pos hdry]
  · exact run_eq_error_of_command (plan_eq_error_iff.mp h) launch
  · obtain ⟨command, cleared, before, after, hcommand, hprepare, hinvoke⟩ := exists_invoke_of_run h
    obtain ⟨hlaunched, hline⟩ := invoke_eq_ok hinvoke
    exact ⟨plan_eq_ok_iff.mpr ⟨command, hcommand, hline.symm⟩, command.program, _, before,
      launches_iff.mpr ⟨command, cleared, hcommand, hprepare, rfl, rfl⟩, hlaunched, hline⟩

/-- A project with a specification, a generator and an output directory of an
earlier run. -/
def projectWorld : World :=
  ⟨.dir [("bin", .dir [("openapi-generator-cli", .file ⟨#[]⟩ true)]),
    ("openapi-client-php", .dir [("old.php", .file ⟨#[1]⟩ false)]),
    ("w", .dir [("api-docs", .dir [("index.yaml", .file ⟨#[2]⟩ false)])])],
    ["w"], [("PATH", "/bin")]⟩

/-- The settings of the project for one output directory. -/
def projectSettings (output : Path) : Settings where
  client := .php
  specPath := ⟨"/w/api-docs/index.yaml"⟩
  outputDir := output
  outputRoot := ⟨"/"⟩
  generatorName := "php"
  generatorBin := none
  templateDir := none
  params := []
  gitUser := none
  gitRepo := none
  gitHost := none
  ignored := []
  licenseTemplate := none
  sourcePatches := []

/-- The command of the project. -/
def projectCommand : GeneratorCommand :=
  ⟨⟨"/bin/openapi-generator-cli"⟩, []⟩

/-- The project has its generator on the search path. -/
theorem command_projectSettings {output : Path}
    (hvalid : (projectSettings output).validate = .ok ()) :
    (projectSettings output).command projectWorld = .ok projectCommand := by
  have hspells : projectCommand.program.Spells ["bin", "openapi-generator-cli"] := by
    decide
  have hprogram : projectWorld.isProgram projectCommand.program = true := by
    rw [World.isProgram, World.entry?, World.find,
      locate_of_spells (e := .file ⟨#[]⟩ true) hspells rfl (by simp)]
    rfl
  have hconfigured : GeneratorCommand.configured projectWorld none = .default := by
    decide
  have hsearch : projectWorld.searchPath.map (·.join GeneratorCommand.default.program) =
      [projectCommand.program] := by
    decide
  have hname : ¬ 1 < GeneratorCommand.default.program.components.length := by
    decide
  have hfound : projectWorld.findProgram? GeneratorCommand.default.program =
      some projectCommand.program := by
    rw [World.findProgram?, if_neg hname, hsearch, List.find?_cons_of_pos hprogram]
  have hresolve : GeneratorCommand.resolve projectWorld none = .ok projectCommand := by
    unfold GeneratorCommand.resolve
    dsimp only
    rw [hconfigured, hfound]
    rfl
  rw [command, hvalid]
  exact hresolve

/-- A generator that removes its own program. -/
def vanishing : Launcher := fun _ _ w =>
  .ok (⟨[], [], .code 0⟩, w.root.remove ["bin"])

/-- The output directory of the earlier run. -/
def projectOutput : Path := ⟨"/openapi-client-php"⟩

/-- The project with its output directory cleared. -/
def clearedProject : World :=
  projectWorld.withRoot (projectWorld.root.put ["openapi-client-php"] (.dir []))

/-- What is reported of a generator that wrote nothing. -/
def vanishedOutput : GeneratorOutput :=
  ⟨projectCommand.line (projectSettings projectOutput).arguments, "", "", some 0⟩

/-- The settings of the project are accepted. -/
theorem command_projectOutput :
    (projectSettings projectOutput).command projectWorld = .ok projectCommand := by
  have hvalid : (projectSettings projectOutput).validate.toOption = some () := by
    decide
  exact command_projectSettings (eq_ok_of_toOption hvalid)

/-- The file of the earlier run is removed. -/
theorem prepareOutput_projectOutput :
    (projectSettings projectOutput).prepareOutput projectWorld = .ok ⟨1, 0, []⟩ clearedProject := by
  have hspells : (projectSettings projectOutput).outputDir.Spells ["openapi-client-php"] := by
    decide
  have hends : World.withoutEndSlashes (projectSettings projectOutput).outputDir =
      (projectSettings projectOutput).outputDir := by
    decide
  have hw : projectWorld.root.WellFormed := by decide
  exact prepareOutput_of_spells hw hspells hends rfl

/-- A package without a licence is given one. -/
theorem exists_seedLicense_of_vacant {output : Path} {l : Location} {n : String}
    (h : w.locate (output.join ⟨licenseName⟩) true = .ok (.vacant l n)) :
    ∃ w', seedLicense output none w = .ok true w' := by
  have habsent : w.exists? (output.join ⟨licenseName⟩) = false := by
    rw [World.exists?, World.entry?, World.find, h]
  have hwrite : Action.writeText (output.join ⟨licenseName⟩) bundledLicense w = .ok ()
      (w.withRoot (w.root.put (l ++ [n]) (.file bundledLicense.toUTF8 false))) := by
    refine Action.onPath_eq_ok_iff.mpr ?_
    rw [World.writeText, World.writeBytes, h]
  refine ⟨w.withRoot (w.root.put (l ++ [n]) (.file bundledLicense.toUTF8 false)),
    Action.bind_eq_ok_iff.mpr ⟨w, w, rfl, ?_⟩⟩
  rw [habsent, if_neg Bool.false_ne_true]
  exact Action.bind_eq_ok_iff.mpr ⟨(), _, hwrite, rfl⟩

/-- The run on the project succeeds. -/
theorem exists_run_projectOutput :
    ∃ report w', (projectSettings projectOutput).run vanishing projectWorld = .ok report w' := by
  have hinvoke : Generator.invoke vanishing projectCommand (projectSettings projectOutput)
      clearedProject =
        .ok vanishedOutput (clearedProject.withRoot (clearedProject.root.remove ["bin"])) := by
    have hsilent : Generator.outputText [] = "" := by decide +kernel
    rw [Generator.invoke, vanishing]
    dsimp only
    rw [Generator.outcome, hsilent]
    rfl
  have hjoin : projectOutput.join ⟨licenseName⟩ = ⟨"/openapi-client-php/LICENSE.md"⟩ := by
    decide
  have hspells : (⟨"/openapi-client-php/LICENSE.md"⟩ : Path).Spells
      (["openapi-client-php"] ++ ["LICENSE.md"]) := by
    decide
  have hvacant : (clearedProject.withRoot (clearedProject.root.remove ["bin"])).locate
      (projectOutput.join ⟨licenseName⟩) true =
        .ok (.vacant ["openapi-client-php"] "LICENSE.md") := by
    rw [hjoin]
    exact locate_vacant_of_spells hspells rfl rfl true
  obtain ⟨w', hlicense⟩ := exists_seedLicense_of_vacant hvacant
  refine ⟨⟨.php, projectOutput, ⟨1, 0, []⟩, vanishedOutput, [], true⟩, w', ?_⟩
  rw [run_eq_of_prepared command_projectOutput prepareOutput_projectOutput]
  refine Action.bind_eq_ok_iff.mpr ⟨_, _, hinvoke, ?_⟩
  refine Action.bind_eq_ok_iff.mpr ⟨[], _, rfl, ?_⟩
  exact Action.bind_eq_ok_iff.mpr ⟨true, w', hlicense, rfl⟩

theorem plan_agrees_with_run_project :
    (projectSettings ⟨"/"⟩).run vanishing projectWorld =
        .error (.configuration (.outsideRoot ⟨"/"⟩ ⟨"/"⟩)) projectWorld ∧
      ∃ report w', (projectSettings projectOutput).run vanishing projectWorld = .ok report w' ∧
        (projectSettings projectOutput).plan projectWorld = .ok report.generator.commandLine := by
  have hfault : (projectSettings ⟨"/"⟩).plan projectWorld =
      .error (.configuration (.outsideRoot ⟨"/"⟩ ⟨"/"⟩)) := by
    decide +kernel
  obtain ⟨report, w', hrun⟩ := exists_run_projectOutput
  exact ⟨(plan_agrees_with_run vanishing _ projectWorld).2.1 _ hfault, report, w', hrun,
    ((plan_agrees_with_run vanishing _ projectWorld).2.2 report w' hrun).1⟩

end Settings

end ClientRegen
