import ScriptSandbox.Proofs.RunCommand

namespace ScriptSandbox.Proofs.StageOrder
open TreeGrowth FileSteps FilesOnly RunStages ExecutionLife Proofs.RunCommand
open ConfigLayers (after_load)

/-- The stages of a run, in their order. Only Python has a library to provision. -/
inductive Stage where
  | configuration | script | input | wasmer | library | image
deriving Repr, DecidableEq

/-- What a run needs is read. Each stage finds the machine as the one before it leaves it. -/
structure Read (h : Host) (line : CommandLine) (what : RunCommand) (w : World) (c : Config)
    (script : String) (input : Json) : Prop where
  loaded : (after (Config.load h line.config) w).1 = .ok c
  script_read : (after (Command.readScript h what) w).1 = .ok script
  input_read :
    (after (Command.readInput h what) (after (Command.readScript h what) w).2).1 = .ok input

/-- What a run needs is read, and a wasmer has been found. -/
structure Ready (h : Host) (line : CommandLine) (what : RunCommand) (w : World) (c : Config)
    (script : String) (input : Json) (binary : String) : Prop
    extends Read h line what w c script input where
  found : (after (Wasmer.locate h (c.override line.overrides).wasmer) w).1 = .ok binary

/-- How the image ends when it is run with these arguments among these files. -/
def imageOutcome (h : Host) (line : CommandLine) (w : World) (c : Config) (binary : String)
    (argv : List String) (t : Tree) : Except Failure Output :=
  (after (Wasmer.run h ⟨binary, (c.override line.overrides).wasmer.timeout⟩ argv)
    { w with tree := t }).1

/-- The first stage that fails and what it says. Nothing is known of those after it. -/
inductive FailsFirst (h : Host) (line : CommandLine) (what : RunCommand) (w : World) :
    Stage → Failure → Prop
  | configuration {f : Failure} (fails : (after (Config.load h line.config) w).1 = .error f) :
      FailsFirst h line what w .configuration f
  | script {c : Config} {f : Failure} (loaded : (after (Config.load h line.config) w).1 = .ok c)
      (fails : (after (Command.readScript h what) w).1 = .error f) :
      FailsFirst h line what w .script f
  | input {c : Config} {script : String} {f : Failure}
      (loaded : (after (Config.load h line.config) w).1 = .ok c)
      (script_read : (after (Command.readScript h what) w).1 = .ok script)
      (fails : (after (Command.readInput h what) (after (Command.readScript h what) w).2).1 =
        .error f) : FailsFirst h line what w .input f
  | wasmer {c : Config} {script : String} {input : Json} {f : Failure}
      (read : Read h line what w c script input)
      (fails : (after (Wasmer.locate h (c.override line.overrides).wasmer) w).1 = .error f) :
      FailsFirst h line what w .wasmer f
  | library {c : Config} {script : String} {input : Json} {binary : String} {f : Failure}
      (ready : Ready h line what w c script input binary) (python : what.language = .python)
      (fails : (after (Workspace.provision h (c.override line.overrides).python.library) w).1 =
        .error f) : FailsFirst h line what w .library f
  | image {c : Config} {script : String} {input : Json} {binary : String} {argv : List String}
      {t : Tree} {f : Failure} (ready : Ready h line what w c script input binary)
      (invoked : Invoked h (c.override line.overrides) w (requestOf what script input)
        what.language argv t)
      (fails : imageOutcome h line w c binary argv t = .error f) : FailsFirst h line what w .image f

/-- No stage fails, and the image ends with these streams. -/
inductive Passes (h : Host) (line : CommandLine) (what : RunCommand) (w : World) : Output → Prop
  | intro {c : Config} {script : String} {input : Json} {binary : String} {argv : List String}
      {t : Tree} {o : Output} (ready : Ready h line what w c script input binary)
      (invoked : Invoked h (c.override line.overrides) w (requestOf what script input)
        what.language argv t)
      (ends : imageOutcome h line w c binary argv t = .ok o) : Passes h line what w o

/-- What has not happened yet at the end of a run that fails at a stage. -/
structure NothingLater (h : Host) (what : RunCommand) (w w' : World) (stage : Stage) : Prop where
  /-- Standard input still holds what the stages after this one would read. -/
  unread : stage = .configuration → w'.stdin = w.stdin
  script_only : stage = .script → w'.stdin = (after (Command.readScript h what) w).2.stdin
  /-- No process has been started. -/
  idle : stage ∈ [.configuration, .script, .input] → w'.launches = w.launches
  /-- No process has been started but to ask binaries for their versions. -/
  asked_only : stage ≠ .image → ∃ binaries : List String,
    w'.launches = w.launches ++ binaries.map asked
  /-- No executor has been called. -/
  uncalled : stage ≠ .image → w'.calls = w.calls
  /-- No directory has been made, nor a name for one been tried. -/
  unmade : stage ∈ [.configuration, .script, .input, .wasmer] →
    w'.tree = w.tree ∧ w'.drawn = w.drawn
  gone : (∀ path, h.refuse (.removeAll path) = none) → ∀ m, w'.tree.get? m = w.tree.get? m

section
variable {h : Host} {line : CommandLine} {what : RunCommand} {w : World} {c : Config}
  {script binary : String} {input : Json} {f : Failure} {o : Output}

theorem script_outcome :
    (after (Command.readScript h what) w).1 = scriptIn h w.tree what w.stdin :=
  congrArg Prod.fst (after_readScript what)

theorem input_outcome :
    (after (Command.readInput h what) (after (Command.readScript h what) w).2).1 =
      inputIn h w.tree what (scriptLeft what w.stdin) := by
  rw [after_readScript]
  obtain ⟨left, read⟩ :=
    after_readInput (h := h) (w := { w with stdin := scriptLeft what w.stdin }) what
  exact congrArg Prod.fst read

theorem wasmer_outcome (s : WasmerConfig) :
    (after (Wasmer.locate h s) w).1 = located h w.tree s := by
  obtain ⟨log, done⟩ := after_locate (h := h) (w := w) s
  exact congrArg Prod.fst done

theorem exists_tried (h : Host) (t : Tree) (s : WasmerConfig) :
    ∃ binaries : List String, tried h t s = binaries.map asked := by
  unfold tried
  cases s.binary with
  | some path => exact ⟨[path], rfl⟩
  | none =>
    dsimp only
    split
    · exact ⟨[_], rfl⟩
    · exact ⟨[_, _], rfl⟩

/-- The execution in a run comes to what its image does. -/
theorem executed_eq {r : Request} {l : Language} {argv : List String} {t : Tree} {x : Wasmer}
    (invoked : Invoked h c w r l argv t) :
    executed h c w x r l = (after (x.run h argv) { w with tree := t }).1 := by
  refine Eq.trans ?_ (outcome_run x argv { w with tree := t }).symm
  cases invoked with
  | python provisioned => rw [executed, provisioned]
  | quickJs => rfl

/-- A run that stops while it reads what it needs has done nothing else. -/
theorem nothingLater_of_reading {stage : Stage} {left : Bytes} {log : List Event}
    (unread : stage = .configuration → left = w.stdin)
    (script_only : stage = .script → left = (after (Command.readScript h what) w).2.stdin) :
    NothingLater h what w { w with stdin := left, log := log } stage where
  unread := unread
  script_only := script_only
  idle _ := rfl
  asked_only _ := ⟨[], (List.append_nil _).symm⟩
  uncalled _ := rfl
  unmade _ := ⟨rfl, rfl⟩
  gone _ _ := rfl

theorem follow_unloaded (fails : (after (Config.load h line.config) w).1 = .error f) : ∃ log,
    after (Command.follow h line) w = (.error f, { w with log := log }) := by
  obtain ⟨log, done⟩ := after_load (h := h) (w := w) line.config
  rw [done] at fails
  dsimp only at fails
  rw [fails] at done
  exact ⟨log, after_bind_error done⟩

variable (command : line.command = .run what)

include command

theorem follow_loaded (loaded : (after (Config.load h line.config) w).1 = .ok c) : ∃ log,
    after (Command.follow h line) w =
      after (Command.performRun h (c.override line.overrides) line.format what)
        { w with log := log } := by
  obtain ⟨log, done⟩ := after_load (h := h) (w := w) line.config
  rw [done] at loaded
  dsimp only at loaded
  rw [loaded] at done
  refine ⟨log, ?_⟩
  unfold Command.follow
  rw [after_bind_ok done, command]
  rfl

/-- A run that has read what it needs goes on with the search for wasmer. -/
theorem Read.follow (read : Read h line what w c script input) : ∃ left log,
    after (Command.follow h line) w = after (do
      let e ← Command.findExecutor h (c.override line.overrides)
      let o ← (Interpreter.ofConfig (c.override line.overrides) what.language).execute h e
        (requestOf what script input)
      return Report.ofOutput line.format o) { w with stdin := left, log := log } := by
  obtain ⟨loaded, script_read, input_read⟩ := read
  obtain ⟨log, followed⟩ := follow_loaded command loaded
  rw [script_outcome] at script_read
  rw [input_outcome] at input_read
  obtain ⟨left, request⟩ := after_readRequest (h := h) (w := { w with log := log }) what
  have made : requestIn h w.tree what w.stdin = .ok (requestOf what script input) := by
    rw [requestIn, script_read, input_read]
    rfl
  dsimp only at request
  rw [made] at request
  rw [followed, Command.performRun, after_bind_ok request, after_bind, after_lift]
  exact ⟨left, _, rfl⟩

/-- A run that is ready goes on with the execution. -/
theorem Ready.follow (ready : Ready h line what w c script input binary) : ∃ left log,
    after (Command.follow h line) w = after (do
      let o ← (Interpreter.ofConfig (c.override line.overrides) what.language).execute h
        (Wasmer.executor h ⟨binary, (c.override line.overrides).wasmer.timeout⟩)
        (requestOf what script input)
      return Report.ofOutput line.format o)
        { w with
          stdin := left
          launches := w.launches ++ tried h w.tree (c.override line.overrides).wasmer
          log := log } := by
  obtain ⟨left, log, followed⟩ := ready.toRead.follow command
  have found := ready.found
  rw [wasmer_outcome] at found
  obtain ⟨log', searched⟩ := after_findExecutor (h := h) (w := { w with stdin := left, log := log })
    (c.override line.overrides)
  dsimp only at searched
  rw [found] at searched
  rw [followed, after_bind_ok searched]
  exact ⟨left, log', rfl⟩

theorem follow_unscripted (loaded : (after (Config.load h line.config) w).1 = .ok c)
    (fails : (after (Command.readScript h what) w).1 = .error f) : ∃ log,
    after (Command.follow h line) w =
      (.error f, { w with stdin := scriptLeft what w.stdin, log := log }) := by
  obtain ⟨log, followed⟩ := follow_loaded command loaded
  rw [script_outcome] at fails
  have read := after_readScript (h := h) (w := { w with log := log }) what
  dsimp only at read
  rw [fails] at read
  exact ⟨log, followed.trans (after_bind_error (after_bind_error read))⟩

theorem follow_without_input (loaded : (after (Config.load h line.config) w).1 = .ok c)
    (script_read : (after (Command.readScript h what) w).1 = .ok script)
    (fails : (after (Command.readInput h what) (after (Command.readScript h what) w).2).1 =
      .error f) : ∃ left log,
    after (Command.follow h line) w = (.error f, { w with stdin := left, log := log }) := by
  obtain ⟨log, followed⟩ := follow_loaded command loaded
  rw [script_outcome] at script_read
  rw [input_outcome] at fails
  obtain ⟨left, request⟩ := after_readRequest (h := h) (w := { w with log := log }) what
  have missing : requestIn h w.tree what w.stdin = .error f := by
    rw [requestIn, script_read, fails]
    rfl
  dsimp only at request
  rw [missing] at request
  exact ⟨left, log, followed.trans (after_bind_error request)⟩

theorem Read.unfound (read : Read h line what w c script input)
    (fails : (after (Wasmer.locate h (c.override line.overrides).wasmer) w).1 = .error f) :
    ∃ left log, after (Command.follow h line) w =
      (.error f,
        { w with
          stdin := left
          launches := w.launches ++ tried h w.tree (c.override line.overrides).wasmer
          log := log }) := by
  obtain ⟨left, log, followed⟩ := read.follow command
  rw [wasmer_outcome] at fails
  obtain ⟨log', searched⟩ := after_findExecutor (h := h) (w := { w with stdin := left, log := log })
    (c.override line.overrides)
  dsimp only at searched
  rw [fails] at searched
  exact ⟨left, log', followed.trans (after_bind_error searched)⟩

theorem Ready.unprovisioned (ready : Ready h line what w c script input binary)
    (python : what.language = .python)
    (fails : (after (Workspace.provision h (c.override line.overrides).python.library) w).1 =
      .error f) : ∃ w', after (Command.follow h line) w = (.error f, w') ∧ w'.calls = w.calls ∧
        w'.launches = w.launches ++ tried h w.tree (c.override line.overrides).wasmer := by
  obtain ⟨left, log, followed⟩ := ready.follow command
  let searched : World := { w with
    stdin := left
    launches := w.launches ++ tried h w.tree (c.override line.overrides).wasmer
    log := log }
  have tree : searched.tree = w.tree := rfl
  obtain ⟨log', provided⟩ :=
    (onFiles_provision h (c.override line.overrides).python.library).alike tree rfl
  rw [fails] at provided
  rw [python] at followed
  exact ⟨_, followed.trans (after_bind_error (after_bind_error provided)), rfl, rfl⟩

/-- The outcome of a run that is ready is that of its image. -/
theorem Ready.outcome (ready : Ready h line what w c script input binary) {argv : List String}
    {t : Tree} (invoked : Invoked h (c.override line.overrides) w (requestOf what script input)
      what.language argv t) :
    (after (Command.follow h line) w).1 = (do
      let o ← imageOutcome h line w c binary argv t
      return Report.ofOutput line.format o) := by
  obtain ⟨left, log, followed⟩ := ready.follow command
  rw [followed]
  refine Eq.trans (outcome_report (w := w) _ rfl rfl) ?_
  rw [executed_eq invoked]
  rfl

end

theorem exists_failsFirst (h : Host) (line : CommandLine) (what : RunCommand) (w : World) :
    (∃ stage f, FailsFirst h line what w stage f) ∨ ∃ o, Passes h line what w o := by
  cases loaded : (after (Config.load h line.config) w).1 with
  | error f => exact .inl ⟨_, f, .configuration loaded⟩
  | ok c =>
  cases script_read : (after (Command.readScript h what) w).1 with
  | error f => exact .inl ⟨_, f, .script loaded script_read⟩
  | ok script =>
  cases input_read :
      (after (Command.readInput h what) (after (Command.readScript h what) w).2).1 with
  | error f => exact .inl ⟨_, f, .input loaded script_read input_read⟩
  | ok input =>
  have read : Read h line what w c script input := ⟨loaded, script_read, input_read⟩
  cases found : (after (Wasmer.locate h (c.override line.overrides).wasmer) w).1 with
  | error f => exact .inl ⟨_, f, .wasmer read found⟩
  | ok binary =>
  have ready : Ready h line what w c script input binary := ⟨read, found⟩
  have ended {argv : List String} {t : Tree}
      (invoked : Invoked h (c.override line.overrides) w (requestOf what script input)
        what.language argv t) :
      (∃ stage f, FailsFirst h line what w stage f) ∨ ∃ o, Passes h line what w o := by
    cases ends : imageOutcome h line w c binary argv t with
    | error f => exact .inl ⟨_, f, .image ready invoked ends⟩
    | ok o => exact .inr ⟨o, .intro ready invoked ends⟩
  cases language : what.language with
  | quickJs =>
    rw [language] at ended
    exact ended .quickJs
  | python =>
    rw [language] at ended
    cases provided : after (Workspace.provision h (c.override line.overrides).python.library) w with
    | mk outcome w₁ =>
    cases outcome with
    | error f => exact .inl ⟨_, f, .library ready language (by rw [provided])⟩
    | ok ws => exact ended (.python provided)

/-- How the program ends that follows a command line to run a script, whatever its stages would do.
A filter for the log that cannot be read stops it before the first one. -/
structure Ordered (h : Host) (args : List String) (line : CommandLine) (what : RunCommand)
    (w : World) (report : Report) (w' : World) : Prop where
  stopped : ∀ m, Command.directives h line = .error m → report = .stopped (h.notice m) ∧ w' = w
  failed : ∀ ds, Command.directives h line = .ok ds → ∀ stage f,
    FailsFirst h line what w stage f →
      report = .ofFailure f ∧ NothingLater h what w w' stage
  passed : ∀ ds, Command.directives h line = .ok ds →
    (∀ stage f, ¬ FailsFirst h line what w stage f) →
      ∃ o, Passes h line what w o ∧ report = .ofOutput line.format o

section
variable {h : Host} {line : CommandLine} {what : RunCommand} {w : World} {f : Failure}
  {args : List String} (command : line.command = .run what)

include command

theorem Passes.follow {o : Output} (passes : Passes h line what w o) :
    (after (Command.follow h line) w).1 = .ok (.ofOutput line.format o) := by
  obtain ⟨ready, invoked, ends⟩ := passes
  rw [ready.outcome command invoked, ends]
  rfl

variable (proper : Proper w.tree) (tags : ∀ n, '/' ∉ (h.tag n).toList)
  (arranged : ∀ l names, (h.arrange l names).Perm names)

include proper tags arranged

/-- The failure of the first stage that fails is that of the run, which has stopped there. -/
theorem FailsFirst.follow {stage : Stage} (fails : FailsFirst h line what w stage f) :
    (after (Command.follow h line) w).1 = .error f ∧
      NothingLater h what w (after (Command.follow h line) w).2 stage := by
  have gone (removable : ∀ path, h.refuse (.removeAll path) = none) :=
    files_follow tags arranged removable command proper
  unfold Ensures at gone
  cases fails with
  | configuration fails =>
    obtain ⟨log, done⟩ := follow_unloaded fails
    rw [done]
    exact ⟨rfl, nothingLater_of_reading (fun _ => rfl) nofun⟩
  | script loaded fails =>
    obtain ⟨log, done⟩ := follow_unscripted command loaded fails
    rw [done]
    refine ⟨rfl, nothingLater_of_reading nofun ?_⟩
    intro _
    rw [after_readScript]
  | input loaded script_read fails =>
    obtain ⟨left, log, done⟩ := follow_without_input command loaded script_read fails
    rw [done]
    exact ⟨rfl, nothingLater_of_reading nofun nofun⟩
  | wasmer read fails =>
    obtain ⟨left, log, done⟩ := read.unfound command fails
    obtain ⟨binaries, tried⟩ := exists_tried h w.tree _
    rw [tried] at done
    rw [done]
    refine ⟨rfl, nofun, nofun, ?_, fun _ => ⟨binaries, rfl⟩, fun _ => rfl, fun _ => ⟨rfl, rfl⟩,
      fun _ _ => rfl⟩
    intro reading
    simp at reading
  | library ready python fails =>
    obtain ⟨w', done, calls, launches⟩ := ready.unprovisioned command python fails
    obtain ⟨binaries, tried⟩ := exists_tried h w.tree _
    rw [tried] at launches
    rw [done] at gone ⊢
    refine ⟨rfl, nofun, nofun, ?_, fun _ => ⟨binaries, launches⟩, fun _ => calls, ?_, gone⟩
    · intro early
      simp at early
    · intro early
      simp at early
  | image ready invoked fails =>
    refine ⟨?_, nofun, nofun, ?_, fun other => absurd rfl other, fun other => absurd rfl other,
      ?_, gone⟩
    · rw [ready.outcome command invoked, fails]
      rfl
    · intro early
      simp at early
    · intro early
      simp at early

/-- Whatever would go wrong in a run, it ends with what goes wrong first, and without what comes
after that. -/
theorem ordered_program (accepted : CommandLine.parse h.lookup args = .ok line) :
    Ordered h args line what w ((Command.program h args).run w).1
      ((Command.program h args).run w).2 := by
  refine ⟨?_, ?_, ?_⟩
  · intro m unreadable
    rw [(program_stopped accepted unreadable).1]
    exact ⟨rfl, rfl⟩
  · intro ds filter stage f fails
    obtain ⟨outcome, nothing⟩ := fails.follow command proper tags arranged
    rw [program_eq accepted filter, outcome]
    exact ⟨rfl, nothing⟩
  · intro ds filter none_fails
    rcases exists_failsFirst h line what w with ⟨stage, f, fails⟩ | ⟨o, passes⟩
    · exact absurd fails (none_fails stage f)
    · rw [program_eq accepted filter, passes.follow command]
      exact ⟨o, passes, rfl⟩

end

/-- No wasmer can be started here, and what the events are that are shown is told. -/
def sampleScene : Host where
  env := [("RUST_LOG", "")]
  tag n := String.ofList (List.replicate (n + 1) 'x')

/-- The script is missing and the input no JSON. -/
def sampleArguments : List String :=
  ["run", "--lang", "python", "--file", "/none", "--input", "["]

def sampleCommand : RunCommand where
  language := .python
  file := some "/none"
  input := some "["

theorem failsFirst_sample : FailsFirst sampleScene { command := .run sampleCommand } sampleCommand
    { tree := WorkspacesApart.sampleTree } .script (.io (.system SystemCode.noEntry)) :=
  .script (c := {}) rfl rfl

theorem ordered_program_sample :
    ((Command.program sampleScene sampleArguments).run { tree := WorkspacesApart.sampleTree }).1 =
      .ofFailure (.io (.system SystemCode.noEntry)) ∧
    ((Command.program sampleScene sampleArguments).run
      { tree := WorkspacesApart.sampleTree }).2.launches = [] := by
  have accepted : CommandLine.parse sampleScene.lookup sampleArguments =
      .ok { command := .run sampleCommand } := rfl
  have filter : Command.directives sampleScene { command := .run sampleCommand } = .ok [] :=
    directives_empty rfl
  have tags (n : Nat) : '/' ∉ (sampleScene.tag n).toList := by
    simp [sampleScene, List.mem_replicate]
  have proper : Proper ({ tree := WorkspacesApart.sampleTree } : World).tree :=
    WorkspacesApart.setting_sample.proper
  have ordered := ordered_program rfl proper tags (fun _ names => List.Perm.refl names) accepted
  obtain ⟨report, nothing⟩ := ordered.failed [] filter .script _ failsFirst_sample
  exact ⟨report, nothing.idle (by decide)⟩

def misfitScene : Host := { sampleScene with env := [("RUST_LOG", " aé=info")] }

/-- A filter that cannot be cut into its parts counts before the script that is missing. -/
theorem misfit_first :
    CommandLine.parse misfitScene.lookup sampleArguments =
      .ok { command := .run sampleCommand } ∧
    ∃ f, FailsFirst misfitScene { command := .run sampleCommand } sampleCommand
        { tree := WorkspacesApart.sampleTree } .script f ∧
      ((Command.program misfitScene sampleArguments).run
        { tree := WorkspacesApart.sampleTree }).1 ≠ .ofFailure f := by
  have accepted : CommandLine.parse misfitScene.lookup sampleArguments =
      .ok { command := .run sampleCommand } := rfl
  have unreadable : Command.directives misfitScene { command := .run sampleCommand } =
      .error ⟨" aé=info", 0, 3⟩ := rfl
  refine ⟨accepted, .io (.system SystemCode.noEntry), .script (c := {}) rfl rfl, ?_⟩
  rw [(program_stopped accepted unreadable).1]
  intro same
  have status := congrArg Report.status same
  cases status

end ScriptSandbox.Proofs.StageOrder
