import ScriptSandbox.Proofs.RunCommand
import ScriptSandbox.Proofs.RunLines

namespace ScriptSandbox.Proofs.Unseen
open FileSteps FilesOnly RunStages ExecutionLife RunLines
open ConfigLayers (after_load)
open WorkspacesApart (invocation after_invoke)
open WorkspaceLife (world_releaseNoted)

/-- The worlds differ at most in what is in the log. -/
def ButLog (w w' : World) : Prop := ∃ log, w' = { w with log := log }

/-- The second step does what the first one does, whatever is in the log, and may note other
things. -/
def Alike {ε α : Type} (x y : ExceptT ε (StateM World) α) : Prop :=
  ∀ w log, ∃ log', after y { w with log := log } =
    ((after x w).1, { (after x w).2 with log := log' })

section
variable {ε ε' α β : Type} {x y : ExceptT ε (StateM World) α}
  {f g : α → ExceptT ε (StateM World) β} {w : World}

theorem Alike.same (alike : Alike x y) (w : World) :
    (after y w).1 = (after x w).1 ∧ ButLog (after x w).2 (after y w).2 := by
  obtain ⟨log, done⟩ := alike w w.log
  have same : after y w = ((after x w).1, { (after x w).2 with log := log }) := done
  rw [same]
  exact ⟨rfl, log, rfl⟩

theorem alike_pure (a : α) : Alike (pure a : ExceptT ε (StateM World) α) (pure a) :=
  fun _ log => ⟨log, rfl⟩

theorem alike_throw (e : ε) : Alike (throw e : ExceptT ε (StateM World) α) (throw e) :=
  fun _ log => ⟨log, rfl⟩

theorem Alike.bind (first : Alike x y) (next : ∀ a, Alike (f a) (g a)) :
    Alike (x >>= f) (y >>= g) := by
  intro w log
  obtain ⟨log', done⟩ := first w log
  cases reached : after x w with
  | mk outcome w₁ =>
  rw [reached] at done
  cases outcome with
  | error e =>
    rw [after_bind_error reached, after_bind_error done]
    exact ⟨log', rfl⟩
  | ok a =>
    rw [after_bind_ok reached, after_bind_ok done]
    exact next a w₁ log'

/-- Only the log shows what is noted. -/
theorem alike_note {area area' : Area} {level level' : Level} {message message' : String}
    {details details' : List (String × Detail)} :
    Alike (liftM (World.note area level message details) : ExceptT ε (StateM World) Unit)
      (liftM (World.note area' level' message' details')) :=
  fun _ _ => ⟨_, rfl⟩

theorem Alike.outcomeOf (alike : Alike x y) :
    Alike (outcomeOf x : ExceptT ε' (StateM World) (Except ε α)) (outcomeOf y) := by
  intro w log
  obtain ⟨log', done⟩ := alike w log
  exact ⟨log', by simp [done]⟩

/-- Steps on files look at nothing but the files. -/
theorem alike_onFiles (files : OnFiles x) : Alike x x := by
  obtain ⟨result, same⟩ := files
  intro w log
  obtain ⟨first, done⟩ := same w
  obtain ⟨second, done'⟩ := same { w with log := log }
  exact ⟨second, by rw [done, done']⟩

end

/-- The program that an interpreter is given for a request. -/
def programOf (i : Interpreter) (r : Request) : String :=
  (i.language.wrap r.script r.input).source

/-- The arguments that an interpreter is run with, and the directory that is mapped for it, if the
world at the start lets it have one. -/
inductive Handed (h : Host) (w : World) (r : Request) : Interpreter → List String → Prop
  | python {image library : String} {ws : Workspace} {w₁ : World}
      (provisioned : after (Workspace.provision h library) w = (.ok ws, w₁)) :
      Handed h w r (.python image library) (invocation image ws r).argv
  | quickJs {image : String} : Handed h w r (.quickJs image)
      (Invocation.quickJs image (Program.quickJs r.script r.input)).argv

/-- The arguments of the calls that an execution adds to those made before. -/
def handed (h : Host) (e : Executor) (i : Interpreter) (r : Request) (w : World) :
    List (List String) :=
  ((after (i.execute h e r) w).2.calls.drop w.calls.length).map Call.argv

/-- The executor makes no record of calls by itself. -/
def RecordsNone (e : Executor) : Prop := ∀ argv w, (after (e.run argv) w).2.calls = w.calls

section
variable {h h' : Host} {e e' : Executor} {i : Interpreter} {r r' : Request} {w w' : World}

theorem handed_of_calls {new : List Call}
    (calls : (after (i.execute h e r) w).2.calls = w.calls ++ new) :
    handed h e i r w = new.map Call.argv := by
  rw [handed, calls, List.drop_left]

/-- At most one call is made, with the arguments of the interpreter. -/
theorem handed_execute (silent : RecordsNone e) {argv : List String}
    (there : argv ∈ handed h e i r w) : Handed h w r i argv := by
  cases i with
  | python image library =>
    cases provided : after (Workspace.provision h library) w with
    | mk outcome w₁ =>
    cases outcome with
    | error f =>
      have kept := calls_provision h library w
      rw [provided] at kept
      have done : after (Interpreter.execute h e r (.python image library)) w = (.error f, w₁) :=
        after_bind_error provided
      have calls : (after (Interpreter.execute h e r (.python image library)) w).2.calls =
          w.calls ++ [] := by
        rw [done, kept, List.append_nil]
      rw [handed_of_calls calls] at there
      cases there
    | ok ws =>
      obtain ⟨log, log', done⟩ := after_execute e r image provided
      have calls : (after (Interpreter.execute h e r (.python image library)) w).2.calls =
          w.calls ++ [⟨(invocation image ws r).argv, w₁.tree⟩] := by
        rw [done]
        exact ((onFiles_removeAll h ws.path).calls _).trans (silent _ _)
      rw [handed_of_calls calls, List.map_singleton, List.mem_singleton] at there
      exact there ▸ .python provided
  | quickJs image =>
    obtain ⟨log, done⟩ := after_invoke e .quickJs r
      (Invocation.quickJs image (Program.quickJs r.script r.input)) w
    have calls : (after (Interpreter.execute h e r (.quickJs image)) w).2.calls = w.calls ++
        [⟨(Invocation.quickJs image (Program.quickJs r.script r.input)).argv, w.tree⟩] :=
      (congrArg (fun done => done.2.calls) done).trans (silent _ _)
    rw [handed_of_calls calls, List.map_singleton, List.mem_singleton] at there
    exact there ▸ .quickJs

/-- Requests with the same script and the same input. -/
structure SameTask (r r' : Request) : Prop where
  script : r'.script = r.script
  input : r'.input = r.input

theorem SameTask.program (same : SameTask r r') : programOf i r' = programOf i r := by
  rw [programOf, same.script, same.input, programOf]

/-- Two executions by one interpreter are handed the same, but for the program at the end and for
the place of the workspace. -/
structure Resembling (h h' : Host) (i : Interpreter) (r r' : Request) (w w' : World)
    (argv argv' : List String) : Prop where
  length : argv'.length = argv.length
  /-- The last argument is the program, and only in Python can another one differ. -/
  elsewhere : ∀ n, n + 1 < argv.length → (i.language = .python → n ≠ 1) → argv'[n]? = argv[n]?
  /-- It is the second one, which maps the workspace. -/
  mapped : ∀ image library, i = .python image library →
    ∃ ws w₁ ws' w₁', after (Workspace.provision h library) w = (.ok ws, w₁) ∧
      after (Workspace.provision h' library) w' = (.ok ws', w₁') ∧
      argv[1]? = some ("--mapdir=lib:" ++ ws.path) ∧ argv'[1]? = some ("--mapdir=lib:" ++ ws'.path)
  program : argv.getLast? = some (programOf i r) ∧ argv'.getLast? = some (programOf i r')
  same_program : SameTask r r' → argv'.getLast? = argv.getLast?

@[simp]
theorem argv_python (image path : String) (p : Program) : (Invocation.python image path p).argv =
    [image, "--mapdir=lib:" ++ path, "--", "-B", "-q", "-c", p.source] := rfl

@[simp]
theorem argv_quickJs (image : String) (p : Program) :
    (Invocation.quickJs image p).argv = [image, "--", "--std", "-e", p.source] := rfl

theorem elsewhere_python {image m m' p p' : String} {n : Nat}
    (inside : n + 1 < [image, m, "--", "-B", "-q", "-c", p].length) (second : n ≠ 1) :
    [image, m', "--", "-B", "-q", "-c", p'][n]? = [image, m, "--", "-B", "-q", "-c", p][n]? := by
  match n with
  | 0 => rfl
  | 1 => exact absurd rfl second
  | 2 | 3 | 4 | 5 => rfl
  | n + 6 => exact absurd inside (by simp)

theorem elsewhere_quickJs {image p p' : String} {n : Nat}
    (inside : n + 1 < [image, "--", "--std", "-e", p].length) :
    [image, "--", "--std", "-e", p'][n]? = [image, "--", "--std", "-e", p][n]? := by
  match n with
  | 0 | 1 | 2 | 3 => rfl
  | n + 4 => exact absurd inside (by simp)

theorem Handed.resembling {argv argv' : List String} (one : Handed h w r i argv)
    (other : Handed h' w' r' i argv') : Resembling h h' i r r' w w' argv argv' := by
  cases one with
  | @python image library ws w₁ provisioned =>
    cases other with
    | @python _ _ ws' w₁' provisioned' =>
    have program (r : Request) (ws : Workspace) : (invocation image ws r).argv.getLast? =
        some (programOf (.python image library) r) := rfl
    refine ⟨by simp [invocation], ?_, ?_, ⟨program r ws, program r' ws'⟩, ?_⟩
    · intro n inside second
      exact elsewhere_python inside (second rfl)
    · rintro image library same
      cases same
      exact ⟨ws, w₁, ws', w₁', provisioned, provisioned', rfl, rfl⟩
    · intro same
      rw [program, program, same.program]
  | @quickJs image =>
    cases other with
    | quickJs =>
    have program (r : Request) :
        (Invocation.quickJs image (Program.quickJs r.script r.input)).argv.getLast? =
          some (programOf (.quickJs image) r) := rfl
    refine ⟨by simp, ?_, nofun, ⟨program r, program r'⟩, ?_⟩
    · intro n inside _
      exact elsewhere_quickJs inside
    · intro same
      rw [program, program, same.program]

/-- Nothing but the log tells requests apart that have the same script and the same input. -/
theorem same_execute (same : SameTask r r') :
    (after (i.execute h e r') w).1 = (after (i.execute h e r) w).1 ∧
      ButLog (after (i.execute h e r) w).2 (after (i.execute h e r') w).2 := by
  cases i with
  | python image library =>
    cases provided : after (Workspace.provision h library) w with
    | mk outcome w₁ =>
    cases outcome with
    | error f =>
      have done (r : Request) :
          after (Interpreter.execute h e r (.python image library)) w = (.error f, w₁) :=
        after_bind_error provided
      rw [done, done]
      exact ⟨rfl, w₁.log, rfl⟩
    | ok ws =>
      have argv : (invocation image ws r').argv = (invocation image ws r).argv := by
        rw [invocation, invocation, same.script, same.input]
      obtain ⟨log₁, log₂, done⟩ := after_execute e r image provided
      obtain ⟨log₁', log₂', done'⟩ := after_execute e r' image provided
      rw [argv] at done'
      rw [done, done']
      generalize after (e.run (invocation image ws r).argv) _ = ran
      obtain ⟨log, removed⟩ := alike_onFiles (onFiles_removeAll h ws.path)
        { ran.2 with log := log₁ } log₁'
      rw [removed]
      exact ⟨rfl, log₂', rfl⟩
  | quickJs image =>
    obtain ⟨log, done⟩ := after_invoke e .quickJs r
      (Invocation.quickJs image (Program.quickJs r.script r.input)) w
    obtain ⟨log', done'⟩ := after_invoke e .quickJs r'
      (Invocation.quickJs image (Program.quickJs r'.script r'.input)) w
    have argv : (Invocation.quickJs image (Program.quickJs r'.script r'.input)).argv =
        (Invocation.quickJs image (Program.quickJs r.script r.input)).argv := by
      rw [same.script, same.input]
    rw [argv] at done'
    unfold Interpreter.execute
    dsimp only
    rw [done, done']
    exact ⟨rfl, log', rfl⟩

theorem alike_settle {α : Type} (outcome : Except Failure α) :
    Alike (settle outcome) (settle outcome) := by
  cases outcome with
  | ok value => exact alike_pure value
  | error f => exact alike_throw f

theorem alike_release (ws : Workspace) : Alike (liftM (ws.releaseNoted h) : Action Unit)
    (liftM (ws.releaseNoted h)) := by
  intro w log
  obtain ⟨log₁, released⟩ := world_releaseNoted (h := h) ws w
  obtain ⟨log₂, released'⟩ := world_releaseNoted (h := h) ws { w with log := log }
  obtain ⟨log₃, removed⟩ := alike_onFiles (onFiles_removeAll h ws.path) w log
  rw [after_lift, after_lift, released, released', removed]
  exact ⟨log₂, rfl⟩

/-- An executor that does not look at the log is all that an execution consists of, but for what is
noted of the request. -/
theorem alike_execute (blind : ∀ argv, Alike (e.run argv) (e.run argv)) (same : SameTask r r') :
    Alike (i.execute h e r) (i.execute h e r') := by
  have called (argv : List String) : Alike (e.call argv) (e.call argv) :=
    fun w log => blind argv { w with calls := w.calls ++ [⟨argv, w.tree⟩] } log
  have invoked (l : Language) (v : Invocation) :
      Alike (Interpreter.invoke e l r v) (Interpreter.invoke e l r' v) := by
    apply (called v.argv).outcomeOf.bind
    intro outcome
    cases outcome with
    | ok o => exact (alike_note.bind fun _ => alike_note).bind fun _ => alike_pure o
    | error f => exact alike_note.bind fun _ => alike_throw f
  cases i with
  | python image library =>
    unfold Interpreter.execute
    rw [same.script, same.input]
    apply (alike_onFiles (onFiles_provision h library)).bind
    intro ws
    apply (invoked .python _).outcomeOf.bind
    intro outcome
    exact (alike_release ws).bind fun _ => alike_settle outcome
  | quickJs image =>
    unfold Interpreter.execute
    rw [same.script, same.input]
    exact invoked .quickJs _

theorem alike_wasmer (x : Wasmer) (argv : List String) :
    Alike ((x.executor h).run argv) ((x.executor h).run argv) := by
  intro w log
  obtain ⟨log₁, done⟩ := after_run (h := h) (w := w) x argv
  obtain ⟨log₂, done'⟩ := after_run (h := h) (w := { w with log := log }) x argv
  have ran : (x.executor h).run argv = x.run h argv := rfl
  rw [ran, done, done']
  exact ⟨log₂, rfl⟩

theorem alike_load (chosen : Option String) :
    Alike (Config.load h chosen) (Config.load h chosen) := by
  intro w log
  obtain ⟨log₁, done⟩ := after_load (h := h) (w := w) chosen
  obtain ⟨log₂, done'⟩ := after_load (h := h) (w := { w with log := log }) chosen
  rw [done, done']
  exact ⟨log₂, rfl⟩

theorem alike_locate (c : WasmerConfig) : Alike (Wasmer.locate h c) (Wasmer.locate h c) := by
  intro w log
  obtain ⟨log₁, done⟩ := after_locate (h := h) (w := w) c
  obtain ⟨log₂, done'⟩ := after_locate (h := h) (w := { w with log := log }) c
  rw [done, done']
  exact ⟨log₂, rfl⟩

theorem alike_readText (path : String) :
    Alike (Command.readText h path) (Command.readText h path) := by
  intro w log
  rw [after_readText, after_readText]
  exact ⟨log, rfl⟩

theorem alike_readScript (what : RunCommand) :
    Alike (Command.readScript h what) (Command.readScript h what) := by
  intro w log
  rw [after_readScript, after_readScript]
  exact ⟨log, rfl⟩

theorem alike_readInput (what : RunCommand) :
    Alike (Command.readInput h what) (Command.readInput h what) := by
  unfold Command.readInput
  cases what.input with
  | some document => exact alike_settle _
  | none =>
    cases what.inputFile with
    | some path => exact (alike_readText path).bind fun _ => alike_settle _
    | none => exact alike_pure _

/-- The same run with another label and with other arguments for the script. -/
def renamed (what : RunCommand) (args : List String) (taskId : Option String) : RunCommand :=
  { what with args := args, taskId := taskId }

theorem alike_performRun (c : Config) (format : Format) (what : RunCommand) (args : List String)
    (taskId : Option String) : Alike (Command.performRun h c format what)
      (Command.performRun h c format (renamed what args taskId)) := by
  unfold Command.performRun Command.readRequest Command.findExecutor Wasmer.ofConfig
  simp only [bind_assoc, pure_bind]
  apply (alike_readScript what).bind
  intro script
  apply (alike_readInput what).bind
  intro input
  apply alike_note.bind
  intro _
  apply (alike_locate c.wasmer).bind
  intro binary
  apply alike_note.bind
  intro _
  have same : SameTask (RunCommand.requestOf what script input)
      (RunCommand.requestOf (renamed what args taskId) script input) := ⟨rfl, rfl⟩
  have executed := alike_execute (h := h) (i := .ofConfig c what.language)
    (alike_wasmer (h := h) ⟨binary, c.wasmer.timeout⟩) same
  exact executed.bind fun o => alike_pure (Report.ofOutput format o)

/-- Two command lines to run a script come to the same, but for what is noted on the way and for
how the run and its arguments are called. -/
structure SameRun (h : Host) (args args' : List String) (line : CommandLine) (what' : RunCommand)
    (w : World) : Prop where
  /-- Every other part of the command line is the same. -/
  parsed : CommandLine.parse h.lookup args' = .ok { line with command := .run what' }
  /-- What is printed and the status are the same. -/
  report : ((Command.program h args').run w).1 = ((Command.program h args).run w).1
  /-- So are the processes, the calls with their arguments, the files, and what is left to read. -/
  world : ButLog ((Command.program h args).run w).2 ((Command.program h args').run w).2
  /-- And nothing is shown of the log if it is off. -/
  quiet : ∀ ds, Command.directives h line = .ok ds → (∀ e : Event, e.isShown ds = false) →
    Command.shownEvents h args ((Command.program h args).run w).2 = [] ∧
      Command.shownEvents h args' ((Command.program h args').run w).2 = []

section
variable {args args' : List String} {line : CommandLine} {what : RunCommand}

theorem alike_follow (command : line.command = .run what) (texts : List String)
    (taskId : Option String) : Alike (Command.follow h line)
      (Command.follow h { line with command := .run (renamed what texts taskId) }) := by
  unfold Command.follow
  rw [command]
  exact (alike_load line.config).bind fun c => alike_performRun _ _ what texts taskId

theorem sameRun (accepted : CommandLine.parse h.lookup args = .ok line)
    (command : line.command = .run what) {texts : List String} {taskId : Option String}
    (parsed : CommandLine.parse h.lookup args' =
      .ok { line with command := .run (renamed what texts taskId) }) (w : World) :
    SameRun h args args' line (renamed what texts taskId) w := by
  have filter : Command.directives h { line with command := .run (renamed what texts taskId) } =
      Command.directives h line := rfl
  cases directives : Command.directives h line with
  | error m =>
    have stopped := (RunCommand.program_stopped (w := w) accepted directives).1
    have stopped' := (RunCommand.program_stopped (w := w) parsed directives).1
    refine ⟨parsed, by rw [stopped, stopped'], ⟨w.log, by rw [stopped, stopped']⟩, ?_⟩
    intro ds readable
    cases directives.symm.trans readable
  | ok ds =>
    obtain ⟨outcome, world⟩ := (alike_follow (h := h) command texts taskId).same w
    refine ⟨parsed, ?_, ?_, ?_⟩
    · rw [RunCommand.program_eq accepted directives, RunCommand.program_eq parsed directives,
        outcome]
    · rw [RunCommand.program_eq accepted directives, RunCommand.program_eq parsed directives]
      exact world
    · intro ds' readable off
      obtain rfl := Except.ok.inj (directives.symm.trans readable)
      exact ⟨RunCommand.shownEvents_eq_nil accepted directives off _,
        RunCommand.shownEvents_eq_nil parsed directives off _⟩

end

end

/-- What of requests and of command lines makes no difference to a run by the interpreter `i` on the
machine `h`. -/
structure Hidden (i : Interpreter) (h : Host) : Prop where
  /-- Any two requests are handed over in the same way, whatever else is different. -/
  handed : ∀ {h' : Host} {e e' : Executor} {r r' : Request} {w w' : World}, RecordsNone e →
    RecordsNone e' → ∀ argv ∈ handed h e i r w, ∀ argv' ∈ handed h' e' i r' w',
      Resembling h h' i r r' w w' argv argv'
  /-- With the same script and input, what the executor answers is the same, and what is left. -/
  execution : ∀ {e : Executor} {r r' : Request} {w : World}, SameTask r r' →
    (after (i.execute h e r') w).1 = (after (i.execute h e r) w).1 ∧
      ButLog (after (i.execute h e r) w).2 (after (i.execute h e r') w).2
  /-- The label of a run can be replaced, or added. -/
  label : ∀ {args args' : List String} {line : CommandLine} {what : RunCommand} {label : String},
    CommandLine.parse h.lookup args = .ok line → line.command = .run what →
      Relabelled label what args args' → ∀ w, SameRun h args args' line
        { what with taskId := some label } w
  /-- Whatever texts there are after two lone dashes can be replaced by others, or added. -/
  tail : ∀ {args : List String} {line : CommandLine} {what : RunCommand},
    CommandLine.parse h.lookup args = .ok line → line.command = .run what →
      ∀ texts w, SameRun h args (withTail args texts) line { what with args := texts } w

/-- An interpreter sees of a request its program alone. -/
theorem hidden_interpreter (i : Interpreter) (h : Host) : Hidden i h where
  handed silent silent' _ there _ there' :=
    (handed_execute silent there).resembling (handed_execute silent' there')
  execution := same_execute
  label accepted command relabelled := sameRun accepted command
    (parse_relabelled accepted command relabelled)
  tail accepted command texts := sameRun accepted command (parse_withTail accepted command texts)

theorem place_sample : Place RunCommand.sampleArguments := by
  have outer : Grammar.Reads .program 0 ["--wasmer", "/wasmer"] _ 0 :=
    .value rfl (by decide) .nil
  have own : Grammar.Reads .run 0 ["--lang", "python", "1"] _ 1 :=
    .value rfl (by decide) (.word (by decide) rfl rfl .nil)
  exact ⟨_, _, _, _, _, _, rfl, outer, own⟩

/-- What looks like an option is one in the label or after two lone dashes as little as anything. -/
theorem hidden_interpreter_sample :
    SameRun RunCommand.sampleScene RunCommand.sampleArguments
      (RunCommand.sampleArguments ++ ["--task-id=--help"]) RunCommand.sampleLine
      { RunCommand.sampleCommand with taskId := some "--help" } { tree := RunCommand.sampleFiles } ∧
    SameRun RunCommand.sampleScene RunCommand.sampleArguments
      (RunCommand.sampleArguments ++ ["--", "--help", "-x"]) RunCommand.sampleLine
      { RunCommand.sampleCommand with args := ["--help", "-x"] }
      { tree := RunCommand.sampleFiles } := by
  have accepted : CommandLine.parse RunCommand.sampleScene.lookup RunCommand.sampleArguments =
      .ok RunCommand.sampleLine := rfl
  have hidden := hidden_interpreter (.quickJs "quickjs") RunCommand.sampleScene
  refine ⟨hidden.label accepted rfl ?_ _, hidden.tail accepted rfl ["--help", "-x"] _⟩
  show Relabelled _ _ (RunCommand.sampleArguments ++ []) (RunCommand.sampleArguments ++ [_])
  exact .added place_sample rfl

end ScriptSandbox.Proofs.Unseen
