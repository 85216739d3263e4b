import ScriptSandbox.Command.Run
import ScriptSandbox.Proofs.FileSteps

namespace ScriptSandbox.Proofs.RunStages
open FileSteps

section
variable {h : Host} {w : World}

/-- What a binary answers to its arguments, if it can be started. -/
def answer (h : Host) (t : Tree) (binary : String) (args : List String) : Except HostError Reply :=
  if (binary :: args).any (·.toList.contains '\x00') then .error .nulInArgument
  else h.runBinary t binary args

/-- A launch is recorded, also when it fails. -/
@[simp]
theorem after_launch (binary : String) (args : List String) : after (h.launch binary args) w =
    (answer h w.tree binary args, { w with launches := w.launches ++ [⟨binary, args⟩] }) := by
  simp only [Host.launch, answer, after_bind, after_modify]
  split
  · rfl
  · simp only [after_bind, after_get]
    cases h.runBinary w.tree binary args with
    | ok reply => rfl
    | error e => rfl

/-- What the binary calls its version, if it answers and ends well. -/
def version (h : Host) (t : Tree) (binary : String) : Option String :=
  match answer h t binary ["--version"] with
  | .ok reply =>
    if reply.ending = .exit 0 then some (trimmed (Utf8.decodeLossy reply.stdout)) else none
  | .error _ => none

def asked (binary : String) : Launch := ⟨binary, ["--version"]⟩

@[simp]
theorem after_version (binary : String) : after (Wasmer.version? h binary) w =
    (.ok (version h w.tree binary), { w with launches := w.launches ++ [asked binary] }) := by
  simp only [Wasmer.version?, after_bind, after_outcomeOf, after_launch, version]
  cases answer h w.tree binary ["--version"] with
  | ok reply => rfl
  | error e => rfl

/-- The binary that is found in this tree, or why none is. -/
def located (h : Host) (t : Tree) (c : WasmerConfig) : Except Failure String :=
  match c.binary with
  | some path => if (version h t path).isSome then .ok path else .error (.wasmerNotFound path)
  | none =>
    if (version h t Wasmer.systemBinary).isSome then .ok Wasmer.systemBinary
    else if (version h t (Wasmer.cachedBinary h)).isSome then .ok (Wasmer.cachedBinary h)
    else .error (Wasmer.missing c.autoDownload)

/-- The binaries that are asked on the way. -/
def tried (h : Host) (t : Tree) (c : WasmerConfig) : List Launch :=
  match c.binary with
  | some path => [asked path]
  | none =>
    if (version h t Wasmer.systemBinary).isSome then [asked Wasmer.systemBinary]
    else [asked Wasmer.systemBinary, asked (Wasmer.cachedBinary h)]

theorem after_locate (c : WasmerConfig) : ∃ log, after (Wasmer.locate h c) w =
    (located h w.tree c, { w with launches := w.launches ++ tried h w.tree c, log := log }) := by
  unfold Wasmer.locate located tried
  cases c.binary with
  | some path =>
    simp only [after_bind, after_version]
    cases version h w.tree path with
    | some text => exact ⟨_, rfl⟩
    | none => exact ⟨w.log, rfl⟩
  | none =>
    simp only [after_bind, after_version]
    cases version h w.tree Wasmer.systemBinary with
    | some text => exact ⟨_, rfl⟩
    | none =>
      simp only [after_bind, after_version, List.append_assoc]
      cases version h w.tree (Wasmer.cachedBinary h) with
      | some text => exact ⟨_, rfl⟩
      | none => exact ⟨w.log, rfl⟩

/-- The executor of a configuration. -/
theorem after_findExecutor (c : Config) : ∃ log, after (Command.findExecutor h c) w =
    ((located h w.tree c.wasmer).map fun binary =>
      Wasmer.executor h ⟨binary, c.wasmer.timeout⟩,
      { w with launches := w.launches ++ tried h w.tree c.wasmer, log := log }) := by
  obtain ⟨log, found⟩ := after_locate (h := h) (w := w) c.wasmer
  simp only [Command.findExecutor, Wasmer.ofConfig, after_bind, found]
  cases located h w.tree c.wasmer with
  | error f => exact ⟨log, rfl⟩
  | ok path => exact ⟨_, rfl⟩

/-- What the answer to `run` makes of a run. -/
def ended (x : Wasmer) : Except HostError Reply → Except Failure Output
  | .error e => .error (.sandboxLaunch x.binary e)
  | .ok reply =>
    match x.expired reply with
    | some seconds => .error (.sandboxTimeout seconds)
    | none =>
      if reply.ending = .exit 0 then
        .ok ⟨Utf8.decodeLossy reply.stdout, Utf8.decodeLossy reply.stderr⟩
      else .error (.sandboxExecution (Wasmer.status reply.ending) (Utf8.decodeLossy reply.stdout)
        (Utf8.decodeLossy reply.stderr))

theorem after_run (x : Wasmer) (args : List String) : ∃ log, after (x.run h args) w =
    (ended x (answer h w.tree x.binary ("run" :: args)),
      { w with launches := w.launches ++ [⟨x.binary, "run" :: args⟩], log := log }) := by
  simp only [Wasmer.run, ended, after_bind, after_lift, run_note, after_attempt, after_launch]
  generalize w.log ++ _ = log
  cases answer h w.tree x.binary ("run" :: args) with
  | error e => exact ⟨log, rfl⟩
  | ok reply =>
    dsimp only [mapError_ok]
    cases x.expired reply with
    | some seconds => exact ⟨log, rfl⟩
    | none =>
      simp only [after_bind, after_lift, run_note]
      split
      · exact ⟨_, rfl⟩
      · exact ⟨_, rfl⟩

/-- What standard input holds after the text of a path has been read. -/
def leftBy (path : String) (stdin : Bytes) : Bytes :=
  if Path.isStandardInput path then [] else stdin

/-- The text that a path stands for. -/
def textIn (h : Host) (t : Tree) (stdin : Bytes) (path : String) : Except Failure String :=
  if Path.isStandardInput path then
    match Utf8.decode stdin with
    | some text => .ok text
    | none => .error (.io .notUtf8)
  else (t.readText h.cwd path).mapError .io

@[simp]
theorem run_takeInput : World.takeInput.run w = (w.stdin, { w with stdin := [] }) := rfl

@[simp]
theorem after_readText (path : String) : after (Command.readText h path) w =
    (textIn h w.tree w.stdin path, { w with stdin := leftBy path w.stdin }) := by
  unfold Command.readText textIn leftBy
  split
  · simp only [after_bind, after_lift, run_takeInput]
    cases Utf8.decode w.stdin with
    | some text => rfl
    | none => rfl
  · simp

/-- The script of a command. -/
def scriptIn (h : Host) (t : Tree) (what : RunCommand) (stdin : Bytes) : Except Failure String :=
  match what.script, what.file with
  | some script, _ => .ok script
  | none, some path => textIn h t stdin path
  | none, none => .error (.invalidInput "a script or --file is required")

/-- What standard input holds when the script has been read. -/
def scriptLeft (what : RunCommand) (stdin : Bytes) : Bytes :=
  match what.script, what.file with
  | none, some path => leftBy path stdin
  | _, _ => stdin

@[simp]
theorem after_readScript (what : RunCommand) : after (Command.readScript h what) w =
    (scriptIn h w.tree what w.stdin, { w with stdin := scriptLeft what w.stdin }) := by
  unfold Command.readScript scriptIn scriptLeft
  cases what.script with
  | some script => rfl
  | none =>
    cases what.file with
    | some path => simp
    | none => rfl

/-- The input of a command. -/
def inputIn (h : Host) (t : Tree) (what : RunCommand) (stdin : Bytes) : Except Failure Json :=
  match what.input, what.inputFile with
  | some document, _ => Command.parseInput document
  | none, some path => (textIn h t stdin path).bind Command.parseInput
  | none, none => .ok .null

theorem after_readInput (what : RunCommand) : ∃ left, after (Command.readInput h what) w =
    (inputIn h w.tree what w.stdin, { w with stdin := left }) := by
  unfold Command.readInput inputIn
  cases what.input with
  | some document => exact ⟨w.stdin, by simp⟩
  | none =>
    cases what.inputFile with
    | none => exact ⟨w.stdin, rfl⟩
    | some path =>
      refine ⟨leftBy path w.stdin, ?_⟩
      simp only [after_bind, after_readText]
      cases textIn h w.tree w.stdin path with
      | error f => rfl
      | ok document => simp [Except.bind]

/-- The request of a command. The script is read before the input. -/
def requestIn (h : Host) (t : Tree) (what : RunCommand) (stdin : Bytes) :
    Except Failure Request := do
  let script ← scriptIn h t what stdin
  let input ← inputIn h t what (scriptLeft what stdin)
  let request : Request := { script, args := what.args, input }
  return { request with taskId := what.taskId.getD request.taskId }

theorem after_readRequest (what : RunCommand) : ∃ left, after (Command.readRequest h what) w =
    (requestIn h w.tree what w.stdin, { w with stdin := left }) := by
  simp only [Command.readRequest, requestIn, after_bind, after_readScript]
  cases scriptIn h w.tree what w.stdin with
  | error f => exact ⟨_, rfl⟩
  | ok script =>
    obtain ⟨left, parsed⟩ :=
      after_readInput (h := h) (w := { w with stdin := scriptLeft what w.stdin }) what
    refine ⟨left, ?_⟩
    simp only [parsed]
    cases inputIn h w.tree what (scriptLeft what w.stdin) with
    | error f => rfl
    | ok v => rfl

end

end ScriptSandbox.Proofs.RunStages
