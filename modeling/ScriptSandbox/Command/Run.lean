import ScriptSandbox.CommandLine.Basic
import ScriptSandbox.Failure.Basic
import ScriptSandbox.Json.Parser
import ScriptSandbox.Sandbox.Executor
import ScriptSandbox.Sandbox.Interpreter
import ScriptSandbox.Sandbox.Wasmer

namespace ScriptSandbox

/-- What a command prints, and the status that it ends with. -/
structure Report where
  stdout : String := ""
  stderr : String := ""
  status : UInt8 := 0
deriving Repr, DecidableEq

namespace Report

/-- The streams of a script, as they are or as one line of JSON. -/
def ofOutput (format : Format) (o : Output) : Report :=
  match format with
  | .text => { stdout := o.stdout, stderr := o.stderr }
  | .json => { stdout := o.toJson.text ++ "\n" }

def ofFailure (f : Failure) : Report where
  stderr := "Error: " ++ f.debugText ++ "\n"
  status := 1

def ofRefusal (r : CommandLine.Refusal) : Report :=
  let line := r.message ++ "\n"
  if r.exitStatus = 0 then { stdout := line }
  else { stderr := line, status := r.exitStatus }

/-- The runtime has stopped the program before it has done anything. -/
def stopped (notice : String) : Report where
  stderr := notice
  status := 101

end Report
end ScriptSandbox

namespace ScriptSandbox.Command

/-- The text of a file or of standard input, which must be UTF-8. -/
def readText (h : Host) (path : String) : Action String :=
  if Path.isStandardInput path then do
    match Utf8.decode (← World.takeInput) with
    | some text => return text
    | none => throw (.io .notUtf8)
  else attempt .io (Host.ask fun t => t.readText h.cwd path)

def parseInput (document : String) : Except Failure Json :=
  match Json.parse document with
  | .ok v => .ok v
  | .error fault => .error (.invalidInput ("input is not valid JSON: " ++ fault.message))

def readScript (h : Host) (what : RunCommand) : Action String :=
  match what.script, what.file with
  | some script, _ => return script
  | none, some path => readText h path
  | none, none => throw (.invalidInput "a script or --file is required")

def readInput (h : Host) (what : RunCommand) : Action Json :=
  match what.input, what.inputFile with
  | some document, _ => settle (parseInput document)
  | none, some path => do settle (parseInput (← readText h path))
  | none, none => return .null

/-- The request that a command makes. -/
def readRequest (h : Host) (what : RunCommand) : Action Request := do
  let script ← readScript h what
  let input ← readInput h what
  let request : Request := { script, args := what.args, input }
  return { request with taskId := what.taskId.getD request.taskId }

/-- The executor that the configuration leads to. -/
def findExecutor (h : Host) (c : Config) : Action Executor := do
  let w ← Wasmer.ofConfig h c.wasmer
  World.note .commands .info "Sandbox executor ready" [("binary", .text w.binary)]
  return w.executor h

/-- What is to run and its input are read before anything is looked for, and a wasmer is found
before anything is made. -/
def performRun (h : Host) (c : Config) (format : Format) (what : RunCommand) : Action Report := do
  let request ← readRequest h what
  World.note .commands .info "Running script"
    [("language", .text what.language.name), ("task_id", .text request.taskId)]
  let e ← findExecutor h c
  let o ← (Interpreter.ofConfig c what.language).execute h e request
  return .ofOutput format o

end ScriptSandbox.Command
