import ScriptSandbox.Config.Basic
import ScriptSandbox.Sandbox.Workspace
import ScriptSandbox.Script.Program

namespace ScriptSandbox

/-- An image for each language, and for Python the library that it imports from. -/
inductive Interpreter where
  | python (image library : String)
  | quickJs (image : String)
deriving Repr, DecidableEq

namespace Interpreter

def language : Interpreter → Language
  | python _ _ => .python
  | quickJs _ => .quickJs

/-- The interpreter of a language. -/
def ofConfig (c : Config) : Language → Interpreter
  | .python => python c.python.binary c.python.library
  | .quickJs => quickJs c.quickJs.binary

/-- What a run is called in the log. -/
def runName : Language → String
  | .python => "executePython"
  | .quickJs => "executeQuickJs"

/-- What the streams of a run are called in the log. -/
def outputName : Language → String
  | .python => "Python output"
  | .quickJs => "QuickJS output"

def area : Language → Area
  | .python => .python
  | .quickJs => .quickJs

def noteSuccess (l : Language) (r : Request) (o : Output) : StateM World Unit := do
  World.note (area l) .info (runName l ++ " succeeded")
    [("task_id", .text r.taskId), ("elapsed_ms", .duration),
     ("stdout_len", .number o.stdout.utf8ByteSize), ("stderr_len", .number o.stderr.utf8ByteSize)]
  World.note (area l) .debug (outputName l) [("stdout", .text o.stdout), ("stderr", .text o.stderr)]

/-- A failure of the process may be the fault of the script, which is noted then. -/
def noteFailure (l : Language) (r : Request) (i : Invocation) (f : Failure) : StateM World Unit :=
  let program := if f.isSandboxFailure then [("script", Detail.text i.program)] else []
  World.note .languages (if f.isSandboxFailure then .warn else .error) (runName l ++ " failed")
    ([("task_id", .text r.taskId), ("image", .text i.image), ("elapsed_ms", .duration)] ++
      program ++ [("args", .text (quotedList r.args)), ("error", .text f.message)])

/-- Runs an invocation and notes how that went. -/
def invoke (e : Executor) (l : Language) (r : Request) (i : Invocation) : Action Output := do
  let outcome ← outcomeOf (e.call i.argv)
  match outcome with
  | .ok o => noteSuccess l r o
  | .error f => noteFailure l r i f
  settle outcome

/-- The outcome of running the script. Each execution in Python has a workspace of its own, which is
removed however the execution ends. -/
def execute (h : Host) (e : Executor) (r : Request) : Interpreter → Action Output
  | python image library => do
    let program := Program.python r.script r.input
    let ws ← Workspace.provision h library
    let outcome ← outcomeOf (invoke e .python r (Invocation.python image ws.path program))
    ws.releaseNoted h
    settle outcome
  | quickJs image =>
    invoke e .quickJs r (Invocation.quickJs image (Program.quickJs r.script r.input))

end Interpreter
end ScriptSandbox
