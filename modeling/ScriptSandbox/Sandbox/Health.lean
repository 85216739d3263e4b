import ScriptSandbox.Sandbox.Interpreter
import ScriptSandbox.Script.Program
import ScriptSandbox.Text.Lines

namespace ScriptSandbox

/-- A script and the two streams that it must produce. -/
structure Probe where
  script : String
  stdout : String
  stderr : String
deriving Repr, DecidableEq

namespace Probe

/-- Logs, prints and returns a text. -/
def python : Probe where
  script := textOf
    ["",
     "      log('log')",
     "      print('print\\n',end='')",
     "      return 'result'",
     "      "]
  stdout := "print\nresult"
  stderr := "log\n"

/-- Logs in each of three ways, prints and returns a text. -/
def quickJs : Probe where
  script := textOf
    ["",
     "      console.log('console.log');",
     "      log('log');",
     "      console.error('console.error');",
     "      print(\"print\\n\");",
     "      return 'result';",
     "      "]
  stdout := "print\nresult"
  stderr := "console.log\nlog\nconsole.error\n"

end Probe

def Language.probe : Language → Probe
  | .python => Probe.python
  | .quickJs => Probe.quickJs

/-- Whether both streams are what the probe must produce. -/
def Probe.passes (p : Probe) (o : Output) : Bool := o.stdout == p.stdout && o.stderr == p.stderr

namespace Interpreter

def probeRequest (l : Language) (p : Probe) : Request where
  script := p.script
  taskId := "healthcheck-" ++ l.name

def noteUnexpected (l : Language) (p : Probe) (o : Output) : StateM World Unit :=
  World.note .health .warn "Unexpected healthcheck result"
    [("language", .text l.name),
     ("stdout", .text (quoted o.stdout)), ("stderr", .text (quoted o.stderr)),
     ("expected_stdout", .text (quoted p.stdout)), ("expected_stderr", .text (quoted p.stderr))]

/-- Whether the interpreter passes the probe. -/
def runProbe (h : Host) (e : Executor) (i : Interpreter) (p : Probe) : StateM World Bool := do
  match ← (execute h e (probeRequest i.language p) i).run with
  | .ok o =>
    if p.passes o then
      World.note .health .info "Healthcheck passed" [("language", .text i.language.name)]
      return true
    else
      noteUnexpected i.language p o
      return false
  | .error f =>
    World.note .health .error "Unexpected healthcheck error"
      [("language", .text i.language.name), ("error", .text f.message)]
    return false

/-- Whether the interpreter passes the probe of its language. -/
def isHealthy (h : Host) (e : Executor) (i : Interpreter) : StateM World Bool :=
  i.runProbe h e i.language.probe

/-- The verdict on each of the languages, in their order. -/
def checkEach (h : Host) (e : Executor) (c : Config) :
    List Language → StateM World (List (Language × Bool))
  | [] => return []
  | l :: ls => do
    let verdict ← (ofConfig c l).isHealthy h e
    return (l, verdict) :: (← checkEach h e c ls)

def checkAll (h : Host) (e : Executor) (c : Config) : StateM World (List (Language × Bool)) :=
  checkEach h e c Language.all

end Interpreter
end ScriptSandbox
