import ScriptSandbox.Command.Run
import ScriptSandbox.CommandLine.Reader
import ScriptSandbox.Config.Load
import ScriptSandbox.Sandbox.Health
import ScriptSandbox.Text.Lines

namespace ScriptSandbox.Command

def performConfig (h : Host) (c : Config) : ConfigAction → Except Failure Report
  | .display => do
    let document ← c.written
    return { stdout := document ++ "\n" }
  | .path => return { stdout := h.configPath ++ "\n" }

def alreadyThere (path : String) : String :=
  "Configuration already exists at: " ++ path ++ "\nUse --force to overwrite\n"

def created (path : String) : String :=
  textOf
    ["Created configuration at: " ++ path,
     "",
     "Quick start:",
     "  # Run a Python snippet with input data",
     "  scriptlet run --lang python --input '\x7b\"n\": 2\x7d' \"return inputData['n'] * 21\"",
     "",
     "  # Run a JavaScript snippet from a file",
     "  scriptlet run --lang quickjs --file script.js",
     "",
     "  # Check the interpreter images",
     "  scriptlet health",
     ""]

/-- Writes the default configuration to its usual place. One that is there already is only replaced
by force. -/
def performInit (h : Host) (force : Bool) : Action Report := do
  if (← get).tree.has h.cwd h.configPath && !force then
    return { stdout := alreadyThere h.configPath }
  else
    attempt .io (h.makeDirectories h.configDirectory)
    let document ← settle ({} : Config).written
    attempt .io (h.write h.configPath (Utf8.encode document))
    return { stdout := created h.configPath }

/-- A language's name in ten columns and the verdict on it. -/
def verdictLine (verdict : Language × Bool) : String :=
  let column : Column := { width := 10 }
  column.set verdict.1.name ++ " " ++ (if verdict.2 then "ok" else "FAILED") ++ "\n"

def verdictText (format : Format) (verdicts : List (Language × Bool)) : String :=
  match format with
  | .text => String.join (verdicts.map verdictLine)
  | .json => (Json.ofMembers (verdicts.map fun v => (v.1.name, .bool v.2))).text ++ "\n"

/-- The verdicts printed; the status tells whether all are good. -/
def verdictReport (format : Format) (verdicts : List (Language × Bool)) : Report where
  stdout := verdictText format verdicts
  status := if verdicts.all (·.2) then 0 else 1

/-- Checks the language, or each of them if none is named. -/
def performHealth (h : Host) (c : Config) (format : Format) (language : Option Language) :
    Action Report := do
  let e ← findExecutor h c
  match language with
  | some l => return verdictReport format [(l, ← (Interpreter.ofConfig c l).isHealthy h e)]
  | none => return verdictReport format (← Interpreter.checkAll h e c)

def perform (h : Host) (c : Config) (format : Format) : Command → Action Report
  | .run what => performRun h c format what
  | .health language => performHealth h c format language
  | .init force => performInit h force
  | .config action => settle (performConfig h c action)

/-- Does what a command line asks for. The configuration is loaded for every command. -/
def follow (h : Host) (line : CommandLine) : Action Report := do
  let c ← Config.load h line.config
  perform h (c.override line.overrides) line.format line.command

/-- What events the program shows while it follows a command line. -/
def directives (h : Host) (line : CommandLine) : Except Misfit (List Directive) :=
  directivesOf (h.lookup "RUST_LOG") line.verbosity

/-- What the program prints for its arguments, and how it ends. A filter that cannot be cut into its
parts stops it before it does anything. -/
def program (h : Host) (args : List String) : StateM World Report := do
  match CommandLine.parse h.lookup args with
  | .error refusal => return .ofRefusal refusal
  | .ok line =>
    match directives h line with
    | .error m => return .stopped (h.notice m)
    | .ok _ =>
      match ← (follow h line).run with
      | .ok report => return report
      | .error f => return .ofFailure f

/-- The events that the program shows of those in the log. Without a command line to follow it has
none. -/
def shownEvents (h : Host) (args : List String) (w : World) : List Event :=
  match CommandLine.parse h.lookup args with
  | .error _ => []
  | .ok line =>
    match directives h line with
    | .error _ => []
    | .ok ds => w.log.filter (·.isShown ds)

end ScriptSandbox.Command
