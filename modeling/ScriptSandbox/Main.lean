import ScriptSandbox.Command.Program
import ScriptSandbox.Text.Lines

namespace ScriptSandbox.Terminal

/-- The variables that a command may look at. -/
def variableNames : List String :=
  ["HOME", "XDG_CONFIG_HOME", "XDG_CACHE_HOME", "TMPDIR", "PATH", "RUST_LOG", "SCRIPTLET_CONFIG",
   "PYTHON_PATH", "PYTHON_LIB_PATH", "QUICKJS_PATH"]

/-- The files that a command may read or write. -/
def filesOf (h : Host) (line : CommandLine) : List String :=
  let named := match line.command with
    | .run what => what.file.toList ++ what.inputFile.toList
    | _ => []
  h.configPath :: line.config.toList ++ named

def filesOfArguments (h : Host) (args : List String) : List String :=
  match CommandLine.parse h.lookup args with
  | .ok line => filesOf h line
  | .error _ => []

/-- The tree with the node at the path, and with the directories that it lies in. -/
def image (cwd : Location) (t : Tree) (path : String) (node : Node) : Tree :=
  let around := ((Path.ancestors path).drop 1).foldr
    (fun directory t => (t.makeDirectory cwd directory).toOption.getD t) t
  match around.locate true cwd path with
  | .ok l => around.put l node
  | .error _ => around

/-- The files among `paths` that a run has changed, with what they hold now. -/
def changed (cwd : Location) (before after : Tree) (paths : List String) :
    List (String × Bytes) :=
  paths.filterMap fun path =>
    match after.read cwd path with
    | .ok content =>
      if (before.read cwd path).toOption = some content then none else some (path, content)
    | .error _ => none

/-- An event as a line of text, without what differs from run to run. -/
def line (e : Event) : String :=
  let level : Column := { width := 5, alignment := .right }
  let details := e.details.map fun (name, detail) =>
    match detail with
    | .text s => " " ++ name ++ "=" ++ s
    | .number n => " " ++ name ++ "=" ++ toString n
    | .duration => ""
  level.set e.level.name ++ " " ++ e.message ++ String.join details

def readVariables : IO (List (String × String)) :=
  variableNames.filterMapM fun name => do return (← IO.getEnv name).map (name, ·)

/-- What stands at the path, if anything does. -/
def readNode (path : String) : IO (Option Node) := do
  match ← (IO.FS.readBinFile path).toBaseIO with
  | .ok content => return some (.file 0o644 content.toList)
  | .error (.noFileOrDirectory ..) => return none
  | .error (.inappropriateType _ code _) =>
    return if (code.toNat : Int) = SystemCode.isDirectory then some .directory else none
  | .error e => throw e

def readTree (cwd : Location) (paths : List String) : IO Tree := do
  let start := image [] {} ("/" ++ String.intercalate "/" cwd.reverse) .directory
  paths.foldlM
    (fun t path => do return ((← readNode path).map (image cwd t path)).getD t) start

def readInput (paths : List String) : IO Bytes := do
  if paths.any Path.isStandardInput then return (← (← IO.getStdin).readBinToEnd).toList
  else return []

def writeFile (path : String) (content : Bytes) : IO Unit := do
  match Path.ancestors path with
  | _ :: directory :: _ => IO.FS.createDirAll directory
  | _ => pure ()
  IO.FS.writeBinFile path ⟨content.toArray⟩

def run (args : List String) : IO UInt32 := do
  let cwd := (Path.components (← IO.currentDir).toString).reverse
  let h : Host := { cwd, env := ← readVariables, tag := toString }
  let paths := filesOfArguments h args
  let before : World := { tree := ← readTree cwd paths, stdin := ← readInput paths }
  let (report, after) := (Command.program h args).run before
  for (path, content) in changed cwd before.tree after.tree paths do
    writeFile path content
  for e in Command.shownEvents h args after do
    IO.eprintln (line e)
  IO.print report.stdout
  IO.eprint report.stderr
  return report.status.toUInt32

end ScriptSandbox.Terminal

def main (args : List String) : IO UInt32 := ScriptSandbox.Terminal.run args
