import ScriptSandbox.Config.Document
import ScriptSandbox.Machine.Files
import ScriptSandbox.Machine.World
import ScriptSandbox.Sandbox.Executor

namespace ScriptSandbox.Host

/-- The directory in which the user's files are, if the user has one. -/
def home? (h : Host) : Option String := (h.lookup "HOME").filter (· ≠ "")

/-- The directory that a variable names by an absolute path, and otherwise one in the home
directory. -/
def userDirectory (h : Host) (name home usual : String) : String :=
  match (h.lookup name).filter (Path.isAbsolute ·) with
  | some directory => directory
  | none => Path.join home usual

/-- What is used for a missing home directory. -/
def homeless (h : Host) : String := (h.lookup "HOME").getD "."

def configDirectory (h : Host) : String :=
  match h.home? with
  | some home => Path.join (h.userDirectory "XDG_CONFIG_HOME" home ".config") "scriptlet"
  | none => Path.join h.homeless ".scriptlet"

/-- The usual place of the configuration file. -/
def configPath (h : Host) : String := Path.join h.configDirectory "config.toml"

def cacheDirectory (h : Host) : String :=
  match h.home? with
  | some home => Path.join (h.userDirectory "XDG_CACHE_HOME" home ".cache") "scriptlet"
  | none => Path.join (Path.join h.homeless ".cache") "scriptlet"

end ScriptSandbox.Host

namespace ScriptSandbox.Config

/-- The configuration in the text of a file. -/
def parse (text : String) : Except Failure Config :=
  match Toml.parse text with
  | none => .error (.tomlParse "the file is not a TOML document")
  | some v =>
    match ofToml v with
    | none => .error (.tomlParse "a setting has the wrong type")
    | some c => .ok c

def read (h : Host) (path : String) : Action Config := do
  World.note .configuration .debug "Reading configuration" [("path", .text path)]
  let text ← attempt .io (Host.ask fun t => t.readText h.cwd path)
  match parse text with
  | .ok c => return c
  | .error e => throw e

/-- The configuration of the file, or of the usual one if none is named. -/
def readChosen (h : Host) (chosen : Option String) : Action Config := do
  let tree := (← get).tree
  match chosen with
  | some path =>
    if tree.has h.cwd path then read h path else throw (.configNotFound path)
  | none => if tree.has h.cwd h.configPath then read h h.configPath else return {}

/-- The configuration of the file under what the environment overrides. -/
def load (h : Host) (chosen : Option String) : Action Config := do
  let c ← readChosen h chosen
  return c.override (Overrides.ofVariables h.lookup)

end ScriptSandbox.Config
