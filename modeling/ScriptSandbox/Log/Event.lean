namespace ScriptSandbox

inductive Level where
  | error | warn | info | debug
deriving Repr, DecidableEq

namespace Level

def name : Level → String
  | error => "ERROR"
  | warn => "WARN"
  | info => "INFO"
  | debug => "DEBUG"

/-- How much has to be wanted for the level to show. -/
def verbosity : Level → Nat
  | error => 1
  | warn => 2
  | info => 3
  | debug => 4

end Level

/-- What the program is at when something happens. -/
inductive Area where
  | configuration | commands | languages | python | quickJs | health | workspaces | wasmer
deriving Repr, DecidableEq

/-- The name that filters know the area by. -/
def Area.name : Area → String
  | configuration => "scriptlet::config::loader"
  | commands => "scriptlet::cli::commands"
  | languages => "scriptlet::language"
  | python => "scriptlet::language::python"
  | quickJs => "scriptlet::language::quickjs"
  | health => "scriptlet::language::health"
  | workspaces => "scriptlet::sandbox::workspace"
  | wasmer => "scriptlet::sandbox::wasmer"

inductive Detail where
  | text (s : String)
  | number (n : Nat)
  /-- How long something took, which no two runs agree on. -/
  | duration
deriving Repr, DecidableEq

/-- A sentence with named details, from some area of the program and at one of four levels. -/
structure Event where
  area : Area
  level : Level
  message : String
  details : List (String × Detail) := []
deriving Repr, DecidableEq

/-- The names under which the event tells something. -/
def Event.names (e : Event) : List String := "message" :: e.details.map (·.1)

end ScriptSandbox
