import ScriptSandbox.Config.Basic
import ScriptSandbox.Script.Program

namespace ScriptSandbox

/-- How results are printed. -/
inductive Format where
  | text | json
deriving Repr, DecidableEq

/-- A script, its input and a label. Script and input can be given as texts or by files. -/
structure RunCommand where
  language : Language
  script : Option String := none
  file : Option String := none
  input : Option String := none
  inputFile : Option String := none
  taskId : Option String := none
  args : List String := []
deriving Repr, DecidableEq

inductive ConfigAction where
  | display | path
deriving Repr, DecidableEq

inductive Command where
  | run (what : RunCommand)
  | health (language : Option Language)
  | init (force : Bool)
  | config (action : ConfigAction)
deriving Repr, DecidableEq

structure CommandLine where
  command : Command
  config : Option String := none
  /-- How often more messages were asked for, at most 255 times. -/
  verbosity : Nat := 0
  format : Format := .text
  overrides : Config.Overrides := {}
deriving Repr, DecidableEq

namespace CommandLine

/-- Why there is nothing to do for a command line. -/
inductive Refusal where
  | help
  /-- The version of the program that has this name. -/
  | version (program : String)
  | nothingGiven
  | missingSubcommand
  | unknownSubcommand
  | unknownArgument
  | invalidValue
  | tooManyValues
  | conflict
  | missingArgument
deriving Repr, DecidableEq

namespace Refusal

/-- Help and the version are what was asked for; all else is a mistake. -/
def exitStatus : Refusal → UInt8
  | help | version _ => 0
  | _ => 2

def message : Refusal → String
  | help => "Run Python and JavaScript snippets in a Wasmer sandbox"
  | version program => program ++ " 0.1.0"
  | nothingGiven => "error: no arguments were given"
  | missingSubcommand => "error: a subcommand is required"
  | unknownSubcommand => "error: there is no such subcommand"
  | unknownArgument => "error: unexpected argument"
  | invalidValue => "error: invalid or missing value of an argument"
  | tooManyValues => "error: a value was given to an argument that takes none"
  | conflict => "error: arguments cannot be used together"
  | missingArgument => "error: a required argument is missing"

end Refusal
end CommandLine
end ScriptSandbox
