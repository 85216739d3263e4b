import ScriptSandbox.Log.Directive
import ScriptSandbox.Machine.Resolve

namespace ScriptSandbox

/-- How a process ended. -/
inductive Ending where
  | exit (status : UInt8)
  | signal
deriving Repr, DecidableEq

/-- What a process writes, how it ends, and how long that takes. -/
structure Reply where
  stdout : Bytes := []
  stderr : Bytes := []
  ending : Ending := .exit 0
  milliseconds : Nat := 1
deriving Repr, DecidableEq

/-- What can be refused for reasons that the tree does not show. -/
inductive FileAct where
  | readDirectory (path : String)
  /-- To go on, in a directory that is read, to the entry of this name and to what it is, or past
  the last entry. -/
  | nextEntry (directory : String) (name : Option String)
  | makeDirectory (path : String)
  | copy (source target : String)
  | removeAll (path : String)
deriving Repr, DecidableEq

/-- What stays the same while scripts are run. -/
structure Host where
  cwd : Location := []
  env : List (String × String) := []
  /-- What the program in a file answers to its arguments. -/
  programs : Location → Option (List String → Reply) := fun _ => none
  /-- The order in which the names in a directory are read. -/
  arrange : Location → List String → List String := fun _ names => names
  refuse : FileAct → Option HostError := fun _ => none
  /-- What the runtime prints when it stops the program over a part that does not fit. It adds the
  place in the reader of filters, which differs from one build of that to the next. -/
  notice : Misfit → String := fun m => "\nthread 'main' panicked:\n" ++ m.message ++ "\n"
  /-- The last part of the name of the `n`-th temporary directory that is tried. -/
  tag : Nat → String

/-- A process that was started, or was to be. -/
structure Launch where
  binary : String
  args : List String
deriving Repr, DecidableEq

/-- Arguments handed to an executor, and the files at that moment. -/
structure Call where
  argv : List String
  tree : Tree
deriving Repr, DecidableEq

/-- What changes while scripts are run, and the record of what has been done. -/
structure World where
  tree : Tree := {}
  stdin : Bytes := []
  /-- How many names of temporary directories have been tried. -/
  drawn : Nat := 0
  launches : List Launch := []
  calls : List Call := []
  log : List Event := []
deriving Repr, DecidableEq

/-- A step that may meet an error of the machine. -/
abbrev Attempt (α : Type) := ExceptT HostError (StateM World) α

/-- The step's own outcome, whether it succeeds or not. -/
def outcomeOf {ε ε' α : Type} (step : ExceptT ε (StateM World) α) :
    ExceptT ε' (StateM World) (Except ε α) :=
  ExceptT.lift step.run

/-- The value of the first variable with this name. -/
def Host.lookup (h : Host) (name : String) : Option String :=
  (h.env.find? (·.1 == name)).map (·.2)

/-- The working directory as an absolute path. -/
def Host.cwdPath (h : Host) : String :=
  "/" ++ String.intercalate "/" h.cwd.reverse

namespace World

def note (area : Area) (level : Level) (message : String)
    (details : List (String × Detail) := []) : StateM World Unit :=
  modify fun w => { w with log := w.log ++ [⟨area, level, message, details⟩] }

/-- What standard input still holds; afterwards it holds nothing. -/
def takeInput : StateM World Bytes :=
  modifyGet fun w => (w.stdin, { w with stdin := [] })

end World
end ScriptSandbox
