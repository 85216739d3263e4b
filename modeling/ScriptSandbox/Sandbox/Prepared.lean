import ScriptSandbox.Machine.Files
import ScriptSandbox.Sandbox.Executor

namespace ScriptSandbox

/-- One outcome, and what happens to the mapped library before it. -/
structure Prepared where
  outcome : Except Failure Output := .ok {}
  /-- The name of a file that the process leaves behind. -/
  leaves : Option String := none
  removesLibrary : Bool := false

namespace Prepared

/-- The directory that the arguments map into the sandbox. -/
def mapped (argv : List String) : Option String :=
  argv[1]?.bind fun arg =>
    ("--mapdir=lib:".toList.isPrefixOf? arg.toList).map String.ofList

/-- A step whose error does not matter. -/
def whatever {α : Type} (step : Attempt α) : Action Unit := do
  let _ ← (outcomeOf step : Action (Except HostError α))

def run (h : Host) (p : Prepared) (argv : List String) : Action Output := do
  match mapped argv with
  | some library =>
    match p.leaves with
    | some name =>
      whatever (h.write (Path.join library name) (Utf8.encode "made by the process"))
    | none => pure ()
    if p.removesLibrary then whatever (h.removeAll library)
  | none => pure ()
  match p.outcome with
  | .ok o => return o
  | .error f => throw f

/-- The outcomes are given in order, and the last of them again and again. -/
def executor (h : Host) (outcomes : List Prepared) : Executor where
  name := "prepared"
  run argv := do
    let turn := (← get).calls.length - 1
    let p := (outcomes[turn]? <|> outcomes.getLast?).getD {}
    p.run h argv

end Prepared
end ScriptSandbox
