import ScriptSandbox.Failure.Basic
import ScriptSandbox.Json.Value
import ScriptSandbox.Json.Parser
import ScriptSandbox.Machine.World
import ScriptSandbox.Text.Quoted

namespace ScriptSandbox

/-- What a script wrote to its two streams. -/
structure Output where
  stdout : String := ""
  stderr : String := ""
deriving Repr, DecidableEq

namespace Output

/-- The record with the streams in the order of their numbers. -/
def record (o : Output) : String :=
  String.ofList
    ("\x7b\"stdout\":".toList ++ Json.quote o.stdout.toList ++ ",\"stderr\":".toList ++
      Json.quote o.stderr.toList ++ ['\x7d'])

def toJson (o : Output) : Json :=
  Json.ofMembers [("stdout", .string o.stdout), ("stderr", .string o.stderr)]

def debugText (o : Output) : String :=
  "ExecutionResult \x7b stdout: " ++ quoted o.stdout ++ ", stderr: " ++ quoted o.stderr ++ " \x7d"

/-- A string, with white space before it. -/
def scanText (cs : List Char) : Except Json.Fault (String × List Char) :=
  match Json.Parser.skipSpace cs with
  | '"' :: rest => Json.Parser.string rest
  | _ => .error .valueExpected

/-- What belongs to a name in a record: the text of a stream, or anything at all, which is passed
over. -/
def scanField (name : String) : Json.Scanner (Option String) := fun cs => do
  if name = "stdout" ∨ name = "stderr" then
    let (text, rest) ← scanText cs
    .ok (some text, rest)
  else
    let ((), rest) ← Json.Skip.value cs
    .ok (none, rest)

/-- The output in the fields of a record. Each stream must occur, and only once. -/
def ofFields (fields : List (String × Option String)) : Option Output :=
  match fields.filterMap fun f => f.2.map fun text => (f.1, text) with
  | [("stdout", out), ("stderr", err)] | [("stderr", err), ("stdout", out)] => some ⟨out, err⟩
  | _ => none

/-- The output that a record or a pair of texts tells. -/
def parse (document : String) : Option Output :=
  let cs := Json.Parser.skipSpace document.toList
  match cs with
  | '\x7b' :: rest =>
    match Json.Parser.complete (Json.Parser.members Json.Parser.string scanField) rest with
    | .ok fields => ofFields fields
    | .error _ => none
  | '[' :: rest =>
    match Json.Parser.complete (Json.Parser.items scanText) rest with
    | .ok [out, err] => some ⟨out, err⟩
    | _ => none
  | _ => none

end Output

/-- A step that changes the world and may fail. -/
abbrev Action (α : Type) := ExceptT Failure (StateM World) α

/-- The image comes first among the arguments. A status other than zero is a failure. -/
structure Executor where
  name : String
  run : List String → Action Output

/-- An attempt whose error is a failure of the given kind. -/
def attempt {α : Type} (kind : HostError → Failure) (step : Attempt α) : Action α :=
  step.adapt kind

/-- The value or the failure that an outcome is. -/
def settle {α : Type} : Except Failure α → Action α
  | .ok value => return value
  | .error f => throw f

namespace Executor

/-- Runs the arguments, and records that it was asked to. -/
def call (e : Executor) (argv : List String) : Action Output := do
  modify fun w => { w with calls := w.calls ++ [⟨argv, w.tree⟩] }
  e.run argv

end Executor
end ScriptSandbox
