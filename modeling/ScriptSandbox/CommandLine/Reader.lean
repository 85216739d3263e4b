import ScriptSandbox.CommandLine.Level

namespace ScriptSandbox.CommandLine

def valuesOf (given : List Given) (item : Item) : List Value :=
  (given.filter (·.item == item)).flatMap (·.values)

def textsOf (given : List Given) (item : Item) : List String :=
  (valuesOf given item).filterMap fun v =>
    match v with
    | .text s => some s
    | _ => none

def text? (given : List Given) (item : Item) : Option String :=
  (textsOf given item).head?

def language? (given : List Given) : Option Language :=
  (valuesOf given .language).findSome? fun v =>
    match v with
    | .language l => some l
    | _ => none

def format? (given : List Given) : Option Format :=
  (valuesOf given .format).findSome? fun v =>
    match v with
    | .format f => some f
    | _ => none

/-- Whether both items are given, which must not be. -/
def bothGiven (given : List Given) (a b : Item) : Bool := Level.has given a && Level.has given b

/-- The command to run a script. It needs a language and one source of the script; a text takes the
place of a file and excludes it. -/
def runCommand (given : List Given) : Except Refusal Command :=
  if bothGiven given .script .file || bothGiven given .input .inputFile then .error .conflict
  else if !(Level.has given .script || Level.has given .file) then .error .missingArgument
  else
    match language? given with
    | none => .error .missingArgument
    | some language =>
      .ok (.run {
        language
        script := text? given .script
        file := text? given .file
        input := text? given .input
        inputFile := text? given .inputFile
        taskId := text? given .taskId
        args := textsOf given .args })

/-- The command that ends on a level, if it can end there. -/
def commandOf (given : List Given) : Scope → Except Refusal Command
  | .run => runCommand given
  | .health => .ok (.health (language? given))
  | .init => .ok (.init (Level.has given .force))
  | .display => .ok (.config .display)
  | .path => .ok (.config .path)
  | .program | .config | .help =>
    .error (if given.isEmpty then .nothingGiven else .missingSubcommand)

/-- What comes of asking for help on a command inside a command. -/
def helpOn : Scope → List String → Refusal
  | _, [] => .help
  | scope, name :: names =>
    match scope.inside? name with
    | some inner => helpOn inner names
    | none => .unknownSubcommand

/-- The command that an argument names, unless the argument is a value or after two lone dashes. -/
def entered? (scope : Scope) (l : Level) (arg : String) : Option Scope :=
  if l.trailing || l.awaited?.isSome then none else scope.inside? arg

/-- The command, and what is given on each level from here on. An inner level is read to its end
before the outer one is finished. -/
def levels (lookup : String → Option String) :
    Scope → Level → List String → Except Refusal (Command × List (List Given))
  | scope, l, [] => do
    let given ← l.finish scope lookup
    return (← commandOf given scope, [given])
  | scope, l, arg :: args =>
    match entered? scope l arg with
    | some .help => .error (helpOn scope args)
    | some inner => do
      let (command, deeper) ← levels lookup inner {} args
      return (command, (← l.finish scope lookup) :: deeper)
    | none => do levels lookup scope (← l.take scope arg) args

/-- What counts of an item: the arguments before the environment, and an inner level before an outer
one. -/
def chosen? (given : List (List Given)) (item : Item) : Option Given :=
  let all := given.reverse.flatMap (·.filter (·.item == item))
  (all.find? (·.origin == .arguments)) <|> all.head?

/-- Those of the items known to every command that count. -/
def chosen (given : List (List Given)) : List Given :=
  Item.everywhere.filterMap (chosen? given)

/-- The command line that the arguments make, with variables standing in for some of them. -/
def parse (lookup : String → Option String) (args : List String) : Except Refusal CommandLine := do
  let (command, given) ← levels lookup .program {} args
  let common := chosen given
  return {
    command
    config := text? common .config
    verbosity := ((common.find? (·.item == .verbose)).map (·.times)).getD 0
    format := (format? common).getD .text
    overrides := {
      pythonBinary := text? common .pythonBinary
      pythonLibrary := text? common .pythonLibrary
      quickJsBinary := text? common .quickJsBinary
      wasmerBinary := text? common .wasmerBinary } }

end ScriptSandbox.CommandLine
