import ScriptSandbox.CommandLine.Item

namespace ScriptSandbox.CommandLine

/-- Where an argument was given. What stands further down counts for more. -/
inductive Origin where
  | environment | arguments
deriving Repr, DecidableEq

structure Given where
  item : Item
  origin : Origin := .arguments
  /-- How often it was given. -/
  times : Nat := 1
  values : List Value := []
deriving Repr, DecidableEq

/-- The arguments of one command, as far as they have been read. The value of an option may be the
next argument, so an option is only looked at when something else begins. -/
structure Level where
  given : List Given := []
  /-- What is being read, and its values so far. -/
  pending : Option (Item × List String) := none
  /-- Whether two lone dashes have been read. -/
  trailing : Bool := false
  /-- How many words have found their place. -/
  words : Nat := 0
deriving Repr, DecidableEq

namespace Level

def has (given : List Given) (item : Item) : Bool := given.any (·.item == item)

/-- The counts grow no further than this. -/
def countLimit : Nat := 255

/-- One more of a counted item. -/
def bump (given : List Given) (item : Item) : List Given :=
  if has given item then
    given.map fun g => if g.item = item then { g with times := min countLimit (g.times + 1) } else g
  else given ++ [{ item := item }]

/-- Adds an argument. Only counted ones can be given twice. -/
def record (scope : Scope) (origin : Origin) (item : Item) (values : List String)
    (given : List Given) : Except Refusal (List Given) :=
  match item.kind with
  | .help => .error .help
  | .version => .error (.version scope.programName)
  | .count => .ok (bump given item)
  | .switch => if has given item then .error .conflict else .ok (given ++ [{ item, origin }])
  | kind =>
    if values.isEmpty then .error .invalidValue
    else if has given item then .error .conflict
    else
      match values.mapM kind.value? with
      | some values => .ok (given ++ [{ item, origin, values }])
      | none => .error .invalidValue

/-- Adds what is pending. -/
def settle (scope : Scope) (l : Level) : Except Refusal Level :=
  match l.pending with
  | none => .ok l
  | some (item, values) => do
    return { l with given := ← record scope .arguments item values l.given, pending := none }

/-- Adds an argument that is complete. -/
def add (scope : Scope) (l : Level) (item : Item) (values : List String) :
    Except Refusal Level := do
  let l ← l.settle scope
  return { l with given := ← record scope .arguments item values l.given }

/-- Starts to read an item. -/
def start (scope : Scope) (l : Level) (item : Item) (values : List String) :
    Except Refusal Level := do
  return { ← l.settle scope with pending := some (item, values) }

/-- The option whose value the next argument is. -/
def awaited? (l : Level) : Option Item :=
  match l.pending with
  | some (item, []) => if l.trailing then none else some item
  | _ => none

/-- The characters before the first equals sign, and those after it. -/
def cutAtEquals (cs : List Char) : String × Option String :=
  (String.ofList (cs.takeWhile (· != '=')),
    match cs.dropWhile (· != '=') with
    | [] => none
    | _ :: value => some (String.ofList value))

/-- An option by its name, which may have a value attached. -/
def takeNamed (scope : Scope) (l : Level) (cs : List Char) : Except Refusal Level :=
  let (name, attached) := cutAtEquals cs
  match scope.named? name with
  | none => .error .unknownArgument
  | some item =>
    match item.kind.takesValue, attached with
    | true, some value => l.add scope item [value]
    | true, none => l.start scope item []
    | false, some _ => .error .tooManyValues
    | false, none => l.add scope item []

/-- Options by their letters. The first that takes a value takes all that follows, perhaps after an
equals sign. -/
def takeLetters (scope : Scope) : Level → List Char → Except Refusal Level
  | l, [] => .ok l
  | l, c :: cs =>
    match scope.lettered? c with
    | none => .error .unknownArgument
    | some item =>
      if item.kind.takesValue then
        match cs with
        | [] => l.start scope item []
        | '=' :: value => l.add scope item [String.ofList value]
        | value => l.add scope item [String.ofList value]
      else do takeLetters scope (← l.add scope item []) cs

/-- Why a word has no place. -/
def stray (scope : Scope) (l : Level) (word : String) : Refusal :=
  if l.trailing ∧ (scope.inside? word).isSome then .unknownArgument
  else if scope.inside.isEmpty then .unknownArgument
  else .unknownSubcommand

/-- A word after two lone dashes. All of them together are the values of one item. -/
def takeTrailing (scope : Scope) (l : Level) (word : String) : Except Refusal Level :=
  match scope.trailing? with
  | none => .error (l.stray scope word)
  | some item =>
    match l.pending with
    | some (other, values) =>
      if other = item then .ok { l with pending := some (item, values ++ [word]) }
      else l.start scope item [word]
    | none => l.start scope item [word]

/-- A word that is neither an option nor the value of one. -/
def takeWord (scope : Scope) (l : Level) (word : String) : Except Refusal Level :=
  match scope.place? l.words with
  | none => .error (l.stray scope word)
  | some item => do
    let l ← l.start scope item [word]
    return { l with words := l.words + 1 }

/-- One argument. A lone dash is a word. -/
def take (scope : Scope) (l : Level) (arg : String) : Except Refusal Level :=
  if l.trailing then l.takeTrailing scope arg
  else
    match arg.toList with
    | ['-', '-'] => .ok { l with trailing := true }
    | '-' :: '-' :: name => l.takeNamed scope name
    | '-' :: c :: letters => l.takeLetters scope (c :: letters)
    | _ =>
      match l.awaited? with
      | some item => .ok { l with pending := some (item, [arg]) }
      | none => l.takeWord scope arg

/-- Adds what the environment gives and the arguments do not. -/
def addVariables (scope : Scope) (lookup : String → Option String) :
    List Item → List Given → Except Refusal (List Given)
  | [], given => .ok given
  | item :: items, given =>
    match item.standIn?.bind lookup with
    | some value =>
      if has given item then addVariables scope lookup items given
      else do
        addVariables scope lookup items (← record scope .environment item [value] given)
    | none => addVariables scope lookup items given

/-- All that is given on the level. -/
def finish (scope : Scope) (lookup : String → Option String) (l : Level) :
    Except Refusal (List Given) := do
  let l ← l.settle scope
  addVariables scope lookup scope.options l.given

end Level
end ScriptSandbox.CommandLine
