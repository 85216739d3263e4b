import ScriptSandbox.Toml.Grammar
import ScriptSandbox.Toml.Value

namespace ScriptSandbox.Toml

inductive Mark where
  | value (v : Toml)
  /-- A table with a header of its own. -/
  | header
  /-- A table on the way to the table of some header. -/
  | implied
  /-- A table made by keys with dots. -/
  | dotted
  /-- A list of tables, of which each header adds one. The tables lie at the numbers from zero. -/
  | tables (count : Nat)

/-- The tables of a document while it is read. Every place that has been mentioned is marked with
what it was mentioned as, and the marks decide what may be added to it. -/
structure Draft where
  marks : List (List String × Mark) := []
  /-- The table that the next entries belong to. -/
  current : List String := []

namespace Draft

abbrev Marks := List (List String × Mark)

def markAt? (marks : Marks) (place : List String) : Option Mark :=
  (marks.find? (·.1 == place)).map (·.2)

def setMark (marks : Marks) (place : List String) (mark : Mark) : Marks :=
  if (markAt? marks place).isSome then
    marks.map fun m => if m.1 == place then (place, mark) else m
  else marks ++ [(place, mark)]

/-- The place that keys lead to from `place`. Tables that are missing on the way are made with the
mark `made`; keys with dots do not lead into a table that has a header. -/
def descend (made : Mark) (mayEnterHeader : Bool) :
    Marks → List String → List String → Option (List String × Marks)
  | marks, place, [] => some (place, marks)
  | marks, place, key :: keys =>
    let here := place ++ [key]
    match markAt? marks here with
    | none => descend made mayEnterHeader (setMark marks here made) here keys
    | some (.value _) => none
    | some (.tables count) =>
      descend made mayEnterHeader marks (here ++ [toString (count - 1)]) keys
    | some .header =>
      if mayEnterHeader then descend made mayEnterHeader marks here keys else none
    | some _ => descend made mayEnterHeader marks here keys

/-- The table that the header of a single table opens. A table has one header at most. -/
def openTable (d : Draft) (keys : List String) : Option Draft := do
  let last ← keys.getLast?
  let (above, marks) ← descend .implied true d.marks [] keys.dropLast
  let here := above ++ [last]
  match markAt? marks here with
  | none | some .implied => some ⟨setMark marks here .header, here⟩
  | _ => none

/-- The table that is added to a list of tables. -/
def addTable (d : Draft) (keys : List String) : Option Draft := do
  let last ← keys.getLast?
  let (above, marks) ← descend .implied true d.marks [] keys.dropLast
  let here := above ++ [last]
  match markAt? marks here with
  | none => some ⟨setMark marks here (.tables 1), here ++ [toString 0]⟩
  | some (.tables count) =>
    some ⟨setMark marks here (.tables (count + 1)), here ++ [toString count]⟩
  | _ => none

def isDotted : Option Mark → Bool
  | some .dotted => true
  | _ => false

/-- An entry of the current table. Its place must be free, and the tables on the way to it must
have been made by keys with dots. -/
def addEntry (d : Draft) (keys : List String) (v : Toml) : Option Draft := do
  let last ← keys.getLast?
  let (above, marks) ← descend .dotted false d.marks d.current keys.dropLast
  if keys.length = 1 ∨ isDotted (markAt? marks above) then
    let here := above ++ [last]
    match markAt? marks here with
    | none => some { d with marks := setMark marks here (.value v) }
    | some _ => none
  else none

/-- Whether the place lies in a list of tables. -/
def isListed (marks : Marks) (place : List String) : Bool :=
  marks.any fun m =>
    match m.2 with
    | .tables _ => m.1.isPrefixOf place && m.1 != place
    | _ => false

/-- The entries of the whole document. Of the tables in a list only their number is kept. -/
def entries (d : Draft) : List (List String × Toml) :=
  (d.marks.filter fun m => !isListed d.marks m.1).filterMap fun m =>
    match m.2 with
    | .value v => some (m.1, v)
    | .header => some (m.1, .table [])
    | .tables count => some (m.1, .array (List.replicate count (.table [])))
    | .implied | .dotted => none

end Draft

inductive Statement where
  | entry (keys : List String) (value : Toml)
  | table (keys : List String)
  /-- One more table of a list. -/
  | listed (keys : List String)

namespace Statement

def scan : Scanner Statement
  | '[' :: '[' :: cs => do
    let (ks, rest) ← keys cs
    match rest with
    | ']' :: ']' :: rest => some (.listed ks, rest)
    | _ => none
  | '[' :: cs => do
    let (ks, rest) ← keys cs
    match rest with
    | ']' :: rest => some (.table ks, rest)
    | _ => none
  | cs => do
    let ((ks, v), rest) ← Toml.entry (value depthLimit) cs
    some (.entry ks v, rest)

/-- What the statement does to the tables read so far. -/
def apply (d : Draft) : Statement → Option Draft
  | entry ks v => d.addEntry ks v
  | table ks => d.openTable ks
  | listed ks => d.addTable ks

end Statement

/-- The statements of a document, which end with their lines. -/
def statementsWithin : Nat → List Char → Option (List Statement)
  | 0, _ => none
  | limit + 1, cs =>
    match skipFiller cs with
    | [] => some []
    | start => do
      let (s, rest) ← Statement.scan start
      let ((), rest) ← lineEnd rest
      return s :: (← statementsWithin limit rest)

/-- A byte order mark in front is passed over. -/
def skipMark : List Char → List Char
  | '\uFEFF' :: cs => cs
  | cs => cs

/-- The table that a document describes. -/
def parse (document : String) : Option Toml := do
  let cs := skipMark document.toList
  let statements ← statementsWithin (cs.length + 1) cs
  let d ← statements.foldlM Statement.apply {}
  return .table d.entries

end ScriptSandbox.Toml
