import ScriptSandbox.Failure.HostError
import ScriptSandbox.Machine.Tree
import ScriptSandbox.Text.Lines

namespace ScriptSandbox.Path

def isAbsolute (path : String) : Bool := path.toList.head? == some '/'

/-- The names between the slashes, the empty ones too. -/
def segments (path : String) : List String :=
  piecesOf '/' path

/-- `path` seen from the directory `base`; an absolute path is the same from everywhere. -/
def join (base path : String) : String :=
  if isAbsolute path then path
  else
    match base.toList.getLast? with
    | none => path
    | some '/' => base ++ path
    | some _ => base ++ "/" ++ path

/-- The names that count. Empty ones do not, nor single dots other than at the very start. -/
def components (path : String) : List String :=
  match segments path with
  | [] => []
  | first :: rest =>
    let rest := rest.filter fun name => name ≠ "" && name ≠ "."
    if first = "" then rest else first :: rest

/-- The path and the directories that it lies in, the nearest first; the last one of a relative
path has one name. They are written without the names that do not count. -/
def ancestors (path : String) : List String :=
  let names := components path
  let start := if isAbsolute path then "/" else ""
  (List.range names.length).reverse.map fun n =>
    start ++ String.intercalate "/" (names.take (n + 1))

/-- Whether the path is written as the name for standard input. -/
def isStandardInput (path : String) : Bool :=
  !isAbsolute path && components path == ["-"]

end ScriptSandbox.Path

namespace ScriptSandbox.Tree

/-- More links than these are not followed on one way. -/
def linkLimit : Nat := 40

/-- The greatest number of octets in a name. -/
def nameLimit : Nat := 255

/-- The least number of octets that is too many for a path. -/
def pathLimit : Nat := 4096

/-- The location that `names` lead to from the directory `here`, with `follow` for the way on from a
link. The last name need not exist, and is not followed unless `whole`. -/
def walkOver (t : Tree) (whole : Bool)
    (follow : Location → List String → Except HostError Location) :
    Location → List String → Except HostError Location
  | here, [] => .ok here
  | here, name :: rest =>
    if name = "" ∨ name = "." then walkOver t whole follow here rest
    else if name = ".." then walkOver t whole follow here.tail rest
    else if name.utf8ByteSize > nameLimit then .error (.system SystemCode.nameTooLong)
    else
      match t.get? (name :: here) with
      | some .directory => walkOver t whole follow (name :: here) rest
      | some (.link target) =>
        if rest.isEmpty && !whole then .ok (name :: here)
        else
          follow (if Path.isAbsolute target then [] else here) (Path.segments target ++ rest)
      | some _ =>
        if rest.isEmpty then .ok (name :: here) else .error (.system SystemCode.notDirectory)
      | none =>
        if rest.isEmpty then .ok (name :: here) else .error (.system SystemCode.noEntry)

/-- The way with at most `links` links on it. -/
def walk (t : Tree) (whole : Bool) : Nat → Location → List String → Except HostError Location
  | 0 => walkOver t whole fun _ _ => .error (.system SystemCode.linkLoop)
  | links + 1 => walkOver t whole (walk t whole links)

/-- The location of a path. A link at the very end is followed if `whole`. -/
def locate (t : Tree) (whole : Bool) (cwd : Location) (path : String) :
    Except HostError Location :=
  if path.toList.contains '\x00' then .error .nulInPath
  else if path.isEmpty then .error (.system SystemCode.noEntry)
  else if path.utf8ByteSize ≥ pathLimit then .error (.system SystemCode.nameTooLong)
  else
    let start := if Path.isAbsolute path then [] else cwd
    if (t.get? start).any Node.isDirectory then
      walk t whole linkLimit start (Path.segments path)
    else .error (.system SystemCode.noEntry)

/-- The location of something that exists, and what it is. -/
def find (t : Tree) (whole : Bool) (cwd : Location) (path : String) :
    Except HostError (Location × Node) := do
  let l ← t.locate whole cwd path
  match t.get? l with
  | some node => .ok (l, node)
  | none => .error (.system SystemCode.noEntry)

/-- Whether the path leads to something, links followed. -/
def has (t : Tree) (cwd : Location) (path : String) : Bool :=
  (t.find true cwd path).isOk

def hasDirectory (t : Tree) (cwd : Location) (path : String) : Bool :=
  match t.find true cwd path with
  | .ok (_, node) => node.isDirectory
  | .error _ => false

def read (t : Tree) (cwd : Location) (path : String) : Except HostError Bytes := do
  match (← t.find true cwd path).2 with
  | .file mode content =>
    if mayRead mode then .ok content else .error (.system SystemCode.accessDenied)
  | .device content => .ok content
  | .directory => .error (.system SystemCode.isDirectory)
  | _ => .error (.system SystemCode.noDevice)

/-- The text of a file, which must be UTF-8. -/
def readText (t : Tree) (cwd : Location) (path : String) : Except HostError String := do
  match Utf8.decode (← t.read cwd path) with
  | some text => .ok text
  | none => .error .notUtf8

/-- Puts `content` into the file, which is made with `mode` if it does not exist. -/
def write (t : Tree) (cwd : Location) (path : String) (mode : Nat) (content : Bytes) :
    Except HostError Tree := do
  let l ← t.locate true cwd path
  match t.get? l with
  | none => .ok (t.put l (.file mode content))
  | some (.file old _) =>
    if mayWrite old then .ok (t.put l (.file old content))
    else .error (.system SystemCode.accessDenied)
  | some (.device _) => .ok t
  | some .directory => .error (.system SystemCode.isDirectory)
  | some _ => .error (.system SystemCode.noDevice)

def makeDirectory (t : Tree) (cwd : Location) (path : String) : Except HostError Tree := do
  let l ← t.locate false cwd path
  match t.get? l with
  | none => .ok (t.put l .directory)
  | some _ => .error (.system SystemCode.alreadyThere)

/-- Removes a directory and all that lies in it. A link is only removed itself. -/
def removeAll (t : Tree) (cwd : Location) (path : String) : Except HostError Tree := do
  match ← t.find false cwd path with
  | (l, .directory) | (l, .link _) => .ok (t.cut l)
  | _ => .error (.system SystemCode.notDirectory)

end ScriptSandbox.Tree
