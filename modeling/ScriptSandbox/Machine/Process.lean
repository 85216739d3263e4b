import ScriptSandbox.Machine.World
import ScriptSandbox.Text.Utf8

namespace ScriptSandbox

/-- The first line of a file that another program is to run: the two octets `#!`, the program, and
perhaps one argument, with blanks between them. -/
structure Hashbang where
  program : String
  argument : Option String := none
deriving Repr, DecidableEq

namespace Hashbang

/-- So many octets of a file are looked at. -/
def window : Nat := 256

def isBlank (b : UInt8) : Bool := b == 0x20 || b == 0x09

/-- What ends the name of the program. -/
def isEnd (b : UInt8) : Bool := isBlank b || b == 0

/-- The octets without blanks at either end. -/
def trim (line : Bytes) : Bytes :=
  ((line.reverse.dropWhile isBlank).reverse).dropWhile isBlank

/-- The line after `#!`, in a window that zeros fill up. Without a line break in front of the first
zero it is all but the last octet of the window, if the name of the program has an end there. -/
def line? (rest : Bytes) : Option Bytes :=
  let text := rest.takeWhile fun b => b != 0x0A && b != 0
  if rest[text.length]? = some 0x0A then some (trim text)
  else if (rest.dropWhile isBlank).any isEnd then some (trim rest.dropLast)
  else none

/-- Blanks are gone from the start of the line, so the name is empty only if the line is or if a
zero comes first. An empty line names no program; the zero ends a name. -/
def ofLine (line : Bytes) : Option Hashbang :=
  let name := line.takeWhile fun b => !isEnd b
  match line.drop name.length with
  | [] => if name.isEmpty then none else some { program := Utf8.decodeLossy name }
  | b :: rest =>
    let program := Utf8.decodeLossy name
    if b = 0 then some { program }
    else
      some { program, argument := some (Utf8.decodeLossy ((trim rest).takeWhile (· != 0))) }

/-- The line that the file starts with, if it is such a line. -/
def ofFile (content : Bytes) : Option Hashbang :=
  match content.take window ++ List.replicate (window - content.length) 0 with
  | 0x23 :: 0x21 :: rest => (line? rest).bind ofLine
  | _ => none

end Hashbang
end ScriptSandbox

namespace ScriptSandbox.Host

/-- The least number of octets that is too many for one argument. -/
def argumentLimit : Nat := 131072

/-- So many programs, each run by the next, are gone through on the way to one that runs itself. -/
def runnerLimit : Nat := 6

def isTooLong (arg : String) : Bool := arg.utf8ByteSize ≥ argumentLimit

/-- Runs the file that a path leads to, with at most `runners` programs in a row. One with a first
line for it is run by the program named there, which gets the path as an argument. -/
def runFile (h : Host) (t : Tree) : Nat → String → List String → Except HostError Reply
  | runners, path, args => do
    match ← t.find true h.cwd path with
    | (l, .file mode content) =>
      if !mayRun mode then .error (.system SystemCode.accessDenied)
      else if args.any isTooLong then .error (.system SystemCode.argumentsTooLong)
      else
        match runners with
        | 0 => .error (.system SystemCode.linkLoop)
        | more + 1 =>
          match h.programs l, Hashbang.ofFile content with
          | some program, _ => .ok (program args)
          | none, some ⟨"", _⟩ => .error (.system SystemCode.accessDenied)
          | none, some ⟨runner, argument⟩ =>
            runFile h t more runner (argument.toList ++ path :: args)
          | none, none => .error (.system SystemCode.notExecutable)
    | _ => .error (.system SystemCode.accessDenied)

/-- Whether the search goes on after the error. -/
def isPassedOver (e : HostError) : Bool :=
  [SystemCode.accessDenied, SystemCode.noEntry, SystemCode.notDirectory].any fun code =>
    e = .system code

/-- Runs the first program of the name in the directories. One that may not be run is passed over,
but remembered; otherwise the last error counts. -/
def runNamed (h : Host) (t : Tree) (binary : String) (args : List String) (denied : Bool)
    (last : HostError) : List String → Except HostError Reply
  | [] => .error (if denied then .system SystemCode.accessDenied else last)
  | directory :: others =>
    match h.runFile t runnerLimit (Path.join directory binary) args with
    | .ok reply => .ok reply
    | .error e =>
      if isPassedOver e then
        h.runNamed t binary args (denied || e = .system SystemCode.accessDenied) e others
      else .error e

/-- A directory too long for a path is left out at the end, and elsewhere stands for the working
directory. -/
def searchable : List String → List String
  | [] => []
  | [last] => if last.utf8ByteSize ≥ Tree.pathLimit then [] else [last]
  | first :: others =>
    (if first.utf8ByteSize ≥ Tree.pathLimit then "" else first) :: searchable others

def searchPath (h : Host) : List String :=
  searchable (piecesOf ':' ((h.lookup "PATH").getD "/bin:/usr/bin"))

/-- A binary named with a slash is a path; any other is looked up in the directories of `PATH`. -/
def runBinary (h : Host) (t : Tree) (binary : String) (args : List String) :
    Except HostError Reply :=
  if binary.toList.contains '/' then h.runFile t runnerLimit binary args
  else if binary.isEmpty then .error (.system SystemCode.noEntry)
  else h.runNamed t binary args false (.system SystemCode.noEntry) h.searchPath

/-- Starts a program; its reply tells all that it will do. -/
def launch (h : Host) (binary : String) (args : List String) : Attempt Reply := do
  modify fun w => { w with launches := w.launches ++ [⟨binary, args⟩] }
  if (binary :: args).any (·.toList.contains '\x00') then throw .nulInArgument
  else
    match h.runBinary (← get).tree binary args with
    | .ok reply => return reply
    | .error e => throw e

end ScriptSandbox.Host
