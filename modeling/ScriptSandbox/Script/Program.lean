import ScriptSandbox.Json.Value
import ScriptSandbox.Text.Character
import ScriptSandbox.Text.Lines

namespace ScriptSandbox

inductive Language where
  | python
  | quickJs
deriving Repr, DecidableEq

namespace Language

def all : List Language := [.python, .quickJs]

def name : Language → String
  | python => "python"
  | quickJs => "quickjs"

def debugText : Language → String
  | python => "Python"
  | quickJs => "QuickJs"

/-- Shorter names and synonyms. -/
def aliases : Language → List String
  | python => ["py"]
  | quickJs => ["js", "javascript"]

def sameText (ignoreCase : Bool) (a b : String) : Bool :=
  a == b || (ignoreCase && a.toList.map Char.toLower == b.toList.map Char.toLower)

/-- The language of a command line. Only the case of ASCII letters can be ignored. -/
def ofArgument (ignoreCase : Bool) (text : String) : Option Language :=
  all.find? fun l => (l.name :: l.aliases).any (sameText ignoreCase text)

/-- The language of a document, where the short name of the first one is not known. -/
def ofName (text : String) : Option Language :=
  if text = "python" then some .python
  else if text ∈ ["quickjs", "js", "javascript"] then some .quickJs
  else none

end Language

/-- The program around a script: the lines before the script, which make its input known to it and
open a function, the script's own lines, indented, and those after it, which write what the function
returns. So the line numbers of an interpreter can be led back to the script. -/
structure Program where
  preamble : List String
  body : List String
  epilogue : List String
deriving Repr, DecidableEq

namespace Program

def source (p : Program) : String :=
  textOf (p.preamble ++ p.body ++ p.epilogue)

/-- The number of lines before the first line of the script. -/
def offset (p : Program) : Nat := p.preamble.length

/-- The line of the script that is line `line` of the program, both counted from one. -/
def scriptLine (p : Program) (line : Nat) : Option Nat :=
  if p.offset < line ∧ line ≤ p.offset + p.body.length then some (line - p.offset) else none

/-- The indentation of the function body. -/
def margin : String := "  "

def bodyOf (script : String) : List String :=
  (linesOf script).map (margin ++ ·)

/-- Whether the line is something other than white space and a comment. -/
def isStatement (line : String) : Bool :=
  match Blank.trim line.toList with
  | [] => false
  | c :: _ => c != '#'

def hasStatements (script : String) : Bool :=
  (linesOf script).any isStatement

def pythonPreamble (literal : String) : List String :=
  ["import sys,json",
   "inputData = json.loads(" ++ literal ++ ")",
   "def log(*args, **kwargs):",
   "  print(*args, file=sys.stderr, **kwargs)",
   "",
   "def script_fun():"]

def pythonEpilogue : List String :=
  ["",
   "result = script_fun()",
   "if result is not None:",
   "  if isinstance(result, str):",
   "    sys.stdout.write(result)",
   "  else:",
   "    sys.stdout.write(json.dumps(result))",
   ""]

/-- A function body must hold a statement, so a script without one is followed by `pass`. -/
def filler (script : String) : List String :=
  if hasStatements script then [] else [margin ++ "pass"]

def python (script : String) (input : Json) : Program where
  preamble := pythonPreamble input.literal
  body := bodyOf script
  epilogue := filler script ++ pythonEpilogue

def quickJsPreamble (literal : String) : List String :=
  ["const $ = JSON.parse(" ++ literal ++ ");",
   "console.error = function(...args) \x7b",
   "  std.err.puts(args.join(' '));",
   "  std.err.puts('\\n');",
   "\x7d;",
   "console.log = console.error;",
   "console.warn = console.error;",
   "console.info = console.error;",
   "console.debug = console.error;",
   "globalThis.log = console.error;",
   "globalThis.print = function(...args) \x7b",
   "  std.out.puts(args.join(' '));",
   "\x7d;",
   "let result = (function() \x7b"]

def quickJsEpilogue : List String :=
  ["\x7d)();",
   "if (result != null) \x7b",
   "  const text = typeof result === 'string' ? result : JSON.stringify(result);",
   "  if (text !== undefined) \x7b",
   "    std.out.puts(text);",
   "  \x7d",
   "\x7d",
   ""]

def quickJs (script : String) (input : Json) : Program where
  preamble := quickJsPreamble input.literal
  body := bodyOf script
  epilogue := quickJsEpilogue

end Program

/-- The program that runs `script` on `input`. -/
def Language.wrap : Language → String → Json → Program
  | .python => Program.python
  | .quickJs => Program.quickJs

structure Invocation where
  image : String
  flags : List String
  program : String
deriving Repr, DecidableEq

namespace Invocation

def argv (i : Invocation) : List String :=
  i.image :: i.flags ++ [i.program]

/-- The directory `library` is known as `lib` inside the sandbox. The interpreter writes no
bytecode and no banner. -/
def python (image library : String) (p : Program) : Invocation where
  image := image
  flags := ["--mapdir=lib:" ++ library, "--", "-B", "-q", "-c"]
  program := p.source

/-- The interpreter offers its `std` module to the program. -/
def quickJs (image : String) (p : Program) : Invocation where
  image := image
  flags := ["--", "--std", "-e"]
  program := p.source

end Invocation

structure Request where
  script : String
  /-- Recorded when the script fails. The interpreters never see them. -/
  args : List String := []
  input : Json := .null
  /-- Names the run in the log. -/
  taskId : String := "UnknownID"

end ScriptSandbox
