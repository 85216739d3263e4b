import ScriptSandbox.CommandLine.Basic

namespace ScriptSandbox.CommandLine

/-- What an argument that is given says. -/
inductive Value where
  | text (s : String)
  | language (l : Language)
  | format (f : Format)
deriving Repr, DecidableEq

inductive Kind where
  | help | version
  /-- Counted each time. -/
  | count
  /-- Given or not. -/
  | switch
  | path | text | language | format
deriving Repr, DecidableEq

namespace Kind

def takesValue : Kind → Bool
  | path | text | language | format => true
  | help | version | count | switch => false

/-- What a text says as a value of this kind. -/
def value? : Kind → String → Option Value
  | path, s => if s.isEmpty then none else some (.text s)
  | text, s => some (.text s)
  | language, s => (Language.ofArgument false s).map .language
  | format, s =>
    if s = "text" then some (.format .text)
    else if s = "json" then some (.format .json)
    else none
  | _, _ => none

end Kind

inductive Item where
  | help | version
  | config | verbose | format | pythonBinary | pythonLibrary | quickJsBinary | wasmerBinary
  | language | script | file | input | inputFile | taskId | args
  | force
deriving Repr, DecidableEq

namespace Item

def kind : Item → Kind
  | help => .help
  | version => .version
  | verbose => .count
  | force => .switch
  | config | pythonBinary | pythonLibrary | quickJsBinary | wasmerBinary | file | inputFile => .path
  | script | input | taskId | args => .text
  | language => .language
  | format => .format

/-- The name after two dashes. Arguments that have none are known by their place. -/
def name? : Item → Option String
  | help => some "help"
  | version => some "version"
  | config => some "config"
  | verbose => some "verbose"
  | format => some "format"
  | pythonBinary => some "python-bin"
  | pythonLibrary => some "python-lib"
  | quickJsBinary => some "quickjs-bin"
  | wasmerBinary => some "wasmer"
  | language => some "lang"
  | file => some "file"
  | input => some "input"
  | inputFile => some "input-file"
  | taskId => some "task-id"
  | force => some "force"
  | script | args => none

/-- The letter after one dash. -/
def letter? : Item → Option Char
  | help => some 'h'
  | version => some 'V'
  | config => some 'c'
  | verbose => some 'v'
  | language => some 'l'
  | file => some 'f'
  | input => some 'i'
  | force => some 'f'
  | _ => none

/-- The variable that stands in for the argument. -/
def standIn? : Item → Option String
  | config => some "SCRIPTLET_CONFIG"
  | _ => none

/-- What every command knows. -/
def everywhere : List Item :=
  [help, version, config, verbose, format, pythonBinary, pythonLibrary, quickJsBinary, wasmerBinary]

end Item

/-- How much of the command has been named. -/
inductive Scope where
  | program | run | health | init | config | display | path | help
deriving Repr, DecidableEq

namespace Scope

/-- The commands inside a command. -/
def inside : Scope → List (String × Scope)
  | program =>
    [("run", run), ("health", health), ("init", init), ("config", config), ("help", help)]
  | config => [("show", display), ("path", path), ("help", help)]
  | _ => []

def inside? (s : Scope) (name : String) : Option Scope :=
  (s.inside.find? (·.1 == name)).map (·.2)

def programName : Scope → String
  | program => "scriptlet"
  | run => "scriptlet-run"
  | health => "scriptlet-health"
  | init => "scriptlet-init"
  | config => "scriptlet-config"
  | display => "scriptlet-config-show"
  | path => "scriptlet-config-path"
  | help => "scriptlet-help"

def options : Scope → List Item
  | run => Item.everywhere ++ [.language, .file, .input, .inputFile, .taskId]
  | health => Item.everywhere ++ [.language]
  | init => Item.everywhere ++ [.force]
  | _ => Item.everywhere

def named? (s : Scope) (name : String) : Option Item :=
  s.options.find? (·.name? == some name)

def lettered? (s : Scope) (letter : Char) : Option Item :=
  s.options.find? (·.letter? == some letter)

/-- What a word without dashes is, given how many such words came before. -/
def place? (s : Scope) (before : Nat) : Option Item :=
  match s, before with
  | run, 0 => some .script
  | _, _ => none

/-- What a word after two lone dashes is. -/
def trailing? : Scope → Option Item
  | run => some .args
  | _ => none

end Scope
end ScriptSandbox.CommandLine
