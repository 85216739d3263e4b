import ScriptSandbox.Config.Basic
import ScriptSandbox.Failure.Basic
import ScriptSandbox.Text.Lines
import ScriptSandbox.Toml.Document

namespace ScriptSandbox.Config

/-- The settings of a group, by position and name. A list holds them in order, a table by name, and
a date holds none. -/
def group : Toml → Option (Nat → String → Option Toml)
  | .table entries => some fun _ name => Toml.member? entries name
  | .array items => some fun position _ => items[position]?
  | .datetime => some fun _ _ => none
  | _ => none

/-- A setting of some kind, or its default. -/
def setting {α : Type} (kind : Toml → Option α) (missing : α) : Option Toml → Option α
  | none => some missing
  | some v => kind v

def string : Toml → Option String
  | .string s => some s
  | _ => none

def boolean : Toml → Option Bool
  | .boolean b => some b
  | _ => none

def natural : Toml → Option Nat
  | .integer (.ofNat n) => some n
  | _ => none

def pythonOf (v : Toml) : Option PythonConfig := do
  let find ← group v
  let missing : PythonConfig := {}
  return {
    binary := ← setting string missing.binary (find 0 "binary")
    library := ← setting string missing.library (find 1 "lib_dir") }

def quickJsOf (v : Toml) : Option QuickJsConfig := do
  let find ← group v
  let missing : QuickJsConfig := {}
  return { binary := ← setting string missing.binary (find 0 "binary") }

def wasmerOf (v : Toml) : Option WasmerConfig := do
  let find ← group v
  let missing : WasmerConfig := {}
  return {
    binary := ← setting (fun v => (string v).map some) missing.binary (find 0 "binary")
    timeout := ← setting (fun v => (natural v).map some) missing.timeout (find 1 "timeout_seconds")
    autoDownload := ← setting boolean missing.autoDownload (find 2 "auto_download") }

/-- What is missing has its default, and what is not known is passed over. -/
def ofToml (v : Toml) : Option Config := do
  let find ← group v
  return {
    python := ← setting pythonOf {} (find 0 "python")
    quickJs := ← setting quickJsOf {} (find 1 "quickjs")
    wasmer := ← setting wasmerOf {} (find 2 "wasmer") }

def textLine (name value : String) : String := name ++ " = " ++ Toml.textLiteral value

def booleanText : Bool → String
  | true => "true"
  | false => "false"

def wasmerLines (w : WasmerConfig) : List String :=
  (w.binary.map (textLine "binary")).toList ++
    (w.timeout.map fun n => "timeout_seconds = " ++ toString n).toList ++
    ["auto_download = " ++ booleanText w.autoDownload]

/-- The document that tells every setting. A setting without value has no line. -/
def document (c : Config) : String :=
  textOf
    (["[python]", textLine "binary" c.python.binary, textLine "lib_dir" c.python.library, "",
      "[quickjs]", textLine "binary" c.quickJs.binary, "",
      "[wasmer]"] ++ wasmerLines c.wasmer ++ [""])

/-- The document, if the numbers in it are in the range of documents. -/
def written (c : Config) : Except Failure String :=
  if c.wasmer.timeout.all fun n : Nat => Toml.Scalar.inRange n then .ok c.document
  else .error (.config "out-of-range value for u64 type")

end ScriptSandbox.Config
