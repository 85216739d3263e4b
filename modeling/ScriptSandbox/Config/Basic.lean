namespace ScriptSandbox

structure PythonConfig where
  /-- The interpreter image. -/
  binary : String := "wasm/python/bin/python.wasm"
  /-- The library that each workspace gets a copy of. -/
  library : String := "wasm/python/lib"
deriving Repr, DecidableEq

structure QuickJsConfig where
  binary : String := "wasm/quickjs/quickjs.wasm"
deriving Repr, DecidableEq

structure WasmerConfig where
  /-- Without it `wasmer` is looked for. -/
  binary : Option String := none
  /-- How many seconds a run may take. -/
  timeout : Option Nat := none
  autoDownload : Bool := true
deriving Repr, DecidableEq

/-- Each setting comes from the last of these that tells it: the defaults, the configuration file,
the environment, the command line. -/
structure Config where
  python : PythonConfig := {}
  quickJs : QuickJsConfig := {}
  wasmer : WasmerConfig := {}
deriving Repr, DecidableEq

namespace Config

/-- Paths that take the place of those in a configuration. -/
structure Overrides where
  pythonBinary : Option String := none
  pythonLibrary : Option String := none
  quickJsBinary : Option String := none
  wasmerBinary : Option String := none
deriving Repr, DecidableEq

def override (c : Config) (o : Overrides) : Config where
  python := {
    binary := o.pythonBinary.getD c.python.binary
    library := o.pythonLibrary.getD c.python.library }
  quickJs := { binary := o.quickJsBinary.getD c.quickJs.binary }
  wasmer := { c.wasmer with binary := o.wasmerBinary <|> c.wasmer.binary }

/-- What the environment overrides. An empty value counts as none. -/
def Overrides.ofVariables (lookup : String → Option String) : Overrides where
  pythonBinary := (lookup "PYTHON_PATH").filter (· ≠ "")
  pythonLibrary := (lookup "PYTHON_LIB_PATH").filter (· ≠ "")
  quickJsBinary := (lookup "QUICKJS_PATH").filter (· ≠ "")

end Config
end ScriptSandbox
