import ScriptSandbox.Failure.HostError
import ScriptSandbox.Json.Value

namespace ScriptSandbox

/-- The ways in which preparing or running a script fails. -/
inductive Failure where
  | config (text : String)
  | configNotFound (path : String)
  | tomlParse (text : String)
  | invalidInput (text : String)
  | serialization (fault : Json.Fault)
  | provisioning (path : String) (cause : HostError)
  | sandboxInit (text : String)
  | wasmerNotFound (path : String)
  | sandboxLaunch (binary : String) (cause : HostError)
  /-- The process ended with a status other than zero, or without one, by a signal. -/
  | sandboxExecution (status : Option Int) (stdout stderr : String)
  | sandboxTimeout (seconds : Nat)
  | io (cause : HostError)
  | other (text : String)
deriving Repr, DecidableEq

namespace Failure

def name : Failure → String
  | config _ => "Config"
  | configNotFound _ => "ConfigNotFound"
  | tomlParse _ => "TomlParse"
  | invalidInput _ => "InvalidInput"
  | serialization _ => "Serialization"
  | provisioning _ _ => "Provisioning"
  | sandboxInit _ => "SandboxInit"
  | wasmerNotFound _ => "WasmerNotFound"
  | sandboxLaunch _ _ => "SandboxLaunch"
  | sandboxExecution _ _ _ => "SandboxExecution"
  | sandboxTimeout _ => "SandboxTimeout"
  | io _ => "Io"
  | other _ => "Other"

/-- Whether the process in the sandbox failed, not its preparation. -/
def isSandboxFailure : Failure → Bool
  | sandboxExecution _ _ _ | sandboxLaunch _ _ | sandboxTimeout _ => true
  | _ => false

def exitPhrase : Option Int → String
  | some status => "status " ++ toString status
  | none => "a signal"

def message : Failure → String
  | config text => "Configuration error: " ++ text
  | configNotFound path => "Configuration file not found: " ++ path
  | tomlParse text => "TOML parse error: " ++ text
  | invalidInput text => "Invalid input: " ++ text
  | serialization fault => "Input data cannot be embedded in a script: " ++ fault.message
  | provisioning path cause =>
    "Failed to provision workspace from " ++ path ++ ": " ++ cause.message
  | sandboxInit text => "Sandbox initialization failed: " ++ text
  | wasmerNotFound path => "wasmer binary not found: " ++ path
  | sandboxLaunch binary cause => "Failed to launch " ++ binary ++ ": " ++ cause.message
  | sandboxExecution status _ stderr =>
    "Sandboxed process exited with " ++ exitPhrase status ++ ": " ++ stderr
  | sandboxTimeout seconds => "Sandbox timeout after " ++ toString seconds ++ " seconds"
  | io cause => "IO error: " ++ cause.message
  | other text => text

/-- The sentence of the error underneath. -/
def source : Failure → Option String
  | serialization fault => some fault.message
  | provisioning _ cause | sandboxLaunch _ cause | io cause => some cause.message
  | _ => none

def optionText : Option Int → String
  | some n => "Some(" ++ toString n ++ ")"
  | none => "None"

def debugText : Failure → String
  | config text => "Config(" ++ quoted text ++ ")"
  | configNotFound path => "ConfigNotFound \x7b path: " ++ quoted path ++ " \x7d"
  | tomlParse text => "TomlParse(" ++ quoted text ++ ")"
  | invalidInput text => "InvalidInput(" ++ quoted text ++ ")"
  | serialization fault =>
    "Serialization(Error(" ++ quoted fault.message ++ ", line: 0, column: 0))"
  | provisioning path cause =>
    "Provisioning \x7b path: " ++ quoted path ++ ", source: " ++ cause.debugText ++ " \x7d"
  | sandboxInit text => "SandboxInit(" ++ quoted text ++ ")"
  | wasmerNotFound path => "WasmerNotFound \x7b path: " ++ quoted path ++ " \x7d"
  | sandboxLaunch binary cause =>
    "SandboxLaunch \x7b binary: " ++ quoted binary ++ ", source: " ++ cause.debugText ++ " \x7d"
  | sandboxExecution status stdout stderr =>
    "SandboxExecution \x7b exit_code: " ++ optionText status ++ ", stdout: " ++ quoted stdout ++
      ", stderr: " ++ quoted stderr ++ " \x7d"
  | sandboxTimeout seconds => "SandboxTimeout \x7b seconds: " ++ toString seconds ++ " \x7d"
  | io cause => "Io(" ++ cause.debugText ++ ")"
  | other text => "Other(" ++ text ++ ")"

end Failure
end ScriptSandbox
