import ScriptSandbox.Config.Basic
import ScriptSandbox.Config.Load
import ScriptSandbox.Machine.Process
import ScriptSandbox.Sandbox.Executor
import ScriptSandbox.Text.Character

namespace ScriptSandbox

structure Wasmer where
  binary : String
  /-- How many seconds a run may take. -/
  timeout : Option Nat := none
deriving Repr, DecidableEq

namespace Wasmer

def status : Ending → Option Int
  | .exit code => some code.toNat
  | .signal => none

/-- Whether the limit is over before the process is. -/
def expired (w : Wasmer) (reply : Reply) : Option Nat :=
  w.timeout.filter fun seconds => seconds * 1000 ≤ reply.milliseconds

def run (h : Host) (w : Wasmer) (args : List String) : Action Output := do
  World.note .wasmer .debug "Running wasmer"
    [("binary", .text w.binary), ("image", .text (args.headD "")), ("argc", .number args.length)]
  let reply ← attempt (.sandboxLaunch w.binary) (h.launch w.binary ("run" :: args))
  match w.expired reply with
  | some seconds => throw (.sandboxTimeout seconds)
  | none =>
    let stdout := Utf8.decodeLossy reply.stdout
    let stderr := Utf8.decodeLossy reply.stderr
    World.note .wasmer .debug "wasmer completed"
      [("exit_code", .text (Failure.optionText (status reply.ending))),
       ("stdout_len", .number stdout.utf8ByteSize),
       ("stderr_len", .number stderr.utf8ByteSize)]
    if reply.ending = .exit 0 then return ⟨stdout, stderr⟩
    else throw (.sandboxExecution (status reply.ending) stdout stderr)

def executor (h : Host) (w : Wasmer) : Executor where
  name := "wasmer"
  run := w.run h

/-- What the binary calls its version, if it can be run and ends well. -/
def version? (h : Host) (binary : String) : Action (Option String) := do
  match ← (outcomeOf (h.launch binary ["--version"]) : Action (Except HostError Reply)) with
  | .ok reply =>
    return if reply.ending = .exit 0 then some (trimmed (Utf8.decodeLossy reply.stdout)) else none
  | .error _ => return none

def systemBinary : String := "wasmer"

def cachedBinary (h : Host) : String :=
  Path.join (Path.join h.cacheDirectory "wasmer") "wasmer"

/-- Why there is none when one may not be fetched, and when one may. -/
def missing (autoDownload : Bool) : Failure :=
  .sandboxInit <|
    if autoDownload then "wasmer is not installed and download support was not compiled in"
    else "wasmer is not installed. Install it with: curl https://get.wasmer.io -sSfL | sh"

/-- The binary that runs the images. One that is configured is the only one considered; otherwise
the programs on the search path come before a cached one. -/
def locate (h : Host) (c : WasmerConfig) : Action String := do
  match c.binary with
  | some path =>
    match ← version? h path with
    | some version =>
      World.note .wasmer .info "Using configured wasmer"
        [("version", .text version), ("path", .text path)]
      return path
    | none => throw (.wasmerNotFound path)
  | none =>
    match ← version? h systemBinary with
    | some version =>
      World.note .wasmer .info "Using system wasmer" [("version", .text version)]
      return systemBinary
    | none =>
      let cached := cachedBinary h
      match ← version? h cached with
      | some version =>
        World.note .wasmer .info "Using cached wasmer"
          [("version", .text version), ("path", .text cached)]
        return cached
      | none => throw (missing c.autoDownload)

/-- The wasmer of a configuration, after it has been found. -/
def ofConfig (h : Host) (c : WasmerConfig) : Action Wasmer := do
  return ⟨← locate h c, c.timeout⟩

end Wasmer
end ScriptSandbox
