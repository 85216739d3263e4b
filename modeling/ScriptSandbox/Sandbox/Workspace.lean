import ScriptSandbox.Machine.Files
import ScriptSandbox.Sandbox.Executor

namespace ScriptSandbox

/-- A temporary directory that holds a copy of a library, for one run of an interpreter that needs
it. -/
structure Workspace where
  path : String
deriving Repr, DecidableEq

namespace Workspace

def namePrefix : String := "scriptlet-"

/-- The directory for temporary files, as an absolute path. -/
def temporaryRoot (h : Host) : String :=
  Path.join h.cwdPath ((h.lookup "TMPDIR").getD "/tmp")

/-- Makes a directory under the first name tried that is not taken. -/
def makeTemporary (h : Host) : Nat → Attempt Workspace
  | 0 =>
    throw (.atPath (temporaryRoot h) (.custom .other "too many temporary files exist"))
  | tries + 1 => do
    let n := (← get).drawn
    modify fun w => { w with drawn := n + 1 }
    let path := Path.join (temporaryRoot h) (namePrefix ++ h.tag n)
    match ← outcomeOf (h.makeDirectory path) with
    | .ok () => pure ⟨path⟩
    | .error e =>
      if e = .system SystemCode.alreadyThere then makeTemporary h tries
      else throw (.atPath path e)

/-- One try more than there are names in the directory finds a free one. -/
def temporary (h : Host) : Attempt Workspace := do
  let w ← get
  let taken := match w.tree.find true h.cwd (temporaryRoot h) with
    | .ok (l, _) => (w.tree.names l).length
    | .error _ => 0
  makeTemporary h (taken + 1)

/-- Whether a path leads to a regular file. -/
def leadsToFile (h : Host) (path : String) : Attempt Bool := do
  match ← (outcomeOf (h.inspect path) : Attempt (Except HostError Node)) with
  | .ok node => return node.isFile
  | .error _ => return false

/-- Copies these entries of `source` and makes the directories among them. The directories' names
and the number of files are the result. Links to files are copied as files; other links are left
out, so that no way leads back up. -/
def copyEntries (h : Host) (source target : String) :
    List (String × Node) → Attempt (List String × Nat)
  | [] => do
    h.permit (.nextEntry source none)
    return ([], 0)
  | (name, node) :: others => do
    h.permit (.nextEntry source (some name))
    let entry := Path.join source name
    let twin := Path.join target name
    match node with
    | .directory =>
      h.makeDirectory twin
      let (directories, files) ← copyEntries h source target others
      return (name :: directories, files)
    | .link _ =>
      if ← leadsToFile h entry then
        h.copy entry twin
        let (directories, files) ← copyEntries h source target others
        return (directories, files + 1)
      else
        World.note .workspaces .debug "Skipping directory or dangling symlink"
          [("link", .text entry)]
        copyEntries h source target others
    | _ =>
      h.copy entry twin
      let (directories, files) ← copyEntries h source target others
      return (directories, files + 1)

/-- The sum over the directories, taken from the last to the first. -/
def copyEach (copy : String → Attempt Nat) : List String → Attempt Nat
  | [] => return 0
  | name :: names => do
    let files ← copyEach copy names
    return files + (← copy name)

/-- Copies all below `source` into the directory `target` and counts the files. A path gets longer
with each directory on it, so none is deeper than a path may be long. -/
def copyBelow (h : Host) : Nat → String → String → Attempt Nat
  | 0, _, _ => throw (.system SystemCode.nameTooLong)
  | depth + 1, source, target => do
    let entries ← h.readDirectory source
    let (directories, files) ← copyEntries h source target entries
    let more ← copyEach
      (fun name => copyBelow h depth (Path.join source name) (Path.join target name)) directories
    return files + more

/-- A fresh workspace with a copy of the library. If the copy fails, what there is of it is removed
again. -/
def provision (h : Host) (library : String) : Action Workspace := do
  let failed := Failure.provisioning library
  let node ← attempt failed (h.inspect library)
  if !node.isDirectory then throw (failed .notDirectory)
  let ws ← attempt failed (temporary h)
  World.note .workspaces .info "Created workspace" [("workspace", .text ws.path)]
  match ← outcomeOf (copyBelow h Tree.pathLimit library ws.path) with
  | .ok files =>
    World.note .workspaces .info "Copied library into workspace"
      [("files", .number files), ("elapsed_ms", .duration)]
    return ws
  | .error e =>
    let _ ← (outcomeOf (h.removeAll ws.path) : Action (Except HostError Unit))
    throw (failed e)

/-- Removes the workspace. -/
def release (h : Host) (ws : Workspace) : Action Unit := do
  attempt (fun e => .io (.atPath ws.path e)) (h.removeAll ws.path)
  World.note .workspaces .debug "Released workspace" [("workspace", .text ws.path)]

/-- Removes the workspace if it can be removed, without a word. -/
def drop (h : Host) (ws : Workspace) : StateM World Unit := do
  let _ ← (h.removeAll ws.path).run

/-- Removes the workspace; that it cannot be removed is only noted. -/
def releaseNoted (h : Host) (ws : Workspace) : StateM World Unit := do
  match ← (ws.release h).run with
  | .ok () => pure ()
  | .error e =>
    World.note .workspaces .warn "Failed to remove workspace"
      [("workspace", .text ws.path), ("error", .text e.message)]

end Workspace
end ScriptSandbox
