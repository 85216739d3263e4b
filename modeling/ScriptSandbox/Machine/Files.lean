import ScriptSandbox.Machine.World

namespace ScriptSandbox.Host

def permit (h : Host) (act : FileAct) : Attempt Unit :=
  match h.refuse act with
  | some e => throw e
  | none => pure ()

/-- An answer that the tree gives. -/
def ask {α : Type} (question : Tree → Except HostError α) : Attempt α := do
  match question (← get).tree with
  | .ok answer => pure answer
  | .error e => throw e

/-- A change of the tree, or an error that leaves it as it is. -/
def change (f : Tree → Except HostError Tree) : Attempt Unit := do
  let tree ← ask f
  modify fun w => { w with tree := tree }

/-- What a path leads to, links followed. -/
def inspect (h : Host) (path : String) : Attempt Node := do
  return (← ask fun t => t.find true h.cwd path).2

/-- The names in a directory, in the order of the host, and what stands under each. -/
def readDirectory (h : Host) (path : String) : Attempt (List (String × Node)) := do
  h.permit (.readDirectory path)
  let (l, node) ← ask fun t => t.find true h.cwd path
  if node.isDirectory then
    let t := (← get).tree
    return (h.arrange l (t.names l)).filterMap fun name => (t.get? (name :: l)).map (name, ·)
  else throw (.system SystemCode.notDirectory)

def makeDirectory (h : Host) (path : String) : Attempt Unit := do
  h.permit (.makeDirectory path)
  change fun t => t.makeDirectory h.cwd path

/-- Copies octets and permission bits of a file. -/
def copy (h : Host) (source target : String) : Attempt Unit := do
  h.permit (.copy source target)
  match ← h.inspect source with
  | .file mode content =>
    if mayRead mode then change fun t => t.write h.cwd target mode content
    else throw (.system SystemCode.accessDenied)
  | .directory | .device _ => throw .notRegular
  | _ => throw (.system SystemCode.noDevice)

def removeAll (h : Host) (path : String) : Attempt Unit := do
  h.permit (.removeAll path)
  change fun t => t.removeAll h.cwd path

/-- Makes a directory if there is none. -/
def ensureDirectory (h : Host) (path : String) : Attempt Unit := do
  match ← outcomeOf (h.makeDirectory path) with
  | .ok () => pure ()
  | .error e => if (← get).tree.hasDirectory h.cwd path then pure () else throw e

/-- Makes the first directory, and those further on in the list, in which it lies, as far as it
needs them. -/
def makeDirectoriesAt (h : Host) : List String → Attempt Unit
  | [] => pure ()
  | path :: above => do
    match ← outcomeOf (h.ensureDirectory path) with
    | .ok () => pure ()
    | .error e =>
      if e = .system SystemCode.noEntry ∧ above ≠ [] then
        h.makeDirectoriesAt above
        h.ensureDirectory path
      else throw e

/-- Makes a directory and those that it lies in, as far as they are missing. -/
def makeDirectories (h : Host) (path : String) : Attempt Unit :=
  h.makeDirectoriesAt (Path.ancestors path)

def write (h : Host) (path : String) (content : Bytes) : Attempt Unit :=
  change fun t => t.write h.cwd path 0o644 content

end ScriptSandbox.Host
