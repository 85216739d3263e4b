import ScriptSandbox.Text.Utf8

namespace ScriptSandbox

/-- The names on the way to a node, the last one first, so the tail of a location is the directory
that it lies in. -/
abbrev Location := List String

/-- The owner of a file uses it, so the permission bits of others do not count. -/
def mayRead (mode : Nat) : Bool := mode.testBit 8

def mayWrite (mode : Nat) : Bool := mode.testBit 7

def mayRun (mode : Nat) : Bool := mode.testBit 6

inductive Node where
  /-- The permission bits and the octets. -/
  | file (mode : Nat) (content : Bytes)
  | directory
  | link (target : String)
  /-- Something that is always read alike, whatever is written to it. -/
  | device (content : Bytes)
  /-- Something that can neither be read nor entered. -/
  | socket
deriving Repr, DecidableEq

def Node.isDirectory : Node → Bool
  | directory => true
  | _ => false

def Node.isFile : Node → Bool
  | file _ _ => true
  | _ => false

abbrev Entry := Location × Node

/-- The nodes below the root, level by level. The locations in the level with number `n` have
`n + 1` names, so a location is only compared with others of its length. -/
structure Tree where
  levels : List (List Entry) := []
deriving Repr, DecidableEq

namespace Tree

/-- The level with a number. It is empty if nothing is so deep. -/
def level (t : Tree) (n : Nat) : List Entry := t.levels.getD n []

/-- The levels with `f` applied to the one with number `n`. -/
def changeLevel (f : List Entry → List Entry) : Nat → List (List Entry) → List (List Entry)
  | 0, [] => [f []]
  | 0, first :: deeper => f first :: deeper
  | n + 1, [] => [] :: changeLevel f n []
  | n + 1, first :: deeper => first :: changeLevel f n deeper

@[simp]
theorem getD_changeLevel_self (f : List Entry → List Entry) (n : Nat) (levels : List (List Entry)) :
    (changeLevel f n levels)[n]?.getD [] = f (levels[n]?.getD []) := by
  induction n generalizing levels with
  | zero => cases levels <;> rfl
  | succ n ih =>
    cases levels with
    | nil => simpa [changeLevel] using ih []
    | cons first deeper => simpa [changeLevel] using ih deeper

@[simp]
theorem getD_changeLevel_other (f : List Entry → List Entry) {n m : Nat} (apart : n ≠ m)
    (levels : List (List Entry)) :
    (changeLevel f n levels)[m]?.getD [] = levels[m]?.getD [] := by
  induction n generalizing m levels with
  | zero =>
    cases m with
    | zero => exact absurd rfl apart
    | succ m => cases levels <;> simp [changeLevel]
  | succ n ih =>
    cases m with
    | zero => cases levels <;> rfl
    | succ m =>
      have apart : n ≠ m := fun h => apart (congrArg _ h)
      cases levels with
      | nil => simpa [changeLevel] using ih apart []
      | cons first deeper => simpa [changeLevel] using ih apart deeper

/-- The node at a location; the root is always a directory. -/
def get? (t : Tree) : Location → Option Node
  | [] => some .directory
  | name :: above =>
    ((t.level above.length).find? (·.1 == name :: above)).map (·.2)

/-- The tree with `node` at `l`, whatever was there before. The root stays what it is. -/
def put (t : Tree) (l : Location) (node : Node) : Tree :=
  match l with
  | [] => t
  | name :: above =>
    ⟨changeLevel (fun level => level.filter (·.1 != name :: above) ++ [(name :: above, node)])
      above.length t.levels⟩

/-- The tree without `l` and all that lies in it. -/
def cut (t : Tree) (l : Location) : Tree :=
  ⟨t.levels.map (·.filter fun e => !l.isSuffixOf e.1)⟩

/-- The names of what lies directly in `l`. -/
def names (t : Tree) (l : Location) : List String :=
  (t.level l.length).filterMap fun e =>
    match e.1 with
    | name :: above => if above = l then some name else none
    | [] => none

/-- All that lies below `l`, each at its location seen from there. -/
def below (t : Tree) (l : Location) : List (Location × Node) :=
  (t.levels.drop l.length).flatten.filterMap fun e =>
    if l.isSuffixOf e.1 then some (e.1.take (e.1.length - l.length), e.2) else none

@[simp]
theorem get?_root (t : Tree) : t.get? [] = some .directory := rfl

/-- Only the root is always there. -/
theorem ne_nil_of_get? {t : Tree} {l : Location} (other : t.get? l ≠ some .directory) : l ≠ [] := by
  rintro rfl
  exact other t.get?_root

@[simp]
theorem get?_put_self (t : Tree) {l : Location} (inside : l ≠ []) (node : Node) :
    (t.put l node).get? l = some node := by
  cases l with
  | nil => exact absurd rfl inside
  | cons name above =>
    have gone : ((t.level above.length).filter (·.1 != name :: above)).find?
        (·.1 == name :: above) = none := by
      simp [List.find?_eq_none]
    simp only [level, List.getD_eq_getElem?_getD] at gone
    simp [get?, put, level, List.find?_append, gone]

@[simp]
theorem get?_put_other (t : Tree) {l m : Location} (apart : l ≠ m) (node : Node) :
    (t.put l node).get? m = t.get? m := by
  cases l with
  | nil => rfl
  | cons name above =>
    cases m with
    | nil => rfl
    | cons other holder =>
      by_cases same : above.length = holder.length
      · have kept : ((t.level holder.length).filter (·.1 != name :: above)).find?
            (·.1 == other :: holder) = (t.level holder.length).find? (·.1 == other :: holder) := by
          rw [List.find?_filter]
          congr 1
          funext e
          by_cases he : e.1 = other :: holder
          · simp [he, Ne.symm apart]
          · simp [he]
        have differ : (name :: above == other :: holder) = false := by simpa using apart
        simp only [level, List.getD_eq_getElem?_getD] at kept
        simp [get?, put, level, same, List.find?_append, kept, differ]
      · simp [get?, put, level, same]

end Tree
end ScriptSandbox
