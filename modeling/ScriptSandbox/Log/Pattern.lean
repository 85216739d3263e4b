import ScriptSandbox.Log.Pattern.Class
import ScriptSandbox.Log.Pattern.Group

namespace ScriptSandbox.Pattern

/-- No pattern is nested deeper. -/
def nestingLimit : Nat := 250

/-- What has been read of one way to match. -/
structure Branch where
  before : Extent := {}
  /-- How deep the last part is nested, if it may be repeated. -/
  last : Option Nat := none
deriving Repr, DecidableEq

namespace Branch

def extent (b : Branch) : Extent :=
  match b.last with
  | some depth => b.before.add depth
  | none => b.before

def add (b : Branch) (depth : Nat) : Branch := { before := b.extent, last := some depth }

/-- With a part that may not be repeated. -/
def addSetting (b : Branch) : Branch := { before := b.extent.add 0 }

/-- With the last part repeated. -/
def again? (b : Branch) : Option Branch :=
  b.last.map fun depth => { b with last := some (depth + 1) }

end Branch

/-- What has been read of a group, or of the whole pattern. -/
structure Scope where
  modes : Modes := {}
  /-- The branches that are complete. -/
  others : Extent := {}
  branch : Branch := {}
deriving Repr, DecidableEq

namespace Scope

def extent (s : Scope) : Extent := s.others.add s.branch.extent.nesting

def nesting (s : Scope) : Nat := s.extent.nesting

def add (s : Scope) (depth : Nat) : Scope := { s with branch := s.branch.add depth }

end Scope

/-- The groups that are open, the innermost first, and the names in use. -/
structure State where
  scope : Scope := {}
  above : List Scope := []
  names : List (List Char) := []
deriving Repr, DecidableEq

namespace State

def add (s : State) (depth : Nat) : State := { s with scope := s.scope.add depth }

/-- The state after an opening. A name may be given to one group only. -/
def enter? (s : State) : Opening → Option State
  | .setting modes =>
    some { s with scope := { s.scope with modes, branch := s.scope.branch.addSetting } }
  | .group modes name =>
    if name.any s.names.contains then none
    else
      some { scope := { modes }, above := s.scope :: s.above, names := name.toList ++ s.names }

/-- The state after a parenthesis that closes a group. The modes are those from before it. -/
def leave? (s : State) : Option State :=
  match s.above with
  | [] => none
  | outer :: others => some { s with scope := outer.add (s.scope.nesting + 1), above := others }

/-- A question mark right after the sign of a repetition belongs to it. -/
def afterRepetition : List Char → List Char
  | '?' :: rest => rest
  | rest => rest

/-- The state with the last part repeated, if there is one that may be. -/
def again? (s : State) : Option State :=
  s.scope.branch.again?.map fun branch => { s with scope := { s.scope with branch } }

/-- The state at the start of another branch. -/
def turn (s : State) : State :=
  { s with scope := { s.scope with others := s.scope.extent, branch := {} } }

/-- The state after an item, if it may stand there. -/
def addItem? (s : State) (i : Item) : Option State :=
  if i.isUsable s.scope.modes then some (s.add 0) else none

/-- The state after the next part, and the rest. -/
def step (s : State) : List Char → Option (State × List Char)
  | [] => none
  | c :: rest =>
    let m := s.scope.modes
    match c with
    | '(' => do
      let (opening, rest) ← Opening.read m rest
      return (← s.enter? opening, rest)
    | ')' => s.leave?.map (·, rest)
    | '|' => some (s.turn, rest)
    | '[' => (Class.read m rest).map fun (depth, rest) => (s.add depth, rest)
    | '*' | '+' | '?' => s.again?.map (·, afterRepetition rest)
    | '\x7b' => none
    | '\\' => do
      let (i, rest) ← Item.escaped m rest
      return (← s.addItem? i, rest)
    | '.' => (s.addItem? .any).map (·, rest)
    | '^' | '$' => (s.addItem? .edge).map (·, rest)
    | c => (s.addItem? (.char c false)).map (·, rest)

/-- Whether the pattern may end here. -/
def isComplete (s : State) : Bool := s.above.isEmpty && s.scope.nesting ≤ nestingLimit

theorem afterRepetition_length (cs : List Char) : (afterRepetition cs).length ≤ cs.length := by
  unfold afterRepetition
  split
  · simp
  · exact Nat.le_refl _

theorem step_length {s next : State} {cs rest : List Char} (h : s.step cs = some (next, rest)) :
    rest.length < cs.length := by
  unfold step at h
  split at h
  · simp at h
  · rename_i c tail
    rw [List.length_cons]
    simp only at h
    split at h
    · simp only [Option.bind_eq_bind, Option.bind_eq_some_iff, Option.pure_def,
        Option.some.injEq, Prod.mk.injEq] at h
      obtain ⟨⟨_, after⟩, found, _, _, _, rfl⟩ := h
      have : after.length ≤ tail.length := Opening.read_length found
      exact Nat.lt_succ_of_le this
    · simp only [Option.map_eq_some_iff, Prod.mk.injEq] at h
      obtain ⟨_, _, _, rfl⟩ := h
      exact Nat.lt_succ_self _
    · simp only [Option.some.injEq, Prod.mk.injEq] at h
      rw [← h.2]
      exact Nat.lt_succ_self _
    · simp only [Option.map_eq_some_iff, Prod.mk.injEq] at h
      obtain ⟨⟨_, after⟩, found, _, rfl⟩ := h
      have : after.length < tail.length := Class.read_length found
      exact Nat.lt_succ_of_lt this
    all_goals first
      | (simp only [Option.map_eq_some_iff, Prod.mk.injEq] at h
         obtain ⟨_, _, _, rfl⟩ := h
         first
           | exact Nat.lt_succ_self _
           | exact Nat.lt_succ_of_le (afterRepetition_length tail))
      | (simp only [Option.bind_eq_bind, Option.bind_eq_some_iff, Option.pure_def,
           Option.some.injEq, Prod.mk.injEq] at h
         obtain ⟨⟨_, after⟩, found, _, _, _, rfl⟩ := h
         have : after.length < tail.length := Item.escaped_length found
         exact Nat.lt_succ_of_lt this)
      | simp at h

end State

/-- Whether the pattern goes on and ends as it must. -/
def accepts (s : State) (cs : List Char) : Bool :=
  match h : s.step (s.scope.modes.skip cs) with
  | some (next, rest) =>
    have := s.scope.modes.skip_length cs
    have := State.step_length h
    accepts next rest
  | none => (s.scope.modes.skip cs).isEmpty && s.isComplete
termination_by cs.length

end ScriptSandbox.Pattern

namespace ScriptSandbox

/-- Whether a text is a regular expression. A closing brace ends the pattern in its directive, so
nothing that needs one is a part here: no counted repetition, and no character by its name or by a
number in braces. -/
def isPattern (text : List Char) : Bool := Pattern.accepts {} text

end ScriptSandbox
