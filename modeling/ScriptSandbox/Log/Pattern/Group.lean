import ScriptSandbox.Log.Pattern.Modes
import ScriptSandbox.Text.Character

namespace ScriptSandbox.Pattern

inductive Opening where
  /-- A group in these modes, perhaps with a name. -/
  | group (modes : Modes) (name : Option (List Char))
  /-- Only a change of modes, with the other parenthesis. -/
  | setting (modes : Modes)
deriving Repr, DecidableEq

namespace Opening

def mayStartName (c : Char) : Bool := c == '_' || isAlphabetic c

def mayContinueName (c : Char) : Bool := ['_', '.', '[', ']'].contains c || isAlphanumeric c

def isName : List Char → Bool
  | [] => false
  | c :: rest => mayStartName c && rest.all mayContinueName

/-- A name without the bracket in front. -/
def named (m : Modes) (cs : List Char) : Option (Opening × List Char) :=
  let name := cs.takeWhile (· != '>')
  match cs.dropWhile (· != '>') with
  | _ :: rest => if isName name then some (.group m (some name), rest) else none
  | [] => none

def endsModes (c : Char) : Bool := c == ':' || c == ')'

/-- A change of modes. A group may have one that changes nothing. -/
def changed (m : Modes) (cs : List Char) : Option (Opening × List Char) := do
  let letters := cs.takeWhile (!endsModes ·)
  let m ← m.change? letters
  match cs.dropWhile (!endsModes ·) with
  | ':' :: rest => some (.group m none, rest)
  | _ :: rest => if letters.isEmpty then none else some (.setting m, rest)
  | [] => none

/-- What a parenthesis opens, from the character after it on. -/
def read (m : Modes) (cs : List Char) : Option (Opening × List Char) :=
  match m.skip cs with
  | '?' :: 'P' :: '<' :: rest => named m rest
  | '?' :: '<' :: rest => named m rest
  | '?' :: rest => changed m rest
  | rest => some (.group m none, rest)

theorem named_length {m : Modes} {cs rest : List Char} {o : Opening}
    (h : named m cs = some (o, rest)) : rest.length ≤ cs.length := by
  have short := (List.dropWhile_sublist (l := cs) (· != '>')).length_le
  unfold named at h
  simp only at h
  split at h
  · rename_i found
    simp only [Option.ite_none_right_eq_some, Option.some.injEq, Prod.mk.injEq] at h
    rw [found, List.length_cons] at short
    rw [← h.2.2]
    omega
  · simp at h

theorem changed_length {m : Modes} {cs rest : List Char} {o : Opening}
    (h : changed m cs = some (o, rest)) : rest.length ≤ cs.length := by
  have short := (List.dropWhile_sublist (l := cs) (!endsModes ·)).length_le
  simp only [changed, Option.bind_eq_bind, Option.bind_eq_some_iff] at h
  obtain ⟨_, _, h⟩ := h
  split at h
  · rename_i found
    simp only [Option.some.injEq, Prod.mk.injEq] at h
    rw [found, List.length_cons] at short
    rw [← h.2]
    omega
  · rename_i found
    rw [found, List.length_cons] at short
    split at h
    · simp at h
    · simp only [Option.some.injEq, Prod.mk.injEq] at h
      rw [← h.2]
      omega
  · simp at h

theorem read_length {m : Modes} {cs rest : List Char} {o : Opening}
    (h : read m cs = some (o, rest)) : rest.length ≤ cs.length := by
  have short := m.skip_length cs
  unfold read at h
  split at h
  · rename_i found
    have := named_length h
    simp only [found, List.length_cons] at short
    omega
  · rename_i found
    have := named_length h
    simp only [found, List.length_cons] at short
    omega
  · rename_i found
    have := changed_length h
    simp only [found, List.length_cons] at short
    omega
  · simp only [Option.some.injEq, Prod.mk.injEq] at h
    rw [← h.2]
    exact short

end Opening
end ScriptSandbox.Pattern
