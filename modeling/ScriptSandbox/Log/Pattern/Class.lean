import ScriptSandbox.Log.Pattern.Item

namespace ScriptSandbox.Pattern.Class

/-- The classes that have names. -/
def names : List String :=
  ["alnum", "alpha", "ascii", "blank", "cntrl", "digit", "graph", "lower", "print", "punct",
   "space", "upper", "word", "xdigit"]

/-- The rest after the name of a class, a colon and a bracket. -/
def afterName? (cs : List Char) : Option (List Char) :=
  match cs.dropWhile (· != ':') with
  | ':' :: ']' :: rest =>
    if names.contains (String.ofList (cs.takeWhile (· != ':'))) then some rest else none
  | _ => none

/-- After a bracket, a colon and the name of a class, and whether a caret between them turns it
around. -/
def named? : List Char → Option (Bool × List Char)
  | ':' :: '^' :: rest => (afterName? rest).map (true, ·)
  | ':' :: rest => (afterName? rest).map (false, ·)
  | _ => none

/-- Whether a class with a name may stand in another one. -/
def fitsClass (m : Modes) (negated : Bool) : Bool := if m.wide then !m.caseless else !negated

/-- What has been read of a class that is still open. -/
structure Level where
  /-- How deep the left side of the last operator is nested, if there is one. -/
  left : Option Nat := none
  parts : Extent := {}
deriving Repr, DecidableEq

namespace Level

def add (l : Level) (depth : Nat) : Level := { l with parts := l.parts.add depth }

def nesting (l : Level) : Nat :=
  match l.left with
  | some left => max left l.parts.nesting + 1
  | none => l.parts.nesting

/-- The level after an operator, to which all before it is the left side. -/
def operate (l : Level) : Level := { left := some l.nesting }

end Level

/-- The dashes in front of the other parts stand for themselves. -/
def dashes (m : Modes) (e : Extent) (cs : List Char) : Extent × List Char :=
  match cs with
  | '-' :: rest =>
    have := m.skip_length rest
    dashes m (e.add 0) (m.skip rest)
  | _ => (e, cs)
termination_by cs.length

/-- A class after its first bracket. Dashes at the start stand for themselves, and without any so
does the other bracket. -/
def openFrom (m : Modes) (cs : List Char) : Option (Level × List Char) :=
  let (parts, rest) := dashes m {} cs
  let (parts, rest) := match rest with
    | ']' :: after => if parts.count = 0 then (parts.add 0, after) else (parts, rest)
    | _ => (parts, rest)
  if parts.count = 0 || (Item.char '-' false).fitsClass m then some ({ parts }, rest) else none

/-- A class whose first bracket is gone. What a caret turns around has parts of characters in it if
it is a class of octets. -/
def opened (m : Modes) (cs : List Char) : Option (Level × List Char) :=
  match m.skip cs with
  | '^' :: rest => if m.wide then openFrom m (m.skip rest) else none
  | rest => openFrom m rest

/-- The items from which a range reaches to which. -/
def isRange : Item → Item → Bool
  | .char first _, .char last _ => first ≤ last
  | _, _ => false

/-- The rest after an item or a range. A dash that the end of the class or another dash follows
makes no range. -/
def part (m : Modes) (cs : List Char) : Option (List Char) := do
  let (first, rest) ← Item.plain m cs
  if !first.fitsClass m then none
  else
    match m.skip rest with
    | '-' :: after =>
      if [some ']', some '-'].contains (m.peek after) then some ('-' :: after)
      else
        let (last, rest) ← Item.plain m (m.skip after)
        if last.fitsClass m && isRange first last then some rest else none
    | rest => some rest

/-- The levels that are open, the innermost first. -/
structure State where
  level : Level
  above : List Level := []
deriving Repr, DecidableEq

namespace State

def add (s : State) (depth : Nat) : State := { s with level := s.level.add depth }

/-- What the next part leads to, and the rest: another state, or after the last bracket how deep
the class is nested. -/
def step (m : Modes) (s : State) : List Char → Option ((Nat ⊕ State) × List Char)
  | [] => none
  | '[' :: rest =>
    match named? rest with
    | some (negated, after) =>
      if fitsClass m negated then some (.inr (s.add 0), after) else none
    | none => (opened m rest).map fun (inner, after) => (.inr ⟨inner, s.level :: s.above⟩, after)
  | ']' :: rest =>
    let depth := s.level.nesting + 1
    match s.above with
    | [] => some (.inl depth, rest)
    | outer :: others => some (.inr ⟨outer.add depth, others⟩, rest)
  | '&' :: '&' :: rest => some (.inr { s with level := s.level.operate }, rest)
  | '-' :: '-' :: rest => some (.inr { s with level := s.level.operate }, rest)
  | '~' :: '~' :: rest => some (.inr { s with level := s.level.operate }, rest)
  | cs => (part m cs).map (.inr (s.add 0), ·)

end State

theorem afterName?_length {cs rest : List Char} (h : afterName? cs = some rest) :
    rest.length ≤ cs.length := by
  have short := (List.dropWhile_sublist (l := cs) (· != ':')).length_le
  unfold afterName? at h
  split at h
  · rename_i found
    rw [found] at short
    simp only [List.length_cons] at short
    split at h
    · simp only [Option.some.injEq] at h
      rw [← h]
      omega
    · simp at h
  · simp at h

theorem named?_length {cs rest : List Char} {negated : Bool}
    (h : named? cs = some (negated, rest)) : rest.length ≤ cs.length := by
  unfold named? at h
  split at h
  · simp only [Option.map_eq_some_iff, Prod.mk.injEq] at h
    obtain ⟨_, found, _, rfl⟩ := h
    have := afterName?_length found
    simp only [List.length_cons]
    omega
  · simp only [Option.map_eq_some_iff, Prod.mk.injEq] at h
    obtain ⟨_, found, _, rfl⟩ := h
    have := afterName?_length found
    simp only [List.length_cons]
    omega
  · simp at h

theorem dashes_length (m : Modes) (e : Extent) (cs : List Char) :
    (dashes m e cs).2.length ≤ cs.length := by
  fun_induction dashes m e cs with
  | case1 e rest _ ih =>
    have := m.skip_length rest
    simp only [List.length_cons]
    omega
  | case2 e cs _ => exact Nat.le_refl _

theorem openFrom_length {m : Modes} {cs rest : List Char} {l : Level}
    (h : openFrom m cs = some (l, rest)) : rest.length ≤ cs.length := by
  have short := dashes_length m {} cs
  revert h short
  unfold openFrom
  generalize dashes m {} cs = d
  obtain ⟨e, after⟩ := d
  intro h short
  simp only at h short
  split at h
  · split at h
    · simp only [Option.ite_none_right_eq_some, Option.some.injEq, Prod.mk.injEq] at h
      simp only [List.length_cons] at short
      rw [← h.2.2]
      omega
    · simp only [Option.ite_none_right_eq_some, Option.some.injEq, Prod.mk.injEq] at h
      rw [← h.2.2]
      exact short
  · simp only [Option.ite_none_right_eq_some, Option.some.injEq, Prod.mk.injEq] at h
    rw [← h.2.2]
    exact short

theorem opened_length {m : Modes} {cs rest : List Char} {l : Level}
    (h : opened m cs = some (l, rest)) : rest.length ≤ cs.length := by
  have short := m.skip_length cs
  unfold opened at h
  split at h
  · rename_i after found
    rw [found, List.length_cons] at short
    split at h
    · have := openFrom_length h
      have := m.skip_length after
      omega
    · simp at h
  · have := openFrom_length h
    omega

theorem part_length {m : Modes} {cs rest : List Char} (h : part m cs = some rest) :
    rest.length < cs.length := by
  simp only [part, Option.bind_eq_bind, Option.bind_eq_some_iff] at h
  obtain ⟨⟨first, tail⟩, hp, h⟩ := h
  have first_short := Item.plain_length hp
  have short := m.skip_length tail
  simp only at h
  split at h
  · simp at h
  · split at h
    · rename_i after found
      rw [found] at short
      split at h
      · simp only [Option.some.injEq] at h
        rw [← h]
        omega
      · simp only [Option.bind_eq_some_iff] at h
        obtain ⟨⟨last, more⟩, hp, h⟩ := h
        have := Item.plain_length hp
        have := m.skip_length after
        simp only [List.length_cons] at short
        split at h
        · simp only [Option.some.injEq] at h
          rw [← h]
          omega
        · simp at h
    · simp only [Option.some.injEq] at h
      rw [← h]
      omega

theorem State.step_length {m : Modes} {s : State} {cs rest : List Char} {next : Nat ⊕ State}
    (h : s.step m cs = some (next, rest)) : rest.length < cs.length := by
  unfold State.step at h
  split at h
  · simp at h
  · split at h
    · rename_i found
      have := named?_length found
      split at h
      · simp only [Option.some.injEq, Prod.mk.injEq] at h
        rw [← h.2, List.length_cons]
        omega
      · simp at h
    · simp only [Option.map_eq_some_iff, Prod.mk.injEq] at h
      obtain ⟨⟨inner, after⟩, found, _, rfl⟩ := h
      have := opened_length found
      simp only [List.length_cons]
      omega
  · simp only at h
    split at h <;>
    · simp only [Option.some.injEq, Prod.mk.injEq] at h
      simp [← h.2]
  all_goals try
    simp only [Option.some.injEq, Prod.mk.injEq] at h
    rw [← h.2]
    simp only [List.length_cons]
    omega
  simp only [Option.map_eq_some_iff, Prod.mk.injEq] at h
  obtain ⟨after, found, _, rfl⟩ := h
  exact part_length found

/-- How deep the class is nested, and the rest after it. -/
def readFrom (m : Modes) (s : State) (cs : List Char) : Option (Nat × List Char) :=
  match h : s.step m (m.skip cs) with
  | none => none
  | some (.inl depth, rest) => some (depth, rest)
  | some (.inr s, rest) =>
    have := m.skip_length cs
    have := State.step_length h
    readFrom m s rest
termination_by cs.length

/-- A class after its first bracket. -/
def read (m : Modes) (cs : List Char) : Option (Nat × List Char) := do
  let (level, rest) ← opened m cs
  readFrom m { level } rest

theorem readFrom_length {m : Modes} {s : State} {cs rest : List Char} {depth : Nat}
    (h : readFrom m s cs = some (depth, rest)) : rest.length < cs.length := by
  fun_induction readFrom m s cs with
  | case1 => simp at h
  | case2 s cs d after found =>
    have := m.skip_length cs
    have := State.step_length found
    simp only [Option.some.injEq, Prod.mk.injEq] at h
    rw [← h.2]
    omega
  | case3 s cs t after found _ _ ih =>
    have := m.skip_length cs
    have := State.step_length found
    have := ih h
    omega

theorem read_length {m : Modes} {cs rest : List Char} {depth : Nat}
    (h : read m cs = some (depth, rest)) : rest.length < cs.length := by
  simp only [read, Option.bind_eq_bind, Option.bind_eq_some_iff] at h
  obtain ⟨⟨level, after⟩, found, h⟩ := h
  have := opened_length found
  have : rest.length < after.length := readFrom_length h
  omega

end ScriptSandbox.Pattern.Class
