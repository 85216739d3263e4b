import ScriptSandbox.Proofs.Grammar
import ScriptSandbox.Proofs.RoundTrip

namespace ScriptSandbox.Proofs.Acceptance
open CommandLine Level Grammar
open RoundTrip (bind_eq_ok)

/-- Records one mark after the other. -/
def recordAll (scope : Scope) (given : List Given) (marks : List Mark) :
    Except Refusal (List Given) :=
  marks.foldlM (fun given m => record scope .arguments m.1 m.2 given) given

/-- All that is given on a level, of which some has been recorded before. -/
def givenBy (lookup : String → Option String) (scope : Scope) (start : List Given)
    (marks : List Mark) : Except Refusal (List Given) := do
  addVariables scope lookup scope.options (← recordAll scope start marks)

/-- What is given on each level, and the command that ends on the last one. -/
inductive Filled (lookup : String → Option String) :
    List Given → List (Scope × List Mark) → Command → List (List Given) → Prop
  | last {scope : Scope} {start given : List Given} {marks : List Mark} {command : Command}
      (filled : givenBy lookup scope start marks = .ok given)
      (ends : commandOf given scope = .ok command) :
      Filled lookup start [(scope, marks)] command [given]
  | more {scope : Scope} {start given : List Given} {marks : List Mark} {command : Command}
      {levels : List (Scope × List Mark)} {deeper : List (List Given)}
      (filled : givenBy lookup scope start marks = .ok given)
      (others : Filled lookup [] levels command deeper) :
      Filled lookup start ((scope, marks) :: levels) command (given :: deeper)

section
variable {scope : Scope} {l l' : CommandLine.Level} {arg : String}

@[simp]
theorem recordAll_append (start : List Given) (marks marks' : List Mark) :
    recordAll scope start (marks ++ marks') =
      recordAll scope start marks >>= (recordAll scope · marks') := List.foldlM_append

/-- What is pending on a level has been recorded, and the marks after it; what is pending then is
something else. -/
def Becomes (scope : Scope) (l : CommandLine.Level) (marks : List Mark) (pending : Option Mark)
    (l' : CommandLine.Level) : Prop :=
  ∃ given, recordAll scope l.given (l.pending.toList ++ marks) = .ok given ∧
    l' = { l with given := given, pending := pending }

theorem becomes_append {marks marks' : List Mark} {pending : Option Mark} :
    Becomes scope l (marks ++ marks') pending l' ↔
      ∃ between, Becomes scope l marks none between ∧ Becomes scope between marks' pending l' := by
  simp only [Becomes, ← List.append_assoc, recordAll_append _ (_ ++ _), bind_eq_ok]
  constructor
  · rintro ⟨given', ⟨given, first, second⟩, rfl⟩
    exact ⟨_, ⟨given, first, rfl⟩, given', second, rfl⟩
  · rintro ⟨_, ⟨given, first, rfl⟩, given', second, rfl⟩
    exact ⟨given', ⟨given, first, second⟩, rfl⟩

@[simp]
theorem recordAll_singleton (start : List Given) (m : Mark) :
    recordAll scope start [m] = record scope .arguments m.1 m.2 start := by
  rw [recordAll, List.foldlM_cons]
  exact bind_pure _

@[simp]
theorem settle_eq_ok : l.settle scope = .ok l' ↔ Becomes scope l [] none l' := by
  obtain ⟨given, pending, trailing, words⟩ := l
  unfold Level.settle Becomes
  rw [List.append_nil]
  cases pending with
  | none =>
    constructor
    · exact fun same => ⟨given, rfl, (Except.ok.inj same).symm⟩
    · rintro ⟨given', same, rfl⟩
      obtain rfl := Except.ok.inj same
      rfl
  | some mark =>
    simp only [Option.toList_some, recordAll_singleton, bind_eq_ok]
    constructor
    · rintro ⟨given', recorded, same⟩
      exact ⟨given', recorded, (Except.ok.inj same).symm⟩
    · rintro ⟨given', recorded, rfl⟩
      exact ⟨given', recorded, rfl⟩

@[simp]
theorem add_eq_ok {item : Item} {values : List String} :
    l.add scope item values = .ok l' ↔ Becomes scope l [(item, values)] none l' := by
  rw [← List.nil_append [(item, values)], becomes_append]
  unfold add
  simp only [bind_eq_ok, settle_eq_ok]
  constructor
  · rintro ⟨between, settled, given, recorded, same⟩
    refine ⟨between, settled, given, ?_, ?_⟩
    · obtain ⟨_, -, rfl⟩ := settled
      exact (recordAll_singleton _ _).trans recorded
    · obtain ⟨_, -, rfl⟩ := settled
      exact (Except.ok.inj same).symm
  · rintro ⟨between, settled, given, recorded, rfl⟩
    refine ⟨between, settled, given, ?_, ?_⟩
    · obtain ⟨_, -, rfl⟩ := settled
      exact (recordAll_singleton _ _).symm.trans recorded
    · obtain ⟨_, -, rfl⟩ := settled
      rfl

@[simp]
theorem start_eq_ok {item : Item} {values : List String} :
    l.start scope item values = .ok l' ↔ Becomes scope l [] (some (item, values)) l' := by
  unfold start
  simp only [bind_eq_ok, settle_eq_ok]
  constructor
  · rintro ⟨_, ⟨given, settled, rfl⟩, same⟩
    exact ⟨given, settled, (Except.ok.inj same).symm⟩
  · rintro ⟨given, settled, rfl⟩
    exact ⟨_, ⟨given, settled, rfl⟩, rfl⟩

/-- An option has been read on the level. -/
def Said (scope : Scope) (l : CommandLine.Level) (said : Option (List Mark × Option Item))
    (l' : CommandLine.Level) : Prop :=
  ∃ marks awaited, said = some (marks, awaited) ∧
    Becomes scope l marks (awaited.map (·, [])) l'

@[simp]
theorem said_some {marks : List Mark} {awaited : Option Item} :
    Said scope l (some (marks, awaited)) l' ↔
      Becomes scope l marks (awaited.map (·, [])) l' := by
  constructor
  · rintro ⟨_, _, same, becomes⟩
    cases same
    exact becomes
  · exact fun becomes => ⟨marks, awaited, rfl, becomes⟩

@[simp]
theorem not_said_none : ¬ Said scope l none l' := by
  rintro ⟨_, _, none_said, -⟩
  cases none_said

theorem takeNamed_eq_ok {cs : List Char} :
    l.takeNamed scope cs = .ok l' ↔ Said scope l (namedTells scope cs) l' := by
  unfold takeNamed namedTells
  generalize cutAtEquals cs = cut
  obtain ⟨name, attached⟩ := cut
  dsimp only
  cases scope.named? name with
  | none => simp
  | some item =>
    dsimp only
    cases item.kind.takesValue with
    | true =>
      cases attached with
      | some value => simp
      | none => simp
    | false =>
      cases attached with
      | some value => simp
      | none => simp

/-- The flag has been read, and then the other letters. -/
theorem said_flag {item : Item} {said : Option (List Mark × Option Item)} :
    Said scope l (said.map fun said => ((item, []) :: said.1, said.2)) l' ↔
      ∃ between, l.add scope item [] = .ok between ∧ Said scope between said l' := by
  cases said with
  | none =>
    apply iff_of_false not_said_none
    rintro ⟨_, -, none_said⟩
    exact not_said_none none_said
  | some said =>
    obtain ⟨marks, awaited⟩ := said
    simp only [Option.map_some, said_some, add_eq_ok]
    rw [← List.singleton_append]
    exact becomes_append

section
variable {c d : Char} {cs : List Char} {item : Item}
  (lettered : scope.lettered? c = some item) (takes : item.kind.takesValue = true)
  (other : d ≠ '=')

include lettered takes other

/-- Behind its letter an option may have its value. -/
theorem takeLetters_attached : l.takeLetters scope (c :: d :: cs) =
    l.add scope item [String.ofList (d :: cs)] := by
  rw [takeLetters, lettered]
  dsimp only
  rw [if_pos takes]
  split
  · contradiction
  · rename_i same
    exact absurd (List.cons.inj same).1 other
  · rfl

theorem letterTells_attached : letterTells scope (c :: d :: cs) =
    some ([(item, [String.ofList (d :: cs)])], none) := by
  rw [letterTells, lettered]
  dsimp only
  rw [if_pos takes]
  split
  · contradiction
  · rename_i same
    exact absurd (List.cons.inj same).1 other
  · rfl

end

theorem takeLetters_eq_ok {c : Char} {cs : List Char} :
    l.takeLetters scope (c :: cs) = .ok l' ↔ Said scope l (letterTells scope (c :: cs)) l' := by
  induction cs generalizing c l with
  | nil =>
    rw [takeLetters.eq_def, letterTells.eq_def]
    dsimp only
    cases scope.lettered? c with
    | none => simp
    | some item =>
      dsimp only
      split
      · simp
      · have only : (do takeLetters scope (← l.add scope item []) []) = l.add scope item [] := by
          simp only [takeLetters]
          exact bind_pure _
        rw [only]
        simp [letterTells]
  | cons d cs ih =>
    cases lettered : scope.lettered? c with
    | none =>
      rw [takeLetters, letterTells, lettered]
      simp
    | some item =>
      by_cases takes : item.kind.takesValue = true
      · by_cases equals : d = '='
        · rw [takeLetters, letterTells, lettered]
          dsimp only
          rw [if_pos takes, if_pos takes, equals]
          simp
        · rw [takeLetters_attached lettered takes equals,
            letterTells_attached lettered takes equals]
          simp
      · rw [takeLetters, letterTells, lettered]
        dsimp only
        rw [if_neg takes, if_neg takes, said_flag]
        simp only [bind_eq_ok, ih]

theorem take_letters {c : Char} {cs : List Char} (open_still : l.trailing = false)
    (text : arg.toList = '-' :: c :: cs) (letter : c ≠ '-') :
    l.take scope arg = l.takeLetters scope (c :: cs) := by
  unfold take
  rw [open_still, text, if_neg Bool.false_ne_true]
  split
  · rename_i same
    exact absurd (List.cons.inj (List.cons.inj same).2).1 letter
  · rename_i same
    exact absurd (List.cons.inj (List.cons.inj same).2).1 letter
  · rename_i same
    rw [(List.cons.inj same).2]
  · rename_i other
    exact absurd rfl (other c cs)

/-- An option is read if it says something, and what was pending is recorded then. -/
theorem take_option_eq_ok (open_still : l.trailing = false) (option : ¬ IsWord arg)
    (other : arg ≠ "--") : l.take scope arg = .ok l' ↔ Said scope l (tells scope arg) l' := by
  obtain ⟨c, cs, text⟩ := exists_of_not_isWord option
  by_cases dash : c = '-'
  · subst dash
    cases cs with
    | nil => exact absurd (String.toList_inj.mp text) other
    | cons d cs =>
      unfold take tells
      rw [open_still, text]
      exact takeNamed_eq_ok
  · rw [tells_letters text dash, take_letters open_still text dash]
    exact takeLetters_eq_ok

theorem take_dashes (open_still : l.trailing = false) :
    l.take scope "--" = .ok { l with trailing := true } := by
  unfold take
  rw [open_still]
  rfl

theorem take_word (open_still : l.trailing = false) (word : IsWord arg) :
    l.take scope arg =
      match l.awaited? with
      | some item => .ok { l with pending := some (item, [arg]) }
      | none => l.takeWord scope arg := by
  unfold take
  rw [open_still, if_neg Bool.false_ne_true]
  split
  · rename_i same
    exact absurd same (word _ _)
  · rename_i same
    exact absurd same (word _ _)
  · rename_i same
    exact absurd same (word _ _)
  · rfl

/-- Here an option may stand: nothing is awaited, and no two lone dashes have been read. -/
structure AtPlace (l : CommandLine.Level) : Prop where
  open_still : l.trailing = false
  complete : ∀ item values, l.pending = some (item, values) → values ≠ [] ∧ item ≠ .args

theorem AtPlace.awaited (place : AtPlace l) : l.awaited? = none := by
  unfold awaited?
  split
  · rename_i item pending
    exact absurd rfl (place.complete item [] pending).1
  · rfl

theorem AtPlace.start : AtPlace {} := ⟨rfl, nofun⟩

theorem AtPlace.entered (place : AtPlace l) : entered? scope l arg = scope.inside? arg := by
  unfold entered?
  rw [place.open_still, place.awaited]
  rfl

theorem filled_last {lookup : String → Option String} {start : List Given} {marks : List Mark}
    {command : Command} {givens : List (List Given)} :
    Filled lookup start [(scope, marks)] command givens ↔ ∃ given,
      givenBy lookup scope start marks = .ok given ∧ commandOf given scope = .ok command ∧
        givens = [given] := by
  constructor
  · intro filled
    cases filled with
    | last filled ends => exact ⟨_, filled, ends, rfl⟩
    | more filled others => cases others
  · rintro ⟨given, filled, ends, rfl⟩
    exact .last filled ends

theorem filled_more {lookup : String → Option String} {start : List Given} {marks : List Mark}
    {next : Scope × List Mark} {levels : List (Scope × List Mark)} {command : Command}
    {givens : List (List Given)} :
    Filled lookup start ((scope, marks) :: next :: levels) command givens ↔ ∃ given deeper,
      givenBy lookup scope start marks = .ok given ∧
        Filled lookup [] (next :: levels) command deeper ∧ givens = given :: deeper := by
  constructor
  · intro filled
    cases filled with
    | more filled others => exact ⟨_, _, filled, others, rfl⟩
  · rintro ⟨given, deeper, filled, others, rfl⟩
    exact .more filled others

section
variable {lookup : String → Option String} {args : List String} {command : Command}
  {givens : List (List Given)}

theorem finish_eq_ok {given : List Given} : l.finish scope lookup = .ok given ↔
    givenBy lookup scope l.given l.pending.toList = .ok given := by
  unfold finish givenBy
  simp only [bind_eq_ok, settle_eq_ok, Becomes, List.append_nil]
  constructor
  · rintro ⟨_, ⟨said, recorded, rfl⟩, completed⟩
    exact ⟨said, recorded, completed⟩
  · rintro ⟨said, recorded, completed⟩
    exact ⟨_, ⟨said, recorded, rfl⟩, completed⟩

@[simp]
theorem levels_nil : levels lookup scope l [] = .ok (command, givens) ↔
    Filled lookup l.given [(scope, l.pending.toList)] command givens := by
  rw [filled_last, levels]
  simp only [bind_eq_ok, finish_eq_ok]
  constructor
  · rintro ⟨given, filled, _, ends, same⟩
    cases same
    exact ⟨given, filled, ends, rfl⟩
  · rintro ⟨given, filled, ends, rfl⟩
    exact ⟨given, filled, _, ends, rfl⟩

/-- What has been recorded on the way to a level makes no difference to what is given on it. -/
theorem Becomes.givenBy {marks marks' : List Mark} {pending : Option Mark}
    (becomes : Becomes scope l marks pending l') :
    givenBy lookup scope l'.given marks' =
      givenBy lookup scope l.given (l.pending.toList ++ (marks ++ marks')) := by
  obtain ⟨given, recorded, rfl⟩ := becomes
  rw [← List.append_assoc, Acceptance.givenBy, Acceptance.givenBy, recordAll_append _ (_ ++ marks),
    recorded]
  rfl

theorem Becomes.filled {marks marks' : List Mark} {pending : Option Mark}
    {levels : List (Scope × List Mark)} (becomes : Becomes scope l marks pending l') :
    Filled lookup l'.given ((scope, marks') :: levels) command givens ↔
      Filled lookup l.given ((scope, l.pending.toList ++ (marks ++ marks')) :: levels)
        command givens := by
  cases levels with
  | nil => rw [filled_last, filled_last, becomes.givenBy]
  | cons next levels => rw [filled_more, filled_more, becomes.givenBy]

theorem Becomes.pending_eq {marks : List Mark} {pending : Option Mark}
    (becomes : Becomes scope l marks pending l') : l'.pending = pending := by
  obtain ⟨_, -, rfl⟩ := becomes
  rfl

theorem Becomes.trailing_eq {marks : List Mark} {pending : Option Mark}
    (becomes : Becomes scope l marks pending l') : l'.trailing = l.trailing := by
  obtain ⟨_, -, rfl⟩ := becomes
  rfl

theorem Becomes.words_eq {marks : List Mark} {pending : Option Mark}
    (becomes : Becomes scope l marks pending l') : l'.words = l.words := by
  obtain ⟨_, -, rfl⟩ := becomes
  rfl

/-- What is recorded later is recorded after what comes before it. -/
theorem exists_becomes {marks marks' : List Mark} {levels : List (Scope × List Mark)}
    (filled : Filled lookup l.given ((scope, l.pending.toList ++ (marks ++ marks')) :: levels)
      command givens) (pending : Option Mark) : ∃ l', Becomes scope l marks pending l' := by
  have first : ∃ given, Acceptance.givenBy lookup scope l.given
      (l.pending.toList ++ (marks ++ marks')) = .ok given := by
    cases filled with
    | last filled ends => exact ⟨_, filled⟩
    | more filled others => exact ⟨_, filled⟩
  obtain ⟨given, filled⟩ := first
  rw [← List.append_assoc, Acceptance.givenBy, recordAll_append] at filled
  obtain ⟨said, recorded, -⟩ := bind_eq_ok.mp filled
  obtain ⟨before, recorded, -⟩ := bind_eq_ok.mp recorded
  exact ⟨_, before, recorded, rfl⟩

/-- What is pending can be recorded, whatever comes after it. -/
theorem exists_records {marks : List Mark} {levels : List (Scope × List Mark)}
    (filled : Filled lookup l.given ((scope, l.pending.toList ++ marks) :: levels) command givens)
    (pending : Option Mark) : ∃ l', Becomes scope l [] pending l' := by
  rw [← List.nil_append marks] at filled
  exact exists_becomes filled pending

theorem levels_cons (stays : entered? scope l arg = none) :
    levels lookup scope l (arg :: args) = .ok (command, givens) ↔
      ∃ l', l.take scope arg = .ok l' ∧
        levels lookup scope l' args = .ok (command, givens) := by
  rw [levels, stays]
  exact bind_eq_ok

theorem entered?_of_trailing (trailing : l.trailing = true) : entered? scope l arg = none := by
  unfold entered?
  rw [trailing]
  rfl

/-- The words after two lone dashes are the values of one item. -/
theorem levels_collecting {item : Item} {values : List String} (trailing : l.trailing = true)
    (known : scope.trailing? = some item) (pending : l.pending = some (item, values)) :
    levels lookup scope l args = .ok (command, givens) ↔
      Filled lookup l.given [(scope, [(item, values ++ args)])] command givens := by
  induction args generalizing l values with
  | nil => rw [levels_nil, pending, List.append_nil, Option.toList_some]
  | cons word words ih =>
    have taken : l.take scope word = .ok { l with pending := some (item, values ++ [word]) } := by
      unfold take takeTrailing
      rw [trailing, known, pending]
      simp
    rw [levels_cons (entered?_of_trailing trailing), taken]
    simp only [Except.ok.injEq, exists_eq_left']
    rw [ih (l := { l with pending := some (item, values ++ [word]) }) trailing rfl,
      List.append_assoc]
    rfl

theorem levels_trailing {word : String} (trailing : l.trailing = true)
    (fresh : ∀ values, l.pending ≠ some (.args, values)) :
    levels lookup scope l (word :: args) = .ok (command, givens) ↔
      ∃ item, scope.trailing? = some item ∧
        Filled lookup l.given [(scope, l.pending.toList ++ [(item, word :: args)])]
          command givens := by
  rw [levels_cons (entered?_of_trailing trailing)]
  cases known : scope.trailing? with
  | none =>
    have refused : ¬ ∃ l', l.take scope word = .ok l' ∧
        levels lookup scope l' args = .ok (command, givens) := by
      rintro ⟨l', taken, -⟩
      unfold take takeTrailing at taken
      rw [trailing, known] at taken
      cases taken
    simpa using refused
  | some item =>
    have taken : l.take scope word = l.start scope item [word] := by
      unfold take takeTrailing
      rw [trailing, known, if_pos rfl]
      dsimp only
      split
      · rename_i other values pending
        rw [if_neg]
        rintro rfl
        rw [args_of_trailing known] at pending
        exact fresh values pending
      · rfl
    rw [taken]
    simp only [start_eq_ok, Option.some.injEq, exists_eq_left']
    constructor
    · rintro ⟨l', becomes, rest⟩
      rw [levels_collecting (becomes.trailing_eq.trans trailing) known becomes.pending_eq,
        becomes.filled] at rest
      exact rest
    · intro filled
      obtain ⟨l', becomes⟩ := exists_records filled (some (item, [word]))
      refine ⟨l', becomes, ?_⟩
      rw [levels_collecting (becomes.trailing_eq.trans trailing) known becomes.pending_eq,
        becomes.filled]
      exact filled

theorem AtPlace.of_becomes {marks : List Mark} (place : AtPlace l)
    (becomes : Becomes scope l marks none l') : AtPlace l' := by
  refine ⟨becomes.trailing_eq.trans place.open_still, ?_⟩
  intro item values pending
  cases becomes.pending_eq.symm.trans pending

theorem takeWord_eq_ok {word : String} : l.takeWord scope word = .ok l' ↔ ∃ item between,
    scope.place? l.words = some item ∧ Becomes scope l [] (some (item, [word])) between ∧
      l' = { between with words := l.words + 1 } := by
  unfold takeWord
  cases scope.place? l.words with
  | none => exact iff_of_false nofun (by simp)
  | some item =>
    simp only [bind_eq_ok, start_eq_ok, Option.some.injEq]
    constructor
    · rintro ⟨between, becomes, same⟩
      rw [becomes.words_eq] at same
      exact ⟨item, between, rfl, becomes, (Except.ok.inj same).symm⟩
    · rintro ⟨_, between, rfl, becomes, rfl⟩
      refine ⟨between, becomes, ?_⟩
      rw [becomes.words_eq]
      rfl

/-- What awaits a value cannot be recorded without one. -/
theorem not_becomes_awaiting {item : Item} {marks : List Mark} {pending : Option Mark}
    (takes : item.kind.takesValue = true) (awaiting : l.pending = some (item, [])) :
    ¬ Becomes scope l marks pending l' := by
  rintro ⟨given, recorded, -⟩
  rw [awaiting, Option.toList_some, recordAll_append, recordAll_singleton] at recorded
  obtain ⟨_, refused, -⟩ := bind_eq_ok.mp recorded
  unfold record at refused
  cases kind : item.kind with
  | help | version | count | switch =>
    rw [kind] at takes
    cases takes
  | path | text | language | format =>
    rw [kind] at refused
    cases refused

theorem take_option {said : List Mark × Option Item} (open_still : l.trailing = false)
    (tells_it : tells scope arg = some said)
    (becomes : Becomes scope l said.1 (said.2.map (·, [])) l') : l.take scope arg = .ok l' := by
  obtain ⟨option, other⟩ := not_isWord_of_tells tells_it
  exact (take_option_eq_ok open_still option other).mpr ⟨_, _, tells_it, becomes⟩

/-- An argument that is taken makes way for those after it. -/
theorem levels_taken (stays : entered? scope l arg = none) (taken : l.take scope arg = .ok l')
    (rest : List String) : levels lookup scope l (arg :: rest) = levels lookup scope l' rest := by
  rw [levels, stays, taken]
  rfl

theorem AtPlace.option_levels (place : AtPlace l) (option : ¬ IsWord arg) (rest : List String)
    (taken : l.take scope arg = .ok l') :
    levels lookup scope l (arg :: rest) = levels lookup scope l' rest :=
  levels_taken (place.entered.trans (inside?_eq_none option)) taken rest

/-- The value that was awaited is the next argument. -/
def valued (l : CommandLine.Level) (item : Item) (value : String) : CommandLine.Level :=
  { l with pending := some (item, [value]) }

theorem levels_valued {item : Item} {value : String} (open_still : l.trailing = false)
    (awaiting : l.pending = some (item, [])) (word : IsWord value) (rest : List String) :
    levels lookup scope l (value :: rest) = levels lookup scope (valued l item value) rest := by
  have awaited : l.awaited? = some item := by
    rw [awaited?, awaiting]
    dsimp only
    rw [open_still, if_neg Bool.false_ne_true]
  have stays : entered? scope l value = none := by
    rw [entered?, open_still, awaited]
    rfl
  have taken : l.take scope value = .ok (valued l item value) := by
    rw [take_word open_still word, awaited]
    rfl
  exact levels_taken stays taken rest

theorem AtPlace.valued {item : Item} {value : String} (open_still : l.trailing = false)
    (other : item ≠ .args) : AtPlace (valued l item value) := by
  refine ⟨open_still, ?_⟩
  rintro _ _ ⟨⟩
  exact ⟨List.cons_ne_nil _ _, other⟩

theorem levels_word {word : String} (place : AtPlace l) (is_word : IsWord word)
    (stays : scope.inside? word = none) (rest : List String) :
    levels lookup scope l (word :: rest) = .ok (command, givens) ↔ ∃ item between,
      scope.place? l.words = some item ∧ Becomes scope l [] (some (item, [word])) between ∧
        levels lookup scope { between with words := l.words + 1 } rest = .ok (command, givens) := by
  have taken : l.take scope word = l.takeWord scope word := by
    rw [take_word place.open_still is_word, place.awaited]
  rw [levels_cons (place.entered.trans stays), taken]
  simp only [takeWord_eq_ok]
  constructor
  · rintro ⟨_, ⟨item, between, found, becomes, rfl⟩, read⟩
    exact ⟨item, between, found, becomes, read⟩
  · rintro ⟨item, between, found, becomes, read⟩
    exact ⟨_, ⟨item, between, found, becomes, rfl⟩, read⟩

theorem AtPlace.of_word {item : Item} {word : String} {between : CommandLine.Level}
    (place : AtPlace l) (found : scope.place? l.words = some item)
    (becomes : Becomes scope l [] (some (item, [word])) between) :
    AtPlace { between with words := l.words + 1 } := by
  refine ⟨becomes.trailing_eq.trans place.open_still, ?_⟩
  intro item' values pending
  cases becomes.pending_eq.symm.trans pending
  exact ⟨List.cons_ne_nil _ _, ne_args_of_place found⟩

/-- Arguments that can be split, and whose marks can be recorded, are read one after the other, and
have made way then for whatever comes after them. -/
theorem levels_of_recorded {n n' : Nat} {marks : List Mark} {given : List Given}
    (reads : Reads scope n args marks n') (place : AtPlace l) (words : l.words = n)
    (recorded : recordAll scope l.given (l.pending.toList ++ marks) = .ok given) :
    ∃ l', AtPlace l' ∧ l'.words = n' ∧ recordAll scope l'.given l'.pending.toList = .ok given ∧
      ∀ rest, levels lookup scope l (args ++ rest) = levels lookup scope l' rest := by
  induction reads generalizing l with
  | nil =>
    rw [List.append_nil] at recorded
    exact ⟨l, place, words, recorded, fun _ => rfl⟩
  | @option _ _ arg _ marks marks' said others ih =>
    rw [← List.append_assoc, recordAll_append] at recorded
    obtain ⟨before, first, second⟩ := bind_eq_ok.mp recorded
    have becomes : Becomes scope l marks none { l with given := before, pending := none } :=
      ⟨before, first, rfl⟩
    have taken := take_option place.open_still said becomes
    obtain ⟨l', place', words', recorded', same⟩ := ih (place.of_becomes becomes) words second
    refine ⟨l', place', words', recorded', ?_⟩
    intro rest
    exact (place.option_levels (not_isWord_of_tells said).1 _ taken).trans (same rest)
  | @value _ _ arg value item _ marks marks' said word others ih =>
    rw [← List.append_assoc, recordAll_append] at recorded
    obtain ⟨before, first, second⟩ := bind_eq_ok.mp recorded
    have becomes : Becomes scope l marks (some (item, []))
        { l with given := before, pending := some (item, []) } := ⟨before, first, rfl⟩
    have taken := take_option place.open_still said becomes
    have open_still := becomes.trailing_eq.trans place.open_still
    obtain ⟨l', place'', words', recorded', same⟩ :=
      ih (.valued open_still (ne_args_of_tells said)) words second
    refine ⟨l', place'', words', recorded', ?_⟩
    intro rest
    refine (place.option_levels (not_isWord_of_tells said).1 _ taken).trans ?_
    exact (levels_valued open_still rfl word _).trans (same rest)
  | @word _ _ word item _ marks is_word stays found others ih =>
    rw [recordAll_append] at recorded
    obtain ⟨before, first, second⟩ := bind_eq_ok.mp recorded
    rw [← List.append_nil l.pending.toList] at first
    have becomes : Becomes scope l [] (some (item, [word]))
        { l with given := before, pending := some (item, [word]) } := ⟨before, first, rfl⟩
    rw [← words] at found
    have taken : l.take scope word = .ok { l with
        given := before, pending := some (item, [word]), words := l.words + 1 } := by
      rw [take_word place.open_still is_word, place.awaited]
      exact takeWord_eq_ok.mpr ⟨item, _, found, becomes, rfl⟩
    obtain ⟨l', place', words', recorded', same⟩ := ih (place.of_word found becomes)
      (congrArg (· + 1) words) second
    refine ⟨l', place', words', recorded', ?_⟩
    intro rest
    exact (levels_taken (place.entered.trans stays) taken _).trans (same rest)

/-- A level whose arguments can be split and recorded ends as its command does, with what stands in
for missing arguments. -/
theorem levels_recorded {n : Nat} {marks : List Mark} {given : List Given}
    (reads : Reads scope 0 args marks n) (recorded : recordAll scope [] marks = .ok given) :
    levels lookup scope {} args = do
      let given ← addVariables scope lookup scope.options given
      return (← commandOf given scope, [given]) := by
  obtain ⟨l', -, -, recorded', same⟩ := levels_of_recorded reads .start rfl recorded
  have settled : l'.settle scope = .ok { l' with given := given, pending := none } := by
    rw [← List.append_nil l'.pending.toList] at recorded'
    exact settle_eq_ok.mpr ⟨given, recorded', rfl⟩
  rw [← List.append_nil args, same [], levels, finish, settled]
  rfl

/-- It makes no difference which marks have been recorded on the way to what is given. -/
theorem filled_of_recorded {start start' given : List Given} {marks marks' : List Mark}
    (recorded : recordAll scope start marks = .ok given)
    (recorded' : recordAll scope start' marks' = .ok given) (more : List Mark)
    (deeper : List (Scope × List Mark)) :
    Filled lookup start ((scope, marks ++ more) :: deeper) command givens ↔
      Filled lookup start' ((scope, marks' ++ more) :: deeper) command givens := by
  have same : Acceptance.givenBy lookup scope start (marks ++ more) =
      Acceptance.givenBy lookup scope start' (marks' ++ more) := by
    rw [Acceptance.givenBy, Acceptance.givenBy, recordAll_append, recordAll_append, recorded,
      recorded']
  cases deeper with
  | nil => rw [filled_last, filled_last, same]
  | cons next deeper => rw [filled_more, filled_more, same]

theorem levels_of_reads {n n' : Nat} {marks marks' : List Mark} {deeper : List (Scope × List Mark)}
    (reads : Reads scope n args marks n') (place : AtPlace l) (words : l.words = n)
    (filled : Filled lookup l.given ((scope, l.pending.toList ++ (marks ++ marks')) :: deeper)
      command givens) :
    ∃ l', AtPlace l' ∧ l'.words = n' ∧
      Filled lookup l'.given ((scope, l'.pending.toList ++ marks') :: deeper) command givens ∧
      ∀ rest, levels lookup scope l (args ++ rest) = levels lookup scope l' rest := by
  obtain ⟨_, given, recorded, -⟩ := exists_becomes filled none
  obtain ⟨l', place', words', recorded', same⟩ := levels_of_recorded reads place words recorded
  refine ⟨l', place', words', ?_, same⟩
  rw [← List.append_assoc] at filled
  exact (filled_of_recorded recorded recorded' marks' deeper).mp filled

theorem AtPlace.fresh (place : AtPlace l) (values : List String) :
    l.pending ≠ some (.args, values) :=
  fun pending => (place.complete _ _ pending).2 rfl

theorem AtPlace.dashes_levels (place : AtPlace l) (rest : List String) :
    levels lookup scope l ("--" :: rest) = .ok (command, givens) ↔
      levels lookup scope { l with trailing := true } rest = .ok (command, givens) := by
  rw [levels_cons (place.entered.trans (inside?_eq_none not_isWord_dashes)),
    take_dashes place.open_still]
  simp only [Except.ok.injEq, exists_eq_left']

theorem AtPlace.enters_levels {name : String} {inner : Scope} (place : AtPlace l)
    (named : scope.inside? name = some inner) (rest : List String) :
    levels lookup scope l (name :: rest) = .ok (command, givens) ↔ inner ≠ .help ∧
      ∃ given deeper, levels lookup inner {} rest = .ok (command, deeper) ∧
        givenBy lookup scope l.given l.pending.toList = .ok given ∧
          givens = given :: deeper := by
  have enters : entered? scope l name = some inner := place.entered.trans named
  rw [levels, enters]
  split
  · rename_i same
    obtain rfl := Option.some.inj same
    exact iff_of_false nofun fun done => done.1 rfl
  · rename_i other no_help same
    obtain rfl := Option.some.inj same
    simp only [bind_eq_ok, finish_eq_ok]
    constructor
    · rintro ⟨⟨command', deeper⟩, read, given, filled, same⟩
      cases same
      exact ⟨no_help, given, deeper, read, filled, rfl⟩
    · rintro ⟨-, given, deeper, read, filled, rfl⟩
      exact ⟨_, read, given, filled, rfl⟩
  · contradiction

/-- The same for all that is said on the level. -/
theorem levels_of_all_reads {n n' : Nat} {marks : List Mark} {deeper : List (Scope × List Mark)}
    (reads : Reads scope n args marks n') (place : AtPlace l) (words : l.words = n)
    (filled : Filled lookup l.given ((scope, l.pending.toList ++ marks) :: deeper) command givens) :
    ∃ l', AtPlace l' ∧
      Filled lookup l'.given ((scope, l'.pending.toList) :: deeper) command givens ∧
      ∀ rest, levels lookup scope l (args ++ rest) = levels lookup scope l' rest := by
  rw [← List.append_nil marks] at filled
  obtain ⟨l', place', -, filled', same⟩ := levels_of_reads reads place words filled
  rw [List.append_nil] at filled'
  exact ⟨l', place', filled', same⟩

/-- A line that can be split, and whose marks can be recorded, is read to its end. -/
theorem levels_of_line {n : Nat} {marks : List Mark} {deeper : List (Scope × List Mark)}
    (line : Line scope n args ((scope, marks) :: deeper)) (place : AtPlace l) (words : l.words = n)
    (filled : Filled lookup l.given ((scope, l.pending.toList ++ marks) :: deeper) command givens) :
    levels lookup scope l args = .ok (command, givens) := by
  generalize first : (scope, marks) :: deeper = lines at line
  induction line generalizing l marks deeper givens with
  | ends reads =>
    cases first
    obtain ⟨l', place', filled', same⟩ := levels_of_all_reads reads place words filled
    have read := (same []).trans (levels_nil.mpr filled')
    rwa [List.append_nil] at read
  | dashes reads =>
    cases first
    obtain ⟨l', place', filled', same⟩ := levels_of_all_reads reads place words filled
    exact (same _).trans ((place'.dashes_levels _).mpr (levels_nil.mpr filled'))
  | trailing reads known =>
    cases first
    obtain ⟨l', place', -, filled', same⟩ := levels_of_reads reads place words filled
    refine (same _).trans ((place'.dashes_levels _).mpr ?_)
    exact (levels_trailing (l := { l' with trailing := true }) rfl place'.fresh).mpr
      ⟨_, known, filled'⟩
  | enters reads named no_help line ih =>
    cases first
    obtain ⟨l', place', filled', same⟩ := levels_of_all_reads reads place words filled
    refine (same _).trans ((place'.enters_levels named _).mpr ⟨no_help, ?_⟩)
    obtain ⟨marks', deeper', rfl⟩ := line.exists_first
    obtain ⟨given, deeper, complete, others, rfl⟩ := filled_more.mp filled'
    exact ⟨given, deeper, ih .start rfl others rfl, complete, rfl⟩

/-- The arguments can be split, and what they say can be recorded. -/
def Split (lookup : String → Option String) (scope : Scope) (l : CommandLine.Level)
    (args : List String) (command : Command) (givens : List (List Given)) : Prop :=
  ∃ marks deeper, Line scope l.words args ((scope, marks) :: deeper) ∧
    Filled lookup l.given ((scope, l.pending.toList ++ marks) :: deeper) command givens

theorem Split.option {marks : List Mark} (said : tells scope arg = some (marks, none))
    (becomes : Becomes scope l marks none l') (others : Split lookup scope l' args command givens) :
    Split lookup scope l (arg :: args) command givens := by
  obtain ⟨marks', deeper, line, filled⟩ := others
  rw [becomes.pending_eq, becomes.filled] at filled
  rw [becomes.words_eq] at line
  have first : Reads scope l.words [arg] marks l.words := by
    simpa using Reads.option said Reads.nil
  exact ⟨marks ++ marks', deeper, first.line line, filled⟩

theorem Split.value {marks : List Mark} {item : Item} {value : String}
    (said : tells scope arg = some (marks, some item)) (word : IsWord value)
    (becomes : Becomes scope l marks (some (item, [])) l')
    (others : Split lookup scope (valued l' item value) args command givens) :
    Split lookup scope l (arg :: value :: args) command givens := by
  obtain ⟨marks', deeper, line, filled⟩ := others
  have filled' := becomes.filled.mp filled
  have words : (valued l' item value).words = l.words := becomes.words_eq
  rw [words] at line
  have first : Reads scope l.words [arg, value] (marks ++ [(item, [value])]) l.words :=
    Reads.value said word Reads.nil
  refine ⟨_, deeper, first.line line, ?_⟩
  rw [List.append_assoc]
  exact filled'

theorem Split.word {word : String} {item : Item} (is_word : IsWord word)
    (stays : scope.inside? word = none) (found : scope.place? l.words = some item)
    (becomes : Becomes scope l [] (some (item, [word])) l')
    (others : Split lookup scope { l' with words := l.words + 1 } args command givens) :
    Split lookup scope l (word :: args) command givens := by
  obtain ⟨marks', deeper, line, filled⟩ := others
  dsimp only at filled
  rw [becomes.pending_eq, becomes.filled] at filled
  exact ⟨_, deeper, (Reads.word is_word stays found Reads.nil).line line, filled⟩

theorem Split.dashes (place : AtPlace l)
    (read : levels lookup scope { l with trailing := true } args = .ok (command, givens)) :
    Split lookup scope l ("--" :: args) command givens := by
  cases args with
  | nil =>
    refine ⟨[], [], .dashes .nil, ?_⟩
    rw [List.append_nil]
    exact (levels_nil (l := { l with trailing := true })).mp read
  | cons word words =>
    obtain ⟨item, known, filled⟩ :=
      (levels_trailing (l := { l with trailing := true }) rfl place.fresh).mp read
    exact ⟨_, [], .trailing .nil known, filled⟩

theorem Split.enters {name : String} {inner : Scope} {given : List Given}
    {deeper : List (List Given)} (named : scope.inside? name = some inner) (no_help : inner ≠ .help)
    (filled : givenBy lookup scope l.given l.pending.toList = .ok given)
    (others : Split lookup inner {} args command deeper) :
    Split lookup scope l (name :: args) command (given :: deeper) := by
  obtain ⟨marks', deeper', line, others⟩ := others
  refine ⟨[], _, .enters .nil named no_help line, filled_more.mpr ⟨given, deeper, ?_, others, rfl⟩⟩
  rw [List.append_nil]
  exact filled

/-- What is to be recorded with an item that awaits its value cannot be. -/
theorem not_filled_awaiting {item : Item} {marks : List Mark} {deeper : List (Scope × List Mark)}
    (takes : item.kind.takesValue = true) (awaiting : l.pending = some (item, [])) :
    ¬ Filled lookup l.given ((scope, l.pending.toList ++ marks) :: deeper) command givens := by
  intro filled
  obtain ⟨l', becomes⟩ := exists_records filled none
  exact not_becomes_awaiting takes awaiting becomes

/-- Nothing but a value is read where one is awaited. -/
theorem value_of_awaiting {item : Item} (open_still : l.trailing = false)
    (takes : item.kind.takesValue = true) (awaiting : l.pending = some (item, []))
    (other : item ≠ .args) (read : levels lookup scope l args = .ok (command, givens)) :
    ∃ value rest, args = value :: rest ∧ IsWord value := by
  cases args with
  | nil =>
    rw [levels_nil, ← List.append_nil l.pending.toList] at read
    exact absurd read (not_filled_awaiting takes awaiting)
  | cons arg rest =>
    refine ⟨arg, rest, rfl, ?_⟩
    apply Classical.byContradiction
    intro option
    have awaited : l.awaited? = some item := by
      rw [awaited?, awaiting]
      dsimp only
      rw [open_still, if_neg Bool.false_ne_true]
    have stays : entered? scope l arg = none := by
      rw [entered?, open_still, awaited]
      rfl
    obtain ⟨l', taken, read⟩ := (levels_cons stays).mp read
    by_cases dashes : arg = "--"
    · subst dashes
      rw [take_dashes open_still] at taken
      cases taken
      have same : ({ l with trailing := true } : CommandLine.Level).pending = some (item, []) :=
        awaiting
      cases rest with
      | nil =>
        rw [levels_nil, ← List.append_nil (Option.toList _)] at read
        exact not_filled_awaiting takes same read
      | cons word words =>
        have fresh (values : List String) : l.pending ≠ some (.args, values) := by
          rw [awaiting]
          rintro ⟨⟩
          exact other rfl
        obtain ⟨_, -, filled⟩ :=
          (levels_trailing (l := { l with trailing := true }) rfl fresh).mp read
        exact not_filled_awaiting takes same filled
    · obtain ⟨_, _, -, becomes⟩ := (take_option_eq_ok open_still option dashes).mp taken
      exact not_becomes_awaiting takes awaiting becomes

/-- What is read to its end can be split. -/
theorem split_of_levels {n : Nat} (size : args.length ≤ n) (place : AtPlace l)
    (read : levels lookup scope l args = .ok (command, givens)) :
    Split lookup scope l args command givens := by
  induction n generalizing scope l args command givens with
  | zero =>
    obtain rfl := List.length_eq_zero_iff.mp (Nat.le_zero.mp size)
    refine ⟨[], [], .ends .nil, ?_⟩
    rw [List.append_nil]
    exact levels_nil.mp read
  | succ n ih =>
    cases args with
    | nil => exact ih (Nat.zero_le n) place read
    | cons arg args =>
      have shorter : args.length ≤ n := Nat.le_of_succ_le_succ size
      by_cases dashes : arg = "--"
      · subst dashes
        exact .dashes place ((place.dashes_levels _).mp read)
      by_cases word : IsWord arg
      · cases named : scope.inside? arg with
        | some inner =>
          obtain ⟨no_help, given, deeper, read', filled, rfl⟩ :=
            (place.enters_levels named _).mp read
          exact .enters named no_help filled (ih shorter .start read')
        | none =>
          obtain ⟨item, between, found, becomes, read'⟩ := (levels_word place word named _).mp read
          exact .word word named found becomes (ih shorter (place.of_word found becomes) read')
      · obtain ⟨l', taken, read'⟩ :=
          (levels_cons (place.entered.trans (inside?_eq_none word))).mp read
        obtain ⟨marks, awaited, said, becomes⟩ :=
          (take_option_eq_ok place.open_still word dashes).mp taken
        cases awaited with
        | none => exact .option said becomes (ih shorter (place.of_becomes becomes) read')
        | some item =>
          have open_still := becomes.trailing_eq.trans place.open_still
          have other := ne_args_of_tells said
          obtain ⟨value, rest, rfl, is_word⟩ := value_of_awaiting open_still
            ((known_of_tells said).2 _ rfl).1 becomes.pending_eq other read'
          rw [levels_valued open_still becomes.pending_eq is_word rest] at read'
          exact .value said is_word becomes
            (ih (Nat.le_of_succ_le shorter) (.valued open_still other) read')

/-- A command line is accepted just when it can be split, and what it says can be recorded. -/
theorem levels_eq_ok : levels lookup .program {} args = .ok (command, givens) ↔
    ∃ lines, Line .program 0 args lines ∧ Filled lookup [] lines command givens := by
  constructor
  · intro read
    obtain ⟨marks, deeper, line, filled⟩ := split_of_levels (Nat.le_refl _) .start read
    exact ⟨_, line, filled⟩
  · rintro ⟨lines, line, filled⟩
    obtain ⟨marks, deeper, rfl⟩ := line.exists_first
    exact levels_of_line line .start rfl filled

end

end

end ScriptSandbox.Proofs.Acceptance
