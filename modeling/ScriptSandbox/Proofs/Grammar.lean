import ScriptSandbox.CommandLine.Reader

namespace ScriptSandbox.Proofs.Grammar
open CommandLine Level

/-- An item, and what is given as its values. -/
abbrev Mark := Item × List String

/-- Not an option: something that has a place, or the value of an option. A lone dash is a word. -/
def IsWord (arg : String) : Prop := ∀ c cs, arg.toList ≠ '-' :: c :: cs

theorem isWord_iff {arg : String} :
    IsWord arg ↔ ¬ (arg.toList.head? = some '-' ∧ arg.toList.tail ≠ []) := by
  unfold IsWord
  cases arg.toList with
  | nil => simp
  | cons first others =>
    cases others with
    | nil => simp
    | cons second others => simp

instance (arg : String) : Decidable (IsWord arg) := decidable_of_iff _ isWord_iff.symm

/-- What an option says that is given by its name, and the item whose value is still awaited. -/
def namedTells (scope : Scope) (cs : List Char) : Option (List Mark × Option Item) :=
  match scope.named? (cutAtEquals cs).1 with
  | none => none
  | some item =>
    match item.kind.takesValue, (cutAtEquals cs).2 with
    | true, some value => some ([(item, [value])], none)
    | true, none => some ([], some item)
    | false, some _ => none
    | false, none => some ([(item, [])], none)

def letterTells (scope : Scope) : List Char → Option (List Mark × Option Item)
  | [] => some ([], none)
  | c :: cs =>
    match scope.lettered? c with
    | none => none
    | some item =>
      if item.kind.takesValue then
        match cs with
        | [] => some ([], some item)
        | '=' :: value => some ([(item, [String.ofList value])], none)
        | value => some ([(item, [String.ofList value])], none)
      else (letterTells scope cs).map fun said => ((item, []) :: said.1, said.2)

/-- What an option says. -/
def tells (scope : Scope) (arg : String) : Option (List Mark × Option Item) :=
  match arg.toList with
  | ['-', '-'] => none
  | '-' :: '-' :: name => namedTells scope name
  | '-' :: c :: letters => letterTells scope (c :: letters)
  | _ => none

/-- All that these arguments say on one level, where `n` words have found their places before and
`n'` have in the end. -/
inductive Reads (scope : Scope) : Nat → List String → List Mark → Nat → Prop
  | nil {n : Nat} : Reads scope n [] [] n
  | option {n n' : Nat} {arg : String} {args : List String} {marks marks' : List Mark}
      (said : tells scope arg = some (marks, none)) (others : Reads scope n args marks' n') :
      Reads scope n (arg :: args) (marks ++ marks') n'
  | value {n n' : Nat} {arg value : String} {item : Item} {args : List String}
      {marks marks' : List Mark} (said : tells scope arg = some (marks, some item))
      (word : IsWord value) (others : Reads scope n args marks' n') :
      Reads scope n (arg :: value :: args) (marks ++ (item, [value]) :: marks') n'
  | word {n n' : Nat} {word : String} {item : Item} {args : List String} {marks : List Mark}
      (is_word : IsWord word) (stays : scope.inside? word = none)
      (place : scope.place? n = some item) (others : Reads scope (n + 1) args marks n') :
      Reads scope n (word :: args) ((item, [word]) :: marks) n'

/-- What the arguments say on each level. -/
inductive Line : Scope → Nat → List String → List (Scope × List Mark) → Prop
  | ends {scope : Scope} {n n' : Nat} {args : List String} {marks : List Mark}
      (reads : Reads scope n args marks n') : Line scope n args [(scope, marks)]
  | dashes {scope : Scope} {n n' : Nat} {args : List String} {marks : List Mark}
      (reads : Reads scope n args marks n') : Line scope n (args ++ ["--"]) [(scope, marks)]
  | trailing {scope : Scope} {n n' : Nat} {args words : List String} {word : String} {item : Item}
      {marks : List Mark} (reads : Reads scope n args marks n')
      (known : scope.trailing? = some item) :
      Line scope n (args ++ "--" :: word :: words) [(scope, marks ++ [(item, word :: words)])]
  | enters {scope inner : Scope} {n n' : Nat} {args more : List String} {name : String}
      {marks : List Mark} {levels : List (Scope × List Mark)} (reads : Reads scope n args marks n')
      (named : scope.inside? name = some inner) (no_help : inner ≠ .help)
      (deeper : Line inner 0 more levels) :
      Line scope n (args ++ name :: more) ((scope, marks) :: levels)

section
variable {scope : Scope} {arg : String} {args : List String} {marks : List Mark}

theorem exists_of_not_isWord (option : ¬ IsWord arg) : ∃ c cs, arg.toList = '-' :: c :: cs := by
  apply Classical.byContradiction
  intro none_such
  exact option fun c cs same => none_such ⟨c, cs, same⟩

theorem not_isWord_dashes : ¬ IsWord "--" := fun word => word '-' [] rfl

theorem tells_letters {c : Char} {cs : List Char} (text : arg.toList = '-' :: c :: cs)
    (letter : c ≠ '-') : tells scope arg = letterTells scope (c :: cs) := by
  unfold tells
  rw [text]
  split
  · rename_i same
    exact absurd (List.cons.inj (List.cons.inj same).2).1 letter
  · rename_i same
    exact absurd (List.cons.inj (List.cons.inj same).2).1 letter
  · rename_i same
    rw [(List.cons.inj same).2]
  · rename_i other
    exact absurd rfl (other c cs)

theorem not_isWord_of_tells {said : List Mark × Option Item}
    (tells_it : tells scope arg = some said) : ¬ IsWord arg ∧ arg ≠ "--" := by
  constructor
  · intro word
    unfold tells at tells_it
    split at tells_it
    · rename_i same
      exact word _ _ same
    · rename_i same
      exact word _ _ same
    · rename_i same
      exact word _ _ same
    · cases tells_it
  · rintro rfl
    cases tells_it

/-- What is said is about options that the command has, and only one that takes a value awaits
one. -/
def Known (scope : Scope) (said : List Mark × Option Item) : Prop :=
  (∀ m ∈ said.1, m.1 ∈ scope.options) ∧
    ∀ item, said.2 = some item → item.kind.takesValue = true ∧ item ∈ scope.options

theorem known_mark {item : Item} (option : item ∈ scope.options) (values : List String) :
    Known scope ([(item, values)], none) := by
  refine ⟨?_, nofun⟩
  intro m there
  obtain rfl := List.mem_singleton.mp there
  exact option

theorem known_awaited {item : Item} (option : item ∈ scope.options)
    (takes : item.kind.takesValue = true) : Known scope ([], some item) := by
  refine ⟨nofun, ?_⟩
  intro other same
  obtain rfl := Option.some.inj same
  exact ⟨takes, option⟩

theorem known_of_namedTells {cs : List Char} {said : List Mark × Option Item}
    (tells_it : namedTells scope cs = some said) : Known scope said := by
  unfold namedTells at tells_it
  split at tells_it
  · cases tells_it
  · rename_i item named
    have option : item ∈ scope.options := List.mem_of_find?_eq_some named
    split at tells_it
    · cases tells_it
      exact known_mark option _
    · rename_i takes _
      cases tells_it
      exact known_awaited option takes
    · cases tells_it
    · cases tells_it
      exact known_mark option _

theorem known_of_letterTells {cs : List Char} {said : List Mark × Option Item}
    (tells_it : letterTells scope cs = some said) : Known scope said := by
  induction cs generalizing said with
  | nil =>
    cases tells_it
    exact ⟨nofun, nofun⟩
  | cons c cs ih =>
    unfold letterTells at tells_it
    split at tells_it
    · cases tells_it
    · rename_i item lettered
      have option : item ∈ scope.options := List.mem_of_find?_eq_some lettered
      split at tells_it
      · rename_i takes
        split at tells_it
        · cases tells_it
          exact known_awaited option takes
        · cases tells_it
          exact known_mark option _
        · cases tells_it
          exact known_mark option _
      · obtain ⟨others, rest, rfl⟩ := Option.map_eq_some_iff.mp tells_it
        obtain ⟨marks, awaited⟩ := ih rest
        refine ⟨?_, awaited⟩
        intro m there
        rcases List.mem_cons.mp there with rfl | there
        · exact option
        · exact marks m there

theorem known_of_tells {said : List Mark × Option Item} (tells_it : tells scope arg = some said) :
    Known scope said := by
  unfold tells at tells_it
  split at tells_it
  · cases tells_it
  · exact known_of_namedTells tells_it
  · exact known_of_letterTells tells_it
  · cases tells_it

theorem args_not_mem_options : Item.args ∉ scope.options := by
  cases scope
  all_goals decide

theorem args_of_trailing {item : Item} (known : scope.trailing? = some item) : item = .args := by
  cases scope with
  | run => exact (Option.some.inj known).symm
  | _ => cases known

/-- Where words have a place, the item is not the one of words after two lone dashes. -/
theorem ne_args_of_place {n : Nat} {item : Item} (place : scope.place? n = some item) :
    item ≠ .args := by
  rintro rfl
  unfold Scope.place? at place
  split at place
  · cases place
  · cases place

theorem ne_args_of_tells {marks : List Mark} {item : Item}
    (said : tells scope arg = some (marks, some item)) : item ≠ .args := by
  rintro rfl
  exact args_not_mem_options ((known_of_tells said).2 _ rfl).2

theorem inside_isWord {name : String} {inner : Scope} (named : scope.inside? name = some inner) :
    IsWord name := by
  obtain ⟨entry, found, -⟩ := Option.map_eq_some_iff.mp named
  obtain rfl : entry.1 = name := by simpa using List.find?_some found
  have no_dash : ∀ entry ∈ scope.inside, entry.1.toList.head? ≠ some '-' := by
    cases scope
    all_goals decide
  intro c cs dash
  have first := no_dash entry (List.mem_of_find?_eq_some found)
  rw [dash] at first
  exact first rfl

theorem inside?_eq_none (option : ¬ IsWord arg) : scope.inside? arg = none :=
  Option.eq_none_iff_forall_ne_some.mpr fun _ named => option (inside_isWord named)

theorem Reads.append {n n' n'' : Nat} {args' : List String} {marks marks' : List Mark}
    (reads : Reads scope n args marks n') (others : Reads scope n' args' marks' n'') :
    Reads scope n (args ++ args') (marks ++ marks') n'' := by
  induction reads with
  | nil => exact others
  | option said _ ih =>
    rw [List.append_assoc]
    exact .option said (ih others)
  | value said word _ ih =>
    rw [List.append_assoc]
    exact .value said word (ih others)
  | word is_word stays place _ ih => exact .word is_word stays place (ih others)

theorem Reads.line {n n' : Nat} {args' : List String} {marks marks' : List Mark}
    {levels : List (Scope × List Mark)} (reads : Reads scope n args marks n')
    (line : Line scope n' args' ((scope, marks') :: levels)) :
    Line scope n (args ++ args') ((scope, marks ++ marks') :: levels) := by
  cases line with
  | ends others => exact .ends (reads.append others)
  | dashes others =>
    rw [← List.append_assoc]
    exact .dashes (reads.append others)
  | trailing others known =>
    rw [← List.append_assoc, ← List.append_assoc]
    exact .trailing (reads.append others) known
  | enters others named no_help deeper =>
    rw [← List.append_assoc]
    exact .enters (reads.append others) named no_help deeper

theorem Line.exists_first {n : Nat} {lines : List (Scope × List Mark)}
    (line : Line scope n args lines) : ∃ marks deeper, lines = (scope, marks) :: deeper := by
  cases line with
  | ends reads => exact ⟨_, _, rfl⟩
  | dashes reads => exact ⟨_, _, rfl⟩
  | trailing reads known => exact ⟨_, _, rfl⟩
  | enters reads named no_help line => exact ⟨_, _, rfl⟩

/-- What stands before an option has been read when the option is. -/
theorem Reads.before {n n' : Nat} {front back : List String} {option : String}
    (reads : Reads scope n (front ++ option :: back) marks n') (no_word : ¬ IsWord option) :
    ∃ before after middle, marks = before ++ after ∧ Reads scope n front before middle ∧
      Reads scope middle (option :: back) after n' := by
  generalize all : front ++ option :: back = args at reads
  induction reads generalizing front with
  | nil => simp at all
  | option said others ih =>
    cases front with
    | nil =>
      cases all
      exact ⟨[], _, _, rfl, .nil, .option said others⟩
    | cons first front =>
      cases all
      obtain ⟨before, after, middle, rfl, reads, rest⟩ := ih rfl
      exact ⟨_ ++ before, after, middle, (List.append_assoc ..).symm, .option said reads, rest⟩
  | value said word others ih =>
    cases front with
    | nil =>
      cases all
      exact ⟨[], _, _, rfl, .nil, .value said word others⟩
    | cons first front =>
      cases front with
      | nil =>
        cases all
        exact absurd word no_word
      | cons second front =>
        cases all
        obtain ⟨before, after, middle, rfl, reads, rest⟩ := ih rfl
        exact ⟨_ ++ _ :: before, after, middle, by simp, .value said word reads, rest⟩
  | word is_word stays place others ih =>
    cases front with
    | nil =>
      cases all
      exact absurd is_word no_word
    | cons first front =>
      cases all
      obtain ⟨before, after, middle, rfl, reads, rest⟩ := ih rfl
      exact ⟨_ :: before, after, middle, rfl, .word is_word stays place reads, rest⟩

/-- What cannot be read on a level where an option may stand: the end, two lone dashes or the name
of a command inside. -/
def Stops (scope : Scope) : List String → Prop
  | [] => True
  | arg :: _ => tells scope arg = none ∧ (IsWord arg → scope.inside? arg ≠ none)

theorem not_reads_of_stops {n n' : Nat} {args : List String} {arg : String}
    (stops : Stops scope (arg :: args)) : ¬ Reads scope n (arg :: args) marks n' := by
  intro reads
  cases reads with
  | option said others => cases stops.1.symm.trans said
  | value said word others => cases stops.1.symm.trans said
  | word is_word stays place others => exact stops.2 is_word stays

/-- Arguments are read in one way only, so what is read of them first is the start of all that
is. -/
theorem Reads.rest {n middle n' : Nat} {first back args tail : List String}
    {before all : List Mark} (reads : Reads scope n first before middle)
    (whole : Reads scope n args all n') (stops : Stops scope tail)
    (same : first ++ back = args ++ tail) :
    ∃ rest after, args = first ++ rest ∧ all = before ++ after ∧ back = rest ++ tail ∧
      Reads scope middle rest after n' := by
  induction reads generalizing args all with
  | nil => exact ⟨args, all, rfl, rfl, same, whole⟩
  | option said others ih =>
    cases whole with
    | nil =>
      subst same
      cases stops.1.symm.trans said
    | option said' others' =>
      obtain ⟨rfl, tails⟩ := List.cons.inj same
      cases said.symm.trans said'
      obtain ⟨rest, after, rfl, rfl, rfl, reads⟩ := ih others' tails
      exact ⟨rest, after, rfl, (List.append_assoc ..).symm, rfl, reads⟩
    | value said' word others' =>
      obtain ⟨rfl, -⟩ := List.cons.inj same
      cases said.symm.trans said'
    | word is_word stays place others' =>
      obtain ⟨rfl, -⟩ := List.cons.inj same
      exact absurd is_word (not_isWord_of_tells said).1
  | value said word others ih =>
    cases whole with
    | nil =>
      subst same
      cases stops.1.symm.trans said
    | option said' others' =>
      obtain ⟨rfl, -⟩ := List.cons.inj same
      cases said.symm.trans said'
    | value said' word' others' =>
      obtain ⟨rfl, tails⟩ := List.cons.inj same
      obtain ⟨rfl, ends⟩ := List.cons.inj tails
      cases said.symm.trans said'
      obtain ⟨rest, after, rfl, rfl, rfl, reads⟩ := ih others' ends
      exact ⟨rest, after, rfl, by simp, rfl, reads⟩
    | word is_word stays place others' =>
      obtain ⟨rfl, -⟩ := List.cons.inj same
      exact absurd is_word (not_isWord_of_tells said).1
  | word is_word stays place others ih =>
    cases whole with
    | nil =>
      subst same
      exact absurd stays (stops.2 is_word)
    | option said' others' =>
      obtain ⟨rfl, -⟩ := List.cons.inj same
      exact absurd is_word (not_isWord_of_tells said').1
    | value said' word' others' =>
      obtain ⟨rfl, -⟩ := List.cons.inj same
      exact absurd is_word (not_isWord_of_tells said').1
    | word is_word' stays' place' others' =>
      obtain ⟨rfl, tails⟩ := List.cons.inj same
      cases place.symm.trans place'
      obtain ⟨rest, after, rfl, rfl, rfl, reads⟩ := ih others' tails
      exact ⟨rest, after, rfl, rfl, rfl, reads⟩

/-- What comes after two lone dashes is not said before them. -/
theorem Reads.no_args {n n' : Nat} (reads : Reads scope n args marks n') :
    ∀ m ∈ marks, m.1 ≠ .args := by
  induction reads with
  | nil => exact nofun
  | option said others ih =>
    intro m there
    rcases List.mem_append.mp there with there | there
    · exact fun same => args_not_mem_options (same ▸ (known_of_tells said).1 m there)
    · exact ih m there
  | value said word others ih =>
    intro m there
    rcases List.mem_append.mp there with there | there
    · exact fun same => args_not_mem_options (same ▸ (known_of_tells said).1 m there)
    rcases List.mem_cons.mp there with rfl | there
    · exact ne_args_of_tells said
    · exact ih m there
  | word is_word stays place others ih =>
    intro m there
    rcases List.mem_cons.mp there with rfl | there
    · exact ne_args_of_place place
    · exact ih m there

theorem Reads.no_dashes {n n' : Nat} {args : List String} (reads : Reads scope n args marks n') :
    "--" ∉ args := by
  induction reads with
  | nil => exact List.not_mem_nil
  | option said others ih =>
    have other := (not_isWord_of_tells said).2
    simp [other.symm, ih]
  | value said word others ih =>
    have other := (not_isWord_of_tells said).2
    have other' : "--" ≠ _ := fun same => not_isWord_dashes (same ▸ word)
    simp [other.symm, other', ih]
  | word is_word stays place others ih =>
    have other : "--" ≠ _ := fun same => not_isWord_dashes (same ▸ is_word)
    simp [other, ih]

end

end ScriptSandbox.Proofs.Grammar
