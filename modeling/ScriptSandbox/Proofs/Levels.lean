import ScriptSandbox.Proofs.RunLines

namespace ScriptSandbox.Proofs.Levels
open CommandLine Level Grammar Acceptance RunLines
open RoundTrip (bind_eq_ok)

section
variable {scope : Scope} {item : Item}

theorem exists_own (scope : Scope) : ∃ own, scope.options = Item.everywhere ++ own := by
  cases scope
  all_goals exact ⟨_, rfl⟩

/-- What the program itself knows every command knows. -/
theorem find_everywhere {p : Item → Bool} (found : Scope.program.options.find? p = some item) :
    scope.options.find? p = some item := by
  obtain ⟨own, options⟩ := exists_own scope
  have known : Item.everywhere.find? p = some item := found
  rw [options, List.find?_append, known]
  rfl

theorem namedTells_everywhere {cs : List Char} {said : List Mark × Option Item}
    (tells_it : namedTells .program cs = some said) : namedTells scope cs = some said := by
  unfold namedTells at tells_it ⊢
  cases named : Scope.program.named? (cutAtEquals cs).1 with
  | none =>
    rw [named] at tells_it
    cases tells_it
  | some item =>
    rw [named] at tells_it
    have known : scope.named? (cutAtEquals cs).1 = some item := find_everywhere named
    rw [known]
    exact tells_it

theorem letterTells_everywhere {cs : List Char} {said : List Mark × Option Item}
    (tells_it : letterTells .program cs = some said) : letterTells scope cs = some said := by
  induction cs generalizing said with
  | nil => exact tells_it
  | cons c cs ih =>
    unfold letterTells at tells_it ⊢
    cases lettered : Scope.program.lettered? c with
    | none =>
      rw [lettered] at tells_it
      cases tells_it
    | some item =>
      have known : scope.lettered? c = some item := find_everywhere lettered
      rw [lettered] at tells_it
      rw [known]
      dsimp only at tells_it ⊢
      split
      · rename_i takes
        rwa [if_pos takes] at tells_it
      · rename_i flag
        rw [if_neg flag] at tells_it
        obtain ⟨others, rest, rfl⟩ := Option.map_eq_some_iff.mp tells_it
        rw [ih rest]
        rfl

theorem tells_everywhere {arg : String} {said : List Mark × Option Item}
    (tells_it : tells .program arg = some said) : tells scope arg = some said := by
  revert tells_it
  unfold tells
  split
  · exact id
  · exact namedTells_everywhere
  · exact letterTells_everywhere
  · exact id

/-- Options that the program itself reads are read alike wherever an option may stand. -/
theorem reads_everywhere {n n' : Nat} {args : List String} {marks : List Mark}
    (reads : Reads .program n args marks n') (m : Nat) : Reads scope m args marks m := by
  induction reads with
  | nil => exact .nil
  | option said _ ih => exact .option (tells_everywhere said) ih
  | value said word _ ih => exact .value (tells_everywhere said) word ih
  | word _ _ place _ _ => cases place

theorem mem_everywhere_of_reads {n n' : Nat} {args : List String} {marks : List Mark}
    (reads : Reads .program n args marks n') : ∀ m ∈ marks, m.1 ∈ Item.everywhere := by
  induction reads with
  | nil => exact nofun
  | option said _ ih =>
    intro m there
    rcases List.mem_append.mp there with there | there
    · exact (known_of_tells said).1 m there
    · exact ih m there
  | value said word _ ih =>
    intro m there
    rcases List.mem_append.mp there with there | there
    · exact (known_of_tells said).1 m there
    rcases List.mem_cons.mp there with rfl | there
    · exact ((known_of_tells said).2 _ rfl).2
    · exact ih m there
  | word _ _ place _ _ => cases place

end

/-- After these arguments an option may stand, on this level and behind so many words of it. -/
inductive Reaches : Scope → Nat → List String → Scope → Nat → Prop
  | here {scope : Scope} {n n' : Nat} {args : List String} {marks : List Mark}
      (reads : Reads scope n args marks n') : Reaches scope n args scope n'
  | enters {scope inner scope' : Scope} {n n' n'' : Nat} {args more : List String} {name : String}
      {marks : List Mark} (reads : Reads scope n args marks n'')
      (named : scope.inside? name = some inner) (further : Reaches inner 0 more scope' n') :
      Reaches scope n (args ++ name :: more) scope' n'

section
variable {scope scope' inner : Scope} {n n' : Nat} {args rest : List String} {name : String}
  {before : List Mark} {lines : List (Scope × List Mark)}

theorem stops_inside (named : scope.inside? name = some inner) (args : List String) :
    Stops scope (name :: args) := by
  refine ⟨?_, fun _ => by simp [named]⟩
  apply Option.eq_none_iff_forall_ne_some.mpr
  intro said tells_it
  exact (not_isWord_of_tells tells_it).1 (inside_isWord named)

theorem stops_dashes (args : List String) : Stops scope ("--" :: args) :=
  ⟨rfl, fun word => absurd word not_isWord_dashes⟩

/-- What is read first on a level is the start of what the level says. -/
theorem line_after_reads (reads : Reads scope n args before n')
    (line : Line scope n (args ++ rest) lines) :
    ∃ after deeper, lines = (scope, before ++ after) :: deeper ∧
      Line scope n' rest ((scope, after) :: deeper) := by
  generalize whole : args ++ rest = all at line
  cases line with
  | ends reads' =>
    have ends : Stops scope [] := trivial
    obtain ⟨more, after, -, rfl, rfl, others⟩ := reads.rest reads' ends
      (whole.trans (List.append_nil _).symm)
    rw [List.append_nil]
    exact ⟨after, [], rfl, .ends others⟩
  | dashes reads' =>
    obtain ⟨more, after, -, rfl, rfl, others⟩ := reads.rest reads' (stops_dashes []) whole
    exact ⟨after, [], rfl, .dashes others⟩
  | trailing reads' known =>
    obtain ⟨more, after, -, rfl, rfl, others⟩ := reads.rest reads' (stops_dashes _) whole
    exact ⟨_, [], by rw [List.append_assoc], .trailing others known⟩
  | enters reads' named no_help deeper =>
    obtain ⟨more, after, -, rfl, rfl, others⟩ := reads.rest reads' (stops_inside named _) whole
    exact ⟨after, _, rfl, .enters others named no_help deeper⟩

/-- Where a level stops, nothing is read of it. -/
theorem nothing_read {stop : String} {args back : List String} {marks : List Mark}
    (stops : Stops scope (stop :: rest)) (reads : Reads scope n args marks n')
    (same : args ++ back = stop :: rest) : args = [] ∧ marks = [] ∧ back = stop :: rest := by
  have none_read : Reads scope n [] [] n := .nil
  obtain ⟨more, after, nothing, nothing_said, rfl, -⟩ := reads.rest none_read stops same
  obtain ⟨rfl, rfl⟩ := List.append_eq_nil_iff.mp nothing.symm
  obtain ⟨rfl, -⟩ := List.append_eq_nil_iff.mp nothing_said.symm
  exact ⟨rfl, rfl, rfl⟩

/-- The name of a command inside begins its level. -/
theorem line_after_name (named : scope.inside? name = some inner)
    (line : Line scope n (name :: rest) lines) : ∃ deeper,
      lines = (scope, []) :: deeper ∧ inner ≠ .help ∧ Line inner 0 rest deeper := by
  have stops := stops_inside named rest
  have other : name ≠ "--" := fun same => not_isWord_dashes (same ▸ inside_isWord named)
  generalize whole : name :: rest = all at line
  cases line with
  | ends reads =>
    subst whole
    exact absurd reads (not_reads_of_stops stops)
  | dashes reads =>
    obtain ⟨-, -, same⟩ := nothing_read stops reads whole.symm
    exact absurd (List.cons.inj same).1.symm other
  | trailing reads known =>
    obtain ⟨-, -, same⟩ := nothing_read stops reads whole.symm
    exact absurd (List.cons.inj same).1.symm other
  | enters reads named' no_help deeper =>
    obtain ⟨-, rfl, same⟩ := nothing_read stops reads whole.symm
    obtain ⟨rfl, rfl⟩ := List.cons.inj same
    obtain rfl := Option.some.inj (named'.symm.trans named)
    exact ⟨_, rfl, no_help, deeper⟩

/-- What comes after a place may be exchanged for anything that can be read there. -/
theorem Reaches.line (reached : Reaches scope n args scope' n')
    (line : Line scope n (args ++ rest) lines) : ∃ outer own after deeper,
      lines = outer ++ (scope', own ++ after) :: deeper ∧
      Line scope' n' rest ((scope', after) :: deeper) ∧
      ∀ rest after deeper, Line scope' n' rest ((scope', after) :: deeper) →
        Line scope n (args ++ rest) (outer ++ (scope', own ++ after) :: deeper) := by
  induction reached generalizing lines with
  | here reads =>
    obtain ⟨after, deeper, rfl, further⟩ := line_after_reads reads line
    exact ⟨[], _, after, deeper, rfl, further, fun _ _ _ line => reads.line line⟩
  | enters reads named _ ih =>
    simp only [List.append_assoc, List.cons_append] at line ⊢
    obtain ⟨_, _, rfl, further⟩ := line_after_reads reads line
    obtain ⟨_, same, no_help, further⟩ := line_after_name named further
    cases same
    obtain ⟨outer, own, after, deeper, rfl, line, exchanged⟩ := ih further
    rw [List.append_nil]
    exact ⟨_ :: outer, own, after, deeper, rfl, line, fun rest after deeper line =>
      .enters reads named no_help (exchanged rest after deeper line)⟩

end

/-- What each level says of one item. -/
def only (item : Item) (lines : List (Scope × List Mark)) : List (Scope × List Mark) :=
  lines.map fun level => (level.1, level.2.filter (·.1 == item))

/-- What all levels together say of one item. -/
def said (item : Item) (lines : List (Scope × List Mark)) : List Mark :=
  (only item lines).flatMap Prod.snd

/-- How often more messages are asked for: as often as on the innermost level that asks for any. -/
def loudness : List (Scope × List Mark) → Nat
  | [] => 0
  | level :: deeper =>
    if loudness deeper = 0 then min countLimit (level.2.filter (·.1 == .verbose)).length
    else loudness deeper

/-- All that is given on the levels. -/
def AllGiven (lookup : String → Option String) (lines : List (Scope × List Mark))
    (givens : List (List Given)) : Prop :=
  lines.map (fun level => givenBy lookup level.1 [] level.2) = givens.map .ok

/-- What a level comes to for one item. -/
def heard (lookup : String → Option String) (item : Item) (level : Scope × List Mark) :
    List Given :=
  (saidOf lookup level.1 item level.2).toOption.getD []

section
variable {lookup : String → Option String} {scope scope' : Scope} {item : Item}
  {marks : List Mark} {given given' : List Given} {lines lines' : List (Scope × List Mark)}
  {givens givens' : List (List Given)} {command : Command}

theorem item_of_filter {mark : Mark} (there : mark ∈ marks.filter (·.1 == item)) :
    mark.1 = item := by
  simpa using (List.mem_filter.mp there).2

theorem filter_eq_nil (others : ∀ m ∈ marks, m.1 ≠ item) : marks.filter (·.1 == item) = [] := by
  apply List.filter_eq_nil_iff.mpr
  intro m there
  simpa using others m there

theorem item_of_said {mark : Mark} (there : mark ∈ said item lines) : mark.1 = item := by
  obtain ⟨restricted, mem, there⟩ := List.mem_flatMap.mp there
  obtain ⟨level, -, rfl⟩ := List.mem_map.mp mem
  exact item_of_filter there

theorem allGiven_cons {level : Scope × List Mark} : AllGiven lookup (level :: lines) givens ↔
    ∃ given deeper, givenBy lookup level.1 [] level.2 = .ok given ∧
      AllGiven lookup lines deeper ∧ givens = given :: deeper := by
  unfold AllGiven
  cases givens with
  | nil => simp
  | cons first others =>
    simp only [List.map_cons, List.cons.injEq]
    constructor
    · rintro ⟨same, rest⟩
      exact ⟨first, others, same, rest, rfl, rfl⟩
    · rintro ⟨given, deeper, same, rest, rfl, rfl⟩
      exact ⟨same, rest⟩

theorem exists_allGiven
    (each : ∀ level ∈ lines, ∃ given, givenBy lookup level.1 [] level.2 = .ok given) :
    ∃ givens, AllGiven lookup lines givens := by
  induction lines with
  | nil => exact ⟨[], rfl⟩
  | cons level lines ih =>
    obtain ⟨given, filled⟩ := each level List.mem_cons_self
    obtain ⟨deeper, rest⟩ := ih fun level there => each level (List.mem_cons_of_mem _ there)
    exact ⟨given :: deeper, allGiven_cons.mpr ⟨given, deeper, filled, rest, rfl⟩⟩

theorem exists_given (all : AllGiven lookup lines givens) {level : Scope × List Mark}
    (there : level ∈ lines) : ∃ given, givenBy lookup level.1 [] level.2 = .ok given := by
  have mem := List.mem_map_of_mem (f := fun level => givenBy lookup level.1 [] level.2) there
  rw [all] at mem
  obtain ⟨given, -, same⟩ := List.mem_map.mp mem
  exact ⟨given, same.symm⟩

/-- The levels are filled each for itself, and the last one has to make a command. -/
theorem filled_iff : Filled lookup [] lines command givens ↔ AllGiven lookup lines givens ∧
    ∃ scope given, (lines.map Prod.fst).getLast? = some scope ∧ givens.getLast? = some given ∧
      commandOf given scope = .ok command := by
  induction lines generalizing givens with
  | nil =>
    constructor
    · exact nofun
    · rintro ⟨-, _, _, none_last, -⟩
      cases none_last
  | cons level lines ih =>
    obtain ⟨scope, marks⟩ := level
    rw [allGiven_cons]
    cases lines with
    | nil =>
      rw [filled_last]
      constructor
      · rintro ⟨given, filled, ends, rfl⟩
        exact ⟨⟨given, [], filled, rfl, rfl⟩, scope, given, rfl, rfl, ends⟩
      · rintro ⟨⟨given, deeper, filled, none_deeper, rfl⟩, _, _, last, last', ends⟩
        obtain rfl := List.map_eq_nil_iff.mp none_deeper.symm
        cases last
        cases last'
        exact ⟨given, filled, ends, rfl⟩
    | cons next lines =>
      rw [filled_more]
      constructor
      · rintro ⟨given, deeper, filled, others, rfl⟩
        obtain ⟨all, last_scope, last, scope_eq, last_eq, ends⟩ := ih.mp others
        obtain ⟨first, rest, -, -, rfl⟩ := allGiven_cons.mp all
        exact ⟨⟨given, _, filled, all, rfl⟩, last_scope, last, scope_eq, last_eq, ends⟩
      · rintro ⟨⟨given, deeper, filled, all, rfl⟩, last_scope, last, scope_eq, last_eq, ends⟩
        obtain ⟨first, rest, -, -, rfl⟩ := allGiven_cons.mp all
        exact ⟨given, _, filled, ih.mpr ⟨all, last_scope, last, scope_eq, last_eq, ends⟩, rfl⟩

@[simp]
theorem saidOf_filter : saidOf lookup scope item (marks.filter (·.1 == item)) =
    saidOf lookup scope item marks := by
  simp [saidOf]

/-- What is given of an item comes from what the levels say of it. -/
theorem ofItem_levels (all : AllGiven lookup lines givens) (item : Item) :
    givens.map (ofItem item) = (only item lines).map (heard lookup item) := by
  induction lines generalizing givens with
  | nil =>
    obtain rfl := List.map_eq_nil_iff.mp all.symm
    rfl
  | cons level lines ih =>
    obtain ⟨given, deeper, filled, rest, rfl⟩ := allGiven_cons.mp all
    have own : heard lookup item (level.1, level.2.filter (·.1 == item)) = ofItem item given := by
      rw [heard, saidOf_filter, givenBy_ofItem item filled]
      rfl
    rw [List.map_cons, ih rest, ← own]
    rfl

theorem options_filter (known : item ∈ Item.everywhere) :
    scope.options.filter (· == item) = [item] := by
  revert item
  cases scope
  all_goals decide

theorem saidOf_known (known : item ∈ Item.everywhere) : saidOf lookup scope item marks =
    recordAll scope [] (marks.filter (·.1 == item)) >>= (standIn scope lookup · item) := by
  rw [saidOf, options_filter known]
  exact bind_congr fun given => bind_pure _

/-- Only the version tells the levels apart. -/
theorem record_scope (other : item ≠ .version) (origin : Origin) (values : List String)
    (given : List Given) :
    record scope origin item values given = record scope' origin item values given := by
  cases item with
  | version => contradiction
  | _ => rfl

theorem recordAll_scope (other : item ≠ .version) (own : ∀ m ∈ marks, m.1 = item) :
    recordAll scope given marks = recordAll scope' given marks := by
  induction marks generalizing given with
  | nil => rfl
  | cons m marks ih =>
    have first : m.1 ≠ .version := own m List.mem_cons_self ▸ other
    rw [recordAll, recordAll, List.foldlM_cons, List.foldlM_cons, record_scope first]
    exact bind_congr fun given => ih fun m there => own m (List.mem_cons_of_mem _ there)

theorem saidOf_scope (known : item ∈ Item.everywhere) (other : item ≠ .version) :
    saidOf lookup scope item marks = saidOf lookup scope' item marks := by
  have recorded : recordAll scope [] (marks.filter (·.1 == item)) =
      recordAll scope' [] (marks.filter (·.1 == item)) :=
    recordAll_scope other fun _ => item_of_filter
  rw [saidOf_known known, saidOf_known known, recorded]
  refine bind_congr fun given => ?_
  unfold standIn
  split
  · rw [record_scope other]
  · rfl

theorem takesValue_of_recorded (known : item ∈ Item.everywhere) (counted : item ≠ .verbose)
    {values : List String} (recorded : record scope .arguments item values [] = .ok given) :
    item.kind.takesValue = true := by
  cases item with
  | help | version => cases recorded
  | verbose => contradiction
  | force => simp [Item.everywhere] at known
  | _ => rfl

/-- The environment changes nothing about an item that is given. -/
theorem standIn_given (there : has given item = true) :
    standIn scope lookup given item = .ok given := by
  unfold standIn
  cases item.standIn?.bind lookup with
  | none => rfl
  | some value => exact if_pos there

/-- What is said once counts as it is said, whatever the environment holds. -/
theorem saidOf_once (known : item ∈ Item.everywhere) (counted : item ≠ .verbose)
    {values : List String} (once : marks.filter (·.1 == item) = [(item, values)])
    (filled : saidOf lookup scope item marks = .ok given) : item.kind.takesValue = true ∧
      ∃ read, values.mapM item.kind.value? = some read ∧
        given = [⟨item, .arguments, 1, read⟩] := by
  rw [saidOf_known known, once, recordAll_singleton] at filled
  obtain ⟨said, recorded, completed⟩ := bind_eq_ok.mp filled
  have takes := takesValue_of_recorded known counted recorded
  refine ⟨takes, ?_⟩
  rw [record_values takes] at recorded
  split at recorded
  · cases recorded
  · rw [if_neg (by simp [has])] at recorded
    split at recorded
    · rename_i read same
      obtain rfl := Except.ok.inj recorded
      have there : has [(⟨item, .arguments, 1, read⟩ : Given)] item = true := by simp [has]
      exact ⟨read, same, (Except.ok.inj ((standIn_given there).symm.trans completed)).symm⟩
    · cases recorded

/-- Where nothing is said of an item, only the environment can have given it. -/
theorem origin_of_nothing (known : item ∈ Item.everywhere) (takes : item.kind.takesValue = true)
    (nothing : marks.filter (·.1 == item) = [])
    (filled : saidOf lookup scope item marks = .ok given) :
    ∀ g ∈ given, g.origin = .environment := by
  rw [saidOf_known known, nothing] at filled
  have completed : standIn scope lookup [] item = .ok given := filled
  unfold standIn at completed
  cases held : item.standIn?.bind lookup with
  | none =>
    rw [held] at completed
    obtain rfl := Except.ok.inj completed
    simp
  | some value =>
    rw [held] at completed
    dsimp only at completed
    rw [if_neg (by simp [has]), record_values takes, if_neg (by simp), if_neg (by simp [has])]
      at completed
    cases read : [value].mapM item.kind.value? with
    | none =>
      rw [read] at completed
      cases completed
    | some said =>
      rw [read] at completed
      obtain rfl := Except.ok.inj completed
      simp

/-- So many calls for more messages, recorded. -/
def tally (n : Nat) : List Given :=
  if n = 0 then [] else [{ item := .verbose, times := min countLimit n }]

@[simp]
theorem tally_succ (n : Nat) : bump (tally n) .verbose = tally (n + 1) := by
  unfold tally
  by_cases first : n = 0
  · subst first
    rfl
  · have limit : min countLimit (min countLimit n + 1) = min countLimit (n + 1) := by
      unfold countLimit
      omega
    rw [if_neg first, if_neg (Nat.succ_ne_zero n)]
    simp [bump, has, limit]

@[simp]
theorem tally_min (n : Nat) : tally (min countLimit n) = tally n := by
  unfold tally
  by_cases first : n = 0
  · subst first
    rfl
  · have some_left : min countLimit n ≠ 0 := by
      unfold countLimit
      omega
    rw [if_neg first, if_neg some_left, ← Nat.min_assoc, Nat.min_self]

theorem recordAll_tally {n : Nat} (own : ∀ m ∈ marks, m.1 = .verbose) :
    recordAll scope (tally n) marks = .ok (tally (n + marks.length)) := by
  induction marks generalizing n with
  | nil => rfl
  | cons m marks ih =>
    obtain ⟨item, values⟩ := m
    obtain rfl : item = .verbose := own _ List.mem_cons_self
    have first : record scope .arguments .verbose values (tally n) = .ok (tally (n + 1)) := by
      simp [record, Item.kind]
    rw [recordAll, List.foldlM_cons, first]
    refine (ih fun m there => own m (List.mem_cons_of_mem _ there)).trans ?_
    rw [List.length_cons, Nat.add_assoc, Nat.add_comm 1]

theorem saidOf_verbose : saidOf lookup scope .verbose marks =
    .ok (tally (marks.filter (·.1 == .verbose)).length) := by
  have recorded : recordAll scope (tally 0) (marks.filter (·.1 == .verbose)) = _ :=
    recordAll_tally fun _ => item_of_filter
  rw [Nat.zero_add] at recorded
  rw [saidOf_known (by simp [Item.everywhere])]
  exact bind_eq_ok.mpr ⟨_, recorded, rfl⟩

/-- What counts of what the levels come to for an item. -/
def choice (owns : List (List Given)) : Option Given :=
  (owns.reverse.flatten.find? (·.origin == .arguments)) <|> owns.reverse.flatten.head?

theorem chosen?_eq (givens : List (List Given)) (item : Item) :
    chosen? givens item = choice (givens.map (ofItem item)) := by
  rw [choice, ← List.map_reverse]
  rfl

theorem mem_of_choice {owns : List (List Given)} {g : Given} (found : choice owns = some g) :
    ∃ own ∈ owns, g ∈ own := by
  have mem : g ∈ owns.reverse.flatten := by
    unfold choice at found
    cases first : owns.reverse.flatten.find? (·.origin == .arguments) with
    | some other =>
      rw [first] at found
      obtain rfl := Option.some.inj found
      exact List.mem_of_find?_eq_some first
    | none =>
      rw [first] at found
      exact List.mem_of_head? found
  simpa using mem

theorem item_of_chosen? {g : Given} (found : chosen? givens item = some g) : g.item = item := by
  rw [chosen?_eq] at found
  obtain ⟨own, there, mem⟩ := mem_of_choice found
  obtain ⟨given, -, rfl⟩ := List.mem_map.mp there
  simpa using (List.mem_filter.mp mem).2

/-- What the arguments give counts before all else. -/
theorem choice_once {owns : List (List Given)} {g : Given} (there : [g] ∈ owns)
    (argument : g.origin = .arguments)
    (others : ∀ own ∈ owns, own = [g] ∨ ∀ other ∈ own, other.origin = .environment) :
    choice owns = some g := by
  have mem : g ∈ owns.reverse.flatten := by simpa using ⟨[g], there, List.mem_singleton_self g⟩
  have found : owns.reverse.flatten.find? (·.origin == .arguments) = some g := by
    cases found : owns.reverse.flatten.find? (·.origin == .arguments) with
    | none => exact absurd argument (by simpa using List.find?_eq_none.mp found g mem)
    | some other =>
      have arguments : other.origin = .arguments := by simpa using List.find?_some found
      obtain ⟨own, own_there, other_there⟩ :=
        List.mem_flatten.mp (List.mem_of_find?_eq_some found)
      rcases others own (List.mem_reverse.mp own_there) with rfl | environment
      · rw [List.mem_singleton.mp other_there]
      · cases arguments.symm.trans (environment other other_there)
  rw [choice, found]
  rfl

theorem heard_verbose (level : Scope × List Mark) :
    heard lookup .verbose (level.1, level.2.filter (·.1 == .verbose)) =
      tally (level.2.filter (·.1 == .verbose)).length := by
  rw [heard, saidOf_filter, saidOf_verbose]
  rfl

theorem origin_of_tally {n : Nat} {g : Given} (there : g ∈ tally n) : g.origin = .arguments := by
  unfold tally at there
  split at there
  · cases there
  · rw [List.mem_singleton.mp there]

/-- The innermost level that asks for more messages counts. -/
theorem choice_verbose (lookup : String → Option String) (lines : List (Scope × List Mark)) :
    choice ((only .verbose lines).map (heard lookup .verbose)) =
      (tally (loudness lines)).head? := by
  have arguments : ∀ g ∈ ((only .verbose lines).map (heard lookup .verbose)).reverse.flatten,
      (g.origin == .arguments) = true := by
    intro g there
    obtain ⟨own, own_there, there⟩ := List.mem_flatten.mp there
    obtain ⟨restricted, mem, rfl⟩ := List.mem_map.mp (List.mem_reverse.mp own_there)
    obtain ⟨level, -, rfl⟩ := List.mem_map.mp mem
    rw [heard_verbose] at there
    simpa using origin_of_tally there
  have innermost : ((only .verbose lines).map (heard lookup .verbose)).reverse.flatten.head? =
      (tally (loudness lines)).head? := by
    clear arguments
    induction lines with
    | nil => rfl
    | cons level deeper ih =>
      have next : ((only .verbose (level :: deeper)).map (heard lookup .verbose)).reverse.flatten =
          ((only .verbose deeper).map (heard lookup .verbose)).reverse.flatten ++
            tally (level.2.filter (·.1 == .verbose)).length := by
        have own : heard lookup .verbose _ = _ := heard_verbose level
        rw [← own]
        simp [only]
      rw [next, List.head?_append, ih, loudness]
      split
      · rename_i silent
        rw [silent, tally_min]
        rfl
      · rename_i loud
        rw [tally, if_neg loud]
        rfl
  rw [← innermost, choice]
  generalize ((only .verbose lines).map (heard lookup .verbose)).reverse.flatten = all at arguments
  cases all with
  | nil => rfl
  | cons g all =>
    have first : (g :: all).find? (·.origin == .arguments) = some g :=
      List.find?_cons_of_pos (arguments g List.mem_cons_self)
    rw [first]
    rfl

theorem ofItem_chosen (known : item ∈ Item.everywhere) (givens : List (List Given)) :
    ofItem item (chosen givens) = (chosen? givens item).toList := by
  have own : Item.everywhere.filter (· == item) = [item] := @options_filter .program _ known
  have only_own (other : Item) : (chosen? givens other).filter (·.item == item) =
      if other == item then chosen? givens other else none := by
    cases found : chosen? givens other with
    | none => simp
    | some g => simp [Option.filter, item_of_chosen? found]
  rw [ofItem, chosen, List.filter_filterMap]
  simp only [only_own]
  rw [← List.filterMap_filter, own]
  cases found : chosen? givens item with
  | none => simp [found]
  | some g => simp [found]

end

end ScriptSandbox.Proofs.Levels
