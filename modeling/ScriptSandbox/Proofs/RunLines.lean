import ScriptSandbox.Proofs.Acceptance

namespace ScriptSandbox.Proofs.RunLines
open CommandLine Level Grammar Acceptance
open RoundTrip (bind_eq_ok)

/-- What is given of one item. -/
def ofItem (item : Item) (given : List Given) : List Given := given.filter (·.item == item)

section
variable {item other : Item} {given given' : List Given}

theorem has_eq : has given item = !(ofItem item given).isEmpty := by
  induction given with
  | nil => rfl
  | cons g given ih =>
    simp only [has, ofItem, List.any_cons, List.filter_cons] at ih ⊢
    cases g.item == item with
    | true => rfl
    | false => exact ih

@[simp]
theorem ofItem_ofItem : ofItem item (ofItem item given) = ofItem item given := by
  simp [ofItem]

@[simp]
theorem has_ofItem : has (ofItem item given) item = has given item := by
  simp [has_eq]

@[simp]
theorem ofItem_append (given more : List Given) :
    ofItem item (given ++ more) = ofItem item given ++ ofItem item more := List.filter_append _ _

/-- One more of an item that is there. -/
def counted (item : Item) (g : Given) : Given :=
  if g.item = item then { g with times := min countLimit (g.times + 1) } else g

@[simp]
theorem item_counted (g : Given) : (counted item g).item = g.item := by
  unfold counted
  split
  · rfl
  · rfl

@[simp]
theorem ofItem_counted : ofItem other (given.map (counted item)) =
    (ofItem other given).map (counted item) := by
  rw [ofItem, List.filter_map]
  simp only [Function.comp_def, item_counted]
  rfl

@[simp]
theorem ofItem_bump_own : ofItem item (bump given item) = bump (ofItem item given) item := by
  unfold bump
  rw [has_ofItem]
  split
  · exact ofItem_counted
  · simp [ofItem]

theorem ofItem_bump_other (ne : other ≠ item) :
    ofItem other (bump given item) = ofItem other given := by
  unfold bump
  split
  · refine ofItem_counted.trans (List.map_congr_left (g := id) ?_ |>.trans (List.map_id _))
    intro g there
    have is_other : g.item = other := by simpa using (List.mem_filter.mp there).2
    exact if_neg fun same => ne (is_other.symm.trans same)
  · simp [ofItem, ne.symm]

/-- Steps that record one item each, and look at what is given of it only. -/
structure Apart {α : Type} (about : α → Item)
    (step : List Given → α → Except Refusal (List Given)) : Prop where
  own : ∀ a given, step (ofItem (about a) given) a = (step given a).map (ofItem (about a))
  others : ∀ a given given' item, step given a = .ok given' → item ≠ about a →
    ofItem item given' = ofItem item given

section
variable {α : Type} {about : α → Item} {step : List Given → α → Except Refusal (List Given)}
  {start : List Given}

/-- What comes to an item comes of the steps about it. -/
theorem Apart.foldlM_ofItem (apart : Apart about step) (item : Item) {as : List α}
    (done : as.foldlM step start = .ok given) :
    (as.filter (about · == item)).foldlM step (ofItem item start) = .ok (ofItem item given) := by
  induction as generalizing start with
  | nil =>
    obtain rfl := Except.ok.inj done
    rfl
  | cons a as ih =>
    obtain ⟨between, first, rest⟩ := bind_eq_ok.mp done
    by_cases own : about a = item
    · subst own
      have first' := apart.own a start
      rw [first] at first'
      rw [List.filter_cons_of_pos (by simp), List.foldlM_cons, first']
      exact ih rest
    · rw [List.filter_cons_of_neg (by simpa using own), ← apart.others a start between item first
        (Ne.symm own)]
      exact ih rest

/-- Steps succeed if those about each item do. -/
theorem Apart.exists_foldlM (apart : Apart about step) {as : List α}
    (each : ∀ item, ∃ given,
      (as.filter (about · == item)).foldlM step (ofItem item start) = .ok given) :
    ∃ given, as.foldlM step start = .ok given := by
  induction as generalizing start with
  | nil => exact ⟨start, rfl⟩
  | cons a as ih =>
    obtain ⟨given, own⟩ := each (about a)
    rw [List.filter_cons_of_pos (by simp), List.foldlM_cons] at own
    obtain ⟨between', first', rest⟩ := bind_eq_ok.mp own
    rw [apart.own] at first'
    cases first : step start a with
    | error r =>
      rw [first] at first'
      cases first'
    | ok between =>
      rw [first] at first'
      obtain rfl := Except.ok.inj first'
      have others : ∀ item, ∃ given,
          (as.filter (about · == item)).foldlM step (ofItem item between) = .ok given := by
        intro item
        by_cases same : about a = item
        · subst same
          exact ⟨given, rest⟩
        · rw [apart.others a start between item first (Ne.symm same)]
          obtain ⟨given, done⟩ := each item
          rw [List.filter_cons_of_neg (by simpa using same)] at done
          exact ⟨given, done⟩
      obtain ⟨given, done⟩ := ih others
      exact ⟨given, bind_eq_ok.mpr ⟨between, first, done⟩⟩

end

/-- An item that may be given once. -/
def once (given : List Given) (g : Given) (refusal : Refusal) : Except Refusal (List Given) :=
  if has given g.item then .error refusal else .ok (given ++ [g])

theorem ofItem_once (g : Given) (refusal : Refusal) :
    once (ofItem g.item given) g refusal = (once given g refusal).map (ofItem g.item) := by
  unfold once
  rw [has_ofItem]
  split
  · rfl
  · simp [Except.map, ofItem]

theorem ofItem_once_other (g : Given) (refusal : Refusal) (ne : other ≠ g.item)
    (done : once given g refusal = .ok given') : ofItem other given' = ofItem other given := by
  unfold once at done
  split at done
  · cases done
  · obtain rfl := Except.ok.inj done
    simp [ofItem, ne.symm]

theorem apart_record (scope : Scope) (origin : Origin) : Apart Prod.fst
    fun given (m : Mark) => record scope origin m.1 m.2 given := by
  constructor
  · rintro ⟨item, values⟩ given
    dsimp only
    unfold record
    split
    · rfl
    · rfl
    · simp [Except.map]
    · exact ofItem_once ⟨item, origin, 1, []⟩ .conflict
    · split
      · rfl
      · cases values.mapM item.kind.value? with
        | some said => exact ofItem_once ⟨item, origin, 1, said⟩ .conflict
        | none =>
          dsimp only
          rw [has_ofItem]
          split
          · rfl
          · rfl
  · rintro ⟨item, values⟩ given given' other done ne
    dsimp only at done ne
    unfold record at done
    split at done
    · cases done
    · cases done
    · obtain rfl := Except.ok.inj done
      exact ofItem_bump_other ne
    · exact ofItem_once_other ⟨item, origin, 1, []⟩ .conflict ne done
    · split at done
      · cases done
      · cases said : values.mapM item.kind.value? with
        | some said' =>
          rw [said] at done
          exact ofItem_once_other ⟨item, origin, 1, said'⟩ .conflict ne done
        | none =>
          rw [said] at done
          split at done
          · cases done
          · cases done

/-- The environment stands in for an item that is not given. -/
def standIn (scope : Scope) (lookup : String → Option String) (given : List Given) (item : Item) :
    Except Refusal (List Given) :=
  match item.standIn?.bind lookup with
  | some value =>
    if has given item then .ok given else record scope .environment item [value] given
  | none => .ok given

theorem addVariables_eq (scope : Scope) (lookup : String → Option String) (items : List Item)
    (given : List Given) :
    addVariables scope lookup items given = items.foldlM (standIn scope lookup) given := by
  induction items generalizing given with
  | nil => rfl
  | cons item items ih =>
    rw [addVariables, List.foldlM_cons, standIn]
    cases item.standIn?.bind lookup with
    | none => exact ih given
    | some value =>
      dsimp only
      split
      · exact ih given
      · exact bind_congr fun given => ih given

theorem apart_standIn (scope : Scope) (lookup : String → Option String) :
    Apart id (standIn scope lookup) := by
  constructor
  · intro item given
    unfold standIn
    cases item.standIn?.bind lookup with
    | none => rfl
    | some value =>
      simp only [id, has_ofItem]
      split
      · rfl
      · exact (apart_record scope .environment).own (item, [value]) given
  · intro item given given' other done ne
    unfold standIn at done
    cases held : item.standIn?.bind lookup with
    | none =>
      rw [held] at done
      rw [Except.ok.inj done]
    | some value =>
      rw [held] at done
      dsimp only at done
      split at done
      · rw [Except.ok.inj done]
      · exact (apart_record scope .environment).others (item, [value]) given given' other done ne

/-- What marks and variables say of one item. -/
def saidOf (lookup : String → Option String) (scope : Scope) (item : Item) (marks : List Mark) :
    Except Refusal (List Given) := do
  let given ← recordAll scope [] (marks.filter (·.1 == item))
  (scope.options.filter (· == item)).foldlM (standIn scope lookup) given

section
variable {lookup : String → Option String} {scope : Scope} {marks marks' : List Mark}

theorem givenBy_ofItem (item : Item) (filled : givenBy lookup scope [] marks = .ok given) :
    saidOf lookup scope item marks = .ok (ofItem item given) := by
  obtain ⟨said, recorded, completed⟩ := bind_eq_ok.mp filled
  rw [addVariables_eq] at completed
  exact bind_eq_ok.mpr ⟨ofItem item said,
    (apart_record scope .arguments).foldlM_ofItem item recorded,
    (apart_standIn scope lookup).foldlM_ofItem item completed⟩

theorem exists_givenBy (each : ∀ item, ∃ given, saidOf lookup scope item marks = .ok given) :
    ∃ given, givenBy lookup scope [] marks = .ok given := by
  have recorded : ∃ said, recordAll scope [] marks = .ok said := by
    apply (apart_record scope .arguments).exists_foldlM
    intro item
    obtain ⟨given, filled⟩ := each item
    obtain ⟨said, recorded, -⟩ := bind_eq_ok.mp filled
    exact ⟨said, recorded⟩
  obtain ⟨said, recorded⟩ := recorded
  have completed : ∃ given, scope.options.foldlM (standIn scope lookup) said = .ok given := by
    apply (apart_standIn scope lookup).exists_foldlM
    intro item
    obtain ⟨given, filled⟩ := each item
    obtain ⟨said', recorded', completed⟩ := bind_eq_ok.mp filled
    have same := (apart_record scope .arguments).foldlM_ofItem item recorded
    obtain rfl := Except.ok.inj (recorded'.symm.trans same)
    exact ⟨given, completed⟩
  obtain ⟨given, completed⟩ := completed
  exact ⟨given, bind_eq_ok.mpr ⟨said, recorded, (addVariables_eq ..).trans completed⟩⟩

/-- Marks of one item may be replaced by others of the same item. -/
theorem givenBy_replace {item : Item} {said : List Given}
    (filled : givenBy lookup scope [] marks = .ok given)
    (same : ∀ other, other ≠ item → marks'.filter (·.1 == other) = marks.filter (·.1 == other))
    (new : saidOf lookup scope item marks' = .ok said) :
    ∃ given', givenBy lookup scope [] marks' = .ok given' ∧ ofItem item given' = said ∧
      ∀ other, other ≠ item → ofItem other given' = ofItem other given := by
  have others (other : Item) (ne : other ≠ item) :
      saidOf lookup scope other marks' = .ok (ofItem other given) := by
    rw [saidOf, same other ne]
    exact givenBy_ofItem other filled
  have each (other : Item) : ∃ given, saidOf lookup scope other marks' = .ok given := by
    by_cases own : other = item
    · exact ⟨said, own ▸ new⟩
    · exact ⟨_, others other own⟩
  obtain ⟨given', filled'⟩ := exists_givenBy each
  refine ⟨given', filled', ?_, ?_⟩
  · exact Except.ok.inj ((givenBy_ofItem item filled').symm.trans new)
  · intro other ne
    exact Except.ok.inj ((givenBy_ofItem other filled').symm.trans (others other ne))

end

end

/-- The command line that these things make. -/
def lineOf (command : Command) (givens : List (List Given)) : CommandLine where
  command := command
  config := text? (chosen givens) .config
  verbosity := (((chosen givens).find? (·.item == .verbose)).map (·.times)).getD 0
  format := (format? (chosen givens)).getD .text
  overrides := {
    pythonBinary := text? (chosen givens) .pythonBinary
    pythonLibrary := text? (chosen givens) .pythonLibrary
    quickJsBinary := text? (chosen givens) .quickJsBinary
    wasmerBinary := text? (chosen givens) .wasmerBinary }

/-- What comes after the options and the script of a run, and what it says. -/
inductive Tail : List String → List Mark → Prop
  | nothing : Tail [] []
  | dashes : Tail ["--"] []
  | words {word : String} {words : List String} :
      Tail ("--" :: word :: words) [(.args, word :: words)]

/-- A command line to run a script in its parts: what comes before the command's name, the options
and the script, and what comes after two lone dashes. -/
structure RunLine (lookup : String → Option String) (outer front tail : List String)
    (line : CommandLine) (what : RunCommand) (outer_marks marks tail_marks : List Mark)
    (outer_given given : List Given) : Prop where
  outer_reads : ∃ n, Reads .program 0 outer outer_marks n
  reads : ∃ n, Reads .run 0 front marks n
  tail : Tail tail tail_marks
  outer_filled : givenBy lookup .program [] outer_marks = .ok outer_given
  filled : givenBy lookup .run [] (marks ++ tail_marks) = .ok given
  runs : runCommand given = .ok (.run what)
  line_eq : line = lineOf (.run what) [outer_given, given]

section
variable {lookup : String → Option String} {args : List String} {line : CommandLine}
  {what : RunCommand} {given : List Given}

theorem parse_eq_ok : parse lookup args = .ok line ↔ ∃ command givens,
    levels lookup .program {} args = .ok (command, givens) ∧ line = lineOf command givens := by
  unfold parse
  rw [bind_eq_ok]
  constructor
  · rintro ⟨⟨command, givens⟩, read, same⟩
    exact ⟨command, givens, read, (Except.ok.inj same).symm⟩
  · rintro ⟨command, givens, read, rfl⟩
    exact ⟨_, read, rfl⟩

theorem commandOf_eq_run {scope : Scope} (ends : commandOf given scope = .ok (.run what)) :
    scope = .run ∧ runCommand given = .ok (.run what) := by
  cases scope with
  | run => exact ⟨rfl, ends⟩
  | _ => cases ends

theorem mem_of_inside {scope inner : Scope} {name : String}
    (named : scope.inside? name = some inner) : (name, inner) ∈ scope.inside := by
  obtain ⟨entry, found, rfl⟩ := Option.map_eq_some_iff.mp named
  obtain rfl : entry.1 = name := by simpa using List.find?_some found
  exact List.mem_of_find?_eq_some found

theorem program_not_inside (scope : Scope) {name : String} : (name, .program) ∉ scope.inside := by
  cases scope
  all_goals simp [Scope.inside]

theorem inside_eq_run {scope : Scope} {name : String} (known : (name, .run) ∈ scope.inside) :
    scope = .program ∧ name = "run" := by
  cases scope
  all_goals simp [Scope.inside] at known
  exact ⟨rfl, known⟩

/-- The command to run a script is right inside the program. -/
theorem scope_of_run {scope : Scope} {n : Nat} {start : List Given} {givens : List (List Given)}
    {lines : List (Scope × List Mark)} (line : Line scope n args lines)
    (filled : Filled lookup start lines (.run what) givens) : scope = .run ∨ scope = .program := by
  induction line generalizing start givens with
  | ends reads =>
    obtain ⟨_, -, ends, -⟩ := filled_last.mp filled
    exact .inl (commandOf_eq_run ends).1
  | dashes reads =>
    obtain ⟨_, -, ends, -⟩ := filled_last.mp filled
    exact .inl (commandOf_eq_run ends).1
  | trailing reads known =>
    obtain ⟨_, -, ends, -⟩ := filled_last.mp filled
    exact .inl (commandOf_eq_run ends).1
  | enters reads named no_help deeper ih =>
    rename_i scope inner _ _ _ _ _ _ _
    obtain ⟨_, _, rfl⟩ := deeper.exists_first
    obtain ⟨_, _, -, others, -⟩ := filled_more.mp filled
    have known := mem_of_inside named
    rcases ih others with rfl | rfl
    · exact .inr (inside_eq_run known).1
    · exact absurd known (program_not_inside scope)

theorem line_run_iff {n : Nat} {lines : List (Scope × List Mark)} : Line .run n args lines ↔
    ∃ front tail marks tail_marks, args = front ++ tail ∧ (∃ n', Reads .run n front marks n') ∧
      Tail tail tail_marks ∧ lines = [(.run, marks ++ tail_marks)] := by
  constructor
  · intro line
    cases line with
    | ends reads =>
      exact ⟨_, [], _, [], (List.append_nil _).symm, ⟨_, reads⟩, .nothing, by rw [List.append_nil]⟩
    | dashes reads =>
      exact ⟨_, ["--"], _, [], rfl, ⟨_, reads⟩, .dashes, by rw [List.append_nil]⟩
    | trailing reads known =>
      obtain rfl := args_of_trailing known
      exact ⟨_, _, _, _, rfl, ⟨_, reads⟩, .words, rfl⟩
    | enters reads named no_help deeper => cases named
  · rintro ⟨front, tail, marks, tail_marks, rfl, ⟨n', reads⟩, tail, rfl⟩
    cases tail with
    | nothing =>
      rw [List.append_nil, List.append_nil]
      exact .ends reads
    | dashes =>
      rw [List.append_nil]
      exact .dashes reads
    | words => exact .trailing reads rfl

/-- What a command line says that is accepted to run a script. -/
theorem exists_runLine (accepted : parse lookup args = .ok line)
    (command : line.command = .run what) : ∃ outer front tail outer_marks marks tail_marks
      outer_given given, args = outer ++ "run" :: (front ++ tail) ∧
        RunLine lookup outer front tail line what outer_marks marks tail_marks outer_given
          given := by
  obtain ⟨_, givens, read, rfl⟩ := parse_eq_ok.mp accepted
  obtain rfl : _ = Command.run what := command
  obtain ⟨lines, line, filled⟩ := levels_eq_ok.mp read
  cases line with
  | ends reads =>
    obtain ⟨_, -, ends, -⟩ := filled_last.mp filled
    cases ends
  | dashes reads =>
    obtain ⟨_, -, ends, -⟩ := filled_last.mp filled
    cases ends
  | trailing reads known =>
    obtain ⟨_, -, ends, -⟩ := filled_last.mp filled
    cases ends
  | enters outer_reads named no_help deeper =>
    obtain ⟨_, _, rfl⟩ := deeper.exists_first
    obtain ⟨outer_given, _, outer_filled, others, rfl⟩ := filled_more.mp filled
    have known := mem_of_inside named
    rcases scope_of_run deeper others with rfl | rfl
    · obtain rfl := (inside_eq_run known).2
      obtain ⟨front, tail, marks, tail_marks, rfl, reads, tail_tells, same⟩ :=
        line_run_iff.mp deeper
      cases same
      obtain ⟨given, complete, ends, rfl⟩ := filled_last.mp others
      exact ⟨_, front, tail, _, marks, tail_marks, outer_given, given, rfl, ⟨_, outer_reads⟩,
        reads, tail_tells, outer_filled, complete, ends, rfl⟩
    · exact absurd known (program_not_inside _)

theorem parse_runLine {outer front tail : List String} {outer_marks marks tail_marks : List Mark}
    {outer_given given : List Given}
    (runs : RunLine lookup outer front tail line what outer_marks marks tail_marks outer_given
      given) : parse lookup (outer ++ "run" :: (front ++ tail)) = .ok line := by
  obtain ⟨n, outer_reads⟩ := runs.outer_reads
  have inner : Line .run 0 (front ++ tail) [(.run, marks ++ tail_marks)] :=
    line_run_iff.mpr ⟨front, tail, marks, tail_marks, rfl, runs.reads, runs.tail, rfl⟩
  have whole : Line .program 0 (outer ++ "run" :: (front ++ tail))
      [(.program, outer_marks), (.run, marks ++ tail_marks)] :=
    .enters outer_reads rfl (by decide) inner
  exact parse_eq_ok.mpr ⟨.run what, [outer_given, given], levels_eq_ok.mpr ⟨_, whole,
    .more runs.outer_filled (.last runs.filled runs.runs)⟩, runs.line_eq⟩

variable {given' outer_given : List Given} {item : Item}

theorem textsOf_congr (same : ofItem item given' = ofItem item given) :
    textsOf given' item = textsOf given item := by
  have values : valuesOf given' item = valuesOf given item :=
    congrArg (List.flatMap Given.values) same
  rw [textsOf, values, ← textsOf]

theorem text?_congr (same : ofItem item given' = ofItem item given) :
    text? given' item = text? given item := congrArg List.head? (textsOf_congr same)

theorem has_congr (same : ofItem item given' = ofItem item given) :
    has given' item = has given item := by
  rw [has_eq, has_eq, same]

theorem chosen_congr (same : ∀ item ∈ Item.everywhere, ofItem item given' = ofItem item given) :
    chosen [outer_given, given'] = chosen [outer_given, given] := by
  have each (given : List Given) (item : Item) : [outer_given, given].reverse.flatMap
      (·.filter (·.item == item)) = ofItem item given ++ ofItem item outer_given := by
    simp [ofItem]
  have all : Item.everywhere.map (chosen? [outer_given, given']) =
      Item.everywhere.map (chosen? [outer_given, given]) := by
    apply List.map_congr_left
    intro item known
    unfold chosen?
    rw [each, each, same item known]
  have first := List.filterMap_map (f := chosen? [outer_given, given']) (g := id)
    (l := Item.everywhere)
  rw [all, List.filterMap_map] at first
  exact first.symm

/-- What is said of items that only a command knows makes no other difference. -/
theorem lineOf_congr (command command' : Command)
    (same : ∀ item ∈ Item.everywhere, ofItem item given' = ofItem item given) :
    lineOf command' [outer_given, given'] =
      { lineOf command [outer_given, given] with command := command' } := by
  unfold lineOf
  rw [chosen_congr same]

/-- The label and the arguments are only passed on. -/
theorem runCommand_replace (runs : runCommand given = .ok (.run what))
    (same : ∀ item ∉ Item.everywhere, item ≠ .taskId → item ≠ .args →
      ofItem item given' = ofItem item given) :
    runCommand given' = .ok (.run { what with
      taskId := text? given' .taskId
      args := textsOf given' .args }) := by
  have own (item : Item)
      (apart : item ∉ Item.everywhere ∧ item ≠ .taskId ∧ item ≠ .args) :
      ofItem item given' = ofItem item given := same item apart.1 apart.2.1 apart.2.2
  have language : language? given' = language? given :=
    congrArg (fun vs => List.findSome? _ (List.flatMap Given.values vs))
      (own .language (by decide))
  unfold runCommand bothGiven at runs ⊢
  simp only [has_congr (own .script (by decide)),
    has_congr (own .file (by decide)),
    has_congr (own .input (by decide)),
    has_congr (own .inputFile (by decide)), language,
    text?_congr (own .script (by decide)),
    text?_congr (own .file (by decide)),
    text?_congr (own .input (by decide)),
    text?_congr (own .inputFile (by decide))]
  split at runs
  · cases runs
  · rename_i no_conflict
    rw [if_neg no_conflict]
    split at runs
    · cases runs
    · rename_i sourced
      rw [if_neg sourced]
      cases language : language? given with
      | none =>
        rw [language] at runs
        cases runs
      | some l =>
        rw [language] at runs
        cases runs
        rfl

theorem runCommand_fields (runs : runCommand given = .ok (.run what)) :
    what.taskId = text? given .taskId ∧ what.args = textsOf given .args := by
  have again : runCommand given = _ := runCommand_replace runs fun _ _ _ _ => rfl
  rw [runs] at again
  injection again with again
  injection again with again
  constructor
  · exact congrArg RunCommand.taskId again
  · exact congrArg RunCommand.args again

/-- What is said of items that every command knows makes no difference to the run. -/
theorem runCommand_congr (runs : runCommand given = .ok (.run what))
    (same : ∀ item ∉ Item.everywhere, ofItem item given' = ofItem item given) :
    runCommand given' = .ok (.run what) := by
  rw [runCommand_replace runs fun item own _ _ => same item own,
    text?_congr (same .taskId (by decide)), textsOf_congr (same .args (by decide)),
    ← (runCommand_fields runs).1, ← (runCommand_fields runs).2]

end

section
variable {lookup : String → Option String} {scope : Scope} {item : Item} {given : List Given}
  {marks : List Mark}

/-- What is given of an item whose values are texts. -/
def textsGiven (item : Item) (values : List String) : Given where
  item := item
  values := values.map .text

/-- What takes values is given once, by some that can be read. -/
theorem record_values {origin : Origin} (takes : item.kind.takesValue = true)
    (values : List String) : record scope origin item values given =
      if values.isEmpty then .error .invalidValue
      else if has given item then .error .conflict
      else
        match values.mapM item.kind.value? with
        | some said => .ok (given ++ [⟨item, origin, 1, said⟩])
        | none => .error .invalidValue := by
  unfold record
  generalize item.kind = kind at takes
  cases kind with
  | help | version | count | switch => cases takes
  | path | text | language | format => rfl

theorem record_text (text : item.kind = .text) (values : List String) :
    record scope .arguments item values given =
      if values.isEmpty then .error .invalidValue
      else if has given item then .error .conflict
      else .ok (given ++ [textsGiven item values]) := by
  have all : values.mapM (Kind.value? .text) = some (values.map .text) := List.mapM_pure
  rw [record_values (by rw [text]; rfl), text, all]
  rfl

theorem foldlM_standIn {items : List Item} (alone : ∀ item ∈ items, item.standIn? = none) :
    items.foldlM (standIn scope lookup) given = .ok given := by
  induction items with
  | nil => rfl
  | cons other items ih =>
    rw [List.foldlM_cons, standIn, alone other List.mem_cons_self]
    exact ih fun other there => alone other (List.mem_cons_of_mem _ there)

theorem filter_standIn (alone : item.standIn? = none) :
    (scope.options.filter (· == item)).foldlM (standIn scope lookup) given = .ok given := by
  apply foldlM_standIn
  intro other there
  obtain rfl : other = item := by simpa using (List.mem_filter.mp there).2
  exact alone

/-- The values of a path or of a text are texts. -/
theorem values_textual {kind : Kind} (textual : kind = .path ∨ kind = .text) {values : List String}
    {said : List Value} (read : values.mapM kind.value? = some said) :
    said = values.map .text := by
  have each {s : String} {v : Value} (known : kind.value? s = some v) : v = .text s := by
    rcases textual with rfl | rfl
    · simp only [Kind.value?] at known
      split at known
      · cases known
      · exact (Option.some.inj known).symm
    · exact (Option.some.inj known).symm
  induction values generalizing said with
  | nil => exact (Option.some.inj read).symm
  | cons s values ih =>
    simp only [List.mapM_cons, bind, Option.bind_eq_some_iff] at read
    obtain ⟨v, known, others, rest, same⟩ := read
    rw [← Option.some.inj same, each known, ih rest, List.map_cons]

theorem record_textual (textual : item.kind = .path ∨ item.kind = .text) {values : List String}
    {given' : List Given} (recorded : record scope .arguments item values given = .ok given') :
    values ≠ [] ∧ has given item = false ∧ given' = given ++ [textsGiven item values] := by
  have takes : item.kind.takesValue = true := by
    rcases textual with kind | kind
    · exact congrArg Kind.takesValue kind
    · exact congrArg Kind.takesValue kind
  rw [record_values takes] at recorded
  split at recorded
  · cases recorded
  · rename_i some_values
    split at recorded
    · cases recorded
    · rename_i fresh
      split at recorded
      · rename_i said read
        obtain rfl := values_textual textual read
        exact ⟨by simpa using some_values, by simpa using fresh, (Except.ok.inj recorded).symm⟩
      · cases recorded

/-- An item whose values are texts is given once, with some values, or not at all. -/
theorem said_textual (textual : item.kind = .path ∨ item.kind = .text)
    (alone : item.standIn? = none) (said : saidOf lookup scope item marks = .ok given) :
    (marks.filter (·.1 == item) = [] ∧ given = []) ∨ ∃ values, values ≠ [] ∧
      marks.filter (·.1 == item) = [(item, values)] ∧ given = [textsGiven item values] := by
  have own : ∀ m ∈ marks.filter (·.1 == item), m.1 = item := by
    intro m there
    simpa using (List.mem_filter.mp there).2
  unfold saidOf at said
  generalize marks.filter (·.1 == item) = own_marks at own said ⊢
  simp only [bind_eq_ok, filter_standIn alone] at said
  obtain ⟨_, recorded, same⟩ := said
  obtain rfl := Except.ok.inj same
  cases own_marks with
  | nil => exact .inl ⟨rfl, (Except.ok.inj recorded).symm⟩
  | cons m others =>
    obtain ⟨first_item, values⟩ := m
    obtain rfl : first_item = item := own _ List.mem_cons_self
    obtain ⟨first, recorded, rest⟩ := bind_eq_ok.mp recorded
    obtain ⟨some_values, -, rfl⟩ := record_textual textual recorded
    cases others with
    | nil => exact .inr ⟨values, some_values, rfl, (Except.ok.inj rest).symm⟩
    | cons m others =>
      obtain ⟨second_item, more⟩ := m
      obtain rfl : second_item = first_item := own _ (List.mem_cons_of_mem _ List.mem_cons_self)
      obtain ⟨second, again, -⟩ := bind_eq_ok.mp rest
      obtain ⟨-, fresh, -⟩ := record_textual textual again
      simp [has, textsGiven] at fresh

/-- Any texts may be said of an item that takes every text. -/
theorem saidOf_text (text : item.kind = .text) (alone : item.standIn? = none) :
    saidOf lookup scope item marks = .ok given ↔
      (marks.filter (·.1 == item) = [] ∧ given = []) ∨ ∃ values, values ≠ [] ∧
        marks.filter (·.1 == item) = [(item, values)] ∧ given = [textsGiven item values] := by
  constructor
  · exact said_textual (.inr text) alone
  · unfold saidOf
    simp only [bind_eq_ok, filter_standIn alone]
    rintro (⟨none_left, rfl⟩ | ⟨values, some_values, once, rfl⟩)
    · exact ⟨[], by rw [none_left]; rfl, rfl⟩
    · refine ⟨_, ?_, rfl⟩
      rw [once, recordAll_singleton, record_text text, if_neg (by simpa using some_values),
        if_neg (by simp [has])]
      rfl

theorem textsOf_given {values : List String} (said : ofItem item given = [textsGiven item values]) :
    textsOf given item = values := by
  have all : valuesOf given item = values.map .text :=
    (congrArg (List.flatMap Given.values) said).trans (List.append_nil _)
  rw [textsOf, all, List.filterMap_map]
  exact List.filterMap_some

theorem text?_nothing (said : ofItem item given = []) : text? given item = none := by
  have all : valuesOf given item = [] := congrArg (List.flatMap Given.values) said
  rw [text?, textsOf, all]
  rfl

/-- What an option says that stands with its value in one argument, after an equals sign. -/
theorem tells_attached (name : String) {option : String}
    (text : option.toList = '-' :: '-' :: (name.toList ++ ['='])) (plain : '=' ∉ name.toList)
    (value : String) : tells scope (option ++ value) =
      match scope.named? name with
      | none => none
      | some item => if item.kind.takesValue then some ([(item, [value])], none) else none := by
  have spelled : (option ++ value).toList = '-' :: '-' :: (name.toList ++ '=' :: value.toList) := by
    rw [String.toList_append, text]
    simp
  have before : ∀ c ∈ name.toList, (c != '=') = true := by
    intro c there
    simp only [bne_iff_ne, ne_eq]
    rintro rfl
    exact plain there
  have cut : cutAtEquals (name.toList ++ '=' :: value.toList) = (name, some value) := by
    unfold cutAtEquals
    rw [List.takeWhile_append_of_pos before, List.dropWhile_append_of_pos before]
    simp
  have named : tells scope (option ++ value) =
      namedTells scope (name.toList ++ '=' :: value.toList) := by
    unfold tells
    rw [spelled]
    cases name.toList with
    | nil => rfl
    | cons c cs => rfl
  rw [named, namedTells, cut]
  cases scope.named? name with
  | none => rfl
  | some item =>
    dsimp only
    cases item.kind.takesValue with
    | true => rfl
    | false => rfl

theorem tells_label (label : String) :
    tells .run ("--task-id=" ++ label) = some ([(.taskId, [label])], none) :=
  tells_attached "task-id" rfl (by decide) label

theorem tells_label_program (label : String) : tells .program ("--task-id=" ++ label) = none :=
  tells_attached "task-id" rfl (by decide) label

theorem Tail.stops {tail : List String} (after : Tail tail marks) : Stops .run tail := by
  cases after with
  | nothing => trivial
  | dashes => exact ⟨rfl, fun word => absurd word not_isWord_dashes⟩
  | words => exact ⟨rfl, fun word => absurd word not_isWord_dashes⟩

/-- Here an option of a run may stand. -/
def Place (front : List String) : Prop :=
  ∃ outer own outer_marks marks n n', front = outer ++ "run" :: own ∧
    Reads .program 0 outer outer_marks n ∧ Reads .run 0 own marks n'

theorem stops_run (args : List String) : Stops .program ("run" :: args) :=
  ⟨rfl, fun _ => by decide⟩

theorem outer_unique {n n' : Nat} {outer outer' args args' : List String}
    {outer_marks outer_marks' : List Mark} (reads : Reads .program 0 outer outer_marks n)
    (reads' : Reads .program 0 outer' outer_marks' n')
    (same : outer ++ "run" :: args = outer' ++ "run" :: args') : outer = outer' ∧ args = args' := by
  obtain ⟨rest, _, rfl, -, again, more⟩ := reads.rest reads' (stops_run args') same
  cases rest with
  | nil => exact ⟨(List.append_nil _).symm, (List.cons.inj again).2⟩
  | cons arg rest =>
    obtain ⟨rfl, -⟩ := List.cons.inj again
    exact absurd more (not_reads_of_stops (stops_run rest))

theorem Tail.head {tail : List String} {arg : String} {args : List String}
    (after : Tail tail marks) (same : tail = arg :: args) : arg = "--" := by
  cases after with
  | nothing => cases same
  | dashes => exact (List.cons.inj same).1.symm
  | words => exact (List.cons.inj same).1.symm

/-- An option that only a run has stands among the run's own options, unless it comes after two lone
dashes. -/
theorem own_of_option {n : Nat} {outer front tail before back : List String} {option : String}
    {outer_marks tail_marks : List Mark} (outer_reads : Reads .program 0 outer outer_marks n)
    (reads : ∃ n, Reads .run 0 front marks n) (after : Tail tail tail_marks)
    (no_word : ¬ IsWord option)
    (other : option ≠ "--") (unknown : tells .program option = none) (open_still : "--" ∉ before)
    (same : outer ++ "run" :: (front ++ tail) = before ++ option :: back) :
    ∃ own rest, before = outer ++ "run" :: own ∧ front = own ++ option :: rest ∧
      back = rest ++ tail := by
  have not_run : option ≠ "run" :=
    fun named => no_word (named ▸ (by decide : IsWord "run"))
  rcases List.append_eq_append_iff.mp same with ⟨more, rfl, inner⟩ | ⟨more, rfl, inner⟩
  · cases more with
    | nil => exact absurd (List.cons.inj inner).1.symm not_run
    | cons first own =>
      obtain ⟨rfl, behind⟩ := List.cons.inj inner
      rcases List.append_eq_append_iff.mp behind with ⟨more, rfl, ends⟩ | ⟨more, rfl, ends⟩
      · -- The option would come after the dashes.
        cases more with
        | nil => exact absurd (after.head ends) other
        | cons dashes more =>
          obtain rfl := after.head ends
          exact absurd (by simp) open_still
      · cases more with
        | nil => exact absurd (after.head ends.symm) other
        | cons second rest =>
          obtain ⟨rfl, rfl⟩ := List.cons.inj ends
          exact ⟨own, rest, rfl, rfl, rfl⟩
  · cases more with
    | nil => exact absurd (List.cons.inj inner).1 not_run
    | cons first more =>
      obtain ⟨rfl, -⟩ := List.cons.inj inner
      obtain ⟨_, _, _, -, -, rest⟩ := outer_reads.before no_word
      have stops : Stops .program (option :: more) := ⟨unknown, fun word => absurd word no_word⟩
      exact absurd rest (not_reads_of_stops stops)

theorem not_isWord_label (label : String) : ¬ IsWord ("--task-id=" ++ label) :=
  (not_isWord_of_tells (tells_label label)).1

theorem label_ne_dashes (label : String) : "--task-id=" ++ label ≠ "--" :=
  (not_isWord_of_tells (tells_label label)).2

/-- The same arguments but for the label, which is given like this or not at all before. -/
inductive Relabelled (label : String) (what : RunCommand) : List String → List String → Prop
  | attached {front back : List String} {old : String} (open_still : "--" ∉ front) :
      Relabelled label what (front ++ ("--task-id=" ++ old) :: back)
        (front ++ ("--task-id=" ++ label) :: back)
  | separate {front back : List String} {old : String} (open_still : "--" ∉ front) :
      Relabelled label what (front ++ "--task-id" :: old :: back)
        (front ++ ("--task-id=" ++ label) :: back)
  | added {front back : List String} (place : Place front) (missing : what.taskId = none) :
      Relabelled label what (front ++ back) (front ++ ("--task-id=" ++ label) :: back)

/-- What the run is called then. -/
def named (line : CommandLine) (what : RunCommand) (label : String) : CommandLine :=
  { line with command := .run { what with taskId := some label } }

section
variable {lookup : String → Option String} {line : CommandLine} {what : RunCommand}
  {outer front front' tail : List String} {outer_marks before old after tail_marks : List Mark}
  {outer_given given : List Given} {label : String}

theorem ne_of_everywhere {item : Item} (known : item ∈ Item.everywhere) :
    item ≠ .taskId ∧ item ≠ .args := by
  revert item
  decide

/-- The label is said where it is replaced, or else nowhere. -/
theorem RunLine.label_alone
    (runs : RunLine lookup outer front tail line what outer_marks (before ++ old ++ after)
      tail_marks outer_given given)
    (replaced : (∃ values, old = [(.taskId, values)]) ∨ old = [] ∧ what.taskId = none) :
    (before ++ after ++ tail_marks).filter (·.1 == .taskId) = [] := by
  have said := givenBy_ofItem .taskId runs.filled
  rw [saidOf_text rfl rfl] at said
  rcases said with ⟨none_said, -⟩ | ⟨values, some_values, once, said⟩
  · simp only [List.filter_append, List.append_eq_nil_iff] at none_said ⊢
    exact ⟨⟨none_said.1.1.1, none_said.1.2⟩, none_said.2⟩
  · rcases replaced with ⟨values', rfl⟩ | ⟨rfl, missing⟩
    · have length := congrArg List.length once
      simp only [List.filter_append, List.length_append] at length
      rw [List.filter_cons_of_pos rfl] at length
      apply List.eq_nil_of_length_eq_zero
      simp only [List.filter_append, List.length_append]
      simp only [List.filter_nil, List.length_cons, List.length_nil] at length
      omega
    · have label := (runCommand_fields runs.runs).1
      rw [missing, text?, textsOf_given said] at label
      exact absurd (List.head?_eq_none_iff.mp label.symm) some_values

/-- Marks of the label may be replaced by another one. -/
theorem RunLine.relabel
    (runs : RunLine lookup outer front tail line what outer_marks (before ++ old ++ after)
      tail_marks outer_given given)
    (replaced : (∃ values, old = [(.taskId, values)]) ∨ old = [] ∧ what.taskId = none)
    (reads : ∃ n, Reads .run 0 front' (before ++ [(.taskId, [label])] ++ after) n) :
    parse lookup (outer ++ "run" :: (front' ++ tail)) = .ok (named line what label) := by
  have alone := runs.label_alone replaced
  simp only [List.filter_append, List.append_eq_nil_iff] at alone
  have new : saidOf lookup .run .taskId (before ++ [(.taskId, [label])] ++ after ++ tail_marks) =
      .ok [textsGiven .taskId [label]] := by
    refine (saidOf_text rfl rfl).mpr (.inr ⟨[label], List.cons_ne_nil _ _, ?_, rfl⟩)
    simp [List.filter_append, alone]
  have kept : ∀ other, other ≠ .taskId →
      (before ++ [((.taskId : Item), [label])] ++ after ++ tail_marks).filter (·.1 == other) =
        (before ++ old ++ after ++ tail_marks).filter (·.1 == other) := by
    intro other ne
    rcases replaced with ⟨values, rfl⟩ | ⟨rfl, -⟩
    · simp [List.filter_append, ne.symm]
    · simp [List.filter_append, ne.symm]
  obtain ⟨given', filled, said, others⟩ := givenBy_replace runs.filled kept new
  have same : ∀ item, item ≠ .taskId → item ≠ .args → ofItem item given' = ofItem item given :=
    fun item ne _ => others item ne
  have command := runCommand_replace runs.runs fun item _ => same item
  rw [text?, textsOf_given said, textsOf_congr (others .args (by decide)),
    ← (runCommand_fields runs.runs).2] at command
  refine parse_runLine ⟨runs.outer_reads, reads, runs.tail, runs.outer_filled,
    filled, command, ?_⟩
  rw [lineOf_congr (.run what) _ fun item known => same item (ne_of_everywhere known).1
    (ne_of_everywhere known).2, ← runs.line_eq]
  rfl

/-- The label is said anew between what is read before it and what is read after it. -/
theorem RunLine.relabel_at {own rest : List String} {middle n' : Nat} (old : List Mark)
    (runs : RunLine lookup outer front tail line what outer_marks (before ++ (old ++ after))
      tail_marks outer_given given)
    (replaced : (∃ values, old = [(.taskId, values)]) ∨ old = [] ∧ what.taskId = none)
    (own_reads : Reads .run 0 own before middle) (others : Reads .run middle rest after n') :
    parse lookup ((outer ++ "run" :: own) ++ ("--task-id=" ++ label) :: (rest ++ tail)) =
      .ok (named line what label) := by
  rw [← List.append_assoc] at runs
  have reads := own_reads.append (.option (tells_label label) others)
  rw [← List.append_assoc] at reads
  have parsed := runs.relabel replaced ⟨_, reads⟩
  simpa only [List.append_assoc, List.cons_append] using parsed

/-- Another label for a run is all that is different on the command line that it makes. -/
theorem parse_relabelled {args args' : List String} (accepted : parse lookup args = .ok line)
    (command : line.command = .run what) (relabelled : Relabelled label what args args') :
    parse lookup args' = .ok (named line what label) := by
  obtain ⟨outer, front, tail, _, marks, tail_marks, _, _, same, runs⟩ :=
    exists_runLine accepted command
  obtain ⟨_, outer_reads⟩ := runs.outer_reads
  obtain ⟨_, reads⟩ := runs.reads
  cases relabelled with
  | @attached _ _ old open_still =>
    obtain ⟨own, rest, rfl, rfl, rfl⟩ := own_of_option outer_reads runs.reads runs.tail
      (not_isWord_label _) (label_ne_dashes _) (tells_label_program _) open_still same.symm
    obtain ⟨before, _, _, rfl, own_reads, option⟩ := reads.before (not_isWord_label old)
    cases option with
    | option said others =>
      cases said.symm.trans (tells_label old)
      exact runs.relabel_at _ (.inl ⟨_, rfl⟩) own_reads others
    | value said word others => cases said.symm.trans (tells_label old)
    | word is_word stays place others => exact absurd is_word (not_isWord_label old)
  | @separate _ _ old open_still =>
    have no_word : ¬ IsWord "--task-id" := fun word => word '-' _ rfl
    have tells_it : tells .run "--task-id" = some ([], some .taskId) := rfl
    obtain ⟨own, rest, rfl, rfl, ends⟩ := own_of_option outer_reads runs.reads runs.tail
      no_word (by decide) rfl open_still same.symm
    obtain ⟨before, _, _, rfl, own_reads, option⟩ := reads.before no_word
    cases option with
    | option said others => cases said.symm.trans tells_it
    | value said word others =>
      cases said.symm.trans tells_it
      obtain ⟨rfl, rfl⟩ := List.cons.inj ends
      exact runs.relabel_at [(.taskId, [_])] (.inl ⟨_, rfl⟩) own_reads others
    | word is_word stays place others => exact absurd is_word no_word
  | @added _ back place missing =>
    obtain ⟨outer', own, _, before, _, _, rfl, outer_reads', own_reads⟩ := place
    rw [List.append_assoc, List.cons_append] at same
    obtain ⟨rfl, inner⟩ := outer_unique outer_reads' outer_reads same
    obtain ⟨rest, after, rfl, rfl, rfl, others⟩ := own_reads.rest reads runs.tail.stops inner
    exact runs.relabel_at [] (.inr ⟨rfl, missing⟩) own_reads others

/-- The same arguments but for those after two lone dashes. -/
def withTail (args texts : List String) : List String :=
  args.takeWhile (· ≠ "--") ++ "--" :: texts

theorem exists_tail (texts : List String) : ∃ marks, Tail ("--" :: texts) marks ∧
    (texts = [] ∧ marks = [] ∨ texts ≠ [] ∧ marks = [(.args, texts)]) := by
  cases texts with
  | nil => exact ⟨[], .dashes, .inl ⟨rfl, rfl⟩⟩
  | cons word words => exact ⟨_, .words, .inr ⟨List.cons_ne_nil _ _, rfl⟩⟩

theorem Tail.marks_args (after : Tail tail tail_marks) {item : Item} (ne : item ≠ .args) :
    tail_marks.filter (·.1 == item) = [] := by
  cases after with
  | nothing => rfl
  | dashes => rfl
  | words => simp [ne.symm]

theorem takeWhile_parts (no_dashes : "--" ∉ front) (after : Tail tail tail_marks) :
    (front ++ tail).takeWhile (· ≠ "--") = front := by
  rw [List.takeWhile_append_of_pos]
  · cases after with
    | nothing => exact List.append_nil _
    | dashes => simp
    | words => simp
  · intro arg there
    simp only [ne_eq, decide_eq_true_eq]
    rintro rfl
    exact no_dashes there

/-- Whatever comes after two lone dashes is all that is different on the command line. -/
theorem parse_withTail {args : List String} (accepted : parse lookup args = .ok line)
    (command : line.command = .run what) (texts : List String) :
    parse lookup (withTail args texts) =
      .ok { line with command := .run { what with args := texts } } := by
  obtain ⟨outer, front, tail, _, marks, tail_marks, _, given, rfl, runs⟩ :=
    exists_runLine accepted command
  obtain ⟨_, outer_reads⟩ := runs.outer_reads
  obtain ⟨_, reads⟩ := runs.reads
  have no_dashes : "--" ∉ outer ++ "run" :: front := by
    simp [outer_reads.no_dashes, reads.no_dashes]
  have start : withTail (outer ++ "run" :: (front ++ tail)) texts =
      outer ++ "run" :: (front ++ "--" :: texts) := by
    have parts := takeWhile_parts no_dashes runs.tail
    simp only [List.append_assoc, List.cons_append] at parts
    rw [withTail, parts]
    simp
  obtain ⟨new_marks, new_tail, new⟩ := exists_tail texts
  have none_before : marks.filter (·.1 == .args) = [] := by
    apply List.filter_eq_nil_iff.mpr
    intro m there
    simpa using reads.no_args m there
  have kept : ∀ other, other ≠ .args → (marks ++ new_marks).filter (·.1 == other) =
      (marks ++ tail_marks).filter (·.1 == other) := by
    intro other ne
    rw [List.filter_append, List.filter_append, new_tail.marks_args ne, runs.tail.marks_args ne]
  have said : ∃ given, saidOf lookup .run .args (marks ++ new_marks) = .ok given ∧
      ∀ given', ofItem .args given' = given → textsOf given' .args = texts := by
    rcases new with ⟨rfl, rfl⟩ | ⟨some_texts, rfl⟩
    · refine ⟨[], (saidOf_text rfl rfl).mpr (.inl ⟨by simp [none_before], rfl⟩), ?_⟩
      intro given' said
      exact List.head?_eq_none_iff.mp (text?_nothing said)
    · refine ⟨_, (saidOf_text rfl rfl).mpr (.inr ⟨texts, some_texts, ?_, rfl⟩), ?_⟩
      · simp [none_before]
      · exact fun given' said => textsOf_given said
  obtain ⟨_, new_said, new_texts⟩ := said
  obtain ⟨given', filled, said, others⟩ := givenBy_replace runs.filled kept new_said
  have same : ∀ item, item ≠ .taskId → item ≠ .args → ofItem item given' = ofItem item given :=
    fun item _ ne => others item ne
  have command := runCommand_replace runs.runs fun item _ => same item
  rw [new_texts given' said, text?_congr (others .taskId (by decide)),
    ← (runCommand_fields runs.runs).1] at command
  rw [start]
  refine parse_runLine ⟨runs.outer_reads, runs.reads, new_tail,
    runs.outer_filled, filled, command, ?_⟩
  rw [lineOf_congr (.run what) _ fun item known => same item (ne_of_everywhere known).1
    (ne_of_everywhere known).2, ← runs.line_eq]

end

end

end ScriptSandbox.Proofs.RunLines
