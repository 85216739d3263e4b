import ScriptSandbox.Proofs.Levels

namespace ScriptSandbox.Proofs.Everywhere
open CommandLine Level Grammar Acceptance RunLines Levels
open RoundTrip (bind_eq_ok)

/-- The levels say the same of each item, or else every command knows the item, it is given once at
most, and what is said of it may stand on another level. More messages may be asked for anywhere. -/
structure Resaid (lines lines' : List (Scope × List Mark)) : Prop where
  scopes : lines'.map Prod.fst = lines.map Prod.fst
  items : ∀ item, item ≠ .verbose → only item lines' = only item lines ∨
    item ∈ Item.everywhere ∧ said item lines' = said item lines ∧ (said item lines).length ≤ 1

section
variable {lookup : String → Option String} {item : Item} {given given' : List Given}
  {lines lines' : List (Scope × List Mark)} {givens givens' : List (List Given)}
  {command : Command} {mark : Mark}

theorem mem_of_flatten {α : Type} {xs ys : List (List α)} {x : α} (once : xs.flatten = [x])
    (once' : ys.flatten = [x]) (length : ys.length = xs.length) {y : List α} (there : y ∈ ys) :
    y ∈ xs := by
  obtain ⟨before, after, rfl, before_nil, after_nil⟩ := List.flatten_eq_singleton_iff.mp once
  obtain ⟨before', after', rfl, before_nil', after_nil'⟩ := List.flatten_eq_singleton_iff.mp once'
  have empty (rest : y ∈ before' ∨ y ∈ after') : y ∈ before ++ [x] :: after := by
    have nil : y = [] := rest.elim (before_nil' y) (after_nil' y)
    have others' : 0 < (before' ++ after').length :=
      List.length_pos_iff_exists_mem.mpr ⟨y, List.mem_append.mpr rest⟩
    have others : 0 < (before ++ after).length := by
      simp only [List.length_append, List.length_cons] at length others' ⊢
      omega
    obtain ⟨z, there⟩ := List.length_pos_iff_exists_mem.mp others
    have nil' : z = [] := (List.mem_append.mp there).elim (before_nil z) (after_nil z)
    rw [nil, ← nil']
    exact List.mem_append.mpr ((List.mem_append.mp there).imp_right (List.mem_cons_of_mem _))
  simp only [List.mem_append, List.mem_cons] at there
  rcases there with there | rfl | there
  · exact empty (.inl there)
  · simp
  · exact empty (.inr there)

theorem only_of_nothing (nothing : said item lines = []) :
    only item lines = (lines.map Prod.fst).map (·, []) := by
  induction lines with
  | nil => rfl
  | cons level lines ih =>
    obtain ⟨own, others⟩ := List.append_eq_nil_iff.mp nothing
    have first : (level.1, level.2.filter (·.1 == item)) = (level.1, []) :=
      congrArg (level.1, ·) own
    rw [List.map_cons, List.map_cons, ← ih others, ← first]
    rfl

theorem Resaid.only_or (resaid : Resaid lines lines') (counted : item ≠ .verbose) :
    only item lines' = only item lines ∨ item ∈ Item.everywhere ∧
      ∃ values, said item lines = [(item, values)] ∧ said item lines' = [(item, values)] := by
  rcases resaid.items item counted with same | ⟨known, same, at_most⟩
  · exact .inl same
  · cases all : said item lines with
    | nil =>
      rw [all] at same
      rw [only_of_nothing all, only_of_nothing same, resaid.scopes]
      exact .inl rfl
    | cons mark others =>
      rw [all] at same at_most
      obtain rfl : others = [] := by simpa using at_most
      have there : mark ∈ said item lines := by simp [all]
      have own : mark.1 = item := item_of_said there
      obtain ⟨_, values⟩ := mark
      obtain rfl := own
      exact .inr ⟨known, values, rfl, same⟩

theorem exists_level_once (once : said item lines = [mark]) :
    ∃ level ∈ lines, level.2.filter (·.1 == item) = [mark] := by
  have parts : ((only item lines).map Prod.snd).flatten = [mark] := once
  obtain ⟨before, after, owns, -, -⟩ := List.flatten_eq_singleton_iff.mp parts
  have there : [mark] ∈ (only item lines).map Prod.snd := by simp [owns]
  simpa [only] using there

/-- Where an item is not said that is said once, nothing is. -/
theorem level_of_once (once : said item lines = [mark]) {level : Scope × List Mark}
    (there : level ∈ lines) : level.2.filter (·.1 == item) = [mark] ∨
      level.2.filter (·.1 == item) = [] := by
  have parts : ((only item lines).map Prod.snd).flatten = [mark] := once
  obtain ⟨before, after, owns, before_nil, after_nil⟩ := List.flatten_eq_singleton_iff.mp parts
  have mem : level.2.filter (·.1 == item) ∈ (only item lines).map Prod.snd := by
    simpa [only] using ⟨level.1, level.2, there, rfl⟩
  rw [owns] at mem
  rcases List.mem_append.mp mem with mem | mem
  · exact .inr (before_nil _ mem)
  rcases List.mem_cons.mp mem with same | mem
  · exact .inl same
  · exact .inr (after_nil _ mem)

/-- What is said of an item on a level has been recorded. -/
theorem saidOf_level (all : AllGiven lookup lines givens) {level : Scope × List Mark}
    (there : level ∈ lines) (item : Item) : saidOf lookup level.1 item level.2 =
      .ok (heard lookup item (level.1, level.2.filter (·.1 == item))) := by
  obtain ⟨given, filled⟩ := exists_given all there
  rw [heard, saidOf_filter, givenBy_ofItem item filled]
  rfl

/-- An item that is said once counts from where it is said. -/
theorem chosen?_once (all : AllGiven lookup lines givens) (known : item ∈ Item.everywhere)
    (counted : item ≠ .verbose) {values : List String} (once : said item lines = [(item, values)]) :
    item.kind.takesValue = true ∧ ∃ read, values.mapM item.kind.value? = some read ∧
      chosen? givens item = some ⟨item, .arguments, 1, read⟩ := by
  obtain ⟨level, there, own⟩ := exists_level_once once
  obtain ⟨takes, read, same, heard_once⟩ := saidOf_once known counted own (saidOf_level all there _)
  refine ⟨takes, read, same, ?_⟩
  rw [chosen?_eq, ofItem_levels all]
  apply choice_once _ rfl
  · intro own mem
    obtain ⟨restricted, restricted_mem, rfl⟩ := List.mem_map.mp mem
    obtain ⟨level, there, rfl⟩ := List.mem_map.mp restricted_mem
    rcases level_of_once once there with own | own
    · obtain ⟨-, read', same', heard_once'⟩ :=
        saidOf_once known counted own (saidOf_level all there _)
      obtain rfl := Option.some.inj (same.symm.trans same')
      exact .inl heard_once'
    · exact .inr (origin_of_nothing known takes own (saidOf_level all there _))
  · rw [← heard_once]
    exact List.mem_map_of_mem (List.mem_map_of_mem there)

/-- What can be recorded where it is said can be recorded on the other level. -/
theorem Resaid.exists_allGiven (resaid : Resaid lines lines') (all : AllGiven lookup lines givens) :
    ∃ givens', AllGiven lookup lines' givens' := by
  refine Levels.exists_allGiven fun level there => exists_givenBy fun item => ?_
  by_cases counted : item = .verbose
  · exact ⟨_, counted ▸ saidOf_verbose⟩
  rcases resaid.only_or counted with same | ⟨known, values, once, once'⟩
  · have mem : (level.1, level.2.filter (·.1 == item)) ∈ only item lines' :=
      List.mem_map_of_mem there
    rw [same] at mem
    obtain ⟨level', there', same⟩ := List.mem_map.mp mem
    obtain ⟨scope, marks⟩ := Prod.mk.inj same
    refine ⟨_, Eq.trans ?_ (saidOf_level all there' item)⟩
    rw [← saidOf_filter, ← marks, saidOf_filter, scope]
  · have length : ((only item lines').map Prod.snd).length =
        ((only item lines).map Prod.snd).length := by
      simpa [only] using congrArg List.length resaid.scopes
    have mem : level.2.filter (·.1 == item) ∈ (only item lines').map Prod.snd := by
      simpa [only] using ⟨level.1, level.2, there, rfl⟩
    obtain ⟨_, mem', marks⟩ := List.mem_map.mp (mem_of_flatten once once' length mem)
    obtain ⟨level', there', rfl⟩ := List.mem_map.mp mem'
    obtain ⟨_, there_once, own⟩ := exists_level_once once
    have takes := (saidOf_once known counted own (saidOf_level all there_once _)).1
    have other : item ≠ .version := by
      rintro rfl
      cases takes
    refine ⟨_, Eq.trans ?_ (saidOf_level all there' item)⟩
    rw [← saidOf_filter, ← marks, saidOf_filter, saidOf_scope known other]

theorem Resaid.chosen?_eq (resaid : Resaid lines lines') (all : AllGiven lookup lines givens)
    (all' : AllGiven lookup lines' givens') (known : item ∈ Item.everywhere)
    (counted : item ≠ .verbose) : chosen? givens' item = chosen? givens item := by
  rcases resaid.only_or counted with same | ⟨-, values, once, once'⟩
  · rw [Levels.chosen?_eq, Levels.chosen?_eq, ofItem_levels all, ofItem_levels all', same]
  · obtain ⟨-, read, same, chosen⟩ := chosen?_once all known counted once
    obtain ⟨-, read', same', chosen'⟩ := chosen?_once all' known counted once'
    obtain rfl := Option.some.inj (same.symm.trans same')
    rw [chosen, chosen']

theorem exists_run (runs : runCommand given = .ok command) : ∃ what, command = .run what := by
  unfold runCommand at runs
  split at runs
  · cases runs
  split at runs
  · cases runs
  split at runs
  · cases runs
  · exact ⟨_, (Except.ok.inj runs).symm⟩

/-- The command that ends on a level depends on its own items only. -/
theorem commandOf_congr {scope : Scope}
    (same : ∀ item ∉ Item.everywhere, ofItem item given' = ofItem item given)
    (ends : commandOf given scope = .ok command) : commandOf given' scope = .ok command := by
  cases scope with
  | run =>
    obtain ⟨what, rfl⟩ := exists_run ends
    exact runCommand_congr ends same
  | health =>
    have language : language? given' = language? given :=
      congrArg (fun vs => List.findSome? _ (List.flatMap Given.values vs))
        (same .language (by decide))
    rwa [commandOf, language]
  | init => rwa [commandOf, has_congr (same .force (by decide))]
  | display | path => exact ends
  | program | config | help => cases ends

theorem Resaid.filled (resaid : Resaid lines lines')
    (filled : Filled lookup [] lines command givens) : ∃ givens',
      Filled lookup [] lines' command givens' ∧ ∀ item ∈ Item.everywhere, item ≠ .verbose →
        chosen? givens' item = chosen? givens item := by
  obtain ⟨all, scope, given, last_scope, last, ends⟩ := filled_iff.mp filled
  obtain ⟨givens', all'⟩ := resaid.exists_allGiven all
  have length : givens'.length = givens.length := by
    have scopes := congrArg List.length resaid.scopes
    have levels := congrArg List.length all
    have levels' := congrArg List.length all'
    simp only [List.length_map] at scopes levels levels'
    omega
  have some_left : givens' ≠ [] := by
    rintro rfl
    obtain rfl := List.length_eq_zero_iff.mp length.symm
    cases last
  have last' := List.getLast?_eq_some_getLast some_left
  have own (item : Item) (not_known : item ∉ Item.everywhere) :
      ofItem item (givens'.getLast some_left) = ofItem item given := by
    have counted : item ≠ .verbose := fun same => not_known (same ▸ by simp [Item.everywhere])
    have same : givens'.map (ofItem item) = givens.map (ofItem item) := by
      rcases resaid.items item counted with same | ⟨known, -⟩
      · rw [ofItem_levels all, ofItem_levels all', same]
      · exact absurd known not_known
    have ends := congrArg List.getLast? same
    rw [List.getLast?_map, List.getLast?_map, last, last'] at ends
    exact Option.some.inj ends
  rw [← resaid.scopes] at last_scope
  exact ⟨givens', filled_iff.mpr ⟨all', scope, _, last_scope, last', commandOf_congr own ends⟩,
    fun item => resaid.chosen?_eq all all'⟩

end

section
variable {lookup : String → Option String} {args args' : List String} {item : Item}
  {lines lines' : List (Scope × List Mark)} {givens givens' : List (List Given)}
  {line : CommandLine} {command : Command}

theorem loudness_le (lines : List (Scope × List Mark)) : loudness lines ≤ countLimit := by
  induction lines with
  | nil => exact Nat.zero_le _
  | cons level deeper ih =>
    unfold loudness
    split
    · exact Nat.min_le_left _ _
    · exact ih

theorem verbosity_lineOf (all : AllGiven lookup lines givens) :
    (lineOf command givens).verbosity = loudness lines := by
  have verbose : ofItem .verbose (chosen givens) = tally (loudness lines) := by
    rw [ofItem_chosen (by simp [Item.everywhere]), chosen?_eq, ofItem_levels all, choice_verbose]
    unfold tally
    split
    · rfl
    · rfl
  rw [lineOf]
  dsimp only
  rw [← List.head?_filter]
  change (((ofItem .verbose (chosen givens)).head?).map (·.times)).getD 0 = loudness lines
  rw [verbose, tally]
  split
  · rename_i silent
    exact silent.symm
  · exact Nat.min_eq_right (loudness_le lines)

theorem lineOf_chosen (same : ∀ item ∈ Item.everywhere, item ≠ .verbose →
    chosen? givens' item = chosen? givens item) :
    lineOf command givens' =
      { lineOf command givens with verbosity := (lineOf command givens').verbosity } := by
  have own (item : Item) (known : item ∈ Item.everywhere ∧ item ≠ .verbose) :
      ofItem item (chosen givens') = ofItem item (chosen givens) := by
    rw [ofItem_chosen known.1, ofItem_chosen known.1, same item known.1 known.2]
  have format : format? (chosen givens') = format? (chosen givens) :=
    congrArg (fun vs => List.findSome? _ (List.flatMap Given.values vs)) (own .format (by decide))
  unfold lineOf
  rw [format, text?_congr (own .config (by decide)), text?_congr (own .pythonBinary (by decide)),
    text?_congr (own .pythonLibrary (by decide)), text?_congr (own .quickJsBinary (by decide)),
    text?_congr (own .wasmerBinary (by decide))]

/-- What is said alike, if on other levels, comes to the same but for what is counted. -/
theorem parse_resaid (line' : Line .program 0 args' lines') (resaid : Resaid lines lines')
    (filled : Filled lookup [] lines command givens) : parse lookup args' =
      .ok { lineOf command givens with verbosity := loudness lines' } := by
  obtain ⟨givens', filled', same⟩ := resaid.filled filled
  rw [parse_eq_ok.mpr ⟨command, givens', levels_eq_ok.mpr ⟨lines', line', filled'⟩, rfl⟩,
    lineOf_chosen same, verbosity_lineOf (filled_iff.mp filled').1]

end

/-- Arguments that can be exchanged at a place: options that every command knows, or what says the
same of all other items there. -/
inductive Exchange (scope : Scope) (n : Nat) :
    List String → List Mark → List String → List Mark → Prop
  | known {args args' : List String} {marks marks' : List Mark}
      (reads : Reads .program 0 args marks 0) (reads' : Reads .program 0 args' marks' 0) :
      Exchange scope n args marks args' marks'
  | own {n' : Nat} {args args' : List String} {marks marks' : List Mark}
      (reads : Reads scope n args marks n') (reads' : Reads scope n args' marks' n')
      (same : ∀ item ∉ Item.everywhere,
        marks'.filter (·.1 == item) = marks.filter (·.1 == item)) :
      Exchange scope n args marks args' marks'

/-- Arguments are exchanged at two places, which say the same together. So an option may go from one
level to another, in either direction, or out of some letters that stand together. -/
inductive Moved : List String → List String → List Mark → Prop
  | between {scope scope' : Scope} {n n' : Nat}
      {front first first' middle second second' back : List String}
      {marks marks' more more' : List Mark}
      (reached : Reaches .program 0 front scope n)
      (exchange : Exchange scope n first marks first' marks')
      (reached' : Reaches .program 0 (front ++ (first ++ middle)) scope' n')
      (exchange' : Exchange scope' n' second more second' more')
      (same : (marks' ++ more').Perm (marks ++ more)) :
      Moved (front ++ (first ++ (middle ++ (second ++ back))))
        (front ++ (first' ++ (middle ++ (second' ++ back)))) (marks ++ more)

/-- On one level something else is said. -/
inductive Swapped (marks marks' : List Mark) :
    List (Scope × List Mark) → List (Scope × List Mark) → Prop
  | level (outer : List (Scope × List Mark)) (scope : Scope) (before after : List Mark)
      (deeper : List (Scope × List Mark)) :
      Swapped marks marks' (outer ++ (scope, before ++ (marks ++ after)) :: deeper)
        (outer ++ (scope, before ++ (marks' ++ after)) :: deeper)

section
variable {scope : Scope} {n : Nat} {args args' front back : List String} {item : Item}
  {marks marks' : List Mark} {lines lines' : List (Scope × List Mark)}

theorem Swapped.scopes (swapped : Swapped marks marks' lines lines') :
    lines'.map Prod.fst = lines.map Prod.fst := by
  cases swapped
  simp

theorem Swapped.only_eq (swapped : Swapped marks marks' lines lines')
    (same : marks'.filter (·.1 == item) = marks.filter (·.1 == item)) :
    only item lines' = only item lines := by
  cases swapped
  simp [only, same]

theorem Swapped.count_eq (swapped : Swapped marks marks' lines lines') (item : Item) (mark : Mark) :
    (said item lines').count mark + (marks.filter (·.1 == item)).count mark =
      (said item lines).count mark + (marks'.filter (·.1 == item)).count mark := by
  cases swapped
  simp only [said, only, List.map_append, List.map_cons, List.flatMap_append, List.flatMap_cons,
    List.filter_append, List.count_append]
  omega

theorem Exchange.reads (exchange : Exchange scope n args marks args' marks') :
    ∃ n', Reads scope n args marks n' ∧ Reads scope n args' marks' n' := by
  cases exchange with
  | known reads reads' => exact ⟨n, reads_everywhere reads n, reads_everywhere reads' n⟩
  | own reads reads' same => exact ⟨_, reads, reads'⟩

theorem Exchange.others (exchange : Exchange scope n args marks args' marks')
    (not_known : item ∉ Item.everywhere) :
    marks'.filter (·.1 == item) = marks.filter (·.1 == item) := by
  cases exchange with
  | known reads reads' =>
    have none_said {args : List String} {marks : List Mark}
        (reads : Reads .program 0 args marks 0) : marks.filter (·.1 == item) = [] :=
      filter_eq_nil fun m there own => not_known (own ▸ mem_everywhere_of_reads reads m there)
    rw [none_said reads, none_said reads']
  | own reads reads' same => exact same item not_known

theorem Exchange.line (exchange : Exchange scope n args marks args' marks')
    (reached : Reaches .program 0 front scope n)
    (line : Line .program 0 (front ++ (args ++ back)) lines) :
    ∃ lines', Line .program 0 (front ++ (args' ++ back)) lines' ∧
      Swapped marks marks' lines lines' := by
  obtain ⟨n', reads, reads'⟩ := exchange.reads
  obtain ⟨outer, before, _, _, rfl, rest, exchanged⟩ := reached.line line
  obtain ⟨after, deeper, same, rest⟩ := line_after_reads reads rest
  cases same
  exact ⟨_, exchanged _ _ _ (reads'.line rest), .level outer scope before after _⟩

/-- A command line on which options have been moved is split like the one before, and what they say
is the same on other levels. -/
theorem Moved.resaid (moved : Moved args args' marks) (line : Line .program 0 args lines)
    (once : ∀ m ∈ marks, m.1 ∈ Item.everywhere → m.1 ≠ .verbose →
      (said m.1 lines).length ≤ 1) :
    ∃ lines', Line .program 0 args' lines' ∧ Resaid lines lines' ∧
      (said .verbose lines').length = (said .verbose lines).length ∧
      ((∀ m ∈ marks, m.1 ≠ .verbose) → only .verbose lines' = only .verbose lines) := by
  obtain @⟨_, _, _, _, front, first, first', middle, second, second', back, marks, marks', more,
    more', reached, exchange, reached', exchange', same⟩ := moved
  have line' : Line .program 0 ((front ++ (first ++ middle)) ++ (second ++ back)) lines := by
    simpa using line
  obtain ⟨between, line', swapped'⟩ := exchange'.line reached' line'
  have line'' : Line .program 0 (front ++ (first ++ (middle ++ (second' ++ back)))) between := by
    simpa using line'
  obtain ⟨lines', line'', swapped⟩ := exchange.line reached line''
  have total (item : Item) : (said item lines').Perm (said item lines) := by
    apply List.perm_iff_count.mpr
    intro mark
    have first := swapped.count_eq item mark
    have second := swapped'.count_eq item mark
    have together := List.perm_iff_count.mp (same.filter (·.1 == item)) mark
    simp only [List.filter_append, List.count_append] at together
    omega
  have kept (item : Item) (unmoved : ∀ m ∈ marks ++ more, m.1 ≠ item) :
      only item lines' = only item lines := by
    have before := filter_eq_nil unmoved
    have after := filter_eq_nil fun m there => unmoved m (same.mem_iff.mp there)
    rw [List.filter_append, List.append_eq_nil_iff] at before after
    rw [swapped.only_eq (after.1.trans before.1.symm),
      swapped'.only_eq (after.2.trans before.2.symm)]
  refine ⟨lines', line'', ⟨swapped.scopes.trans swapped'.scopes, ?_⟩,
    (total .verbose).length_eq, kept .verbose⟩
  intro item counted
  by_cases known : item ∈ Item.everywhere
  · by_cases unmoved : ∀ m ∈ marks ++ more, m.1 ≠ item
    · exact .inl (kept item unmoved)
    · obtain ⟨m, there, rfl⟩ : ∃ m ∈ marks ++ more, m.1 = item := by simpa using unmoved
      have at_most := once m there known counted
      refine .inr ⟨known, ?_, at_most⟩
      have perm := total m.1
      cases all : said m.1 lines with
      | nil =>
        rw [all] at perm
        exact List.perm_nil.mp perm
      | cons mark others =>
        rw [all] at perm at_most
        obtain rfl : others = [] := by simpa using at_most
        exact List.perm_singleton.mp perm
  · exact .inl ((swapped.only_eq (exchange.others known)).trans
      (swapped'.only_eq (exchange'.others known)))

end

/-- What the command line holds of an option that every command knows. -/
def holds (line : CommandLine) : Item → Option Value
  | .config => line.config.map .text
  | .format => some (.format line.format)
  | .pythonBinary => line.overrides.pythonBinary.map .text
  | .pythonLibrary => line.overrides.pythonLibrary.map .text
  | .quickJsBinary => line.overrides.quickJsBinary.map .text
  | .wasmerBinary => line.overrides.wasmerBinary.map .text
  | _ => none

/-- What an accepted command line comes to, given what its levels say. -/
structure Understood (lookup : String → Option String) (args : List String) (line : CommandLine)
    (lines : List (Scope × List Mark)) : Prop where
  split : Line .program 0 args lines
  /-- Messages are asked for as often as the innermost level does that asks for any. -/
  verbosity : line.verbosity = loudness lines
  /-- That is as often as all levels do if no two of them ask. -/
  together : (∀ level ∈ lines, level.2.filter (·.1 == .verbose) = [] ∨
      level.2.filter (·.1 == .verbose) = said .verbose lines) →
    line.verbosity = min countLimit (said .verbose lines).length
  /-- What is given once counts, on whichever level, and whatever the environment holds. -/
  given : ∀ item ∈ Item.everywhere, item ≠ .verbose → ∀ value,
    said item lines = [(item, [value])] →
      ∃ v, item.kind.value? value = some v ∧ holds line item = some v
  /-- Options may be moved that are given once, and calls for messages. -/
  moved : ∀ args' marks, Moved args args' marks →
    (∀ m ∈ marks, m.1 ∈ Item.everywhere → m.1 ≠ .verbose → (said m.1 lines).length ≤ 1) →
      ∃ lines', Line .program 0 args' lines' ∧
        (said .verbose lines').length = (said .verbose lines).length ∧
        parse lookup args' = .ok { line with verbosity := loudness lines' } ∧
        ((∀ m ∈ marks, m.1 ≠ .verbose) → parse lookup args' = .ok line)

section
variable {lookup : String → Option String} {args : List String} {item : Item}
  {lines lines' : List (Scope × List Mark)} {givens : List (List Given)} {given : List Given}
  {line : CommandLine} {command : Command}

theorem loudness_congr (same : only .verbose lines' = only .verbose lines) :
    loudness lines' = loudness lines := by
  induction lines generalizing lines' with
  | nil => rw [List.map_eq_nil_iff.mp same]
  | cons level lines ih =>
    obtain ⟨level', deeper, rfl, first, rest⟩ := List.map_eq_cons_iff.mp same
    rw [loudness, loudness, ih rest, (Prod.mk.inj first).2]

theorem said_of_silent (silent : loudness lines = 0) : said .verbose lines = [] := by
  induction lines with
  | nil => rfl
  | cons level lines ih =>
    unfold loudness at silent
    split at silent
    · rename_i deeper_silent
      have none_own : (level.2.filter (·.1 == .verbose)).length = 0 := by
        unfold countLimit at silent
        omega
      exact List.append_eq_nil_iff.mpr ⟨List.length_eq_zero_iff.mp none_own, ih deeper_silent⟩
    · contradiction

theorem loudness_alike {all : List Mark} (alike : ∀ level ∈ lines,
    level.2.filter (·.1 == .verbose) = [] ∨ level.2.filter (·.1 == .verbose) = all) :
    loudness lines = 0 ∨ loudness lines = min countLimit all.length := by
  induction lines with
  | nil => exact .inl rfl
  | cons level lines ih =>
    unfold loudness
    split
    · rcases alike level List.mem_cons_self with own | own
      · exact .inl (by rw [own]; rfl)
      · exact .inr (by rw [own])
    · exact ih fun level there => alike level (List.mem_cons_of_mem _ there)

theorem loudness_together (together : ∀ level ∈ lines, level.2.filter (·.1 == .verbose) = [] ∨
    level.2.filter (·.1 == .verbose) = said .verbose lines) :
    loudness lines = min countLimit (said .verbose lines).length := by
  rcases loudness_alike together with silent | loud
  · rw [silent, said_of_silent silent]
    rfl
  · exact loud

theorem text?_once {value : String} (own : ofItem item given = [textsGiven item [value]]) :
    text? given item = some value := congrArg List.head? (textsOf_given own)

theorem exists_format {value : String} {v : Value} (read : Kind.format.value? value = some v) :
    ∃ f, v = .format f := by
  simp only [Kind.value?] at read
  split at read
  · exact ⟨_, (Option.some.inj read).symm⟩
  · split at read
    · exact ⟨_, (Option.some.inj read).symm⟩
    · cases read

theorem format?_once {f : Format}
    (own : ofItem .format given = [⟨.format, .arguments, 1, [.format f]⟩]) :
    format? given = some f := by
  have values : valuesOf given .format = [.format f] := congrArg (List.flatMap Given.values) own
  rw [format?, values]
  rfl

theorem holds_once (all : AllGiven lookup lines givens) (known : item ∈ Item.everywhere)
    (counted : item ≠ .verbose) {value : String} (once : said item lines = [(item, [value])]) :
    ∃ v, item.kind.value? value = some v ∧ holds (lineOf command givens) item = some v := by
  obtain ⟨takes, read, same, chosen⟩ := chosen?_once all known counted once
  have own : ofItem item (CommandLine.chosen givens) = [⟨item, .arguments, 1, read⟩] := by
    rw [ofItem_chosen known, chosen]
    rfl
  obtain ⟨v, read_one, rfl⟩ : ∃ v, item.kind.value? value = some v ∧ [v] = read := by
    simpa only [List.mapM_cons, List.mapM_nil, bind, pure, Option.bind_some, Option.some.injEq,
      Option.bind_eq_some_iff] using same
  refine ⟨v, read_one, ?_⟩
  cases item with
  | help | version => cases takes
  | verbose => contradiction
  | format =>
    obtain ⟨f, rfl⟩ := exists_format read_one
    exact congrArg (fun f => some (Value.format (f.getD .text))) (format?_once own)
  | config | pythonBinary | pythonLibrary | quickJsBinary | wasmerBinary =>
    obtain rfl : v = .text value := (List.cons.inj (values_textual (.inl rfl) same)).1
    exact congrArg (Option.map Value.text) (text?_once own)
  | _ => simp [Item.everywhere] at known

/-- What an option says that every command knows depends neither on the level where it stands nor on
the environment. Calls for messages count on the innermost level that has any. -/
theorem understood (accepted : parse lookup args = .ok line) :
    ∃ lines, Understood lookup args line lines := by
  obtain ⟨command, givens, read, rfl⟩ := parse_eq_ok.mp accepted
  obtain ⟨lines, split, filled⟩ := levels_eq_ok.mp read
  have all := (filled_iff.mp filled).1
  have loud : (lineOf command givens).verbosity = loudness lines := verbosity_lineOf all
  refine ⟨lines, split, loud, ?_, ?_, ?_⟩
  · exact fun together => loud.trans (loudness_together together)
  · exact fun item known counted value => holds_once all known counted
  · intro args' marks moved once
    obtain ⟨lines', split', resaid, total, silent⟩ := moved.resaid split once
    have parsed := parse_resaid split' resaid filled
    refine ⟨lines', split', total, parsed, fun unmoved => ?_⟩
    rw [parsed, loudness_congr (silent unmoved), ← loud]

end

def sampleLookup : String → Option String
  | "SCRIPTLET_CONFIG" => some "other.toml"
  | _ => none

def sampleLine : CommandLine where
  command := .config .display
  config := some "own.toml"
  verbosity := 2

theorem understood_sample :
    parse sampleLookup ["-vv", "--config", "own.toml", "config", "show"] = .ok sampleLine ∧
      ∃ lines, Understood sampleLookup ["-vv", "--config", "own.toml", "config", "show"]
        sampleLine lines :=
  ⟨rfl, understood rfl⟩

/-- Calls for messages do not add up from level to level. -/
theorem calls_not_added : Moved ["-v", "-v", "health"] ["-v", "health", "-v"] [(.verbose, [])] ∧
    parse (fun _ => none) ["-v", "-v", "health"] =
      .ok { command := .health none, verbosity := 2 } ∧
    parse (fun _ => none) ["-v", "health", "-v"] =
      .ok { command := .health none, verbosity := 1 } := by
  refine ⟨?_, rfl, rfl⟩
  have said : tells .program "-v" = some ([(.verbose, [])], none) := rfl
  have call : Reads .program 0 ["-v"] [(.verbose, [])] 0 := .option said .nil
  have reached : Reaches .program 0 ((["-v"] ++ ["-v"]) ++ "health" :: []) .health 0 :=
    .enters (call.append call) rfl (.here .nil)
  have moved : Moved (["-v"] ++ (["-v"] ++ (["health"] ++ ([] ++ []))))
      (["-v"] ++ ([] ++ (["health"] ++ (["-v"] ++ [])))) ([(.verbose, [])] ++ []) :=
    .between (.here call) (.known call .nil) reached (.known .nil call) (.refl _)
  exact moved

example : parse sampleLookup ["config", "--config=own.toml", "show", "-vv"] = .ok sampleLine := rfl

end ScriptSandbox.Proofs.Everywhere
