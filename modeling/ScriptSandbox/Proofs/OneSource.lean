import ScriptSandbox.Proofs.ProvisionFailed
import ScriptSandbox.Proofs.RunCommand
import ScriptSandbox.Proofs.RunLines

namespace ScriptSandbox.Proofs.OneSource
open CommandLine Level Grammar Acceptance RunLines FileSteps RunStages
open CopyLoop (after_provision provided_failed provision_directory)
open ProvisionFailed (provision_missing provision_noDirectory)
open Proofs.RunCommand (executed performed outcome_follow sampleScene)
open ConfigLayers (inFile inChosen)

/-- The items by which a script and its input are given. -/
def sources : List Item := [.script, .file, .input, .inputFile]

/-- What a run is told of a source. -/
def told (what : RunCommand) : Item → Option String
  | .script => what.script
  | .file => what.file
  | .input => what.input
  | .inputFile => what.inputFile
  | _ => none

/-- What takes a value has one. -/
def Single (marks : List Mark) : Prop :=
  ∀ m ∈ marks, m.1.kind.takesValue = true → ∃ value, m.2 = [value]

section
variable {scope : Scope} {item : Item} {marks marks' : List Mark}

theorem single_nil : Single [] := nofun

theorem single_mark (value : String) : Single [(item, [value])] := by
  intro m there _
  obtain rfl := List.mem_singleton.mp there
  exact ⟨value, rfl⟩

theorem single_flag {values : List String} (flag : item.kind.takesValue ≠ true) :
    Single [(item, values)] := by
  intro m there takes
  obtain rfl := List.mem_singleton.mp there
  exact absurd takes flag

theorem Single.append (first : Single marks) (second : Single marks') :
    Single (marks ++ marks') := by
  intro m there
  rcases List.mem_append.mp there with there | there
  · exact first m there
  · exact second m there

theorem single_of_namedTells {cs : List Char} {said : List Mark × Option Item}
    (tells_it : namedTells scope cs = some said) : Single said.1 := by
  unfold namedTells at tells_it
  split at tells_it
  · cases tells_it
  · split at tells_it
    · cases tells_it
      exact single_mark _
    · cases tells_it
      exact single_nil
    · cases tells_it
    · rename_i flag _
      cases tells_it
      exact single_flag (by rw [flag]; exact Bool.false_ne_true)

theorem single_of_letterTells {cs : List Char} {said : List Mark × Option Item}
    (tells_it : letterTells scope cs = some said) : Single said.1 := by
  induction cs generalizing said with
  | nil =>
    cases tells_it
    exact single_nil
  | cons c cs ih =>
    unfold letterTells at tells_it
    split at tells_it
    · cases tells_it
    · split at tells_it
      · split at tells_it
        · cases tells_it
          exact single_nil
        · cases tells_it
          exact single_mark _
        · cases tells_it
          exact single_mark _
      · rename_i flag
        obtain ⟨others, rest, rfl⟩ := Option.map_eq_some_iff.mp tells_it
        exact (single_flag flag).append (ih rest)

theorem single_of_tells {arg : String} {said : List Mark × Option Item}
    (tells_it : tells scope arg = some said) : Single said.1 := by
  unfold tells at tells_it
  split at tells_it
  · cases tells_it
  · exact single_of_namedTells tells_it
  · exact single_of_letterTells tells_it
  · cases tells_it

theorem single_of_reads {n n' : Nat} {args : List String} (reads : Reads scope n args marks n') :
    Single marks := by
  induction reads with
  | nil => exact single_nil
  | option said others ih => exact (single_of_tells said).append ih
  | value said word others ih => exact (single_of_tells said).append ((single_mark _).append ih)
  | word is_word stays place others ih => exact (single_mark _).append ih

/-- A source takes a text, which no variable stands in for. -/
theorem textual_of_source {source : Item} (known : source ∈ sources) :
    (source.kind = .path ∨ source.kind = .text) ∧ source.kind.takesValue = true ∧
      source.standIn? = none ∧ source ≠ .args := by
  revert source
  decide

end

section
variable {lookup : String → Option String} {outer front tail : List String} {line : CommandLine}
  {what : RunCommand} {outer_marks marks tail_marks : List Mark} {outer_given given : List Given}
  {source : Item}

/-- A source that is given is given once, by one text. -/
theorem said_source (reads : ∃ n, Reads .run 0 front marks n) (after : Tail tail tail_marks)
    (filled : givenBy lookup .run [] (marks ++ tail_marks) = .ok given)
    (known : source ∈ sources) :
    marks.filter (·.1 == source) = (text? given source).toList.map (source, [·]) ∧
      has given source = (text? given source).isSome := by
  obtain ⟨textual, takes, alone, no_args⟩ := textual_of_source known
  obtain ⟨_, reads⟩ := reads
  have all := said_textual textual alone (givenBy_ofItem source filled)
  rw [List.filter_append, after.marks_args no_args, List.append_nil] at all
  rcases all with ⟨unsaid, none_given⟩ | ⟨values, -, said, once⟩
  · rw [unsaid, has_eq, none_given, text?_nothing none_given]
    exact ⟨rfl, rfl⟩
  · have there : (source, values) ∈ marks :=
      (List.mem_filter.mp (said ▸ List.mem_singleton_self _)).1
    obtain ⟨value, rfl⟩ := single_of_reads reads _ there takes
    rw [said, has_eq, once, text?, textsOf_given once]
    exact ⟨rfl, rfl⟩

theorem runCommand_sources (runs : runCommand given = .ok (.run what)) :
    has given .script ≠ has given .file ∧
      ¬ (has given .input = true ∧ has given .inputFile = true) ∧
      ∀ source ∈ sources, told what source = text? given source := by
  unfold runCommand at runs
  split at runs
  · cases runs
  · rename_i apart
    split at runs
    · cases runs
    · rename_i sourced
      split at runs
      · cases runs
      · cases runs
        simp only [bothGiven, Bool.or_eq_true, Bool.and_eq_true, not_or] at apart
        simp only [Bool.not_eq_true', Bool.or_eq_false_iff] at sourced
        refine ⟨?_, apart.2, ?_⟩
        · intro same
          cases file : has given .file with
          | true => exact apart.1 ⟨same.trans file, file⟩
          | false => exact sourced ⟨same.trans file, file⟩
        · intro source known
          simp only [sources, List.mem_cons, List.not_mem_nil, or_false] at known
          rcases known with rfl | rfl | rfl | rfl
          · rfl
          · rfl
          · rfl
          · rfl

end

/-- All failures of this outcome are such. -/
def Fails {α : Type} (kind : Failure → Prop) (x : Except Failure α) : Prop :=
  ∀ f, x = .error f → kind f

/-- Input is only called invalid that is no JSON. -/
def OnlyJson (f : Failure) : Prop :=
  ∀ text, f = .invalidInput text →
    ∃ fault : Json.Fault, text = "input is not valid JSON: " ++ fault.message

section
variable {α β : Type} {kind : Failure → Prop} {x : Except Failure α} {f : α → Except Failure β}

theorem fails_ok (a : α) : Fails kind (.ok a) := nofun

theorem fails_error {e : Failure} (such : kind e) : Fails (α := α) kind (.error e) := by
  intro f same
  cases same
  exact such

theorem Fails.bind (first : Fails kind x) (next : ∀ a, Fails kind (f a)) :
    Fails kind (x >>= f) := by
  cases x with
  | error e => exact fails_error (first e rfl)
  | ok a => exact next a

end

section
variable {h : Host} {t : Tree} {w : World} {stdin : Bytes} {what : RunCommand}

theorem fails_inFile (path : String) : Fails OnlyJson (inFile h t path) := by
  unfold inFile
  split
  · unfold Config.parse
    split
    · exact fails_error nofun
    · split
      · exact fails_error nofun
      · exact fails_ok _
  · exact fails_error nofun

theorem fails_inChosen (chosen : Option String) : Fails OnlyJson (inChosen h t chosen) := by
  unfold inChosen
  split
  · split
    · exact fails_inFile _
    · exact fails_error nofun
  · split
    · exact fails_inFile _
    · exact fails_ok _

theorem fails_textIn (path : String) : Fails OnlyJson (textIn h t stdin path) := by
  unfold textIn
  split
  · split
    · exact fails_ok _
    · exact fails_error nofun
  · cases t.readText h.cwd path with
    | error e => exact fails_error nofun
    | ok text => exact fails_ok _

theorem fails_scriptIn (sourced : what.script.isSome ≠ what.file.isSome) :
    Fails OnlyJson (scriptIn h t what stdin) := by
  unfold scriptIn
  split
  · exact fails_ok _
  · exact fails_textIn _
  · rename_i no_script no_file
    rw [no_script, no_file] at sourced
    exact absurd rfl sourced

theorem fails_parseInput (document : String) : Fails OnlyJson (Command.parseInput document) := by
  unfold Command.parseInput
  split
  · exact fails_ok _
  · rename_i fault _
    apply fails_error
    intro text same
    exact ⟨fault, (Failure.invalidInput.inj same).symm⟩

theorem fails_inputIn : Fails OnlyJson (inputIn h t what stdin) := by
  unfold inputIn
  split
  · exact fails_parseInput _
  · exact (fails_textIn _).bind fails_parseInput
  · exact fails_ok _

theorem fails_requestIn (sourced : what.script.isSome ≠ what.file.isSome) :
    Fails OnlyJson (requestIn h t what stdin) :=
  (fails_scriptIn sourced).bind fun _ => fails_inputIn.bind fun _ => fails_ok _

theorem fails_located (c : WasmerConfig) : Fails OnlyJson (located h t c) := by
  unfold located
  split
  · split
    · exact fails_ok _
    · exact fails_error nofun
  · split
    · exact fails_ok _
    · split
      · exact fails_ok _
      · exact fails_error nofun

theorem fails_ended (x : Wasmer) (answered : Except HostError Reply) :
    Fails OnlyJson (ended x answered) := by
  unfold ended
  split
  · exact fails_error nofun
  · split
    · exact fails_error nofun
    · split
      · exact fails_ok _
      · exact fails_error nofun

/-- Whatever goes wrong with a workspace, the failure is one of provisioning. -/
theorem fails_provision (library : String) : Fails (∃ e, · = .provisioning library e)
    (after (Workspace.provision h library) w).1 := by
  cases found : w.tree.find true h.cwd library with
  | error e =>
    rw [provision_missing found]
    exact fails_error ⟨e, rfl⟩
  | ok place =>
    obtain ⟨l, node⟩ := place
    by_cases directory : node = .directory
    · subst directory
      cases made : after (Workspace.temporary h) w with
      | mk outcome w₁ =>
      cases outcome with
      | error e =>
        rw [provision_directory found, made]
        exact fails_error ⟨e, rfl⟩
      | ok ws =>
        rw [after_provision found made]
        generalize after (Workspace.copyBelow h Tree.pathLimit library ws.path) _ = copied
        obtain ⟨outcome, w₂⟩ := copied
        cases outcome with
        | error e => exact fails_error ⟨e, rfl⟩
        | ok files => exact fails_ok _
    · rw [provision_noDirectory found directory]
      exact fails_error ⟨_, rfl⟩

theorem fails_executed (c : Config) (x : Wasmer) (r : Request) (l : Language) :
    Fails OnlyJson (executed h c w x r l) := by
  cases l with
  | python =>
    unfold executed
    have unprovided := fails_provision (h := h) (w := w) c.python.library
    generalize after (Workspace.provision h c.python.library) w = provided at unprovided ⊢
    obtain ⟨outcome, w₁⟩ := provided
    cases outcome with
    | error f =>
      obtain ⟨e, rfl⟩ := unprovided f rfl
      exact fails_error nofun
    | ok ws => exact fails_ended _ _
  | quickJs => exact fails_ended _ _

theorem fails_performed (c : Config) (format : Format)
    (sourced : what.script.isSome ≠ what.file.isSome) :
    Fails OnlyJson (performed h c w format what) :=
  (fails_requestIn sourced).bind fun _ => (fails_located _).bind fun _ =>
    (fails_executed _ _ _ _).bind fun _ => fails_ok _

theorem fails_follow {line : CommandLine} (command : line.command = .run what)
    (sourced : what.script.isSome ≠ what.file.isSome) :
    Fails OnlyJson (after (Command.follow h line) w).1 := by
  rw [outcome_follow command]
  exact (fails_inChosen _).bind fun c => fails_performed _ _ sourced

end

/-- What is said of the sources on a command line to run a script is all that the run is told: one
text for one of them, and nothing for the others. -/
inductive SaidOnce (args : List String) (what : RunCommand) : Prop
  | intro {outer front tail : List String} {outer_marks marks tail_marks : List Mark}
      (parts : args = outer ++ "run" :: (front ++ tail))
      (outer_reads : ∃ n, Reads .program 0 outer outer_marks n)
      (reads : ∃ n, Reads .run 0 front marks n) (after : Tail tail tail_marks)
      (said : ∀ source ∈ sources,
        marks.filter (·.1 == source) = (told what source).toList.map (source, [·])) :
      SaidOnce args what

/-- The script has one source and the input at most one, and a file that is named is read. -/
structure Sourced (h : Host) (args : List String) (line : CommandLine) (what : RunCommand) :
    Prop where
  script : what.script.isSome ≠ what.file.isSome
  input : ¬ (what.input.isSome = true ∧ what.inputFile.isSome = true)
  said : SaidOnce args what
  script_file : ∀ path, what.file = some path →
    Command.readScript h what = Command.readText h path
  input_file : ∀ path, what.inputFile = some path → Command.readInput h what = do
    settle (Command.parseInput (← Command.readText h path))
  only_json : ∀ w, Fails OnlyJson (after (Command.follow h line) w).1
  never_wanting : ∀ w, (after (Command.follow h line) w).1 ≠
    .error (.invalidInput "a script or --file is required")

/-- A command line that is accepted to run a script, whatever stands on it and wherever, tells one
source of the script and no two of the input. -/
theorem sourced_of_accepted {h : Host} {args : List String} {line : CommandLine}
    {what : RunCommand} (accepted : parse h.lookup args = .ok line)
    (command : line.command = .run what) : Sourced h args line what := by
  obtain ⟨outer, front, tail, outer_marks, marks, tail_marks, outer_given, given, parts, runs⟩ :=
    exists_runLine accepted command
  have each {source : Item} (known : source ∈ sources) :=
    said_source runs.reads runs.tail runs.filled known
  obtain ⟨one_script, no_two, fields⟩ := runCommand_sources runs.runs
  have has_told {source : Item} (known : source ∈ sources) :
      has given source = (told what source).isSome := by
    rw [(each known).2, fields source known]
  have script : what.script.isSome ≠ what.file.isSome := by
    rw [has_told (show .script ∈ sources by decide), has_told (show .file ∈ sources by decide)]
      at one_script
    exact one_script
  have input : ¬ (what.input.isSome = true ∧ what.inputFile.isSome = true) := by
    rw [has_told (show .input ∈ sources by decide),
      has_told (show .inputFile ∈ sources by decide)] at no_two
    exact no_two
  have only_json (w : World) : Fails OnlyJson (after (Command.follow h line) w).1 :=
    fails_follow command script
  refine ⟨script, input, .intro parts runs.outer_reads runs.reads runs.tail ?_, ?_, ?_, only_json,
    ?_⟩
  · intro source known
    rw [(each known).1, fields source known]
  · intro path named
    have untold : what.script = none := by
      rw [named] at script
      simpa using script
    rw [Command.readScript, untold, named]
  · intro path named
    have untold : what.input = none := by
      rw [named] at input
      simpa using input
    rw [Command.readInput, untold, named]
  · intro w wanting
    obtain ⟨fault, same⟩ := only_json w _ wanting _ rfl
    have first := congrArg (·.toList.head?) same
    simp only [String.toList_append, List.head?_append] at first
    cases first

/-- What looks like a second source is an argument for the script. -/
def sampleArguments : List String :=
  ["-v", "run", "--lang", "python", "-i=1", "--file=a.py", "--format", "json", "--", "--file", "b"]

def sampleCommand : RunCommand where
  language := .python
  file := some "a.py"
  input := some "1"
  args := ["--file", "b"]

def sampleLine : CommandLine where
  command := .run sampleCommand
  verbosity := 1
  format := .json

theorem sourced_of_accepted_sample :
    Sourced sampleScene sampleArguments sampleLine sampleCommand := by
  have accepted : parse sampleScene.lookup sampleArguments = .ok sampleLine := rfl
  exact sourced_of_accepted accepted rfl

end ScriptSandbox.Proofs.OneSource
