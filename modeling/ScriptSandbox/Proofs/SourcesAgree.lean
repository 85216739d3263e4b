import ScriptSandbox.Proofs.InputApart
import ScriptSandbox.Proofs.RunCommand
import ScriptSandbox.Proofs.RunLines

namespace ScriptSandbox.Proofs.SourcesAgree
open CommandLine Level Grammar Acceptance RunLines FileSteps RunStages InputApart
open Proofs.RunCommand
open ConfigLayers (inChosen)

/-- An option with its value, in two arguments or in one. -/
inductive Gives (option value : String) : List String → Prop
  | separate (word : IsWord value) : Gives option value [option, value]
  | attached : Gives option value [option ++ "=" ++ value]

/-- What the environment adds to a level on which no configuration file is named. -/
def fromEnvironment (lookup : String → Option String) : Except Refusal (List Given) :=
  match lookup "SCRIPTLET_CONFIG" with
  | none => .ok []
  | some path =>
    if path.isEmpty then .error .invalidValue
    else .ok [{ item := .config, origin := .environment, values := [.text path] }]

def inlineRun (l : Language) (script document : String) : RunCommand where
  language := l
  script := some script
  input := some document

def filesRun (l : Language) (file inputFile : String) : RunCommand where
  language := l
  file := some file
  inputFile := some inputFile

section
variable {lookup : String → Option String} {args : List String} {given extra : List Given}
  {marks : List Mark}

theorem exists_options (scope : Scope) :
    ∃ others, scope.options = [.help, .version] ++ .config :: others ∧
      ∀ item ∈ others, item.standIn? = none := by
  cases scope
  all_goals exact ⟨_, rfl, by decide⟩

theorem addVariables_environment (scope : Scope) (unnamed : has given .config = false) :
    addVariables scope lookup scope.options given =
      (fromEnvironment lookup).map (given ++ ·) := by
  obtain ⟨others, options, alone⟩ := exists_options scope
  have first : addVariables scope lookup ([.help, .version] ++ .config :: others) given =
      addVariables scope lookup (.config :: others) given := rfl
  have named : Item.config.standIn?.bind lookup = lookup "SCRIPTLET_CONFIG" := rfl
  have rest (given : List Given) : addVariables scope lookup others given = .ok given :=
    (addVariables_eq ..).trans (foldlM_standIn alone)
  rw [options, first, addVariables, named]
  unfold fromEnvironment
  cases lookup "SCRIPTLET_CONFIG" with
  | none => simp [rest, Except.map]
  | some path =>
    have recorded : record scope .environment .config [path] given =
        if path.isEmpty then .error .invalidValue
        else .ok (given ++
          [{ item := .config, origin := .environment, values := [.text path] }]) := by
      rw [record_values rfl, unnamed]
      cases empty : path.isEmpty with
      | true => simp [Item.kind, Kind.value?, empty]
      | false => simp [Item.kind, Kind.value?, empty]
    dsimp only
    rw [unnamed, if_neg Bool.false_ne_true, recorded]
    split
    · rfl
    · exact rest _

theorem finish_environment : Level.finish .program lookup {} = fromEnvironment lookup := by
  have outer : addVariables .program lookup Scope.program.options [] =
      (fromEnvironment lookup).map ([] ++ ·) := addVariables_environment .program rfl
  cases added : fromEnvironment lookup with
  | error refusal =>
    rw [added] at outer
    exact outer
  | ok extra =>
    rw [added] at outer
    exact outer

theorem refused_environment {refusal : Refusal}
    (refused : fromEnvironment lookup = .error refusal) : refusal = .invalidValue := by
  unfold fromEnvironment at refused
  split at refused
  · cases refused
  · split at refused
    · exact (Except.error.inj refused).symm
    · cases refused

/-- Only the configuration file can be named by a variable. -/
theorem item_environment (added : fromEnvironment lookup = .ok extra) :
    ∀ g ∈ extra, g.item = .config := by
  unfold fromEnvironment at added
  split at added
  · rw [← Except.ok.inj added]
    exact nofun
  · split at added
    · cases added
    · rw [← Except.ok.inj added]
      simp

theorem ofItem_absent {item : Item} (absent : ∀ g ∈ given, g.item ≠ item) :
    ofItem item given = [] := by
  apply List.filter_eq_nil_iff.mpr
  intro g there same
  exact absent g there (beq_iff_eq.mp same)

section
variable {what : RunCommand} (only : ∀ g ∈ given, g.item ∉ Item.everywhere)

include only

/-- What only a run knows is told by its command alone. -/
theorem lineOf_own : lineOf (.run what) [extra, given ++ extra] =
    lineOf (.run what) [extra, extra] := by
  have equal : ∀ item ∈ Item.everywhere, ofItem item (given ++ extra) = ofItem item extra := by
    intro item known
    have absent : ∀ g ∈ given, g.item ≠ item := fun g there same => only g there (same ▸ known)
    simp [ofItem_absent absent]
  rw [lineOf_congr (.run what) (.run what) equal]
  rfl

/-- A command line on which a run is all that is told. -/
theorem parse_run {own : List String} {n : Nat} (reads : Reads .run 0 own marks n)
    (recorded : recordAll .run [] marks = .ok given) (runs : runCommand given = .ok (.run what)) :
    parse lookup ("run" :: own) =
      (fromEnvironment lookup).map fun extra => lineOf (.run what) [extra, extra] := by
  have unnamed : has given .config = false := by
    rw [has_eq, ofItem_absent fun g there same => only g there (same ▸ by decide)]
    rfl
  have inner : levels lookup .run {} own = _ := levels_recorded reads recorded
  have entered : levels lookup .program {} ("run" :: own) =
      levels lookup .run {} own >>= fun told => do
        return (told.1, (← Level.finish .program lookup {}) :: told.2) := rfl
  rw [addVariables_environment .run unnamed] at inner
  unfold parse
  rw [entered, inner, finish_environment]
  cases added : fromEnvironment lookup with
  | error refusal => rfl
  | ok extra =>
    have told : commandOf (given ++ extra) .run = .ok (.run what) := by
      apply runCommand_congr runs
      intro item own
      have absent : ∀ g ∈ extra, g.item ≠ item := by
        rintro g there rfl
        exact own (item_environment added g there ▸ by decide)
      simp [ofItem_absent absent]
    simp only [Except.map, bind, Except.bind, told]
    exact congrArg Except.ok (lineOf_own only)

end

end

section
variable {lookup : String → Option String} {l : Language} {name option value : String}
  {item : Item} {args : List String}

theorem isWord_of_language (known : Language.ofArgument false name = some l) : IsWord name := by
  have named := List.find?_some known
  simp only [Language.sameText, Bool.false_and, Bool.or_false, List.any_eq_true, beq_iff_eq,
    List.mem_cons] at named
  obtain ⟨spelling, there, rfl⟩ := named
  have words : ∀ word ∈ l.name :: l.aliases, IsWord word := by
    cases l
    all_goals decide
  exact words name (List.mem_cons.mpr there)

theorem Gives.reads (gives : Gives option value args)
    (apart : tells .run option = some ([], some item))
    (joined : tells .run (option ++ "=" ++ value) = some ([(item, [value])], none)) (n : Nat) :
    Reads .run n args [(item, [value])] n := by
  cases gives with
  | separate word => exact .value apart word .nil
  | attached => exact .option joined .nil

theorem value_language (known : Language.ofArgument false name = some l) :
    Item.language.kind.value? name = some (.language l) :=
  congrArg (Option.map Value.language) known

theorem value_path (path : item.kind = .path) (some_path : value ≠ "") :
    item.kind.value? value = some (.text value) := by
  rw [path, Kind.value?, if_neg (by simpa using some_path)]

/-- One value of an item that has not been given yet. -/
theorem recordAll_value {scope : Scope} {given : List Given} {v : Value}
    (takes : item.kind.takesValue = true) (said : item.kind.value? value = some v)
    (fresh : has given item = false) (marks : List Mark) :
    recordAll scope given ((item, [value]) :: marks) =
      recordAll scope (given ++ [{ item := item, values := [v] }]) marks := by
  have recorded : record scope .arguments item [value] given =
      .ok (given ++ [{ item := item, values := [v] }]) := by
    rw [record_values takes, fresh]
    simp [said]
  rw [recordAll, List.foldlM_cons, recorded]
  rfl

theorem reads_language (known : Language.ofArgument false name = some l) {n : Nat}
    {marks : List Mark} (others : Reads .run 0 args marks n) :
    Reads .run 0 ("--lang" :: name :: args) ((.language, [name]) :: marks) n :=
  have said : tells .run "--lang" = some ([], some .language) := rfl
  .value said (isWord_of_language known) others

/-- A run whose script and input are arguments. -/
theorem parse_given (known : Language.ofArgument false name = some l) {script document : String}
    (word : IsWord script) {given : List String} (gives : Gives "--input" document given) :
    parse lookup ("run" :: "--lang" :: name :: (given ++ [script])) =
      (fromEnvironment lookup).map fun extra =>
        lineOf (.run (inlineRun l script document)) [extra, extra] := by
  have input_read := gives.reads rfl (tells_attached "input" rfl (by decide) document) 0
  have script_read : Reads .run 0 [script] [(.script, [script])] 1 := .word word rfl rfl .nil
  have reads := reads_language known (input_read.append script_read)
  have recorded : recordAll .run [] [(.language, [name]), (.input, [document]),
      (.script, [script])] = .ok [{ item := .language, values := [.language l] },
        textsGiven .input [document], textsGiven .script [script]] := by
    rw [recordAll_value rfl (value_language known) rfl, recordAll_value rfl rfl rfl,
      recordAll_value rfl rfl rfl]
    rfl
  exact parse_run (by simp [textsGiven, Item.everywhere]) reads recorded rfl

theorem parse_files (known : Language.ofArgument false name = some l) {file inputFile : String}
    (some_file : file ≠ "") (some_input : inputFile ≠ "") {first second : List String}
    (gives : Gives "--file" file first) (gives_input : Gives "--input-file" inputFile second) :
    parse lookup ("run" :: "--lang" :: name :: (first ++ second)) =
      (fromEnvironment lookup).map fun extra =>
        lineOf (.run (filesRun l file inputFile)) [extra, extra] := by
  have file_read := gives.reads rfl (tells_attached "file" rfl (by decide) file) 0
  have input_read := gives_input.reads rfl (tells_attached "input-file" rfl (by decide) inputFile) 0
  have reads := reads_language known (file_read.append input_read)
  have recorded : recordAll .run [] [(.language, [name]), (.file, [file]),
      (.inputFile, [inputFile])] = .ok [{ item := .language, values := [.language l] },
        textsGiven .file [file], textsGiven .inputFile [inputFile]] := by
    rw [recordAll_value rfl (value_language known) rfl,
      recordAll_value rfl (value_path rfl some_file) rfl,
      recordAll_value rfl (value_path rfl some_input) rfl]
    rfl
  exact parse_run (by simp [textsGiven, Item.everywhere]) reads recorded rfl

end

/-- The arguments are those of a run of the language that gets this script, and the value of this
document as its input if it is JSON. -/
structure Gets (h : Host) (w : World) (args : List String) (l : Language)
    (script document : String) (what : RunCommand) : Prop where
  parsed : parse h.lookup args =
    (fromEnvironment h.lookup).map fun extra => lineOf (.run what) [extra, extra]
  language : what.language = l
  request : requestIn h w.tree what w.stdin =
    (Command.parseInput document).map fun input => { script := script, input := input }

section
variable {h : Host} {w : World} {l : Language} {name script document : String}

theorem requestIn_plain {t : Tree} {stdin : Bytes} {what : RunCommand}
    (script_read : scriptIn h t what stdin = .ok script)
    (input_read : inputIn h t what (scriptLeft what stdin) = Command.parseInput document)
    (no_args : what.args = []) (unnamed : what.taskId = none) : requestIn h t what stdin =
      (Command.parseInput document).map fun input => { script := script, input := input } := by
  rw [requestIn, script_read, input_read, no_args, unnamed]
  cases Command.parseInput document with
  | error f => rfl
  | ok input => rfl

theorem gets_given (known : Language.ofArgument false name = some l) (word : IsWord script)
    {given : List String} (gives : Gives "--input" document given) :
    Gets h w ("run" :: "--lang" :: name :: (given ++ [script])) l script document
      (inlineRun l script document) where
  parsed := parse_given known word gives
  language := rfl
  request := requestIn_plain rfl rfl rfl rfl

theorem ne_empty_of_read {t : Tree} {cwd : Location} {path : String} {content : Bytes}
    (found : t.read cwd path = .ok content) : path ≠ "" := by
  rintro rfl
  cases found

theorem ne_empty_of_text {t : Tree} {path : String} {stdin left : Bytes}
    (text : TextAt h t path stdin script left) : path ≠ "" := by
  cases text with
  | standardInput named =>
    rintro rfl
    cases named
  | file other content => exact ne_empty_of_read content

theorem gets_files (known : Language.ofArgument false name = some l) {file inputFile : String}
    {left : Bytes} (script_text : TextAt h w.tree file w.stdin script left)
    (other : Path.isStandardInput inputFile = false)
    (content : w.tree.read h.cwd inputFile = .ok (Utf8.encode document))
    {first second : List String} (gives : Gives "--file" file first)
    (gives_input : Gives "--input-file" inputFile second) :
    Gets h w ("run" :: "--lang" :: name :: (first ++ second)) l script document
      (filesRun l file inputFile) where
  parsed := parse_files known (ne_empty_of_text script_text) (ne_empty_of_read content) gives
    gives_input
  language := rfl
  request := by
    have input_text (stdin : Bytes) : textIn h w.tree stdin inputFile = .ok document :=
      textIn_eq_ok.mpr ⟨stdin, .file other content⟩
    refine requestIn_plain (textIn_eq_ok.mpr ⟨left, script_text⟩) ?_ rfl rfl
    exact congrArg (Except.bind · Command.parseInput) (input_text _)

end

/-- Two runs, of which the second finds other octets on standard input, end alike. -/
structure SameEnd (h : Host) (args args' : List String) (w w' : World) : Prop where
  /-- What is printed and the status are the same. -/
  report : ((Command.program h args').run w').1 = ((Command.program h args).run w).1
  /-- So are the processes and the calls with their arguments, the files, the names that have been
  tried for workspaces, and what is noted. -/
  world : ∃ left, ((Command.program h args').run w').2 =
    fed left ((Command.program h args).run w).2
  shown : Command.shownEvents h args' ((Command.program h args').run w').2 =
    Command.shownEvents h args ((Command.program h args).run w).2

section
variable {h : Host} {w : World} {args args' : List String} {l : Language}
  {script document : String} {what what' : RunCommand} {octets : Bytes}

/-- Both runs end before they have begun. -/
theorem sameEnd_of_idle {report : Report}
    (idle : (Command.program h args).run w = (report, w) ∧ Command.shownEvents h args w = [])
    (idle' : (Command.program h args').run (fed octets w) = (report, fed octets w) ∧
      Command.shownEvents h args' (fed octets w) = []) : SameEnd h args args' w (fed octets w) := by
  obtain ⟨ended, silent⟩ := idle
  obtain ⟨ended', silent'⟩ := idle'
  refine ⟨by rw [ended, ended'], ⟨octets, by rw [ended, ended']⟩, ?_⟩
  rw [ended, ended', silent, silent']

/-- Both command lines are followed, and what is different on them comes to the same request. -/
theorem sameEnd_of_accepted {line : CommandLine} (accepted : parse h.lookup args = .ok line)
    (command : line.command = .run what)
    (accepted' : parse h.lookup args' = .ok { line with command := .run what' })
    (language : what'.language = what.language)
    (request : requestIn h w.tree what' octets = requestIn h w.tree what w.stdin) :
    SameEnd h args args' w (fed octets w) := by
  cases filter : Command.directives h line with
  | error m =>
    exact sameEnd_of_idle (program_stopped accepted filter) (program_stopped accepted' filter)
  | ok ds =>
    obtain ⟨left, followed⟩ := fed_follow language request command rfl
    have ended := program_eq (w := w) accepted filter
    have ended' := program_eq (w := fed octets w) accepted' filter
    rw [followed] at ended'
    refine ⟨by rw [ended, ended'], ⟨left, by rw [ended, ended']⟩, ?_⟩
    rw [shownEvents_eq accepted filter, shownEvents_eq accepted' filter, ended, ended']
    rfl

/-- Runs in one language that get the same texts end alike. -/
theorem Gets.sameEnd (gets : Gets h w args l script document what)
    (gets' : Gets h (fed octets w) args' l script document what') :
    SameEnd h args args' w (fed octets w) := by
  have parsed := gets.parsed
  have parsed' := gets'.parsed
  cases added : fromEnvironment h.lookup with
  | error refusal =>
    rw [added] at parsed parsed'
    exact sameEnd_of_idle (program_refused parsed) (program_refused parsed')
  | ok extra =>
    rw [added] at parsed parsed'
    have language := gets'.language.trans gets.language.symm
    have request : requestIn h w.tree what' octets = requestIn h w.tree what w.stdin :=
      gets'.request.trans gets.request.symm
    exact sameEnd_of_accepted parsed rfl parsed' language request

theorem follow_unparsed {line : CommandLine} (gets : Gets h w args l script document what)
    (no_json : ∀ v, Json.parse document ≠ .ok v) (command : line.command = .run what) :
    ∃ f, (after (Command.follow h line) w).1 = .error f := by
  have request := gets.request
  rw [outcome_follow command]
  cases inChosen h w.tree line.config with
  | error f => exact ⟨f, rfl⟩
  | ok c =>
    cases read : Command.parseInput document with
    | ok v => exact absurd (RoundTrip.parseInput_eq_ok.mp read) (no_json v)
    | error f =>
      rw [read] at request
      refine ⟨f, ?_⟩
      show performed h (settings h line c) w line.format what = .error f
      rw [performed, request]
      rfl

/-- With an input that is not JSON a run fails, and prints nothing on standard output. -/
theorem Gets.fails (gets : Gets h w args l script document what)
    (no_json : ∀ v, Json.parse document ≠ .ok v) :
    ((Command.program h args).run w).1.status ≠ 0 ∧
      ((Command.program h args).run w).1.stdout = "" := by
  have parsed := gets.parsed
  cases added : fromEnvironment h.lookup with
  | error refusal =>
    rw [added] at parsed
    have status : (Report.ofRefusal .invalidValue).status ≠ 0 := by decide
    rw [(program_refused parsed).1, refused_environment added]
    exact ⟨status, rfl⟩
  | ok extra =>
    rw [added] at parsed
    cases filter : Command.directives h (lineOf (.run what) [extra, extra]) with
    | error m =>
      have status : (Report.stopped (h.notice m)).status ≠ 0 := (by decide : (101 : UInt8) ≠ 0)
      rw [(program_stopped parsed filter).1]
      exact ⟨status, rfl⟩
    | ok ds =>
      obtain ⟨f, failed⟩ := follow_unparsed gets no_json
        (rfl : (lineOf (.run what) [extra, extra]).command = .run what)
      have status : (1 : UInt8) ≠ 0 := by decide
      rw [program_eq parsed filter, failed]
      exact ⟨status, rfl⟩

end

/-- The arguments are accepted, and the request that they make has this script, and the value of
this document as its input. -/
def Receives (h : Host) (w : World) (args : List String) (l : Language)
    (script document : String) : Prop :=
  ∃ line what, parse h.lookup args = .ok line ∧ line.command = .run what ∧ what.language = l ∧
    (after (Command.readRequest h what) w).1 =
      (Command.parseInput document).map fun input => { script := script, input := input }

/-- Three runs, of which the last one finds other octets on standard input, that get the same
texts. -/
structure Agreeing (h : Host) (w w' : World) (l : Language) (script document : String)
    (inline files piped : List String) : Prop where
  from_files : SameEnd h inline files w w
  from_stdin : SameEnd h inline piped w w'
  /-- They are accepted unless the environment names the configuration file by an empty text. -/
  received : h.lookup "SCRIPTLET_CONFIG" ≠ some "" →
    Receives h w inline l script document ∧ Receives h w files l script document ∧
      Receives h w' piped l script document
  no_json : (∀ v, Json.parse document ≠ .ok v) →
    ((Command.program h inline).run w).1.status ≠ 0 ∧
      ((Command.program h inline).run w).1.stdout = ""

theorem exists_environment {lookup : String → Option String}
    (named : lookup "SCRIPTLET_CONFIG" ≠ some "") :
    ∃ extra, fromEnvironment lookup = .ok extra := by
  unfold fromEnvironment
  cases held : lookup "SCRIPTLET_CONFIG" with
  | none => exact ⟨_, rfl⟩
  | some path =>
    have some_path : ¬ path.isEmpty = true := by
      rw [held] at named
      simpa using named
    exact ⟨_, if_neg some_path⟩

theorem Gets.receives {h : Host} {w : World} {args : List String} {l : Language}
    {script document : String} {what : RunCommand} (gets : Gets h w args l script document what)
    (named : h.lookup "SCRIPTLET_CONFIG" ≠ some "") : Receives h w args l script document := by
  obtain ⟨extra, added⟩ := exists_environment named
  have accepted := gets.parsed
  rw [added] at accepted
  obtain ⟨left, read⟩ := after_readRequest (h := h) (w := w) what
  exact ⟨_, what, accepted, rfl, gets.language, (congrArg Prod.fst read).trans gets.request⟩

/-- It makes no difference to a run whether its script and its input are arguments, the texts of
files, or the script is what standard input holds, whatever the texts are. -/
theorem sources_agree {h : Host} {w : World} {l : Language}
    {name script document file inputFile : String} {given given_input : List String}
    (known : Language.ofArgument false name = some l) (word : IsWord script)
    (gives : Gives "--file" file given) (gives_input : Gives "--input-file" inputFile given_input)
    (named : Path.isStandardInput file = false)
    (content : w.tree.read h.cwd file = .ok (Utf8.encode script))
    (named_input : Path.isStandardInput inputFile = false)
    (content_input : w.tree.read h.cwd inputFile = .ok (Utf8.encode document)) :
    Agreeing h w { w with stdin := Utf8.encode script } l script document
      ["run", "--lang", name, "--input=" ++ document, script]
      (["run", "--lang", name] ++ given ++ given_input)
      (["run", "--lang", name, "--file", "-"] ++ given_input) := by
  have inline : Gets h w ["run", "--lang", name, "--input=" ++ document, script] l script document
      (inlineRun l script document) := gets_given known word .attached
  have files : Gets h (fed w.stdin w) (["run", "--lang", name] ++ given ++ given_input) l script
      document (filesRun l file inputFile) :=
    gets_files known (.file named content) named_input content_input gives gives_input
  have dash : Gives "--file" "-" ["--file", "-"] := .separate (by decide)
  have held : TextAt h (fed (Utf8.encode script) w).tree "-" (fed (Utf8.encode script) w).stdin
      script [] := .standardInput rfl
  have piped := gets_files known held named_input content_input dash gives_input
  refine ⟨inline.sameEnd files, inline.sameEnd piped, ?_, inline.fails⟩
  exact fun named => ⟨inline.receives named, files.receives named, piped.receives named⟩

def sampleScript : String := "\uFEFFprint(1)\r\n"

def sampleDocument : String := "[1]\n"

def sampleWorld : World where
  tree := (sampleFiles.put ["script.py"] (.file 0o644 (Utf8.encode sampleScript))).put
    ["-input.json"] (.file 0o644 (Utf8.encode sampleDocument))

theorem sources_agree_sample :
    Agreeing sampleScene sampleWorld { sampleWorld with stdin := Utf8.encode sampleScript } .python
      sampleScript sampleDocument
      ["run", "--lang", "py", "--input=" ++ sampleDocument, sampleScript]
      ["run", "--lang", "py", "--file", "/script.py", "--input-file=-input.json"]
      ["run", "--lang", "py", "--file", "-", "--input-file=-input.json"] := by
  have content : sampleWorld.tree.read [] "/script.py" = .ok (Utf8.encode sampleScript) := rfl
  have content_input : sampleWorld.tree.read [] "-input.json" =
    .ok (Utf8.encode sampleDocument) := rfl
  have gives : Gives "--file" "/script.py" ["--file", "/script.py"] := .separate (by decide)
  have gives_input : Gives "--input-file" "-input.json" ["--input-file=-input.json"] := .attached
  exact sources_agree rfl (by decide) gives gives_input rfl content rfl content_input

end ScriptSandbox.Proofs.SourcesAgree
