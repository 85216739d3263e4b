import ScriptSandbox.Proofs.SourcesAgree

namespace ScriptSandbox.Proofs.InputArgument
open CommandLine Level Grammar Acceptance FileSteps RunStages RoundTrip SourcesAgree
open RunLines (lineOf)

/-- A dash is the sign of a number, with a digit behind it. -/
theorem number_of_dash {document : String} {v : Json} {cs : List Char}
    (read : Json.parse document = .ok v) (dash : document.toList = '-' :: cs) :
    IsNumber v ∧ ∃ d ds, cs = d :: ds ∧ d.isDigit = true := by
  obtain ⟨⟨w, rest⟩, found, ended⟩ := bind_eq_ok.mp read
  obtain ⟨inner, same⟩ := value_eq Json.depthLimit
  rw [dash, same] at found
  have number : Json.Parser.number true cs = .ok (w, rest) := found
  dsimp only at ended
  split at ended
  · obtain rfl := Except.ok.inj ended
    exact ⟨isNumber_number number, NumberText.number_head number⟩
  · cases ended

section
variable {lookup : String → Option String} {scope : Scope} {l : CommandLine.Level} {arg : String}

/-- What cannot be taken stops the reading, whatever comes after it. -/
theorem levels_refused {refusal : Refusal} (stays : entered? scope l arg = none)
    (refused : l.take scope arg = .error refusal) (rest : List String) :
    levels lookup scope l (arg :: rest) = .error refusal := by
  rw [levels, stays, refused]
  rfl

theorem lettered?_digit {d : Char} (digit : d.isDigit = true) (scope : Scope) :
    scope.lettered? d = none := by
  apply List.find?_eq_none.mpr
  intro item _
  have no_digit : ∀ c, item.letter? = some c → c.isDigit = false := by
    cases item
    all_goals simp [Item.letter?]
  simp only [beq_iff_eq]
  intro same
  simpa [digit] using no_digit d same

/-- A number with a sign is no option of any command. -/
theorem take_signed {d : Char} {ds : List Char} (open_still : l.trailing = false)
    (text : arg.toList = '-' :: d :: ds) (digit : d.isDigit = true) :
    l.take scope arg = .error .unknownArgument := by
  have other : d ≠ '-' := by
    rintro rfl
    cases digit
  rw [take_letters open_still text other, takeLetters, lettered?_digit digit]

end

section
variable {lookup : String → Option String} {l : Language} {name document script : String}

/-- What stands after the option is not taken for its value. -/
theorem levels_signed (known : Language.ofArgument false name = some l) {d : Char} {ds : List Char}
    (text : document.toList = '-' :: d :: ds) (digit : d.isDigit = true) :
    levels lookup .run {} ["--lang", name, "--input", document, script] =
      .error .unknownArgument := by
  have reads : Reads .run 0 ["--lang", name] [(.language, [name])] 0 := reads_language known .nil
  have recorded : recordAll .run [] [(.language, [name])] =
      .ok [{ item := .language, values := [.language l] }] :=
    recordAll_value rfl (value_language known) rfl []
  obtain ⟨before, place, -, said, same⟩ :=
    @levels_of_recorded .run _ lookup _ _ _ _ _ reads .start rfl recorded
  have option : tells .run "--input" = some ([], some .input) := rfl
  rw [← List.append_nil before.pending.toList] at said
  have becomes : Becomes .run before [] (some (.input, [])) { before with
      given := [{ item := .language, values := [.language l] }], pending := some (.input, []) } :=
    ⟨_, said, rfl⟩
  have stays (l : CommandLine.Level) : entered? .run l document = none := by
    unfold entered?
    split
    · rfl
    · rfl
  calc levels lookup .run {} (["--lang", name] ++ ["--input", document, script])
    _ = levels lookup .run before ["--input", document, script] := same _
    _ = levels lookup .run _ [document, script] := place.option_levels
      (not_isWord_of_tells option).1 _ (take_option place.open_still option becomes)
    _ = .error .unknownArgument := levels_refused (stays _)
      (take_signed (becomes.trailing_eq.trans place.open_still) text digit) [script]

theorem parse_signed (known : Language.ofArgument false name = some l) {d : Char} {ds : List Char}
    (text : document.toList = '-' :: d :: ds) (digit : d.isDigit = true) :
    parse lookup ["run", "--lang", name, "--input", document, script] =
      .error .unknownArgument := by
  have entered (own : List String) : levels lookup .program {} ("run" :: own) =
      levels lookup .run {} own >>= fun told => do
        return (told.1, (← Level.finish .program lookup {}) :: told.2) := rfl
  unfold parse
  rw [entered, levels_signed known text digit]
  rfl

theorem parse_separate {v : Json} (known : Language.ofArgument false name = some l)
    (word : IsWord script) (read : Json.parse document = .ok v) :
    parse lookup ["run", "--lang", name, "--input", document, script] =
      if document.toList.head? = some '-' then .error .unknownArgument
      else (fromEnvironment lookup).map fun extra =>
        lineOf (.run (inlineRun l script document)) [extra, extra] := by
  split
  · rename_i dash
    obtain ⟨cs, text⟩ := List.head?_eq_some_iff.mp dash
    obtain ⟨-, d, ds, rfl, digit⟩ := number_of_dash read text
    exact parse_signed known text digit
  · rename_i no_dash
    have plain : IsWord document := by
      intro c cs text
      exact no_dash (by rw [text]; rfl)
    exact parse_given known word (.separate plain)

theorem environment_iff :
    (∃ extra, fromEnvironment lookup = .ok extra) ↔ lookup "SCRIPTLET_CONFIG" ≠ some "" := by
  constructor
  · intro ⟨extra, added⟩ empty
    rw [fromEnvironment, empty] at added
    cases added
  · exact exists_environment

end

/-- What becomes of a command line on which an input, that is JSON, is an argument of its own. -/
structure Argued (h : Host) (w : World) (l : Language) (name script document : String)
    (v : Json) : Prop where
  /-- Nothing that starts with a dash is taken; all else is, as it stands. -/
  parsed : parse h.lookup ["run", "--lang", name, "--input", document, script] =
    if document.toList.head? = some '-' then .error .unknownArgument
    else (fromEnvironment h.lookup).map fun extra =>
      lineOf (.run (inlineRun l script document)) [extra, extra]
  accepted : (∃ line, parse h.lookup ["run", "--lang", name, "--input", document, script] =
    .ok line) ↔ document.toList.head? ≠ some '-' ∧ h.lookup "SCRIPTLET_CONFIG" ≠ some ""
  /-- Only numbers start with a dash. -/
  signed : document.toList.head? = some '-' → IsNumber v
  /-- After an equals sign any input is taken. -/
  attached : parse h.lookup ["run", "--lang", name, "--input=" ++ document, script] =
    (fromEnvironment h.lookup).map fun extra =>
      lineOf (.run (inlineRun l script document)) [extra, extra]
  request : (after (Command.readRequest h (inlineRun l script document)) w).1 =
    .ok { script := script, input := v }

/-- An argument with JSON in it is the input of a run just when it does not start with a dash. -/
theorem argued_json {h : Host} {w : World} {l : Language} {name script document : String} {v : Json}
    (known : Language.ofArgument false name = some l) (word : IsWord script)
    (json : Command.parseInput document = .ok v) : Argued h w l name script document v := by
  have read := parseInput_eq_ok.mp json
  have attached : Gets h w ["run", "--lang", name, "--input=" ++ document, script] l script document
      (inlineRun l script document) := gets_given known word .attached
  have request : (after (Command.readRequest h (inlineRun l script document)) w).1 =
      .ok { script := script, input := v } := by
    obtain ⟨left, outcome⟩ := after_readRequest (h := h) (w := w) (inlineRun l script document)
    rw [outcome, attached.request, json]
    rfl
  have parsed : parse h.lookup _ = _ := parse_separate known word read
  refine ⟨parsed, ?_, ?_, attached.parsed, request⟩
  · rw [parsed, ← environment_iff]
    split
    · rename_i dash
      simp [dash]
    · rename_i no_dash
      cases fromEnvironment h.lookup with
      | error refusal => simp [Except.map]
      | ok extra => simp [Except.map, no_dash]
  · intro dash
    obtain ⟨cs, text⟩ := List.head?_eq_some_iff.mp dash
    exact (number_of_dash read text).1

/-- Behind a space or a bracket a dash is none at the start. -/
theorem argued_json_sample :
    Argued Proofs.RunCommand.sampleScene sampleWorld .quickJs "js" "return $;" " [-1]\n"
      (.array [.int (-1)]) := by
  have json : Command.parseInput " [-1]\n" = .ok (.array [.int (-1)]) := rfl
  exact argued_json rfl (by decide) json

/-- A negative number is JSON, and no command line takes it like this. -/
theorem negative_refused : Command.parseInput "-1" = .ok (.int (-1)) ∧
    ∀ lookup : String → Option String,
      parse lookup ["run", "--lang", "python", "--input", "-1", "return 1"] =
        .error .unknownArgument :=
  ⟨rfl, fun _ => parse_signed rfl rfl rfl⟩

end ScriptSandbox.Proofs.InputArgument
