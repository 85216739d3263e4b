import ScriptSandbox.Proofs.ConfigLayers
import ScriptSandbox.Proofs.ExecutionLife
import ScriptSandbox.Proofs.OutputRecords
import ScriptSandbox.Proofs.RoundTrip
import ScriptSandbox.Proofs.RunStages

namespace ScriptSandbox.Proofs.RunCommand
open TreeGrowth FileSteps FilesOnly RunStages WorkspacesApart ExecutionLife
open RoundTrip (bind_eq_ok parseInput_eq_ok)
open OutputRecords (toJson_eq)
open ConfigLayers (inChosen inChosen_eq_ok stored after_load)

/-- The text that a path stands for, with what standard input holds before and after it is read. -/
inductive TextAt (h : Host) (t : Tree) (path : String) : Bytes → String → Bytes → Prop
  | standardInput {text : String} (named : Path.isStandardInput path = true) :
      TextAt h t path (Utf8.encode text) text []
  | file {text : String} {stdin : Bytes} (other : Path.isStandardInput path = false)
      (content : t.read h.cwd path = .ok (Utf8.encode text)) : TextAt h t path stdin text stdin

/-- The script of a command, given as it is or by a path. -/
inductive ScriptAt (h : Host) (t : Tree) (what : RunCommand) : Bytes → String → Bytes → Prop
  | given {script : String} {stdin : Bytes} (told : what.script = some script) :
      ScriptAt h t what stdin script stdin
  | read {path script : String} {stdin left : Bytes} (none_told : what.script = none)
      (named : what.file = some path) (text : TextAt h t path stdin script left) :
      ScriptAt h t what stdin script left

/-- The value that the input of a command is as JSON. Without an input it is null. -/
inductive InputAt (h : Host) (t : Tree) (what : RunCommand) : Bytes → Json → Prop
  | given {document : String} {value : Json} {stdin : Bytes} (told : what.input = some document)
      (parsed : Json.parse document = .ok value) : InputAt h t what stdin value
  | read {path document : String} {value : Json} {stdin left : Bytes}
      (none_told : what.input = none) (named : what.inputFile = some path)
      (text : TextAt h t path stdin document left) (parsed : Json.parse document = .ok value) :
      InputAt h t what stdin value
  | nothing {stdin : Bytes} (none_told : what.input = none) (none_named : what.inputFile = none) :
      InputAt h t what stdin .null

def requestOf (what : RunCommand) (script : String) (input : Json) : Request where
  script := script
  args := what.args
  input := input
  taskId := what.taskId.getD "UnknownID"

section
variable {h : Host} {t : Tree} {what : RunCommand} {stdin : Bytes}

theorem readText_eq_ok {cwd : Location} {path text : String} :
    t.readText cwd path = .ok text ↔ t.read cwd path = .ok (Utf8.encode text) := by
  constructor
  · intro found
    cases octets : t.read cwd path with
    | error e => simp only [Tree.readText, octets, bind, Except.bind, reduceCtorEq] at found
    | ok content =>
      simp only [Tree.readText, octets, bind, Except.bind] at found
      split at found
      · rename_i decoded
        obtain rfl := Except.ok.inj found
        rw [Utf8Text.decode_eq_some.mp decoded]
      · cases found
  · exact ConfigLayers.readText_of_read

@[simp]
theorem mapError_eq_ok {ε ε' α : Type} {x : Except ε α} {kind : ε → ε'} {a : α} :
    x.mapError kind = .ok a ↔ x = .ok a := by
  constructor
  · intro same
    cases x with
    | error e => cases same
    | ok a' => exact congrArg Except.ok (Except.ok.inj same)
  · rintro rfl
    rfl

theorem textIn_eq_ok {path text : String} :
    textIn h t stdin path = .ok text ↔ ∃ left, TextAt h t path stdin text left := by
  unfold textIn
  constructor
  · intro found
    split at found
    · rename_i named
      split at found
      · rename_i decoded
        obtain rfl := Except.ok.inj found
        rw [Utf8Text.decode_eq_some.mp decoded]
        exact ⟨[], .standardInput named⟩
      · cases found
    · rename_i other
      exact ⟨stdin,
        .file (Bool.eq_false_iff.mpr other) (readText_eq_ok.mp (mapError_eq_ok.mp found))⟩
  · rintro ⟨left, text⟩
    cases text with
    | standardInput named => rw [if_pos named, Utf8Text.decode_eq_some.mpr rfl]
    | file other content =>
      rw [if_neg (Bool.eq_false_iff.mp other)]
      exact mapError_eq_ok.mpr (readText_eq_ok.mpr content)

/-- Only the text of standard input is used up when it is read. -/
theorem TextAt.left_eq {path text : String} {left : Bytes}
    (text : TextAt h t path stdin text left) : left = leftBy path stdin := by
  cases text with
  | standardInput named => rw [leftBy, if_pos named]
  | file other content => rw [leftBy, if_neg (Bool.eq_false_iff.mp other)]

theorem scriptIn_eq_ok {script : String} :
    scriptIn h t what stdin = .ok script ↔ ∃ left, ScriptAt h t what stdin script left := by
  unfold scriptIn
  constructor
  · intro found
    cases told : what.script with
    | some text =>
      rw [told] at found
      obtain rfl := Except.ok.inj found
      exact ⟨stdin, .given told⟩
    | none =>
      cases named : what.file with
      | some path =>
        rw [told, named] at found
        obtain ⟨left, text⟩ := textIn_eq_ok.mp found
        exact ⟨left, .read told named text⟩
      | none =>
        rw [told, named] at found
        cases found
  · rintro ⟨left, script⟩
    cases script with
    | given told => rw [told]
    | read none_told named text =>
      rw [none_told, named]
      exact textIn_eq_ok.mpr ⟨left, text⟩

theorem ScriptAt.left_eq {script : String} {left : Bytes}
    (script : ScriptAt h t what stdin script left) : left = scriptLeft what stdin := by
  cases script with
  | given told => rw [scriptLeft, told]
  | read none_told named text => rw [scriptLeft, none_told, named, text.left_eq]

theorem inputIn_eq_ok {value : Json} :
    inputIn h t what stdin = .ok value ↔ InputAt h t what stdin value := by
  unfold inputIn
  constructor
  · intro found
    cases told : what.input with
    | some document =>
      rw [told] at found
      exact .given told (parseInput_eq_ok.mp found)
    | none =>
      cases named : what.inputFile with
      | some path =>
        rw [told, named] at found
        obtain ⟨document, read, parsed⟩ := bind_eq_ok.mp found
        obtain ⟨left, text⟩ := textIn_eq_ok.mp read
        exact .read told named text (parseInput_eq_ok.mp parsed)
      | none =>
        rw [told, named] at found
        obtain rfl := Except.ok.inj found
        exact .nothing told named
  · intro input
    cases input with
    | given told parsed =>
      rw [told]
      exact parseInput_eq_ok.mpr parsed
    | read none_told named text parsed =>
      rw [none_told, named]
      exact bind_eq_ok.mpr ⟨_, textIn_eq_ok.mpr ⟨_, text⟩, parseInput_eq_ok.mpr parsed⟩
    | nothing none_told none_named => rw [none_told, none_named]

theorem requestIn_eq_ok {r : Request} : requestIn h t what stdin = .ok r ↔
    ∃ script left input, ScriptAt h t what stdin script left ∧ InputAt h t what left input ∧
      r = requestOf what script input := by
  unfold requestIn
  simp only [bind_eq_ok, scriptIn_eq_ok, inputIn_eq_ok]
  constructor
  · rintro ⟨script, ⟨left, told⟩, input, value, made⟩
    obtain rfl := told.left_eq
    exact ⟨script, _, input, told, value, (Except.ok.inj made).symm⟩
  · rintro ⟨script, left, input, told, value, rfl⟩
    obtain rfl := told.left_eq
    exact ⟨script, ⟨_, told⟩, input, value, rfl⟩

end

/-- The binary answers when it is asked for its version, and ends well. -/
def Works (h : Host) (t : Tree) (binary : String) : Prop :=
  ∃ reply, answer h t binary ["--version"] = .ok reply ∧ reply.ending = .exit 0

/-- The binary that runs the images: the configured one, or else the first that works. -/
inductive Found (h : Host) (t : Tree) (c : WasmerConfig) : String → Prop
  | configured {path : String} (told : c.binary = some path) (works : Works h t path) :
      Found h t c path
  | system (none_told : c.binary = none) (works : Works h t Wasmer.systemBinary) :
      Found h t c Wasmer.systemBinary
  | cached (none_told : c.binary = none) (idle : ¬ Works h t Wasmer.systemBinary)
      (works : Works h t (Wasmer.cachedBinary h)) : Found h t c (Wasmer.cachedBinary h)

/-- The arguments that an image is run with, and the files at that moment. For Python the library
has been provisioned then, and is mapped into the sandbox. -/
inductive Invoked (h : Host) (c : Config) (w : World) (r : Request) :
    Language → List String → Tree → Prop
  | python {ws : Workspace} {w₁ : World}
      (provisioned : after (Workspace.provision h c.python.library) w = (.ok ws, w₁)) :
      Invoked h c w r .python (invocation c.python.binary ws r).argv w₁.tree
  | quickJs : Invoked h c w r .quickJs
      (Invocation.quickJs c.quickJs.binary (Program.quickJs r.script r.input)).argv w.tree

/-- The process ends with status zero, and before the limit is over if there is one. -/
structure EndsWell (timeout : Option Nat) (reply : Reply) : Prop where
  status : reply.ending = .exit 0
  in_time : ∀ seconds, timeout = some seconds → reply.milliseconds < seconds * 1000

section
variable {h : Host} {t : Tree} {c : Config} {w w' : World} {r : Request} {l : Language}

theorem version_isSome {binary : String} :
    (version h t binary).isSome = true ↔ Works h t binary := by
  unfold version Works
  cases answer h t binary ["--version"] with
  | error e => simp
  | ok reply =>
    dsimp only
    split
    · rename_i well
      simp [well]
    · rename_i badly
      simp [badly]

theorem located_eq_ok {c : WasmerConfig} {binary : String} :
    located h t c = .ok binary ↔ Found h t c binary := by
  unfold located
  constructor
  · intro found
    cases told : c.binary with
    | some path =>
      rw [told] at found
      dsimp only at found
      split at found
      · rename_i works
        obtain rfl := Except.ok.inj found
        exact .configured told (version_isSome.mp works)
      · cases found
    | none =>
      rw [told] at found
      dsimp only at found
      split at found
      · rename_i works
        obtain rfl := Except.ok.inj found
        exact .system told (version_isSome.mp works)
      · rename_i idle
        split at found
        · rename_i works
          obtain rfl := Except.ok.inj found
          exact .cached told (fun working => idle (version_isSome.mpr working))
            (version_isSome.mp works)
        · cases found
  · intro found
    cases found with
    | configured told works => simp only [told, version_isSome.mpr works, if_true]
    | system none_told works => simp only [none_told, version_isSome.mpr works, if_true]
    | cached none_told idle works =>
      simp only [none_told, version_isSome, idle, works, if_true, if_false]

theorem expired_eq_none {x : Wasmer} {reply : Reply} : x.expired reply = none ↔
    ∀ seconds, x.timeout = some seconds → reply.milliseconds < seconds * 1000 := by
  unfold Wasmer.expired
  cases x.timeout with
  | none => simp
  | some seconds => simp [Option.filter_eq_none_iff]

theorem ended_eq_ok {x : Wasmer} {answered : Except HostError Reply} {o : Output} :
    ended x answered = .ok o ↔ ∃ reply, answered = .ok reply ∧ EndsWell x.timeout reply ∧
      o = ⟨Utf8.decodeLossy reply.stdout, Utf8.decodeLossy reply.stderr⟩ := by
  cases answered with
  | error e => simp [ended]
  | ok reply =>
    simp only [ended, Except.ok.injEq, exists_eq_left']
    cases late : x.expired reply with
    | some seconds =>
      simp only [reduceCtorEq, false_iff, not_and]
      intro well
      rw [expired_eq_none.mpr well.in_time] at late
      cases late
    | none =>
      have in_time := expired_eq_none.mp late
      dsimp only
      split
      · rename_i status
        rw [Except.ok.injEq]
        exact ⟨fun same => ⟨⟨status, in_time⟩, same.symm⟩, fun done => done.2.symm⟩
      · rename_i badly
        simp only [reduceCtorEq, false_iff, not_and]
        exact fun well => absurd well.status badly

/-- What an execution comes to that begins with the files of the world `w`. -/
def executed (h : Host) (c : Config) (w : World) (x : Wasmer) (r : Request) :
    Language → Except Failure Output
  | .python =>
    match after (Workspace.provision h c.python.library) w with
    | (.error f, _) => .error f
    | (.ok ws, w₁) =>
      ended x (answer h w₁.tree x.binary ("run" :: (invocation c.python.binary ws r).argv))
  | .quickJs =>
    ended x (answer h w.tree x.binary
      ("run" :: (Invocation.quickJs c.quickJs.binary (Program.quickJs r.script r.input)).argv))

theorem outcome_run (x : Wasmer) (argv : List String) (w : World) :
    (after ((x.executor h).run argv) w).1 = ended x (answer h w.tree x.binary ("run" :: argv)) := by
  obtain ⟨log, ran⟩ := after_run (h := h) (w := w) x argv
  exact congrArg Prod.fst ran

theorem outcome_execute (x : Wasmer) (tree : w'.tree = w.tree) (drawn : w'.drawn = w.drawn) :
    (after ((Interpreter.ofConfig c l).execute h (x.executor h) r) w').1 =
      executed h c w x r l := by
  cases l with
  | python =>
    obtain ⟨log, provided⟩ := (onFiles_provision h c.python.library).alike tree drawn
    unfold executed
    cases result : after (Workspace.provision h c.python.library) w with
    | mk outcome w₁ =>
      rw [result] at provided
      cases outcome with
      | error f => exact congrArg Prod.fst (after_bind_error provided)
      | ok ws =>
        obtain ⟨log, log', done⟩ :=
          after_execute (x.executor h) r c.python.binary provided
        exact (congrArg Prod.fst done).trans (outcome_run x _ _)
  | quickJs =>
    obtain ⟨log, done⟩ := after_invoke (x.executor h) .quickJs r
      (Invocation.quickJs c.quickJs.binary (Program.quickJs r.script r.input)) w'
    refine (congrArg Prod.fst done).trans ((outcome_run x _ _).trans ?_)
    rw [executed, ← tree]

theorem executed_eq_ok {x : Wasmer} {o : Output} : executed h c w x r l = .ok o ↔
    ∃ argv t reply, Invoked h c w r l argv t ∧ answer h t x.binary ("run" :: argv) = .ok reply ∧
      EndsWell x.timeout reply ∧
      o = ⟨Utf8.decodeLossy reply.stdout, Utf8.decodeLossy reply.stderr⟩ := by
  constructor
  · intro done
    cases l with
    | python =>
      unfold executed at done
      cases provided : after (Workspace.provision h c.python.library) w with
      | mk outcome w₁ =>
        rw [provided] at done
        cases outcome with
        | error f => cases done
        | ok ws =>
          obtain ⟨reply, answered, well, out⟩ := ended_eq_ok.mp done
          exact ⟨_, _, reply, .python provided, answered, well, out⟩
    | quickJs =>
      obtain ⟨reply, answered, well, out⟩ := ended_eq_ok.mp done
      exact ⟨_, _, reply, .quickJs, answered, well, out⟩
  · rintro ⟨argv, t, reply, invoked, answered, well, out⟩
    have done := ended_eq_ok.mpr ⟨reply, answered, well, out⟩
    cases invoked with
    | python provided =>
      rw [executed, provided]
      exact done
    | quickJs => exact done

/-- What a run with these settings comes to that begins in the world `w`. -/
def performed (h : Host) (c : Config) (w : World) (format : Format) (what : RunCommand) :
    Except Failure Report := do
  let r ← requestIn h w.tree what w.stdin
  let binary ← located h w.tree c.wasmer
  let o ← executed h c w ⟨binary, c.wasmer.timeout⟩ r what.language
  return .ofOutput format o

theorem outcome_report {format : Format} (x : Wasmer) (tree : w'.tree = w.tree)
    (drawn : w'.drawn = w.drawn) :
    (after (do
      let o ← (Interpreter.ofConfig c l).execute h (x.executor h) r
      return Report.ofOutput format o : Action Report) w').1 =
    do
      let o ← executed h c w x r l
      return Report.ofOutput format o := by
  rw [after_bind, ← outcome_execute x tree drawn]
  cases after ((Interpreter.ofConfig c l).execute h (x.executor h) r) w' with
  | mk outcome w'' =>
  cases outcome with
  | ok o => rfl
  | error f => rfl

theorem outcome_performRun {format : Format} {what : RunCommand} (tree : w'.tree = w.tree)
    (stdin : w'.stdin = w.stdin) (drawn : w'.drawn = w.drawn) :
    (after (Command.performRun h c format what) w').1 = performed h c w format what := by
  unfold Command.performRun performed
  rw [← tree, ← stdin]
  obtain ⟨left, read⟩ := after_readRequest (h := h) (w := w') what
  rw [after_bind, read]
  cases requestIn h w'.tree what w'.stdin with
  | error f => rfl
  | ok r =>
    dsimp only
    rw [after_bind, after_lift, run_note]
    generalize World.log _ ++ _ = log
    obtain ⟨log', found⟩ :=
      after_findExecutor (h := h) (w := { w' with stdin := left, log := log }) c
    dsimp only
    rw [after_bind, found]
    cases located h w'.tree c.wasmer with
    | error f => rfl
    | ok path => exact outcome_report _ tree drawn

/-- The settings of a command line over those of the environment and of the file. -/
def settings (h : Host) (line : CommandLine) (c : Config) : Config :=
  (c.override (.ofVariables h.lookup)).override line.overrides

variable {line : CommandLine} {what : RunCommand}

theorem outcome_follow (command : line.command = .run what) :
    (after (Command.follow h line) w).1 = (inChosen h w.tree line.config >>= fun c =>
      performed h (settings h line c) w line.format what) := by
  obtain ⟨log, loaded⟩ := after_load (h := h) (w := w) line.config
  rw [Command.follow, after_bind, loaded]
  cases inChosen h w.tree line.config with
  | error f => rfl
  | ok c =>
    dsimp only [Except.map]
    rw [command]
    exact outcome_performRun rfl rfl rfl

/-- All that a run needs, from the configuration file to the process that replies. -/
inductive Succeeds (h : Host) (line : CommandLine) (what : RunCommand) (w : World) : Reply → Prop
  | intro {file : Option Toml} {c : Config} {script : String} {left : Bytes} {input : Json}
      {binary : String} {argv : List String} {t : Tree} {reply : Reply}
      (used : ConfigLayers.Used h w.tree line.config file) (typed : stored file = some c)
      (script_read : ScriptAt h w.tree what w.stdin script left)
      (input_read : InputAt h w.tree what left input)
      (found : Found h w.tree (settings h line c).wasmer binary)
      (invoked : Invoked h (settings h line c) w (requestOf what script input) what.language argv t)
      (answered : answer h t binary ("run" :: argv) = .ok reply)
      (well : EndsWell (settings h line c).wasmer.timeout reply) : Succeeds h line what w reply

theorem follow_eq_ok (command : line.command = .run what) {report : Report} :
    (after (Command.follow h line) w).1 = .ok report ↔ ∃ reply, Succeeds h line what w reply ∧
      report = .ofOutput line.format
        ⟨Utf8.decodeLossy reply.stdout, Utf8.decodeLossy reply.stderr⟩ := by
  rw [outcome_follow command]
  simp only [performed, bind_eq_ok, inChosen_eq_ok, requestIn_eq_ok, located_eq_ok, executed_eq_ok]
  constructor
  · rintro ⟨c, ⟨file, used, typed⟩, r, ⟨script, left, input, told, given, rfl⟩, binary, found,
      o, ⟨argv, t, reply, invoked, answered, well, rfl⟩, made⟩
    exact ⟨reply, .intro used typed told given found invoked answered well,
      (Except.ok.inj made).symm⟩
  · rintro ⟨reply, ⟨used, typed, told, given, found, invoked, answered, well⟩, rfl⟩
    exact ⟨_, ⟨_, used, typed⟩, _, ⟨_, _, _, told, given, rfl⟩, _, found,
      _, ⟨_, _, reply, invoked, answered, well, rfl⟩, rfl⟩

section
variable (tags : ∀ n, '/' ∉ (h.tag n).toList)
  (arranged : ∀ l names, (h.arrange l names).Perm names)
  (removable : ∀ path, h.refuse (.removeAll path) = none)

include tags arranged removable

theorem files_interpreter (x : Wasmer) (proper : Proper w.tree) :
    Ensures ((Interpreter.ofConfig c l).execute h (x.executor h) r) w fun _ w' =>
      ∀ m, w'.tree.get? m = w.tree.get? m := by
  cases l with
  | python =>
    apply (files_execute proper tags arranged (contained_wasmer x)).mono
    exact fun _ _ post => post.2 removable
  | quickJs =>
    obtain ⟨log, done⟩ := after_invoke (x.executor h) .quickJs r
      (Invocation.quickJs c.quickJs.binary (Program.quickJs r.script r.input)) w
    intro m
    have tree := congrArg (fun done => done.2.tree) done
    rw [tree_wasmer] at tree
    exact congrArg (·.get? m) tree

theorem files_performRun {format : Format} (proper : Proper w.tree) :
    Ensures (Command.performRun h c format what) w fun _ w' =>
      ∀ m, w'.tree.get? m = w.tree.get? m := by
  obtain ⟨left, read⟩ := after_readRequest (h := h) (w := w) what
  cases request : requestIn h w.tree what w.stdin with
  | error f =>
    rw [request] at read
    exact ensures_bind_error read fun _ => rfl
  | ok r =>
    rw [request] at read
    apply ensures_bind_ok read
    apply ensures_note
    intro w₁ same
    have tree : w₁.tree = w.tree := same
    rw [← tree]
    obtain ⟨log, found⟩ := after_findExecutor (h := h) (w := w₁) c
    cases binary : located h w₁.tree c.wasmer with
    | error f =>
      rw [binary] at found
      exact ensures_bind_error found fun _ => rfl
    | ok path =>
      rw [binary] at found
      let w₂ : World :=
        { w₁ with launches := w₁.launches ++ tried h w₁.tree c.wasmer, log := log }
      have proper₂ : Proper w₂.tree := by
        rw [← tree] at proper
        exact proper
      apply ensures_bind_ok found
      apply ensures_bind (files_interpreter tags arranged removable _ proper₂)
      · exact fun _ _ same => same
      · exact fun _ _ same => same

theorem files_follow (command : line.command = .run what) (proper : Proper w.tree) :
    Ensures (Command.follow h line) w fun _ w' => ∀ m, w'.tree.get? m = w.tree.get? m := by
  obtain ⟨log, loaded⟩ := after_load (h := h) (w := w) line.config
  cases chosen : inChosen h w.tree line.config with
  | error f =>
    rw [chosen] at loaded
    exact ensures_bind_error loaded fun _ => rfl
  | ok c =>
    rw [chosen] at loaded
    apply ensures_bind_ok loaded
    rw [command]
    exact files_performRun tags arranged removable proper

end

/-- The text of octets: their characters, with one U+FFFD for each ill-formed part, as long as it
can be. Octets of a text are the octets of what is shown. -/
structure Shows (octets : Bytes) (text : String) : Prop where
  reading : ∃ ps, Utf8Text.Reading octets ps ∧ text = String.ofList (ps.map (·.getD '\uFFFD'))
  faithful : ∀ s, octets = Utf8.encode s → Utf8.encode text = octets

/-- What is printed of a process that has ended well. -/
inductive Printed (reply : Reply) (report : Report) : Format → Prop
  | text (stdout : Shows reply.stdout report.stdout) (stderr : Shows reply.stderr report.stderr) :
      Printed reply report .text
  | json {out err : String} (stdout : Shows reply.stdout out) (stderr : Shows reply.stderr err)
      (line : report.stdout =
        (Json.object [("stderr", .string err), ("stdout", .string out)]).text ++ "\n")
      (silent : report.stderr = "") : Printed reply report .json

theorem shows_decodeLossy (octets : Bytes) : Shows octets (Utf8.decodeLossy octets) := by
  have read := Utf8Text.reading_iff.mpr (rfl : Utf8.parts octets = Utf8.parts octets)
  refine ⟨⟨_, read, Utf8Text.decodeLossy_of_reading read⟩, ?_⟩
  rintro s rfl
  rw [Utf8Text.decodeLossy_encode]

/-- Octets have one text. -/
theorem Shows.text_eq {octets : Bytes} {text : String} (shown : Shows octets text) :
    text = Utf8.decodeLossy octets := by
  obtain ⟨ps, reading, same⟩ := shown.reading
  rw [same, Utf8Text.decodeLossy_of_reading reading]

theorem printed_ofOutput (reply : Reply) (format : Format) :
    Printed reply (.ofOutput format
      ⟨Utf8.decodeLossy reply.stdout, Utf8.decodeLossy reply.stderr⟩) format := by
  cases format with
  | text => exact .text (shows_decodeLossy _) (shows_decodeLossy _)
  | json =>
    refine .json (shows_decodeLossy reply.stdout) (shows_decodeLossy reply.stderr) ?_ rfl
    rw [Report.ofOutput, toJson_eq]

/-- How the program ends that follows a command line to run a script, from the world `w` on. -/
structure Followed (h : Host) (args : List String) (line : CommandLine) (what : RunCommand)
    (ds : List Directive) (w : World) (report : Report) (w' : World) : Prop where
  status_zero : report.status = 0 ↔ ∃ reply, Succeeds h line what w reply
  printed : ∀ reply, Succeeds h line what w reply → Printed reply report line.format
  otherwise : report.status ≠ 0 → report.status = 1 ∧ report.stdout = ""
  /-- Nothing is printed but that if the log is off. -/
  quiet : (∀ e : Event, e.isShown ds = false) → Command.shownEvents h args w' = []
  restored : (∀ path, h.refuse (.removeAll path) = none) → ∀ m, w'.tree.get? m = w.tree.get? m

/-- How the program ends with a command line to run a script. A filter for the log that cannot be
cut into its parts stops it before anything is done. -/
structure Reported (h : Host) (args : List String) (line : CommandLine) (what : RunCommand)
    (w : World) (report : Report) (w' : World) : Prop where
  stopped : ∀ m, Command.directives h line = .error m →
    report = .stopped (h.notice m) ∧ w' = w ∧ Command.shownEvents h args w' = []
  followed : ∀ ds, Command.directives h line = .ok ds → Followed h args line what ds w report w'

section
variable {args : List String} {ds : List Directive}

/-- Without a command line to follow nothing is done. -/
theorem program_refused {refusal : CommandLine.Refusal}
    (refused : CommandLine.parse h.lookup args = .error refusal) :
    (Command.program h args).run w = (.ofRefusal refusal, w) ∧
      Command.shownEvents h args w = [] := by
  constructor
  · unfold Command.program
    simp only [refused]
    rfl
  · simp only [Command.shownEvents, refused]

variable (accepted : CommandLine.parse h.lookup args = .ok line)

include accepted

/-- Nothing is done either with a filter for the log that cannot be read. -/
theorem program_stopped {m : Misfit} (unreadable : Command.directives h line = .error m) :
    (Command.program h args).run w = (.stopped (h.notice m), w) ∧
      Command.shownEvents h args w = [] := by
  constructor
  · unfold Command.program
    simp only [accepted, unreadable]
    rfl
  · simp only [Command.shownEvents, accepted, unreadable]

variable (filter : Command.directives h line = .ok ds)

include filter

theorem program_eq : (Command.program h args).run w =
    (match (after (Command.follow h line) w).1 with
      | .ok report => report
      | .error f => .ofFailure f,
      (after (Command.follow h line) w).2) := by
  have followed : (Command.follow h line).run.run w = after (Command.follow h line) w := rfl
  unfold Command.program
  simp only [accepted, filter]
  rw [StateT.run_bind, followed]
  generalize after (Command.follow h line) w = done
  obtain ⟨outcome, w'⟩ := done
  cases outcome with
  | ok report => rfl
  | error f => rfl

theorem shownEvents_eq (w : World) :
    Command.shownEvents h args w = w.log.filter (·.isShown ds) := by
  simp only [Command.shownEvents, accepted, filter]

theorem shownEvents_eq_nil (off : ∀ e : Event, e.isShown ds = false) (w : World) :
    Command.shownEvents h args w = [] := by
  rw [shownEvents_eq accepted filter]
  apply List.filter_eq_nil_iff.mpr
  intro e _
  rw [off e]
  exact Bool.false_ne_true

theorem followed_program (command : line.command = .run what) (proper : Proper w.tree)
    (tags : ∀ n, '/' ∉ (h.tag n).toList) (arranged : ∀ l names, (h.arrange l names).Perm names) :
    Followed h args line what ds w ((Command.program h args).run w).1
      ((Command.program h args).run w).2 := by
  have restored (removable : ∀ path, h.refuse (.removeAll path) = none) :=
    files_follow tags arranged removable command proper
  rw [program_eq accepted filter]
  have succeeds := @follow_eq_ok h w line what command
  unfold Ensures at restored
  generalize after (Command.follow h line) w = done at succeeds restored ⊢
  obtain ⟨outcome, w'⟩ := done
  cases outcome with
  | ok report =>
    obtain ⟨reply, done, rfl⟩ := succeeds.mp rfl
    refine ⟨⟨fun _ => ⟨reply, done⟩, ?_⟩, ?_, ?_, ?_, restored⟩
    · intro _
      cases line.format with
      | text => rfl
      | json => rfl
    · intro reply' done'
      have same := Except.ok.inj (succeeds.mpr ⟨reply', done', rfl⟩)
      dsimp only
      rw [same]
      exact printed_ofOutput reply' line.format
    · intro other
      cases format : line.format with
      | text => simp [format, Report.ofOutput] at other
      | json => simp [format, Report.ofOutput] at other
    · exact fun off => shownEvents_eq_nil accepted filter off w'
  | error f =>
    have fails (reply : Reply) : ¬ Succeeds h line what w reply := by
      intro done
      cases succeeds.mpr ⟨reply, done, rfl⟩
    refine ⟨⟨?_, ?_⟩, ?_, ?_, ?_, restored⟩
    · intro zero
      cases zero
    · rintro ⟨reply, done⟩
      exact absurd done (fails reply)
    · exact fun reply done => absurd done (fails reply)
    · exact fun _ => ⟨rfl, rfl⟩
    · exact fun off => shownEvents_eq_nil accepted filter off w'

end

/-- A command line to run a script is followed to its end. With a filter for the log that can be
read, such as the one that turns it off, the status is zero when every stage does its part, and else
one. -/
theorem reported_program {args : List String}
    (accepted : CommandLine.parse h.lookup args = .ok line)
    (command : line.command = .run what) (proper : Proper w.tree)
    (tags : ∀ n, '/' ∉ (h.tag n).toList) (arranged : ∀ l names, (h.arrange l names).Perm names) :
    Reported h args line what w ((Command.program h args).run w).1
      ((Command.program h args).run w).2 where
  stopped m unreadable := by
    obtain ⟨done, nothing⟩ := program_stopped (w := w) accepted unreadable
    rw [done]
    exact ⟨rfl, rfl, nothing⟩
  followed ds filter := followed_program accepted filter command proper tags arranged

end

/-- An empty filter has no directives, and so shows nothing. -/
theorem directives_empty {h : Host} {line : CommandLine} (empty : h.lookup "RUST_LOG" = some "") :
    Command.directives h line = .ok [] := by
  rw [Command.directives, empty]
  rfl

def sampleScene : Host where
  env := [("RUST_LOG", ""), ("PYTHON_LIB_PATH", "/lib")]
  programs l := if l = ["wasmer"] then some fun _ => { stdout := [0x68, 0x69, 0xFF] } else none
  tag n := String.ofList (List.replicate (n + 1) 'x')

/-- A library of one file, an empty directory for temporary files, and a wasmer. -/
def sampleFiles : Tree := WorkspacesApart.sampleTree.put ["wasmer"] (.file 0o755 [])

def sampleArguments : List String := ["--wasmer", "/wasmer", "run", "--lang", "python", "1"]

def sampleCommand : RunCommand where
  language := .python
  script := some "1"

def sampleLine : CommandLine where
  command := .run sampleCommand
  overrides := { wasmerBinary := some "/wasmer" }

theorem reported_program_sample :
    Followed sampleScene sampleArguments sampleLine sampleCommand [] { tree := sampleFiles }
      ((Command.program sampleScene sampleArguments).run { tree := sampleFiles }).1
      ((Command.program sampleScene sampleArguments).run { tree := sampleFiles }).2 := by
  have accepted : CommandLine.parse sampleScene.lookup sampleArguments = .ok sampleLine := rfl
  have filter : Command.directives sampleScene sampleLine = .ok [] := directives_empty rfl
  have plain : Plain "wasmer" := ⟨by decide, by decide, by decide, by decide⟩
  have reported := reported_program (w := { tree := sampleFiles }) accepted rfl
    (setting_sample.proper.put rfl rfl plain) setting_sample.tags fun _ names => .refl names
  exact reported.followed [] filter

/-- The scene with a filter in which the area starts and ends inside of characters, as the blank in
front shifts it. -/
def misfitScene : Host :=
  { sampleScene with env := [("RUST_LOG", " aé=info"), ("PYTHON_LIB_PATH", "/lib")] }

/-- Whether every stage would do its part or not, the status is neither zero nor one: the program
is stopped before the first stage. -/
theorem stopped_misfit :
    CommandLine.parse misfitScene.lookup sampleArguments = .ok sampleLine ∧
    ∀ w, ((Command.program misfitScene sampleArguments).run w).1.status = 101 ∧
      ((Command.program misfitScene sampleArguments).run w).2 = w := by
  have accepted : CommandLine.parse misfitScene.lookup sampleArguments = .ok sampleLine := rfl
  have unreadable : Command.directives misfitScene sampleLine = .error ⟨" aé=info", 0, 3⟩ := rfl
  refine ⟨accepted, fun w => ?_⟩
  rw [(program_stopped accepted unreadable).1]
  exact ⟨rfl, rfl⟩

end ScriptSandbox.Proofs.RunCommand
