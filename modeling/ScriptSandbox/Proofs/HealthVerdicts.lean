import ScriptSandbox.Proofs.StageOrder
import ScriptSandbox.Sandbox.Prepared

namespace ScriptSandbox.Proofs.HealthVerdicts
open TreeGrowth FileSteps RunStages WorkspacesApart ExecutionLife
open StageOrder (wasmer_outcome)
open Proofs.RunCommand (sampleScene sampleFiles)

/-- The execution of the probe of a language. -/
def probed (h : Host) (e : Executor) (c : Config) (l : Language) (w : World) :
    Except Failure Output × World :=
  after (Interpreter.execute h e (Interpreter.probeRequest l l.probe) (Interpreter.ofConfig c l)) w

/-- What a probe must produce. -/
def expected (p : Probe) : Output := ⟨p.stdout, p.stderr⟩

section
variable {h : Host} {e : Executor} {c : Config} {l : Language} {w : World}

theorem passes_iff {p : Probe} {o : Output} : p.passes o = true ↔ o = expected p := by
  obtain ⟨out, err⟩ := o
  simp [Probe.passes, expected]

theorem run_bind_of_run {α β : Type} {step : StateM World α} {f : α → StateM World β} {a : α}
    {w' : World} (first : step.run w = (a, w')) : (step >>= f).run w = (f a).run w' := by
  rw [StateT.run_bind, first]
  rfl

/-- A check is the execution of the probe, but for what is noted of it, and its verdict compares
both streams. -/
theorem run_isHealthy : ∃ verdict log,
    ((Interpreter.ofConfig c l).isHealthy h e).run w =
      (verdict, { (probed h e c l w).2 with log := log }) ∧
      (verdict = true ↔ (probed h e c l w).1 = .ok (expected l.probe)) := by
  have language : (Interpreter.ofConfig c l).language = l := by cases l <;> rfl
  unfold Interpreter.isHealthy Interpreter.runProbe
  rw [language]
  cases executed : probed h e c l w with
  | mk outcome w' =>
  have ran : (Interpreter.execute h e (Interpreter.probeRequest l l.probe)
      (Interpreter.ofConfig c l)).run.run w = (outcome, w') := executed
  rw [run_bind_of_run ran]
  cases outcome with
  | error f => exact ⟨false, _, rfl, by simp⟩
  | ok o =>
    dsimp only
    by_cases passed : l.probe.passes o = true
    · rw [if_pos passed]
      exact ⟨true, _, rfl, by simp [passes_iff.mp passed]⟩
    · rw [if_neg passed]
      have other : o ≠ expected l.probe := fun same => passed (passes_iff.mpr same)
      exact ⟨false, _, rfl, by simp [other]⟩

end

/-- The verdicts on languages that are checked in this order, from the world `w` on. Each check
begins where the one before it has ended. -/
inductive Judged (h : Host) (e : Executor) (c : Config) :
    List Language → World → List (Language × Bool) → World → Prop
  | nil {w : World} : Judged h e c [] w [] w
  | cons {l : Language} {ls : List Language} {w w' : World} {verdict : Bool}
      {verdicts : List (Language × Bool)} {log : List Event}
      (deserved : verdict = true ↔ (probed h e c l w).1 = .ok (expected l.probe))
      (rest : Judged h e c ls { (probed h e c l w).2 with log := log } verdicts w') :
      Judged h e c (l :: ls) w ((l, verdict) :: verdicts) w'

section
variable {h : Host} {e : Executor} {c : Config}

theorem judged_checkEach (languages : List Language) (w : World) :
    Judged h e c languages w ((Interpreter.checkEach h e c languages).run w).1
      ((Interpreter.checkEach h e c languages).run w).2 := by
  induction languages generalizing w with
  | nil => exact .nil
  | cons l ls ih =>
    obtain ⟨verdict, log, checked, deserved⟩ := run_isHealthy (h := h) (e := e) (c := c) (l := l)
      (w := w)
    unfold Interpreter.checkEach
    rw [run_bind_of_run checked]
    exact .cons deserved (ih _)

theorem Judged.languages {languages : List Language} {w w' : World}
    {verdicts : List (Language × Bool)} (judged : Judged h e c languages w verdicts w') :
    verdicts.map Prod.fst = languages := by
  induction judged with
  | nil => rfl
  | cons deserved rest ih => rw [List.map_cons, ih]

end

def pythonArgv (c : Config) (ws : Workspace) : List String :=
  (invocation c.python.binary ws (Interpreter.probeRequest .python Probe.python)).argv

def quickJsArgv (c : Config) : List String :=
  (Invocation.quickJs c.quickJs.binary (Program.quickJs Probe.quickJs.script .null)).argv

/-- What comes of the Python probe, and the calls of the executor for it. Without a workspace there
is none. -/
inductive PythonProbe (h : Host) (e : Executor) (c : Config) (w : World) :
    Except Failure Output → List Call → Prop
  | unprovisioned {f : Failure} {w₁ : World}
      (fails : after (Workspace.provision h c.python.library) w = (.error f, w₁)) :
      PythonProbe h e c w (.error f) []
  | called {ws : Workspace} {w₁ : World}
      (provisioned : after (Workspace.provision h c.python.library) w = (.ok ws, w₁)) :
      PythonProbe h e c w
        (after (e.run (pythonArgv c ws))
          { w₁ with calls := w.calls ++ [⟨pythonArgv c ws, w₁.tree⟩] }).1
        [⟨pythonArgv c ws, w₁.tree⟩]

section
variable {h : Host} {e : Executor} {c : Config} {w : World}

theorem probed_python (unrecorded : ∀ argv w, (after (e.run argv) w).2.calls = w.calls) :
    ∃ made, PythonProbe h e c w (probed h e c .python w).1 made ∧
      (probed h e c .python w).2.calls = w.calls ++ made := by
  cases provided : after (Workspace.provision h c.python.library) w with
  | mk outcome w₁ =>
  cases outcome with
  | error f =>
    have failed : probed h e c .python w = (.error f, w₁) := after_bind_error provided
    have kept := calls_provision h c.python.library w
    rw [provided] at kept
    rw [failed]
    exact ⟨[], .unprovisioned provided, kept.trans (List.append_nil _).symm⟩
  | ok ws =>
    obtain ⟨log, log', executed⟩ :=
      after_execute e (Interpreter.probeRequest .python Probe.python) c.python.binary provided
    have done : probed h e c .python w = _ := executed
    rw [done]
    refine ⟨_, .called provided, ?_⟩
    dsimp only
    rw [(FilesOnly.onFiles_removeAll h ws.path).calls]
    exact unrecorded _ _

/-- The arguments of the QuickJS probe do not depend on the world. -/
theorem probed_quickJs (h : Host) (e : Executor) (c : Config) (w : World) : ∃ log,
    probed h e c .quickJs w =
      ((after (e.run (quickJsArgv c))
          { w with calls := w.calls ++ [⟨quickJsArgv c, w.tree⟩] }).1,
        { (after (e.run (quickJsArgv c))
            { w with calls := w.calls ++ [⟨quickJsArgv c, w.tree⟩] }).2 with log := log }) :=
  after_invoke e .quickJs (Interpreter.probeRequest .quickJs Probe.quickJs)
    (Invocation.quickJs c.quickJs.binary (Program.quickJs Probe.quickJs.script .null)) w

theorem unmapped_quickJs (c : Config) (path : String) :
    (quickJsArgv c)[1]? ≠ some ("--mapdir=lib:" ++ path) := by
  intro mapped
  have text := congrArg String.toList (Option.some.inj mapped)
  rw [String.toList_append] at text
  simp at text

/-- No directory is mapped for QuickJS, so its executor changes nothing. -/
theorem files_quickJs (contained : Contained h e) (m : Location) :
    (after (e.run (quickJsArgv c)) w).2.tree.get? m = w.tree.get? m := by
  apply Decidable.by_contra
  intro different
  obtain ⟨path, l, mapped, -⟩ := contained.within _ w m different
  exact unmapped_quickJs c path mapped

end

/-- The verdicts on both languages, after which the world is `w'`. The executor is asked for QuickJS
in the world `asked`. -/
structure Verdicts (h : Host) (e : Executor) (c : Config) (w : World) (python quickJs : Bool)
    (asked w' : World) : Prop where
  python_deserved : python = true ↔ (probed h e c .python w).1 = .ok (expected Probe.python)
  /-- What the executor is asked for QuickJS is the same whatever has come of the Python probe. -/
  quickJs_deserved : quickJs = true ↔
    (after (e.run (quickJsArgv c)) asked).1 = .ok (expected Probe.quickJs)
  /-- It is called for each language at most once. -/
  called : ∃ made, PythonProbe h e c w (probed h e c .python w).1 made ∧
    asked.calls = w.calls ++ made ++ [⟨quickJsArgv c, asked.tree⟩]
  calls : w'.calls = asked.calls
  /-- The workspace is gone before the executor is asked for QuickJS, and nothing else is left. -/
  restored : (∀ path, h.refuse (.removeAll path) = none) →
    ∀ m, asked.tree.get? m = w.tree.get? m
  unchanged : (∀ path, h.refuse (.removeAll path) = none) → ∀ m, w'.tree.get? m = w.tree.get? m

theorem verdicts_checkAll {h : Host} {e : Executor} {w : World} (c : Config)
    (proper : Proper w.tree) (tags : ∀ n, '/' ∉ (h.tag n).toList)
    (arranged : ∀ l names, (h.arrange l names).Perm names) (contained : Contained h e) :
    ∃ python quickJs asked, ((Interpreter.checkAll h e c).run w).1 =
        [(.python, python), (.quickJs, quickJs)] ∧
      Verdicts h e c w python quickJs asked ((Interpreter.checkAll h e c).run w).2 := by
  have judged : Judged h e c [.python, .quickJs] w ((Interpreter.checkAll h e c).run w).1
      ((Interpreter.checkAll h e c).run w).2 := judged_checkEach Language.all w
  generalize (Interpreter.checkAll h e c).run w = checked at judged ⊢
  obtain ⟨verdicts, w'⟩ := checked
  obtain ⟨made, python, calls⟩ := probed_python (h := h) (c := c) (w := w) contained.calls
  have files : Ensures (Interpreter.execute h e (Interpreter.probeRequest .python Probe.python)
      (.python c.python.binary c.python.library)) w _ :=
    files_execute proper tags arranged contained
  obtain ⟨-, gone⟩ := files
  have restored (removable : ∀ path, h.refuse (.removeAll path) = none) :
      ∀ m, (probed h e c .python w).2.tree.get? m = w.tree.get? m := gone removable
  cases judged with
  | @cons _ _ _ _ pythonVerdict _ log deserved rest =>
  cases rest with
  | @cons _ _ _ _ quickJsVerdict _ log' deserved' rest =>
  cases rest
  obtain ⟨log'', answered⟩ := probed_quickJs h e c { (probed h e c .python w).2 with log := log }
  rw [answered] at deserved' ⊢
  refine ⟨pythonVerdict, quickJsVerdict, _, rfl, deserved, deserved', ⟨made, python, ?_⟩,
    contained.calls _ _, restored, ?_⟩
  · rw [← calls]
  · intro removable m
    exact (files_quickJs contained m).trans (restored removable m)

/-- What a command checks. -/
def checked (h : Host) (e : Executor) (c : Config) :
    Option Language → StateM World (List (Language × Bool))
  | none => Interpreter.checkAll h e c
  | some l => do return [(l, ← (Interpreter.ofConfig c l).isHealthy h e)]

def languagesOf : Option Language → List Language
  | none => [.python, .quickJs]
  | some l => [l]

def textRow : Language × Bool → String
  | (.python, true) => "python     ok\n"
  | (.python, false) => "python     FAILED\n"
  | (.quickJs, true) => "quickjs    ok\n"
  | (.quickJs, false) => "quickjs    FAILED\n"

def jsonMember : Language × Bool → String
  | (.python, true) => "\"python\":true"
  | (.python, false) => "\"python\":false"
  | (.quickJs, true) => "\"quickjs\":true"
  | (.quickJs, false) => "\"quickjs\":false"

/-- The report tells these verdicts, in its text and by its status. -/
structure Announced (format : Format) (verdicts : List (Language × Bool)) (report : Report) :
    Prop where
  text : format = .text → report.stdout = String.join (verdicts.map textRow)
  json : format = .json →
    report.stdout = "\x7b" ++ String.intercalate "," (verdicts.map jsonMember) ++ "\x7d\n"
  silent : report.stderr = ""
  good : (∀ v ∈ verdicts, v.2 = true) → report.status = 0
  bad : (∃ v ∈ verdicts, v.2 = false) → report.status = 1

section
variable {h : Host} {e : Executor} {c : Config} {w : World} {language : Option Language}
  {verdicts : List (Language × Bool)}

theorem judged_checked : Judged h e c (languagesOf language) w
    ((checked h e c language).run w).1 ((checked h e c language).run w).2 := by
  cases language with
  | none => exact judged_checkEach Language.all w
  | some l => exact judged_checkEach [l] w

theorem verdictLine_eq : Command.verdictLine = textRow := by
  funext v
  obtain ⟨l, verdict⟩ := v
  cases l <;> cases verdict <;> rfl

/-- The languages of the verdicts are those that were asked for. -/
theorem verdicts_of_languages (told : verdicts.map Prod.fst = languagesOf language) :
    (∃ l verdict, verdicts = [(l, verdict)]) ∨
      ∃ python quickJs, verdicts = [(.python, python), (.quickJs, quickJs)] := by
  cases language with
  | some l =>
    obtain ⟨v, rest, rfl, -, none_left⟩ := List.map_eq_cons_iff.mp told
    obtain rfl := List.map_eq_nil_iff.mp none_left
    exact .inl ⟨v.1, v.2, rfl⟩
  | none =>
    obtain ⟨v, rest, rfl, first, told⟩ := List.map_eq_cons_iff.mp told
    obtain ⟨v', rest, rfl, second, none_left⟩ := List.map_eq_cons_iff.mp told
    obtain rfl := List.map_eq_nil_iff.mp none_left
    exact .inr ⟨v.2, v'.2, by rw [← first, ← second]⟩

theorem verdictText_json (told : verdicts.map Prod.fst = languagesOf language) :
    Command.verdictText .json verdicts =
      "\x7b" ++ String.intercalate "," (verdicts.map jsonMember) ++ "\x7d\n" := by
  rcases verdicts_of_languages told with ⟨l, verdict, rfl⟩ | ⟨python, quickJs, rfl⟩
  · cases l <;> cases verdict <;> rfl
  · cases python <;> cases quickJs <;> rfl

theorem announced_verdictReport (format : Format)
    (told : verdicts.map Prod.fst = languagesOf language) :
    Announced format verdicts (Command.verdictReport format verdicts) := by
  refine ⟨?_, ?_, rfl, ?_, ?_⟩
  · intro text
    simp [Command.verdictReport, Command.verdictText, text, verdictLine_eq]
  · intro json
    subst json
    exact verdictText_json told
  · intro good
    simp [Command.verdictReport, List.all_eq_true.mpr good]
  · intro bad
    obtain ⟨v, there, failed⟩ := bad
    have not_all : verdicts.all (·.2) = false :=
      List.all_eq_false.mpr ⟨v, there, by simp [failed]⟩
    simp [Command.verdictReport, not_all]

/-- Once there is an executor, the command reports the verdicts, whatever they are. -/
theorem after_performHealth (format : Format) {w₁ : World}
    (found : after (Command.findExecutor h c) w = (.ok e, w₁)) :
    after (Command.performHealth h c format language) w =
      (.ok (Command.verdictReport format ((checked h e c language).run w₁).1),
        ((checked h e c language).run w₁).2) := by
  unfold Command.performHealth
  rw [after_bind_ok found]
  cases language with
  | none => rfl
  | some l => rfl

end

section
variable {h : Host} {args : List String} {line : CommandLine} {language : Option Language}
  {c : Config} {binary : String} {w : World}

/-- The executor of a command line and its configuration. -/
def executorOf (h : Host) (line : CommandLine) (c : Config) (binary : String) : Executor :=
  Wasmer.executor h ⟨binary, (c.override line.overrides).wasmer.timeout⟩

/-- Whatever the format, the same is checked. -/
theorem follow_health (command : line.command = .health language)
    (loaded : (after (Config.load h line.config) w).1 = .ok c)
    (found : (after (Wasmer.locate h (c.override line.overrides).wasmer) w).1 = .ok binary) :
    ∃ log, ∀ format, after (Command.follow h { line with format := format }) w =
      let run := (checked h (executorOf h line c binary) (c.override line.overrides) language).run
        { w with
          launches := w.launches ++ tried h w.tree (c.override line.overrides).wasmer
          log := log }
      (.ok (Command.verdictReport format run.1), run.2) := by
  obtain ⟨log, configured⟩ := ConfigLayers.after_load (h := h) (w := w) line.config
  rw [configured] at loaded
  dsimp only at loaded
  rw [loaded] at configured
  obtain ⟨log', searched⟩ := after_findExecutor (h := h) (w := { w with log := log })
    (c.override line.overrides)
  rw [wasmer_outcome] at found
  dsimp only at searched
  rw [found] at searched
  refine ⟨log', fun format => ?_⟩
  unfold Command.follow
  rw [after_bind_ok configured, command]
  exact after_performHealth format searched

end

/-- What the command comes to that checks the interpreters with an executor, from the world `found`
on, in which it has been found. -/
structure Answered (h : Host) (args : List String) (line : CommandLine) (language : Option Language)
    (e : Executor) (c : Config) (w found : World) (verdicts : List (Language × Bool)) (w' : World) :
    Prop where
  judged : Judged h e c (languagesOf language) found verdicts w'
  both : language = none → (Interpreter.checkAll h e c).run found = (verdicts, w')
  /-- In each format the same verdicts would be told. -/
  any_format : ∀ format, ∃ report,
    after (Command.follow h { line with format := format }) w = (.ok report, w') ∧
      Announced format verdicts report
  printed : Announced line.format verdicts ((Command.program h args).run w).1
  ended : ((Command.program h args).run w).2 = w'

theorem answered_health {h : Host} {args : List String} {line : CommandLine}
    {language : Option Language} {ds : List Directive} {c : Config} {binary : String} {w : World}
    (accepted : CommandLine.parse h.lookup args = .ok line)
    (filter : Command.directives h line = .ok ds) (command : line.command = .health language)
    (loaded : (after (Config.load h line.config) w).1 = .ok c)
    (located : (after (Wasmer.locate h (c.override line.overrides).wasmer) w).1 = .ok binary) :
    ∃ found verdicts w', found.tree = w.tree ∧ found.calls = w.calls ∧
      Answered h args line language (executorOf h line c binary) (c.override line.overrides) w found
        verdicts w' := by
  obtain ⟨log, followed⟩ := follow_health command loaded located
  let found : World := { w with
    launches := w.launches ++ tried h w.tree (c.override line.overrides).wasmer, log := log }
  have judged : Judged h (executorOf h line c binary) (c.override line.overrides)
    (languagesOf language) found _ _ := judged_checked
  have told := judged.languages
  refine ⟨found, _, _, rfl, rfl, judged, ?_, ?_, ?_, ?_⟩
  · intro all
    subst all
    rfl
  · exact fun format => ⟨_, followed format, announced_verdictReport format told⟩
  · rw [RunCommand.program_eq accepted filter, followed line.format]
    exact announced_verdictReport line.format told
  · rw [RunCommand.program_eq accepted filter, followed line.format]

/-- A check of both languages never fails and judges each of them alone. The command that makes it
reports its verdicts, and its status is one exactly if one of them is bad. -/
theorem health_verdicts {h : Host} {w : World} (proper : Proper w.tree)
    (tags : ∀ n, '/' ∉ (h.tag n).toList) (arranged : ∀ l names, (h.arrange l names).Perm names) :
    (∀ e c, Contained h e → ∃ python quickJs asked,
      ((Interpreter.checkAll h e c).run w).1 = [(.python, python), (.quickJs, quickJs)] ∧
        Verdicts h e c w python quickJs asked ((Interpreter.checkAll h e c).run w).2) ∧
    ∀ args line language ds c binary, CommandLine.parse h.lookup args = .ok line →
      Command.directives h line = .ok ds → line.command = .health language →
      (after (Config.load h line.config) w).1 = .ok c →
      (after (Wasmer.locate h (c.override line.overrides).wasmer) w).1 = .ok binary →
      ∃ found verdicts w', found.tree = w.tree ∧ found.calls = w.calls ∧
        Answered h args line language (executorOf h line c binary) (c.override line.overrides) w
          found verdicts w' := by
  constructor
  · intro e c contained
    exact verdicts_checkAll c proper tags arranged contained
  · intro args line language ds c binary accepted filter command loaded located
    exact answered_health accepted filter command loaded located

/-- Outcomes that come without a change of the files. -/
def Idle (outcomes : List Prepared) : Prop :=
  ∀ p ∈ outcomes, p.leaves = none ∧ p.removesLibrary = false

section
variable {h : Host} {outcomes : List Prepared}

theorem after_prepared (idle : Idle outcomes) (argv : List String) (w : World) :
    ∃ p : Prepared, after ((Prepared.executor h outcomes).run argv) w = (p.outcome, w) := by
  let p := (outcomes[w.calls.length - 1]? <|> outcomes.getLast?).getD {}
  have still : p.leaves = none ∧ p.removesLibrary = false := by
    cases turn : outcomes[w.calls.length - 1]? with
    | some q => simpa [p, turn] using idle q (List.mem_of_getElem? turn)
    | none =>
      cases last : outcomes.getLast? with
      | some q => simpa [p, turn, last] using idle q (List.mem_of_getLast? last)
      | none => simp [p, turn, last]
  have ran : after (p.run h argv) w = (p.outcome, w) := by
    unfold Prepared.run
    rw [still.1, still.2]
    cases Prepared.mapped argv <;> cases p.outcome <;> rfl
  exact ⟨p, ran⟩

theorem contained_prepared (idle : Idle outcomes) : Contained h (Prepared.executor h outcomes) := by
  have world (argv : List String) (w : World) :
      (after ((Prepared.executor h outcomes).run argv) w).2 = w := by
    obtain ⟨p, same⟩ := after_prepared idle argv w
    rw [same]
  exact contained_of_files (fun argv w => by rw [world]) (fun argv w => by rw [world])

end

/-- The first call fails, and all later ones answer the QuickJS probe. -/
def sampleOutcomes : List Prepared :=
  [{ outcome := .error (.sandboxTimeout 1) }, { outcome := .ok (expected Probe.quickJs) }]

theorem idle_sampleOutcomes : Idle sampleOutcomes := by
  simp [Idle, sampleOutcomes]

def sampleFickle : Executor := Prepared.executor sampleScene sampleOutcomes

def sampleConfig : Config where
  python := { library := "/lib" }

def sampleArguments : List String := ["--wasmer", "/wasmer", "health"]

def sampleLine : CommandLine where
  command := .health none
  overrides := { wasmerBinary := some "/wasmer" }

def sampleChecked : List (Language × Bool) × World :=
  (Interpreter.checkAll sampleScene sampleFickle sampleConfig).run { tree := sampleFiles }

theorem checked_sample : sampleChecked.1 = [(.python, false), (.quickJs, true)] := by
  decide +kernel

theorem ending_sample : (answer sampleScene sampleFiles "/wasmer" ["--version"]).toOption.map
    Reply.ending = some (.exit 0) := by
  decide +kernel

theorem works_sample : RunCommand.Works sampleScene sampleFiles "/wasmer" := by
  have ending := ending_sample
  cases answered : answer sampleScene sampleFiles "/wasmer" ["--version"] with
  | error e =>
    rw [answered] at ending
    cases ending
  | ok reply =>
    rw [answered] at ending
    exact ⟨reply, answered, Option.some.inj ending⟩

theorem health_verdicts_sample :
    (∃ asked, Verdicts sampleScene sampleFickle sampleConfig { tree := sampleFiles } false true
      asked sampleChecked.2) ∧
    ∃ found verdicts w', found.tree = sampleFiles ∧ found.calls = [] ∧
      Answered sampleScene sampleArguments sampleLine none
        (executorOf sampleScene sampleLine sampleConfig "/wasmer")
        (sampleConfig.override sampleLine.overrides) { tree := sampleFiles } found verdicts w' := by
  have plain : Plain "wasmer" := by decide
  have proper : Proper ({ tree := sampleFiles } : World).tree :=
    setting_sample.proper.put rfl rfl plain
  obtain ⟨judged, answered⟩ := health_verdicts (h := sampleScene) proper setting_sample.tags
    (fun _ names => List.Perm.refl names)
  constructor
  · obtain ⟨python, quickJs, asked, verdicts, judged⟩ :=
      judged sampleFickle sampleConfig (contained_prepared idle_sampleOutcomes)
    cases verdicts.symm.trans checked_sample
    exact ⟨asked, judged⟩
  · have located := RunCommand.located_eq_ok.mpr (.configured
      (c := (sampleConfig.override sampleLine.overrides).wasmer) rfl works_sample)
    exact answered sampleArguments sampleLine none [] sampleConfig "/wasmer" rfl
      (RunCommand.directives_empty rfl) rfl rfl
      ((wasmer_outcome (w := { tree := sampleFiles }) _).trans located)

end ScriptSandbox.Proofs.HealthVerdicts
