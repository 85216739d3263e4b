import ScriptSandbox.Command.Program
import ScriptSandbox.Proofs.ConfigText
import ScriptSandbox.Proofs.FileSteps
import ScriptSandbox.Proofs.Utf8Text

namespace ScriptSandbox.Proofs.ConfigLayers
open FileSteps

/-- The configuration in a file. -/
def inFile (h : Host) (t : Tree) (path : String) : Except Failure Config :=
  match t.readText h.cwd path with
  | .ok text => Config.parse text
  | .error e => .error (.io e)

/-- The configuration in the file that was chosen, or in the usual one if there is one. -/
def inChosen (h : Host) (t : Tree) : Option String → Except Failure Config
  | some path => if t.has h.cwd path then inFile h t path else .error (.configNotFound path)
  | none => if t.has h.cwd h.configPath then inFile h t h.configPath else .ok {}

section
variable {h : Host} {w : World} {t : Tree} {c : Config}

/-- Reading a configuration adds to the record of events and changes nothing else. -/
theorem after_read (path : String) :
    ∃ log, after (Config.read h path) w = (inFile h w.tree path, { w with log := log }) := by
  simp only [Config.read, inFile, after_bind, after_lift, run_note, after_attempt, after_ask]
  generalize w.log ++ _ = log
  refine ⟨log, ?_⟩
  cases w.tree.readText h.cwd path with
  | error e => rfl
  | ok text =>
    dsimp only [mapError_ok]
    cases Config.parse text with
    | error e => rfl
    | ok c => rfl

theorem after_load (chosen : Option String) : ∃ log, after (Config.load h chosen) w =
    ((inChosen h w.tree chosen).map (·.override (.ofVariables h.lookup)),
      { w with log := log }) := by
  have chain : ∃ log, after (Config.readChosen h chosen) w =
      (inChosen h w.tree chosen, { w with log := log }) := by
    simp only [Config.readChosen, inChosen, after_bind, after_get]
    cases chosen with
    | some path =>
      dsimp only
      split
      · exact after_read path
      · exact ⟨w.log, rfl⟩
    | none =>
      dsimp only
      split
      · exact after_read _
      · exact ⟨w.log, rfl⟩
  obtain ⟨log, read⟩ := chain
  refine ⟨log, ?_⟩
  simp only [Config.load, after_bind, read]
  cases inChosen h w.tree chosen with
  | error e => rfl
  | ok c => rfl

end

/-- The document in the configuration file, if there is one. Only the usual file may be missing. -/
inductive Used (h : Host) (t : Tree) : Option String → Option Toml → Prop
  | named {path text : String} {v : Toml} (content : t.readText h.cwd path = .ok text)
      (document : Toml.parse text = some v) : Used h t (some path) (some v)
  | usual {text : String} {v : Toml} (content : t.readText h.cwd h.configPath = .ok text)
      (document : Toml.parse text = some v) : Used h t none (some v)
  | missing (absent : t.has h.cwd h.configPath = false) : Used h t none none

/-- The configuration that a document tells, unless a setting in it has the wrong type. -/
def stored : Option Toml → Option Config
  | some v => Config.ofToml v
  | none => some {}

section
variable {h : Host} {t : Tree} {c : Config}

theorem parse_eq_ok {text : String} :
    Config.parse text = .ok c ↔ ∃ v, Toml.parse text = some v ∧ stored (some v) = some c := by
  unfold Config.parse stored
  cases Toml.parse text with
  | none => simp
  | some v => cases found : Config.ofToml v <;> simp [found]

theorem inFile_eq_ok {path : String} : inFile h t path = .ok c ↔
    ∃ text v, t.readText h.cwd path = .ok text ∧ Toml.parse text = some v ∧
      stored (some v) = some c := by
  unfold inFile
  cases t.readText h.cwd path with
  | error e => simp
  | ok text => simp [parse_eq_ok]

theorem has_of_readText {path text : String} (content : t.readText h.cwd path = .ok text) :
    t.has h.cwd path = true := by
  cases found : t.find true h.cwd path with
  | error e =>
    simp only [Tree.readText, Tree.read, found, bind, Except.bind, reduceCtorEq] at content
  | ok place => simp only [Tree.has, found, Except.isOk, Except.toBool]

theorem readText_of_read {cwd : Location} {path text : String}
    (octets : t.read cwd path = .ok (Utf8.encode text)) : t.readText cwd path = .ok text := by
  simp only [Tree.readText, octets, bind, Except.bind, Utf8Text.decode_eq_some.mpr rfl]

/-- A configuration is found when a document tells it, or there is no file at the usual place. -/
theorem inChosen_eq_ok {chosen : Option String} :
    inChosen h t chosen = .ok c ↔ ∃ file, Used h t chosen file ∧ stored file = some c := by
  unfold inChosen
  constructor
  · intro found
    cases chosen with
    | some path =>
      dsimp only at found
      split at found
      · obtain ⟨text, v, content, document, typed⟩ := inFile_eq_ok.mp found
        exact ⟨some v, .named content document, typed⟩
      · cases found
    | none =>
      dsimp only at found
      split at found
      · obtain ⟨text, v, content, document, typed⟩ := inFile_eq_ok.mp found
        exact ⟨some v, .usual content document, typed⟩
      · next absent => exact ⟨none, .missing (by simpa using absent), by simpa [stored] using found⟩
  · rintro ⟨file, used, typed⟩
    cases used with
    | named content document =>
      simp only [has_of_readText content, if_true]
      exact inFile_eq_ok.mpr ⟨_, _, content, document, typed⟩
    | usual content document =>
      simp only [has_of_readText content, if_true]
      exact inFile_eq_ok.mpr ⟨_, _, content, document, typed⟩
    | missing absent =>
      simp only [absent, Bool.false_eq_true, if_false]
      rw [stored, Option.some.injEq] at typed
      rw [typed]

end

/-- What is at a position, or under a name, of a value. -/
def member (v : Option Toml) (place : Nat × String) : Option Toml := do
  let find ← Config.group (← v)
  find place.1 place.2

/-- What a document tells about a setting, by position and name of its group and of itself. -/
def told (file : Option Toml) (group setting : Nat × String) : Option Toml :=
  member (member file group) setting

/-- The value of an environment variable, of which an empty one counts as none. -/
def nonEmpty (lookup : String → Option String) (name : String) : Option String :=
  (lookup name).filter (· ≠ "")

/-- Each setting is what the first of its own sources tells that tells anything about it. -/
structure Layered (flags : Config.Overrides) (lookup : String → Option String) (file : Option Toml)
    (c : Config) : Prop where
  pythonBinary : c.python.binary = (flags.pythonBinary <|> nonEmpty lookup "PYTHON_PATH" <|>
    (told file (0, "python") (0, "binary")).bind Config.string).getD "wasm/python/bin/python.wasm"
  pythonLibrary : c.python.library = (flags.pythonLibrary <|> nonEmpty lookup "PYTHON_LIB_PATH" <|>
    (told file (0, "python") (1, "lib_dir")).bind Config.string).getD "wasm/python/lib"
  quickJsBinary : c.quickJs.binary = (flags.quickJsBinary <|> nonEmpty lookup "QUICKJS_PATH" <|>
    (told file (1, "quickjs") (0, "binary")).bind Config.string).getD "wasm/quickjs/quickjs.wasm"
  wasmerBinary : c.wasmer.binary =
    (flags.wasmerBinary <|> (told file (2, "wasmer") (0, "binary")).bind Config.string)
  timeout : c.wasmer.timeout =
    (told file (2, "wasmer") (1, "timeout_seconds")).bind Config.natural
  autoDownload : c.wasmer.autoDownload =
    ((told file (2, "wasmer") (2, "auto_download")).bind Config.boolean).getD true

section
variable {α : Type} {kind : Toml → Option α} {missing x : α} {found : Option Toml}

theorem setting_eq_some (h : Config.setting kind missing found = some x) :
    x = (found.bind kind).getD missing := by
  cases found with
  | none => exact (Option.some.inj h).symm
  | some v =>
    rw [Config.setting] at h
    rw [Option.bind_some, h, Option.getD_some]

theorem member_of_group {v : Toml} {find : Nat → String → Option Toml}
    (groups : Config.group v = some find) (place : Nat × String) :
    member (some v) place = find place.1 place.2 := by
  simp only [member, Option.bind_eq_bind, Option.bind_some, groups]

theorem setting_python {p : PythonConfig} (h : Config.setting Config.pythonOf {} found = some p) :
    p.binary =
        ((member found (0, "binary")).bind Config.string).getD "wasm/python/bin/python.wasm" ∧
      p.library = ((member found (1, "lib_dir")).bind Config.string).getD "wasm/python/lib" := by
  cases found with
  | none =>
    obtain rfl := Option.some.inj h
    exact ⟨rfl, rfl⟩
  | some v =>
    simp only [Config.setting, Config.pythonOf, Option.bind_eq_bind, Option.bind_eq_some_iff,
      Option.pure_def, Option.some.injEq] at h
    obtain ⟨find, groups, binary, binary_told, library, library_told, rfl⟩ := h
    simp only [member_of_group groups]
    exact ⟨setting_eq_some binary_told, setting_eq_some library_told⟩

theorem setting_quickJs {q : QuickJsConfig}
    (h : Config.setting Config.quickJsOf {} found = some q) :
    q.binary =
      ((member found (0, "binary")).bind Config.string).getD "wasm/quickjs/quickjs.wasm" := by
  cases found with
  | none =>
    obtain rfl := Option.some.inj h
    rfl
  | some v =>
    simp only [Config.setting, Config.quickJsOf, Option.bind_eq_bind, Option.bind_eq_some_iff,
      Option.pure_def, Option.some.injEq] at h
    obtain ⟨find, groups, binary, binary_told, rfl⟩ := h
    rw [member_of_group groups]
    exact setting_eq_some binary_told

theorem getD_map_some (v : Option Toml) (kind : Toml → Option α) :
    (v.bind fun v => (kind v).map some).getD none = v.bind kind := by
  cases v with
  | none => rfl
  | some v => cases found : kind v <;> simp [found]

theorem setting_wasmer {s : WasmerConfig} (h : Config.setting Config.wasmerOf {} found = some s) :
    s.binary = (member found (0, "binary")).bind Config.string ∧
      s.timeout = (member found (1, "timeout_seconds")).bind Config.natural ∧
      s.autoDownload = ((member found (2, "auto_download")).bind Config.boolean).getD true := by
  cases found with
  | none =>
    obtain rfl := Option.some.inj h
    exact ⟨rfl, rfl, rfl⟩
  | some v =>
    simp only [Config.setting, Config.wasmerOf, Option.bind_eq_bind, Option.bind_eq_some_iff,
      Option.pure_def, Option.some.injEq] at h
    obtain ⟨find, groups, binary, binary_told, timeout, timeout_told, download, download_told,
      rfl⟩ := h
    simp only [member_of_group groups]
    refine ⟨?_, ?_, setting_eq_some download_told⟩
    · rw [← getD_map_some]
      exact setting_eq_some binary_told
    · rw [← getD_map_some]
      exact setting_eq_some timeout_told

end

/-- The document tells each setting, or it has its default. -/
theorem layered_stored {file : Option Toml} {c : Config} (h : stored file = some c) :
    Layered {} (fun _ => none) file c := by
  cases file with
  | none =>
    obtain rfl := Option.some.inj h
    exact ⟨rfl, rfl, rfl, rfl, rfl, rfl⟩
  | some v =>
    simp only [stored, Config.ofToml, Option.bind_eq_bind, Option.bind_eq_some_iff, Option.pure_def,
      Option.some.injEq] at h
    obtain ⟨find, groups, python, python_told, quickJs, quickJs_told, wasmer, wasmer_told, rfl⟩ := h
    obtain ⟨binary, library⟩ := setting_python python_told
    obtain ⟨wasmer_binary, timeout, download⟩ := setting_wasmer wasmer_told
    have quickJs_binary := setting_quickJs quickJs_told
    refine ⟨?_, ?_, ?_, ?_, ?_, ?_⟩ <;> simpa [told, member_of_group groups, nonEmpty]

@[simp]
theorem getD_orElse (first second : Option String) (missing : String) :
    (first <|> second).getD missing = first.getD (second.getD missing) := by
  cases first <;> rfl

/-- What is put over a configuration comes before what is in it. -/
theorem Layered.override {file : Option Toml} {c : Config} (h : Layered {} (fun _ => none) file c)
    (flags : Config.Overrides) (lookup : String → Option String) :
    Layered flags lookup file ((c.override (.ofVariables lookup)).override flags) where
  pythonBinary := by
    rw [getD_orElse, getD_orElse]
    exact congrArg (flags.pythonBinary.getD <| (nonEmpty lookup "PYTHON_PATH").getD ·)
      h.pythonBinary
  pythonLibrary := by
    rw [getD_orElse, getD_orElse]
    exact congrArg (flags.pythonLibrary.getD <| (nonEmpty lookup "PYTHON_LIB_PATH").getD ·)
      h.pythonLibrary
  quickJsBinary := by
    rw [getD_orElse, getD_orElse]
    exact congrArg (flags.quickJsBinary.getD <| (nonEmpty lookup "QUICKJS_PATH").getD ·)
      h.quickJsBinary
  wasmerBinary := congrArg (flags.wasmerBinary <|> ·) h.wasmerBinary
  timeout := h.timeout
  autoDownload := h.autoDownload

section
variable {c : Config} {o o' : Config.Overrides}

/-- The paths of both, where those of the second come before those of the first. -/
def under (o o' : Config.Overrides) : Config.Overrides where
  pythonBinary := o'.pythonBinary <|> o.pythonBinary
  pythonLibrary := o'.pythonLibrary <|> o.pythonLibrary
  quickJsBinary := o'.quickJsBinary <|> o.quickJsBinary
  wasmerBinary := o'.wasmerBinary <|> o.wasmerBinary

theorem override_override : (c.override o).override o' = c.override (under o o') := by
  simp [Config.override, under, Option.or_assoc]

@[simp]
theorem under_self : under o o = o := by
  simp [under]

@[simp]
theorem override_override_self : (c.override o).override o = c.override o := by
  rw [override_override, under_self]

end

/-- The variables that tell settings. -/
inductive Variable where
  | pythonBinary
  | pythonLibrary
  | quickJsBinary
deriving DecidableEq

/-- What one variable alone overrides. -/
def Variable.overrides (lookup : String → Option String) : Variable → Config.Overrides
  | .pythonBinary => { pythonBinary := nonEmpty lookup "PYTHON_PATH" }
  | .pythonLibrary => { pythonLibrary := nonEmpty lookup "PYTHON_LIB_PATH" }
  | .quickJsBinary => { quickJsBinary := nonEmpty lookup "QUICKJS_PATH" }

/-- The configuration under one variable after the other. -/
def inTurn (lookup : String → Option String) (c : Config) (order : List Variable) : Config :=
  order.foldl (fun c v => c.override (v.overrides lookup)) c

/-- What some of the variables override together. -/
def overridesOf (lookup : String → Option String) (vs : List Variable) : Config.Overrides where
  pythonBinary := if .pythonBinary ∈ vs then nonEmpty lookup "PYTHON_PATH" else none
  pythonLibrary := if .pythonLibrary ∈ vs then nonEmpty lookup "PYTHON_LIB_PATH" else none
  quickJsBinary := if .quickJsBinary ∈ vs then nonEmpty lookup "QUICKJS_PATH" else none

section
variable {lookup : String → Option String} {c : Config}

theorem under_overridesOf (v : Variable) (vs : List Variable) :
    under (v.overrides lookup) (overridesOf lookup vs) = overridesOf lookup (v :: vs) := by
  cases v <;> simp [under, Variable.overrides, overridesOf] <;> split <;> simp

/-- Variables that are applied in turn, some of them again, do what they do together. -/
theorem inTurn_eq (order : List Variable) :
    inTurn lookup c order = c.override (overridesOf lookup order) := by
  induction order generalizing c with
  | nil => simp [inTurn, overridesOf, Config.override]
  | cons v order ih =>
    change inTurn lookup (c.override (v.overrides lookup)) order = _
    rw [ih, override_override, under_overridesOf]

theorem inTurn_of_all {order : List Variable} (all : ∀ v, v ∈ order) :
    inTurn lookup c order = c.override (.ofVariables lookup) := by
  rw [inTurn_eq]
  simp [overridesOf, all, Config.Overrides.ofVariables, nonEmpty]

end

/-- A command gets each setting from its own sources, the first that tells it. The environment is
applied to the same effect once or twice, and in any order. -/
theorem layered_follow {h : Host} {line : CommandLine} {w : World} {file : Option Toml}
    (used : Used h w.tree line.config file) (typed : (stored file).isSome) :
    (∃ c log,
      after (Config.load h line.config) w = (.ok c, { w with log := log }) ∧
      after (Command.follow h line) w =
        after (Command.perform h (c.override line.overrides) line.format line.command)
          { w with log := log } ∧
      Layered line.overrides h.lookup file (c.override line.overrides)) ∧
    (∀ c : Config, (c.override (.ofVariables h.lookup)).override (.ofVariables h.lookup) =
      c.override (.ofVariables h.lookup)) ∧
    ∀ (c : Config) (order : List Variable), (∀ v, v ∈ order) →
      inTurn h.lookup c order = c.override (.ofVariables h.lookup) := by
  refine ⟨?_, fun c => override_override_self, fun c order all => inTurn_of_all all⟩
  obtain ⟨c, tells⟩ := Option.isSome_iff_exists.mp typed
  obtain ⟨log, loaded⟩ := after_load (h := h) (w := w) line.config
  rw [inChosen_eq_ok.mpr ⟨file, used, tells⟩] at loaded
  exact ⟨_, log, loaded, after_bind_ok loaded,
    (layered_stored tells).override line.overrides h.lookup⟩

def sampleHost : Host where
  env := [("PYTHON_PATH", "env.wasm"), ("QUICKJS_PATH", "")]
  tag _ := "x"

/-- What the file tells. -/
def sampleConfig : Config where
  python := { binary := "file.wasm", library := "file" }
  quickJs := { binary := "js.wasm" }
  wasmer := { timeout := some 5 }

def sampleTree : Tree :=
  ({} : Tree).put ["c"] (.file 0o644 (Utf8.encode sampleConfig.document))

def sampleLine : CommandLine where
  config := some "/c"
  overrides := { pythonLibrary := some "flag" }
  command := .config .display

theorem used_sample :
    Used sampleHost sampleTree sampleLine.config (some (ConfigText.tablesOf sampleConfig)) := by
  have octets : sampleTree.read sampleHost.cwd "/c" = .ok (Utf8.encode sampleConfig.document) := rfl
  have small (n : Nat) (limit : sampleConfig.wasmer.timeout = some n) : n < 0x8000000000000000 := by
    obtain rfl := Option.some.inj limit
    decide
  have document := ConfigText.parse_tables "" small .nil
  rw [String.append_empty] at document
  exact .named (readText_of_read octets) document

theorem layered_follow_sample : ∃ c log,
    after (Command.follow sampleHost sampleLine) { tree := sampleTree } =
      after (Command.perform sampleHost c .text (.config .display))
        { tree := sampleTree, log := log } ∧
    c.python.binary = "env.wasm" ∧ c.python.library = "flag" ∧ c.quickJs.binary = "js.wasm" ∧
    c.wasmer.binary = none ∧ c.wasmer.timeout = some 5 ∧ c.wasmer.autoDownload = true := by
  have typed : (stored (some (ConfigText.tablesOf sampleConfig))).isSome = true := by
    rw [stored, ConfigText.ofToml_tables]
    rfl
  obtain ⟨⟨c, log, -, followed, layered⟩, -, -⟩ :=
    layered_follow (w := { tree := sampleTree }) used_sample typed
  exact ⟨_, log, followed, layered.pythonBinary.trans rfl, layered.pythonLibrary.trans rfl,
    layered.quickJsBinary.trans rfl, layered.wasmerBinary.trans rfl, layered.timeout.trans rfl,
    layered.autoDownload.trans rfl⟩

end ScriptSandbox.Proofs.ConfigLayers
