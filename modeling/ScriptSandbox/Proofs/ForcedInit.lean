import ScriptSandbox.Proofs.NormalPath
import ScriptSandbox.Proofs.StageOrder

namespace ScriptSandbox.Proofs.ForcedInit
open ScriptSandbox.Tree TreeGrowth Resolution FileSteps NormalPath
open ConfigLayers (Used after_load inChosen inChosen_eq_ok readText_of_read stored)
open Proofs.RunCommand (directives_empty program_eq readText_eq_ok)
open StageOrder (follow_unloaded)

section
variable {t : Tree} {l : Location} {mode : Nat} {old : Bytes}

/-- What a file holds makes no difference to the ways. -/
theorem walkOver_put (there : t.get? l = some (.file mode old)) (new : Bytes) {whole : Bool}
    {f f' : Location → List String → Except HostError Location}
    (hf : ∀ here names, f' here names = f here names) (here : Location) (names : List String) :
    walkOver (t.put l (.file mode new)) whole f' here names = walkOver t whole f here names := by
  induction names generalizing here with
  | nil => rfl
  | cons name rest ih =>
    unfold walkOver
    simp only [ih, hf]
    by_cases same : l = name :: here
    · subst same
      simp [there]
    · simp [same]

theorem walk_put (there : t.get? l = some (.file mode old)) (new : Bytes) {whole : Bool}
    (links : Nat) (here : Location) (names : List String) :
    walk (t.put l (.file mode new)) whole links here names = walk t whole links here names := by
  induction links generalizing here names with
  | zero => exact walkOver_put there new (fun _ _ => rfl) here names
  | succ links ih => exact walkOver_put there new ih here names

theorem locate_put (there : t.get? l = some (.file mode old)) (new : Bytes) (whole : Bool)
    (cwd : Location) (path : String) :
    (t.put l (.file mode new)).locate whole cwd path = t.locate whole cwd path := by
  have inside : l ≠ [] := ne_nil_of_get? (t := t) (by simp [there])
  have directory (m : Location) : ((t.put l (.file mode new)).get? m).any Node.isDirectory =
      (t.get? m).any Node.isDirectory := by
    by_cases same : l = m
    · subst same
      simp [inside, there, Node.isDirectory]
    · simp [same]
  unfold locate
  simp only [directory, walk_put there new]

theorem find_put {cwd : Location} {path : String}
    (found : t.find true cwd path = .ok (l, .file mode old)) (new : Bytes) :
    (t.put l (.file mode new)).find true cwd path = .ok (l, .file mode new) := by
  obtain ⟨way, there⟩ := find_eq_ok.mp found
  refine find_eq_ok.mpr ⟨(locate_put there new true cwd path).trans way, ?_⟩
  exact get?_put_self t (ne_nil_of_get? (t := t) (by simp [there])) _

theorem write_put {cwd : Location} {path : String}
    (found : t.find true cwd path = .ok (l, .file mode old)) (writable : mayWrite mode = true)
    (fresh : Nat) (new : Bytes) :
    t.write cwd path fresh new = .ok (t.put l (.file mode new)) := by
  obtain ⟨way, there⟩ := find_eq_ok.mp found
  unfold Tree.write
  simp only [way, bind, Except.bind, there, writable, if_true]

theorem read_file {cwd : Location} {path : String}
    (found : t.find true cwd path = .ok (l, .file mode old)) :
    t.read cwd path =
      if mayRead mode then .ok old else .error (.system SystemCode.accessDenied) := by
  unfold Tree.read
  simp only [found, bind, Except.bind]

end

/-- A file from which a configuration can be loaded: it may be read, and it is a document without
settings of a wrong type. -/
inductive Loads (mode : Nat) (content : Bytes) : Prop
  | intro {text : String} {v : Toml} {c : Config} (readable : mayRead mode = true)
      (octets : content = Utf8.encode text) (document : Toml.parse text = some v)
      (typed : Config.ofToml v = some c) : Loads mode content

section
variable {h : Host} {t : Tree} {w : World} {l : Location} {mode : Nat} {content : Bytes}

theorem loads_iff (found : t.find true h.cwd h.configPath = .ok (l, .file mode content)) :
    (∃ c, inChosen h t none = .ok c) ↔ Loads mode content := by
  simp only [inChosen_eq_ok]
  constructor
  · rintro ⟨c, file, used, typed⟩
    cases used with
    | usual text document =>
      have octets := readText_eq_ok.mp text
      rw [read_file found] at octets
      split at octets
      · rename_i readable
        exact .intro readable (Except.ok.inj octets) document typed
      · cases octets
    | missing absent =>
      rw [Tree.has, found] at absent
      cases absent
  · rintro ⟨readable, rfl, document, typed⟩
    have octets := read_file found
    rw [if_pos readable] at octets
    exact ⟨_, _, .usual (readText_of_read octets) document, typed⟩

/-- The default configuration in the file is what is loaded. -/
theorem loaded_default (found : t.find true h.cwd h.configPath =
    .ok (l, .file mode (Utf8.encode ({} : Config).document))) (readable : mayRead mode = true) :
    inChosen h t none = .ok {} := by
  have octets := read_file found
  rw [if_pos readable] at octets
  have there : t.has h.cwd h.configPath = true := by
    rw [Tree.has, found]
    rfl
  have small (n : Nat) (limit : ({} : Config).wasmer.timeout = some n) :
      n < 0x8000000000000000 := by
    cases limit
  have parsed := ConfigText.parse_document "" small .nil
  rw [String.append_empty] at parsed
  rw [inChosen, if_pos there, ConfigLayers.inFile, readText_of_read octets]
  exact parsed

theorem join_ne_of_path {base path : String} (some_path : path ≠ "") :
    Path.join base path ≠ "" := by
  by_cases empty : base = ""
  · subst empty
    have alone : Path.join "" path = path := by
      unfold Path.join
      split
      · rfl
      · rfl
    rw [alone]
    exact some_path
  · exact join_ne empty

theorem configDirectory_ne : h.configDirectory ≠ "" := by
  unfold Host.configDirectory
  split
  · exact join_ne_of_path (by decide)
  · exact join_ne_of_path (by decide)

variable (proper : Proper w.tree)
  (found : w.tree.find true h.cwd h.configPath = .ok (l, .file mode content))
  (writable : mayWrite mode = true)

include proper found writable

/-- The directory is there, so only the file changes. -/
theorem after_performInit : after (Command.performInit h true) w =
    (.ok { stdout := Command.created h.configPath },
      { w with tree := w.tree.put l (.file mode (Utf8.encode ({} : Config).document)) }) := by
  have plain : Plain "config.toml" := by decide
  obtain ⟨d, directory⟩ := find_of_join proper configDirectory_ne plain (find_eq_ok.mp found).1
  have written := write_put found writable 0o644 (Utf8.encode ({} : Config).document)
  have changed : after (h.write h.configPath (Utf8.encode ({} : Config).document)) w =
      (.ok (), { w with
        tree := w.tree.put l (.file mode (Utf8.encode ({} : Config).document)) }) := by
    simp [Host.write, Host.change, written]
  have document : after (settle ({} : Config).written) w =
      (.ok ({} : Config).document, w) := rfl
  simp [Command.performInit, after_makeDirectories_present directory, Except.map, document,
    changed]

end

section
variable {h : Host} {w : World} {line : CommandLine} {l : Location} {mode : Nat} {content : Bytes}
  (usual : line.config = none)

include usual

/-- What cannot be loaded stops every command. -/
theorem follow_unread {f : Failure} (fails : inChosen h w.tree none = .error f) :
    (after (Config.load h none) w).1 = .error f ∧ ∃ log,
      after (Command.follow h line) w = (.error f, { w with log := log }) := by
  obtain ⟨log, loaded⟩ := after_load (h := h) (w := w) none
  have unloaded : (after (Config.load h none) w).1 = .error f := by
    rw [loaded, fails]
    rfl
  refine ⟨unloaded, follow_unloaded ?_⟩
  rw [usual]
  exact unloaded

theorem follow_forced {c : Config} (command : line.command = .init true) (proper : Proper w.tree)
    (found : w.tree.find true h.cwd h.configPath = .ok (l, .file mode content))
    (writable : mayWrite mode = true) (loads : inChosen h w.tree none = .ok c) : ∃ log,
    after (Command.follow h line) w = (.ok { stdout := Command.created h.configPath },
      { w with
        tree := w.tree.put l (.file mode (Utf8.encode ({} : Config).document))
        log := log }) := by
  obtain ⟨log, loaded⟩ := after_load (h := h) (w := w) none
  rw [loads] at loaded
  refine ⟨log, ?_⟩
  unfold Command.follow
  rw [usual, after_bind_ok loaded, command]
  exact after_performInit (w := { w with log := log }) proper found writable

end

/-- How a forced initialisation ends that finds a file at `l` which holds `content`. -/
structure Forced (h : Host) (w : World) (l : Location) (mode : Nat) (content : Bytes)
    (report : Report) (w' : World) : Prop where
  status_zero : report.status = 0 ↔ Loads mode content
  written : Loads mode content → report = { stdout := Command.created h.configPath } ∧
    w'.tree = w.tree.put l (.file mode (Utf8.encode ({} : Config).document))
  /-- Whoever has the file at the usual place then, and overrides nothing, has the defaults. -/
  defaults : Loads mode content → ∀ h' : Host, h'.cwd = h.cwd → h'.configPath = h.configPath →
    Config.Overrides.ofVariables h'.lookup = {} → (after (Config.load h' none) w').1 = .ok {}
  refused : ¬ Loads mode content → ∃ f, (after (Config.load h none) w).1 = .error f ∧
    report = .ofFailure f ∧ w'.tree = w.tree

/-- A forced initialisation writes the default configuration over one that can be loaded, whatever
it says. Over anything else it fails, though it has no use for what it cannot load. -/
theorem forced_program {h : Host} {w : World} {args : List String} {line : CommandLine}
    {ds : List Directive} {l : Location} {mode : Nat} {content : Bytes}
    (accepted : CommandLine.parse h.lookup args = .ok line) (command : line.command = .init true)
    (usual : line.config = none) (filter : Command.directives h line = .ok ds)
    (proper : Proper w.tree)
    (found : w.tree.find true h.cwd h.configPath = .ok (l, .file mode content))
    (writable : mayWrite mode = true) :
    Forced h w l mode content ((Command.program h args).run w).1
      ((Command.program h args).run w).2 := by
  rw [program_eq accepted filter]
  have loads := loads_iff found
  cases chosen : inChosen h w.tree none with
  | error f =>
    obtain ⟨unloaded, log, failed⟩ := follow_unread usual chosen
    have never : ¬ Loads mode content := by
      intro loading
      obtain ⟨c, good⟩ := loads.mpr loading
      cases chosen.symm.trans good
    rw [failed]
    refine ⟨⟨?_, fun loading => absurd loading never⟩, fun loading => absurd loading never,
      fun loading => absurd loading never, fun _ => ⟨f, unloaded, rfl, rfl⟩⟩
    intro zero
    cases zero
  | ok c =>
    obtain ⟨log, done⟩ := follow_forced usual command proper found writable chosen
    have loading := loads.mp ⟨c, chosen⟩
    rw [done]
    refine ⟨⟨fun _ => loading, fun _ => rfl⟩, fun _ => ⟨rfl, rfl⟩, ?_,
      fun never => absurd loading never⟩
    intro _ h' cwd path none_set
    have found' := find_put found (Utf8.encode ({} : Config).document)
    rw [← cwd, ← path] at found'
    obtain ⟨log', loaded⟩ := after_load (h := h') (w := { w with
      tree := w.tree.put l (.file mode (Utf8.encode ({} : Config).document))
      log := log }) none
    rw [loaded, loaded_default found' ?_, none_set]
    · rfl
    · cases loading with
      | intro readable => exact readable

def sampleHost : Host where
  env := [("HOME", "/home"), ("RUST_LOG", "")]
  tag := toString

def samplePlace : Location := ["config.toml", "scriptlet", ".config", "home"]

def sampleFiles (content : String) : Tree :=
  (((({} : Tree).put ["home"] .directory).put [".config", "home"] .directory).put
    ["scriptlet", ".config", "home"] .directory).put samplePlace (.file 0o644 (Utf8.encode content))

def sampleLine : CommandLine where
  command := .init true

theorem proper_sampleFiles (content : String) : Proper (sampleFiles content) := by
  have plain : Plain "home" ∧ Plain ".config" ∧ Plain "scriptlet" ∧ Plain "config.toml" := by
    decide
  obtain ⟨home, config, scriptlet, file⟩ := plain
  exact (((proper_empty.put rfl rfl home).put rfl rfl config).put rfl rfl scriptlet).put rfl rfl
    file

theorem accepted_sample :
    CommandLine.parse sampleHost.lookup ["init", "--force"] = .ok sampleLine := rfl

theorem filter_sample : Command.directives sampleHost sampleLine = .ok [] := directives_empty rfl

theorem found_sample (content : String) :
    (sampleFiles content).find true sampleHost.cwd sampleHost.configPath =
      .ok (samplePlace, .file 0o644 (Utf8.encode content)) := rfl

def sampleConfig : Config where
  quickJs := { binary := "a.wasm" }

theorem loads_sample : Loads 0o644 (Utf8.encode sampleConfig.document) := by
  have small (n : Nat) (limit : sampleConfig.wasmer.timeout = some n) : n < 0x8000000000000000 := by
    cases limit
  have document := ConfigText.parse_tables "" small .nil
  rw [String.append_empty] at document
  exact .intro rfl rfl document (ConfigText.ofToml_tables sampleConfig)

theorem forced_program_sample :
    Loads 0o644 (Utf8.encode sampleConfig.document) ∧
      Forced sampleHost { tree := sampleFiles sampleConfig.document } samplePlace 0o644
        (Utf8.encode sampleConfig.document)
        ((Command.program sampleHost ["init", "--force"]).run
          { tree := sampleFiles sampleConfig.document }).1
        ((Command.program sampleHost ["init", "--force"]).run
          { tree := sampleFiles sampleConfig.document }).2 :=
  ⟨loads_sample, forced_program accepted_sample rfl rfl filter_sample
    (proper_sampleFiles sampleConfig.document) (found_sample sampleConfig.document) (by decide)⟩

/-- Force does not help against a file that is no document. -/
theorem malformed_stops_forced :
    let ended := (Command.program sampleHost ["init", "--force"]).run { tree := sampleFiles "[bad" }
    ended.1.status = 1 ∧ ended.2.tree = sampleFiles "[bad" := by
  have malformed : Toml.parse "[bad" = none := by decide +kernel
  have text : (sampleFiles "[bad").readText sampleHost.cwd sampleHost.configPath = .ok "[bad" :=
    readText_of_read (read_file (found_sample "[bad"))
  have there : (sampleFiles "[bad").has sampleHost.cwd sampleHost.configPath = true := by
    rw [Tree.has, found_sample]
    rfl
  have fails : inChosen sampleHost (sampleFiles "[bad") none =
      .error (.tomlParse "the file is not a TOML document") := by
    rw [inChosen, if_pos there, ConfigLayers.inFile, text]
    simp only [Config.parse, malformed]
  have usual : sampleLine.config = none := rfl
  obtain ⟨-, log, failed⟩ := follow_unread (w := { tree := sampleFiles "[bad" }) usual fails
  rw [program_eq accepted_sample filter_sample, failed]
  exact ⟨rfl, rfl⟩

end ScriptSandbox.Proofs.ForcedInit
