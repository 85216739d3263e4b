import ScriptSandbox.Proofs.ExecutionLife
import ScriptSandbox.Proofs.UnnamedPlace

namespace ScriptSandbox.Proofs.CopyExact
open ScriptSandbox.Tree TreeGrowth Resolution FileSteps LibraryCopied WorkspaceLife UnnamedPlace
open ExecutionLife (exists_rooted)
open WorkspacesApart (placed_unique)

/-- What is noted when so many files have been copied. -/
def countNoted (files : Nat) : Event :=
  ⟨.workspaces, .info, "Copied library into workspace",
    [("files", .number files), ("elapsed_ms", .duration)]⟩

section
variable {h : Host} {library : String} {ws : Workspace} {w w' : World}

/-- A workspace that has been provisioned was made and filled, and the files have been counted. -/
theorem provision_eq_ok (provisioned : after (Workspace.provision h library) w = (.ok ws, w')) :
    ∃ w₁ w₂ log files, after (Workspace.temporary h) w = (.ok ws, w₁) ∧
      after (Workspace.copyBelow h Tree.pathLimit library ws.path) { w₁ with log := log } =
        (.ok files, w₂) ∧ w' = { w₂ with log := w₂.log ++ [countNoted files] } := by
  obtain ⟨node, w₀, looked, rest⟩ := after_bind_eq_ok.mp provisioned
  have same : w₀ = w := by
    have kept := (ensures_inspect (h := h) (w := w) library).1
    rw [after_attempt_eq_ok.mp looked] at kept
    exact kept
  subst same
  dsimp only at rest
  split at rest
  · cases rest
  · obtain ⟨ws', w₁, made, rest⟩ := after_bind_eq_ok.mp rest
    simp only [after_bind, after_lift, run_note, after_outcomeOf] at rest
    have made := after_attempt_eq_ok.mp made
    cases filled : after (Workspace.copyBelow h Tree.pathLimit library ws'.path)
        { w₁ with log := w₁.log ++
          [⟨.workspaces, .info, "Created workspace", [("workspace", .text ws'.path)]⟩] } with
    | mk outcome w₂ =>
    rw [filled] at rest
    cases outcome with
    | error e =>
      simp at rest
    | ok files =>
      cases rest
      exact ⟨w₁, w₂, _, files, made, filled, rfl⟩

/-- What has been made and filled, with the number of the files. -/
structure Stocked (h : Host) (root : Location) (library : String) (t : Tree) (ws : Workspace)
    (l : Location) (files : Nat) (w' : World) : Prop
    extends Made h root library t ws l w'.tree where
  fresh : Fresh t l (t.put l .directory)
  grown : Adds (Below l) (t.put l .directory) w'.tree
  filed : Filed h.cwd library l (t.put l .directory) w'.tree files
  proper : Proper w'.tree
  reported : w'.log.getLast? = some (countNoted files)

theorem exists_stocked (proper : Proper w.tree) (tags : ∀ n, '/' ∉ (h.tag n).toList)
    (arranged : ∀ l names, (h.arrange l names).Perm names)
    (provisioned : after (Workspace.provision h library) w = (.ok ws, w')) :
    ∃ root l files, Stocked h root library w.tree ws l files w' := by
  obtain ⟨root, rooted⟩ := exists_rooted h w.tree
  have done := ensures_provision library proper tags arranged rooted
  unfold Ensures at done
  rw [provisioned] at done
  obtain ⟨l, made⟩ := done.made ws rfl
  obtain ⟨w₁, w₂, log, files, started, filled, rfl⟩ := provision_eq_ok provisioned
  have fresh := made.placed.fresh proper (find_eq_ok.mp made.temporary).2 made.free rfl
  have tree : w₁.tree = w.tree.put l .directory := by
    have start := ensures_temporary proper tags rooted
    unfold Ensures at start
    rw [started] at start
    rcases start with ⟨_, l', same, -, placed, -, put⟩ | ⟨⟨e, failed⟩, -⟩
    · obtain rfl := Except.ok.inj same
      rw [put, (placed_unique placed made.placed).mp rfl]
    · cases failed
  have proper₁ : Proper w₁.tree := by
    rw [tree]
    exact fresh.proper
  have found : w₁.tree.find true h.cwd ws.path = .ok (l, .directory) := by
    rw [tree]
    exact made.placed.found (find_mono fresh.added.extends made.temporary) fresh.directory true
  have empty : Empty w₁.tree l := by
    rw [tree]
    exact fresh.empty
  have copying : Ensures (Workspace.copyBelow h Tree.pathLimit library ws.path)
      { w₁ with log := log } _ := ensures_copyBelow arranged Tree.pathLimit proper₁ found empty
  unfold Ensures at copying
  rw [filled] at copying
  obtain ⟨grown, proper', all⟩ := copying
  obtain ⟨-, -, filed⟩ := all files rfl
  rw [tree] at grown filed
  exact ⟨root, l, files, made, fresh, grown, filed, proper', List.getLast?_concat⟩

end

/-- What a copy has for a node of the library that a path leads to. Links are followed, and those
that do not lead to a regular file are left out. -/
def counterpart (t : Tree) (cwd : Location) (path : String) : Option Node → Option Node
  | some .directory => some .directory
  | some (.file mode content) => some (.file mode content)
  | some (.link _) =>
    match t.find true cwd path with
    | .ok (_, .file mode content) => some (.file mode content)
    | _ => none
  | _ => none

/-- The workspace at `l` holds a copy of the library at `origin` in the tree `t`, and so many
files. -/
structure ExactCopy (h : Host) (library : String) (t : Tree) (ws : Workspace)
    (origin l : Location) (files : Nat) (w' : World) : Prop where
  source : t.find true h.cwd library = .ok (origin, .directory)
  place : w'.tree.find true h.cwd ws.path = .ok (l, .directory)
  free : t.get? l = none
  outside : ¬ origin <:+ l
  /-- Nothing else is in a library that is copied. -/
  kinds : ∀ way node, t.get? (way ++ origin) = some node →
    node = .directory ∨ (∃ mode content, node = .file mode content) ∨ ∃ target, node = .link target
  /-- On each way below the library the copy has the counterpart. -/
  contents : Unnamed t l → ∀ way, way ≠ [] →
    w'.tree.get? (way ++ l) = counterpart t h.cwd (under library way) (t.get? (way ++ origin))
  /-- A link that names the workspace may lead to what is copied before its turn comes. -/
  contents_late : ∀ way, way ≠ [] →
    w'.tree.get? (way ++ l) = counterpart t h.cwd (under library way) (t.get? (way ++ origin)) ∨
    w'.tree.get? (way ++ l) =
      counterpart w'.tree h.cwd (under library way) (t.get? (way ++ origin))
  /-- A link is looked at by its path, so one with a path that is too long is left out, whatever
  it leads to. -/
  overlong : ∀ way target, t.get? (way ++ origin) = some (.link target) →
    pathLimit ≤ (under library way).utf8ByteSize → w'.tree.get? (way ++ l) = none
  /-- No link has been entered. -/
  unentered : ∀ way target, t.get? (way ++ origin) = some (.link target) →
    ∀ more, more ≠ [] → w'.tree.get? (more ++ (way ++ l)) = none
  reported : w'.log.getLast? = some (countNoted files)
  counted : ∃ places : List Location, places.Nodup ∧ places.length = files ∧
    ∀ m, m ∈ places ↔ l <:+ m ∧ ∃ mode content, w'.tree.get? m = some (.file mode content)
  /-- The library and all else is as it was. -/
  unchanged : ∀ way, w'.tree.get? (way ++ origin) = t.get? (way ++ origin)
  elsewhere : ∀ m, ¬ l <:+ m → w'.tree.get? m = t.get? m

section
variable {h : Host} {library : String} {ws : Workspace} {w' : World} {root l : Location}
  {t t' : Tree} {files : Nat}

theorem counterpart_of_twin {cwd : Location} {path : String} {node copied : Option Node}
    (twin : Twin t cwd path node copied)
    (led : ∀ mode content, copied = some (.file mode content) →
      ∃ l, t'.find true cwd path = .ok (l, .file mode content)) :
    copied = counterpart t cwd path node ∨ copied = counterpart t' cwd path node := by
  cases twin with
  | nothing => exact .inl rfl
  | directory => exact .inl rfl
  | file mode content => exact .inl rfl
  | linked found =>
    left
    rw [counterpart, found]
  | @skipped _ _ node found no_file =>
    left
    rw [counterpart, found]
    cases node with
    | file mode content => cases no_file
    | directory => rfl
    | link target => rfl
    | device content => rfl
    | socket => rfl
  | dangling lost file =>
    rcases file with none_there | ⟨mode, content, there⟩
    · left
      rw [counterpart, lost]
      exact none_there
    · -- The link has been copied after what it leads to.
      right
      obtain ⟨l, found⟩ := led mode content there
      rw [counterpart, found]
      exact there

/-- A path that is too long leads nowhere. -/
theorem counterpart_overlong {cwd : Location} {path target : String}
    (long : pathLimit ≤ path.utf8ByteSize) :
    counterpart t cwd path (some (.link target)) = none := by
  rw [counterpart]
  cases found : t.find true cwd path with
  | error e => rfl
  | ok place => exact absurd (short_of_find found) (Nat.not_lt.mpr long)

/-- Whatever has a twin is a directory, a regular file or a link. -/
theorem kind_of_twin {cwd : Location} {path : String} {node : Node} {copied : Option Node}
    (twin : Twin t cwd path (some node) copied) :
    node = .directory ∨ (∃ mode content, node = .file mode content) ∨
      ∃ target, node = .link target := by
  cases twin with
  | directory => exact .inl rfl
  | file mode content => exact .inr (.inl ⟨mode, content, rfl⟩)
  | linked found => exact .inr (.inr ⟨_, rfl⟩)
  | skipped found no_file => exact .inr (.inr ⟨_, rfl⟩)
  | dangling lost file => exact .inr (.inr ⟨_, rfl⟩)

/-- All files in the workspace are new, and what is led to from the library. -/
theorem Stocked.led (stocked : Stocked h root library t ws l files w') {way : Location} {mode : Nat}
    {content : Bytes} (there : w'.tree.get? (way ++ l) = some (.file mode content)) :
    ∃ place, w'.tree.find true h.cwd (under library way) = .ok (place, .file mode content) := by
  have below : Below l (way ++ l) := by
    refine ⟨way, ?_, rfl⟩
    rintro rfl
    cases there.symm.trans stocked.directory
  obtain ⟨way', place, same, found⟩ :=
    stocked.filed.led _ mode content (stocked.fresh.empty _ below) there
  obtain rfl := List.append_cancel_right same
  exact ⟨place, found⟩

/-- If nothing names the workspace, the counterparts are the same in the end. -/
theorem Stocked.counterpart_eq (stocked : Stocked h root library t ws l files w')
    (proper : Proper t) (unnamed : Unnamed t l) {origin : Location}
    (led : t.find true h.cwd library = .ok (origin, .directory)) (way : Location) :
    counterpart w'.tree h.cwd (under library way) (t.get? (way ++ origin)) =
      counterpart t h.cwd (under library way) (t.get? (way ++ origin)) := by
  cases there : t.get? (way ++ origin) with
  | none => rfl
  | some node =>
    cases node with
    | directory => rfl
    | file mode content => rfl
    | device content => rfl
    | socket => rfl
    | link target =>
      have back {m : Location} {node : Node}
          (found : w'.tree.find true h.cwd (under library way) = .ok (m, node)) :
          t.find true h.cwd (under library way) = .ok (m, node) :=
        (find_of_unnamed unnamed (fun m => stocked.added.elsewhere) stocked.added.extends proper
          stocked.proper stocked.free led there found).1
      rw [counterpart, counterpart]
      cases before : t.find true h.cwd (under library way) with
      | ok end_ => rw [find_mono stocked.added.extends before]
      | error e =>
        cases after : w'.tree.find true h.cwd (under library way) with
        | ok end_ => cases before.symm.trans (back after)
        | error e => rfl

theorem Stocked.counted (stocked : Stocked h root library t ws l files w') :
    ∃ places : List Location, places.Nodup ∧ places.length = files ∧
      ∀ m, m ∈ places ↔ l <:+ m ∧ ∃ mode content, w'.tree.get? m = some (.file mode content) := by
  obtain ⟨new, distinct, length, new_iff⟩ := stocked.filed.counted
  refine ⟨new, distinct, length, ?_⟩
  intro m
  rw [new_iff]
  constructor
  · rintro ⟨free, mode, content, there⟩
    refine ⟨?_, mode, content, there⟩
    apply Decidable.by_contra
    intro outside
    have same := stocked.grown.elsewhere fun below => outside (suffix_of_below below)
    cases (same.symm.trans there).symm.trans free
  · rintro ⟨⟨way, rfl⟩, mode, content, there⟩
    refine ⟨stocked.fresh.empty _ ⟨way, ?_, rfl⟩, mode, content, there⟩
    rintro rfl
    cases there.symm.trans stocked.directory

theorem Stocked.exact (stocked : Stocked h root library t ws l files w') (proper : Proper t) :
    ∃ origin, ExactCopy h library t ws origin l files w' := by
  obtain ⟨origin, led, outside⟩ := stocked.source
  obtain ⟨origin', led', mirrors⟩ := stocked.toMade.mirrors proper
  obtain ⟨rfl, -⟩ := find_unique led led'
  have around : ¬ l <:+ origin := by
    intro within
    cases (proper.none_within stocked.free within).symm.trans (find_eq_ok.mp led).2
  have twins (way : Location) (some_way : way ≠ []) := mirrors way some_way
  have not_link {way : Location} {target : String}
      (link : t.get? (way ++ origin) = some (.link target)) : way ≠ [] := by
    rintro rfl
    cases link.symm.trans (find_eq_ok.mp led).2
  have contents (way : Location) (some_way : way ≠ []) :=
    counterpart_of_twin (twins way some_way) fun _ _ => stocked.led
  refine ⟨origin, led, stocked.toMade.found true, stocked.free, outside, ?_, ?_, contents, ?_, ?_,
    stocked.reported, stocked.counted, ?_, fun m => stocked.added.elsewhere⟩
  · intro way node there
    cases way with
    | nil => exact .inl (Option.some.inj (there.symm.trans (find_eq_ok.mp led).2))
    | cons name way =>
      have twin := twins (name :: way) (List.cons_ne_nil name way)
      rw [there] at twin
      exact kind_of_twin twin
  · intro unnamed way some_way
    rcases contents way some_way with same | late
    · exact same
    · exact late.trans (stocked.counterpart_eq proper unnamed led way)
  · intro way target link long
    have nothing := contents way (not_link link)
    rw [link, counterpart_overlong long, counterpart_overlong long] at nothing
    exact nothing.elim id id
  · -- Nothing lies below what is no directory, and a link has no directory for its copy.
    intro way target link more some_more
    apply stocked.proper.none_below ?_ some_more
    exact (twins way (not_link link)).no_directory (by rw [link]; exact nofun)
  · intro way
    apply stocked.added.elsewhere
    intro within
    rcases List.suffix_or_suffix_of_suffix (List.suffix_append way origin) within with up | down
    · exact outside up
    · exact around down

end

section
variable {h : Host} {arrange : Location → List String → List String}

/-- A name for the workspace is found without reading the library. -/
theorem makeTemporary_arrange (tries : Nat) :
    Workspace.makeTemporary { h with arrange := arrange } tries =
      Workspace.makeTemporary h tries := by
  induction tries with
  | zero => rfl
  | succ tries ih =>
    unfold Workspace.makeTemporary
    rw [ih]
    rfl

theorem temporary_arrange :
    Workspace.temporary { h with arrange := arrange } = Workspace.temporary h := by
  unfold Workspace.temporary
  simp only [makeTemporary_arrange]
  rfl

variable {library : String} {ws ws' : Workspace} {w w' w'' : World} {origin l : Location}
  {files files' : Nat} {t : Tree}

/-- Whatever the order, a workspace for the same library is made in the same place. -/
theorem same_workspace (provisioned : after (Workspace.provision h library) w = (.ok ws, w'))
    (again : after (Workspace.provision { h with arrange := arrange } library) w = (.ok ws', w'')) :
    ws' = ws := by
  obtain ⟨_, _, _, _, started, -⟩ := provision_eq_ok provisioned
  obtain ⟨_, _, _, _, started', -⟩ := provision_eq_ok again
  rw [temporary_arrange, started] at started'
  exact (Except.ok.inj (Prod.mk.inj started').1).symm

theorem ExactCopy.same_tree (copy : ExactCopy h library t ws origin l files w')
    (again : ExactCopy { h with arrange := arrange } library t ws' origin l files' w'')
    (unnamed : Unnamed t l) (m : Location) :
    w''.tree.get? m = w'.tree.get? m := by
  by_cases within : l <:+ m
  · obtain ⟨way, rfl⟩ := within
    cases way with
    | nil => exact (find_eq_ok.mp again.place).2.trans (find_eq_ok.mp copy.place).2.symm
    | cons name way =>
      have some_way := List.cons_ne_nil name way
      rw [copy.contents unnamed _ some_way]
      exact again.contents unnamed _ some_way
  · rw [copy.elsewhere m within, again.elsewhere m within]

theorem ExactCopy.same_count (copy : ExactCopy h library t ws origin l files w')
    (again : ExactCopy { h with arrange := arrange } library t ws' origin l files' w'')
    (same : ∀ m, w''.tree.get? m = w'.tree.get? m) : files' = files := by
  obtain ⟨places, distinct, length, places_iff⟩ := copy.counted
  obtain ⟨places', distinct', length', places_iff'⟩ := again.counted
  have alike : places'.Perm places := by
    refine (List.perm_ext_iff_of_nodup distinct' distinct).mpr fun m => ?_
    rw [places_iff, places_iff', same]
  rw [← length, ← length', alike.length_eq]

end

/-- In any other order of reading, the same workspace is made, and the same is in it and is
reported. -/
def AnyOrder (h : Host) (library : String) (w : World) (ws : Workspace) (w' : World) : Prop :=
  ∀ (arrange : Location → List String → List String) (ws' : Workspace) (w'' : World),
    (∀ l names, (arrange l names).Perm names) →
    after (Workspace.provision { h with arrange := arrange } library) w = (.ok ws', w'') →
    ws' = ws ∧ (∀ m, w''.tree.get? m = w'.tree.get? m) ∧ w''.log.getLast? = w'.log.getLast?

/-- Beside a file and a directory, the library has links to a file, to what they lie in, and to
nothing. -/
def sampleLibrary : Tree :=
  ((((WorkspacesApart.sampleTree.put ["sub", "lib"] .directory).put ["b.py", "sub", "lib"]
    (.file 0o755 [1])).put ["up", "sub", "lib"] (.link "..")).put ["a.py", "lib"]
    (.link "sub/b.py")).put ["gone", "lib"] (.link "gone")

theorem proper_sampleLibrary : Proper sampleLibrary := by
  have plain : Plain "sub" ∧ Plain "b.py" ∧ Plain "up" ∧ Plain "a.py" ∧ Plain "gone" := by decide
  obtain ⟨sub, file, up, link, gone⟩ := plain
  exact ((((WorkspacesApart.setting_sample.proper.put rfl rfl sub).put rfl rfl file).put rfl rfl
    up).put rfl rfl link).put rfl rfl gone

theorem eq_of_toOption {ε : Type} {done : Except ε Workspace × World} {ws : Workspace}
    (h : done.1.toOption = some ws) : done = (.ok ws, done.2) := by
  obtain ⟨outcome, w'⟩ := done
  cases outcome with
  | error e => cases h
  | ok ws' =>
    obtain rfl := Option.some.inj h
    rfl

def sampleProvided : Except Failure Workspace × World :=
  after (Workspace.provision WorkspacesApart.sampleHost "/lib") { tree := sampleLibrary }

theorem provisioned_sample : sampleProvided.1.toOption = some ⟨"/tmp/scriptlet-x"⟩ := by
  decide +kernel

theorem placed_sample :
    (sampleProvided.2.tree.find true WorkspacesApart.sampleHost.cwd "/tmp/scriptlet-x").toOption.map
      Prod.fst = some ["scriptlet-x", "tmp"] := by
  decide +kernel

theorem unnamed_sample : Unnamed sampleLibrary ["scriptlet-x", "tmp"] := by
  have link (target : String) (other : "scriptlet-x" ∉ Path.segments target) (target' : String)
      (same : Node.link target = .link target') :
      ∀ name ∈ ["scriptlet-x", "tmp"].head?, name ∉ Path.segments target' := by
    cases same
    rintro _ ⟨⟩
    exact other
  have directory (target : String) (same : Node.directory = .link target) :
      ∀ name ∈ ["scriptlet-x", "tmp"].head?, name ∉ Path.segments target := by
    cases same
  have file (mode : Nat) (content : Bytes) (target : String)
      (same : Node.file mode content = .link target) :
      ∀ name ∈ ["scriptlet-x", "tmp"].head?, name ∉ Path.segments target := by
    cases same
  have tree : Unnamed WorkspacesApart.sampleTree ["scriptlet-x", "tmp"] :=
    (((unnamed_empty _).put rfl directory).put rfl directory).put rfl (file 0o644 [])
  exact ((((tree.put rfl directory).put rfl (file 0o755 [1])).put rfl (link ".." (by decide))).put
    rfl (link "sub/b.py" (by decide))).put rfl (link "gone" (by decide))

/-- A workspace that has been provisioned is an exact copy of the library. It is the same one
whatever the order in which directories are read, unless a link has the name that the workspace has
got. -/
theorem exact_provision {h : Host} {library : String} {ws : Workspace} {w w' : World}
    (proper : Proper w.tree) (tags : ∀ n, '/' ∉ (h.tag n).toList)
    (arranged : ∀ l names, (h.arrange l names).Perm names)
    (provisioned : after (Workspace.provision h library) w = (.ok ws, w')) :
    ∃ origin l files, ExactCopy h library w.tree ws origin l files w' ∧
      (Unnamed w.tree l → AnyOrder h library w ws w') := by
  obtain ⟨root, l, files, stocked⟩ := exists_stocked proper tags arranged provisioned
  obtain ⟨origin, copy⟩ := stocked.exact proper
  refine ⟨origin, l, files, copy, ?_⟩
  intro unnamed arrange ws' w'' arranged' again
  obtain rfl := same_workspace provisioned again
  obtain ⟨root', l', files', stocked'⟩ :=
    exists_stocked (h := { h with arrange := arrange }) proper tags arranged' again
  obtain ⟨origin', copy'⟩ := stocked'.exact proper
  obtain ⟨rfl, -⟩ := find_unique stocked.temporary stocked'.temporary
  obtain rfl := (placed_unique stocked.placed stocked'.placed).mp rfl
  obtain ⟨rfl, -⟩ := find_unique copy.source copy'.source
  have same := copy.same_tree copy' unnamed
  refine ⟨rfl, same, ?_⟩
  rw [copy.reported, copy'.reported, copy.same_count copy' same]

theorem exact_provision_sample : ∃ origin l files,
    ExactCopy WorkspacesApart.sampleHost "/lib" sampleLibrary ⟨"/tmp/scriptlet-x"⟩ origin l files
      sampleProvided.2 ∧
    AnyOrder WorkspacesApart.sampleHost "/lib" { tree := sampleLibrary }
      ⟨"/tmp/scriptlet-x"⟩ sampleProvided.2 := by
  have provisioned := eq_of_toOption provisioned_sample
  obtain ⟨origin, l, files, copy, any_order⟩ :=
    exact_provision (w := { tree := sampleLibrary }) proper_sampleLibrary
      WorkspacesApart.setting_sample.tags WorkspacesApart.setting_sample.arranged provisioned
  refine ⟨origin, l, files, copy, any_order ?_⟩
  have placed := placed_sample
  rw [copy.place] at placed
  obtain rfl := Option.some.inj placed
  exact unnamed_sample

/-- A library with a link into the workspace that will be made for it. -/
def namedLibrary : Tree :=
  WorkspacesApart.sampleTree.put ["zip", "lib"] (.link "/tmp/scriptlet-x/os.py")

def namedProvided (arrange : List String → List String) : Except Failure Workspace × World :=
  after (Workspace.provision { WorkspacesApart.sampleHost with arrange := fun _ => arrange } "/lib")
    { tree := namedLibrary }

/-- A link that names the workspace leads to nothing before the copy is made, and to a file once
that has been copied. So it depends on the order of reading whether there is a file for it. -/
theorem named_by_order :
    (namedProvided id).1.toOption = some ⟨"/tmp/scriptlet-x"⟩ ∧
    (namedProvided id).2.tree.get? ["zip", "scriptlet-x", "tmp"] = some (.file 0o644 []) ∧
    (namedProvided List.reverse).1.toOption = some ⟨"/tmp/scriptlet-x"⟩ ∧
    (namedProvided List.reverse).2.tree.get? ["zip", "scriptlet-x", "tmp"] = none := by
  decide +kernel

end ScriptSandbox.Proofs.CopyExact
