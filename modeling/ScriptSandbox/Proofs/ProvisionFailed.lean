import ScriptSandbox.Proofs.CopyLoop

namespace ScriptSandbox.Proofs.ProvisionFailed
open ScriptSandbox.Tree TreeGrowth Resolution FileSteps LibraryCopied WorkspaceLife CopyLoop
open ExecutionLife (exists_rooted)
open CopyExact (sampleLibrary proper_sampleLibrary)
open WorkspacesApart (sampleHost setting_sample)

def perform (h : Host) : FileAct → Attempt Unit
  | .readDirectory path => do
    let _ ← h.readDirectory path
    return
  | .nextEntry directory name => h.permit (.nextEntry directory name)
  | .makeDirectory path => h.makeDirectory path
  | .copy source target => h.copy source target
  | .removeAll path => h.removeAll path

/-- The operation that is due for an entry that has been read, if one is. Where links lead is seen
in the tree `t`. -/
def due (h : Host) (t : Tree) (j : Job) : String × Node → Option FileAct
  | (name, .directory) => some (.makeDirectory (Path.join j.target name))
  | (name, .link _) =>
    match t.find true h.cwd (Path.join j.source name) with
    | .ok (_, .file _ _) => some (.copy (Path.join j.source name) (Path.join j.target name))
    | _ => none
  | (name, _) => some (.copy (Path.join j.source name) (Path.join j.target name))

/-- What is noted of a link that is left out. -/
def skipNoted (j : Job) (name : String) : Event :=
  ⟨.workspaces, .debug, "Skipping directory or dangling symlink",
    [("link", .text (Path.join j.source name))]⟩

/-- The directories and the number of files with one more entry. -/
def counted (entry : String × Node) (others : List String × Nat) : List String × Nat :=
  if entry.2.isDirectory then (entry.1 :: others.1, others.2) else (others.1, others.2 + 1)

/-- A step that leaves the world as it is if it fails. -/
def Steady {α : Type} (step : Attempt α) : Prop :=
  ∀ w, Ensures step w fun r w' => ∀ e, r = .error e → w' = w

section
variable {h : Host} {α : Type} {step : Attempt α}

theorem Steady.permitted (steady : Steady step) (act : FileAct) :
    Steady (do h.permit act; step) := by
  intro w
  apply ensures_bind (ensures_permit act)
  · exact fun e w' post _ _ => post.1
  · intro _ w' post
    obtain ⟨rfl, -⟩ := post
    exact steady w'

theorem steady_change (f : Tree → Except HostError Tree) : Steady (Host.change f) := by
  intro w
  apply (ensures_change f).mono
  intro r w' post
  rcases post with ⟨rfl, -⟩ | ⟨-, same⟩
  · exact nofun
  · exact fun _ _ => same

theorem steady_copy (source target : String) : Steady (h.copy source target) := by
  apply Steady.permitted
  intro w
  apply ensures_bind (ensures_inspect source)
  · exact fun e w' post _ _ => post.1
  · intro node w' post
    obtain ⟨rfl, -⟩ := post
    cases node with
    | file mode content =>
      dsimp only
      split
      · exact steady_change _ w'
      · exact ensures_throw fun _ _ => rfl
    | directory => exact ensures_throw fun _ _ => rfl
    | link target => exact ensures_throw fun _ _ => rfl
    | device content => exact ensures_throw fun _ _ => rfl
    | socket => exact ensures_throw fun _ _ => rfl

theorem steady_perform (act : FileAct) : Steady (perform h act) := by
  cases act with
  | readDirectory path =>
    intro w
    apply ensures_bind (ensures_readDirectory path)
    · exact fun e w' post _ _ => post.1
    · exact fun entries w' _ => ensures_pure nofun
  | nextEntry directory name =>
    intro w
    apply (ensures_permit _).mono
    exact fun r w' post _ _ => post.1
  | makeDirectory path => exact (steady_change _).permitted _
  | copy source target => exact steady_copy source target
  | removeAll path => exact (steady_change _).permitted _

theorem Steady.world_eq {w w' : World} {e : HostError} (steady : Steady step)
    (fails : after step w = (.error e, w')) : w' = w := by
  have kept := steady w
  unfold Ensures at kept
  rw [fails] at kept
  exact kept e rfl

end

section
variable {h : Host} {j : Job} {w w' : World} {act : FileAct} {e : HostError}
  {entry : String × Node} {entries others : List (String × Node)}

@[simp]
theorem after_leadsToFile (path : String) :
    after (Workspace.leadsToFile h path) w = (.ok (match w.tree.find true h.cwd path with
      | .ok (_, node) => node.isFile
      | .error _ => false), w) := by
  simp only [Workspace.leadsToFile, after_bind, after_outcomeOf, after_inspect]
  cases w.tree.find true h.cwd path with
  | error e => rfl
  | ok place => rfl

/-- The step to the first of the entries, or past them if there are none. -/
def onward (j : Job) (entries : List (String × Node)) : FileAct :=
  .nextEntry j.source (entries.head?.map Prod.fst)

theorem after_copyEntries_refused (refused : h.refuse (onward j entries) = some e) :
    after (Workspace.copyEntries h j.source j.target entries) w = (.error e, w) := by
  cases entries with
  | nil => exact after_bind_error (after_permit_refused refused)
  | cons entry others => exact after_bind_error (after_permit_refused refused)

theorem after_copyEntries_nil (passed : h.refuse (onward j []) = none) :
    after (Workspace.copyEntries h j.source j.target []) w = (.ok ([], 0), w) :=
  after_bind_ok (after_permit_passed passed)

theorem after_copyEntries_cons (passed : h.refuse (onward j (entry :: others)) = none) :
    after (Workspace.copyEntries h j.source j.target (entry :: others)) w =
      match due h w.tree j entry with
      | some act => after (do
          perform h act
          return counted entry (← Workspace.copyEntries h j.source j.target others)) w
      | none => after (Workspace.copyEntries h j.source j.target others)
          { w with log := w.log ++ [skipNoted j entry.1] } := by
  obtain ⟨name, node⟩ := entry
  have passed : h.refuse (.nextEntry j.source (some name)) = none := passed
  rw [Workspace.copyEntries, after_bind_ok (after_permit_passed passed)]
  cases node with
  | directory => rfl
  | file mode content => rfl
  | device content => rfl
  | socket => rfl
  | link target =>
    dsimp only
    rw [after_bind_ok (after_leadsToFile _), due]
    cases w.tree.find true h.cwd (Path.join j.source name) with
    | error e => rfl
    | ok place =>
      obtain ⟨l, node⟩ := place
      cases node with
      | file mode content => rfl
      | directory => rfl
      | device content => rfl
      | socket => rfl
      | link target => rfl

end

/-- With these entries to be copied from the world `w` on, the operation is come to in the world
`w'`, after all operations before it have succeeded: it is the step to one of the entries or past
the last one, or what is due for an entry. -/
inductive MeetsEntry (h : Host) (j : Job) :
    List (String × Node) → World → FileAct → World → Prop
  | next {entries : List (String × Node)} {w : World} :
      MeetsEntry h j entries w (onward j entries) w
  | here {entry : String × Node} {others : List (String × Node)} {w : World} {act : FileAct}
      (passed : h.refuse (onward j (entry :: others)) = none)
      (is_due : due h w.tree j entry = some act) : MeetsEntry h j (entry :: others) w act w
  | done {entry : String × Node} {others : List (String × Node)} {w w₁ w' : World}
      {first act : FileAct} (passed : h.refuse (onward j (entry :: others)) = none)
      (is_due : due h w.tree j entry = some first)
      (succeeds : after (perform h first) w = (.ok (), w₁))
      (more : MeetsEntry h j others w₁ act w') : MeetsEntry h j (entry :: others) w act w'
  | skipped {entry : String × Node} {others : List (String × Node)} {w w' : World} {act : FileAct}
      (passed : h.refuse (onward j (entry :: others)) = none)
      (none_due : due h w.tree j entry = none)
      (more : MeetsEntry h j others { w with log := w.log ++ [skipNoted j entry.1] } act w') :
      MeetsEntry h j (entry :: others) w act w'

/-- With these jobs on its stack, the loop comes to the operation in the world `w'`. -/
inductive Meets (h : Host) : List Job → World → FileAct → World → Prop
  | read {j : Job} {rest : List Job} {w : World} :
      Meets h (j :: rest) w (.readDirectory j.source) w
  | entry {j : Job} {rest : List Job} {w w' : World} {entries : List (String × Node)}
      {act : FileAct} (listed : after (h.readDirectory j.source) w = (.ok entries, w))
      (met : MeetsEntry h j entries w act w') : Meets h (j :: rest) w act w'
  | later {j : Job} {rest : List Job} {w w₁ w' : World} {names : List String} {files : Nat}
      {act : FileAct} (copied : after (turn h j) w = (.ok (names, files), w₁))
      (met : Meets h (j.innerAll names ++ rest) w₁ act w') : Meets h (j :: rest) w act w'

section
variable {h : Host} {j : Job} {jobs : List Job} {w w' : World} {act : FileAct} {e : HostError}
  {entries : List (String × Node)}

/-- The step to an entry fails if it is refused, and does nothing else. -/
theorem onward_eq_error : after (perform h (onward j entries)) w = (.error e, w') ↔
    h.refuse (onward j entries) = some e ∧ w' = w := by
  have performed : perform h (onward j entries) = h.permit (onward j entries) := rfl
  rw [performed]
  cases refused : h.refuse (onward j entries) with
  | none =>
    rw [after_permit_passed refused]
    constructor
    · intro fails
      cases fails
    · intro fails
      cases fails.1
  | some e' =>
    rw [after_permit_refused refused]
    constructor
    · intro fails
      cases fails
      exact ⟨rfl, rfl⟩
    · intro fails
      obtain ⟨same, rfl⟩ := fails
      rw [Option.some.inj same]

theorem onward_succeeds (passed : h.refuse (onward j entries) = none) :
    after (perform h (onward j entries)) w ≠ (.error e, w') := by
  intro fails
  cases passed.symm.trans (onward_eq_error.mp fails).1

/-- If the step to the first of the entries is refused, nothing after it is come to. -/
theorem refused_eq_error {refusal : HostError}
    (refused : h.refuse (onward j entries) = some refusal) :
    after (Workspace.copyEntries h j.source j.target entries) w = (.error e, w') ↔
      ∃ act, MeetsEntry h j entries w act w' ∧ after (perform h act) w' = (.error e, w') := by
  rw [after_copyEntries_refused refused]
  constructor
  · intro fails
    cases fails
    exact ⟨_, .next, onward_eq_error.mpr ⟨refused, rfl⟩⟩
  · intro met
    obtain ⟨act, met, fails⟩ := met
    cases met with
    | next =>
      obtain ⟨same, -⟩ := onward_eq_error.mp fails
      rw [Option.some.inj (refused.symm.trans same)]
    | here passed => cases refused.symm.trans passed
    | done passed => cases refused.symm.trans passed
    | skipped passed => cases refused.symm.trans passed

/-- Copying entries fails with the error of the first operation that fails. -/
theorem copyEntries_eq_error :
    after (Workspace.copyEntries h j.source j.target entries) w = (.error e, w') ↔
      ∃ act, MeetsEntry h j entries w act w' ∧ after (perform h act) w' = (.error e, w') := by
  induction entries generalizing w with
  | nil =>
    cases passed : h.refuse (onward j []) with
    | some refusal => exact refused_eq_error passed
    | none =>
      rw [after_copyEntries_nil passed]
      constructor
      · intro fails
        cases fails
      · intro met
        obtain ⟨act, met, fails⟩ := met
        cases met
        exact absurd fails (onward_succeeds passed)
  | cons entry others ih =>
    cases passed : h.refuse (onward j (entry :: others)) with
    | some refusal => exact refused_eq_error passed
    | none =>
    rw [after_copyEntries_cons passed]
    cases is_due : due h w.tree j entry with
    | none =>
      dsimp only
      rw [ih]
      constructor
      · intro met
        obtain ⟨act, met, fails⟩ := met
        exact ⟨act, .skipped passed is_due met, fails⟩
      · intro met
        obtain ⟨act, met, fails⟩ := met
        cases met with
        | next => exact absurd fails (onward_succeeds passed)
        | here _ is_due' => cases is_due.symm.trans is_due'
        | done _ is_due' => cases is_due.symm.trans is_due'
        | skipped _ none_due more => exact ⟨act, more, fails⟩
    | some first =>
      dsimp only
      rw [after_bind_eq_error]
      constructor
      · intro fails
        rcases fails with fails | ⟨_, w₁, succeeds, fails⟩
        · obtain rfl := (steady_perform first).world_eq fails
          exact ⟨first, .here passed is_due, fails⟩
        · rcases after_bind_eq_error.mp fails with fails | ⟨_, w₂, -, none_left⟩
          · obtain ⟨act, met, fails⟩ := ih.mp fails
            exact ⟨act, .done passed is_due succeeds met, fails⟩
          · cases none_left
      · intro met
        obtain ⟨act, met, fails⟩ := met
        cases met with
        | next => exact absurd fails (onward_succeeds passed)
        | here _ is_due' =>
          cases is_due.symm.trans is_due'
          exact .inl fails
        | done _ is_due' succeeds more =>
          cases is_due.symm.trans is_due'
          refine .inr ⟨(), _, succeeds, ?_⟩
          exact after_bind_eq_error.mpr (.inl (ih.mpr ⟨act, more, fails⟩))
        | skipped _ none_due => cases is_due.symm.trans none_due

/-- Reading changes nothing. -/
theorem world_of_read {outcome : Except HostError (List (String × Node))} {path : String}
    (read : after (h.readDirectory path) w = (outcome, w')) : w' = w := by
  have kept := (ensures_readDirectory (h := h) (w := w) path).1
  rw [read] at kept
  exact kept

theorem readDirectory_eq_error {path : String} :
    after (perform h (.readDirectory path)) w = (.error e, w') ↔
      after (h.readDirectory path) w = (.error e, w') := by
  constructor
  · intro fails
    rcases after_bind_eq_error.mp fails with fails | ⟨_, _, -, none_left⟩
    · exact fails
    · cases none_left
  · exact fun fails => after_bind_eq_error.mpr (.inl fails)

theorem turn_eq_error {rest : List Job} (stops : after (turn h j) w = (.error e, w')) :
    ∃ act, Meets h (j :: rest) w act w' ∧ after (perform h act) w' = (.error e, w') := by
  rcases after_bind_eq_error.mp stops with fails | ⟨entries, w₁, listed, fails⟩
  · obtain rfl := world_of_read fails
    exact ⟨_, .read, readDirectory_eq_error.mpr fails⟩
  · obtain rfl := world_of_read listed
    obtain ⟨act, met, fails⟩ := copyEntries_eq_error.mp fails
    exact ⟨act, .entry listed met, fails⟩

/-- The loop fails with the error of the first operation that fails. -/
theorem drains_eq_error : (∃ reads, Drains h jobs w reads (.error e) w') ↔
    ∃ act, Meets h jobs w act w' ∧ after (perform h act) w' = (.error e, w') := by
  constructor
  · intro drained
    obtain ⟨reads, drained⟩ := drained
    generalize same : Except.error e = outcome at drained
    induction drained with
    | done => cases same
    | stopped fails =>
      cases same
      exact turn_eq_error fails
    | next copied more ih =>
      obtain rfl := map_eq_error same.symm
      obtain ⟨act, met, fails⟩ := ih rfl
      exact ⟨act, .later copied met, fails⟩
  · intro met
    obtain ⟨act, met, fails⟩ := met
    induction met with
    | read => exact ⟨_, .stopped (after_bind_error (readDirectory_eq_error.mp fails))⟩
    | entry listed met =>
      have stops := copyEntries_eq_error.mpr ⟨_, met, fails⟩
      exact ⟨_, .stopped ((after_bind_ok listed).trans stops)⟩
    | later copied met ih =>
      obtain ⟨reads, drained⟩ := ih fails
      exact ⟨_, .next copied drained⟩

end

/-- The error of the operation that keeps a workspace from being provisioned. -/
inductive Fault (h : Host) (library : String) (w : World) : HostError → Prop
  | missing {e : HostError} (lost : w.tree.find true h.cwd library = .error e) :
      Fault h library w e
  | noDirectory {l : Location} {node : Node}
      (found : w.tree.find true h.cwd library = .ok (l, node)) (other : node ≠ .directory) :
      Fault h library w .notDirectory
  | unmade {origin : Location} {w₁ : World} {e : HostError}
      (led : w.tree.find true h.cwd library = .ok (origin, .directory))
      (fails : after (Workspace.temporary h) w = (.error e, w₁)) : Fault h library w e
  | uncopied {origin : Location} {ws : Workspace} {w₁ w₂ : World} {act : FileAct} {e : HostError}
      (led : w.tree.find true h.cwd library = .ok (origin, .directory))
      (made : after (Workspace.temporary h) w = (.ok ws, w₁))
      (met : Meets h [⟨library, ws.path⟩] { w₁ with log := w₁.log ++ [madeNoted ws] } act w₂)
      (fails : after (perform h act) w₂ = (.error e, w₂)) : Fault h library w e

section
variable {h : Host} {library : String} {w w₁ : World} {e : HostError}

theorem provision_missing (lost : w.tree.find true h.cwd library = .error e) :
    after (Workspace.provision h library) w = (.error (.provisioning library e), w) := by
  simp [Workspace.provision, lost, Except.map]

theorem provision_noDirectory {l : Location} {node : Node}
    (found : w.tree.find true h.cwd library = .ok (l, node)) (other : node ≠ .directory) :
    after (Workspace.provision h library) w =
      (.error (.provisioning library .notDirectory), w) := by
  simp only [Workspace.provision, after_bind, after_attempt, after_inspect, found, Except.map,
    mapError_ok]
  cases node with
  | directory => exact absurd rfl other
  | file mode content => rfl
  | link target => rfl
  | device content => rfl
  | socket => rfl

variable (proper : Proper w.tree) (tags : ∀ n, '/' ∉ (h.tag n).toList)
  (arranged : ∀ l names, (h.arrange l names).Perm names)

include proper tags arranged

theorem copied_eq_error {origin : Location} {ws : Workspace} {w₂ : World}
    (led : w.tree.find true h.cwd library = .ok (origin, .directory))
    (made : after (Workspace.temporary h) w = (.ok ws, w₁)) :
    after (Workspace.copyBelow h Tree.pathLimit library ws.path)
        { w₁ with log := w₁.log ++ [madeNoted ws] } = (.error e, w₂) ↔
      ∃ act, Meets h [⟨library, ws.path⟩] { w₁ with log := w₁.log ++ [madeNoted ws] } act w₂ ∧
        after (perform h act) w₂ = (.error e, w₂) := by
  obtain ⟨l, begun⟩ := begun_of_temporary proper tags made
  have done := ensures_ended (w := { w₁ with log := w₁.log ++ [madeNoted ws] }) arranged proper led
    begun
  obtain ⟨reads, drained, -⟩ := done
  rw [← drains_eq_error]
  constructor
  · intro fails
    rw [fails] at drained
    exact ⟨reads, drained⟩
  · intro other
    obtain ⟨reads', drained'⟩ := other
    obtain ⟨-, outcome, world⟩ := drained.unique drained'
    exact Prod.ext outcome.symm world.symm

theorem provision_eq_error (f : Failure) :
    (after (Workspace.provision h library) w).1 = .error f ↔
      ∃ e, f = .provisioning library e ∧ Fault h library w e := by
  constructor
  · intro failed
    cases found : w.tree.find true h.cwd library with
    | error e =>
      rw [provision_missing found] at failed
      exact ⟨e, (Except.error.inj failed).symm, .missing found⟩
    | ok place =>
      obtain ⟨l, node⟩ := place
      by_cases directory : node = .directory
      · subst directory
        cases made : after (Workspace.temporary h) w with
        | mk outcome w₁ =>
        cases outcome with
        | error e =>
          rw [provision_directory found, made] at failed
          exact ⟨e, (Except.error.inj failed).symm, .unmade found made⟩
        | ok ws =>
          rw [after_provision found made] at failed
          cases copied : after (Workspace.copyBelow h Tree.pathLimit library ws.path)
              { w₁ with log := w₁.log ++ [madeNoted ws] } with
          | mk outcome w₂ =>
          rw [copied] at failed
          cases outcome with
          | ok files => cases failed
          | error e =>
            obtain ⟨act, met, fails⟩ :=
              (copied_eq_error proper tags arranged found made).mp copied
            exact ⟨e, (Except.error.inj failed).symm, .uncopied found made met fails⟩
      · rw [provision_noDirectory found directory] at failed
        exact ⟨_, (Except.error.inj failed).symm, .noDirectory found directory⟩
  · intro cause
    obtain ⟨e, rfl, fault⟩ := cause
    cases fault with
    | missing lost => rw [provision_missing lost]
    | noDirectory found other => rw [provision_noDirectory found other]
    | unmade led fails => rw [provision_directory led, fails]
    | uncopied led made met fails =>
      have copied := (copied_eq_error proper tags arranged led made).mpr ⟨_, met, fails⟩
      rw [after_provision led made, copied]
      rfl

end

/-- The files are as they were, and each directory has the entries that it had. -/
structure Restored (t t' : Tree) : Prop where
  nodes : ∀ m, t'.get? m = t.get? m
  entries : ∀ l, (t'.names l).Perm (t.names l)

theorem restored_of_nodes {t t' : Tree} (proper : Proper t) (proper' : Proper t')
    (same : ∀ m, t'.get? m = t.get? m) : Restored t t' := by
  refine ⟨same, fun l => ?_⟩
  refine (List.perm_ext_iff_of_nodup (proper'.once l) (proper.once l)).mpr fun name => ?_
  simp [same]

/-- Provisioning fails exactly if an operation that it comes to fails, whichever it is. The failure
names the library and has the error of that operation, and it has changed no file. -/
theorem failed_provision {h : Host} {library : String} {w : World} (proper : Proper w.tree)
    (tags : ∀ n, '/' ∉ (h.tag n).toList) (arranged : ∀ l names, (h.arrange l names).Perm names)
    (removable : ∀ path, h.refuse (.removeAll path) = none) (f : Failure) :
    ((after (Workspace.provision h library) w).1 = .error f ↔
      ∃ e, f = .provisioning library e ∧ Fault h library w e) ∧
    ((after (Workspace.provision h library) w).1 = .error f →
      Restored w.tree (after (Workspace.provision h library) w).2.tree) := by
  refine ⟨provision_eq_error proper tags arranged f, ?_⟩
  intro failed
  obtain ⟨root, rooted⟩ := exists_rooted h w.tree
  have done := ensures_provision library proper tags arranged rooted
  exact restored_of_nodes proper done.proper (done.removed f failed removable)

/-- A socket lies deep in the library, which is copied as far as to it. -/
def sampleSocket : Tree := sampleLibrary.put ["ipc", "sub", "lib"] .socket

theorem proper_sampleSocket : Proper sampleSocket := by
  have ipc : Plain "ipc" := by decide
  exact proper_sampleLibrary.put rfl rfl ipc

def sampleRefused : Except Failure Workspace × World :=
  after (Workspace.provision sampleHost "/lib") { tree := sampleSocket }

def error? {ε α : Type} : Except ε α → Option ε
  | .error e => some e
  | .ok _ => none

theorem eq_of_error? {ε α : Type} {outcome : Except ε α} {e : ε}
    (failed : error? outcome = some e) : outcome = .error e := by
  cases outcome with
  | error e' => exact congrArg Except.error (Option.some.inj failed)
  | ok a => cases failed

theorem refused_sample : error? sampleRefused.1 =
    some (.provisioning "/lib" (.system SystemCode.noDevice)) := by
  decide +kernel

theorem failed_provision_sample :
    sampleRefused.1 = .error (.provisioning "/lib" (.system SystemCode.noDevice)) ∧
      Fault sampleHost "/lib" { tree := sampleSocket } (.system SystemCode.noDevice) ∧
      Restored sampleSocket sampleRefused.2.tree := by
  have failed := eq_of_error? refused_sample
  unfold sampleRefused at failed ⊢
  obtain ⟨exactly, restored⟩ :=
    failed_provision (w := { tree := sampleSocket }) proper_sampleSocket setting_sample.tags
      setting_sample.arranged (fun _ => rfl)
      (.provisioning "/lib" (.system SystemCode.noDevice))
  obtain ⟨e, same, fault⟩ := exactly.mp failed
  obtain ⟨-, rfl⟩ := Failure.provisioning.inj same
  exact ⟨failed, fault, restored failed⟩

end ScriptSandbox.Proofs.ProvisionFailed
