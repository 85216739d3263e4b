import ScriptSandbox.Proofs.FilesOnly
import ScriptSandbox.Proofs.WorkspacesApart

namespace ScriptSandbox.Proofs.ExecutionLife
open ScriptSandbox.Tree TreeGrowth Resolution FileSteps LibraryCopied WorkspaceLife FilesOnly
  WorkspacesApart

/-- The executor changes nothing but the directory that its arguments map. It may take it away, but
leaves nothing in its place that is not removed like it. It records no call. -/
structure Contained (h : Host) (e : Executor) : Prop where
  calls : ∀ argv w, (after (e.run argv) w).2.calls = w.calls
  proper : ∀ argv w, Proper w.tree → Proper (after (e.run argv) w).2.tree
  within : ∀ argv w m, (after (e.run argv) w).2.tree.get? m ≠ w.tree.get? m →
    ∃ path l, argv[1]? = some ("--mapdir=lib:" ++ path) ∧
      w.tree.find true h.cwd path = .ok (l, .directory) ∧ l <:+ m
  replaced : ∀ argv w path l node, argv[1]? = some ("--mapdir=lib:" ++ path) →
    w.tree.find true h.cwd path = .ok (l, .directory) →
    (after (e.run argv) w).2.tree.get? l = some node →
    node = .directory ∨ ∃ target, node = .link target

/-- An executor that changes no files keeps to its workspace. -/
theorem contained_of_files {h : Host} {e : Executor}
    (calls : ∀ argv w, (after (e.run argv) w).2.calls = w.calls)
    (files : ∀ argv w, (after (e.run argv) w).2.tree = w.tree) : Contained h e := by
  refine ⟨calls, ?_, ?_, ?_⟩
  · intro argv w proper
    rw [files]
    exact proper
  · intro argv w m different
    rw [files] at different
    exact absurd rfl different
  · intro argv w path l node _ found there
    rw [files] at there
    exact .inl (Option.some.inj (there.symm.trans (find_eq_ok.mp found).2))

theorem contained_wasmer {h : Host} (x : Wasmer) : Contained h (x.executor h) := by
  refine contained_of_files ?_ fun argv w => tree_wasmer x argv w
  intro argv w
  obtain ⟨log, ran⟩ := RunStages.after_run (h := h) (w := w) x argv
  exact congrArg (fun done => done.2.calls) ran

theorem exists_rooted (h : Host) (t : Tree) : ∃ root, Rooted h root t := by
  cases found : t.find true h.cwd (Workspace.temporaryRoot h) with
  | ok place =>
    refine ⟨place.1, ?_⟩
    intro d led
    rw [Except.ok.inj (found.symm.trans led)]
  | error e =>
    refine ⟨[], ?_⟩
    intro d led
    cases found.symm.trans led

section
variable {h : Host} {e : Executor} {r : Request} {image library : String} {w : World}
  {root l m : Location} {t t' : Tree} {ws : Workspace}

/-- What the tree `t'` holds of a workspace at `l`, where nothing was in the tree `t`, may have been
changed or be gone. -/
structure Used (h : Host) (root : Location) (t : Tree) (ws : Workspace) (l : Location)
    (t' : Tree) : Prop where
  before : Proper t
  temporary : t.find true h.cwd (Workspace.temporaryRoot h) = .ok (root, .directory)
  placed : Placed h root ws l
  free : t.get? l = none
  proper : Proper t'
  outside : ∀ m, ¬ l <:+ m → t'.get? m = t.get? m
  node : ∀ node, t'.get? l = some node → node = .directory ∨ ∃ target, node = .link target

theorem Used.extends (used : Used h root t ws l t') : Extends t t' := by
  intro m node there
  rw [used.outside m]
  · exact there
  · intro within
    cases (used.before.none_within used.free within).symm.trans there

/-- The path of the workspace still leads to its place. -/
theorem Used.locate (used : Used h root t ws l t') :
    t'.locate false h.cwd ws.path = .ok l := by
  have temporary := find_mono used.extends used.temporary
  obtain ⟨name, rfl, plain, path, fits⟩ := used.placed
  rw [path] at fits ⊢
  exact locate_of_fits temporary plain fits false nofun

/-- Whatever is left at the place of the workspace can be removed. -/
theorem Used.removeAll (used : Used h root t ws l t') (there : t'.get? l ≠ none) :
    t'.removeAll h.cwd ws.path = .ok (t'.cut l) := by
  obtain ⟨node, there⟩ := Option.ne_none_iff_exists'.mp there
  have found := find_eq_ok.mpr ⟨used.locate, there⟩
  unfold Tree.removeAll
  rw [found]
  rcases used.node node there with rfl | ⟨target, rfl⟩
  · rfl
  · rfl

/-- Without the workspace the tree is what it was. -/
theorem Used.restored (used : Used h root t ws l t') (gone : t'.get? l = none) (m : Location) :
    t'.get? m = t.get? m := by
  by_cases within : l <:+ m
  · rw [used.proper.none_within gone within, used.before.none_within used.free within]
  · exact used.outside m within

/-- A release leaves the rest of the tree as it is, and takes away what is left of the workspace, if
that is not refused. -/
theorem Used.released {w : World} (used : Used h root t ws l w.tree) :
    Ensures (h.removeAll ws.path) w fun _ w' => (∀ m, ¬ l <:+ m → w'.tree.get? m = t.get? m) ∧
      ((∀ path, h.refuse (.removeAll path) = none) → ∀ m, w'.tree.get? m = t.get? m) := by
  apply (ensures_removeAll ws.path).mono
  intro r w' post
  rcases post with ⟨-, removed⟩ | ⟨e, -, rfl, refused⟩
  · obtain ⟨l', way, cut⟩ := removeAll_eq_ok removed
    obtain rfl := Except.ok.inj (way.symm.trans used.locate)
    have restored (m : Location) : w'.tree.get? m = t.get? m := by
      by_cases within : l' <:+ m
      · simp [cut, used.placed.inside, within, used.before.none_within used.free within]
      · simp [cut, used.placed.inside, within, used.outside m within]
    exact ⟨fun m _ => restored m, fun _ => restored⟩
  · refine ⟨used.outside, ?_⟩
    intro removable
    rcases refused with refused | lost
    · cases refused.symm.trans (removable ws.path)
    · -- There was nothing left to remove.
      apply used.restored
      apply Decidable.by_contra
      intro there
      cases lost.symm.trans (used.removeAll there)

theorem used_of_made (made : Made h root library t ws l t') (proper : Proper t)
    (proper' : Proper t') (contained : Contained h e) {argv : List String} {w : World}
    (tree : w.tree = t') (mapped : argv[1]? = some ("--mapdir=lib:" ++ ws.path)) :
    Used h root t ws l (after (e.run argv) w).2.tree := by
  subst tree
  refine ⟨proper, made.temporary, made.placed, made.free, contained.proper argv w proper', ?_, ?_⟩
  · intro m outside
    have same : (after (e.run argv) w).2.tree.get? m = w.tree.get? m := by
      apply Decidable.by_contra
      intro different
      obtain ⟨path, l', mapped', found, within⟩ := contained.within argv w m different
      obtain rfl := mapped_unique (Option.some.inj (mapped.symm.trans mapped'))
      obtain ⟨rfl, -⟩ := find_unique found (made.found true)
      exact outside within
    rw [same, made.added.elsewhere outside]
  · exact fun node => contained.replaced argv w ws.path l node mapped (made.found true)

/-- How an execution goes that begins in the world `w`: its outcome, and the world after it. -/
structure Lifecycle (h : Host) (e : Executor) (r : Request) (image library : String) (w : World)
    (outcome : Except Failure Output) (w' : World) : Prop where
  /-- The executor is not called without a workspace. -/
  refused : ∀ f w₁, after (Workspace.provision h library) w = (.error f, w₁) →
    (∃ cause, f = .provisioning library cause) ∧ outcome = .error f ∧ w'.calls = w.calls
  /-- It is called once while there is one, with a copy of the library in it, and what it answers is
  the outcome. -/
  called : ∀ ws w₁, after (Workspace.provision h library) w = (.ok ws, w₁) →
    w'.calls = w.calls ++ [⟨(invocation image ws r).argv, w₁.tree⟩] ∧
    outcome = (after (e.run (invocation image ws r).argv) { w₁ with calls := w'.calls }).1 ∧
    (invocation image ws r).argv[1]? = some ("--mapdir=lib:" ++ ws.path) ∧
    ∃ l origin, w.tree.get? l = none ∧ w₁.tree.find true h.cwd ws.path = .ok (l, .directory) ∧
      w.tree.find true h.cwd library = .ok (origin, .directory) ∧
      Mirrors w.tree h.cwd library origin w₁.tree l
  /-- Only where the workspace was made anything can be different afterwards. -/
  outside : (∀ m, w'.tree.get? m = w.tree.get? m) ∨ ∃ root, LeftAt h root w.tree w'.tree
  gone : (∀ path, h.refuse (.removeAll path) = none) → ∀ m, w'.tree.get? m = w.tree.get? m

@[simp]
theorem calls_provision (h : Host) (library : String) (w : World) :
    (after (Workspace.provision h library) w).2.calls = w.calls :=
  (onFiles_provision h library).calls w

/-- An execution with a workspace is the call of the executor and the removal of the workspace, but
for what is noted of them. -/
theorem after_execute (e : Executor) (r : Request) (image : String) {w₁ : World}
    (provided : after (Workspace.provision h library) w = (.ok ws, w₁)) :
    ∃ log log', after (Interpreter.execute h e r (.python image library)) w =
      ((after (e.run (invocation image ws r).argv)
          { w₁ with calls := w.calls ++ [⟨(invocation image ws r).argv, w₁.tree⟩] }).1,
        { (after (h.removeAll ws.path)
            { (after (e.run (invocation image ws r).argv)
                { w₁ with calls := w.calls ++ [⟨(invocation image ws r).argv, w₁.tree⟩] }).2 with
              log := log }).2 with log := log' }) := by
  have calls : w₁.calls = w.calls := by
    have kept := calls_provision h library w
    rw [provided] at kept
    exact kept
  obtain ⟨log, invoked⟩ := after_invoke e .python r (invocation image ws r) w₁
  rw [calls] at invoked
  generalize after (e.run (invocation image ws r).argv)
    { w₁ with calls := w.calls ++ [⟨(invocation image ws r).argv, w₁.tree⟩] } = ran at invoked ⊢
  obtain ⟨log', released⟩ := world_releaseNoted (h := h) ws { ran.2 with log := log }
  refine ⟨log, log', ?_⟩
  rw [← released]
  unfold invocation at invoked
  simp only [Interpreter.execute, after_bind, provided, after_outcomeOf, invoked, after_lift,
    after_settle]

/-- The files after an execution: only where the workspace was anything can be different, and
nothing is if that could be removed. -/
theorem files_execute (proper : Proper w.tree) (tags : ∀ n, '/' ∉ (h.tag n).toList)
    (arranged : ∀ l names, (h.arrange l names).Perm names) (contained : Contained h e) :
    Ensures (Interpreter.execute h e r (.python image library)) w fun _ w' =>
      ((∀ m, w'.tree.get? m = w.tree.get? m) ∨ ∃ root, LeftAt h root w.tree w'.tree) ∧
      ((∀ path, h.refuse (.removeAll path) = none) → ∀ m, w'.tree.get? m = w.tree.get? m) := by
  obtain ⟨root, rooted⟩ := exists_rooted h w.tree
  have done := ensures_provision library proper tags arranged rooted
  unfold Ensures at done ⊢
  cases provided : after (Workspace.provision h library) w with
  | mk outcome w₁ =>
    rw [provided] at done
    cases outcome with
    | error f =>
      have executed :
          after (Interpreter.execute h e r (.python image library)) w = (.error f, w₁) :=
        after_bind_error provided
      rw [executed]
      exact ⟨(done.limited f rfl).imp id fun left => ⟨root, left⟩, done.removed f rfl⟩
    | ok ws =>
      obtain ⟨l, made⟩ := done.made ws rfl
      obtain ⟨log, log', executed⟩ := after_execute e r image provided
      rw [executed]
      let ran := after (e.run (invocation image ws r).argv)
        { w₁ with calls := w.calls ++ [⟨(invocation image ws r).argv, w₁.tree⟩] }
      have used : Used h root w.tree ws l ({ ran.2 with log := log } : World).tree :=
        used_of_made made proper done.proper contained rfl (argv_invocation image ws r)
      obtain ⟨outside, gone⟩ := used.released
      exact ⟨.inr ⟨root, ws, l, made.temporary, made.placed, made.free, outside⟩, gone⟩

/-- An execution in Python answers what its executor does, and cleans up. -/
theorem lifecycle_execute (proper : Proper w.tree) (tags : ∀ n, '/' ∉ (h.tag n).toList)
    (arranged : ∀ l names, (h.arrange l names).Perm names) (contained : Contained h e) :
    Lifecycle h e r image library w
      (after (Interpreter.execute h e r (.python image library)) w).1
      (after (Interpreter.execute h e r (.python image library)) w).2 := by
  obtain ⟨root, rooted⟩ := exists_rooted h w.tree
  have done := ensures_provision library proper tags arranged rooted
  unfold Ensures at done
  obtain ⟨outside, gone⟩ := files_execute proper tags arranged contained
  refine ⟨?_, ?_, outside, gone⟩
  · intro f w₁ provided
    have kept := calls_provision h library w
    rw [provided] at done kept
    have executed : after (Interpreter.execute h e r (.python image library)) w = (.error f, w₁) :=
      after_bind_error provided
    rw [executed]
    exact ⟨done.cause f rfl, rfl, kept⟩
  · intro ws w₁ provided
    rw [provided] at done
    obtain ⟨l, made⟩ := done.made ws rfl
    obtain ⟨origin, led, mirrors⟩ := made.mirrors proper
    obtain ⟨log, log', executed⟩ := after_execute e r image provided
    have recorded : (after (Interpreter.execute h e r (.python image library)) w).2.calls =
        w.calls ++ [⟨(invocation image ws r).argv, w₁.tree⟩] := by
      rw [executed]
      dsimp only
      rw [(onFiles_removeAll h ws.path).calls]
      exact contained.calls _ _
    refine ⟨recorded, ?_, argv_invocation image ws r, l, origin, made.free, made.found true, led,
      mirrors⟩
    rw [recorded, executed]

end

/-- The process takes the directory away that is mapped for it, and fails then. -/
def sampleRemover : Executor where
  name := "remover"
  run argv := do
    let w ← get
    match argv[1]? == some ("--mapdir=lib:" ++ "/tmp/scriptlet-x"),
        w.tree.find true sampleHost.cwd "/tmp/scriptlet-x" with
    | true, .ok (name :: above, .directory) =>
      modify fun w => { w with tree := w.tree.cut (name :: above) }
    | _, _ => pure ()
    throw (.sandboxExecution (some 1) "" "")

theorem after_sampleRemover (argv : List String) (w : World) :
    (after (sampleRemover.run argv) w).2 = w ∨
    ∃ l, l ≠ [] ∧ argv[1]? = some ("--mapdir=lib:" ++ "/tmp/scriptlet-x") ∧
      w.tree.find true sampleHost.cwd "/tmp/scriptlet-x" = .ok (l, .directory) ∧
      (after (sampleRemover.run argv) w).2 = { w with tree := w.tree.cut l } := by
  simp only [sampleRemover, after_bind, after_get]
  split
  · rename_i name above mapped found
    exact .inr ⟨_, List.cons_ne_nil name above, by simpa using mapped, found, rfl⟩
  · exact .inl rfl

theorem contained_sampleRemover : Contained sampleHost sampleRemover := by
  refine ⟨?_, ?_, ?_, ?_⟩
  · intro argv w
    rcases after_sampleRemover argv w with same | ⟨l, -, -, -, same⟩
    · rw [same]
    · rw [same]
  · intro argv w proper
    rcases after_sampleRemover argv w with same | ⟨l, inside, -, -, same⟩
    · rw [same]
      exact proper
    · rw [same]
      exact proper.cut inside
  · intro argv w m different
    rcases after_sampleRemover argv w with same | ⟨l, inside, mapped, found, same⟩
    · rw [same] at different
      exact absurd rfl different
    · refine ⟨_, l, mapped, found, ?_⟩
      apply Decidable.by_contra
      intro outside
      rw [same] at different
      exact different (by simp [inside, outside])
  · intro argv w path l node mapped found there
    rcases after_sampleRemover argv w with same | ⟨l', inside, mapped', found', same⟩
    · rw [same] at there
      exact .inl (Option.some.inj (there.symm.trans (find_eq_ok.mp found).2))
    · obtain rfl := mapped_unique (Option.some.inj (mapped.symm.trans mapped'))
      obtain ⟨rfl, -⟩ := find_unique found found'
      simp [same, inside] at there

theorem lifecycle_execute_sample :
    Lifecycle sampleHost sampleRemover { script := "1" } "python" "/lib" { tree := sampleTree }
      (after (Interpreter.execute sampleHost sampleRemover { script := "1" }
        (.python "python" "/lib")) { tree := sampleTree }).1
      (after (Interpreter.execute sampleHost sampleRemover { script := "1" }
        (.python "python" "/lib")) { tree := sampleTree }).2 :=
  lifecycle_execute setting_sample.proper setting_sample.tags setting_sample.arranged
    contained_sampleRemover

end ScriptSandbox.Proofs.ExecutionLife
