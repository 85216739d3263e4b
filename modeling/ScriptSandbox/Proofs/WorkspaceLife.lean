import ScriptSandbox.Proofs.LibraryCopied

namespace ScriptSandbox.Proofs.WorkspaceLife
open ScriptSandbox.Tree TreeGrowth Resolution FileSteps LibraryCopied

/-- The workspace is at the location `l`, right in the directory for temporary files. -/
def Placed (h : Host) (root : Location) (ws : Workspace) (l : Location) : Prop :=
  ∃ name, l = name :: root ∧ Plain name ∧ ws.path = Path.join (Workspace.temporaryRoot h) name ∧
    Fits ws.path name

section
variable {h : Host} {root l : Location} {w : World}

theorem Placed.inside {ws : Workspace} (placed : Placed h root ws l) : l ≠ [] := by
  obtain ⟨name, rfl, -⟩ := placed
  exact List.cons_ne_nil name root

theorem plain_tagged {tag : String} (no_slash : '/' ∉ tag.toList) :
    Plain (Workspace.namePrefix ++ tag) := by
  have text : (Workspace.namePrefix ++ tag).toList =
      ['s', 'c', 'r', 'i', 'p', 't', 'l', 'e', 't', '-'] ++ tag.toList := String.toList_append
  have other {name : String} (short : name.toList.length < 10) :
      Workspace.namePrefix ++ tag ≠ name := by
    intro same
    have length := congrArg List.length (congrArg String.toList same)
    rw [text, List.length_append] at length
    simp only [List.length_cons, List.length_nil] at length
    omega
  refine ⟨other (by decide), other (by decide), other (by decide), ?_⟩
  rw [text]
  intro slash
  rcases List.mem_append.mp slash with first | last
  · revert first
    decide
  · exact no_slash last

theorem temporaryRoot_ne (h : Host) : Workspace.temporaryRoot h ≠ "" := by
  apply join_ne
  intro empty
  have first := congrArg String.toList empty
  rw [Host.cwdPath, String.toList_append] at first
  cases first

/-- What is so after a directory was to be made in the one for temporary files, from the tree `t`
on, with success or without. -/
def Started (h : Host) (root : Location) (t : Tree) {ε : Type} (r : Except ε Workspace)
    (w' : World) : Prop :=
  (∃ ws l, r = .ok ws ∧ t.find true h.cwd (Workspace.temporaryRoot h) = .ok (root, .directory) ∧
    Placed h root ws l ∧ t.get? l = none ∧ w'.tree = t.put l .directory) ∨
  (∃ e, r = .error e) ∧ w'.tree = t

/-- If the path for temporary files leads to a directory, that is `root`. -/
def Rooted (h : Host) (root : Location) (t : Tree) : Prop :=
  ∀ d, t.find true h.cwd (Workspace.temporaryRoot h) = .ok (d, .directory) → d = root

theorem ensures_makeTemporary (proper : Proper w.tree) (tags : ∀ n, '/' ∉ (h.tag n).toList)
    (tries : Nat) (rooted : Rooted h root w.tree) :
    Ensures (Workspace.makeTemporary h tries) w (Started h root w.tree) := by
  induction tries generalizing w with
  | zero => exact .inr ⟨⟨_, rfl⟩, rfl⟩
  | succ tries ih =>
    apply ensures_get
    apply ensures_modify
    have plain := plain_tagged (tags w.drawn)
    have proper' : Proper ({ w with drawn := w.drawn + 1 } : World).tree := proper
    apply ensures_outcomeOf (ensures_makeDirectory proper' (temporaryRoot_ne h) plain)
    intro outcome w' post
    rcases post with ⟨d, rfl, found, fits, free, put⟩ | ⟨⟨e, rfl⟩, rfl⟩
    · obtain rfl := rooted d found
      exact .inl ⟨_, _, rfl, found, ⟨_, rfl, plain, rfl, fits⟩, free, put⟩
    · dsimp only
      split
      · exact ih proper rooted
      · exact .inr ⟨⟨_, rfl⟩, rfl⟩

theorem ensures_temporary (proper : Proper w.tree) (tags : ∀ n, '/' ∉ (h.tag n).toList)
    (rooted : Rooted h root w.tree) :
    Ensures (Workspace.temporary h) w (Started h root w.tree) :=
  ensures_get (ensures_makeTemporary proper tags _ rooted)

theorem Placed.found {t : Tree} {ws : Workspace} (placed : Placed h root ws l)
    (found : t.find true h.cwd (Workspace.temporaryRoot h) = .ok (root, .directory))
    (directory : t.get? l = some .directory) (whole : Bool) :
    t.find whole h.cwd ws.path = .ok (l, .directory) := by
  obtain ⟨name, rfl, plain, path, fits⟩ := placed
  rw [path] at fits ⊢
  exact find_join found plain fits directory whole

/-- A directory that has just been made. -/
structure Fresh (t : Tree) (l : Location) (t' : Tree) : Prop where
  proper : Proper t'
  added : Adds (l <:+ ·) t t'
  directory : t'.get? l = some .directory
  empty : Empty t' l

theorem Placed.fresh {t t' : Tree} {ws : Workspace} (placed : Placed h root ws l)
    (proper : Proper t) (holder : t.get? root = some .directory) (free : t.get? l = none)
    (put : t' = t.put l .directory) : Fresh t l t' := by
  obtain ⟨name, rfl, plain, -⟩ := placed
  subst put
  have added := Adds.put free .directory
  refine ⟨proper.put free holder plain, ?_, by simp, ?_⟩
  · apply added.mono
    rintro m rfl
    exact List.suffix_refl _
  · intro m below
    rw [added.elsewhere, proper.none_within free (suffix_of_below below)]
    rintro rfl
    exact not_below below

/-- A workspace that has been made at `l` and filled, when the tree was `t` before. -/
structure Made (h : Host) (root : Location) (library : String) (t : Tree) (ws : Workspace)
    (l : Location) (t' : Tree) : Prop where
  temporary : t.find true h.cwd (Workspace.temporaryRoot h) = .ok (root, .directory)
  placed : Placed h root ws l
  free : t.get? l = none
  directory : t'.get? l = some .directory
  added : Adds (l <:+ ·) t t'
  source : ∃ origin, t.find true h.cwd library = .ok (origin, .directory) ∧ ¬ origin <:+ l
  copied : ∀ b origin, Original b h library origin l t → Mirrors b h.cwd library origin t' l

/-- Nothing is different but at the place of a workspace, where nothing was before. -/
def LeftAt (h : Host) (root : Location) (t t' : Tree) : Prop :=
  ∃ ws l, t.find true h.cwd (Workspace.temporaryRoot h) = .ok (root, .directory) ∧
    Placed h root ws l ∧ t.get? l = none ∧ ∀ m, ¬ l <:+ m → t'.get? m = t.get? m

/-- What is so after a workspace was to be provisioned, from the tree `t` on. -/
structure Provisioned (h : Host) (root : Location) (library : String) (t : Tree)
    (r : Except Failure Workspace) (w' : World) : Prop where
  proper : Proper w'.tree
  made : ∀ ws, r = .ok ws → ∃ l, Made h root library t ws l w'.tree
  cause : ∀ f, r = .error f → ∃ e, f = .provisioning library e
  limited : ∀ f, r = .error f → (∀ m, w'.tree.get? m = t.get? m) ∨ LeftAt h root t w'.tree
  removed : ∀ f, r = .error f → (∀ path, h.refuse (.removeAll path) = none) →
    ∀ m, w'.tree.get? m = t.get? m

section
variable {library : String} {t t' : Tree} {ws : Workspace} {f : Failure} {w' : World}

/-- The library is in its place in a tree that holds the copy. -/
theorem Made.mirrors (made : Made h root library t ws l t') (proper : Proper t) :
    ∃ origin, t.find true h.cwd library = .ok (origin, .directory) ∧
      Mirrors t h.cwd library origin t' l := by
  obtain ⟨origin, led, outside⟩ := made.source
  refine ⟨origin, led, made.copied t origin ⟨proper, fun _ _ => id, fun _ => rfl, outside, ?_, ?_⟩⟩
  · intro within
    cases (proper.none_within made.free within).symm.trans (find_eq_ok.mp led).2
  · exact fun _ _ _ _ => led

theorem Made.found (made : Made h root library t ws l t') (whole : Bool) :
    t'.find whole h.cwd ws.path = .ok (l, .directory) :=
  made.placed.found (find_mono made.added.extends made.temporary) made.directory whole

theorem Provisioned.unchanged {e : HostError} (proper : Proper t) (same : w'.tree = t) :
    Provisioned h root library t (.error (.provisioning library e)) w' := by
  subst same
  refine ⟨proper, nofun, ?_, fun _ _ => .inl fun _ => rfl, fun _ _ _ _ => rfl⟩
  intro f same
  exact ⟨e, (Except.error.inj same).symm⟩

/-- What there is of a copy that stopped half-way is removed, if it can be. -/
theorem ensures_discard {e : HostError} {w : World} (proper : Proper t)
    (temporary : t.find true h.cwd (Workspace.temporaryRoot h) = .ok (root, .directory))
    (placed : Placed h root ws l) (free : t.get? l = none) (added : Adds (l <:+ ·) t w.tree)
    (proper' : Proper w.tree) (directory : w.tree.get? l = some .directory) :
    Ensures (do
      let _ ← (outcomeOf (h.removeAll ws.path) : Action (Except HostError Unit))
      throw (Failure.provisioning library e)) w (Provisioned h root library t) := by
  have there := placed.found (find_mono added.extends temporary) directory false
  have inside : l ≠ [] := placed.inside
  apply ensures_outcomeOf (ensures_removeDirectory there)
  intro _ w' post
  have caused : ∀ f, (Except.error (Failure.provisioning library e) : Except Failure Workspace) =
      .error f → ∃ e, f = .provisioning library e := by
    intro f same
    exact ⟨e, (Except.error.inj same).symm⟩
  rcases post with ⟨-, cut⟩ | ⟨e', -, rfl, refused⟩
  · have same (m : Location) : w'.tree.get? m = t.get? m := by
      rw [cut]
      exact get?_cut_adds proper free added m
    have still : Proper w'.tree := by
      rw [cut]
      exact proper'.cut inside
    exact ensures_throw ⟨still, nofun, caused, fun _ _ => .inl same, fun _ _ _ => same⟩
  · refine ⟨proper', nofun, caused, ?_, ?_⟩
    · exact fun _ _ => .inr ⟨ws, l, temporary, placed, free, fun _ => added.elsewhere⟩
    · intro _ _ removable
      cases refused.symm.trans (removable ws.path)

end

/-- A fresh directory is filled, or it goes again with all that is in it. -/
theorem ensures_provision (library : String) (proper : Proper w.tree)
    (tags : ∀ n, '/' ∉ (h.tag n).toList) (arranged : ∀ l names, (h.arrange l names).Perm names)
    (rooted : Rooted h root w.tree) :
    Ensures (Workspace.provision h library) w (Provisioned h root library w.tree) := by
  have looked : Ensures (attempt (Failure.provisioning library) (h.inspect library)) w
      fun r w' => w' = w ∧ (∀ f, r = .error f → ∃ e, f = .provisioning library e) ∧
        ∀ node, r = .ok node → ∃ origin, w.tree.find true h.cwd library = .ok (origin, node) := by
    apply ensures_attempt (ensures_inspect library)
    · intro e w' post
      rcases post with ⟨rfl, -⟩
      exact ⟨rfl, fun f same => ⟨e, (Except.error.inj same).symm⟩, nofun⟩
    · intro node w' post
      rcases post with ⟨rfl, there, -⟩
      refine ⟨rfl, nofun, ?_⟩
      intro node' same
      obtain rfl := Except.ok.inj same
      exact there node rfl
  have started (w' : World) (same : w' = w) :
      Ensures (attempt (Failure.provisioning library) (Workspace.temporary h)) w' fun r w'' =>
        (∀ f, r = .error f → ∃ e, f = .provisioning library e) ∧
          Started h root w.tree r w'' := by
    subst same
    apply ensures_attempt (ensures_temporary proper tags rooted)
    · intro e w'' post
      rcases post with ⟨ws, l, none_left, -⟩ | ⟨-, same⟩
      · cases none_left
      · exact ⟨fun f same => ⟨e, (Except.error.inj same).symm⟩, .inr ⟨⟨_, rfl⟩, same⟩⟩
    · intro ws w'' post
      rcases post with ⟨_, l, same, made⟩ | ⟨⟨e, none_left⟩, -⟩
      · exact ⟨nofun, .inl ⟨ws, l, rfl, Except.ok.inj same ▸ made⟩⟩
      · cases none_left
  apply ensures_bind looked
  · intro f w' post
    rcases post with ⟨rfl, cause, -⟩
    obtain ⟨e, rfl⟩ := cause f rfl
    exact Provisioned.unchanged proper rfl
  · intro node w' post
    rcases post with ⟨same, -, there⟩
    dsimp only
    split
    · exact Provisioned.unchanged proper (same ▸ rfl)
    · rename_i directory
      obtain rfl := eq_directory (by simpa using directory)
      obtain ⟨origin, led⟩ := there _ rfl
      apply ensures_bind (started w' same)
      · intro f w'' post
        rcases post with ⟨cause, ⟨ws, l, none_left, -⟩ | ⟨-, same⟩⟩
        · cases none_left
        · obtain ⟨e, rfl⟩ := cause f rfl
          exact Provisioned.unchanged proper same
      · intro ws w'' post
        rcases post with ⟨-, ⟨_, l, same, found, placed, free, put⟩ | ⟨⟨f, none_left⟩, -⟩⟩
        · obtain rfl := Except.ok.inj same
          have fresh := placed.fresh proper (find_eq_ok.mp found).2 free put
          apply ensures_note
          intro w₁ tree
          rw [← tree] at fresh
          have root_found := find_mono fresh.added.extends found
          apply ensures_outcomeOf (ensures_copyBelow arranged Tree.pathLimit fresh.proper
            (placed.found root_found fresh.directory true) fresh.empty)
          intro outcome w₂ post
          rcases post with ⟨grown, proper₂, done⟩
          have added : Adds (l <:+ ·) w.tree w₂.tree :=
            fresh.added.trans grown (fun _ => id) fun _ => suffix_of_below
          have directory := grown.kept fresh.directory
          cases outcome with
          | ok files =>
            obtain ⟨⟨origin', led', apart⟩, complete, -⟩ := done files rfl
            have still := find_mono fresh.added.extends led
            obtain ⟨rfl, -⟩ := find_unique led' still
            refine ⟨proper₂, ?_, nofun, nofun, nofun⟩
            intro ws' same
            obtain rfl := Except.ok.inj same
            refine ⟨l, found, placed, free, directory, added, ⟨origin', led, ?_⟩, ?_⟩
            · rintro ⟨way, rfl⟩
              cases way with
              | nil => cases free.symm.trans (find_eq_ok.mp led).2
              | cons name way => exact apart ⟨_, List.cons_ne_nil name way, rfl⟩
            · exact fun b origin o => complete b origin (o.kept fresh.added)
          | error e => exact ensures_discard proper found placed free added proper₂ directory
        · cases none_left

/-- What is noted of a release is all that it does beside the removal. -/
theorem world_releaseNoted (ws : Workspace) (w : World) :
    ∃ log, ((ws.releaseNoted h).run w).2 =
      { (after (h.removeAll ws.path) w).2 with log := log } := by
  have released : (ws.release h).run.run w = after (ws.release h) w := rfl
  unfold Workspace.releaseNoted
  rw [StateT.run_bind, released, Workspace.release]
  simp only [after_bind, after_attempt]
  cases after (h.removeAll ws.path) w with
  | mk r w' =>
    cases r with
    | ok _ => exact ⟨_, rfl⟩
    | error e => exact ⟨_, rfl⟩

section
variable {ws : Workspace} (removable : ∀ path, h.refuse (.removeAll path) = none)
  (found : w.tree.find false h.cwd ws.path = .ok (l, .directory))

include removable found

theorem tree_drop : ((ws.drop h).run w).2.tree = w.tree.cut l := by
  rcases ensures_removeDirectory found with ⟨-, cut⟩ | ⟨e, -, -, refused⟩
  · exact cut
  · cases refused.symm.trans (removable _)

theorem ensures_release : Ensures (ws.release h) w fun r w' =>
    r = .ok () ∧ w'.tree = w.tree.cut l := by
  have gone : Ensures (attempt (fun e => .io (.atPath ws.path e)) (h.removeAll ws.path)) w
      fun r w' => r = .ok () ∧ w'.tree = w.tree.cut l := by
    apply ensures_attempt (ensures_removeDirectory found)
    · intro e w' post
      rcases post with ⟨none_left, -⟩ | ⟨e', -, -, refused⟩
      · cases none_left
      · cases refused.symm.trans (removable _)
    · intro _ w' post
      rcases post with ⟨-, cut⟩ | ⟨e', none_left, -⟩
      · exact ⟨rfl, cut⟩
      · cases none_left
  apply ensures_bind gone
  · intro f w' post
    rcases post with ⟨none_left, -⟩
    cases none_left
  · intro _ w' post
    rcases post with ⟨-, cut⟩
    exact ⟨rfl, cut⟩

theorem tree_releaseNoted : ((ws.releaseNoted h).run w).2.tree = w.tree.cut l := by
  obtain ⟨log, same⟩ := world_releaseNoted (h := h) ws w
  rw [same]
  exact tree_drop removable found

end

end

end ScriptSandbox.Proofs.WorkspaceLife
