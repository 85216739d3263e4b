import ScriptSandbox.Proofs.RunStages
import ScriptSandbox.Proofs.WorkspaceLife
import ScriptSandbox.Sandbox.Interpreter
import ScriptSandbox.Sandbox.Wasmer

namespace ScriptSandbox.Proofs.WorkspacesApart
open ScriptSandbox.Tree TreeGrowth Resolution FileSteps LibraryCopied WorkspaceLife

/-- Who provisions a workspace. -/
inductive Party where
  | execution (e : Executor) (image library : String) (r : Request)
  | keeper (library : String)

def Party.library : Party → String
  | execution _ _ library _ => library
  | keeper library => library

/-- How far a party has come. Who ends without an outcome kept a workspace only, or was given up. -/
inductive Phase where
  | waiting
  | holding (ws : Workspace)
  | called (ws : Workspace) (outcome : Except Failure Output)
  | ended (outcome : Option (Except Failure Output))

/-- The workspace that is neither released nor dropped. -/
def Phase.workspace : Phase → Option Workspace
  | holding ws | called ws _ => some ws
  | waiting | ended _ => none

def Phase.ofProvision : Except Failure Workspace → Phase
  | .ok ws => holding ws
  | .error f => ended (some (.error f))

structure System (ι : Type) where
  world : World
  phase : ι → Phase

/-- What is done in a step. -/
inductive Act where
  | provision
  | call (argv : List String)
  | release
  | drop

def invocation (image : String) (ws : Workspace) (r : Request) : Invocation :=
  .python image ws.path (Program.python r.script r.input)

variable {ι : Type}

def System.live (s : System ι) (i : ι) : Option Workspace := (s.phase i).workspace

section
variable [DecidableEq ι]

/-- The system after a step of `i`. -/
def System.next (s : System ι) (i : ι) (p : Phase) (w : World) : System ι :=
  ⟨w, fun j => if j = i then p else s.phase j⟩

/-- The steps that `i` can take. Executions call their executor once and release the workspace then;
both they and keepers may drop it at any time. -/
inductive Step (h : Host) (parties : ι → Party) (s : System ι) (i : ι) : Act → System ι → Prop
  | provision (waiting : s.phase i = .waiting) :
      Step h parties s i .provision
        (s.next i (.ofProvision (after (Workspace.provision h (parties i).library) s.world).1)
          (after (Workspace.provision h (parties i).library) s.world).2)
  | call {e : Executor} {image library : String} {r : Request} {ws : Workspace}
      (party : parties i = .execution e image library r) (holding : s.phase i = .holding ws) :
      Step h parties s i (.call (invocation image ws r).argv)
        (s.next i
          (.called ws (after (Interpreter.invoke e .python r (invocation image ws r)) s.world).1)
          (after (Interpreter.invoke e .python r (invocation image ws r)) s.world).2)
  | release {ws : Workspace} {outcome : Except Failure Output}
      (called : s.phase i = .called ws outcome) :
      Step h parties s i .release
        (s.next i (.ended (some outcome)) ((ws.releaseNoted h).run s.world).2)
  | giveBack {library : String} {ws : Workspace} (party : parties i = .keeper library)
      (holding : s.phase i = .holding ws) :
      Step h parties s i .release (s.next i (.ended none) (after (ws.release h) s.world).2)
  | drop {ws : Workspace} (live : s.live i = some ws) :
      Step h parties s i .drop (s.next i (.ended none) ((ws.drop h).run s.world).2)

/-- What any order of steps leads to. -/
inductive Reachable (h : Host) (parties : ι → Party) (start : System ι) : System ι → Prop
  | start : Reachable h parties start start
  | step {s s' : System ι} {i : ι} {act : Act} (before : Reachable h parties start s)
      (step : Step h parties s i act s') : Reachable h parties start s'

theorem Reachable.trans {h : Host} {parties : ι → Party} {s s' s'' : System ι}
    (first : Reachable h parties s s') (second : Reachable h parties s' s'') :
    Reachable h parties s s'' := by
  induction second with
  | start => exact first
  | step _ step ih => exact ih.step step

/-- Two steps of one party in a row. -/
@[simp]
theorem next_next (s : System ι) (i : ι) (p q : Phase) (w v : World) :
    (s.next i p w).next i q v = s.next i q v := by
  simp only [System.next, System.mk.injEq, true_and]
  funext j
  by_cases same : j = i
  · rw [if_pos same, if_pos same]
  · rw [if_neg same, if_neg same, if_neg same]

@[simp]
theorem phase_next (s : System ι) (i : ι) (p : Phase) (w : World) : (s.next i p w).phase i = p :=
  if_pos rfl

@[simp]
theorem phase_next_other (s : System ι) {i j : ι} (other : j ≠ i) (p : Phase) (w : World) :
    (s.next i p w).phase j = s.phase j := if_neg other

/-- An execution is what its steps are when nobody else takes one in between. -/
theorem reachable_execute {h : Host} {parties : ι → Party} {s : System ι} {i : ι} {e : Executor}
    {image library : String} {r : Request} (party : parties i = .execution e image library r)
    (waiting : s.phase i = .waiting) :
    Ensures (Interpreter.execute h e r (.python image library)) s.world fun outcome w =>
      Reachable h parties s (s.next i (.ended (some outcome)) w) := by
  have provided : Reachable h parties s
      (s.next i (.ofProvision (after (Workspace.provision h library) s.world).1)
        (after (Workspace.provision h library) s.world).2) := by
    have step : Step h parties s i .provision _ := .provision waiting
    rw [party] at step
    exact .step .start step
  apply ensures_bind (ensures_after _ s.world)
  · intro f w same
    rw [← same] at provided
    exact provided
  · intro ws w same
    rw [← same] at provided
    apply ensures_outcomeOf (ensures_after _ w)
    intro outcome w' same
    have called : Reachable h parties s (s.next i (.called ws outcome) w') := by
      have step := provided.step (.call party (phase_next _ _ _ _))
      rw [next_next] at step
      have reply : (outcome, w') =
          after (Interpreter.invoke e .python r (invocation image ws r)) w := same
      change Reachable h parties s (s.next i
        (.called ws (after (Interpreter.invoke e .python r (invocation image ws r)) w).1)
        (after (Interpreter.invoke e .python r (invocation image ws r)) w).2) at step
      rw [← reply] at step
      exact step
    have released := called.step (.release (phase_next _ _ _ _))
    rw [next_next] at released
    apply ensures_lift
    cases outcome with
    | ok o => exact released
    | error f => exact released

end

/-- The executor writes in the directory that its arguments map, and nowhere else. -/
structure Confined (h : Host) (e : Executor) : Prop where
  proper : ∀ argv w, Proper w.tree → Proper (after (e.run argv) w).2.tree
  inside : ∀ argv w m, (after (e.run argv) w).2.tree.get? m ≠ w.tree.get? m →
    ∃ path l, argv[1]? = some ("--mapdir=lib:" ++ path) ∧
      w.tree.find true h.cwd path = .ok (l, .directory) ∧ Below l m

theorem tree_wasmer {h : Host} (x : Wasmer) (argv : List String) (w : World) :
    (after ((x.executor h).run argv) w).2.tree = w.tree := by
  obtain ⟨log, ran⟩ := RunStages.after_run (h := h) (w := w) x argv
  exact congrArg (fun done => done.2.tree) ran

theorem confined_wasmer {h : Host} (x : Wasmer) : Confined h (x.executor h) := by
  refine ⟨?_, ?_⟩
  · intro argv w proper
    rw [tree_wasmer]
    exact proper
  · intro argv w m different
    rw [tree_wasmer] at different
    exact absurd rfl different

/-- The machine and the tree at the start. The directory for temporary files is at `root`. No
library is in it or around it, and what is made in it has no part in where a library is. -/
structure Setting (h : Host) (parties : ι → Party) (t : Tree) (root : Location) : Prop where
  proper : Proper t
  temporary : t.find true h.cwd (Workspace.temporaryRoot h) = .ok (root, .directory)
  tags : ∀ n, '/' ∉ (h.tag n).toList
  arranged : ∀ l names, (h.arrange l names).Perm names
  removable : ∀ path, h.refuse (.removeAll path) = none
  confined : ∀ i e image library r, parties i = .execution e image library r → Confined h e
  apart : ∀ i l node, t.find true h.cwd (parties i).library = .ok (l, node) →
    ¬ l <:+ root ∧ ¬ root <:+ l
  settled : ∀ i t' l node, Adds (root <:+ ·) t t' →
    t'.find true h.cwd (parties i).library = .ok (l, node) →
    t.find true h.cwd (parties i).library = .ok (l, node)

section
variable {h : Host} {parties : ι → Party} {t : Tree} {root l l' m : Location} {ws ws' : Workspace}

theorem join_injective {base a b : String} (some_base : base ≠ "") (ha : Plain a) (hb : Plain b)
    (same : Path.join base a = Path.join base b) : a = b := by
  obtain ⟨names, -, first⟩ := segments_join some_base ha
  obtain ⟨names', -, second⟩ := segments_join some_base hb
  rw [same, second] at first
  have last := congrArg List.getLast? first
  rw [List.getLast?_concat, List.getLast?_concat] at last
  exact (Option.some.inj last).symm

/-- A workspace is at one place only. -/
theorem placed_unique (placed : Placed h root ws l) (placed' : Placed h root ws' l') :
    ws.path = ws'.path ↔ l = l' := by
  obtain ⟨name, rfl, plain, path, -⟩ := placed
  obtain ⟨name', rfl, plain', path', -⟩ := placed'
  rw [path, path']
  constructor
  · intro same
    rw [join_injective (temporaryRoot_ne h) plain plain' same]
  · intro same
    rw [(List.cons.inj same).1]

/-- What lies in one place lies in no other. -/
theorem placed_eq (placed : Placed h root ws l) (placed' : Placed h root ws' l') (hl : l <:+ m)
    (hl' : l' <:+ m) : l = l' := by
  obtain ⟨name, rfl, -⟩ := placed
  obtain ⟨name', rfl, -⟩ := placed'
  rw [suffix_unique hl hl']

/-- A library is in no workspace, and no workspace in a library. -/
theorem placed_apart (placed : Placed h root ws l) {origin : Location} (outside : ¬ origin <:+ root)
    (around : ¬ root <:+ origin) : ¬ origin <:+ l ∧ ¬ l <:+ origin := by
  obtain ⟨name, rfl, -⟩ := placed
  refine ⟨?_, fun within => around (suffix_of_cons within)⟩
  intro within
  rcases List.suffix_cons_iff.mp within with rfl | within
  · exact around (List.suffix_cons name root)
  · exact outside within

/-- Outside the places of workspaces the tree is as it was at the start. Each workspace is at a
place of its own, where nothing was at the start, and it is complete until an executor had it. -/
structure Kept (h : Host) (parties : ι → Party) (t : Tree) (root : Location) (s : System ι) :
    Prop where
  proper : Proper s.world.tree
  placed : ∀ i ws, s.live i = some ws → ∃ l, Placed h root ws l ∧ t.get? l = none ∧
    s.world.tree.get? l = some .directory
  apart : ∀ i j ws ws' l, s.live i = some ws → s.live j = some ws' → Placed h root ws l →
    Placed h root ws' l → i = j
  elsewhere : ∀ m, (∀ i ws l, s.live i = some ws → Placed h root ws l → ¬ l <:+ m) →
    s.world.tree.get? m = t.get? m
  complete : ∀ i ws l, s.phase i = .holding ws → Placed h root ws l →
    ∃ origin, t.find true h.cwd (parties i).library = .ok (origin, .directory) ∧
      Mirrors t h.cwd (parties i).library origin s.world.tree l

variable {s : System ι}

theorem live_of_holding {i : ι} (holding : s.phase i = .holding ws) : s.live i = some ws := by
  rw [System.live, holding]
  rfl

theorem Kept.start (setting : Setting h parties s.world.tree root)
    (waiting : ∀ i, s.phase i = .waiting) : Kept h parties s.world.tree root s := by
  have none_live (i : ι) : s.live i = none := by
    rw [System.live, waiting i]
    rfl
  refine ⟨setting.proper, ?_, ?_, fun _ _ => rfl, ?_⟩
  · intro i ws live
    cases (none_live i).symm.trans live
  · intro i j ws ws' l live
    cases (none_live i).symm.trans live
  · intro i ws l holding
    cases (waiting i).symm.trans holding

/-- Nothing was at the start where a workspace is now. -/
theorem Kept.none_within (kept : Kept h parties t root s) (setting : Setting h parties t root)
    {i : ι} (live : s.live i = some ws) (placed : Placed h root ws l) (within : l <:+ m) :
    t.get? m = none := by
  obtain ⟨l', placed', free, -⟩ := kept.placed i ws live
  obtain rfl := (placed_unique placed placed').mp rfl
  exact setting.proper.none_within free within

/-- All that was there at the start still is. -/
theorem Kept.extends (kept : Kept h parties t root s) (setting : Setting h parties t root) :
    Extends t s.world.tree := by
  intro m node there
  rw [kept.elsewhere m]
  · exact there
  · intro i ws l live placed within
    cases (kept.none_within setting live placed within).symm.trans there

/-- All that is new is in the directory for temporary files. -/
theorem Kept.adds (kept : Kept h parties t root s) (setting : Setting h parties t root) :
    Adds (root <:+ ·) t s.world.tree := by
  refine ⟨kept.extends setting _ _, ?_⟩
  intro m outside
  apply kept.elsewhere
  rintro i ws l _ ⟨name, rfl, -⟩ within
  exact outside (suffix_of_cons within)

theorem Kept.directory (kept : Kept h parties t root s) {i : ι}
    (live : s.live i = some ws) (placed : Placed h root ws l) :
    s.world.tree.get? l = some .directory := by
  obtain ⟨l', placed', -, directory⟩ := kept.placed i ws live
  obtain rfl := (placed_unique placed placed').mp rfl
  exact directory

theorem Kept.found (kept : Kept h parties t root s) (setting : Setting h parties t root) {i : ι}
    (live : s.live i = some ws) (placed : Placed h root ws l) (whole : Bool) :
    s.world.tree.find whole h.cwd ws.path = .ok (l, .directory) :=
  placed.found (find_mono (kept.extends setting) setting.temporary)
    (kept.directory live placed) whole

/-- The library is as it was. -/
theorem Kept.library (kept : Kept h parties t root s) {origin : Location}
    (outside : ¬ origin <:+ root) (around : ¬ root <:+ origin) (within : origin <:+ m) :
    s.world.tree.get? m = t.get? m := by
  apply kept.elsewhere
  intro i ws l _ placed inside
  obtain ⟨apart, apart'⟩ := placed_apart placed outside around
  rcases List.suffix_or_suffix_of_suffix within inside with h | h
  · exact apart h
  · exact apart' h

theorem Kept.original (kept : Kept h parties t root s) (setting : Setting h parties t root) {i : ι}
    {origin : Location} (led : t.find true h.cwd (parties i).library = .ok (origin, .directory))
    (placed : Placed h root ws l) :
    Original t h (parties i).library origin l s.world.tree := by
  obtain ⟨outside, around⟩ := setting.apart i origin _ led
  obtain ⟨apart, apart'⟩ := placed_apart placed outside around
  exact ⟨setting.proper, kept.extends setting,
    fun way => kept.library outside around (List.suffix_append way origin), apart, apart',
    fun _ _ _ _ => led⟩

theorem Kept.entries (kept : Kept h parties t root s) (setting : Setting h parties t root)
    (name : String) : name ∈ s.world.tree.names root ↔ name ∈ t.names root ∨
      ∃ i ws, s.live i = some ws ∧
        s.world.tree.find true h.cwd ws.path = .ok (name :: root, .directory) := by
  rw [mem_names, mem_names]
  constructor
  · intro there
    by_cases taken : ∃ i ws l, s.live i = some ws ∧ Placed h root ws l ∧ l <:+ name :: root
    · obtain ⟨i, ws, l, live, placed, within⟩ := taken
      have found := kept.found setting live placed true
      obtain ⟨other, rfl, -⟩ := placed
      rw [suffix_unique within (List.suffix_refl _)] at found
      exact .inr ⟨i, ws, live, found⟩
    · left
      rw [← kept.elsewhere (name :: root)]
      · exact there
      · intro i ws l live placed within
        exact taken ⟨i, ws, l, live, placed, within⟩
  · rintro (there | ⟨i, ws, live, found⟩)
    · obtain ⟨node, there⟩ := Option.isSome_iff_exists.mp there
      rw [kept.extends setting _ _ there]
      rfl
    · rw [(find_eq_ok.mp found).2]
      rfl

end

section
variable [DecidableEq ι] {h : Host} {parties : ι → Party} {t : Tree} {root l m : Location}
  {ws : Workspace} {s s' : System ι} {i j : ι}

@[simp]
theorem live_next (s : System ι) (i : ι) (p : Phase) (w : World) :
    (s.next i p w).live i = p.workspace := congrArg Phase.workspace (phase_next s i p w)

/-- An invocation is what the executor does when it is called, but for what is noted of it. -/
theorem after_invoke (e : Executor) (language : Language) (r : Request) (v : Invocation)
    (w : World) : ∃ log, after (Interpreter.invoke e language r v) w =
      ((after (e.run v.argv) { w with calls := w.calls ++ [⟨v.argv, w.tree⟩] }).1,
        { (after (e.run v.argv) { w with calls := w.calls ++ [⟨v.argv, w.tree⟩] }).2 with
          log := log }) := by
  simp only [Interpreter.invoke, after_bind, after_outcomeOf, after_call]
  generalize after (e.run v.argv) { w with calls := w.calls ++ [⟨v.argv, w.tree⟩] } = ran
  obtain ⟨outcome, w'⟩ := ran
  cases outcome with
  | ok o => exact ⟨_, rfl⟩
  | error f => exact ⟨_, rfl⟩

/-- The arguments map the workspace into the sandbox. -/
theorem argv_invocation (image : String) (ws : Workspace) (r : Request) :
    (invocation image ws r).argv[1]? = some ("--mapdir=lib:" ++ ws.path) := rfl

theorem mapped_unique {a b : String} (same : "--mapdir=lib:" ++ a = "--mapdir=lib:" ++ b) :
    a = b := by
  have text := congrArg String.toList same
  rw [String.toList_append, String.toList_append] at text
  exact String.toList_inj.mp (List.append_cancel_left text)

/-- What a step does to the files, and who has which workspace then. -/
inductive Effect (h : Host) (root : Location) (library : String) (s : System ι) (i : ι) :
    System ι → Prop
  | refused {w : World} {outcome : Option (Except Failure Output)} (idle : s.live i = none)
      (proper : Proper w.tree) (same : ∀ m, w.tree.get? m = s.world.tree.get? m) :
      Effect h root library s i (s.next i (.ended outcome) w)
  | provisioned {w : World} {ws : Workspace} (idle : s.live i = none)
      (done : Provisioned h root library s.world.tree (.ok ws) w) :
      Effect h root library s i (s.next i (.holding ws) w)
  | written {w : World} {ws : Workspace} {l : Location} {outcome : Except Failure Output}
      (live : s.live i = some ws) (placed : Placed h root ws l) (proper : Proper w.tree)
      (inside : ∀ m, w.tree.get? m ≠ s.world.tree.get? m → Below l m) :
      Effect h root library s i (s.next i (.called ws outcome) w)
  | gone {w : World} {ws : Workspace} {l : Location} {outcome : Option (Except Failure Output)}
      (live : s.live i = some ws) (placed : Placed h root ws l)
      (cut : w.tree = s.world.tree.cut l) :
      Effect h root library s i (s.next i (.ended outcome) w)

theorem Kept.effect {act : Act} (kept : Kept h parties t root s)
    (setting : Setting h parties t root) (step : Step h parties s i act s') :
    Effect h root (parties i).library s i s' := by
  cases step with
  | provision waiting =>
    have idle : s.live i = none := by
      rw [System.live, waiting]
      rfl
    have temporary := find_mono (kept.extends setting) setting.temporary
    have rooted : Rooted h root s.world.tree := by
      intro d found
      exact (find_unique found temporary).1
    have done := ensures_provision (parties i).library kept.proper setting.tags setting.arranged
      rooted
    unfold Ensures at done
    generalize after (Workspace.provision h (parties i).library) s.world = result at done ⊢
    obtain ⟨outcome, w⟩ := result
    cases outcome with
    | ok ws => exact .provisioned idle done
    | error f => exact .refused idle done.proper (done.removed f rfl setting.removable)
  | @call e image library r ws party holding =>
    have live := live_of_holding holding
    obtain ⟨l, placed, -, -⟩ := kept.placed i ws live
    obtain ⟨log, same⟩ := after_invoke e .python r (invocation image ws r) s.world
    rw [same]
    have confined := setting.confined i e image library r party
    apply Effect.written live placed
    · exact confined.proper _ _ kept.proper
    · intro m different
      obtain ⟨path, l', mapped, found, below⟩ := confined.inside _ _ m different
      rw [argv_invocation] at mapped
      obtain rfl := mapped_unique (Option.some.inj mapped)
      have here := kept.found setting live placed true
      obtain ⟨rfl, -⟩ := find_unique here found
      exact below
  | @release ws outcome called =>
    have live : s.live i = some ws := by
      rw [System.live, called]
      rfl
    obtain ⟨l, placed, -, -⟩ := kept.placed i ws live
    exact .gone live placed
      (tree_releaseNoted setting.removable (kept.found setting live placed false))
  | @giveBack library ws party holding =>
    have live := live_of_holding holding
    obtain ⟨l, placed, -, -⟩ := kept.placed i ws live
    exact .gone live placed
      (ensures_release setting.removable (kept.found setting live placed false)).2
  | @drop ws live =>
    obtain ⟨l, placed, -, -⟩ := kept.placed i ws live
    exact .gone live placed (tree_drop setting.removable (kept.found setting live placed false))

theorem Effect.phase_other {library : String} (effect : Effect h root library s i s')
    (other : j ≠ i) : s'.phase j = s.phase j := by
  cases effect with
  | refused idle proper same => simp [other]
  | provisioned idle done => simp [other]
  | written live placed proper inside => simp [other]
  | gone live placed cut => simp [other]

theorem Effect.live_other {library : String} (effect : Effect h root library s i s')
    (other : j ≠ i) : s'.live j = s.live j :=
  congrArg Phase.workspace (effect.phase_other other)

theorem Effect.proper {library : String} (effect : Effect h root library s i s')
    (proper : Proper s.world.tree) : Proper s'.world.tree := by
  cases effect with
  | refused idle proper same => exact proper
  | provisioned idle done => exact done.proper
  | written live placed proper inside => exact proper
  | @gone w ws l outcome live placed cut =>
    show Proper w.tree
    rw [cut]
    exact proper.cut placed.inside

/-- In a workspace of another party nothing changes. -/
theorem Kept.others_unchanged (kept : Kept h parties t root s)
    (effect : Effect h root (parties i).library s i s') (other : j ≠ i)
    (live : s.live j = some ws) (placed : Placed h root ws l) (within : l <:+ m) :
    s'.world.tree.get? m = s.world.tree.get? m := by
  -- Where `i` is at work is another place.
  have beyond {ws' : Workspace} {l' : Location} (live' : s.live i = some ws')
      (placed' : Placed h root ws' l') : ¬ l' <:+ m := by
    intro here
    obtain rfl := placed_eq placed placed' within here
    exact other (kept.apart j i ws ws' l live live' placed placed')
  cases effect with
  | refused idle proper same => exact same m
  | provisioned idle done =>
    obtain ⟨l', made⟩ := done.made _ rfl
    apply made.added.elsewhere
    intro here
    obtain rfl := placed_eq placed made.placed within here
    cases made.free.symm.trans (kept.directory live placed)
  | written live' placed' proper inside =>
    apply Decidable.by_contra
    intro different
    exact beyond live' placed' (suffix_of_below (inside m different))
  | @gone w ws' l' outcome live' placed' cut =>
    show w.tree.get? m = _
    simp [cut, placed'.inside, beyond live' placed']

/-- The workspace that a party has after its step is at a place of its own. -/
theorem Kept.own (kept : Kept h parties t root s) (setting : Setting h parties t root)
    (effect : Effect h root (parties i).library s i s') (live : s'.live i = some ws) :
    ∃ l, Placed h root ws l ∧ t.get? l = none ∧ s'.world.tree.get? l = some .directory ∧
      (∀ j ws', j ≠ i → s.live j = some ws' → ¬ Placed h root ws' l) ∧
      (s'.phase i = .holding ws →
        ∃ origin, t.find true h.cwd (parties i).library = .ok (origin, .directory) ∧
          Mirrors t h.cwd (parties i).library origin s'.world.tree l) := by
  cases effect with
  | refused idle proper same => simp [Phase.workspace] at live
  | provisioned idle done =>
    simp only [live_next] at live
    obtain rfl := Option.some.inj live
    obtain ⟨l, made⟩ := done.made _ rfl
    have unused : t.get? l = none := by
      cases before : t.get? l with
      | none => rfl
      | some node => cases made.free.symm.trans (kept.extends setting l node before)
    refine ⟨l, made.placed, unused, made.directory, ?_, ?_⟩
    · intro j ws' other live' placed'
      cases made.free.symm.trans (kept.directory live' placed')
    · intro _
      obtain ⟨origin, found, -⟩ := made.source
      have led := setting.settled i _ _ _ (kept.adds setting) found
      exact ⟨origin, led, made.copied t origin (kept.original setting led made.placed)⟩
  | @written w ws' l outcome live' placed proper inside =>
    simp only [live_next] at live
    obtain rfl := Option.some.inj live
    refine ⟨l, placed, kept.none_within setting live' placed (List.suffix_refl l), ?_, ?_, ?_⟩
    · rw [← kept.directory live' placed]
      apply Decidable.by_contra
      intro different
      exact not_below (inside l different)
    · intro j ws'' other live'' placed'
      exact other (kept.apart j i ws'' ws' l live'' live' placed' placed)
    · intro holding
      simp at holding
  | gone live' placed cut => simp [Phase.workspace] at live

/-- Outside the workspaces there are after the step, the tree is as it was at the start. -/
theorem Kept.outside (kept : Kept h parties t root s) (setting : Setting h parties t root)
    (effect : Effect h root (parties i).library s i s')
    (outside : ∀ j ws l, s'.live j = some ws → Placed h root ws l → ¬ l <:+ m) :
    s'.world.tree.get? m = t.get? m := by
  have others (j : ι) (other : j ≠ i) (ws : Workspace) (l : Location) (live : s.live j = some ws)
      (placed : Placed h root ws l) : ¬ l <:+ m :=
    outside j ws l ((effect.live_other other).trans live) placed
  -- What `i` has is to be looked at only.
  have before (mine : ∀ ws l, s.live i = some ws → Placed h root ws l → ¬ l <:+ m) :
      s.world.tree.get? m = t.get? m := by
    apply kept.elsewhere
    intro j ws l live placed
    by_cases same : j = i
    · subst same
      exact mine ws l live placed
    · exact others j same ws l live placed
  cases effect with
  | refused idle proper same =>
    refine (same m).trans (before ?_)
    intro ws l live
    cases idle.symm.trans live
  | provisioned idle done =>
    obtain ⟨l, made⟩ := done.made _ rfl
    refine (made.added.elsewhere (outside i _ l (live_next s i _ _) made.placed)).trans (before ?_)
    intro ws l live
    cases idle.symm.trans live
  | @written w ws l outcome live placed proper inside =>
    have here : ¬ l <:+ m := outside i ws l (live_next s i _ _) placed
    have unchanged : w.tree.get? m = s.world.tree.get? m := by
      apply Decidable.by_contra
      intro different
      exact here (suffix_of_below (inside m different))
    refine unchanged.trans (before ?_)
    intro ws' l' live' placed'
    obtain rfl := Option.some.inj (live.symm.trans live')
    obtain rfl := (placed_unique placed placed').mp rfl
    exact here
  | @gone w ws l outcome live placed cut =>
    show w.tree.get? m = _
    by_cases within : l <:+ m
    · simp [cut, placed.inside, within, kept.none_within setting live placed within]
    · simp only [cut, get?_cut _ placed.inside, within, if_false]
      apply before
      intro ws' l' live' placed'
      obtain rfl := Option.some.inj (live.symm.trans live')
      obtain rfl := (placed_unique placed placed').mp rfl
      exact within

theorem Kept.step {act : Act} (kept : Kept h parties t root s)
    (setting : Setting h parties t root) (step : Step h parties s i act s') :
    Kept h parties t root s' := by
  have effect := kept.effect setting step
  -- Nobody else has come to be where `i` is.
  have alone {j : ι} {ws ws' : Workspace} {l : Location} (other : j ≠ i)
      (live : s'.live i = some ws) (live' : s'.live j = some ws')
      (placed : Placed h root ws l) (placed' : Placed h root ws' l) : False := by
    obtain ⟨l', own, -, -, apart, -⟩ := kept.own setting effect live
    obtain rfl := (placed_unique own placed).mp rfl
    rw [effect.live_other other] at live'
    exact apart j ws' other live' placed'
  refine ⟨effect.proper kept.proper, ?_, ?_, fun m => kept.outside setting effect, ?_⟩
  · intro j ws live
    by_cases same : j = i
    · subst same
      obtain ⟨l, placed, free, directory, -⟩ := kept.own setting effect live
      exact ⟨l, placed, free, directory⟩
    · rw [effect.live_other same] at live
      obtain ⟨l, placed, free, directory⟩ := kept.placed j ws live
      refine ⟨l, placed, free, ?_⟩
      rw [kept.others_unchanged effect same live placed (List.suffix_refl l)]
      exact directory
  · intro j k ws ws' l live live' placed placed'
    by_cases hj : j = i
    · by_cases hk : k = i
      · rw [hj, hk]
      · subst hj
        exact (alone hk live live' placed placed').elim
    · by_cases hk : k = i
      · subst hk
        exact (alone hj live' live placed' placed).elim
      · rw [effect.live_other hj] at live
        rw [effect.live_other hk] at live'
        exact kept.apart j k ws ws' l live live' placed placed'
  · intro j ws l holding placed
    by_cases same : j = i
    · subst same
      obtain ⟨l', own, -, -, -, complete⟩ := kept.own setting effect (live_of_holding holding)
      obtain rfl := (placed_unique own placed).mp rfl
      exact complete holding
    · rw [effect.phase_other same] at holding
      obtain ⟨origin, led, mirrors⟩ := kept.complete j ws l holding placed
      refine ⟨origin, led, mirrors.unchanged ?_⟩
      intro m within
      exact kept.others_unchanged effect same (live_of_holding holding) placed within

theorem Kept.reachable {start : System ι} (setting : Setting h parties start.world.tree root)
    (waiting : ∀ i, start.phase i = .waiting) (reached : Reachable h parties start s) :
    Kept h parties start.world.tree root s := by
  induction reached with
  | start => exact Kept.start setting waiting
  | step _ step ih => exact ih.step setting step

/-- Nobody gets in the way of anybody else, and nothing is left over. The tree was `t` at the start,
and the directory for temporary files is at `root`. -/
structure Separate (h : Host) (parties : ι → Party) (t : Tree) (root : Location) (s : System ι) :
    Prop where
  distinct : ∀ i j ws ws', s.live i = some ws → s.live j = some ws' → ws.path = ws'.path → i = j
  /-- A workspace is in the directory for temporary files, under a name that was free. -/
  fresh : ∀ i ws, s.live i = some ws → ∃ name, name ∉ t.names root ∧
    s.world.tree.find true h.cwd ws.path = .ok (name :: root, .directory)
  /-- An executor gets the workspace of the execution, with all of the library in it. -/
  mapped : ∀ i argv s', Step h parties s i (.call argv) s' → ∃ ws l origin,
    s.live i = some ws ∧ argv[1]? = some ("--mapdir=lib:" ++ ws.path) ∧
    s.world.tree.find true h.cwd ws.path = .ok (l, .directory) ∧
    t.find true h.cwd (parties i).library = .ok (origin, .directory) ∧
    Mirrors t h.cwd (parties i).library origin s.world.tree l
  /-- The workspaces of others stay theirs, and stay as they are. -/
  undisturbed : ∀ i act s' j ws l, Step h parties s i act s' → j ≠ i → s.live j = some ws →
    s.world.tree.find true h.cwd ws.path = .ok (l, .directory) →
    s'.live j = some ws ∧ ∀ m, l <:+ m → s'.world.tree.get? m = s.world.tree.get? m
  /-- A library is where it was, and as it was. -/
  library : ∀ i l node, t.find true h.cwd (parties i).library = .ok (l, node) →
    s.world.tree.find true h.cwd (parties i).library = .ok (l, node) ∧
    ∀ m, l <:+ m → s.world.tree.get? m = t.get? m
  /-- What is new in the directory for temporary files is a workspace in use. -/
  entries : ∀ name, name ∈ s.world.tree.names root ↔ name ∈ t.names root ∨
    ∃ i ws, s.live i = some ws ∧
      s.world.tree.find true h.cwd ws.path = .ok (name :: root, .directory)
  restored : (∀ i, s.live i = none) → ∀ m, s.world.tree.get? m = t.get? m

theorem Kept.mapped {argv : List String} (kept : Kept h parties t root s)
    (setting : Setting h parties t root) (step : Step h parties s i (.call argv) s') :
    ∃ ws l origin, s.live i = some ws ∧ argv[1]? = some ("--mapdir=lib:" ++ ws.path) ∧
      s.world.tree.find true h.cwd ws.path = .ok (l, .directory) ∧
      t.find true h.cwd (parties i).library = .ok (origin, .directory) ∧
      Mirrors t h.cwd (parties i).library origin s.world.tree l := by
  cases step with
  | @call e image library r ws party holding =>
    have live := live_of_holding holding
    obtain ⟨l, placed, -, -⟩ := kept.placed i ws live
    obtain ⟨origin, led, mirrors⟩ := kept.complete i ws l holding placed
    exact ⟨ws, l, origin, live, argv_invocation image ws r, kept.found setting live placed true,
      led, mirrors⟩

theorem Kept.separate (kept : Kept h parties t root s) (setting : Setting h parties t root) :
    Separate h parties t root s := by
  refine ⟨?_, ?_, fun i argv s' step => kept.mapped setting step, ?_, ?_, kept.entries setting, ?_⟩
  · intro i j ws ws' live live' same
    obtain ⟨l, placed, -⟩ := kept.placed i ws live
    obtain ⟨l', placed', -⟩ := kept.placed j ws' live'
    obtain rfl := (placed_unique placed placed').mp same
    exact kept.apart i j ws ws' l live live' placed placed'
  · intro i ws live
    obtain ⟨l, placed, free, -⟩ := kept.placed i ws live
    have found := kept.found setting live placed true
    obtain ⟨name, rfl, -⟩ := placed
    refine ⟨name, ?_, found⟩
    simp [free]
  · intro i act s' j ws l step other live found
    obtain ⟨l', placed, -⟩ := kept.placed j ws live
    have here := kept.found setting live placed true
    obtain ⟨rfl, -⟩ := find_unique here found
    have effect := kept.effect setting step
    refine ⟨(effect.live_other other).trans live, ?_⟩
    intro m within
    exact kept.others_unchanged effect other live placed within
  · intro i l node led
    obtain ⟨outside, around⟩ := setting.apart i l node led
    exact ⟨find_mono (kept.extends setting) led, fun m within => kept.library outside around within⟩
  · intro idle m
    apply kept.elsewhere
    intro i ws l live
    cases (idle i).symm.trans live

/-- Executions and keepers of workspaces are separate in any order of their steps. -/
theorem separate_reachable {start : System ι} (setting : Setting h parties start.world.tree root)
    (waiting : ∀ i, start.phase i = .waiting) (reached : Reachable h parties start s) :
    Separate h parties start.world.tree root s :=
  (Kept.reachable setting waiting reached).separate setting

end

def sampleHost : Host where
  tag n := String.ofList (List.replicate (n + 1) 'x')

/-- A library of one file, and an empty directory for temporary files. -/
def sampleTree : Tree :=
  ((({} : Tree).put ["tmp"] .directory).put ["lib"] .directory).put ["os.py", "lib"]
    (.file 0o644 [])

def sampleExecutor : Executor := Wasmer.executor sampleHost ⟨"wasmer", none⟩

def sampleParties : Bool → Party
  | true => .execution sampleExecutor "python" "/lib" { script := "1" }
  | false => .keeper "/lib"

def sampleStart : System Bool := ⟨{ tree := sampleTree }, fun _ => .waiting⟩

/-- The keeper has a workspace. -/
def sampleKept : System Bool :=
  let provided := after (Workspace.provision sampleHost "/lib") sampleStart.world
  sampleStart.next false (.ofProvision provided.1) provided.2

/-- The execution has come and gone. -/
def sampleEnd : System Bool :=
  let done := after (Interpreter.execute sampleHost sampleExecutor { script := "1" }
    (.python "python" "/lib")) sampleKept.world
  sampleKept.next true (.ended (some done.1)) done.2

theorem setting_sample : Setting sampleHost sampleParties sampleTree ["tmp"] := by
  have library (i : Bool) : (sampleParties i).library = "/lib" := by
    cases i with
    | true => rfl
    | false => rfl
  have led : sampleTree.find true sampleHost.cwd "/lib" = .ok (["lib"], .directory) := rfl
  refine ⟨?_, rfl, ?_, fun _ names => List.Perm.refl names, fun _ => rfl, ?_, ?_, ?_⟩
  · have plain : Plain "tmp" ∧ Plain "lib" ∧ Plain "os.py" := by decide
    obtain ⟨tmp, lib, os⟩ := plain
    exact ((proper_empty.put rfl rfl tmp).put rfl rfl lib).put rfl rfl os
  · intro n slash
    have same := String.toList_ofList (l := List.replicate (n + 1) 'x') ▸ slash
    cases List.eq_of_mem_replicate same
  · intro i e image library r party
    cases i with
    | true =>
      cases party
      exact confined_wasmer _
    | false => cases party
  · intro i l node found
    rw [library, led] at found
    cases found
    decide
  · intro i t' l node added found
    rw [library] at found ⊢
    rw [find_mono added.extends led] at found
    rw [led]
    exact found

theorem reachable_sample : Reachable sampleHost sampleParties sampleStart sampleEnd := by
  have provided : Step sampleHost sampleParties sampleStart false .provision sampleKept :=
    Step.provision (i := false) rfl
  have waiting : sampleKept.phase true = .waiting :=
    phase_next_other sampleStart Bool.noConfusion _ _
  have executed : Reachable sampleHost sampleParties sampleKept sampleEnd :=
    reachable_execute rfl waiting
  exact (Reachable.start.step provided).trans executed

theorem separate_sample : Separate sampleHost sampleParties sampleTree ["tmp"] sampleEnd :=
  separate_reachable setting_sample (fun _ => rfl) reachable_sample

end ScriptSandbox.Proofs.WorkspacesApart
