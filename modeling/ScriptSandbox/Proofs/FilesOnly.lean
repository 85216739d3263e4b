import ScriptSandbox.Proofs.FileSteps
import ScriptSandbox.Sandbox.Workspace

namespace ScriptSandbox.Proofs.FilesOnly
open FileSteps

section
variable {ε ε' α β : Type} {x : ExceptT ε (StateM World) α}
  {f : α → ExceptT ε (StateM World) β} {w w' : World}

/-- The files and the number of names tried decide on the outcome and on what they are afterwards.
Other than that, only the log changes. -/
def OnFiles (step : ExceptT ε (StateM World) α) : Prop :=
  ∃ result : Tree → Nat → Except ε α × Tree × Nat, ∀ w, ∃ log, after step w =
    ((result w.tree w.drawn).1,
      { w with
        tree := (result w.tree w.drawn).2.1, drawn := (result w.tree w.drawn).2.2, log := log })

theorem OnFiles.calls (step : OnFiles x) (w : World) : (after x w).2.calls = w.calls := by
  obtain ⟨result, same⟩ := step
  obtain ⟨log, done⟩ := same w
  rw [done]

/-- Where the files and the number of names tried are the same, the step is the same. -/
theorem OnFiles.alike (step : OnFiles x) (tree : w'.tree = w.tree) (drawn : w'.drawn = w.drawn) :
    ∃ log, after x w' = ((after x w).1,
      { w' with tree := (after x w).2.tree, drawn := (after x w).2.drawn, log := log }) := by
  obtain ⟨result, same⟩ := step
  obtain ⟨log, done⟩ := same w
  obtain ⟨log', done'⟩ := same w'
  rw [tree, drawn] at done'
  exact ⟨log', by rw [done', done]⟩

/-- The files and the number of names tried decide also on what is noted. -/
def ByFiles (step : ExceptT ε (StateM World) α) : Prop :=
  ∃ result : Tree → Nat → Except ε α × Tree × Nat × List Event, ∀ w, after step w =
    ((result w.tree w.drawn).1,
      { w with
        tree := (result w.tree w.drawn).2.1
        drawn := (result w.tree w.drawn).2.2.1
        log := w.log ++ (result w.tree w.drawn).2.2.2 })

theorem ByFiles.onFiles (step : ByFiles x) : OnFiles x := by
  obtain ⟨result, same⟩ := step
  exact ⟨fun tree drawn => ((result tree drawn).1, (result tree drawn).2.1,
    (result tree drawn).2.2.1), fun w => ⟨_, same w⟩⟩

theorem byFiles_pure (a : α) : ByFiles (pure a : ExceptT ε (StateM World) α) := by
  refine ⟨fun tree drawn => (.ok a, tree, drawn, []), fun w => ?_⟩
  rw [List.append_nil]
  rfl

theorem byFiles_throw (e : ε) : ByFiles (throw e : ExceptT ε (StateM World) α) := by
  refine ⟨fun tree drawn => (.error e, tree, drawn, []), fun w => ?_⟩
  rw [List.append_nil]
  rfl

/-- What a step comes to, with what has been noted before it. -/
def noted (events : List Event) (done : Except ε β × Tree × Nat × List Event) :
    Except ε β × Tree × Nat × List Event :=
  (done.1, done.2.1, done.2.2.1, events ++ done.2.2.2)

theorem ByFiles.bind (first : ByFiles x) (next : ∀ a, ByFiles (f a)) : ByFiles (x >>= f) := by
  obtain ⟨result, same⟩ := first
  refine ⟨fun tree drawn =>
    match result tree drawn with
    | (.ok a, tree, drawn, events) => noted events ((next a).choose tree drawn)
    | (.error e, tree, drawn, events) => (.error e, tree, drawn, events), ?_⟩
  intro w
  have done := same w
  dsimp only
  generalize result w.tree w.drawn = reached at done ⊢
  obtain ⟨outcome, tree, drawn, events⟩ := reached
  cases outcome with
  | error e => exact after_bind_error done
  | ok a =>
    rw [after_bind_ok done, (next a).choose_spec]
    simp only [noted, List.append_assoc]

/-- What comes after looking at the world may depend on the files and on the names tried. -/
theorem byFiles_get {f : World → ExceptT ε (StateM World) β}
    (shown : ∀ w w', w'.tree = w.tree → w'.drawn = w.drawn → f w' = f w)
    (next : ∀ w, ByFiles (f w)) : ByFiles (get >>= f) := by
  let seen (tree : Tree) (drawn : Nat) : World := { tree := tree, drawn := drawn }
  refine ⟨fun tree drawn => (next (seen tree drawn)).choose tree drawn, ?_⟩
  intro w
  rw [after_bind, after_get]
  dsimp only
  rw [shown (seen w.tree w.drawn) w rfl rfl]
  exact (next (seen w.tree w.drawn)).choose_spec w

theorem byFiles_setTree (tree : Tree) :
    ByFiles (modify fun w => { w with tree := tree } : ExceptT ε (StateM World) Unit) := by
  refine ⟨fun _ drawn => (.ok (), tree, drawn, []), fun w => ?_⟩
  rw [List.append_nil]
  rfl

theorem byFiles_setDrawn (drawn : Nat) :
    ByFiles (modify fun w => { w with drawn := drawn } : ExceptT ε (StateM World) Unit) := by
  refine ⟨fun tree _ => (.ok (), tree, drawn, []), fun w => ?_⟩
  rw [List.append_nil]
  rfl

theorem byFiles_note (area : Area) (level : Level) (message : String)
    (details : List (String × Detail)) :
    ByFiles (liftM (World.note area level message details) : ExceptT ε (StateM World) Unit) :=
  ⟨fun tree drawn => (.ok (), tree, drawn, [⟨area, level, message, details⟩]), fun _ => rfl⟩

theorem ByFiles.outcomeOf (step : ByFiles x) :
    ByFiles (outcomeOf x : ExceptT ε' (StateM World) (Except ε α)) := by
  obtain ⟨result, same⟩ := step
  refine ⟨fun tree drawn => (.ok (result tree drawn).1, (result tree drawn).2), ?_⟩
  intro w
  rw [after_outcomeOf, same w]

theorem ByFiles.attempt {step : Attempt α} (first : ByFiles step) (kind : HostError → Failure) :
    ByFiles (attempt kind step) := by
  obtain ⟨result, same⟩ := first
  refine ⟨fun tree drawn => ((result tree drawn).1.mapError kind, (result tree drawn).2), ?_⟩
  intro w
  rw [after_attempt, same w]

end

section
variable {α : Type} (h : Host)

theorem byFiles_permit (act : FileAct) : ByFiles (h.permit act) := by
  unfold Host.permit
  cases h.refuse act with
  | none => exact byFiles_pure ()
  | some e => exact byFiles_throw e

theorem byFiles_ask (question : Tree → Except HostError α) : ByFiles (Host.ask question) := by
  apply byFiles_get
  · intro w w' tree _
    rw [tree]
  · intro w
    cases question w.tree with
    | ok answer => exact byFiles_pure answer
    | error e => exact byFiles_throw e

theorem byFiles_change (change : Tree → Except HostError Tree) : ByFiles (Host.change change) :=
  (byFiles_ask change).bind byFiles_setTree

theorem byFiles_inspect (path : String) : ByFiles (h.inspect path) :=
  (byFiles_ask _).bind fun place => byFiles_pure place.2

theorem byFiles_readDirectory (path : String) : ByFiles (h.readDirectory path) := by
  apply (byFiles_permit h _).bind
  intro _
  apply (byFiles_ask _).bind
  intro place
  obtain ⟨l, node⟩ := place
  dsimp only
  split
  · apply byFiles_get
    · intro w w' tree _
      rw [tree]
    · exact fun w => byFiles_pure _
  · exact byFiles_throw _

theorem byFiles_makeDirectory (path : String) : ByFiles (h.makeDirectory path) :=
  (byFiles_permit h _).bind fun _ => byFiles_change _

theorem byFiles_copy (source target : String) : ByFiles (h.copy source target) := by
  apply (byFiles_permit h _).bind
  intro _
  apply (byFiles_inspect h source).bind
  intro node
  cases node with
  | file mode content =>
    dsimp only
    split
    · exact byFiles_change _
    · exact byFiles_throw _
  | directory => exact byFiles_throw _
  | link target => exact byFiles_throw _
  | device content => exact byFiles_throw _
  | socket => exact byFiles_throw _

theorem byFiles_removeAll (path : String) : ByFiles (h.removeAll path) :=
  (byFiles_permit h _).bind fun _ => byFiles_change _

theorem byFiles_leadsToFile (path : String) : ByFiles (Workspace.leadsToFile h path) := by
  apply ((byFiles_inspect h path).outcomeOf).bind
  intro outcome
  cases outcome with
  | ok node => exact byFiles_pure _
  | error e => exact byFiles_pure _

theorem byFiles_copyEntries (source target : String) (entries : List (String × Node)) :
    ByFiles (Workspace.copyEntries h source target entries) := by
  induction entries with
  | nil => exact (byFiles_permit h _).bind fun _ => byFiles_pure _
  | cons entry others ih =>
    obtain ⟨name, node⟩ := entry
    apply (byFiles_permit h _).bind
    intro _
    have fileFirst : ByFiles (do
        h.copy (Path.join source name) (Path.join target name)
        let counted ← Workspace.copyEntries h source target others
        return (counted.1, counted.2 + 1)) :=
      (byFiles_copy h _ _).bind fun _ => ih.bind fun _ => byFiles_pure _
    cases node with
    | directory => exact (byFiles_makeDirectory h _).bind fun _ => ih.bind fun _ => byFiles_pure _
    | link target =>
      apply (byFiles_leadsToFile h _).bind
      intro answer
      cases answer with
      | true => exact fileFirst
      | false => exact (byFiles_note _ _ _ _).bind fun _ => ih
    | file mode content => exact fileFirst
    | device content => exact fileFirst
    | socket => exact fileFirst

theorem byFiles_copyEach {copy : String → Attempt Nat} (each : ∀ name, ByFiles (copy name))
    (names : List String) : ByFiles (Workspace.copyEach copy names) := by
  induction names with
  | nil => exact byFiles_pure _
  | cons name names ih => exact ih.bind fun _ => (each name).bind fun _ => byFiles_pure _

theorem byFiles_copyBelow (depth : Nat) (source target : String) :
    ByFiles (Workspace.copyBelow h depth source target) := by
  induction depth generalizing source target with
  | zero => exact byFiles_throw _
  | succ depth ih =>
    apply (byFiles_readDirectory h source).bind
    intro entries
    apply (byFiles_copyEntries h source target entries).bind
    intro counted
    exact (byFiles_copyEach (fun name => ih _ _) counted.1).bind fun _ => byFiles_pure _

theorem byFiles_makeTemporary (tries : Nat) : ByFiles (Workspace.makeTemporary h tries) := by
  induction tries with
  | zero => exact byFiles_throw _
  | succ tries ih =>
    apply byFiles_get
    · intro w w' _ drawn
      rw [drawn]
    · intro w
      apply (byFiles_setDrawn _).bind
      intro _
      apply ((byFiles_makeDirectory h _).outcomeOf).bind
      intro outcome
      cases outcome with
      | ok _ => exact byFiles_pure _
      | error e =>
        dsimp only
        split
        · exact ih
        · exact byFiles_throw _

theorem byFiles_temporary : ByFiles (Workspace.temporary h) := by
  apply byFiles_get
  · intro w w' tree _
    rw [tree]
  · exact fun w => byFiles_makeTemporary h _

theorem byFiles_provision (library : String) : ByFiles (Workspace.provision h library) := by
  apply ((byFiles_inspect h library).attempt _).bind
  intro node
  dsimp only
  split
  · exact byFiles_throw _
  · apply ((byFiles_temporary h).attempt _).bind
    intro ws
    apply (byFiles_note _ _ _ _).bind
    intro _
    apply ((byFiles_copyBelow h _ _ _).outcomeOf).bind
    intro outcome
    cases outcome with
    | ok files => exact (byFiles_note _ _ _ _).bind fun _ => byFiles_pure ws
    | error e => exact ((byFiles_removeAll h _).outcomeOf).bind fun _ => byFiles_throw _

theorem onFiles_removeAll (path : String) : OnFiles (h.removeAll path) :=
  (byFiles_removeAll h path).onFiles

theorem onFiles_provision (library : String) : OnFiles (Workspace.provision h library) :=
  (byFiles_provision h library).onFiles

end

end ScriptSandbox.Proofs.FilesOnly
