import ScriptSandbox.Proofs.ConfigLayers
import ScriptSandbox.Proofs.FilesOnly
import ScriptSandbox.Proofs.RunStages

namespace ScriptSandbox.Proofs.InputApart
open FileSteps FilesOnly RunStages
open ConfigLayers (inChosen after_load)

/-- The world with these octets on standard input. -/
def fed (octets : Bytes) (w : World) : World := { w with stdin := octets }

/-- The step does the same whatever is on standard input, and leaves that there. -/
def Deaf {ε α : Type} (step : ExceptT ε (StateM World) α) : Prop :=
  ∀ octets w, after step (fed octets w) = ((after step w).1, fed octets (after step w).2)

section
variable {ε ε' α β : Type} {x : ExceptT ε (StateM World) α}
  {f : α → ExceptT ε (StateM World) β}

theorem deaf_pure (a : α) : Deaf (pure a : ExceptT ε (StateM World) α) := fun _ _ => rfl

theorem deaf_throw (e : ε) : Deaf (throw e : ExceptT ε (StateM World) α) := fun _ _ => rfl

theorem Deaf.bind (first : Deaf x) (next : ∀ a, Deaf (f a)) : Deaf (x >>= f) := by
  intro octets w
  have heard := first octets w
  cases reached : after x w with
  | mk outcome w₁ =>
  rw [reached] at heard
  cases outcome with
  | error e => rw [after_bind_error reached, after_bind_error heard]
  | ok a =>
    rw [after_bind_ok reached, after_bind_ok heard]
    exact next a octets w₁

theorem deaf_note (area : Area) (level : Level) (message : String)
    (details : List (String × Detail)) :
    Deaf (liftM (World.note area level message details) : ExceptT ε (StateM World) Unit) :=
  fun _ _ => rfl

theorem Deaf.outcomeOf (step : Deaf x) :
    Deaf (outcomeOf x : ExceptT ε' (StateM World) (Except ε α)) := by
  intro octets w
  simp [step octets w]

theorem Deaf.attempt {step : Attempt α} (deaf : Deaf step) (kind : HostError → Failure) :
    Deaf (attempt kind step) := by
  intro octets w
  rw [after_attempt, after_attempt, deaf octets w]

/-- What the files decide is the same. -/
theorem deaf_byFiles (files : ByFiles x) : Deaf x := by
  obtain ⟨result, same⟩ := files
  intro octets w
  rw [same, same]
  rfl

end

section
variable (h : Host)

theorem deaf_launch (binary : String) (args : List String) : Deaf (h.launch binary args) := by
  intro octets w
  rw [after_launch, after_launch]
  rfl

theorem deaf_version (binary : String) : Deaf (Wasmer.version? h binary) := by
  intro octets w
  rw [after_version, after_version]
  rfl

theorem deaf_locate (c : WasmerConfig) : Deaf (Wasmer.locate h c) := by
  unfold Wasmer.locate
  cases c.binary with
  | some path =>
    apply (deaf_version h path).bind
    intro version
    cases version with
    | some text => exact (deaf_note _ _ _ _).bind fun _ => deaf_pure path
    | none => exact deaf_throw _
  | none =>
    apply (deaf_version h _).bind
    intro version
    cases version with
    | some text => exact (deaf_note _ _ _ _).bind fun _ => deaf_pure _
    | none =>
      apply (deaf_version h _).bind
      intro version
      cases version with
      | some text => exact (deaf_note _ _ _ _).bind fun _ => deaf_pure _
      | none => exact deaf_throw _

theorem deaf_wasmer (x : Wasmer) (argv : List String) : Deaf ((x.executor h).run argv) := by
  apply (deaf_note _ _ _ _).bind
  intro _
  apply ((deaf_launch h x.binary ("run" :: argv)).attempt (.sandboxLaunch x.binary)).bind
  intro reply
  cases x.expired reply with
  | some seconds => exact deaf_throw _
  | none =>
    apply (deaf_note _ _ _ _).bind
    intro _
    split
    · exact deaf_pure _
    · exact deaf_throw _

variable {e : Executor} (deaf : ∀ argv, Deaf (e.run argv))

include deaf

theorem deaf_call (argv : List String) : Deaf (e.call argv) :=
  fun octets w => deaf argv octets { w with calls := w.calls ++ [⟨argv, w.tree⟩] }

theorem deaf_invoke (l : Language) (r : Request) (i : Invocation) :
    Deaf (Interpreter.invoke e l r i) := by
  apply (deaf_call deaf i.argv).outcomeOf.bind
  intro outcome
  cases outcome with
  | ok o =>
    exact ((deaf_note _ _ _ _).bind fun _ => deaf_note _ _ _ _).bind fun _ => deaf_pure o
  | error f => exact (deaf_note _ _ _ _).bind fun _ => deaf_throw f

omit deaf in
theorem deaf_release (ws : Workspace) : Deaf (liftM (ws.releaseNoted h) : Action Unit) := by
  have released : Deaf (ws.release h) :=
    ((deaf_byFiles (byFiles_removeAll h ws.path)).attempt _).bind fun _ => deaf_note _ _ _ _
  intro octets w
  have ends (w : World) : (ws.release h).run.run w = after (ws.release h) w := rfl
  rw [after_lift, after_lift, Workspace.releaseNoted, StateT.run_bind, StateT.run_bind, ends, ends,
    released octets w]
  cases after (ws.release h) w with
  | mk outcome w₁ =>
    cases outcome with
    | ok _ => rfl
    | error f => rfl

theorem deaf_execute (r : Request) (i : Interpreter) : Deaf (i.execute h e r) := by
  cases i with
  | python image library =>
    apply (deaf_byFiles (byFiles_provision h library)).bind
    intro ws
    apply (deaf_invoke deaf .python r _).outcomeOf.bind
    intro outcome
    apply (deaf_release h ws).bind
    intro _
    cases outcome with
    | ok o => exact deaf_pure o
    | error f => exact deaf_throw f
  | quickJs image => exact deaf_invoke deaf .quickJs r _

end

section
variable (h : Host)

theorem byFiles_read (path : String) : ByFiles (Config.read h path) := by
  apply (byFiles_note _ _ _ _).bind
  intro _
  apply ((byFiles_ask _).attempt _).bind
  intro text
  cases Config.parse text with
  | ok c => exact byFiles_pure c
  | error f => exact byFiles_throw f

theorem byFiles_readChosen (chosen : Option String) : ByFiles (Config.readChosen h chosen) := by
  apply byFiles_get
  · intro w w' tree _
    rw [tree]
  · intro w
    cases chosen with
    | some path =>
      dsimp only
      split
      · exact byFiles_read h path
      · exact byFiles_throw _
    | none =>
      dsimp only
      split
      · exact byFiles_read h _
      · exact byFiles_pure _

theorem byFiles_load (chosen : Option String) : ByFiles (Config.load h chosen) :=
  (byFiles_readChosen h chosen).bind fun _ => byFiles_pure _

/-- What a run does with its request. -/
def runRequest (c : Config) (format : Format) (l : Language) (r : Request) : Action Report := do
  World.note .commands .info "Running script"
    [("language", .text l.name), ("task_id", .text r.taskId)]
  let e ← Command.findExecutor h c
  let o ← (Interpreter.ofConfig c l).execute h e r
  return .ofOutput format o

theorem performRun_eq (c : Config) (format : Format) (what : RunCommand) :
    Command.performRun h c format what =
      Command.readRequest h what >>= runRequest h c format what.language := rfl

theorem deaf_runRequest (c : Config) (format : Format) (l : Language) (r : Request) :
    Deaf (runRequest h c format l r) := by
  unfold runRequest Command.findExecutor Wasmer.ofConfig
  simp only [bind_assoc, pure_bind]
  apply (deaf_note _ _ _ _).bind
  intro _
  apply (deaf_locate h c.wasmer).bind
  intro binary
  apply (deaf_note _ _ _ _).bind
  intro _
  exact (deaf_execute h (deaf_wasmer h _) r _).bind fun o => deaf_pure _

variable {h}
variable {c : Config} {format : Format} {what what' : RunCommand} {w : World} {octets : Bytes}
  (language : what'.language = what.language)
  (request : requestIn h w.tree what' octets = requestIn h w.tree what w.stdin)

include language request

theorem fed_performRun : ∃ left, after (Command.performRun h c format what') (fed octets w) =
    ((after (Command.performRun h c format what) w).1,
      fed left (after (Command.performRun h c format what) w).2) := by
  obtain ⟨left, read⟩ := after_readRequest (h := h) (w := w) what
  obtain ⟨left', read'⟩ := after_readRequest (h := h) (w := fed octets w) what'
  have requested : requestIn h (fed octets w).tree what' (fed octets w).stdin =
      requestIn h w.tree what w.stdin := request
  refine ⟨left', ?_⟩
  rw [performRun_eq, performRun_eq, language]
  rw [requested] at read'
  cases asked : requestIn h w.tree what w.stdin with
  | error f =>
    rw [asked] at read read'
    rw [after_bind_error read, after_bind_error read']
    rfl
  | ok r =>
    rw [asked] at read read'
    rw [after_bind_ok read, after_bind_ok read']
    exact deaf_runRequest h c format what.language r left' { w with stdin := left }

/-- Runs that come to the same request do the same from then on, wherever each has it from. -/
theorem fed_follow {line line' : CommandLine} (command : line.command = .run what)
    (same : line' = { line with command := .run what' }) :
    ∃ left, after (Command.follow h line') (fed octets w) =
      ((after (Command.follow h line) w).1, fed left (after (Command.follow h line) w).2) := by
  obtain ⟨log, loaded⟩ := after_load (h := h) (w := w) line.config
  have loaded' := deaf_byFiles (byFiles_load h line.config) octets w
  subst same
  unfold Command.follow
  rw [command]
  rw [loaded] at loaded'
  cases chosen : (inChosen h w.tree line.config).map (·.override (.ofVariables h.lookup)) with
  | error f =>
    rw [chosen] at loaded loaded'
    rw [after_bind_error loaded, after_bind_error loaded']
    exact ⟨octets, rfl⟩
  | ok c =>
    rw [chosen] at loaded loaded'
    rw [after_bind_ok loaded, after_bind_ok loaded']
    exact fed_performRun (w := { w with log := log }) language request

end

end ScriptSandbox.Proofs.InputApart
