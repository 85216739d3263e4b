import ScriptSandbox.Machine.Files
import ScriptSandbox.Proofs.Resolution
import ScriptSandbox.Sandbox.Executor

namespace ScriptSandbox.Proofs.FileSteps
open ScriptSandbox.Tree TreeGrowth Resolution

/-- The outcome of a step and the world after it. -/
def after {ε α : Type} (step : ExceptT ε (StateM World) α) (w : World) : Except ε α × World :=
  step.run.run w

/-- What holds of the outcome and of the world after it. -/
def Ensures {ε α : Type} (step : ExceptT ε (StateM World) α) (w : World)
    (post : Except ε α → World → Prop) : Prop :=
  post (after step w).1 (after step w).2

section
variable {ε ε' α : Type}

@[simp]
theorem mapError_ok (kind : ε → ε') (a : α) :
    (.ok a : Except ε α).mapError kind = .ok a := rfl

@[simp]
theorem mapError_error (kind : ε → ε') (e : ε) :
    (.error e : Except ε α).mapError kind = .error (kind e) := rfl

end

section
variable {ε α β : Type} {x : ExceptT ε (StateM World) α} {f : α → ExceptT ε (StateM World) β}
  {w w' : World}

@[simp]
theorem after_pure (a : α) : after (pure a : ExceptT ε (StateM World) α) w = (.ok a, w) := rfl

@[simp]
theorem after_throw (e : ε) :
    after (throw e : ExceptT ε (StateM World) α) w = (.error e, w) := rfl

@[simp]
theorem after_bind : after (x >>= f) w = match after x w with
    | (.ok a, w') => after (f a) w'
    | (.error e, w') => (.error e, w') := by
  have chain : after (x >>= f) w = (ExceptT.bindCont f (after x w).1).run (after x w).2 := rfl
  rw [chain]
  cases after x w with
  | mk outcome w' =>
  cases outcome with
  | ok a => rfl
  | error e => rfl

@[simp]
theorem after_map (g : α → β) : after (g <$> x) w = ((after x w).1.map g, (after x w).2) := by
  rw [← bind_pure_comp, after_bind]
  cases after x w with
  | mk outcome w' =>
  cases outcome with
  | ok a => rfl
  | error e => rfl

theorem after_bind_ok {a : α} (first : after x w = (.ok a, w')) :
    after (x >>= f) w = after (f a) w' := by rw [after_bind, first]

theorem after_bind_error {e : ε} (first : after x w = (.error e, w')) :
    after (x >>= f) w = (.error e, w') := by rw [after_bind, first]

/-- Steps in a row succeed if each of them does. -/
theorem after_bind_eq_ok {b : β} : after (x >>= f) w = (.ok b, w') ↔
    ∃ a w₁, after x w = (.ok a, w₁) ∧ after (f a) w₁ = (.ok b, w') := by
  rw [after_bind]
  cases after x w with
  | mk outcome w₁ =>
  cases outcome with
  | error e => simp
  | ok a => simp [and_assoc]

/-- Steps in a row fail if one of them does after the others have succeeded. -/
theorem after_bind_eq_error {e : ε} : after (x >>= f) w = (.error e, w') ↔
    after x w = (.error e, w') ∨
      ∃ a w₁, after x w = (.ok a, w₁) ∧ after (f a) w₁ = (.error e, w') := by
  rw [after_bind]
  cases after x w with
  | mk outcome w₁ =>
  cases outcome with
  | error e => simp
  | ok a => simp [and_assoc]

theorem ensures_bind_ok {a : α} {post : Except ε β → World → Prop}
    (first : after x w = (.ok a, w')) (next : Ensures (f a) w' post) :
    Ensures (x >>= f) w post := by
  unfold Ensures
  rw [after_bind_ok first]
  exact next

theorem ensures_bind_error {e : ε} {post : Except ε β → World → Prop}
    (first : after x w = (.error e, w')) (next : post (.error e) w') :
    Ensures (x >>= f) w post := by
  unfold Ensures
  rw [after_bind_error first]
  exact next

@[simp]
theorem after_outcomeOf {ε' : Type} :
    after (outcomeOf x : ExceptT ε' (StateM World) (Except ε α)) w =
      (.ok (after x w).1, (after x w).2) := rfl

@[simp]
theorem after_get : after (get : ExceptT ε (StateM World) World) w = (.ok w, w) := rfl

@[simp]
theorem after_modify {change : World → World} :
    after (modify change : ExceptT ε (StateM World) Unit) w = (.ok (), change w) := rfl

@[simp]
theorem after_lift {step : StateM World α} :
    after (liftM step : ExceptT ε (StateM World) α) w = (.ok (step.run w).1, (step.run w).2) := rfl

@[simp]
theorem run_note {area : Area} {level : Level} {message : String}
    {details : List (String × Detail)} : (World.note area level message details).run w =
      ((), { w with log := w.log ++ [⟨area, level, message, details⟩] }) := rfl

@[simp]
theorem after_attempt (kind : HostError → Failure) (step : Attempt α) :
    after (attempt kind step) w = ((after step w).1.mapError kind, (after step w).2) := rfl

theorem after_attempt_eq_ok {kind : HostError → Failure} {step : Attempt α} {a : α} :
    after (attempt kind step) w = (.ok a, w') ↔ after step w = (.ok a, w') := by
  rw [after_attempt]
  cases after step w with
  | mk outcome w₁ =>
  cases outcome with
  | error e => simp
  | ok a => simp

@[simp]
theorem after_settle (outcome : Except Failure α) : after (settle outcome) w = (outcome, w) := by
  cases outcome with
  | ok value => rfl
  | error f => rfl

/-- A call is recorded before it is made. -/
@[simp]
theorem after_call (e : Executor) (argv : List String) : after (e.call argv) w =
    after (e.run argv) { w with calls := w.calls ++ [⟨argv, w.tree⟩] } := rfl

/-- A question is answered by the files, and changes nothing. -/
@[simp]
theorem after_ask (question : Tree → Except HostError α) :
    after (Host.ask question) w = (question w.tree, w) := by
  simp only [Host.ask, after_bind, after_get]
  cases question w.tree with
  | ok a => rfl
  | error e => rfl

end

section
variable {ε ε' α β : Type} {x : ExceptT ε (StateM World) α} {w : World}
  {post : Except ε α → World → Prop}

theorem Ensures.mono {post' : Except ε α → World → Prop} (h : Ensures x w post)
    (weaker : ∀ r w', post r w' → post' r w') : Ensures x w post' := weaker _ _ h

theorem ensures_after (x : ExceptT ε (StateM World) α) (w : World) :
    Ensures x w fun r w' => (r, w') = after x w := rfl

theorem ensures_pure {a : α} (h : post (.ok a) w) : Ensures (pure a) w post := h

theorem ensures_throw {e : ε} (h : post (.error e) w) : Ensures (throw e) w post := h

/-- A step after another one starts in the world that the first one leaves. -/
theorem ensures_bind {f : α → ExceptT ε (StateM World) β} {post' : Except ε β → World → Prop}
    (first : Ensures x w post) (error : ∀ e w', post (.error e) w' → post' (.error e) w')
    (next : ∀ a w', post (.ok a) w' → Ensures (f a) w' post') : Ensures (x >>= f) w post' := by
  unfold Ensures at first ⊢
  rw [after_bind]
  cases reached : after x w with
  | mk outcome w' =>
  rw [reached] at first
  cases outcome with
  | error e => exact error e w' first
  | ok a => exact next a w' first

/-- A step whose outcome is looked at goes on with success and with failure. -/
theorem ensures_outcomeOf {f : Except ε α → ExceptT ε' (StateM World) β}
    {post' : Except ε' β → World → Prop} (first : Ensures x w post)
    (next : ∀ outcome w', post outcome w' → Ensures (f outcome) w' post') :
    Ensures (outcomeOf x >>= f) w post' := next _ _ first

end

section
variable {ε α β : Type} {w : World} {f : α → ExceptT ε (StateM World) β}
  {post : Except ε β → World → Prop}

theorem ensures_lift {step : StateM World α}
    (next : Ensures (f (step.run w).1) (step.run w).2 post) : Ensures (liftM step >>= f) w post :=
  next

theorem ensures_get {f : World → ExceptT ε (StateM World) β} (next : Ensures (f w) w post) :
    Ensures (get >>= f) w post := next

theorem ensures_modify {change : World → World} {f : Unit → ExceptT ε (StateM World) β}
    (next : Ensures (f ()) (change w) post) : Ensures (modify change >>= f) w post := next

/-- What is noted leaves the files as they are. -/
theorem ensures_note {area : Area} {level : Level} {message : String}
    {details : List (String × Detail)} {f : Unit → ExceptT ε (StateM World) β}
    (next : ∀ w' : World, w'.tree = w.tree → Ensures (f ()) w' post) :
    Ensures (liftM (World.note area level message details) >>= f) w post := next _ rfl

end

theorem ensures_attempt {α : Type} {step : Attempt α} {w : World} {kind : HostError → Failure}
    {post : Except HostError α → World → Prop} {post' : Except Failure α → World → Prop}
    (h : Ensures step w post) (error : ∀ e w', post (.error e) w' → post' (.error (kind e)) w')
    (ok : ∀ a w', post (.ok a) w' → post' (.ok a) w') : Ensures (attempt kind step) w post' := by
  unfold Ensures at h ⊢
  rw [after_attempt]
  cases reached : after step w with
  | mk outcome w' =>
  rw [reached] at h
  cases outcome with
  | error e => exact error e w' h
  | ok a => exact ok a w' h

section
variable {h : Host} {w : World}

/-- The step leaves the world as it is. -/
theorem ensures_permit (act : FileAct) :
    Ensures (h.permit act) w fun r w' => w' = w ∧ ∀ e, r = .error e → h.refuse act = some e := by
  unfold Host.permit
  cases refused : h.refuse act with
  | none => exact ensures_pure ⟨rfl, nofun⟩
  | some e => exact ensures_throw ⟨rfl, fun e' same => congrArg some (Except.error.inj same)⟩

@[simp]
theorem after_permit_refused {act : FileAct} {e : HostError} (refused : h.refuse act = some e) :
    after (h.permit act) w = (.error e, w) := by
  rw [Host.permit, refused]
  rfl

@[simp]
theorem after_permit_passed {act : FileAct} (passed : h.refuse act = none) :
    after (h.permit act) w = (.ok (), w) := by
  rw [Host.permit, passed]
  rfl

theorem ensures_ask {α : Type} (question : Tree → Except HostError α) :
    Ensures (Host.ask question) w fun r w' => w' = w ∧ r = question w.tree := by
  simp [Ensures]

/-- A change succeeds with a new tree, or it leaves the tree as it is. -/
theorem ensures_change (f : Tree → Except HostError Tree) :
    Ensures (Host.change f) w fun r w' =>
      (r = .ok () ∧ f w.tree = .ok w'.tree) ∨
        (∃ e, r = .error e ∧ f w.tree = .error e) ∧ w' = w := by
  apply ensures_bind (ensures_ask f)
  · intro e w' post
    rcases post with ⟨rfl, found⟩
    exact .inr ⟨⟨e, rfl, found.symm⟩, rfl⟩
  · intro t w' post
    rcases post with ⟨rfl, found⟩
    exact .inl ⟨rfl, found.symm⟩

theorem ensures_inspect (path : String) :
    Ensures (h.inspect path) w fun r w' => w' = w ∧
      (∀ node, r = .ok node → ∃ l, w.tree.find true h.cwd path = .ok (l, node)) ∧
      ∀ e, r = .error e → w.tree.find true h.cwd path = .error e := by
  apply ensures_bind (ensures_ask _)
  · intro e w' post
    rcases post with ⟨rfl, found⟩
    refine ⟨rfl, nofun, ?_⟩
    intro e' same
    obtain rfl := Except.error.inj same
    exact found.symm
  · intro place w' post
    rcases place with ⟨l, node⟩
    rcases post with ⟨rfl, found⟩
    refine ensures_pure ⟨rfl, ?_, nofun⟩
    intro node' same
    obtain rfl := Except.ok.inj same
    exact ⟨l, found.symm⟩

/-- The entries of a directory are all that is under a name there. -/
theorem ensures_readDirectory (path : String) :
    Ensures (h.readDirectory path) w fun r w' => w' = w ∧ ∀ entries, r = .ok entries →
      ∃ l, w.tree.find true h.cwd path = .ok (l, .directory) ∧
        entries = (h.arrange l (w.tree.names l)).filterMap fun name =>
          (w.tree.get? (name :: l)).map (name, ·) := by
  apply ensures_bind (ensures_permit _)
  · intro e w' post
    rcases post with ⟨rfl, -⟩
    exact ⟨rfl, nofun⟩
  · intro _ w' post
    rcases post with ⟨rfl, -⟩
    apply ensures_bind (ensures_ask _)
    · intro e w' post
      rcases post with ⟨rfl, -⟩
      exact ⟨rfl, nofun⟩
    · intro place w' post
      rcases place with ⟨l, node⟩
      rcases post with ⟨rfl, found⟩
      cases node with
      | directory =>
        refine ⟨rfl, ?_⟩
        intro entries same
        obtain rfl := Except.ok.inj same
        exact ⟨l, found.symm, rfl⟩
      | file mode content => exact ⟨rfl, nofun⟩
      | link target => exact ⟨rfl, nofun⟩
      | device content => exact ⟨rfl, nofun⟩
      | socket => exact ⟨rfl, nofun⟩

theorem makeDirectory_eq_ok {t t' : Tree} {cwd : Location} {path : String}
    (made : t.makeDirectory cwd path = .ok t') : ∃ l, t.locate false cwd path = .ok l ∧
      t.get? l = none ∧ t' = t.put l .directory := by
  unfold makeDirectory at made
  cases way : t.locate false cwd path with
  | error e =>
    rw [way] at made
    cases made
  | ok l =>
    rw [way] at made
    cases there : t.get? l with
    | none =>
      simp only [bind, Except.bind, there, Except.ok.injEq] at made
      exact ⟨l, rfl, there, made.symm⟩
    | some node =>
      simp only [bind, Except.bind, there] at made
      cases made

theorem removeAll_eq_ok {t t' : Tree} {cwd : Location} {path : String}
    (removed : t.removeAll cwd path = .ok t') :
    ∃ l, t.locate false cwd path = .ok l ∧ t' = t.cut l := by
  unfold Tree.removeAll at removed
  cases found : t.find false cwd path with
  | error e =>
    rw [found] at removed
    cases removed
  | ok place =>
    obtain ⟨l, node⟩ := place
    have way := (find_eq_ok.mp found).1
    rw [found] at removed
    cases node with
    | directory => exact ⟨l, way, (Except.ok.inj removed).symm⟩
    | link target => exact ⟨l, way, (Except.ok.inj removed).symm⟩
    | file mode content => cases removed
    | device content => cases removed
    | socket => cases removed

theorem write_eq_ok {t t' : Tree} {cwd : Location} {path : String} {mode : Nat} {content : Bytes}
    (written : t.write cwd path mode content = .ok t') : ∃ l, t.locate true cwd path = .ok l ∧
      (t.get? l = none → t' = t.put l (.file mode content)) := by
  unfold write at written
  cases way : t.locate true cwd path with
  | error e =>
    rw [way] at written
    cases written
  | ok l =>
    rw [way] at written
    refine ⟨l, rfl, ?_⟩
    intro free
    simp only [bind, Except.bind, free, Except.ok.injEq] at written
    exact written.symm

variable {base name : String} {d : Location}

/-- A directory is made in another one, where nothing was, or not at all. -/
theorem ensures_makeDirectory (proper : Proper w.tree) (some_base : base ≠ "")
    (plain : Plain name) :
    Ensures (h.makeDirectory (Path.join base name)) w fun r w' =>
      (∃ d, r = .ok () ∧ w.tree.find true h.cwd base = .ok (d, .directory) ∧
        Fits (Path.join base name) name ∧ w.tree.get? (name :: d) = none ∧
        w'.tree = w.tree.put (name :: d) .directory) ∨ (∃ e, r = .error e) ∧ w' = w := by
  apply ensures_bind (ensures_permit _)
  · intro e w' post
    rcases post with ⟨rfl, -⟩
    exact .inr ⟨⟨e, rfl⟩, rfl⟩
  · intro _ w' post
    rcases post with ⟨rfl, -⟩
    apply (ensures_change _).mono
    intro r w'' post
    rcases post with ⟨rfl, made⟩ | ⟨⟨e, rfl, -⟩, rfl⟩
    · obtain ⟨l, way, free, put⟩ := makeDirectory_eq_ok made
      obtain ⟨d, found⟩ := find_of_join proper some_base plain way
      obtain rfl := locate_join_eq found plain false (fun same => nomatch same) way
      exact .inl ⟨d, rfl, found, fits_of_locate found plain way, free, put⟩
    · exact .inr ⟨⟨e, rfl⟩, rfl⟩

/-- A file is copied to where nothing was, or not at all. -/
theorem ensures_copy {source : String} (found : w.tree.find true h.cwd base = .ok (d, .directory))
    (plain : Plain name) (free : w.tree.get? (name :: d) = none) :
    Ensures (h.copy source (Path.join base name)) w fun r w' =>
      (r = .ok () ∧ ∃ l mode content, w.tree.find true h.cwd source = .ok (l, .file mode content) ∧
        w'.tree = w.tree.put (name :: d) (.file mode content)) ∨ (∃ e, r = .error e) ∧ w' = w := by
  apply ensures_bind (ensures_permit _)
  · intro e w' post
    rcases post with ⟨rfl, -⟩
    exact .inr ⟨⟨e, rfl⟩, rfl⟩
  · intro _ w' post
    rcases post with ⟨rfl, -⟩
    apply ensures_bind (ensures_inspect source)
    · intro e w' post
      rcases post with ⟨rfl, -⟩
      exact .inr ⟨⟨e, rfl⟩, rfl⟩
    · intro node w' post
      rcases post with ⟨rfl, there, -⟩
      cases node with
      | file mode content =>
        obtain ⟨l, origin⟩ := there _ rfl
        dsimp only
        split
        · apply (ensures_change _).mono
          intro r w'' post
          rcases post with ⟨rfl, written⟩ | ⟨⟨e, rfl, -⟩, rfl⟩
          · obtain ⟨k, way, put⟩ := write_eq_ok written
            have no_link : ∀ target, w'.tree.get? (name :: d) ≠ some (.link target) := by
              intro target link
              cases free.symm.trans link
            obtain rfl := locate_join_eq found plain true (fun _ => no_link) way
            exact .inl ⟨rfl, l, mode, content, origin, put free⟩
          · exact .inr ⟨⟨e, rfl⟩, rfl⟩
        · exact .inr ⟨⟨_, rfl⟩, rfl⟩
      | directory => exact .inr ⟨⟨_, rfl⟩, rfl⟩
      | link target => exact .inr ⟨⟨_, rfl⟩, rfl⟩
      | device content => exact .inr ⟨⟨_, rfl⟩, rfl⟩
      | socket => exact .inr ⟨⟨_, rfl⟩, rfl⟩

theorem ensures_removeAll (path : String) : Ensures (h.removeAll path) w fun r w' =>
    (r = .ok () ∧ w.tree.removeAll h.cwd path = .ok w'.tree) ∨
    ∃ e, r = .error e ∧ w' = w ∧
      (h.refuse (.removeAll path) = some e ∨ w.tree.removeAll h.cwd path = .error e) := by
  apply ensures_bind (ensures_permit _)
  · intro e w' post
    rcases post with ⟨rfl, refused⟩
    refine .inr ⟨e, rfl, rfl, .inl ?_⟩
    exact refused e rfl
  · intro _ w' post
    rcases post with ⟨rfl, -⟩
    apply (ensures_change _).mono
    intro r w'' post
    rcases post with ⟨rfl, gone⟩ | ⟨⟨e, rfl, lost⟩, rfl⟩
    · exact .inl ⟨rfl, gone⟩
    · exact .inr ⟨e, rfl, rfl, .inr lost⟩

/-- A directory that is there is removed, unless that is refused. -/
theorem ensures_removeDirectory {path : String} {l : Location}
    (found : w.tree.find false h.cwd path = .ok (l, .directory)) :
    Ensures (h.removeAll path) w fun r w' => (r = .ok () ∧ w'.tree = w.tree.cut l) ∨
      ∃ e, r = .error e ∧ w' = w ∧ h.refuse (.removeAll path) = some e := by
  have cut : w.tree.removeAll h.cwd path = .ok (w.tree.cut l) := by
    simp only [Tree.removeAll, found, bind, Except.bind]
  apply (ensures_removeAll path).mono
  intro r w' post
  rcases post with ⟨rfl, gone⟩ | ⟨e, rfl, rfl, refused | lost⟩
  · exact .inl ⟨rfl, Except.ok.inj (gone.symm.trans cut)⟩
  · exact .inr ⟨e, rfl, rfl, refused⟩
  · cases lost.symm.trans cut

end

end ScriptSandbox.Proofs.FileSteps
