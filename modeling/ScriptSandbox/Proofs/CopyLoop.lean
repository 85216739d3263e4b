import ScriptSandbox.Proofs.CopyExact

namespace ScriptSandbox.Proofs.CopyLoop
open ScriptSandbox.Tree TreeGrowth Resolution FileSteps LibraryCopied WorkspaceLife
open CopyExact (countNoted sampleLibrary proper_sampleLibrary eq_of_toOption)
open WorkspacesApart (sampleHost sampleTree setting_sample)
open ExecutionLife (exists_rooted)

/-- A directory that is still to be copied, and the one that it is copied into. -/
structure Job where
  source : String
  target : String

namespace Job

def inner (j : Job) (name : String) : Job := ⟨Path.join j.source name, Path.join j.target name⟩

/-- The jobs for the directories in one. The last of them comes first. -/
def innerAll (j : Job) (names : List String) : List Job := (names.map j.inner).reverse

@[simp]
theorem innerAll_cons (j : Job) (name : String) (names : List String) :
    j.innerAll (name :: names) = j.innerAll names ++ [j.inner name] := by
  simp [innerAll]

end Job

/-- A directory is read and its entries are copied. -/
def turn (h : Host) (j : Job) : Attempt (List String × Nat) := do
  Workspace.copyEntries h j.source j.target (← h.readDirectory j.source)

/-- With these jobs on its stack the loop goes on to its end. On the way it reads these directories,
or fails to read the last of them. Nothing limits the number of its turns. -/
inductive Drains (h : Host) :
    List Job → World → List String → Except HostError Nat → World → Prop
  | done {w : World} : Drains h [] w [] (.ok 0) w
  | stopped {j : Job} {rest : List Job} {w w' : World} {e : HostError}
      (fails : after (turn h j) w = (.error e, w')) :
      Drains h (j :: rest) w [j.source] (.error e) w'
  | next {j : Job} {rest : List Job} {w w₁ w' : World} {names reads : List String} {files : Nat}
      {outcome : Except HostError Nat} (copied : after (turn h j) w = (.ok (names, files), w₁))
      (more : Drains h (j.innerAll names ++ rest) w₁ reads outcome w') :
      Drains h (j :: rest) w (j.source :: reads) (outcome.map (files + ·)) w'

section
variable {h : Host} {jobs rest : List Job} {j : Job} {w w₁ w' w'' : World}
  {reads reads' names : List String} {outcome outcome' : Except HostError Nat} {files : Nat}
  {e : HostError}

/-- There is only one way to the end. -/
theorem Drains.unique (one : Drains h jobs w reads outcome w')
    (other : Drains h jobs w reads' outcome' w'') :
    reads' = reads ∧ outcome' = outcome ∧ w'' = w' := by
  induction one generalizing reads' outcome' w'' with
  | done =>
    cases other
    exact ⟨rfl, rfl, rfl⟩
  | stopped fails =>
    cases other with
    | stopped fails' =>
      cases fails.symm.trans fails'
      exact ⟨rfl, rfl, rfl⟩
    | next copied => cases fails.symm.trans copied
  | next copied more ih =>
    cases other with
    | stopped fails => cases copied.symm.trans fails
    | next copied' more' =>
      cases copied.symm.trans copied'
      obtain ⟨rfl, rfl, rfl⟩ := ih more'
      exact ⟨rfl, rfl, rfl⟩

theorem map_add_zero (outcome : Except HostError Nat) : outcome.map (0 + ·) = outcome := by
  cases outcome with
  | error e => rfl
  | ok files => exact congrArg Except.ok (Nat.zero_add files)

theorem map_add_add (outcome : Except HostError Nat) (files more : Nat) :
    (outcome.map (more + ·)).map (files + ·) = outcome.map (files + more + ·) := by
  cases outcome with
  | error e => rfl
  | ok others => exact congrArg Except.ok (Nat.add_assoc files more others).symm

theorem map_eq_ok {f : Nat → Nat} (h : outcome.map f = .ok files) :
    ∃ n, outcome = .ok n ∧ files = f n := by
  cases outcome with
  | error e => cases h
  | ok n => exact ⟨n, rfl, (Except.ok.inj h).symm⟩

@[simp]
theorem isOk_map {f : Nat → Nat} : (outcome.map f).isOk = outcome.isOk := by
  cases outcome with
  | error e => rfl
  | ok n => rfl

theorem map_eq_error {f : Nat → Nat} (h : outcome.map f = .error e) : outcome = .error e := by
  cases outcome with
  | error e' => exact congrArg Except.error (Except.error.inj h)
  | ok n => cases h

/-- Jobs that succeed are followed by those that stand below them on the stack. -/
theorem Drains.followed (first : Drains h jobs w reads (.ok files) w₁)
    (second : Drains h rest w₁ reads' outcome w') :
    Drains h (jobs ++ rest) w (reads ++ reads') (outcome.map (files + ·)) w' := by
  generalize same : Except.ok files = total at first
  induction first generalizing files with
  | done =>
    obtain rfl := Except.ok.inj same
    rw [map_add_zero]
    exact second
  | stopped fails => cases same
  | next copied more ih =>
    obtain ⟨others, rfl, rfl⟩ := map_eq_ok same.symm
    rw [← map_add_add]
    have onwards := ih second rfl
    rw [List.append_assoc] at onwards
    exact .next copied onwards

/-- A job that fails is the last one. -/
theorem Drains.halted (first : Drains h jobs w reads (.error e) w') (rest : List Job) :
    Drains h (jobs ++ rest) w reads (.error e) w' := by
  generalize same : Except.error e = total at first
  induction first with
  | done => cases same
  | stopped fails =>
    cases same
    exact .stopped fails
  | next copied more ih =>
    obtain rfl := map_eq_error same.symm
    have onwards := ih rfl
    rw [List.append_assoc] at onwards
    have halts := Drains.next copied onwards
    exact halts

end

/-- From the path `source` on, these directories have been read. They are at different ways, which
are all part of what was to be read, and they are the whole of it if that is said. -/
def Tour (source : String) (part : Location → Prop) (whole : Bool) (reads : List String) : Prop :=
  ∃ ways : List Location, ways.Nodup ∧ reads = ways.map (under source) ∧
    (∀ way ∈ ways, part way) ∧ (whole = true → ∀ way, part way → way ∈ ways)

section
variable {source name : String} {p q : Location → Prop} {whole : Bool} {reads reads' : List String}

theorem Tour.nothing (none_left : ∀ way, ¬ p way) : Tour source p whole [] :=
  ⟨[], List.nodup_nil, rfl, nofun, fun _ way hp => absurd hp (none_left way)⟩

theorem Tour.self : Tour source (· = []) whole [source] :=
  ⟨[[]], List.pairwise_singleton _ _, rfl, fun _ => List.mem_singleton.mp,
    fun _ _ => List.mem_singleton.mpr⟩

theorem Tour.congr (tour : Tour source p whole reads) (same : ∀ way, p way ↔ q way) :
    Tour source q whole reads := by
  obtain ⟨ways, distinct, read, sound, complete⟩ := tour
  exact ⟨ways, distinct, read, fun way there => (same way).mp (sound way there),
    fun all way hq => complete all way ((same way).mpr hq)⟩

/-- What has been read is part of more, which is not read as a whole. -/
theorem Tour.stopped (tour : Tour source p whole reads) (more : ∀ way, p way → q way) :
    Tour source q false reads := by
  obtain ⟨ways, distinct, read, sound, -⟩ := tour
  exact ⟨ways, distinct, read, fun way there => more way (sound way there), nofun⟩

theorem Tour.append (first : Tour source p true reads) (second : Tour source q whole reads')
    (apart : ∀ way, p way → ¬ q way) :
    Tour source (fun way => p way ∨ q way) whole (reads ++ reads') := by
  obtain ⟨ways, distinct, rfl, sound, complete⟩ := first
  obtain ⟨ways', distinct', rfl, sound', complete'⟩ := second
  refine ⟨ways ++ ways', ?_, List.map_append.symm, ?_, ?_⟩
  · refine List.nodup_append.mpr ⟨distinct, distinct', ?_⟩
    intro way there way' there' same
    subst same
    exact apart way (sound way there) (sound' way there')
  · intro way there
    exact (List.mem_append.mp there).imp (sound way) (sound' way)
  · intro all way either
    exact List.mem_append.mpr (either.imp (complete rfl way) (complete' all way))

/-- What is read in one of the directories, seen from the one that it lies in. -/
theorem Tour.inner (tour : Tour (Path.join source name) p whole reads) :
    Tour source (fun way => ∃ init, way = init ++ [name] ∧ p init) whole reads := by
  obtain ⟨ways, distinct, rfl, sound, complete⟩ := tour
  refine ⟨ways.map (· ++ [name]), ?_, ?_, ?_, ?_⟩
  · exact List.Pairwise.map _ (fun _ _ other same => other (List.append_cancel_right same)) distinct
  · simp [under_append]
  · intro way mapped
    obtain ⟨init, there, rfl⟩ := List.mem_map.mp mapped
    exact ⟨init, rfl, sound init there⟩
  · intro all way inside
    obtain ⟨init, rfl, hp⟩ := inside
    exact List.mem_map.mpr ⟨init, complete all init hp, rfl⟩

end

/-- What is so after a directory has been read and its entries have been copied. -/
structure Turned (h : Host) (j : Job) (d : Location) (t : Tree) (names : List String) (t' : Tree) :
    Prop where
  distinct : names.Nodup
  plain : ∀ name ∈ names, Plain name
  ready : ∀ name ∈ names, Ready h j.target d t name t'
  /-- Of a library apart from the copy, the directories are those that it had. -/
  directories : ∀ b origin, Original b h j.source origin d t →
    b.find true h.cwd j.source = .ok (origin, .directory) ∧
      ∀ name, name ∈ names ↔ b.get? (name :: origin) = some .directory

section
variable {h : Host} {j : Job} {d : Location} {t t' : Tree} {names : List String} {w : World}
  (arranged : ∀ l names, (h.arrange l names).Perm names)

include arranged in
theorem turned_of_entries {l : Location} (proper : Proper t)
    (source_found : t.find true h.cwd j.source = .ok (l, .directory))
    (found : t.find true h.cwd j.target = .ok (d, .directory)) (empty : Empty t d)
    (entered : Adds (Entered (entriesOf h t l) d) t t')
    (copied : EntriesCopied h j.source j.target d (entriesOf h t l) t t' names) :
    Turned h j d t names t' := by
  have room := room_entriesOf arranged proper found empty l
  have plain : ∀ name ∈ names, Plain name := by
    intro name there
    obtain ⟨e, listed, rfl⟩ := List.mem_map.mp (copied.listed.subset there)
    exact room.plain e listed
  refine ⟨copied.listed.nodup room.distinct, plain, ?_, ?_⟩
  · intro name there
    obtain ⟨fits, directory⟩ := copied.made name there
    exact Ready.start found empty entered (plain name there) fits directory
  · intro b origin o
    obtain ⟨rfl, led⟩ := o.found source_found
    refine ⟨led, fun name => ⟨?_, ?_⟩⟩
    · intro there
      obtain ⟨e, listed, rfl⟩ := List.mem_map.mp (copied.listed.subset there)
      have before : b.get? (e.1 :: l) = some e.2 :=
        (o.same [e.1]).symm.trans ((mem_entriesOf arranged).mp listed)
      apply Decidable.by_contra
      intro other
      -- Nothing but a directory has a directory for its copy.
      have twin := copied.twins b o.smaller e listed
        (reliable_entry led (plain e.1 there) before)
      rw [← before] at twin
      exact twin.no_directory other (copied.made e.1 there).2
    · intro directory
      have listed : (name, Node.directory) ∈ entriesOf h t l :=
        (mem_entriesOf arranged).mpr ((o.same [name]).trans directory)
      exact copied.directories _ listed rfl

include arranged in
theorem ensures_turn (proper : Proper w.tree)
    (found : w.tree.find true h.cwd j.target = .ok (d, .directory)) (empty : Empty w.tree d) :
    Ensures (turn h j) w fun r w' => Adds (Below d) w.tree w'.tree ∧ Proper w'.tree ∧
      ∀ names files, r = .ok (names, files) → Turned h j d w.tree names w'.tree := by
  apply ensures_bind (ensures_readDirectory j.source)
  · intro e w' post
    obtain ⟨rfl, -⟩ := post
    exact ⟨Adds.refl _ _, proper, nofun⟩
  · intro entries w' post
    obtain ⟨rfl, read⟩ := post
    obtain ⟨l, source_found, listed⟩ := read entries rfl
    have listed : entries = entriesOf h w'.tree l := listed
    subst listed
    apply (copyable _ w' (room_entriesOf arranged proper found empty l)).mono
    intro r w'' post
    obtain ⟨entered, proper', done⟩ := post
    refine ⟨entered.mono fun _ => below_of_entered, proper', ?_⟩
    intro names files copied
    exact turned_of_entries arranged proper source_found found empty entered
      (done names files copied).1

end

/-- The way leads from `origin` to a directory. -/
def Directories (b : Tree) (origin way : Location) : Prop :=
  b.get? (way ++ origin) = some .directory

/-- The way leads from `origin` to a directory with one of the names, or in one. -/
def DirectoriesIn (b : Tree) (origin : Location) (names : List String) (way : Location) : Prop :=
  ∃ name ∈ names, ∃ init, way = init ++ [name] ∧ Directories b (name :: origin) init

section
variable {b : Tree} {origin way : Location} {name : String} {names : List String}

theorem directoriesIn_cons : DirectoriesIn b origin names way ∨
    (∃ init, way = init ++ [name] ∧ Directories b (name :: origin) init) ↔
      DirectoriesIn b origin (name :: names) way := by
  unfold DirectoriesIn
  simp only [List.mem_cons, exists_eq_or_imp, or_comm]

theorem directoriesIn_apart (fresh : name ∉ names) (inside : DirectoriesIn b origin names way) :
    ¬ ∃ init, way = init ++ [name] ∧ Directories b (name :: origin) init := by
  obtain ⟨other, there, init, rfl, -⟩ := inside
  intro inside
  obtain ⟨init', same, -⟩ := inside
  obtain ⟨-, same⟩ := List.append_inj' same rfl
  exact fresh ((List.cons.inj same).1 ▸ there)

/-- All directories are `origin` itself and those that lie in the directories in it. -/
theorem directories_eq (proper : Proper b) (directory : b.get? origin = some .directory)
    (listed : ∀ name, name ∈ names ↔ b.get? (name :: origin) = some .directory) :
    way = [] ∨ DirectoriesIn b origin names way ↔ Directories b origin way := by
  constructor
  · intro either
    rcases either with rfl | ⟨name, -, init, rfl, there⟩
    · exact directory
    · simpa [Directories] using there
  · intro there
    cases List.eq_nil_or_concat way with
    | inl none_left => exact .inl none_left
    | inr longer =>
      obtain ⟨init, name, rfl⟩ := longer
      have there : b.get? (init ++ name :: origin) = some .directory := by
        simpa [Directories] using there
      refine .inr ⟨name, (listed name).mpr ?_, init, List.concat_eq_append, there⟩
      apply Decidable.by_contra
      intro other
      cases init with
      | nil => exact other there
      | cons next init =>
        have nothing := proper.none_below other (List.cons_ne_nil next init)
        cases nothing.symm.trans there

end

/-- The loop comes to this end with one job. Of a library apart from the copy it reads directories
that the library had in the tree `t`, and all of them if it succeeds. -/
def Looped (h : Host) (j : Job) (d : Location) (t : Tree) (w : World) (r : Except HostError Nat)
    (w' : World) : Prop :=
  ∃ reads, Drains h [j] w reads r w' ∧ ∀ b origin, Original b h j.source origin d t →
    b.get? origin = some .directory → Tour j.source (Directories b origin) r.isOk reads

/-- The loop comes to this end with the jobs for these directories. -/
def LoopedAll (h : Host) (j : Job) (d : Location) (t : Tree) (names : List String) (w : World)
    (r : Except HostError Nat) (w' : World) : Prop :=
  ∃ reads, Drains h (j.innerAll names) w reads r w' ∧
    ∀ b origin, Original b h j.source origin d t →
      b.find true h.cwd j.source = .ok (origin, .directory) →
      (∀ name ∈ names, Plain name ∧ b.get? (name :: origin) = some .directory) →
      Tour j.source (DirectoriesIn b origin names) r.isOk reads

section
variable {h : Host} {j : Job} {d : Location} {t : Tree} {name : String}
  {names others : List String} {w w₁ w₂ : World} {r : Except HostError Nat} {e : HostError}
  {files : Nat}

theorem LoopedAll.nil : LoopedAll h j d t [] w (.ok 0) w := by
  refine ⟨[], .done, ?_⟩
  intro b origin _ _ _
  apply Tour.nothing
  intro way inside
  obtain ⟨name, there, -⟩ := inside
  cases there

theorem LoopedAll.halted (first : LoopedAll h j d t others w (.error e) w₁) (name : String) :
    LoopedAll h j d t (name :: others) w (.error e) w₁ := by
  obtain ⟨reads, drained, toured⟩ := first
  refine ⟨reads, ?_, ?_⟩
  · rw [Job.innerAll_cons]
    exact drained.halted _
  · intro b origin o led directories
    exact (toured b origin o led fun other there =>
      directories other (List.mem_cons_of_mem _ there)).stopped fun way inside =>
        directoriesIn_cons.mp (.inl inside)

theorem LoopedAll.cons (first : LoopedAll h j d t others w (.ok files) w₁) (fresh : name ∉ others)
    (grown : Adds (Below d) t w₁.tree)
    (last : Looped h (j.inner name) (name :: d) w₁.tree w₁ r w₂) :
    LoopedAll h j d t (name :: others) w (r.map (files + ·)) w₂ := by
  obtain ⟨reads, drained, toured⟩ := first
  obtain ⟨reads', drained', toured'⟩ := last
  refine ⟨reads ++ reads', ?_, ?_⟩
  · rw [Job.innerAll_cons]
    exact drained.followed drained'
  · intro b origin o led directories
    obtain ⟨plain, directory⟩ := directories name List.mem_cons_self
    have o' := (o.kept (grown.mono fun _ => suffix_of_below)).inner led plain directory
    have before := toured b origin o led fun other there =>
      directories other (List.mem_cons_of_mem _ there)
    rw [isOk_map]
    exact (before.append (toured' b _ o' directory).inner fun way =>
      directoriesIn_apart fresh).congr fun way => directoriesIn_cons

/-- The directories among the entries are copied one after the other. Each is ready when its turn
comes, since what is copied before does not touch it. -/
theorem ensures_loopEach {fill : String → Attempt Nat} (distinct : names.Nodup)
    (each : ∀ name ∈ names, ∀ w₁ : World, Proper w₁.tree → Ready h j.target d t name w₁.tree →
      Ensures (fill name) w₁ fun r w₂ => Adds (Below (name :: d)) w₁.tree w₂.tree ∧
        Proper w₂.tree ∧ Looped h (j.inner name) (name :: d) w₁.tree w₁ r w₂)
    (proper : Proper w.tree) (ready : ∀ name ∈ names, Ready h j.target d t name w.tree) :
    Ensures (Workspace.copyEach fill names) w fun r w' =>
      Adds (Filled names d) w.tree w'.tree ∧ Proper w'.tree ∧
        LoopedAll h j d t names w r w' := by
  induction names generalizing w with
  | nil => exact ⟨Adds.refl _ _, proper, .nil⟩
  | cons name others ih =>
    obtain ⟨fresh, distinct⟩ := List.nodup_cons.mp distinct
    have wider (m : Location) (hm : Filled others d m) : Filled (name :: others) d m := by
      obtain ⟨other, ho, below⟩ := hm
      exact ⟨other, List.mem_cons_of_mem _ ho, below⟩
    apply ensures_bind (ih distinct (fun other there => each other (List.mem_cons_of_mem _ there))
      proper fun other there => ready other (List.mem_cons_of_mem _ there))
    · intro e w₁ post
      obtain ⟨added, proper₁, looped⟩ := post
      exact ⟨added.mono wider, proper₁, looped.halted name⟩
    · intro files w₁ post
      obtain ⟨added, proper₁, looped⟩ := post
      have ready₁ := (ready name List.mem_cons_self).kept fresh added
      have both {w₂ : World} (more : Adds (Below (name :: d)) w₁.tree w₂.tree) :
          Adds (Filled (name :: others) d) w.tree w₂.tree :=
        added.trans more wider fun m hm => ⟨name, List.mem_cons_self, hm⟩
      apply ensures_bind (each name List.mem_cons_self w₁ proper₁ ready₁)
      · intro e w₂ post
        obtain ⟨more, proper₂, last⟩ := post
        exact ⟨both more, proper₂, looped.cons fresh ready₁.grown last⟩
      · intro more w₂ post
        obtain ⟨more, proper₂, last⟩ := post
        exact ensures_pure ⟨both more, proper₂, looped.cons fresh ready₁.grown last⟩

/-- A directory is read, and then all directories in it. -/
theorem LoopedAll.turned (copied : after (turn h j) w = (.ok (names, files), w₁))
    (turned : Turned h j d w.tree names w₁.tree) (rest : LoopedAll h j d w.tree names w₁ r w₂) :
    Looped h j d w.tree w (r.map (files + ·)) w₂ := by
  obtain ⟨reads, drained, toured⟩ := rest
  refine ⟨j.source :: reads, .next copied ?_, ?_⟩
  · rw [List.append_nil]
    exact drained
  · intro b origin o directory
    obtain ⟨led, listed⟩ := turned.directories b origin o
    have inner := toured b origin o led fun name there =>
      ⟨turned.plain name there, (listed name).mp there⟩
    rw [isOk_map]
    refine (Tour.self.append inner ?_).congr fun way => directories_eq o.proper directory listed
    intro way none_left inside
    obtain ⟨name, -, init, same, -⟩ := inside
    exact List.append_ne_nil_of_right_ne_nil init (List.cons_ne_nil name []) (same ▸ none_left)

end

theorem size_join {base name : String} (some_base : base ≠ "") (plain : Plain name) :
    base.utf8ByteSize < (Path.join base name).utf8ByteSize := by
  obtain ⟨more, text⟩ := join_eq some_base plain
  rw [text, String.utf8ByteSize_append]
  apply Nat.lt_add_of_pos_right
  apply Nat.pos_of_ne_zero
  intro empty
  rw [String.utf8ByteSize_eq_zero_iff.mp empty, String.append_empty] at text
  obtain ⟨names, shorter, longer⟩ := segments_join some_base plain
  rw [text] at longer
  rcases shorter with same | slash
  · exact List.cons_ne_nil name [] (List.append_right_eq_self.mp (longer.symm.trans same))
  · exact plain.nonempty (List.cons.inj (List.append_cancel_left (longer.symm.trans slash))).1

section
variable {h : Host} {source target : String} {d : Location} {w : World}
  (arranged : ∀ l names, (h.arrange l names).Perm names)

/-- A recursion that is deep enough is one turn of the loop and then all others. -/
theorem copyBelow_succ (depth : Nat) :
    Workspace.copyBelow h (depth + 1) source target = do
      let (names, files) ← turn h ⟨source, target⟩
      let more ← Workspace.copyEach (fun name =>
        Workspace.copyBelow h depth (Path.join source name) (Path.join target name)) names
      return files + more := by
  simp only [Workspace.copyBelow, turn, bind_assoc]

include arranged in
/-- The recursion does what the loop does, since the target is at most as deep as its path is
long. -/
theorem ensures_looped (depth : Nat) (enough : Tree.pathLimit ≤ depth + target.utf8ByteSize)
    (proper : Proper w.tree) (found : w.tree.find true h.cwd target = .ok (d, .directory))
    (empty : Empty w.tree d) :
    Ensures (Workspace.copyBelow h depth source target) w
      (Looped h ⟨source, target⟩ d w.tree w) := by
  induction depth generalizing source target d w with
  | zero =>
    have short := short_of_find found
    omega
  | succ depth ih =>
    rw [copyBelow_succ]
    have first : Ensures (turn h ⟨source, target⟩) w fun r w' =>
        (r, w') = after (turn h ⟨source, target⟩) w ∧ Adds (Below d) w.tree w'.tree ∧
          Proper w'.tree ∧ ∀ names files, r = .ok (names, files) →
            Turned h ⟨source, target⟩ d w.tree names w'.tree :=
      ⟨rfl, ensures_turn arranged proper found empty⟩
    apply ensures_bind first
    · intro e w₁ post
      obtain ⟨stopped, -⟩ := post
      refine ⟨[source], .stopped stopped.symm, ?_⟩
      intro b origin _ directory
      have self : Tour source (· = []) true [source] := Tour.self
      refine self.stopped ?_
      intro way here
      subst here
      exact directory
    · intro copied w₁ post
      obtain ⟨names, files⟩ := copied
      obtain ⟨copied, grown, proper₁, done⟩ := post
      have turned := done names files rfl
      have each : ∀ name ∈ names, ∀ w₂ : World, Proper w₂.tree →
          Ready h target d w.tree name w₂.tree →
          Ensures (Workspace.copyBelow h depth (Path.join source name) (Path.join target name)) w₂
            fun r w₃ => Adds (Below (name :: d)) w₂.tree w₃.tree ∧ Proper w₃.tree ∧
              Looped h ⟨Path.join source name, Path.join target name⟩ (name :: d) w₂.tree w₂ r
                w₃ := by
        intro name there w₂ proper₂ ready
        have longer := size_join (base_ne found) (turned.plain name there)
        have done : Ensures (Workspace.copyBelow h depth (Path.join source name) _) w₂ _ :=
          ensures_copyBelow arranged depth proper₂ ready.found ready.empty
        obtain ⟨added, proper₃, -⟩ := done
        exact ⟨added, proper₃, ih (by omega) proper₂ ready.found ready.empty⟩
      apply ensures_bind (ensures_loopEach turned.distinct each proper₁ turned.ready)
      · intro e w₂ post
        obtain ⟨-, -, rest⟩ := post
        exact rest.turned copied.symm turned
      · intro more w₂ post
        obtain ⟨-, -, rest⟩ := post
        exact ensures_pure (rest.turned copied.symm turned)

end

/-- What is noted when a workspace has been made. -/
def madeNoted (ws : Workspace) : Event :=
  ⟨.workspaces, .info, "Created workspace", [("workspace", .text ws.path)]⟩

/-- What comes of a workspace after the loop. -/
def provided (h : Host) (library : String) (ws : Workspace) :
    Except HostError Nat × World → Except Failure Workspace × World
  | (.ok files, w) => (.ok ws, { w with log := w.log ++ [countNoted files] })
  | (.error e, w) => (.error (.provisioning library e), (after (h.removeAll ws.path) w).2)

theorem provided_failed {h : Host} {library : String} {ws : Workspace}
    {copied : Except HostError Nat × World} (failed : copied.1.isOk = false) :
    ∃ e, (provided h library ws copied).1 = .error (.provisioning library e) := by
  obtain ⟨outcome, w⟩ := copied
  cases outcome with
  | error e => exact ⟨e, rfl⟩
  | ok files => cases failed

section
variable {h : Host} {library : String} {origin : Location} {w : World}

@[simp]
theorem after_inspect (path : String) :
    after (h.inspect path) w = ((w.tree.find true h.cwd path).map Prod.snd, w) := by
  simp only [Host.inspect, after_bind, after_ask]
  cases w.tree.find true h.cwd path with
  | error e => rfl
  | ok place => rfl

/-- Of a directory, provisioning makes a workspace, and then all depends on the loop. -/
theorem provision_directory (led : w.tree.find true h.cwd library = .ok (origin, .directory)) :
    after (Workspace.provision h library) w = match after (Workspace.temporary h) w with
      | (.error e, w₁) => (.error (.provisioning library e), w₁)
      | (.ok ws, w₁) => provided h library ws
          (after (Workspace.copyBelow h Tree.pathLimit library ws.path)
            { w₁ with log := w₁.log ++ [madeNoted ws] }) := by
  simp only [Workspace.provision, after_bind, after_attempt, after_inspect, led, Except.map,
    mapError_ok, Node.isDirectory, Bool.not_true, Bool.false_eq_true, if_false]
  cases after (Workspace.temporary h) w with
  | mk outcome w₁ =>
  cases outcome with
  | error e => rfl
  | ok ws =>
    simp only [mapError_ok, after_lift, run_note, after_outcomeOf, madeNoted]
    cases after (Workspace.copyBelow h Tree.pathLimit library ws.path)
        { w₁ with log := _ } with
    | mk outcome w₂ =>
    cases outcome with
    | error e => rfl
    | ok files => rfl

theorem after_provision {ws : Workspace} {w₁ : World}
    (led : w.tree.find true h.cwd library = .ok (origin, .directory))
    (made : after (Workspace.temporary h) w = (.ok ws, w₁)) :
    after (Workspace.provision h library) w = provided h library ws
      (after (Workspace.copyBelow h Tree.pathLimit library ws.path)
        { w₁ with log := w₁.log ++ [madeNoted ws] }) := by
  rw [provision_directory led, made]

end

/-- The workspace is at `l`, where nothing was. -/
structure Begun (h : Host) (t : Tree) (ws : Workspace) (l : Location) (t' : Tree) : Prop where
  free : t.get? l = none
  fresh : Fresh t l t'
  found : t'.find true h.cwd ws.path = .ok (l, .directory)

theorem begun_of_temporary {h : Host} {ws : Workspace} {w w₁ : World} (proper : Proper w.tree)
    (tags : ∀ n, '/' ∉ (h.tag n).toList)
    (made : after (Workspace.temporary h) w = (.ok ws, w₁)) : ∃ l, Begun h w.tree ws l w₁.tree := by
  obtain ⟨root, rooted⟩ := exists_rooted h w.tree
  have start := ensures_temporary proper tags rooted
  unfold Ensures at start
  rw [made] at start
  rcases start with ⟨_, l, same, found, placed, free, put⟩ | ⟨⟨e, failed⟩, -⟩
  · obtain rfl := Except.ok.inj same
    have fresh := placed.fresh proper (find_eq_ok.mp found).2 free put
    exact ⟨l, free, fresh, placed.found (find_mono fresh.added.extends found) fresh.directory true⟩
  · cases failed

/-- How the loop for a workspace at `l` ends, when the library was at `origin` in the tree `t`. -/
structure Ended (h : Host) (library : String) (t : Tree) (origin l : Location)
    (reads : List String) (outcome : Except HostError Nat) (t' : Tree) : Prop where
  /-- Only directories that the library had are read, each once, and all of them in the end. -/
  apart : ¬ origin <:+ l → Tour library (Directories t origin) outcome.isOk reads
  /-- A library in which its own workspace lies is never copied. -/
  overlap : origin <:+ l → outcome.isOk = false
  /-- The workspace does not hold itself. -/
  copied : outcome.isOk = true → Mirrors t h.cwd library origin t' l

section
variable {h : Host} {library : String} {origin l : Location} {ws : Workspace} {t t' : Tree}
  {w : World}

theorem Begun.original (begun : Begun h t ws l t') (proper : Proper t)
    (led : t.find true h.cwd library = .ok (origin, .directory)) (outside : ¬ origin <:+ l) :
    Original t h library origin l t' := by
  have before : Original t h library origin l t := by
    refine ⟨proper, Extends.refl t, fun _ => rfl, outside, ?_, fun _ _ _ _ => led⟩
    intro within
    cases (proper.none_within begun.free within).symm.trans (find_eq_ok.mp led).2
  exact before.kept begun.fresh.added

theorem ensures_ended (arranged : ∀ l names, (h.arrange l names).Perm names) (proper : Proper t)
    (led : t.find true h.cwd library = .ok (origin, .directory)) (begun : Begun h t ws l w.tree) :
    Ensures (Workspace.copyBelow h Tree.pathLimit library ws.path) w fun r w' => ∃ reads,
      Drains h [⟨library, ws.path⟩] w reads r w' ∧ Ended h library t origin l reads r w'.tree := by
  have both : Ensures (Workspace.copyBelow h Tree.pathLimit library ws.path) w fun r w' =>
      Looped h ⟨library, ws.path⟩ l w.tree w r w' ∧ ∀ files, r = .ok files →
        (∃ k, w.tree.find true h.cwd library = .ok (k, .directory) ∧ ¬ Below k l) ∧
        ∀ b origin, Original b h library origin l w.tree →
          Mirrors b h.cwd library origin w'.tree l := by
    have proper' := begun.fresh.proper
    have empty := begun.fresh.empty
    have copying : Ensures (Workspace.copyBelow h Tree.pathLimit library ws.path) w _ :=
      ensures_copyBelow arranged Tree.pathLimit proper' begun.found empty
    obtain ⟨-, -, done⟩ := copying
    refine ⟨ensures_looped arranged _ (Nat.le_add_right _ _) proper' begun.found empty, ?_⟩
    intro files ok
    obtain ⟨apart, whole, -⟩ := done files ok
    exact ⟨apart, whole⟩
  apply both.mono
  intro r w' post
  obtain ⟨⟨reads, drained, toured⟩, done⟩ := post
  have outside (ok : r.isOk = true) :
      ¬ origin <:+ l ∧ Mirrors t h.cwd library origin w'.tree l := by
    cases r with
    | error e => cases ok
    | ok files =>
      obtain ⟨⟨k, led', apart⟩, whole⟩ := done files rfl
      obtain ⟨rfl, -⟩ := find_unique led' (find_mono begun.fresh.added.extends led)
      have outside : ¬ k <:+ l := by
        intro within
        obtain ⟨way, rfl⟩ := within
        cases way with
        | nil => cases begun.free.symm.trans (find_eq_ok.mp led).2
        | cons name way => exact apart ⟨_, List.cons_ne_nil name way, rfl⟩
      exact ⟨outside, whole t k (begun.original proper led outside)⟩
  refine ⟨reads, drained, ?_, ?_, fun ok => (outside ok).2⟩
  · intro apart
    exact toured t origin (begun.original proper led apart) (find_eq_ok.mp led).2
  · intro within
    apply Bool.eq_false_iff.mpr
    intro ok
    exact (outside ok).1 within

end

/-- The loop that fills a workspace comes to one end, wherever the workspace is. Apart from the
library, it has read nothing but the library; in the library, it has failed. -/
theorem loop_ends {h : Host} {library : String} {origin : Location} {ws : Workspace} {w w₁ : World}
    (proper : Proper w.tree) (tags : ∀ n, '/' ∉ (h.tag n).toList)
    (arranged : ∀ l names, (h.arrange l names).Perm names)
    (led : w.tree.find true h.cwd library = .ok (origin, .directory))
    (made : after (Workspace.temporary h) w = (.ok ws, w₁)) :
    ∃ l reads outcome w₂, Begun h w.tree ws l w₁.tree ∧
      (∀ reads' outcome' w', Drains h [⟨library, ws.path⟩]
          { w₁ with log := w₁.log ++ [madeNoted ws] } reads' outcome' w' ↔
        reads' = reads ∧ outcome' = outcome ∧ w' = w₂) ∧
      after (Workspace.provision h library) w = provided h library ws (outcome, w₂) ∧
      Ended h library w.tree origin l reads outcome w₂.tree := by
  obtain ⟨l, begun⟩ := begun_of_temporary proper tags made
  have done := ensures_ended (w := { w₁ with log := w₁.log ++ [madeNoted ws] }) arranged proper led
    begun
  obtain ⟨reads, drained, ended⟩ := done
  refine ⟨l, reads, _, _, begun, ?_, after_provision led made, ended⟩
  intro reads' outcome' w'
  constructor
  · exact drained.unique
  · intro same
    obtain ⟨rfl, rfl, rfl⟩ := same
    exact drained

def sampleMade : World := (after (Workspace.temporary sampleHost) { tree := sampleLibrary }).2

theorem made_sample : (after (Workspace.temporary sampleHost)
    { tree := sampleLibrary }).1.toOption = some ⟨"/tmp/scriptlet-x"⟩ := by
  decide +kernel

theorem loop_ends_sample : ∃ l reads outcome w₂,
    Begun sampleHost sampleLibrary ⟨"/tmp/scriptlet-x"⟩ l sampleMade.tree ∧
      (∀ reads' outcome' w', Drains sampleHost [⟨"/lib", "/tmp/scriptlet-x"⟩]
          { sampleMade with log := sampleMade.log ++ [madeNoted ⟨"/tmp/scriptlet-x"⟩] }
          reads' outcome' w' ↔
        reads' = reads ∧ outcome' = outcome ∧ w' = w₂) ∧
      after (Workspace.provision sampleHost "/lib") { tree := sampleLibrary } =
        provided sampleHost "/lib" ⟨"/tmp/scriptlet-x"⟩ (outcome, w₂) ∧
      Ended sampleHost "/lib" sampleLibrary ["lib"] l reads outcome w₂.tree :=
  loop_ends (w := { tree := sampleLibrary }) proper_sampleLibrary setting_sample.tags
    setting_sample.arranged rfl (eq_of_toOption made_sample)

/-- Temporary files are put into the library. -/
def sampleOverlapped : Host := { sampleHost with env := [("TMPDIR", "/lib")] }

def sampleWithin : World :=
  (after (Workspace.temporary sampleOverlapped) { tree := sampleTree }).2

theorem made_sampleWithin : (after (Workspace.temporary sampleOverlapped)
    { tree := sampleTree }).1.toOption = some ⟨"/lib/scriptlet-x"⟩ := by
  decide +kernel

theorem placed_sampleWithin : (sampleWithin.tree.find true sampleOverlapped.cwd
    "/lib/scriptlet-x").toOption.map Prod.fst = some ["scriptlet-x", "lib"] := by
  decide +kernel

/-- The workspace is listed in the library, after the file that was there before. -/
theorem turn_sampleWithin : (after (turn sampleOverlapped ⟨"/lib", "/lib/scriptlet-x"⟩)
    { sampleWithin with log := sampleWithin.log ++ [madeNoted ⟨"/lib/scriptlet-x"⟩] }).1.toOption =
      some ([] ++ ["scriptlet-x"], 1) := by
  decide +kernel

/-- The last of the directories is read next. -/
theorem Drains.reads_last {h : Host} {j : Job} {rest : List Job} {w w' : World}
    {names reads : List String} {name : String} {files : Nat} {outcome : Except HostError Nat}
    (copied : (after (turn h j) w).1.toOption = some (names ++ [name], files))
    (drained : Drains h (j :: rest) w reads outcome w') : Path.join j.source name ∈ reads := by
  cases drained with
  | stopped fails =>
    rw [fails] at copied
    cases copied
  | next copied' more =>
    rw [copied'] at copied
    cases copied
    have last : j.innerAll (names ++ [name]) = j.inner name :: j.innerAll names := by
      simp [Job.innerAll]
    rw [last] at more
    apply List.mem_cons_of_mem
    cases more with
    | stopped fails => exact List.mem_cons_self
    | next copied more => exact List.mem_cons_self

/-- With its temporary files in the library, the loop reads the workspace that it fills, and the
library, which is one file, is not copied. -/
theorem workspace_read_sample :
    (∀ reads outcome w', Drains sampleOverlapped [⟨"/lib", "/lib/scriptlet-x"⟩]
        { sampleWithin with log := sampleWithin.log ++ [madeNoted ⟨"/lib/scriptlet-x"⟩] }
        reads outcome w' → "/lib/scriptlet-x" ∈ reads) ∧
      ∃ e, (after (Workspace.provision sampleOverlapped "/lib") { tree := sampleTree }).1 =
        .error (.provisioning "/lib" e) := by
  have proper : Proper ({ tree := sampleTree } : World).tree := setting_sample.proper
  have tags : ∀ n, '/' ∉ (sampleOverlapped.tag n).toList := setting_sample.tags
  have arranged : ∀ l names, (sampleOverlapped.arrange l names).Perm names :=
    setting_sample.arranged
  have led : sampleTree.find true sampleOverlapped.cwd "/lib" = .ok (["lib"], .directory) := rfl
  have made : after (Workspace.temporary sampleOverlapped) { tree := sampleTree } =
      (.ok ⟨"/lib/scriptlet-x"⟩, sampleWithin) := eq_of_toOption made_sampleWithin
  constructor
  · intro reads outcome w' drained
    have text : Path.join "/lib" "scriptlet-x" = "/lib/scriptlet-x" := by decide +kernel
    rw [← text]
    exact drained.reads_last turn_sampleWithin
  · obtain ⟨l, begun⟩ := begun_of_temporary proper tags made
    have placed := placed_sampleWithin
    have found : sampleWithin.tree.find true sampleOverlapped.cwd "/lib/scriptlet-x" =
        .ok (l, .directory) := begun.found
    rw [found] at placed
    obtain rfl := Option.some.inj placed
    have done := ensures_ended
      (w := { sampleWithin with log := sampleWithin.log ++ [madeNoted ⟨"/lib/scriptlet-x"⟩] })
      arranged proper led begun
    obtain ⟨reads, -, ended⟩ := done
    rw [after_provision led made]
    exact provided_failed (ended.overlap ⟨["scriptlet-x"], rfl⟩)

end ScriptSandbox.Proofs.CopyLoop
