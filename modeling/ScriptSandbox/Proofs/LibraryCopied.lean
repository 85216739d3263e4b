import ScriptSandbox.Proofs.FileSteps
import ScriptSandbox.Sandbox.Workspace

namespace ScriptSandbox.Proofs.LibraryCopied
open ScriptSandbox.Tree TreeGrowth Resolution FileSteps

def Below (l m : Location) : Prop := ∃ way, way ≠ [] ∧ m = way ++ l

theorem length_of_below {l m : Location} (h : Below l m) : l.length < m.length := by
  obtain ⟨way, some_way, rfl⟩ := h
  have some_names := List.length_pos_iff.mpr some_way
  rw [List.length_append]
  omega

theorem not_below {l : Location} : ¬ Below l l := fun h => Nat.lt_irrefl _ (length_of_below h)

theorem not_below_beside {a b : String} {l : Location} : ¬ Below (a :: l) (b :: l) :=
  fun h => Nat.lt_irrefl (l.length + 1) (length_of_below h)

def Empty (t : Tree) (l : Location) : Prop := ∀ m, Below l m → t.get? m = none

/-- The path of what lies at `way`, seen from the directory of the path `base`. -/
def under (base : String) (way : Location) : String :=
  way.foldr (fun name path => Path.join path name) base

/-- What a copy has for a node. The library is looked at in the tree `t`, at a path. A link is
copied as the file that it leads to, and left out if it leads to anything else. One that led to
nothing in `t` may lead to a file by the time it is copied. -/
inductive Twin (t : Tree) (cwd : Location) (path : String) : Option Node → Option Node → Prop
  | nothing : Twin t cwd path none none
  | directory : Twin t cwd path (some .directory) (some .directory)
  | file (mode : Nat) (content : Bytes) :
      Twin t cwd path (some (.file mode content)) (some (.file mode content))
  | linked {target : String} {l : Location} {mode : Nat} {content : Bytes}
      (led : t.find true cwd path = .ok (l, .file mode content)) :
      Twin t cwd path (some (.link target)) (some (.file mode content))
  | skipped {target : String} {l : Location} {node : Node}
      (led : t.find true cwd path = .ok (l, node)) (no_file : node.isFile = false) :
      Twin t cwd path (some (.link target)) none
  | dangling {target : String} {e : HostError} {copied : Option Node}
      (lost : t.find true cwd path = .error e)
      (file : copied = none ∨ ∃ mode content, copied = some (.file mode content)) :
      Twin t cwd path (some (.link target)) copied

/-- What lies below `l` in the tree `t'` is a copy of what lies below `origin` in `t`. -/
def Mirrors (t : Tree) (cwd : Location) (source : String) (origin : Location) (t' : Tree)
    (l : Location) : Prop :=
  ∀ way, way ≠ [] → Twin t cwd (under source way) (t.get? (way ++ origin)) (t'.get? (way ++ l))

theorem Mirrors.unchanged {t t' t'' : Tree} {cwd origin l : Location} {library : String}
    (mirrors : Mirrors t cwd library origin t' l)
    (same : ∀ m, l <:+ m → t''.get? m = t'.get? m) : Mirrors t cwd library origin t'' l := by
  intro way some_way
  rw [same _ (List.suffix_append way l)]
  exact mirrors way some_way

/-- The tree has grown by so many files. Each is new below `d`, and is the file that the same way
leads to from the path `source`. -/
structure Filed (cwd : Location) (source : String) (d : Location) (t t' : Tree) (files : Nat) :
    Prop where
  grown : Extends t t'
  counted : ∃ new : List Location, new.Nodup ∧ new.length = files ∧
    ∀ m, m ∈ new ↔ t.get? m = none ∧ ∃ mode content, t'.get? m = some (.file mode content)
  led : ∀ m mode content, t.get? m = none → t'.get? m = some (.file mode content) →
    ∃ way l, m = way ++ d ∧ t'.find true cwd (under source way) = .ok (l, .file mode content)

section
variable {cwd d : Location} {source name : String} {t t' t'' : Tree} {files more : Nat}

theorem Filed.refl (cwd : Location) (source : String) (d : Location) (t : Tree) :
    Filed cwd source d t t 0 := by
  refine ⟨fun _ _ => id, ⟨[], List.nodup_nil, rfl, ?_⟩, ?_⟩
  · intro m
    refine iff_of_false List.not_mem_nil ?_
    rintro ⟨free, mode, content, there⟩
    cases free.symm.trans there
  · intro m mode content free there
    cases free.symm.trans there

theorem Filed.trans (first : Filed cwd source d t t' files)
    (second : Filed cwd source d t' t'' more) : Filed cwd source d t t'' (files + more) := by
  obtain ⟨new, distinct, length, new_iff⟩ := first.counted
  obtain ⟨newer, distinct', length', newer_iff⟩ := second.counted
  refine ⟨first.grown.trans second.grown, ⟨new ++ newer, ?_, ?_, ?_⟩, ?_⟩
  · refine List.nodup_append.mpr ⟨distinct, distinct', ?_⟩
    rintro m there _ later rfl
    obtain ⟨-, mode, content, there⟩ := (new_iff m).mp there
    cases ((newer_iff m).mp later).1.symm.trans there
  · rw [List.length_append, length, length']
  · intro m
    rw [List.mem_append, new_iff, newer_iff]
    constructor
    · rintro (⟨free, mode, content, there⟩ | ⟨free, there⟩)
      · exact ⟨free, mode, content, second.grown _ _ there⟩
      · refine ⟨?_, there⟩
        cases before : t.get? m with
        | none => rfl
        | some node => cases free.symm.trans (first.grown _ _ before)
    · rintro ⟨free, mode, content, there⟩
      cases between : t'.get? m with
      | none => exact .inr ⟨rfl, mode, content, there⟩
      | some node =>
        refine .inl ⟨free, mode, content, ?_⟩
        rw [← there]
        exact (second.grown _ _ between).symm
  · intro m mode content free there
    cases between : t'.get? m with
    | none => exact second.led m mode content between there
    | some node =>
      have still : t'.get? m = some (.file mode content) := by
        rw [between, ← there]
        exact (second.grown _ _ between).symm
      obtain ⟨way, l, place, found⟩ := first.led m mode content free still
      exact ⟨way, l, place, find_mono second.grown found⟩

/-- A file is new where it has been put. -/
theorem Filed.file (free : t.get? (name :: d) = none) {l : Location} {mode : Nat} {content : Bytes}
    (origin : t.find true cwd (Path.join source name) = .ok (l, .file mode content)) :
    Filed cwd source d t (t.put (name :: d) (.file mode content)) 1 := by
  have added := Adds.put free (.file mode content)
  have put : (t.put (name :: d) (.file mode content)).get? (name :: d) =
      some (.file mode content) := by simp
  have only {m : Location} {node : Node} (free : t.get? m = none)
      (there : (t.put (name :: d) (.file mode content)).get? m = some node) : m = name :: d := by
    apply Decidable.by_contra
    intro other
    cases free.symm.trans ((added.elsewhere other).symm.trans there)
  refine ⟨added.extends, ⟨[name :: d], List.pairwise_singleton _ _, rfl, ?_⟩, ?_⟩
  · intro m
    rw [List.mem_singleton]
    constructor
    · rintro rfl
      exact ⟨free, mode, content, put⟩
    · rintro ⟨free, _, _, there⟩
      exact only free there
  · intro m mode' content' free there
    obtain rfl := only free there
    cases put.symm.trans there
    exact ⟨[name], l, rfl, find_mono added.extends origin⟩

/-- No file is new where a directory has been put. -/
theorem Filed.directory (free : t.get? (name :: d) = none) :
    Filed cwd source d t (t.put (name :: d) .directory) 0 := by
  have added := Adds.put free .directory
  have put : (t.put (name :: d) .directory).get? (name :: d) = some .directory := by simp
  have none_new {m : Location} {mode : Nat} {content : Bytes} (free : t.get? m = none)
      (there : (t.put (name :: d) .directory).get? m = some (.file mode content)) : False := by
    by_cases same : m = name :: d
    · subst same
      cases put.symm.trans there
    · cases free.symm.trans ((added.elsewhere same).symm.trans there)
  refine ⟨added.extends, ⟨[], List.nodup_nil, rfl, ?_⟩, ?_⟩
  · intro m
    refine iff_of_false List.not_mem_nil ?_
    rintro ⟨free, mode, content, there⟩
    exact none_new free there
  · intro m mode content free there
    exact (none_new free there).elim

theorem under_append (source name : String) (way : Location) :
    under source (way ++ [name]) = under (Path.join source name) way := by
  rw [under, List.foldr_append]
  rfl

/-- What is new in one of the directories in `d` is new below `d`. -/
theorem Filed.inner (filed : Filed cwd (Path.join source name) (name :: d) t t' files) :
    Filed cwd source d t t' files := by
  refine ⟨filed.grown, filed.counted, ?_⟩
  intro m mode content free there
  obtain ⟨way, l, rfl, found⟩ := filed.led m mode content free there
  refine ⟨way ++ [name], l, by simp, ?_⟩
  rw [under_append]
  exact found

end

section
variable {h : Host} {source target : String} {d : Location} {entries others : List (String × Node)}
  {t t' t'' : Tree} {name : String} {node : Node} {names : List String}

/-- The path of an entry leads to it, unless it is a link, in the tree `t` and all larger ones. -/
def Reliable (t : Tree) (cwd : Location) (source : String) (e : String × Node) : Prop :=
  (∀ target, e.2 ≠ .link target) → ∀ t' l node, Extends t t' →
    t'.find true cwd (Path.join source e.1) = .ok (l, node) → node = e.2

/-- The entries of a directory have been copied, and these directories are among them. -/
structure EntriesCopied (h : Host) (source target : String) (d : Location)
    (entries : List (String × Node)) (t t' : Tree) (names : List String) : Prop where
  listed : names.Sublist (entries.map Prod.fst)
  made : ∀ name ∈ names, Fits (Path.join target name) name ∧ t'.get? (name :: d) = some .directory
  directories : ∀ e ∈ entries, e.2 = .directory → e.1 ∈ names
  twins : ∀ b, Extends b t → ∀ e ∈ entries, Reliable b h.cwd source e →
    Twin b h.cwd (Path.join source e.1) (some e.2) (t'.get? (e.1 :: d))

/-- Where the entries are copied to. -/
def Entered (entries : List (String × Node)) (d : Location) (l : Location) : Prop :=
  ∃ e ∈ entries, l = e.1 :: d

theorem not_entered (fresh : name ∉ others.map Prod.fst) : ¬ Entered others d (name :: d) := by
  rintro ⟨e, he, same⟩
  obtain ⟨same, -⟩ := List.cons.inj same
  exact fresh (List.mem_map.mpr ⟨e, he, same.symm⟩)

theorem EntriesCopied.cons_directory (fresh : name ∉ others.map Prod.fst)
    (first : Extends t t') (made : t'.get? (name :: d) = some .directory)
    (fits : Fits (Path.join target name) name) (added : Adds (Entered others d) t' t'')
    (rest : EntriesCopied h source target d others t' t'' names) :
    EntriesCopied h source target d ((name, .directory) :: others) t t'' (name :: names) := by
  have still : t''.get? (name :: d) = some .directory := added.kept made
  refine ⟨rest.listed.cons_cons name, ?_, ?_, ?_⟩
  · intro other ho
    rcases List.mem_cons.mp ho with rfl | ho
    · exact ⟨fits, still⟩
    · exact rest.made other ho
  · intro e he directory
    rcases List.mem_cons.mp he with rfl | he
    · exact List.mem_cons_self
    · exact List.mem_cons_of_mem _ (rest.directories e he directory)
  · intro b smaller e he reliable
    rcases List.mem_cons.mp he with rfl | he
    · rw [still]
      exact .directory
    · exact rest.twins b (smaller.trans first) e he reliable

theorem EntriesCopied.cons_other (fresh : name ∉ others.map Prod.fst) (other : node ≠ .directory)
    (first : Extends t t')
    (twin : ∀ b, Extends b t → Reliable b h.cwd source (name, node) →
      Twin b h.cwd (Path.join source name) (some node) (t'.get? (name :: d)))
    (added : Adds (Entered others d) t' t'')
    (rest : EntriesCopied h source target d others t' t'' names) :
    EntriesCopied h source target d ((name, node) :: others) t t'' names := by
  refine ⟨rest.listed.cons name, rest.made, ?_, ?_⟩
  · intro e he directory
    rcases List.mem_cons.mp he with rfl | he
    · exact absurd directory other
    · exact rest.directories e he directory
  · intro b smaller e he reliable
    rcases List.mem_cons.mp he with rfl | he
    · rw [added.elsewhere (not_entered fresh)]
      exact twin b smaller reliable
    · exact rest.twins b (smaller.trans first) e he reliable

/-- The entries have room in the directory `d`, which is the target. -/
structure Room (h : Host) (target : String) (d : Location) (entries : List (String × Node))
    (t : Tree) : Prop where
  proper : Proper t
  found : t.find true h.cwd target = .ok (d, .directory)
  plain : ∀ e ∈ entries, Plain e.1
  free : ∀ e ∈ entries, t.get? (e.1 :: d) = none
  distinct : (entries.map Prod.fst).Nodup

theorem Room.tail (room : Room h target d ((name, node) :: others) t)
    (added : Adds (· = name :: d) t t') (proper : Proper t') : Room h target d others t' := by
  have fresh := (List.nodup_cons.mp room.distinct).1
  refine ⟨proper, find_mono added.extends room.found, ?_, ?_, (List.nodup_cons.mp room.distinct).2⟩
  · exact fun e he => room.plain e (List.mem_cons_of_mem _ he)
  · intro e he
    rw [added.elsewhere]
    · exact room.free e (List.mem_cons_of_mem _ he)
    · intro same
      obtain ⟨same, -⟩ := List.cons.inj same
      exact fresh (List.mem_map.mpr ⟨e, he, same⟩)

theorem Room.put (room : Room h target d ((name, node) :: others) t) (copied : Node) :
    Adds (· = name :: d) t (t.put (name :: d) copied) ∧ Proper (t.put (name :: d) copied) := by
  have free := room.free _ List.mem_cons_self
  exact ⟨Adds.put free copied, room.proper.put free (find_eq_ok.mp room.found).2
    (room.plain _ List.mem_cons_self)⟩

/-- What is so after entries have been copied from the tree `t` on, with success or without. -/
def EntriesPost (h : Host) (source target : String) (d : Location) (entries : List (String × Node))
    (t : Tree) (r : Except HostError (List String × Nat)) (w' : World) : Prop :=
  Adds (Entered entries d) t w'.tree ∧ Proper w'.tree ∧
    ∀ names files, r = .ok (names, files) →
      EntriesCopied h source target d entries t w'.tree names ∧
        Filed h.cwd source d t w'.tree files

theorem EntriesPost.failed (proper : Proper t) {w' : World} (same : w'.tree = t) (e : HostError) :
    EntriesPost h source target d entries t (.error e) w' := by
  subst same
  exact ⟨Adds.refl _ _, proper, nofun⟩

/-- The entries after the first one. -/
theorem EntriesPost.cons {r r' : Except HostError (List String × Nat)} {w' : World} {one : Nat}
    (first : Adds (· = name :: d) t t') (filed : Filed h.cwd source d t t' one)
    (rest : EntriesPost h source target d others t' r w')
    (next : ∀ names files, r' = .ok (names, files) → ∃ names' files', r = .ok (names', files') ∧
      files = one + files' ∧
      (EntriesCopied h source target d others t' w'.tree names' →
        EntriesCopied h source target d ((name, node) :: others) t w'.tree names)) :
    EntriesPost h source target d ((name, node) :: others) t r' w' := by
  obtain ⟨added, proper, copied⟩ := rest
  refine ⟨first.trans added ?_ ?_, proper, ?_⟩
  · intro l here
    exact ⟨_, List.mem_cons_self, here⟩
  · rintro l ⟨e, he, same⟩
    exact ⟨e, List.mem_cons_of_mem _ he, same⟩
  · intro names files done
    obtain ⟨names', files', rest_done, rfl, longer⟩ := next names files done
    obtain ⟨copied, rest_filed⟩ := copied names' files' rest_done
    exact ⟨longer copied, filed.trans rest_filed⟩

theorem ensures_leadsToFile {w : World} (path : String) :
    Ensures (Workspace.leadsToFile h path) w fun r w' => w' = w ∧ ∃ answer, r = .ok answer ∧
      (answer = true → ∃ l mode content,
        w.tree.find true h.cwd path = .ok (l, .file mode content)) ∧
      (answer = false → ∀ l node, w.tree.find true h.cwd path = .ok (l, node) →
        node.isFile = false) := by
  apply ensures_outcomeOf (ensures_inspect path)
  intro outcome w' post
  rcases post with ⟨rfl, there, lost⟩
  cases outcome with
  | ok node =>
    obtain ⟨l, found⟩ := there node rfl
    refine ⟨rfl, node.isFile, rfl, ?_, ?_⟩
    · intro file
      cases node with
      | file mode content => exact ⟨l, mode, content, found⟩
      | directory => cases file
      | link target => cases file
      | device content => cases file
      | socket => cases file
    · intro no_file l' node' found'
      obtain ⟨rfl, rfl⟩ := find_unique found found'
      exact no_file
  | error e =>
    refine ⟨rfl, false, rfl, nofun, ?_⟩
    intro _ l node found
    cases (lost e rfl).symm.trans found

/-- What a link is copied as, whether it leads to a file or not. -/
theorem twin_link {b : Tree} {path link : String} (smaller : Extends b t) :
    (∀ l mode content, t.find true h.cwd path = .ok (l, .file mode content) →
      Twin b h.cwd path (some (.link link)) (some (.file mode content))) ∧
    ((∀ l node, t.find true h.cwd path = .ok (l, node) → node.isFile = false) →
      Twin b h.cwd path (some (.link link)) none) := by
  cases led : b.find true h.cwd path with
  | error e => exact ⟨fun _ mode content _ => .dangling led (.inr ⟨mode, content, rfl⟩),
      fun _ => .dangling led (.inl rfl)⟩
  | ok place =>
    obtain ⟨l, node⟩ := place
    have still := find_mono smaller led
    refine ⟨?_, fun no_file => .skipped led (no_file l node still)⟩
    intro l' mode content found
    obtain ⟨rfl, rfl⟩ := find_unique still found
    exact .linked led

/-- Entries are copied from any tree that has room for them. -/
def Copyable (h : Host) (source target : String) (d : Location) (entries : List (String × Node)) :
    Prop :=
  ∀ w : World, Room h target d entries w.tree →
    Ensures (Workspace.copyEntries h source target entries) w
      (EntriesPost h source target d entries w.tree)

/-- A regular file, or what a link leads to, is copied before the other entries are. -/
theorem ensures_fileFirst {w : World} (rest : Copyable h source target d others)
    (room : Room h target d ((name, node) :: others) w.tree) (other : node ≠ .directory)
    (twin : ∀ b, Extends b w.tree → Reliable b h.cwd source (name, node) → ∀ l mode content,
      w.tree.find true h.cwd (Path.join source name) = .ok (l, .file mode content) →
      Twin b h.cwd (Path.join source name) (some node) (some (.file mode content))) :
    Ensures (do
      h.copy (Path.join source name) (Path.join target name)
      let (directories, files) ← Workspace.copyEntries h source target others
      return (directories, files + 1)) w
      (EntriesPost h source target d ((name, node) :: others) w.tree) := by
  have fresh := (List.nodup_cons.mp room.distinct).1
  have plain := room.plain _ List.mem_cons_self
  have free := room.free _ List.mem_cons_self
  apply ensures_bind (ensures_copy room.found plain free)
  · intro e w' post
    rcases post with ⟨none_left, -⟩ | ⟨-, rfl⟩
    · cases none_left
    · exact EntriesPost.failed room.proper rfl e
  · intro _ w' post
    rcases post with ⟨-, l, mode, content, origin, put⟩ | ⟨⟨e, none_left⟩, -⟩
    · obtain ⟨added, proper⟩ := room.put (.file mode content)
      have filed := Filed.file free origin
      rw [← put] at added proper filed
      have there : w'.tree.get? (name :: d) = some (.file mode content) := by simp [put]
      apply ensures_bind (rest w' (room.tail added proper))
      · intro e w'' done
        exact done.cons added filed nofun
      · rintro ⟨directories, files⟩ w'' done
        apply ensures_pure
        apply done.cons added filed
        intro names files' same
        obtain ⟨rfl, rfl⟩ := Prod.mk.inj (Except.ok.inj same)
        refine ⟨directories, files, rfl, Nat.add_comm _ _, ?_⟩
        apply EntriesCopied.cons_other fresh other added.extends _ done.1
        intro b smaller reliable
        rw [there]
        exact twin b smaller reliable l mode content origin
    · cases none_left

/-- For a directory an empty one is made. -/
theorem ensures_directoryFirst {w : World} (rest : Copyable h source target d others)
    (room : Room h target d ((name, .directory) :: others) w.tree) :
    Ensures (do
      h.makeDirectory (Path.join target name)
      let (directories, files) ← Workspace.copyEntries h source target others
      return (name :: directories, files)) w
      (EntriesPost h source target d ((name, .directory) :: others) w.tree) := by
  have fresh := (List.nodup_cons.mp room.distinct).1
  apply ensures_bind (ensures_makeDirectory room.proper (base_ne room.found)
    (room.plain _ List.mem_cons_self))
  · intro e w' post
    rcases post with ⟨_, none_left, -⟩ | ⟨-, rfl⟩
    · cases none_left
    · exact EntriesPost.failed room.proper rfl e
  · intro _ w' post
    rcases post with ⟨d', -, found, fits, -, put⟩ | ⟨⟨e, none_left⟩, -⟩
    · obtain ⟨rfl, -⟩ := find_unique room.found found
      obtain ⟨added, proper⟩ := room.put .directory
      have filed : Filed h.cwd source d w.tree _ 0 :=
        Filed.directory (room.free _ List.mem_cons_self)
      rw [← put] at added proper filed
      have there : w'.tree.get? (name :: d) = some .directory := by simp [put]
      apply ensures_bind (rest w' (room.tail added proper))
      · intro e w'' done
        exact done.cons added filed nofun
      · rintro ⟨directories, files⟩ w'' done
        apply ensures_pure
        apply done.cons added filed
        intro names files' same
        obtain ⟨rfl, rfl⟩ := Prod.mk.inj (Except.ok.inj same)
        exact ⟨directories, files, rfl, (Nat.zero_add _).symm,
          EntriesCopied.cons_directory fresh added.extends there fits done.1⟩
    · cases none_left

/-- A link that leads to no file is left out. -/
theorem ensures_skippedFirst {w w' : World} {link : String} (same : w'.tree = w.tree)
    (rest : Copyable h source target d others)
    (room : Room h target d ((name, .link link) :: others) w.tree)
    (no_file : ∀ l node, w.tree.find true h.cwd (Path.join source name) = .ok (l, node) →
      node.isFile = false) :
    Ensures (Workspace.copyEntries h source target others) w'
      (EntriesPost h source target d ((name, .link link) :: others) w.tree) := by
  have fresh := (List.nodup_cons.mp room.distinct).1
  have nothing : Adds (· = name :: d) w.tree w'.tree := by rw [same]
  have proper : Proper w'.tree := by
    rw [same]
    exact room.proper
  have filed : Filed h.cwd source d w.tree w'.tree 0 := by
    rw [same]
    exact Filed.refl _ _ _ _
  apply (rest w' (room.tail nothing proper)).mono
  intro r w'' done
  apply done.cons nothing filed
  intro names files ok
  have other : Node.link link ≠ .directory := nofun
  refine ⟨names, files, ok, (Nat.zero_add _).symm, ?_⟩
  apply EntriesCopied.cons_other fresh other nothing.extends _ done.1
  intro b smaller _
  rw [same, room.free _ List.mem_cons_self]
  exact (twin_link smaller).2 no_file

/-- To be kept from going on to an entry leaves what has been copied as it is. -/
theorem ensures_permitted {w : World} {entries : List (String × Node)} {act : FileAct}
    {step : Attempt (List String × Nat)} (proper : Proper w.tree)
    (next : Ensures step w (EntriesPost h source target d entries w.tree)) :
    Ensures (do h.permit act; step) w (EntriesPost h source target d entries w.tree) := by
  apply ensures_bind (ensures_permit act)
  · intro e w' post
    obtain ⟨rfl, -⟩ := post
    exact EntriesPost.failed proper rfl e
  · intro _ w' post
    obtain ⟨rfl, -⟩ := post
    exact next

theorem copyable (entries : List (String × Node)) : Copyable h source target d entries := by
  induction entries with
  | nil =>
    intro w room
    apply ensures_permitted room.proper
    refine ⟨Adds.refl _ _, room.proper, ?_⟩
    intro names files done
    obtain ⟨rfl, rfl⟩ := Prod.mk.inj (Except.ok.inj done)
    exact ⟨⟨List.Sublist.refl _, nofun, nofun, nofun⟩, Filed.refl _ _ _ _⟩
  | cons entry others rest =>
    intro w room
    obtain ⟨name, node⟩ := entry
    apply ensures_permitted room.proper
    -- What is no link is copied as it is.
    have regular (other : node ≠ .directory) (no_link : ∀ target, node ≠ .link target) :=
      ensures_fileFirst rest room other fun b smaller reliable l mode content origin => by
        obtain rfl := reliable no_link w.tree l _ smaller origin
        exact .file mode content
    cases node with
    | directory => exact ensures_directoryFirst rest room
    | link link =>
      apply ensures_bind (ensures_leadsToFile _)
      · intro e w' post
        rcases post with ⟨-, answer, none_left, -⟩
        cases none_left
      · intro answer w' post
        rcases post with ⟨rfl, _, same, file, no_file⟩
        obtain rfl := Except.ok.inj same
        cases answer with
        | true =>
          exact ensures_fileFirst rest room nofun fun b smaller _ l mode content origin =>
            (twin_link smaller).1 l mode content origin
        | false =>
          apply ensures_note
          intro w'' same
          exact ensures_skippedFirst same rest room (no_file rfl)
    | file mode content => exact regular nofun nofun
    | device content => exact regular nofun nofun
    | socket => exact regular nofun nofun

end

theorem below_of_cons {name : String} {l m : Location} (h : Below (name :: l) m) : Below l m := by
  obtain ⟨way, -, rfl⟩ := h
  exact ⟨way ++ [name], List.append_ne_nil_of_right_ne_nil _ (List.cons_ne_nil _ _), by simp⟩

theorem suffix_of_below {l m : Location} (h : Below l m) : l <:+ m := by
  obtain ⟨way, -, rfl⟩ := h
  exact List.suffix_append way l

theorem below_of_entered {entries : List (String × Node)} {l m : Location}
    (h : Entered entries l m) : Below l m := by
  obtain ⟨e, -, rfl⟩ := h
  exact ⟨[e.1], List.cons_ne_nil _ _, rfl⟩

theorem below_unique {a b : String} {l m : Location} (ha : Below (a :: l) m)
    (hb : Below (b :: l) m) : a = b := by
  obtain ⟨way, -, rfl⟩ := ha
  obtain ⟨way', -, same⟩ := hb
  exact suffix_unique (List.suffix_append way _) (same ▸ List.suffix_append way' _)

/-- Where the directories of these names are filled. -/
def Filled (names : List String) (l m : Location) : Prop := ∃ name ∈ names, Below (name :: l) m

theorem below_of_filled {names : List String} {l m : Location} (h : Filled names l m) :
    Below l m := by
  obtain ⟨name, -, below⟩ := h
  exact below_of_cons below

/-- Directories are filled one after the other, the last one first. What each needs does not depend
on what lies below the others. -/
theorem ensures_copyEach {fill : String → Attempt Nat} {l : Location} {names : List String}
    {ready : String → Tree → Prop} {done : List String → Nat → Tree → Prop}
    (distinct : names.Nodup)
    (kept : ∀ {name others t t'}, name ∉ others → Adds (Filled others l) t t' →
      ready name t → ready name t')
    (each : ∀ {name others files}, name ∈ names → name ∉ others →
      ∀ w : World, Proper w.tree → ready name w.tree → done others files w.tree →
      Ensures (fill name) w fun r w' => Adds (Below (name :: l)) w.tree w'.tree ∧
        Proper w'.tree ∧ ∀ more, r = .ok more → done (name :: others) (files + more) w'.tree)
    (w : World) (proper : Proper w.tree) (start : ∀ name ∈ names, ready name w.tree)
    (none_done : done [] 0 w.tree) :
    Ensures (Workspace.copyEach fill names) w fun r w' => Adds (Filled names l) w.tree w'.tree ∧
      Proper w'.tree ∧ ∀ files, r = .ok files → done names files w'.tree := by
  induction names generalizing w with
  | nil =>
    refine ⟨Adds.refl _ _, proper, ?_⟩
    rintro _ ⟨⟩
    exact none_done
  | cons name others ih =>
    obtain ⟨fresh, distinct⟩ := List.nodup_cons.mp distinct
    have rest := ih distinct (fun there => each (List.mem_cons_of_mem _ there)) w proper
      (fun other there => start other (List.mem_cons_of_mem _ there)) none_done
    have wider (m : Location) (hm : Filled others l m) : Filled (name :: others) l m := by
      obtain ⟨other, ho, below⟩ := hm
      exact ⟨other, List.mem_cons_of_mem _ ho, below⟩
    apply ensures_bind rest
    · intro e w' post
      rcases post with ⟨added, proper, -⟩
      exact ⟨added.mono wider, proper, nofun⟩
    · intro files w' post
      rcases post with ⟨added, proper, before⟩
      have started := kept fresh added (start name List.mem_cons_self)
      apply ensures_bind (each List.mem_cons_self fresh w' proper started (before files rfl))
      · intro e w'' post
        rcases post with ⟨more, proper, -⟩
        exact ⟨added.trans more wider fun m hm => ⟨name, List.mem_cons_self, hm⟩, proper, nofun⟩
      · intro here w'' post
        rcases post with ⟨more, proper, filled⟩
        refine ensures_pure ⟨added.trans more wider fun m hm => ⟨name, List.mem_cons_self, hm⟩,
          proper, ?_⟩
        rintro _ ⟨⟩
        exact filled here rfl

/-- The library at `origin` in the tree `b`, under the path `source`, is there as well in the larger
tree `t`, and a directory `d` apart from it is to hold the copy. -/
structure Original (b : Tree) (h : Host) (source : String) (origin d : Location) (t : Tree) :
    Prop where
  proper : Proper b
  smaller : Extends b t
  same : ∀ way, t.get? (way ++ origin) = b.get? (way ++ origin)
  outside : ¬ origin <:+ d
  apart : ¬ d <:+ origin
  /-- The path leads there if it leads anywhere. -/
  leads : ∀ t' l, Extends b t' → t'.locate true h.cwd source = .ok l →
    b.find true h.cwd source = .ok (origin, .directory)

section
variable {b t t' : Tree} {h : Host} {source target : String} {origin d : Location} {name : String}

theorem Original.kept (o : Original b h source origin d t) (added : Adds (d <:+ ·) t t') :
    Original b h source origin d t' := by
  refine ⟨o.proper, o.smaller.trans added.extends, ?_, o.outside, o.apart, o.leads⟩
  intro way
  rw [added.elsewhere, o.same]
  intro within
  rcases List.suffix_or_suffix_of_suffix (List.suffix_append way origin) within with h | h
  · exact o.outside h
  · exact o.apart h

theorem Original.found (o : Original b h source origin d t) {l : Location} {node : Node}
    (found : t.find true h.cwd source = .ok (l, node)) :
    l = origin ∧ b.find true h.cwd source = .ok (origin, .directory) := by
  have led := o.leads t l o.smaller (find_eq_ok.mp found).1
  have still := find_mono o.smaller led
  exact ⟨(find_unique found still).1, led⟩

/-- A directory of the library is to be copied in turn. -/
theorem Original.inner (o : Original b h source origin d t)
    (led : b.find true h.cwd source = .ok (origin, .directory)) (plain : Plain name)
    (directory : b.get? (name :: origin) = some .directory) :
    Original b h (Path.join source name) (name :: origin) (name :: d) t := by
  refine ⟨o.proper, o.smaller, ?_, ?_, ?_, ?_⟩
  · intro way
    have same := o.same (way ++ [name])
    rw [List.append_assoc, List.singleton_append] at same
    exact same
  · intro within
    rcases List.suffix_cons_iff.mp within with same | within
    · exact o.outside ((List.cons.inj same).2 ▸ List.suffix_refl _)
    · exact o.outside (suffix_of_cons within)
  · intro within
    rcases List.suffix_cons_iff.mp within with same | within
    · exact o.apart ((List.cons.inj same).2 ▸ List.suffix_refl _)
    · exact o.apart (suffix_of_cons within)
  · intro t' l larger way
    have fits := fits_of_locate (find_mono larger led) plain way
    exact find_join led plain fits directory true

theorem reliable_entry {node : Node} (led : b.find true h.cwd source = .ok (origin, .directory))
    (plain : Plain name) (there : b.get? (name :: origin) = some node) :
    Reliable b h.cwd source (name, node) := by
  intro no_link t' l node' larger found
  obtain ⟨way, end_node⟩ := find_eq_ok.mp found
  have still := larger _ _ there
  have only : ∀ target, t'.get? (name :: origin) ≠ some (.link target) := by
    intro target link
    exact no_link target (Option.some.inj (still.symm.trans link))
  obtain rfl := locate_join_eq (find_mono larger led) plain true (fun _ => only) way
  exact Option.some.inj (end_node.symm.trans still)

/-- The entries that a directory is read as. -/
def entriesOf (h : Host) (t : Tree) (l : Location) : List (String × Node) :=
  (h.arrange l (t.names l)).filterMap fun name => (t.get? (name :: l)).map (name, ·)

variable (arranged : ∀ l names, (h.arrange l names).Perm names)

include arranged in
theorem mem_entriesOf {l : Location} {e : String × Node} :
    e ∈ entriesOf h t l ↔ t.get? (e.1 :: l) = some e.2 := by
  simp only [entriesOf, List.mem_filterMap, (arranged l _).mem_iff, mem_names,
    Option.map_eq_some_iff]
  constructor
  · rintro ⟨name, -, node, there, rfl⟩
    exact there
  · intro there
    exact ⟨e.1, by rw [there]; rfl, e.2, there, rfl⟩

include arranged in
theorem distinct_entriesOf (proper : Proper t) (l : Location) :
    ((entriesOf h t l).map Prod.fst).Nodup := by
  have fewer (names : List String) : ((names.filterMap fun name =>
      (t.get? (name :: l)).map (name, ·)).map Prod.fst).Sublist names := by
    induction names with
    | nil => exact List.Sublist.refl _
    | cons name names ih =>
      cases there : t.get? (name :: l) with
      | none =>
        rw [List.filterMap_cons_none (by rw [there]; rfl)]
        exact ih.cons name
      | some node =>
        rw [List.filterMap_cons_some (b := (name, node)) (by rw [there]; rfl)]
        exact ih.cons_cons name
  exact (fewer _).nodup ((arranged l _).nodup_iff.mpr (proper.once l))

include arranged in
theorem room_entriesOf (proper : Proper t) (found : t.find true h.cwd target = .ok (d, .directory))
    (empty : Empty t d) (l : Location) : Room h target d (entriesOf h t l) t := by
  refine ⟨proper, found, ?_, ?_, distinct_entriesOf arranged proper l⟩
  · intro e he
    apply proper.plain
    rw [(mem_entriesOf arranged).mp he]
    rfl
  · intro e _
    exact empty _ ⟨[e.1], List.cons_ne_nil _ _, rfl⟩

theorem not_filled {names : List String} : ¬ Filled names d (name :: d) := by
  rintro ⟨other, -, below⟩
  exact not_below_beside below

theorem Twin.no_directory {cwd : Location} {path : String} {node copied : Option Node}
    (twin : Twin t cwd path node copied) (other : node ≠ some .directory) :
    copied ≠ some .directory := by
  cases twin with
  | nothing => exact nofun
  | directory => exact absurd rfl other
  | file mode content => exact nofun
  | linked led => exact nofun
  | skipped led no_file => exact nofun
  | dangling lost file =>
    rcases file with rfl | ⟨mode, content, rfl⟩
    · exact nofun
    · exact nofun

include arranged in
/-- Entries and what lies in the directories among them make up all that lies below. -/
theorem mirrors_of_entries {t'' : Tree} {names : List String}
    (o : Original b h source origin d t) (led : b.find true h.cwd source = .ok (origin, .directory))
    (empty : Empty t d) (entered : Adds (Entered (entriesOf h t origin) d) t t')
    (copied : EntriesCopied h source target d (entriesOf h t origin) t t' names)
    (filled : Adds (Filled names d) t' t'') (proper : Proper t'')
    (inner : ∀ name ∈ names, b.get? (name :: origin) = some .directory →
      Mirrors b h.cwd (Path.join source name) (name :: origin) t'' (name :: d)) :
    Mirrors b h.cwd source origin t'' d := by
  intro way some_way
  obtain ⟨init, name, rfl⟩ : ∃ init name, way = init ++ [name] :=
    ⟨_, _, (List.dropLast_concat_getLast some_way).symm⟩
  rw [under_append, List.append_assoc, List.append_assoc, List.singleton_append,
    List.singleton_append]
  -- First the entry itself, then what lies in it.
  have entry : Twin b h.cwd (Path.join source name) (b.get? (name :: origin))
      (t''.get? (name :: d)) := by
    rw [filled.elsewhere not_filled]
    cases there : b.get? (name :: origin) with
    | none =>
      have absent : t.get? (name :: origin) = none := (o.same [name]).trans there
      have free : t.get? (name :: d) = none := empty _ ⟨[name], List.cons_ne_nil _ _, rfl⟩
      rw [entered.elsewhere, free]
      · exact .nothing
      · rintro ⟨e, he, same⟩
        obtain ⟨rfl, -⟩ := List.cons.inj same
        cases absent.symm.trans ((mem_entriesOf arranged).mp he)
    | some node =>
      have plain : Plain name := o.proper.plain (by rw [there]; rfl)
      have listed : (name, node) ∈ entriesOf h t origin :=
        (mem_entriesOf arranged).mpr ((o.same [name]).trans there)
      exact copied.twins b o.smaller _ listed (reliable_entry led plain there)
  cases init with
  | nil => exact entry
  | cons next init =>
    have deeper := List.cons_ne_nil next init
    by_cases directory : b.get? (name :: origin) = some .directory
    · have listed : (name, Node.directory) ∈ entriesOf h t origin :=
        (mem_entriesOf arranged).mpr ((o.same [name]).trans directory)
      exact inner name (copied.directories _ listed rfl) directory _ deeper
    · rw [o.proper.none_below directory deeper,
        proper.none_below (entry.no_directory directory) deeper]
      exact .nothing

/-- What a directory of the library needs before it is filled. -/
structure Ready (h : Host) (target : String) (d : Location) (t : Tree) (name : String) (t' : Tree) :
    Prop where
  grown : Adds (Below d) t t'
  found : t'.find true h.cwd (Path.join target name) = .ok (name :: d, .directory)
  empty : Empty t' (name :: d)

/-- A directory that has been made among the entries is still empty. -/
theorem Ready.start {entries : List (String × Node)}
    (found : t.find true h.cwd target = .ok (d, .directory)) (empty : Empty t d)
    (entered : Adds (Entered entries d) t t') (plain : Plain name)
    (fits : Fits (Path.join target name) name) (directory : t'.get? (name :: d) = some .directory) :
    Ready h target d t name t' := by
  refine ⟨entered.mono fun _ => below_of_entered,
    find_join (find_mono entered.extends found) plain fits directory true, ?_⟩
  intro m below
  rw [entered.elsewhere, empty m (below_of_cons below)]
  rintro ⟨e, -, rfl⟩
  exact not_below_beside below

theorem Ready.kept {t'' : Tree} {others : List String} (ready : Ready h target d t name t')
    (fresh : name ∉ others) (added : Adds (Filled others d) t' t'') :
    Ready h target d t name t'' := by
  refine ⟨ready.grown.trans added (fun _ => id) fun _ => below_of_filled,
    find_mono added.extends ready.found, ?_⟩
  intro m below
  rw [added.elsewhere, ready.empty m below]
  rintro ⟨other, ho, elsewhere⟩
  exact fresh (below_unique below elsewhere ▸ ho)

/-- The directory `name` of every library that is at the source has been copied. -/
def Inner (h : Host) (source : String) (d : Location) (t : Tree) (name : String) (t' : Tree) :
    Prop :=
  ∀ b origin, Original b h source origin d t →
    b.find true h.cwd source = .ok (origin, .directory) →
    b.get? (name :: origin) = some .directory →
    Mirrors b h.cwd (Path.join source name) (name :: origin) t' (name :: d)

theorem Inner.kept {t'' : Tree} {others : List String} (inner : Inner h source d t name t')
    (fresh : name ∉ others) (added : Adds (Filled others d) t' t'') :
    Inner h source d t name t'' := by
  intro b origin o led directory way some_way
  have twin := inner b origin o led directory way some_way
  rw [added.elsewhere]
  · exact twin
  · rintro ⟨other, ho, elsewhere⟩
    exact fresh (below_unique ⟨way, some_way, rfl⟩ elsewhere ▸ ho)

/-- What is so of the directory `name` in the directory `l`, which is the source, after it has been
copied. -/
structure Finished (h : Host) (source : String) (l d : Location) (t : Tree) (name : String)
    (t' : Tree) : Prop where
  outside : t.get? (name :: l) = some .directory → ¬ Below (name :: l) (name :: d)
  inner : Inner h source d t name t'

theorem Finished.kept {t'' : Tree} {l : Location} {others : List String}
    (finished : Finished h source l d t name t') (fresh : name ∉ others)
    (added : Adds (Filled others d) t' t'') : Finished h source l d t name t'' :=
  ⟨finished.outside, finished.inner.kept fresh added⟩

/-- A directory that has been copied from the tree `t'` on, once it was ready, is finished. -/
theorem Finished.of_copied {t'' : Tree} {l k : Location}
    (source_found : t.find true h.cwd source = .ok (l, .directory)) (plain : Plain name)
    (ready : Ready h target d t name t')
    (inner_found : t'.find true h.cwd (Path.join source name) = .ok (k, .directory))
    (apart : ¬ Below k (name :: d))
    (whole : ∀ b origin, Original b h (Path.join source name) origin (name :: d) t' →
      Mirrors b h.cwd (Path.join source name) origin t'' (name :: d)) :
    Finished h source l d t name t'' := by
  refine ⟨?_, ?_⟩
  · intro directory
    have still := ready.grown.extends _ _ directory
    obtain rfl := locate_join_eq (find_mono ready.grown.extends source_found) plain true
      (fun _ target link => by cases still.symm.trans link) (find_eq_ok.mp inner_found).1
    exact apart
  · intro b origin o led directory
    have still := o.kept (ready.grown.mono fun _ => suffix_of_below)
    exact whole b _ (still.inner led plain directory)

/-- So far these directories have been copied, with so many files, since the tree was `t₁`. -/
structure FinishedAll (h : Host) (source : String) (l d : Location) (t t₁ : Tree)
    (names : List String) (files : Nat) (t' : Tree) : Prop where
  finished : ∀ name ∈ names, Finished h source l d t name t'
  filed : Filed h.cwd source d t₁ t' files

theorem FinishedAll.cons {t₁ t'' : Tree} {l : Location} {others : List String} {files more : Nat}
    (before : FinishedAll h source l d t t₁ others files t') (fresh : name ∉ others)
    (added : Adds (Below (name :: d)) t' t'') (finished : Finished h source l d t name t'')
    (filed : Filed h.cwd (Path.join source name) (name :: d) t' t'' more) :
    FinishedAll h source l d t t₁ (name :: others) (files + more) t'' := by
  refine ⟨?_, before.filed.trans filed.inner⟩
  intro other ho
  rcases List.mem_cons.mp ho with rfl | old
  · exact finished
  · refine (before.finished other old).kept ?_ (added.mono fun m hm =>
      ⟨name, List.mem_singleton_self name, hm⟩)
    intro same
    rw [List.mem_singleton.mp same] at old
    exact fresh old

/-- The next directory on the way from one to another that lies in it. -/
theorem next_directory (proper : Proper t) {l : Location} (there : t.get? d = some .directory)
    (below : Below l d) : ∃ name, t.get? (name :: l) = some .directory ∧
      Below (name :: l) (name :: d) := by
  obtain ⟨way, some_way, rfl⟩ := below
  obtain ⟨init, name, rfl⟩ : ∃ init name, way = init ++ [name] :=
    ⟨_, _, (List.dropLast_concat_getLast some_way).symm⟩
  rw [List.append_assoc, List.singleton_append] at there ⊢
  refine ⟨name, ?_, name :: init, List.cons_ne_nil _ _, rfl⟩
  apply Decidable.by_contra
  intro other
  cases init with
  | nil => exact other there
  | cons next init =>
    cases (proper.none_below other (List.cons_ne_nil next init)).symm.trans there

include arranged in
/-- The target does not lie in what has been copied: the directory on the way to it would have been
copied into itself. -/
theorem not_below_of_finished (proper : Proper t) (there : t.get? d = some .directory)
    {t₁ : Tree} {l : Location} {names : List String}
    (copied : EntriesCopied h source target d (entriesOf h t l) t t₁ names)
    (finished : ∀ name ∈ names, Finished h source l d t name t') : ¬ Below l d := by
  intro within
  obtain ⟨name, directory, deeper⟩ := next_directory proper there within
  have listed : (name, Node.directory) ∈ entriesOf h t l := (mem_entriesOf arranged).mpr directory
  exact (finished name (copied.directories _ listed rfl)).outside directory deeper

include arranged in
/-- Copying adds to the target only, and when it succeeds the copy is complete, and its files have
been counted. It does not succeed when the target lies in what is copied. -/
theorem ensures_copyBelow (depth : Nat) {w : World} (proper : Proper w.tree)
    (found : w.tree.find true h.cwd target = .ok (d, .directory)) (empty : Empty w.tree d) :
    Ensures (Workspace.copyBelow h depth source target) w fun r w' =>
      Adds (Below d) w.tree w'.tree ∧ Proper w'.tree ∧ ∀ files, r = .ok files →
        (∃ l, w.tree.find true h.cwd source = .ok (l, .directory) ∧ ¬ Below l d) ∧
        (∀ b origin, Original b h source origin d w.tree →
          Mirrors b h.cwd source origin w'.tree d) ∧
        Filed h.cwd source d w.tree w'.tree files := by
  induction depth generalizing source target d w with
  | zero => exact ⟨Adds.refl _ _, proper, nofun⟩
  | succ depth ih =>
    apply ensures_bind (ensures_readDirectory source)
    · intro e w' post
      rcases post with ⟨rfl, -⟩
      exact ⟨Adds.refl _ _, proper, nofun⟩
    · intro entries w' post
      rcases post with ⟨rfl, read⟩
      obtain ⟨l, source_found, listed⟩ := read entries rfl
      have listed : entries = entriesOf h w'.tree l := listed
      subst listed
      have room := room_entriesOf arranged proper found empty l
      apply ensures_bind (copyable (entriesOf h w'.tree l) w' room)
      · intro e w'' post
        rcases post with ⟨entered, proper, -⟩
        exact ⟨entered.mono fun _ => below_of_entered, proper, nofun⟩
      · intro counted w'' post
        rcases counted with ⟨names, files⟩
        rcases post with ⟨entered, proper'', done⟩
        obtain ⟨copied, filed⟩ := done names files rfl
        have grown := entered.mono fun _ => below_of_entered
        have distinct : names.Nodup := copied.listed.nodup room.distinct
        have plain (name : String) (hn : name ∈ names) : Plain name := by
          obtain ⟨e, he, rfl⟩ := List.mem_map.mp (copied.listed.subset hn)
          exact room.plain e he
        have start : ∀ name ∈ names, Ready h target d w'.tree name w''.tree := by
          intro name hn
          obtain ⟨fits, directory⟩ := copied.made name hn
          exact Ready.start found empty entered (plain name hn) fits directory
        have each : ∀ {name others files}, name ∈ names → name ∉ others → ∀ w₁ : World,
            Proper w₁.tree → Ready h target d w'.tree name w₁.tree →
            FinishedAll h source l d w'.tree w''.tree others files w₁.tree →
            Ensures (Workspace.copyBelow h depth (Path.join source name) (Path.join target name)) w₁
              fun r w₂ => Adds (Below (name :: d)) w₁.tree w₂.tree ∧ Proper w₂.tree ∧
                ∀ more, r = .ok more → FinishedAll h source l d w'.tree w''.tree (name :: others)
                  (files + more) w₂.tree := by
          intro name others files hn fresh w₁ proper₁ ready before
          apply (ih proper₁ ready.found ready.empty).mono
          intro r w₂ post
          rcases post with ⟨added, proper₂, all⟩
          refine ⟨added, proper₂, ?_⟩
          intro more ok
          obtain ⟨⟨k, inner_found, apart⟩, whole, filed₂⟩ := all more ok
          exact before.cons fresh added
            (.of_copied source_found (plain name hn) ready inner_found apart whole) filed₂
        have none_finished : FinishedAll h source l d w'.tree w''.tree [] 0 w''.tree :=
          ⟨nofun, Filed.refl _ _ _ _⟩
        apply ensures_bind (ensures_copyEach distinct
          (fun fresh added ready => ready.kept fresh added) each w'' proper'' start none_finished)
        · intro e w₃ post
          rcases post with ⟨filled, proper₃, -⟩
          exact ⟨grown.trans filled (fun _ => id) fun _ => below_of_filled, proper₃, nofun⟩
        · intro more w₃ post
          rcases post with ⟨filled, proper₃, all⟩
          refine ensures_pure
            ⟨grown.trans filled (fun _ => id) fun _ => below_of_filled, proper₃, ?_⟩
          rintro _ ⟨⟩
          obtain ⟨finished, filed'⟩ := all more rfl
          have apart :=
            not_below_of_finished arranged proper (find_eq_ok.mp found).2 copied finished
          refine ⟨⟨l, source_found, apart⟩, ?_, filed.trans filed'⟩
          intro b origin o
          obtain ⟨rfl, led⟩ := o.found source_found
          apply mirrors_of_entries arranged o led empty entered copied filled proper₃
          intro name hn directory
          exact (finished name hn).inner b _ o led directory

end

end ScriptSandbox.Proofs.LibraryCopied
