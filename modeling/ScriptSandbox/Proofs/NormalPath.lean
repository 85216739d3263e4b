import ScriptSandbox.Proofs.FileSteps

namespace ScriptSandbox.Proofs.NormalPath
open ScriptSandbox.Tree TreeGrowth Resolution FileSteps

/-- Names that do not count are passed over. -/
def counts (name : String) : Bool := name ≠ "" && name ≠ "."

def counted (names : List String) : List String := names.filter counts

section
variable {t : Tree} {d : Location}

@[simp]
theorem counts_eq_false {name : String} : counts name = false ↔ name = "" ∨ name = "." := by
  unfold counts
  rw [Bool.and_eq_false_iff, decide_eq_false_iff_not, decide_eq_false_iff_not, Decidable.not_not,
    Decidable.not_not]

theorem walkOver_idle {whole : Bool} {f : Location → List String → Except HostError Location}
    {here : Location} {idle : List String} (names : List String)
    (none_counts : ∀ name ∈ idle, counts name = false) :
    walkOver t whole f here (idle ++ names) = walkOver t whole f here names := by
  induction idle with
  | nil => rfl
  | cons name idle ih =>
    have idle_name := counts_eq_false.mp (none_counts name List.mem_cons_self)
    rw [List.cons_append, walkOver, if_pos idle_name]
    exact ih fun other there => none_counts other (List.mem_cons_of_mem _ there)

/-- Names that differ only in some that do not count lead to the same directory. -/
def SameWay (d : Location) (f : Location → List String → Except HostError Location) : Prop :=
  ∀ ⦃here names names'⦄, counted names = counted names' → f here names = .ok d →
    f here names' = .ok d

theorem walkOver_counted (directory : t.get? d = some .directory)
    {f : Location → List String → Except HostError Location} (hf : SameWay d f) :
    SameWay d (walkOver t true f) := by
  intro here names names' same way
  induction names generalizing here names' with
  | nil =>
    have idle := List.filter_eq_nil_iff.mp same.symm
    rw [← List.append_nil names', walkOver_idle [] fun name there => by simpa using idle name there]
    exact way
  | cons name rest ih =>
    cases counting : counts name with
    | true =>
      rw [counted, List.filter_cons_of_pos counting] at same
      obtain ⟨idle, rest', rfl, none_counts, -, others⟩ := List.filter_eq_cons_iff.mp same.symm
      rw [walkOver_idle _ fun name there => by simpa using none_counts name there]
      have named : ¬ (name = "" ∨ name = ".") := by
        rw [← counts_eq_false, counting]
        simp
      unfold walkOver at way ⊢
      rw [if_neg named] at way ⊢
      split at way
      · rename_i up
        rw [if_pos up]
        exact ih others.symm way
      · rename_i down
        rw [if_neg down]
        split at way
        · cases way
        · rename_i short
          rw [if_neg short]
          -- A way that ends here ends at no directory.
          have last (h : (if rest.isEmpty = true then .ok (name :: here)
              else Except.error (HostError.system SystemCode.notDirectory)) = .ok d)
              (other : t.get? (name :: here) ≠ some .directory) : False := by
            split at h
            · obtain rfl := Except.ok.inj h
              exact other directory
            · cases h
          cases next : t.get? (name :: here) with
          | none =>
            rw [next] at way
            dsimp only at way
            split at way
            · obtain rfl := Except.ok.inj way
              cases next.symm.trans directory
            · cases way
          | some node =>
            rw [next] at way
            cases node with
            | directory => exact ih others.symm way
            | link target =>
              simp only [Bool.not_true, Bool.and_false, Bool.false_eq_true, ↓reduceIte] at way ⊢
              refine hf ?_ way
              rw [counted, counted, List.filter_append, List.filter_append, others]
            | file mode content => exact (last way (by simp [next])).elim
            | device content => exact (last way (by simp [next])).elim
            | socket => exact (last way (by simp [next])).elim
    | false =>
      rw [counted, List.filter_cons_of_neg (by simp [counting])] at same
      rw [walkOver, if_pos (counts_eq_false.mp counting)] at way
      exact ih same way

theorem walk_counted (directory : t.get? d = some .directory) (links : Nat) :
    SameWay d (walk t true links) := by
  induction links with
  | zero => exact walkOver_counted directory nofun
  | succ links ih => exact walkOver_counted directory ih

/-- A path with fewer names that do not count. -/
structure Shortens (path' path : String) : Prop where
  nonempty : path' ≠ ""
  absolute : Path.isAbsolute path' = Path.isAbsolute path
  same_names : counted (Path.segments path) = counted (Path.segments path')
  fewer : path'.toList.Sublist path.toList

theorem size_le_of_sublist {cs cs' : List Char} (fewer : cs'.Sublist cs) :
    (String.ofList cs').utf8ByteSize ≤ (String.ofList cs).utf8ByteSize := by
  induction fewer with
  | slnil => exact Nat.le_refl _
  | cons c _ ih =>
    rw [String.ofList_cons, String.utf8ByteSize_append]
    exact Nat.le_add_left_of_le ih
  | cons_cons c _ ih =>
    rw [String.ofList_cons, String.ofList_cons, String.utf8ByteSize_append,
      String.utf8ByteSize_append]
    exact Nat.add_le_add_left ih _

theorem Shortens.find {cwd : Location} {path path' : String} (shortens : Shortens path' path)
    (found : t.find true cwd path = .ok (d, .directory)) :
    t.find true cwd path' = .ok (d, .directory) := by
  obtain ⟨way, directory⟩ := find_eq_ok.mp found
  refine find_eq_ok.mpr ⟨?_, directory⟩
  have size : path'.utf8ByteSize ≤ path.utf8ByteSize := by
    have sizes := size_le_of_sublist shortens.fewer
    rwa [String.ofList_toList, String.ofList_toList] at sizes
  have no_nul (nul : path'.toList.contains '\x00' = true) :
      path.toList.contains '\x00' = true := by
    rw [List.contains_iff_mem] at nul ⊢
    exact shortens.fewer.subset nul
  unfold locate at way ⊢
  dsimp only at way ⊢
  rw [shortens.absolute]
  generalize (if Path.isAbsolute path = true then [] else cwd) = start at way ⊢
  split at way
  · cases way
  · rename_i clean
    split at way
    · cases way
    · split at way
      · cases way
      · rename_i short
        split at way
        · rename_i started
          rw [if_neg fun nul => clean (no_nul nul),
            if_neg fun empty => shortens.nonempty (String.isEmpty_iff.mp empty),
            if_neg fun long => short (Nat.le_trans long size), if_pos started]
          exact walk_counted directory linkLimit shortens.same_names way
        · cases way

end

/-- The path without the names that do not count. -/
def written (path : String) : String :=
  (if Path.isAbsolute path then "/" else "") ++ String.intercalate "/" (Path.components path)

section
variable {path : String}

theorem cutAt_eq_splitOn (separator : Char) (cs : List Char) :
    cutAt separator cs = cs.splitOn separator := by
  induction cs with
  | nil => rfl
  | cons c cs ih =>
    rw [List.splitOn, List.splitOnP_cons_eq_if_modifyHead, ← List.splitOn]
    by_cases same : c = separator
    · rw [same, cutAt_separator, if_pos (by simp), ih]
    · rw [cutAt_cons same, if_neg (by simpa using same), ih]

theorem intercalate_sublist {pieces pieces' : List (List Char)} (fewer : pieces'.Sublist pieces) :
    (['/'].intercalate pieces').Sublist (['/'].intercalate pieces) := by
  induction fewer with
  | slnil => exact List.Sublist.refl _
  | @cons pieces' pieces piece fewer ih =>
    cases pieces with
    | nil =>
      obtain rfl := List.sublist_nil.mp fewer
      exact List.nil_sublist _
    | cons next others =>
      rw [List.intercalate_cons_cons]
      exact ih.trans (List.sublist_append_right _ _)
  | @cons_cons pieces' pieces piece fewer ih =>
    cases pieces' with
    | nil =>
      cases pieces with
      | nil => exact List.Sublist.refl _
      | cons next others =>
        rw [List.intercalate_cons_cons, List.intercalate_singleton, List.append_assoc]
        exact List.sublist_append_left _ _
    | cons next' others' =>
      cases pieces with
      | nil => cases fewer
      | cons next others =>
        rw [List.intercalate_cons_cons, List.intercalate_cons_cons]
        exact (List.Sublist.refl _).append ih

/-- The pieces of a text of names with slashes between them. -/
theorem cutAt_intercalate {names : List String} (some_name : names ≠ [])
    (no_slash : ∀ name ∈ names, '/' ∉ name.toList) :
    (cutAt '/' (['/'].intercalate (names.map String.toList))).map String.ofList = names := by
  rw [cutAt_eq_splitOn, List.splitOn_intercalate]
  · simp
  · intro piece there
    obtain ⟨name, known, rfl⟩ := List.mem_map.mp there
    exact no_slash name known
  · simpa using some_name

@[simp]
theorem intercalate_cutAt (cs : List Char) : ['/'].intercalate (cutAt '/' cs) = cs := by
  rw [cutAt_eq_splitOn, List.intercalate_splitOn]

theorem map_toList_segments : (Path.segments path).map String.toList = cutAt '/' path.toList := by
  simp [Path.segments, piecesOf]

theorem no_slash_of_mem_segments {name : String} (there : name ∈ Path.segments path) :
    '/' ∉ name.toList := separator_of_mem_piecesOf there

/-- An absolute path begins with an empty name and goes on; another path does not. -/
inductive Begins (path : String) : Prop
  | absolute {rest : List String} (slash : Path.isAbsolute path = true)
      (text : path.toList = '/' :: ['/'].intercalate (rest.map String.toList))
      (names : Path.segments path = "" :: rest)
  | relative {first : String} {rest : List String} (no_slash : Path.isAbsolute path = false)
      (named : first ≠ "") (names : Path.segments path = first :: rest)

theorem begins_of_ne (some_path : path ≠ "") : Begins path := by
  obtain ⟨c, cs, text⟩ : ∃ c cs, path.toList = c :: cs :=
    List.exists_cons_of_ne_nil fun none_left => some_path (String.toList_eq_nil_iff.mp none_left)
  by_cases slash : c = '/'
  · subst slash
    have names : Path.segments path = "" :: (cutAt '/' cs).map String.ofList := by
      rw [Path.segments, piecesOf, text, cutAt_separator]
      rfl
    refine .absolute ?_ ?_ names
    · simp [Path.isAbsolute, text]
    · rw [text]
      simp
  · have no_slash : Path.isAbsolute path = false := by simpa [Path.isAbsolute, text] using slash
    obtain ⟨piece, pieces, cut⟩ := List.exists_cons_of_ne_nil (cutAt_ne_nil '/' cs)
    have names : Path.segments path =
        String.ofList (c :: piece) :: pieces.map String.ofList := by
      rw [Path.segments, piecesOf, text, cutAt_cons slash, cut]
      rfl
    exact .relative no_slash (by simp) names

@[simp]
theorem counted_counted (names : List String) : counted (counted names) = counted names := by
  simp [counted]

theorem components_absolute {rest : List String} (names : Path.segments path = "" :: rest) :
    Path.components path = counted rest := by
  rw [Path.components, names]
  rfl

theorem components_relative {first : String} {rest : List String} (named : first ≠ "")
    (names : Path.segments path = first :: rest) :
    Path.components path = first :: counted rest := by
  rw [Path.components, names]
  exact if_neg named

theorem segments_ofList {names : List String} (some_name : names ≠ [])
    (no_slash : ∀ name ∈ names, '/' ∉ name.toList) {text : String}
    (spelled : text.toList = ['/'].intercalate (names.map String.toList)) :
    Path.segments text = names := by
  rw [Path.segments, piecesOf, spelled, cutAt_intercalate some_name no_slash]

theorem shortens_written (some_path : path ≠ "") (some_name : Path.components path ≠ []) :
    Shortens (written path) path := by
  have no_slash {names : List String} (known : names.Sublist (Path.segments path)) :
      ∀ name ∈ names, '/' ∉ name.toList :=
    fun name there => no_slash_of_mem_segments (known.subset there)
  have spelled : (written path).toList = (if Path.isAbsolute path then ['/'] else []) ++
      ['/'].intercalate ((Path.components path).map String.toList) := by
    rw [written, String.toList_append, String.toList_intercalate]
    split
    · rfl
    · rfl
  cases begins_of_ne some_path with
  | @absolute rest slash text names =>
    rw [components_absolute names] at spelled some_name
    rw [slash, if_pos rfl] at spelled
    have nonempty : written path ≠ "" := by
      intro empty
      rw [empty] at spelled
      cases spelled
    have known : (counted rest).Sublist (Path.segments path) := by
      rw [names]
      exact List.filter_sublist.cons _
    refine ⟨nonempty, ?_, ?_, ?_⟩
    · rw [slash, Path.isAbsolute, spelled]
      rfl
    · have again : Path.segments (written path) = "" :: counted rest := by
        rw [Path.segments, piecesOf, spelled, List.singleton_append, cutAt_separator, List.map_cons,
          cutAt_intercalate some_name (no_slash known)]
      rw [names, again]
      exact (counted_counted rest).symm
    · rw [spelled, text]
      exact (intercalate_sublist (List.filter_sublist.map _)).cons_cons _
  | @relative first rest slash named names =>
    rw [components_relative named names, slash, if_neg Bool.false_ne_true, List.nil_append]
      at spelled
    have fewer : (first :: counted rest).Sublist (Path.segments path) := by
      rw [names]
      exact List.filter_sublist.cons_cons _
    have again : Path.segments (written path) = first :: counted rest :=
      segments_ofList (List.cons_ne_nil _ _) (no_slash fewer) spelled
    have nonempty : written path ≠ "" := by
      intro empty
      rw [empty] at again
      exact named (List.cons.inj again).1.symm
    refine ⟨nonempty, ?_, ?_, ?_⟩
    · cases begins_of_ne nonempty with
      | absolute _ _ names' => exact absurd (List.cons.inj (names'.symm.trans again)).1.symm named
      | relative no_slash _ _ => rw [no_slash, slash]
    · rw [names, again, counted, counted, List.filter_cons, List.filter_cons, ← counted, ← counted,
        counted_counted]
    · have whole : path.toList = ['/'].intercalate ((Path.segments path).map String.toList) := by
        simp [map_toList_segments]
      rw [spelled, whole]
      exact intercalate_sublist (fewer.map _)

end

section
variable {h : Host} {w : World} {path : String} {d : Location}

/-- The first of the directories to be made is the path itself as it is written. -/
theorem ancestors_cases (path : String) :
    Path.ancestors path = [] ∨ ∃ above, Path.ancestors path = written path :: above ∧
      Path.components path ≠ [] := by
  cases names : Path.components path with
  | nil =>
    left
    rw [Path.ancestors, names]
    rfl
  | cons first rest =>
    have whole : (first :: rest).take (rest.length + 1) = first :: rest :=
      List.take_of_length_le (Nat.le_refl _)
    right
    rw [Path.ancestors, written, names, List.length_cons, List.range_succ, List.reverse_append,
      List.reverse_singleton, List.singleton_append, List.map_cons, whole]
    exact ⟨_, rfl, List.cons_ne_nil _ _⟩

/-- Where nothing is there is no link to follow, so the way with all links followed is the same. -/
def EndsAlike (t : Tree) (f g : Location → List String → Except HostError Location) : Prop :=
  ∀ ⦃here names l⦄, f here names = .ok l → t.get? l = none → g here names = .ok l

theorem walkOver_free {t : Tree} {f g : Location → List String → Except HostError Location}
    (hf : EndsAlike t f g) : EndsAlike t (walkOver t false f) (walkOver t true g) := by
  intro here names l way free
  induction names generalizing here with
  | nil => exact way
  | cons name rest ih =>
    unfold walkOver at way ⊢
    split
    · rename_i skipped
      rw [if_pos skipped] at way
      exact ih way
    · rename_i counting
      rw [if_neg counting] at way
      split
      · rename_i up
        rw [if_pos up] at way
        exact ih way
      · rename_i down
        rw [if_neg down] at way
        split
        · rename_i long
          rw [if_pos long] at way
          cases way
        · rename_i short
          rw [if_neg short] at way
          cases next : t.get? (name :: here) with
          | none =>
            rw [next] at way
            exact way
          | some node =>
            rw [next] at way
            cases node with
            | directory => exact ih way
            | link target =>
              dsimp only at way ⊢
              split at way
              · obtain rfl := Except.ok.inj way
                cases next.symm.trans free
              · rw [if_neg (by simp)]
                exact hf way free
            | file mode content => exact way
            | device content => exact way
            | socket => exact way

theorem walk_free {t : Tree} (links : Nat) :
    EndsAlike t (walk t false links) (walk t true links) := by
  induction links with
  | zero => exact walkOver_free fun _ _ _ way => by cases way
  | succ links ih => exact walkOver_free ih

theorem locate_free {t : Tree} {cwd l : Location} {path : String}
    (way : t.locate false cwd path = .ok l) (free : t.get? l = none) :
    t.locate true cwd path = .ok l := by
  unfold locate at way ⊢
  dsimp only at way ⊢
  generalize (if Path.isAbsolute path = true then [] else cwd) = start at way ⊢
  split
  · rename_i nul
    rw [if_pos nul] at way
    cases way
  · rename_i clean
    rw [if_neg clean] at way
    split
    · rename_i empty
      rw [if_pos empty] at way
      cases way
    · rename_i some_text
      rw [if_neg some_text] at way
      split
      · rename_i long
        rw [if_pos long] at way
        cases way
      · rename_i short
        rw [if_neg short] at way
        split at way
        · rename_i started
          rw [if_pos started]
          exact walk_free linkLimit way free
        · cases way

/-- No directory is made where one is. -/
theorem makeDirectory_present {t : Tree} {cwd : Location} {node : Node}
    (found : t.find true cwd path = .ok (d, node)) :
    ∃ e, t.makeDirectory cwd path = .error e := by
  cases made : t.makeDirectory cwd path with
  | error e => exact ⟨e, rfl⟩
  | ok t' =>
    obtain ⟨l, way, free, -⟩ := makeDirectory_eq_ok made
    obtain ⟨way', there⟩ := find_eq_ok.mp found
    obtain rfl := Except.ok.inj ((locate_free way free).symm.trans way')
    cases free.symm.trans there

theorem after_makeDirectory_present {node : Node}
    (found : w.tree.find true h.cwd path = .ok (d, node)) :
    ∃ e, after (h.makeDirectory path) w = (.error e, w) := by
  obtain ⟨e, taken⟩ := makeDirectory_present found
  unfold Host.makeDirectory Host.change
  cases refused : h.refuse (.makeDirectory path) with
  | some e' => exact ⟨e', by simp [refused]⟩
  | none => exact ⟨e, by simp [refused, taken]⟩

theorem after_ensureDirectory_present
    (found : w.tree.find true h.cwd path = .ok (d, .directory)) :
    after (h.ensureDirectory path) w = (.ok (), w) := by
  obtain ⟨e, made⟩ := after_makeDirectory_present found
  have there : w.tree.hasDirectory h.cwd path = true := by
    rw [Tree.hasDirectory, found]
    rfl
  simp [Host.ensureDirectory, made, there]

/-- To make a directory that is there, whatever the host refuses, changes nothing. -/
theorem after_makeDirectories_present
    (found : w.tree.find true h.cwd path = .ok (d, .directory)) :
    after (h.makeDirectories path) w = (.ok (), w) := by
  rw [Host.makeDirectories]
  rcases ancestors_cases path with none_there | ⟨above, first, some_name⟩
  · rw [none_there]
    rfl
  · have led := (shortens_written (base_ne found) some_name).find found
    simp [first, Host.makeDirectoriesAt, after_ensureDirectory_present led]

end

end ScriptSandbox.Proofs.NormalPath
