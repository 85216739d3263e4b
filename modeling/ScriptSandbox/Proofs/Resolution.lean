import ScriptSandbox.Machine.Resolve
import ScriptSandbox.Proofs.TreeGrowth

namespace ScriptSandbox.Proofs.Resolution
open ScriptSandbox.Tree TreeGrowth

/-- The way on from a link, when so many more of them may follow. -/
def onward (t : Tree) (whole : Bool) : Nat → Location → List String → Except HostError Location
  | 0 => fun _ _ => .error (.system SystemCode.linkLoop)
  | links + 1 => walk t whole links

theorem walk_eq (t : Tree) (whole : Bool) (links : Nat) :
    walk t whole links = walkOver t whole (onward t whole links) := by
  cases links <;> rfl

section
variable {t t' : Tree} {whole : Bool}

/-- The way from a link is kept if it leads to something. -/
def Kept (t : Tree) (f f' : Location → List String → Except HostError Location) : Prop :=
  ∀ ⦃here names l node⦄, f here names = .ok l → t.get? l = some node → f' here names = .ok l

theorem walkOver_mono (h : Extends t t')
    {f f' : Location → List String → Except HostError Location} (hf : Kept t f f')
    {here l : Location} {names : List String} {node : Node}
    (found : walkOver t whole f here names = .ok l) (there : t.get? l = some node) :
    walkOver t' whole f' here names = .ok l := by
  induction names generalizing here with
  | nil => exact found
  | cons name rest ih =>
    unfold walkOver at found ⊢
    split
    · rename_i skipped
      rw [if_pos skipped] at found
      exact ih found
    · rename_i counts
      rw [if_neg counts] at found
      split
      · rename_i up
        rw [if_pos up] at found
        exact ih found
      · rename_i down
        rw [if_neg down] at found
        split
        · rename_i long
          rw [if_pos long] at found
          cases found
        · rename_i short
          rw [if_neg short] at found
          cases next : t.get? (name :: here) with
          | none =>
            -- The way would end where nothing is.
            rw [next] at found
            dsimp only at found
            split at found
            · obtain rfl := Except.ok.inj found
              rw [next] at there
              cases there
            · cases found
          | some n =>
            rw [h _ _ next]
            rw [next] at found
            cases n with
            | directory => exact ih found
            | link target =>
              dsimp only at found ⊢
              split
              · rename_i last
                rw [if_pos last] at found
                exact found
              · rename_i more
                rw [if_neg more] at found
                exact hf found there
            | file mode content => exact found
            | device content => exact found
            | socket => exact found

theorem kept_onward (h : Extends t t') (links : Nat) :
    Kept t (onward t whole links) (onward t' whole links) := by
  induction links with
  | zero =>
    intro here names l node found _
    cases found
  | succ links ih =>
    intro here names l node found there
    rw [onward, walk_eq] at found ⊢
    exact walkOver_mono h ih found there

theorem walk_mono (h : Extends t t') {links : Nat} {here l : Location} {names : List String}
    {node : Node} (found : walk t whole links here names = .ok l) (there : t.get? l = some node) :
    walk t' whole links here names = .ok l := by
  rw [walk_eq] at found ⊢
  exact walkOver_mono h (kept_onward h links) found there

theorem directory_mono (h : Extends t t') {l : Location}
    (there : (t.get? l).any Node.isDirectory = true) :
    (t'.get? l).any Node.isDirectory = true := by
  cases hn : t.get? l with
  | none =>
    rw [hn] at there
    cases there
  | some n =>
    rw [hn] at there
    rw [h _ _ hn]
    exact there

theorem locate_mono (h : Extends t t') {cwd l : Location} {path : String} {node : Node}
    (found : t.locate whole cwd path = .ok l) (there : t.get? l = some node) :
    t'.locate whole cwd path = .ok l := by
  unfold locate at found ⊢
  split
  · rename_i nul
    rw [if_pos nul] at found
    cases found
  · rename_i no_nul
    rw [if_neg no_nul] at found
    split
    · rename_i empty
      rw [if_pos empty] at found
      cases found
    · rename_i some_text
      rw [if_neg some_text] at found
      split
      · rename_i long
        rw [if_pos long] at found
        cases found
      · rename_i short
        rw [if_neg short] at found
        dsimp only at found ⊢
        generalize (if Path.isAbsolute path = true then [] else cwd) = start at found ⊢
        split at found
        · rename_i started
          rw [if_pos (directory_mono h started)]
          exact walk_mono h found there
        · cases found

theorem find_eq_ok {cwd l : Location} {path : String} {node : Node} :
    t.find whole cwd path = .ok (l, node) ↔
      t.locate whole cwd path = .ok l ∧ t.get? l = some node := by
  unfold find
  cases t.locate whole cwd path with
  | error e => simp [bind, Except.bind]
  | ok m =>
    cases hm : t.get? m with
    | none =>
      simp only [bind, Except.bind, hm, Except.ok.injEq]
      constructor
      · intro h
        cases h
      · rintro ⟨rfl, there⟩
        cases hm.symm.trans there
    | some n =>
      simp only [bind, Except.bind, hm, Except.ok.injEq, Prod.mk.injEq]
      constructor
      · rintro ⟨rfl, rfl⟩
        exact ⟨rfl, hm⟩
      · rintro ⟨rfl, there⟩
        exact ⟨rfl, Option.some.inj (hm.symm.trans there)⟩

/-- A path that is too long leads nowhere. -/
theorem short_of_find {cwd l : Location} {path : String} {node : Node}
    (found : t.find whole cwd path = .ok (l, node)) : path.utf8ByteSize < pathLimit := by
  have way := (find_eq_ok.mp found).1
  unfold locate at way
  split at way
  · cases way
  · split at way
    · cases way
    · split at way
      · cases way
      · rename_i short
        exact Nat.not_le.mp short

/-- A path leads to one place. -/
theorem find_unique {cwd l l' : Location} {path : String} {node node' : Node}
    (found : t.find whole cwd path = .ok (l, node))
    (found' : t.find whole cwd path = .ok (l', node')) : l = l' ∧ node = node' :=
  Prod.mk.inj (Except.ok.inj (found.symm.trans found'))

theorem find_mono (h : Extends t t') {cwd l : Location} {path : String} {node : Node}
    (found : t.find whole cwd path = .ok (l, node)) :
    t'.find whole cwd path = .ok (l, node) := by
  obtain ⟨way, there⟩ := find_eq_ok.mp found
  exact find_eq_ok.mpr ⟨locate_mono h way there, h _ _ there⟩

end

section
variable {t : Tree} {d : Location}

/-- The way to the directory `d` goes on from there with the names that follow, whatever number of
links is left then, and so it does in all larger trees. -/
def Leads (t : Tree) (d : Location) (f : Location → List String → Except HostError Location)
    (g : Tree → Bool → Location → List String → Except HostError Location) : Prop :=
  ∀ ⦃here names⦄, f here names = .ok d → ∃ links, ∀ t', Extends t t' → ∀ whole tail, tail ≠ [] →
    g t' whole here (names ++ tail) = walk t' whole links d tail

theorem walkOver_append (directory : t.get? d = some .directory) (links : Nat)
    (hf : Leads t d (onward t true links) fun t' whole => onward t' whole links) :
    Leads t d (walkOver t true (onward t true links))
      fun t' whole => walkOver t' whole (onward t' whole links) := by
  intro here names found
  induction names generalizing here with
  | nil =>
    obtain rfl := Except.ok.inj found
    exact ⟨links, fun t' _ whole tail _ => by rw [walk_eq]; rfl⟩
  | cons name rest ih =>
    unfold walkOver at found
    simp only [List.cons_append]
    unfold walkOver
    split at found
    · rename_i skipped
      obtain ⟨k, hk⟩ := ih found
      refine ⟨k, fun t' larger whole tail more => ?_⟩
      rw [if_pos skipped]
      exact hk t' larger whole tail more
    · rename_i counts
      simp only [if_neg counts]
      split at found
      · rename_i up
        obtain ⟨k, hk⟩ := ih found
        refine ⟨k, fun t' larger whole tail more => ?_⟩
        rw [if_pos up]
        exact hk t' larger whole tail more
      · rename_i down
        simp only [if_neg down]
        split at found
        · cases found
        · rename_i short
          simp only [if_neg short]
          -- A way that ends at anything but a directory does not end at `d`.
          have last (h : (if rest.isEmpty = true then .ok (name :: here)
              else Except.error (HostError.system SystemCode.notDirectory)) = .ok d)
              (other : t.get? (name :: here) ≠ some .directory) : False := by
            split at h
            · obtain rfl := Except.ok.inj h
              exact other directory
            · cases h
          cases next : t.get? (name :: here) with
          | none =>
            rw [next] at found
            dsimp only at found
            split at found
            · obtain rfl := Except.ok.inj found
              cases next.symm.trans directory
            · cases found
          | some n =>
            rw [next] at found
            cases n with
            | directory =>
              obtain ⟨k, hk⟩ := ih found
              refine ⟨k, fun t' larger whole tail more => ?_⟩
              rw [larger _ _ next]
              exact hk t' larger whole tail more
            | link target =>
              simp only [Bool.not_true, Bool.and_false, Bool.false_eq_true, ↓reduceIte] at found
              obtain ⟨k, hk⟩ := hf found
              refine ⟨k, fun t' larger whole tail more => ?_⟩
              rw [larger _ _ next]
              have goes_on : (rest ++ tail).isEmpty = false := by
                cases tail with
                | nil => exact absurd rfl more
                | cons a tail => simp
              simp only [goes_on, Bool.false_and, Bool.false_eq_true, ↓reduceIte]
              rw [← List.append_assoc]
              exact hk t' larger whole tail more
            | file mode content => exact (last found (by rw [next]; exact nofun)).elim
            | device content => exact (last found (by rw [next]; exact nofun)).elim
            | socket => exact (last found (by rw [next]; exact nofun)).elim

theorem walk_append (directory : t.get? d = some .directory) (links : Nat) :
    Leads t d (walk t true links) fun t' whole => walk t' whole links := by
  induction links with
  | zero =>
    have none_left : Leads t d (onward t true 0) fun t' whole => onward t' whole 0 := by
      intro here names found
      cases found
    exact walkOver_append directory 0 none_left
  | succ links ih => exact walkOver_append directory (links + 1) ih

/-- An empty name in front of further ones makes no difference. -/
theorem walkOver_skip {whole : Bool} {tail : List String} (more : tail ≠ [])
    {f : Location → List String → Except HostError Location}
    (hf : ∀ here names, f here (names ++ "" :: tail) = f here (names ++ tail)) (here : Location)
    (names : List String) :
    walkOver t whole f here (names ++ "" :: tail) = walkOver t whole f here (names ++ tail) := by
  induction names generalizing here with
  | nil =>
    rw [List.nil_append, walkOver, if_pos (.inl rfl)]
    rfl
  | cons name rest ih =>
    have goes_on (empty : List String) : (rest ++ (empty ++ tail)).isEmpty = false := by
      cases tail with
      | nil => exact absurd rfl more
      | cons a tail => simp
    have goes_on_after : (rest ++ "" :: tail).isEmpty = false := goes_on [""]
    have goes_on_before : (rest ++ tail).isEmpty = false := goes_on []
    simp only [List.cons_append]
    unfold walkOver
    simp only [ih, goes_on_after, goes_on_before, ← List.append_assoc, hf]

theorem walk_skip {whole : Bool} {tail : List String} (more : tail ≠ []) (links : Nat)
    (here : Location) (names : List String) :
    walk t whole links here (names ++ "" :: tail) = walk t whole links here (names ++ tail) := by
  induction links generalizing here names with
  | zero =>
    rw [walk_eq]
    exact walkOver_skip more (fun _ _ => rfl) here names
  | succ links ih =>
    rw [walk_eq]
    exact walkOver_skip more ih here names

end

theorem isAbsolute_plain {name : String} (h : Plain name) : Path.isAbsolute name = false := by
  cases cs : name.toList with
  | nil => simp [Path.isAbsolute, cs]
  | cons c cs' =>
    have other : c ≠ '/' := by
      rintro rfl
      exact h.no_slash (by simp [cs])
    simpa [Path.isAbsolute, cs] using other

/-- The names of a longer path, but for an empty one that a slash at the end leaves. -/
theorem segments_join {base name : String} (some_base : base ≠ "") (plain : Plain name) :
    ∃ names, (Path.segments base = names ∨ Path.segments base = names ++ [""]) ∧
      Path.segments (Path.join base name) = names ++ [name] := by
  have last_name : Path.segments name = [name] := piecesOf_whole plain.no_slash
  unfold Path.join
  rw [isAbsolute_plain plain]
  simp only [Bool.false_eq_true, ↓reduceIte]
  split
  · rename_i empty
    have none_left : base.toList = [] := List.getLast?_eq_none_iff.mp empty
    exact absurd (String.toList_eq_nil_iff.mp none_left) some_base
  · rename_i slash
    obtain ⟨init, split⟩ := List.getLast?_eq_some_iff.mp slash
    refine ⟨Path.segments (String.ofList init), .inr (piecesOf_cut split), ?_⟩
    have text : (base ++ name).toList = init ++ '/' :: name.toList := by
      simp [String.toList_append, split]
    rw [Path.segments, piecesOf_cut text, String.ofList_toList]
    exact congrArg _ last_name
  · refine ⟨Path.segments base, .inl rfl, ?_⟩
    have text : (base ++ "/" ++ name).toList = base.toList ++ '/' :: name.toList := by
      simp [String.toList_append]
    rw [Path.segments, piecesOf_cut text, String.ofList_toList, String.ofList_toList]
    exact congrArg _ last_name

theorem isAbsolute_join {base name : String} (some_base : base ≠ "") (plain : Plain name) :
    Path.isAbsolute (Path.join base name) = Path.isAbsolute base := by
  obtain ⟨c, cs, first⟩ : ∃ c cs, base.toList = c :: cs :=
    List.exists_cons_of_ne_nil fun h => some_base (String.toList_eq_nil_iff.mp h)
  unfold Path.join
  rw [isAbsolute_plain plain]
  simp only [Bool.false_eq_true, ↓reduceIte]
  split
  · rename_i empty
    rw [first] at empty
    cases List.getLast?_eq_none_iff.mp empty
  · simp [Path.isAbsolute, String.toList_append, first]
  · simp [Path.isAbsolute, String.toList_append, first]

/-- What the sizes of a path and of its last name must be. -/
structure Fits (path name : String) : Prop where
  no_nul : path.toList.contains '\x00' = false
  short : path.utf8ByteSize < pathLimit
  name_short : name.utf8ByteSize ≤ nameLimit

section
variable {t : Tree} {cwd d l : Location} {base name : String}

theorem base_ne {whole : Bool} {node : Node} (found : t.find whole cwd base = .ok (d, node)) :
    base ≠ "" := by
  rintro rfl
  cases found

/-- The way to a directory, and on with one more name, in this tree and in all larger ones. -/
theorem locate_join (found : t.find true cwd base = .ok (d, .directory)) (plain : Plain name) :
    ∃ links, ∀ t', Extends t t' → ∀ whole, t'.locate whole cwd (Path.join base name) =
      if (Path.join base name).toList.contains '\x00' then .error .nulInPath
      else if (Path.join base name).utf8ByteSize ≥ pathLimit then
        .error (.system SystemCode.nameTooLong)
      else walk t' whole links d [name] := by
  obtain ⟨way, directory⟩ := find_eq_ok.mp found
  have some_base := base_ne found
  have some_path : (Path.join base name).isEmpty = false := by
    obtain ⟨names, -, longer⟩ := segments_join some_base plain
    apply Bool.eq_false_iff.mpr
    intro empty
    rw [String.isEmpty_iff.mp empty] at longer
    have last := congrArg List.getLast? longer
    rw [List.getLast?_concat] at last
    exact plain.nonempty (Option.some.inj last).symm
  unfold locate at way
  dsimp only at way
  generalize start : (if Path.isAbsolute base = true then [] else cwd) = here at way
  split at way
  · cases way
  · split at way
    · cases way
    · split at way
      · cases way
      · split at way
        · rename_i started
          obtain ⟨names, shorter, longer⟩ := segments_join some_base plain
          obtain ⟨links, onwards⟩ := walk_append directory _ way
          have all {t' : Tree} (larger : Extends t t') (whole : Bool) : walk t' whole linkLimit here
              (Path.segments (Path.join base name)) = walk t' whole links d [name] := by
            have goes_on : walk t' whole linkLimit here (Path.segments base ++ [name]) =
              walk t' whole links d [name] := onwards t' larger whole [name] (List.cons_ne_nil _ _)
            rw [longer, ← goes_on]
            rcases shorter with same | slash
            · rw [same]
            · rw [slash, List.append_assoc, List.singleton_append,
                walk_skip (List.cons_ne_nil _ _)]
          refine ⟨links, fun t' larger whole => ?_⟩
          unfold locate
          dsimp only
          rw [some_path, isAbsolute_join some_base plain, start, if_neg Bool.false_ne_true,
            if_pos (directory_mono larger started), all larger]
        · cases way

/-- The last name on a way. It is not followed if it is no link, or is not to be. -/
theorem walk_name (whole : Bool) (links : Nat) (plain : Plain name)
    (no_link : whole = true → ∀ target, t.get? (name :: d) ≠ some (.link target)) :
    walk t whole links d [name] =
      if name.utf8ByteSize > nameLimit then .error (.system SystemCode.nameTooLong)
      else .ok (name :: d) := by
  have counts : ¬ (name = "" ∨ name = ".") := by
    rintro (h | h)
    · exact plain.nonempty h
    · exact plain.no_dot h
  rw [walk_eq, walkOver, if_neg counts, if_neg plain.no_dots]
  split
  · rfl
  · cases next : t.get? (name :: d) with
    | none => rfl
    | some n =>
      cases n with
      | link target =>
        cases whole with
        | false => rfl
        | true => exact absurd next (no_link rfl target)
      | directory => rfl
      | file mode content => rfl
      | device content => rfl
      | socket => rfl

/-- If a path fits, it leads to its last name in the directory. -/
theorem locate_of_fits (found : t.find true cwd base = .ok (d, .directory)) (plain : Plain name)
    (fits : Fits (Path.join base name) name) (whole : Bool)
    (no_link : whole = true → ∀ target, t.get? (name :: d) ≠ some (.link target)) :
    t.locate whole cwd (Path.join base name) = .ok (name :: d) := by
  obtain ⟨links, same⟩ := locate_join found plain
  rw [same t (Extends.refl t), fits.no_nul, if_neg Bool.false_ne_true,
    if_neg (Nat.not_le.mpr fits.short), walk_name whole links plain no_link,
    if_neg (Nat.not_lt.mpr fits.name_short)]

/-- A path that leads anywhere fits. -/
theorem fits_of_locate (found : t.find true cwd base = .ok (d, .directory)) (plain : Plain name)
    {whole : Bool} (way : t.locate whole cwd (Path.join base name) = .ok l) :
    Fits (Path.join base name) name := by
  obtain ⟨links, same⟩ := locate_join found plain
  rw [same t (Extends.refl t)] at way
  split at way
  · cases way
  · rename_i no_nul
    split at way
    · cases way
    · rename_i short
      refine ⟨Bool.eq_false_iff.mpr no_nul, Nat.not_le.mp short, ?_⟩
      apply Nat.not_lt.mp
      intro long
      have counts : ¬ (name = "" ∨ name = ".") := by
        rintro (h | h)
        · exact plain.nonempty h
        · exact plain.no_dot h
      rw [walk_eq, walkOver, if_neg counts, if_neg plain.no_dots, if_pos long] at way
      cases way

/-- A path of one more name leads into the directory, or to an error. -/
theorem locate_join_eq (found : t.find true cwd base = .ok (d, .directory)) (plain : Plain name)
    (whole : Bool) (no_link : whole = true → ∀ target, t.get? (name :: d) ≠ some (.link target))
    (way : t.locate whole cwd (Path.join base name) = .ok l) : l = name :: d := by
  have fits := fits_of_locate found plain way
  exact Except.ok.inj (way.symm.trans (locate_of_fits found plain fits whole no_link))

/-- A directory in a directory. -/
theorem find_join (found : t.find true cwd base = .ok (d, .directory)) (plain : Plain name)
    (fits : Fits (Path.join base name) name) (directory : t.get? (name :: d) = some .directory)
    (whole : Bool) : t.find whole cwd (Path.join base name) = .ok (name :: d, .directory) := by
  refine find_eq_ok.mpr ⟨locate_of_fits found plain fits whole ?_, directory⟩
  intro _ target link
  cases directory.symm.trans link

end

theorem eq_directory {node : Node} (directory : node.isDirectory = true) : node = .directory := by
  cases node with
  | directory => rfl
  | file mode content => cases directory
  | link target => cases directory
  | device content => cases directory
  | socket => cases directory

section
variable {t : Tree} {whole : Bool}

/-- A way that goes on with more names has been in a directory before them. -/
def Through (t : Tree) (f g : Location → List String → Except HostError Location) : Prop :=
  ∀ ⦃here names tail l⦄, t.get? here = some .directory → tail ≠ [] →
    f here (names ++ tail) = .ok l → ∃ d, g here names = .ok d ∧ t.get? d = some .directory

theorem walkOver_through (proper : Proper t)
    {f g : Location → List String → Except HostError Location} (hf : Through t f g) :
    Through t (walkOver t whole f) (walkOver t true g) := by
  intro here names tail l started more way
  induction names generalizing here with
  | nil => exact ⟨here, rfl, started⟩
  | cons name rest ih =>
    have goes_on : (rest ++ tail).isEmpty = false := by
      cases tail with
      | nil => exact absurd rfl more
      | cons a tail => simp
    rw [List.cons_append] at way
    unfold walkOver at way ⊢
    split at way
    · rename_i skipped
      rw [if_pos skipped]
      exact ih started way
    · rename_i counts
      rw [if_neg counts]
      split at way
      · rename_i up
        rw [if_pos up]
        apply ih _ way
        cases here with
        | nil => exact started
        | cons inner above =>
          apply @Proper.held t proper inner above
          rw [started]
          rfl
      · rename_i down
        rw [if_neg down]
        split at way
        · cases way
        · rename_i short
          rw [if_neg short]
          simp only [goes_on, Bool.false_and, Bool.false_eq_true, ↓reduceIte] at way
          cases next : t.get? (name :: here) with
          | none =>
            rw [next] at way
            cases way
          | some n =>
            rw [next] at way
            cases n with
            | directory => exact ih next way
            | link target =>
              simp only [Bool.not_true, Bool.and_false, Bool.false_eq_true, ↓reduceIte]
              dsimp only at way
              rw [← List.append_assoc] at way
              apply hf _ more way
              split
              · rfl
              · exact started
            | file mode content => cases way
            | device content => cases way
            | socket => cases way

theorem walk_through (proper : Proper t) (links : Nat) :
    Through t (walk t whole links) (walk t true links) := by
  induction links with
  | zero => exact walkOver_through proper fun _ _ _ _ _ _ way => by cases way
  | succ links ih => exact walkOver_through proper ih

theorem join_eq {base name : String} (some_base : base ≠ "") (plain : Plain name) :
    ∃ more, Path.join base name = base ++ more := by
  unfold Path.join
  rw [isAbsolute_plain plain, if_neg Bool.false_ne_true]
  split
  · rename_i empty
    exact absurd (String.toList_eq_nil_iff.mp (List.getLast?_eq_none_iff.mp empty)) some_base
  · exact ⟨name, rfl⟩
  · exact ⟨"/" ++ name, String.append_assoc⟩

theorem join_ne {base path : String} (some_base : base ≠ "") : Path.join base path ≠ "" := by
  have longer (more : String) : base ++ more ≠ "" := by
    intro same
    have none_left := congrArg String.toList same
    rw [String.toList_append] at none_left
    exact some_base (String.toList_eq_nil_iff.mp (List.append_eq_nil_iff.mp none_left).1)
  unfold Path.join
  split
  · rename_i absolute
    rintro rfl
    cases absolute
  · split
    · rename_i empty
      exact absurd (String.toList_eq_nil_iff.mp (List.getLast?_eq_none_iff.mp empty)) some_base
    · exact longer path
    · rw [String.append_assoc]
      exact longer _

/-- A path of one more name leads on from a directory, or to an error. -/
theorem find_of_join (proper : Proper t) {cwd l : Location} {base name : String}
    (some_base : base ≠ "") (plain : Plain name)
    (way : t.locate whole cwd (Path.join base name) = .ok l) :
    ∃ d, t.find true cwd base = .ok (d, .directory) := by
  obtain ⟨more, text⟩ := join_eq some_base plain
  obtain ⟨names, shorter, longer⟩ := segments_join some_base plain
  have no_nul (nul : base.toList.contains '\x00' = true) :
      (Path.join base name).toList.contains '\x00' = true := by
    rw [text, String.toList_append]
    simp only [List.contains_eq_mem, List.mem_append, decide_eq_true_eq] at nul ⊢
    exact .inl nul
  have size : base.utf8ByteSize ≤ (Path.join base name).utf8ByteSize := by
    rw [text, String.utf8ByteSize_append]
    exact Nat.le_add_right _ _
  suffices led : ∃ d, t.locate true cwd base = .ok d ∧ t.get? d = some .directory by
    obtain ⟨d, led, directory⟩ := led
    exact ⟨d, find_eq_ok.mpr ⟨led, directory⟩⟩
  unfold locate at way ⊢
  dsimp only at way ⊢
  rw [isAbsolute_join some_base plain, longer] at way
  generalize (if Path.isAbsolute base = true then [] else cwd) = start at way ⊢
  split at way
  · cases way
  · rename_i clean
    split at way
    · cases way
    · split at way
      · cases way
      · rename_i short
        split at way
        · rename_i started
          have at_start : t.get? start = some .directory := by
            cases there : t.get? start with
            | none =>
              rw [there] at started
              cases started
            | some node =>
              rw [there] at started
              rw [eq_directory started]
          obtain ⟨d, way, directory⟩ :=
            walk_through proper linkLimit at_start (List.cons_ne_nil name []) way
          refine ⟨d, ?_, directory⟩
          rw [if_neg fun nul => clean (no_nul nul),
            if_neg fun empty => some_base (String.isEmpty_iff.mp empty),
            if_neg fun long => short (Nat.le_trans long size)]
          rw [if_pos started]
          rcases shorter with same | slash
          · rw [same]
            exact way
          · obtain ⟨links, onwards⟩ := walk_append directory _ way
            have last : walk t true linkLimit start (names ++ [""]) = walk t true links d [""] :=
              onwards t (Extends.refl t) true _ (List.cons_ne_nil _ _)
            rw [slash, last, walk_eq, walkOver, if_pos (.inl rfl)]
            rfl
        · cases way

end

end ScriptSandbox.Proofs.Resolution
