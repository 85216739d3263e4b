import ScriptSandbox.Proofs.LibraryCopied

namespace ScriptSandbox.Proofs.UnnamedPlace
open ScriptSandbox.Tree TreeGrowth Resolution LibraryCopied

/-- No link has the name of the place `l` in it. -/
def Unnamed (t : Tree) (l : Location) : Prop :=
  ∀ m target, t.get? m = some (.link target) → ∀ name ∈ l.head?, name ∉ Path.segments target

theorem unnamed_empty (l : Location) : Unnamed {} l := by
  intro m target there
  cases m with
  | nil => cases there
  | cons name m => cases there

theorem Unnamed.put {t : Tree} {l m : Location} {node : Node} (unnamed : Unnamed t l)
    (free : t.get? m = none)
    (other : ∀ target, node = .link target → ∀ name ∈ l.head?, name ∉ Path.segments target) :
    Unnamed (t.put m node) l := by
  have added := Adds.put free node
  intro m' target there
  by_cases same : m' = m
  · subst same
    have inside : m' ≠ [] := ne_nil_of_get? (t := t) (by simp [free])
    rw [get?_put_self t inside, Option.some.injEq] at there
    exact other target there
  · exact unnamed m' target ((added.elsewhere same).symm.trans there)

/-- Two ways that end alike, and not inside the place `l`. -/
def Alike (l : Location) (r r' : Except HostError Location) : Prop :=
  r' = r ∧ ∀ m, r = .ok m → ¬ l <:+ m

section
variable {t t' : Tree} {whole : Bool} {own name : String} {above here d : Location}
  {f f' : Location → List String → Except HostError Location} {rest : List String}

theorem alike_error (l : Location) (e : HostError) : Alike l (.error e) (.error e) :=
  ⟨rfl, nofun⟩

theorem alike_ok {l m : Location} (outside : ¬ l <:+ m) : Alike l (.ok m) (.ok m) := by
  refine ⟨rfl, ?_⟩
  rintro _ ⟨⟩
  exact outside

/-- The ways from outside the place are alike, if its name is not on them. -/
def AllAlike (own : String) (above : Location)
    (f f' : Location → List String → Except HostError Location) : Prop :=
  ∀ here names, ¬ own :: above <:+ here → own ∉ names →
    Alike (own :: above) (f here names) (f' here names)

variable (unnamed : Unnamed t (own :: above))
  (same : ∀ m, ¬ own :: above <:+ m → t'.get? m = t.get? m)

include unnamed same in
/-- The first name on a way may be that of the place if it leads elsewhere. -/
theorem walkOver_cons_alike (follow : AllAlike own above f f') (outside : ¬ own :: above <:+ here)
    (next : ¬ own :: above <:+ name :: here) (free : own ∉ rest)
    (go_on : ∀ m, ¬ own :: above <:+ m →
      Alike (own :: above) (walkOver t whole f m rest) (walkOver t' whole f' m rest)) :
    Alike (own :: above) (walkOver t whole f here (name :: rest))
      (walkOver t' whole f' here (name :: rest)) := by
  have ends (e : HostError) : Alike (own :: above)
      (if rest.isEmpty = true then .ok (name :: here) else .error e)
      (if rest.isEmpty = true then .ok (name :: here) else .error e) := by
    split
    · exact alike_ok next
    · exact alike_error _ e
  unfold walkOver
  split
  · exact go_on here outside
  · split
    · apply go_on
      intro within
      apply outside
      cases here with
      | nil => exact within
      | cons _ here => exact List.suffix_cons_iff.mpr (.inr within)
    · split
      · exact alike_error _ _
      · rw [same _ next]
        cases there : t.get? (name :: here) with
        | none => exact ends _
        | some node =>
          cases node with
          | directory => exact go_on _ next
          | link target =>
            dsimp only
            split
            · exact alike_ok next
            · apply follow
              · split
                · exact fun within => List.cons_ne_nil _ _ (List.suffix_nil.mp within)
                · exact outside
              · rw [List.mem_append]
                rintro (named | more)
                · exact unnamed _ _ there own rfl named
                · exact free more
          | file mode content => exact ends _
          | device content => exact ends _
          | socket => exact ends _

theorem outside_cons (outside : ¬ own :: above <:+ here) (other : own ≠ name) :
    ¬ own :: above <:+ name :: here := by
  intro within
  rcases List.suffix_cons_iff.mp within with at_it | within
  · exact other (List.cons.inj at_it).1
  · exact outside within

include unnamed same in
theorem walkOver_alike (follow : AllAlike own above f f') :
    AllAlike own above (walkOver t whole f) (walkOver t' whole f') := by
  intro here names outside free
  induction names generalizing here with
  | nil => exact alike_ok outside
  | cons name rest ih =>
    obtain ⟨other, free⟩ := not_or.mp fun h => free (List.mem_cons.mpr h)
    exact walkOver_cons_alike unnamed same follow outside (outside_cons outside other) free
      fun m outside => ih m outside free

include unnamed same in
theorem onward_alike (links : Nat) :
    AllAlike own above (onward t whole links) (onward t' whole links) := by
  induction links with
  | zero => exact fun _ _ _ _ => alike_error _ _
  | succ links ih =>
    rw [onward, onward, walk_eq, walk_eq]
    exact walkOver_alike unnamed same ih

include unnamed same in
/-- The path of what lies in a directory leads to the same in the larger tree, although the place
has been filled there. -/
theorem locate_join_alike (larger : Extends t t') {cwd : Location} {base : String}
    (found : t.find true cwd base = .ok (d, .directory)) (plain : Plain name)
    (outside : ¬ own :: above <:+ d) (next : ¬ own :: above <:+ name :: d) (whole : Bool) :
    Alike (own :: above) (t.locate whole cwd (Path.join base name))
      (t'.locate whole cwd (Path.join base name)) := by
  obtain ⟨links, ways⟩ := locate_join found plain
  rw [ways t (Extends.refl t), ways t' larger]
  split
  · exact alike_error _ _
  · split
    · exact alike_error _ _
    · rw [walk_eq, walk_eq]
      exact walkOver_cons_alike unnamed same (onward_alike unnamed same links) outside next
        List.not_mem_nil fun m outside => alike_ok outside

theorem under_ne {base : String} (some_base : base ≠ "") (way : Location) :
    under base way ≠ "" := by
  induction way with
  | nil => exact some_base
  | cons name way ih => exact join_ne ih

/-- What is found in the library when the place `l` has been filled was found before. -/
theorem find_of_unnamed {l origin : Location} {cwd : Location} {library : String}
    (unnamed : Unnamed t l) (same : ∀ m, ¬ l <:+ m → t'.get? m = t.get? m) (larger : Extends t t')
    (proper : Proper t) (proper' : Proper t') (free : t.get? l = none)
    (led : t.find true cwd library = .ok (origin, .directory))
    {way : Location} {node node' : Node} {m : Location}
    (there : t.get? (way ++ origin) = some node)
    (found : t'.find true cwd (under library way) = .ok (m, node')) :
    t.find true cwd (under library way) = .ok (m, node') ∧
      (node = .directory → m = way ++ origin) := by
  induction way generalizing node m node' with
  | nil =>
    obtain ⟨rfl, rfl⟩ := find_unique (find_mono larger led) found
    exact ⟨led, fun _ => rfl⟩
  | cons name way ih =>
    have plain : Plain name := proper.plain (l := way ++ origin) (Option.isSome_of_eq_some there)
    have holder : t.get? (way ++ origin) = some .directory :=
      @Proper.held t proper name (way ++ origin) (Option.isSome_of_eq_some there)
    have outside {l' : Location} {node : Node} (there : t.get? l' = some node) : ¬ l <:+ l' := by
      intro within
      cases (proper.none_within free within).symm.trans there
    have some_base : under library way ≠ "" := under_ne (base_ne led) way
    -- The way goes through the directory above, and from there over one more name.
    obtain ⟨d, base⟩ := find_of_join proper' some_base plain (find_eq_ok.mp found).1
    obtain ⟨base, place⟩ := ih holder base
    obtain rfl := place rfl
    obtain ⟨way', there'⟩ := find_eq_ok.mp found
    obtain ⟨own, above, rfl⟩ : ∃ own above, l = own :: above := by
      cases l with
      | nil => exact absurd (List.nil_suffix) (outside there)
      | cons own above => exact ⟨own, above, rfl⟩
    obtain ⟨alike, ends⟩ := locate_join_alike unnamed same larger base plain (outside holder)
      (outside there) true
    have located : t.locate true cwd (under library (name :: way)) = .ok m := alike.symm.trans way'
    refine ⟨find_eq_ok.mpr ⟨located, (same m (ends m located)).symm.trans there'⟩, ?_⟩
    rintro rfl
    exact locate_join_eq base plain true (fun _ target link => by cases link.symm.trans there)
      located

end
end ScriptSandbox.Proofs.UnnamedPlace
