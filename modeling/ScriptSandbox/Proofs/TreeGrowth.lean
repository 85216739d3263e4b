import ScriptSandbox.Machine.Tree

namespace ScriptSandbox.Proofs.TreeGrowth
open ScriptSandbox.Tree

@[simp]
theorem mem_names {t : Tree} {l : Location} {name : String} :
    name ∈ t.names l ↔ (t.get? (name :: l)).isSome = true := by
  have lookup : (t.get? (name :: l)).isSome = true ↔
      ∃ e ∈ t.level l.length, e.1 = name :: l := by
    simp [get?, List.find?_isSome]
  rw [lookup, names, List.mem_filterMap]
  constructor
  · rintro ⟨⟨place, node⟩, he, held⟩
    refine ⟨_, he, ?_⟩
    cases place with
    | nil => cases held
    | cons first above =>
      dsimp only at held
      split at held
      · rename_i same
        rw [same, Option.some.inj held]
      · cases held
  · rintro ⟨e, he, same⟩
    refine ⟨e, he, ?_⟩
    rw [same]
    simp

@[simp]
theorem level_put {t : Tree} {name : String} {above : Location} (node : Node) (n : Nat) :
    (t.put (name :: above) node).level n =
      if n = above.length then
        (t.level n).filter (·.1 != name :: above) ++ [(name :: above, node)]
      else t.level n := by
  by_cases same : n = above.length
  · simp [put, level, same]
  · simp [put, level, same, Ne.symm same]

@[simp]
theorem level_cut (t : Tree) (l : Location) (n : Nat) :
    (t.cut l).level n = (t.level n).filter fun e => !l.isSuffixOf e.1 := by
  simp only [cut, level, List.getD_eq_getElem?_getD, List.getElem?_map]
  cases t.levels[n]? <;> rfl

@[simp]
theorem get?_cut (t : Tree) {l : Location} (inside : l ≠ []) (m : Location) :
    (t.cut l).get? m = if l <:+ m then none else t.get? m := by
  cases m with
  | nil =>
    have apart : ¬ l <:+ [] := fun h => inside (List.suffix_nil.mp h)
    rw [if_neg apart]
    rfl
  | cons name above =>
    simp only [get?, level_cut, List.find?_filter]
    split
    · rename_i within
      rw [Option.map_eq_none_iff, List.find?_eq_none]
      intro e _
      by_cases same : e.1 = name :: above
      · simp [same, within]
      · simp [same]
    · rename_i apart
      have kept : l.isSuffixOf (name :: above) = false := by
        rw [← Bool.not_eq_true, List.isSuffixOf_iff_suffix]
        exact apart
      congr 2
      funext e
      by_cases same : e.1 = name :: above
      · simp [same, kept]
      · simp [same]

/-- Nothing is taken away or replaced, and what is new is where `new` says. -/
structure Adds (new : Location → Prop) (t t' : Tree) : Prop where
  kept : ∀ {l node}, t.get? l = some node → t'.get? l = some node
  elsewhere : ∀ {l}, ¬ new l → t'.get? l = t.get? l

/-- All nodes of `t` are in `t'`. -/
def Extends (t t' : Tree) : Prop := ∀ l node, t.get? l = some node → t'.get? l = some node

variable {t t' t'' : Tree} {l m : Location} {p q r : Location → Prop}

@[refl]
theorem Adds.refl (p : Location → Prop) (t : Tree) : Adds p t t := ⟨id, fun _ => rfl⟩

theorem Adds.extends (h : Adds p t t') : Extends t t' := fun _ _ => h.kept

theorem Adds.trans (first : Adds p t t') (second : Adds q t' t'') (hp : ∀ l, p l → r l)
    (hq : ∀ l, q l → r l) : Adds r t t'' := by
  refine ⟨fun hl => second.kept (first.kept hl), ?_⟩
  intro l old
  rw [second.elsewhere fun hl => old (hq l hl), first.elsewhere fun hl => old (hp l hl)]

theorem Adds.mono (h : Adds p t t') (hp : ∀ l, p l → r l) : Adds r t t' :=
  ⟨h.kept, fun old => h.elsewhere fun hl => old (hp _ hl)⟩

theorem Adds.put (free : t.get? l = none) (node : Node) : Adds (· = l) t (t.put l node) := by
  refine ⟨?_, ?_⟩
  · intro m old hm
    have other : l ≠ m := by
      rintro rfl
      cases free.symm.trans hm
    simpa [other] using hm
  · intro m other
    simp [Ne.symm other]

@[refl]
theorem Extends.refl (t : Tree) : Extends t t := fun _ _ => id

theorem Extends.trans (h : Extends t t') (h' : Extends t' t'') : Extends t t'' :=
  fun l node hl => h' l node (h l node hl)

/-- A name that stands for itself in paths. -/
structure Plain (name : String) : Prop where
  nonempty : name ≠ ""
  no_dot : name ≠ "."
  no_dots : name ≠ ".."
  no_slash : '/' ∉ name.toList

theorem plain_iff {name : String} :
    name ≠ "" ∧ name ≠ "." ∧ name ≠ ".." ∧ '/' ∉ name.toList ↔ Plain name :=
  ⟨fun ⟨nonempty, no_dot, no_dots, no_slash⟩ => ⟨nonempty, no_dot, no_dots, no_slash⟩,
    fun plain => ⟨plain.nonempty, plain.no_dot, plain.no_dots, plain.no_slash⟩⟩

instance (name : String) : Decidable (Plain name) := decidable_of_iff _ plain_iff

/-- Everything lies in a directory, under a name of its own. -/
structure Proper (t : Tree) : Prop where
  held : ∀ {name l}, (t.get? (name :: l)).isSome = true → t.get? l = some .directory
  plain : ∀ {name l}, (t.get? (name :: l)).isSome = true → Plain name
  once : ∀ l, (t.names l).Nodup

theorem proper_empty : Proper {} := by
  refine ⟨?_, ?_, fun _ => List.nodup_nil⟩
  · intro name l there
    cases there
  · intro name l there
    cases there

/-- Nothing lies in what does not exist or is no directory. -/
theorem Proper.none_below (h : Proper t) (holder : t.get? l ≠ some .directory) {way : Location}
    (below : way ≠ []) : t.get? (way ++ l) = none := by
  induction way with
  | nil => exact absurd rfl below
  | cons name way ih =>
    apply Option.not_isSome_iff_eq_none.mp
    intro there
    have above := h.held there
    cases way with
    | nil => exact holder above
    | cons next way =>
      have none_there := ih (List.cons_ne_nil next way)
      cases none_there.symm.trans above

/-- A new node makes no difference to the names elsewhere, and is the last name in its directory. -/
theorem names_put {name : String} {above : Location} (node : Node)
    (free : t.get? (name :: above) = none) (l : Location) :
    (t.put (name :: above) node).names l =
      if l = above then t.names l ++ [name] else t.names l := by
  have absent : ∀ e ∈ t.level above.length, e.1 ≠ name :: above := by
    intro e he same
    have : (t.get? (name :: above)).isSome = true := by
      simp only [get?, Option.isSome_map, List.find?_isSome]
      exact ⟨e, he, by simp [same]⟩
    rw [free] at this
    cases this
  have all : (t.level above.length).filter (·.1 != name :: above) = t.level above.length := by
    apply List.filter_eq_self.mpr
    intro e he
    simpa using absent e he
  simp only [names, level_put]
  by_cases same : l = above
  · simp [same, all, List.filterMap_append]
  · by_cases length : l.length = above.length
    · simp [same, Ne.symm same, length, all, List.filterMap_append]
    · simp [same, length]

theorem Proper.put (h : Proper t) {name : String} {above : Location} {node : Node}
    (free : t.get? (name :: above) = none) (holder : t.get? above = some .directory)
    (plain : Plain name) : Proper (t.put (name :: above) node) := by
  have added := Adds.put free node
  have old {other : String} {l : Location}
      (there : ((t.put (name :: above) node).get? (other :: l)).isSome = true)
      (apart : other :: l ≠ name :: above) : (t.get? (other :: l)).isSome = true := by
    rw [added.elsewhere apart] at there
    exact there
  refine ⟨?_, ?_, ?_⟩
  · intro other l there
    by_cases same : other :: l = name :: above
    · obtain ⟨rfl, rfl⟩ := List.cons.inj same
      exact added.kept holder
    · exact added.kept (h.held (old there same))
  · intro other l there
    by_cases same : other :: l = name :: above
    · obtain ⟨rfl, rfl⟩ := List.cons.inj same
      exact plain
    · exact h.plain (old there same)
  · intro l
    rw [names_put node free]
    split
    · rename_i same
      subst same
      apply List.nodup_append.mpr
      refine ⟨h.once l, List.pairwise_singleton _ _, ?_⟩
      intro a ha b hb hab
      rw [List.mem_singleton] at hb
      subst hab hb
      simp [free] at ha
    · exact h.once l

theorem Proper.cut (h : Proper t) (inside : l ≠ []) : Proper (t.cut l) := by
  have old {name : String} {m : Location} (there : ((t.cut l).get? (name :: m)).isSome = true) :
      (t.get? (name :: m)).isSome = true ∧ ¬ l <:+ name :: m := by
    by_cases within : l <:+ name :: m
    · simp [inside, within] at there
    · simp only [get?_cut t inside, within, if_false] at there
      exact ⟨there, within⟩
  refine ⟨?_, ?_, ?_⟩
  · intro name m there
    obtain ⟨there, apart⟩ := old there
    have apart' : ¬ l <:+ m := fun within => apart (List.suffix_cons_iff.mpr (.inr within))
    simpa [inside, apart'] using h.held there
  · intro name m there
    exact h.plain (old there).1
  · intro m
    have fewer : ((t.cut l).names m).Sublist (t.names m) := by
      simp only [names, level_cut]
      exact (List.filter_sublist).filterMap _
    exact fewer.nodup (h.once m)

/-- Nothing lies at or below a location that is free. -/
theorem Proper.none_within (h : Proper t) (free : t.get? l = none) (within : l <:+ m) :
    t.get? m = none := by
  obtain ⟨way, rfl⟩ := within
  cases way with
  | nil => exact free
  | cons name way =>
    apply h.none_below _ (List.cons_ne_nil name way)
    rw [free]
    exact nofun

/-- Taking away all that was added at a free location gives the old tree back. -/
theorem get?_cut_adds (h : Proper t) (free : t.get? l = none) (added : Adds (l <:+ ·) t t')
    (m : Location) : (t'.cut l).get? m = t.get? m := by
  have inside : l ≠ [] := ne_nil_of_get? (t := t) (by simp [free])
  by_cases within : l <:+ m
  · simp [inside, within, h.none_within free within]
  · simp [inside, within, added.elsewhere within]

/-- What lies at or below one name does not lie at or below another. -/
theorem suffix_unique {a b : String} {l m : Location} (ha : a :: l <:+ m) (hb : b :: l <:+ m) :
    a = b := by
  have same := List.suffix_of_suffix_length_le ha hb (Nat.le_refl _)
  have equal := List.IsSuffix.eq_of_length same rfl
  exact (List.cons.inj equal).1

theorem suffix_of_cons {a : String} {l m : Location} (h : a :: l <:+ m) : l <:+ m :=
  (List.suffix_cons a l).trans h

end ScriptSandbox.Proofs.TreeGrowth
