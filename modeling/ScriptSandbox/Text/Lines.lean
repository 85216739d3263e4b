namespace ScriptSandbox

/-- The pieces of a text between separators. A text with `n` separators has `n + 1` pieces, and the
empty text is one empty piece. -/
def cutAt (separator : Char) : List Char → List (List Char)
  | [] => [[]]
  | c :: cs =>
    if c = separator then [] :: cutAt separator cs
    else
      match cutAt separator cs with
      | [] => [[c]]
      | piece :: pieces => (c :: piece) :: pieces

section
variable {separator c : Char} {cs piece : List Char}

@[simp]
theorem cutAt_nil (separator : Char) : cutAt separator [] = [[]] := rfl

@[simp]
theorem cutAt_separator (separator : Char) (cs : List Char) :
    cutAt separator (separator :: cs) = [] :: cutAt separator cs := by
  simp [cutAt]

@[simp]
theorem cutAt_ne_nil (separator : Char) (cs : List Char) : cutAt separator cs ≠ [] := by
  cases cs with
  | nil => simp
  | cons c cs =>
    unfold cutAt
    split
    · simp
    · split <;> simp

/-- A character that is no separator is the first one of the first piece. -/
@[simp]
theorem cutAt_cons (other : c ≠ separator) (cs : List Char) :
    cutAt separator (c :: cs) = (cutAt separator cs).modifyHead (c :: ·) := by
  obtain ⟨piece, pieces, cut⟩ := List.exists_cons_of_ne_nil (cutAt_ne_nil separator cs)
  simp [cutAt, other, cut]

/-- A text without separators is one piece. -/
@[simp]
theorem cutAt_whole (h : separator ∉ cs) : cutAt separator cs = [cs] := by
  induction cs with
  | nil => rfl
  | cons c cs ih =>
    simp only [List.mem_cons, not_or] at h
    simp [Ne.symm h.1, ih h.2]

/-- A separator between two texts ends the last piece of the first one. -/
theorem cutAt_append (separator : Char) (a b : List Char) :
    cutAt separator (a ++ separator :: b) = cutAt separator a ++ cutAt separator b := by
  induction a with
  | nil => simp
  | cons c a ih =>
    by_cases same : c = separator
    · simp [same, ih]
    · obtain ⟨piece, pieces, cut⟩ := List.exists_cons_of_ne_nil (cutAt_ne_nil separator a)
      simp [same, ih, cut]

theorem separator_of_mem_cutAt (h : piece ∈ cutAt separator cs) : separator ∉ piece := by
  induction cs generalizing piece with
  | nil =>
    obtain rfl := List.mem_singleton.mp h
    exact List.not_mem_nil
  | cons c cs ih =>
    by_cases same : c = separator
    · rw [same, cutAt_separator] at h
      rcases List.mem_cons.mp h with rfl | there
      · exact List.not_mem_nil
      · exact ih there
    · obtain ⟨first, pieces, cut⟩ := List.exists_cons_of_ne_nil (cutAt_ne_nil separator cs)
      rw [cutAt_cons same, cut, List.modifyHead_cons] at h
      rw [cut] at ih
      rcases List.mem_cons.mp h with rfl | there
      · simpa [Ne.symm same] using ih List.mem_cons_self
      · exact ih (List.mem_cons_of_mem _ there)

end

/-- The texts between the separators in a text. -/
def piecesOf (separator : Char) (text : String) : List String :=
  (cutAt separator text.toList).map String.ofList

@[simp]
theorem piecesOf_ne_nil (separator : Char) (text : String) : piecesOf separator text ≠ [] := by
  simp [piecesOf]

theorem piecesOf_whole {separator : Char} {text : String} (h : separator ∉ text.toList) :
    piecesOf separator text = [text] := by
  simp [piecesOf, h]

/-- A separator in a text ends the last piece of what is before it. -/
theorem piecesOf_cut {separator : Char} {text : String} {a b : List Char}
    (cut : text.toList = a ++ separator :: b) :
    piecesOf separator text =
      piecesOf separator (String.ofList a) ++ piecesOf separator (String.ofList b) := by
  simp only [piecesOf, cut, cutAt_append, List.map_append, String.toList_ofList]

theorem separator_of_mem_piecesOf {separator : Char} {text piece : String}
    (h : piece ∈ piecesOf separator text) : separator ∉ piece.toList := by
  obtain ⟨cs, known, rfl⟩ := List.mem_map.mp h
  rw [String.toList_ofList]
  exact separator_of_mem_cutAt known

namespace Lines

/-- The lines with one line feed between neighbours. -/
def join : List (List Char) → List Char
  | [] => []
  | [l] => l
  | l :: m :: ls => l ++ '\n' :: join (m :: ls)

/-- Joining the lines of a text gives the text back. -/
@[simp]
theorem join_cutAt (cs : List Char) : join (cutAt '\n' cs) = cs := by
  induction cs with
  | nil => rfl
  | cons c cs ih =>
    obtain ⟨l, ls, lines⟩ := List.exists_cons_of_ne_nil (cutAt_ne_nil '\n' cs)
    rw [lines] at ih
    by_cases hc : c = '\n'
    · simp [hc, lines, join, ih]
    · cases ls with
      | nil => simpa [hc, lines, join] using ih
      | cons m ms => simpa [hc, lines, join] using ih

/-- Cutting joined lines gives the lines back, provided that there are any and none holds a line
feed itself. -/
theorem cutAt_join {ls : List (List Char)} (some_line : ls ≠ []) (h : ∀ l ∈ ls, '\n' ∉ l) :
    cutAt '\n' (join ls) = ls := by
  induction ls with
  | nil => exact absurd rfl some_line
  | cons l ls ih =>
    have first := cutAt_whole (h l List.mem_cons_self)
    cases ls with
    | nil => exact first
    | cons m ms =>
      rw [join, cutAt_append, first,
        ih (List.cons_ne_nil m ms) fun k hk => h k (List.mem_cons_of_mem l hk)]
      rfl

theorem join_append {ls ms : List (List Char)} (some_line : ls ≠ []) (some_more : ms ≠ []) :
    join (ls ++ ms) = join ls ++ '\n' :: join ms := by
  induction ls with
  | nil => exact absurd rfl some_line
  | cons l ls ih =>
    cases ls with
    | nil =>
      obtain ⟨m, ms, rfl⟩ := List.exists_cons_of_ne_nil some_more
      rfl
    | cons k ls =>
      have rest := ih (List.cons_ne_nil k ls)
      simp only [List.cons_append, join] at rest ⊢
      rw [rest, List.append_assoc, List.cons_append]

end Lines

/-- The lines of a text, in order and without their line feeds. -/
def linesOf (text : String) : List String :=
  piecesOf '\n' text

/-- The text with these lines. -/
def textOf (lines : List String) : String :=
  String.ofList (Lines.join (lines.map String.toList))

@[simp]
theorem linesOf_ne_nil (text : String) : linesOf text ≠ [] := piecesOf_ne_nil _ text

@[simp]
theorem textOf_linesOf (text : String) : textOf (linesOf text) = text := by
  rw [← String.toList_inj]
  simp [textOf, linesOf, piecesOf, List.map_map, Function.comp_def]

theorem textOf_append {ls ms : List String} (some_line : ls ≠ []) (some_more : ms ≠ []) :
    textOf (ls ++ ms) = textOf ls ++ "\n" ++ textOf ms := by
  rw [← String.toList_inj]
  simp [textOf, Lines.join_append, some_line, some_more]

theorem linesOf_feed (a b : String) : linesOf (a ++ "\n" ++ b) = linesOf a ++ linesOf b := by
  have text : (a ++ "\n" ++ b).toList = a.toList ++ '\n' :: b.toList := by
    simp [String.toList_append]
  rw [linesOf, piecesOf_cut text, String.ofList_toList, String.ofList_toList]
  rfl

/-- Different texts have different lines. -/
@[simp]
theorem linesOf_inj {a b : String} : linesOf a = linesOf b ↔ a = b := by
  constructor
  · intro same
    have lines := (List.map_inj_right fun _ _ => String.ofList_inj.mp).mp same
    rw [← String.toList_inj, ← Lines.join_cutAt a.toList, lines, Lines.join_cutAt]
  · exact congrArg linesOf

/-- Every line of the text with `margin` before it. -/
def indent (margin text : String) : String :=
  textOf ((linesOf text).map (margin ++ ·))

inductive Alignment where
  | left | right | center
deriving Repr, DecidableEq

/-- How a text is set into a column: it is cut to a greatest length, then filled up to a least
width. -/
structure Column where
  width : Nat := 0
  /-- The greatest length, in characters. -/
  limit : Option Nat := none
  alignment : Alignment := .left
  fill : Char := ' '
deriving Repr, DecidableEq

namespace Column

/-- How much of the filling stands on the left; the odd one out of a centred text stands on the
right. -/
def leading (c : Column) (missing : Nat) : Nat :=
  match c.alignment with
  | .left => 0
  | .right => missing
  | .center => missing / 2

def set (c : Column) (text : String) : String :=
  let kept := match c.limit with
    | none => text.toList
    | some n => text.toList.take n
  let missing := c.width - kept.length
  let before := c.leading missing
  String.ofList
    (List.replicate before c.fill ++ kept ++ List.replicate (missing - before) c.fill)

end Column
end ScriptSandbox
