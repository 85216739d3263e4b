import ScriptSandbox.Proofs.Splicing
import ScriptSandbox.Script.Program

namespace ScriptSandbox.Proofs.Layout
open Program Splicing

def preamble : Language → String → List String
  | .python => pythonPreamble
  | .quickJs => quickJsPreamble

/-- The number of lines before the script. -/
def bodyStart : Language → Nat
  | .python => 6
  | .quickJs => 14

/-- The place in the preamble of the line that holds the input. -/
def inputLine : Language → Nat
  | .python => 1
  | .quickJs => 0

def epilogue : Language → List String
  | .python => pythonEpilogue
  | .quickJs => quickJsEpilogue

/-- Nothing is left of the line without its white space, or a comment. -/
def Idle (line : String) : Prop := trimmed line = "" ∨ (trimmed line).toList.head? = some '#'

/-- How the lines of a program stand to those of its script. -/
structure LaidOut (l : Language) (script : String) (input : Json) (p : Program) : Prop where
  preamble_length : (preamble l input.literal).length = bodyStart l
  /-- All other lines of the preamble are the same for every input. -/
  preamble_fixed : ∀ other : Json, (preamble l other.literal).eraseIdx (inputLine l) =
    (preamble l input.literal).eraseIdx (inputLine l)
  /-- `pass` stands after the script if the language needs a statement and the script has none. -/
  lines : ∃ filler,
    linesOf p.source =
      preamble l input.literal ++ (linesOf script).map ("  " ++ ·) ++ filler ++ epilogue l ∧
    (filler = ["  pass"] ∧ (l = .python ∧ ∀ line ∈ linesOf script, Idle line) ∨
      filler = [] ∧ ¬ (l = .python ∧ ∀ line ∈ linesOf script, Idle line))
  offset : p.offset = bodyStart l
  scriptLine : ∀ g n, p.scriptLine g = some n ↔
    1 ≤ n ∧ n ≤ (linesOf script).length ∧ g = bodyStart l + n
  attributed : ∀ g n, p.scriptLine g = some n → ∃ line,
    (linesOf script)[n - 1]? = some line ∧ (linesOf p.source)[g - 1]? = some ("  " ++ line)

def IsLine (line : String) : Prop := '\n' ∉ line.toList

theorem isLine_ofList {cs : List Char} (h : '\n' ∉ cs) : IsLine (String.ofList cs) := by
  rw [IsLine, String.toList_ofList]
  exact h

theorem IsLine.append {a b : String} (ha : IsLine a) (hb : IsLine b) : IsLine (a ++ b) := by
  simp only [IsLine, String.toList_append, List.mem_append, not_or]
  exact ⟨ha, hb⟩

theorem isLine_of_mem_linesOf {text line : String} (h : line ∈ linesOf text) : IsLine line := by
  obtain ⟨l, hl, rfl⟩ := List.mem_map.mp h
  rw [IsLine, String.toList_ofList]
  exact separator_of_mem_cutAt hl

/-- The input adds no line to a program. -/
theorem isLine_literal (v : Json) : IsLine v.literal := by
  intro h
  rw [Json.literal, String.toList_ofList] at h
  exact absurd (visible_quote _ _ h) (by decide)

/-- Cutting a text gives back the lines that it was made of. -/
theorem linesOf_textOf {ls : List String} (some_line : ls ≠ []) (h : ∀ l ∈ ls, IsLine l) :
    linesOf (textOf ls) = ls := by
  rw [linesOf, piecesOf, textOf, String.toList_ofList, Lines.cutAt_join]
  · simp [List.map_map, Function.comp_def]
  · simpa using some_line
  · intro l hl
    obtain ⟨line, hline, rfl⟩ := List.mem_map.mp hl
    exact h line hline

theorem isLine_preamble (l : Language) (v : Json) : ∀ line ∈ preamble l v.literal, IsLine line := by
  have around {a b : List Char} (ha : '\n' ∉ a) (hb : '\n' ∉ b) :
      IsLine (String.ofList a ++ v.literal ++ String.ofList b) :=
    ((isLine_ofList ha).append (isLine_literal v)).append (isLine_ofList hb)
  cases l with
  | python =>
    simp only [preamble, pythonPreamble, List.forall_mem_cons]
    refine ⟨isLine_ofList (by decide), around (by decide) (by decide), ?_⟩
    repeat' apply And.intro
    all_goals first
      | exact isLine_ofList (by decide)
      | exact List.forall_mem_nil _
  | quickJs =>
    simp only [preamble, quickJsPreamble, List.forall_mem_cons]
    refine ⟨around (by decide) (by decide), ?_⟩
    repeat' apply And.intro
    all_goals first
      | exact isLine_ofList (by decide)
      | exact List.forall_mem_nil _

theorem isLine_bodyOf (script : String) : ∀ line ∈ bodyOf script, IsLine line := by
  intro line h
  obtain ⟨l, hl, rfl⟩ := List.mem_map.mp h
  exact IsLine.append (isLine_ofList (by decide)) (isLine_of_mem_linesOf hl)

theorem isLine_filler (script : String) : ∀ line ∈ filler script, IsLine line := by
  unfold filler
  split
  · exact List.forall_mem_nil _
  · rw [List.forall_mem_singleton]
    exact IsLine.append (isLine_ofList (by decide)) (isLine_ofList (by decide))

theorem isLine_epilogue (l : Language) : ∀ line ∈ epilogue l, IsLine line := by
  cases l
  all_goals
    simp only [epilogue, pythonEpilogue, quickJsEpilogue, List.forall_mem_cons]
    repeat' apply And.intro
  all_goals first
    | exact isLine_ofList (by decide)
    | exact List.forall_mem_nil _

theorem isStatement_eq_false_iff (line : String) : isStatement line = false ↔ Idle line := by
  have start : (trimmed line).toList = Blank.trim line.toList := by simp [trimmed]
  have nothing : trimmed line = "" ↔ Blank.trim line.toList = [] := by
    rw [← String.toList_inj, start]
    simp
  simp only [Idle, nothing, start, isStatement]
  cases Blank.trim line.toList with
  | nil => simp
  | cons c cs => simp

theorem hasStatements_eq_false_iff (script : String) :
    hasStatements script = false ↔ ∀ line ∈ linesOf script, Idle line := by
  simp only [hasStatements, List.any_eq_false, Bool.not_eq_true, isStatement_eq_false_iff]

/-- What comes between the script and the epilogue. -/
def gap : Language → String → List String
  | .python => filler
  | .quickJs => fun _ => []

theorem wrap_eq (l : Language) (script : String) (input : Json) :
    l.wrap script input =
      ⟨preamble l input.literal, bodyOf script, gap l script ++ epilogue l⟩ := by
  cases l <;> rfl

theorem linesOf_source (l : Language) (script : String) (input : Json) :
    linesOf (l.wrap script input).source =
      preamble l input.literal ++ bodyOf script ++ gap l script ++ epilogue l := by
  have some_line : preamble l input.literal ≠ [] := by cases l <;> simp [preamble, pythonPreamble,
    quickJsPreamble]
  have no_feed : ∀ line ∈ gap l script, IsLine line := by
    cases l with
    | python => exact isLine_filler script
    | quickJs => simp [gap]
  rw [wrap_eq, source, linesOf_textOf]
  · simp only [List.append_assoc]
  · simp [some_line]
  · intro line h
    simp only [List.mem_append] at h
    rcases h with (h | h) | h | h
    · exact isLine_preamble l input line h
    · exact isLine_bodyOf script line h
    · exact no_feed line h
    · exact isLine_epilogue l line h

theorem gap_cases (l : Language) (script : String) :
    gap l script = ["  pass"] ∧ (l = .python ∧ ∀ line ∈ linesOf script, Idle line) ∨
      gap l script = [] ∧ ¬ (l = .python ∧ ∀ line ∈ linesOf script, Idle line) := by
  cases l with
  | quickJs => right; simp [gap]
  | python =>
    have statements := hasStatements_eq_false_iff script
    cases h : hasStatements script with
    | true =>
      right
      refine ⟨by simp [gap, filler, h], ?_⟩
      rintro ⟨_, idle⟩
      rw [statements.mpr idle] at h
      contradiction
    | false =>
      left
      exact ⟨by simp [gap, filler, h, margin], rfl, statements.mp h⟩

@[simp]
theorem preamble_length (l : Language) (literal : String) :
    (preamble l literal).length = bodyStart l := by
  cases l <;> rfl

theorem scriptLine_eq_some_iff (p : Program) (g n : Nat) :
    p.scriptLine g = some n ↔ 1 ≤ n ∧ n ≤ p.body.length ∧ g = p.offset + n := by
  unfold scriptLine
  split
  · rw [Option.some.injEq]
    omega
  · simp only [reduceCtorEq, false_iff]
    omega

/-- The lines of a program, its offset and its line numbers agree with each other and with the
script, whatever the script and the input are. -/
theorem laidOut_wrap (l : Language) (script : String) (input : Json) :
    LaidOut l script input (l.wrap script input) := by
  have start : (l.wrap script input).offset = bodyStart l := by
    simp [wrap_eq, Program.offset]
  have body_length : (l.wrap script input).body.length = (linesOf script).length := by
    rw [wrap_eq]
    exact List.length_map ..
  have numbers (g n : Nat) : (l.wrap script input).scriptLine g = some n ↔
      1 ≤ n ∧ n ≤ (linesOf script).length ∧ g = bodyStart l + n := by
    rw [scriptLine_eq_some_iff, start, body_length]
  refine ⟨by simp, ?_,
    ⟨gap l script, linesOf_source l script input, gap_cases l script⟩, start, numbers, ?_⟩
  · intro other
    cases l <;> rfl
  · intro g n h
    obtain ⟨first, last, rfl⟩ := (numbers g n).mp h
    have inside : n - 1 < (linesOf script).length := by omega
    refine ⟨_, List.getElem?_eq_getElem inside, ?_⟩
    have place : bodyStart l + n - 1 = (preamble l input.literal).length + (n - 1) := by
      simp only [preamble_length]
      omega
    rw [linesOf_source, place, List.append_assoc, List.append_assoc, List.getElem?_append_right
      (Nat.le_add_right _ _), Nat.add_sub_cancel_left, List.getElem?_append_left (by simpa [bodyOf]
      using inside), bodyOf, List.getElem?_map, List.getElem?_eq_getElem inside]
    rfl

/-- The second line of a script of two is line 8 of the program in Python. -/
theorem laidOut_two_lines :
    (Program.python "x = 1\nreturn x" .null).scriptLine 8 = some 2 ∧
      ∃ line, (linesOf "x = 1\nreturn x")[1]? = some line ∧
        (linesOf (Program.python "x = 1\nreturn x" .null).source)[7]? = some ("  " ++ line) :=
  have found : (Program.python "x = 1\nreturn x" .null).scriptLine 8 = some 2 := by decide
  ⟨found, (laidOut_wrap .python "x = 1\nreturn x" .null).attributed 8 2 found⟩

end ScriptSandbox.Proofs.Layout
