import ScriptSandbox.Proofs.Margins

namespace ScriptSandbox.Proofs.PythonLines
open Program Layout Margins

/-- A line feed in place of each line end: a line feed, a carriage return and a line feed together,
or a carriage return alone. -/
def unified : List Char → List Char
  | [] => []
  | '\r' :: '\n' :: cs => '\n' :: unified cs
  | c :: cs => (if c = '\r' then '\n' else c) :: unified cs

/-- The lines of a text as Python counts them. -/
def pythonLines (text : String) : List String :=
  linesOf (String.ofList (unified text.toList))

/-- How many carriage returns stand alone. -/
def loneReturns : List Char → Nat
  | [] => 0
  | '\r' :: '\n' :: cs => loneReturns cs
  | c :: cs => (if c = '\r' then 1 else 0) + loneReturns cs

/-- The characters without a carriage return at the end. -/
def chomp : List Char → List Char
  | [] => []
  | c :: cs => if c = '\r' ∧ cs = [] then [] else c :: chomp cs

/-- The lines that Python finds in one line of a program. -/
def parts (line : String) : List String :=
  pythonLines (String.ofList (chomp line.toList))

/-- Right after each carriage return stands a line feed. -/
def Paired (cs : List Char) : Prop :=
  ∀ before after, cs = before ++ '\r' :: after → after.head? = some '\n'

/-- Each line of the script, as Python counts them, stands in the program with the margin of the
body, and its number there is led back to its number in the script. -/
def Kept (script : String) (p : Program) : Prop :=
  ∀ k line, (pythonLines script)[k]? = some line → ∃ g,
    (pythonLines p.source)[g]? = some ("  " ++ line) ∧ p.scriptLine (g + 1) = some (k + 1)

/-- Characters are taken as Python does, a carriage return and a line feed together. -/
@[elab_as_elim]
theorem ends_induction {P : List Char → Prop} (nil : P [])
    (pair : ∀ cs, P cs → P ('\r' :: '\n' :: cs))
    (alone : ∀ cs, cs.head? ≠ some '\n' → P cs → P ('\r' :: cs))
    (other : ∀ c cs, c ≠ '\r' → P cs → P (c :: cs)) (cs : List Char) : P cs := by
  induction cs using unified.induct with
  | case1 => exact nil
  | case2 cs ih => exact pair cs ih
  | case3 c cs no_pair ih =>
    by_cases same : c = '\r'
    · subst same
      apply alone cs _ ih
      intro feed
      obtain ⟨rest, rfl⟩ := List.head?_eq_some_iff.mp feed
      exact no_pair rest rfl rfl
    · exact other c cs same ih

section
variable {c : Char} {cs : List Char}

@[simp]
theorem unified_other (other : c ≠ '\r') : unified (c :: cs) = c :: unified cs := by
  rw [unified, if_neg other]
  intro _ same
  exact absurd same other

@[simp]
theorem unified_alone (alone : cs.head? ≠ some '\n') :
    unified ('\r' :: cs) = '\n' :: unified cs := by
  rw [unified, if_pos rfl]
  rintro cs' - rfl
  exact alone rfl

@[simp]
theorem loneReturns_other (other : c ≠ '\r') : loneReturns (c :: cs) = loneReturns cs := by
  rw [loneReturns, if_neg other, Nat.zero_add]
  intro _ same
  exact absurd same other

@[simp]
theorem loneReturns_alone (alone : cs.head? ≠ some '\n') :
    loneReturns ('\r' :: cs) = 1 + loneReturns cs := by
  rw [loneReturns, if_pos rfl]
  rintro cs' - rfl
  exact alone rfl

@[simp]
theorem chomp_cons (more : cs ≠ []) : chomp (c :: cs) = c :: chomp cs := by
  simp [chomp, more]

@[simp]
theorem chomp_other (other : c ≠ '\r') : chomp (c :: cs) = c :: chomp cs := by
  simp [chomp, other]

theorem head?_chomp (other : cs.head? ≠ some '\n') : (chomp cs).head? ≠ some '\n' := by
  cases cs with
  | nil => exact other
  | cons c cs =>
    unfold chomp
    split
    · simp
    · exact other

end

/-- A line feed after a text ends its last line, together with a carriage return that stands there
already. -/
theorem unified_feed (a b : List Char) :
    unified (a ++ '\n' :: b) = unified (chomp a) ++ '\n' :: unified b := by
  induction a using ends_induction with
  | nil => rfl
  | pair cs ih =>
    simp [unified, ih]
  | alone cs alone ih =>
    cases cs with
    | nil => rfl
    | cons d cs =>
      have alone' : (d :: cs ++ '\n' :: b).head? ≠ some '\n' := alone
      rw [chomp_cons (List.cons_ne_nil _ _), unified_alone (head?_chomp alone), List.cons_append,
        unified_alone alone', ih]
      rfl
  | other c cs other ih => simp [other, ih]

/-- A carriage return at the end stands alone. -/
theorem unified_last (cs : List Char) :
    unified (cs ++ ['\r']) = unified cs ++ ['\n'] ∧ chomp (cs ++ ['\r']) = cs := by
  induction cs using ends_induction with
  | nil => exact ⟨rfl, rfl⟩
  | pair cs ih =>
    obtain ⟨ended, rest⟩ := ih
    refine ⟨?_, ?_⟩
    · simp [unified, ended]
    · simp [rest]
  | alone cs alone ih =>
    obtain ⟨ended, rest⟩ := ih
    have alone' : (cs ++ ['\r']).head? ≠ some '\n' := by
      cases cs with
      | nil => decide
      | cons d cs => exact alone
    refine ⟨?_, ?_⟩
    · rw [List.cons_append, unified_alone alone', unified_alone alone, ended]
      rfl
    · simp [rest]
  | other c cs other ih =>
    obtain ⟨ended, rest⟩ := ih
    refine ⟨?_, ?_⟩
    · simp [other, ended]
    · simp [rest]

theorem chomp_kept {cs : List Char} (other : cs.getLast? ≠ some '\r') : chomp cs = cs := by
  induction cs with
  | nil => rfl
  | cons c cs ih =>
    cases cs with
    | nil =>
      apply chomp_other
      rintro rfl
      exact other rfl
    | cons d cs =>
      have kept := ih (by simpa using other)
      simp [kept]

/-- Each carriage return that stands alone makes one more line for Python. -/
theorem length_split_unified (cs : List Char) :
    (cutAt '\n' (unified cs)).length = (cutAt '\n' cs).length + loneReturns cs := by
  have no_feed : '\r' ≠ '\n' := by decide
  induction cs using ends_induction with
  | nil => rfl
  | pair cs ih =>
    simp only [unified, loneReturns, ne_eq, no_feed, not_false_eq_true, cutAt_cons,
      List.length_modifyHead, cutAt_separator, List.length_cons]
    omega
  | alone cs alone ih =>
    simp [alone]
    omega
  | other c cs other ih =>
    by_cases feed : c = '\n'
    · subst feed
      simp [ih]
      omega
    · simp [other, feed, ih]

@[simp]
theorem paired_nil : Paired [] := by
  intro before after same
  simp at same

@[simp]
theorem paired_other {c : Char} {cs : List Char} (other : c ≠ '\r') :
    Paired (c :: cs) ↔ Paired cs := by
  constructor
  · intro paired before after same
    exact paired (c :: before) after (by rw [same]; rfl)
  · intro paired before after same
    cases before with
    | nil => exact absurd (List.cons.inj same).1 other
    | cons first before => exact paired before after (List.cons.inj same).2

@[simp]
theorem paired_return {cs : List Char} :
    Paired ('\r' :: cs) ↔ cs.head? = some '\n' ∧ Paired cs := by
  constructor
  · intro paired
    refine ⟨paired [] cs rfl, ?_⟩
    intro before after same
    exact paired ('\r' :: before) after (by rw [same]; rfl)
  · intro ⟨feed, paired⟩ before after same
    cases before with
    | nil =>
      obtain ⟨-, rfl⟩ := List.cons.inj same
      exact feed
    | cons first before => exact paired before after (List.cons.inj same).2

theorem paired_iff (cs : List Char) : Paired cs ↔ loneReturns cs = 0 := by
  induction cs using ends_induction with
  | nil => simp [loneReturns]
  | pair cs ih => simp [loneReturns, ih]
  | alone cs alone ih => simp [alone]
  | other c cs other ih => simp [other, ih]

section
variable {a b line : String}

theorem pythonLines_feed (a b : String) :
    pythonLines (a ++ "\n" ++ b) = parts a ++ pythonLines b := by
  have text : (a ++ "\n" ++ b).toList = a.toList ++ '\n' :: b.toList := by
    simp [String.toList_append]
  rw [pythonLines, text, unified_feed]
  simp [linesOf, piecesOf, cutAt_append, parts, pythonLines]

/-- Each line of a text that is followed by a line feed is taken for itself. -/
theorem pythonLines_textOf {lines : List String} (some_line : lines ≠ []) (rest : String) :
    pythonLines (textOf lines ++ "\n" ++ rest) = lines.flatMap parts ++ pythonLines rest := by
  induction lines with
  | nil => exact absurd rfl some_line
  | cons line lines ih =>
    cases lines with
    | nil =>
      have single : textOf [line] = line := by simp [textOf, Lines.join]
      rw [single, pythonLines_feed]
      simp
    | cons next lines =>
      have first : textOf (line :: next :: lines) = line ++ "\n" ++ textOf (next :: lines) := by
        rw [← List.singleton_append, textOf_append (List.cons_ne_nil _ _) (List.cons_ne_nil _ _)]
        simp [textOf, Lines.join]
      have behind := ih (List.cons_ne_nil next lines)
      have all : textOf (line :: next :: lines) ++ "\n" ++ rest =
          line ++ "\n" ++ (textOf (next :: lines) ++ "\n" ++ rest) := by
        rw [first]
        simp only [String.append_assoc]
      rw [all, pythonLines_feed, behind]
      simp only [List.flatMap_cons, List.append_assoc]

theorem parts_ne_nil (line : String) : parts line ≠ [] := linesOf_ne_nil _

theorem unified_plain {cs : List Char} (plain : '\r' ∉ cs) : unified cs = cs ∧ chomp cs = cs := by
  induction cs with
  | nil => exact ⟨rfl, rfl⟩
  | cons c cs ih =>
    simp only [List.mem_cons, not_or] at plain
    have other : c ≠ '\r' := Ne.symm plain.1
    obtain ⟨same, whole⟩ := ih plain.2
    exact ⟨by simp [other, same], by simp [other, whole]⟩

/-- A line without carriage returns is one line for Python too. -/
theorem parts_plain {line : String} (one_line : IsLine line) (plain : '\r' ∉ line.toList) :
    parts line = [line] := by
  obtain ⟨same, whole⟩ := unified_plain plain
  simp [parts, pythonLines, linesOf, piecesOf, whole, same, show '\n' ∉ line.toList from one_line]

theorem flatMap_parts_plain {lines : List String}
    (plain : ∀ line ∈ lines, IsLine line ∧ '\r' ∉ line.toList) : lines.flatMap parts = lines := by
  induction lines with
  | nil => rfl
  | cons line lines ih =>
    obtain ⟨one_line, no_return⟩ := plain line List.mem_cons_self
    rw [List.flatMap_cons, parts_plain one_line no_return,
      ih fun other there => plain other (List.mem_cons_of_mem _ there)]
    rfl

/-- The margin comes before the first part only. -/
theorem parts_margin (line : String) :
    parts (margin ++ line) = (parts line).modifyHead (margin ++ ·) := by
  have text : (margin ++ line).toList = ' ' :: ' ' :: line.toList := by simp [margin]
  have no_return : ' ' ≠ '\r' := by decide
  have no_feed : ' ' ≠ '\n' := by decide
  obtain ⟨l, ls, lines⟩ :=
    List.exists_cons_of_ne_nil (cutAt_ne_nil '\n' (unified (chomp line.toList)))
  have whole : cutAt '\n' (unified (chomp (margin ++ line).toList)) =
      (' ' :: ' ' :: l) :: ls := by
    rw [text, chomp_other no_return, chomp_other no_return, unified_other no_return,
      unified_other no_return, cutAt_cons no_feed, cutAt_cons no_feed, lines]
    rfl
  have first : String.ofList (' ' :: ' ' :: l) = margin ++ String.ofList l := by
    rw [← String.toList_inj]
    simp [margin]
  simp only [parts, pythonLines, linesOf, piecesOf, String.toList_ofList, whole, lines,
    List.map_cons, first, List.modifyHead_cons]

/-- What Python finds in a text is what it finds in its lines, and an empty line after a carriage
return at the end. -/
theorem pythonLines_eq (text : String) : pythonLines text = (linesOf text).flatMap parts ++
    if text.toList.getLast? = some '\r' then [""] else [] := by
  have each : parts text = (linesOf text).flatMap parts := by
    have lines := pythonLines_textOf (linesOf_ne_nil text) ""
    rw [textOf_linesOf, pythonLines_feed] at lines
    exact List.append_cancel_right lines
  rw [← each]
  by_cases last : text.toList.getLast? = some '\r'
  · obtain ⟨cs, same⟩ := List.getLast?_eq_some_iff.mp last
    obtain ⟨ended, rest⟩ := unified_last cs
    rw [if_pos last, parts, pythonLines, pythonLines, same, ended, rest]
    simp [linesOf, piecesOf, cutAt_append]
  · rw [if_neg last, parts, chomp_kept last]
    simp

end

/-- Each of the three line ends, and a carriage return and a line feed are one. -/
example : pythonLines "a\rb\r\nc\n" = ["a", "b", "c", ""] := by decide

/-- The input adds no carriage return to a program. -/
theorem no_return_literal (v : Json) : '\r' ∉ v.literal.toList := by
  intro there
  rw [Json.literal, String.toList_ofList] at there
  exact absurd (Splicing.visible_quote _ _ there) (by decide)

theorem plain_preamble (input : Json) :
    ∀ line ∈ pythonPreamble input.literal, IsLine line ∧ '\r' ∉ line.toList := by
  intro line there
  refine ⟨isLine_preamble .python input line there, ?_⟩
  simp only [pythonPreamble, List.mem_cons, List.not_mem_nil, or_false] at there
  rcases there with rfl | rfl | rfl | rfl | rfl | rfl
  all_goals simp [no_return_literal]

/-- What Python finds in the lines of a script has the margin where it starts a line of the
script. -/
theorem pythonLines_source (script : String) (input : Json) :
    pythonLines (Program.python script input).source = pythonPreamble input.literal ++
      (linesOf script).flatMap (fun line => (parts line).modifyHead (margin ++ ·)) ++
        pythonLines (textOf (filler script ++ pythonEpilogue)) := by
  have body : ((linesOf script).map (margin ++ ·)).flatMap parts =
      (linesOf script).flatMap fun line => (parts line).modifyHead (margin ++ ·) := by
    rw [List.flatMap_map]
    simp only [parts_margin]
  have some_line : (linesOf script).map (margin ++ ·) ≠ [] := by simp
  have some_preamble : pythonPreamble input.literal ≠ [] := List.cons_ne_nil _ _
  have source : (Program.python script input).source = textOf (pythonPreamble input.literal) ++
      "\n" ++ indent margin script ++ "\n" ++ textOf (filler script ++ pythonEpilogue) :=
    source_wrap .python script input
  have behind (a b c : String) : a ++ "\n" ++ b ++ "\n" ++ c = a ++ "\n" ++ (b ++ "\n" ++ c) := by
    simp only [String.append_assoc]
  rw [source, behind, pythonLines_textOf some_preamble, indent, pythonLines_textOf some_line, body,
    flatMap_parts_plain (plain_preamble input), List.append_assoc]

/-- There is a part in every line. -/
theorem length_le_parts (lines : List String) : lines.length ≤ (lines.flatMap parts).length := by
  induction lines with
  | nil => exact Nat.le_refl 0
  | cons line lines ih =>
    have some_part := List.length_pos_iff.mpr (parts_ne_nil line)
    rw [List.flatMap_cons, List.length_append, List.length_cons]
    omega

/-- If there are no more parts than lines, each of them starts a line. -/
theorem flatMap_margin {lines : List String}
    (no_more : (lines.flatMap parts).length ≤ lines.length) :
    lines.flatMap (fun line => (parts line).modifyHead (margin ++ ·)) =
      (lines.flatMap parts).map (margin ++ ·) := by
  induction lines with
  | nil => rfl
  | cons line lines ih =>
    obtain ⟨first, others, found⟩ := List.exists_cons_of_ne_nil (parts_ne_nil line)
    have least := length_le_parts lines
    rw [List.flatMap_cons, found, List.length_append, List.length_cons, List.length_cons] at no_more
    obtain rfl : others = [] := List.eq_nil_of_length_eq_zero (by omega)
    rw [List.length_nil] at no_more
    rw [List.flatMap_cons, List.flatMap_cons, found, ih (by omega)]
    rfl

theorem length_pythonLines (text : String) :
    (pythonLines text).length = (linesOf text).length + loneReturns text.toList := by
  simp only [pythonLines, linesOf, piecesOf, List.length_map, String.toList_ofList]
  exact length_split_unified text.toList

theorem scriptLine_python (script : String) (input : Json) (g n : Nat) :
    (Program.python script input).scriptLine g = some n ↔
      1 ≤ n ∧ n ≤ (linesOf script).length ∧ g = 6 + n := by
  have length : (bodyOf script).length = (linesOf script).length := List.length_map ..
  rw [scriptLine_eq_some_iff, ← length]
  rfl

theorem kept_iff (script : String) (input : Json) :
    Kept script (Program.python script input) ↔ Paired script.toList := by
  rw [paired_iff]
  have count := length_pythonLines script
  constructor
  · intro kept
    -- The number of the last line tells how many there are.
    have some_line : 0 < (linesOf script).length := by simp [List.length_pos_iff]
    have inside : (pythonLines script).length - 1 < (pythonLines script).length := by omega
    obtain ⟨g, -, back⟩ := kept _ _ (List.getElem?_eq_getElem inside)
    have known := ((scriptLine_python ..).mp back).2.1
    omega
  · intro none_alone k line found
    have least := length_le_parts (linesOf script)
    have lines := pythonLines_eq script
    have all := congrArg List.length lines
    rw [List.length_append] at all
    have no_more : ((linesOf script).flatMap parts).length ≤ (linesOf script).length := by omega
    have inside : k < (pythonLines script).length := (List.getElem?_eq_some_iff.mp found).1
    refine ⟨6 + k, ?_, (scriptLine_python ..).mpr ⟨by omega, by omega, by omega⟩⟩
    have whole : (linesOf script).flatMap parts = pythonLines script := by
      rw [List.eq_nil_of_length_eq_zero (by omega : (if script.toList.getLast? = some '\r' then
        [""] else []).length = 0), List.append_nil] at lines
      exact lines.symm
    have preamble_length : (pythonPreamble input.literal).length = 6 := rfl
    rw [pythonLines_source, flatMap_margin no_more, whole, List.append_assoc,
      List.getElem?_append_right (by omega), preamble_length, Nat.add_sub_cancel_left,
      List.getElem?_append_left (by simpa using inside), List.getElem?_map, found]
    rfl

/-- How Python sees the lines of a script, and those of the program around it. -/
structure Seen (script : String) (input : Json) (p : Program) : Prop where
  script_lines : pythonLines script = (linesOf script).flatMap parts ++
    if script.toList.getLast? = some '\r' then [""] else []
  /-- What follows a carriage return that stands alone has no margin. -/
  program_lines : ∃ after, pythonLines p.source = pythonPreamble input.literal ++
    (linesOf script).flatMap (fun line => (parts line).modifyHead ("  " ++ ·)) ++ after
  kept : Kept script p ↔ Paired script.toList

/-- Every line of a script is indented and led back to its number, as Python counts lines, just when
no carriage return stands alone in the script. -/
theorem seen_python (script : String) (input : Json) :
    Seen script input (Program.python script input) where
  script_lines := pythonLines_eq script
  program_lines := ⟨_, pythonLines_source script input⟩
  kept := kept_iff script input

/-- Behind a carriage return the second of two lines is left without its margin and its number. -/
theorem lone_return_not_kept :
    ¬ Kept "x = 1\rreturn x" (Program.python "x = 1\rreturn x" .null) := by
  intro kept
  have paired := (kept_iff "x = 1\rreturn x" .null).mp kept
  have feed := paired "x = 1".toList "return x".toList rfl
  simp at feed

end ScriptSandbox.Proofs.PythonLines
