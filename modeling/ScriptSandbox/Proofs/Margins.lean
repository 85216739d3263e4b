import ScriptSandbox.Proofs.Layout

namespace ScriptSandbox.Proofs.Margins
open Layout

section
variable {margin a b : String}

theorem linesOf_indent (one_line : IsLine margin) (text : String) :
    linesOf (indent margin text) = (linesOf text).map (margin ++ ·) := by
  apply linesOf_textOf
  · simp
  · intro line there
    obtain ⟨own, own_there, rfl⟩ := List.mem_map.mp there
    exact one_line.append (isLine_of_mem_linesOf own_there)

theorem indent_feed (margin a b : String) :
    indent margin (a ++ "\n" ++ b) = indent margin a ++ "\n" ++ indent margin b := by
  rw [indent, linesOf_feed, List.map_append, textOf_append]
  · rfl
  · simp
  · simp

theorem indent_inj (one_line : IsLine margin) : indent margin a = indent margin b ↔ a = b := by
  constructor
  · intro same
    have lines := congrArg linesOf same
    rw [linesOf_indent one_line, linesOf_indent one_line] at lines
    have own := (List.map_inj_right fun _ _ => (String.append_right_inj margin).mp).mp lines
    exact linesOf_inj.mp own
  · exact congrArg (indent margin)

theorem indent_indent (one_line : IsLine margin) (outer text : String) :
    indent outer (indent margin text) = indent (outer ++ margin) text := by
  rw [indent, linesOf_indent one_line, List.map_map]
  simp [indent, Function.comp_def, String.append_assoc]

end

/-- In a program the script stands between preamble and epilogue with the margin of its body. -/
theorem source_wrap (l : Language) (script : String) (input : Json) :
    (l.wrap script input).source = textOf (preamble l input.literal) ++ "\n" ++
      indent Program.margin script ++ "\n" ++ textOf (gap l script ++ epilogue l) := by
  have some_preamble : preamble l input.literal ≠ [] := by
    cases l
    all_goals exact List.cons_ne_nil _ _
  have some_epilogue : gap l script ++ epilogue l ≠ [] := by
    cases l
    all_goals simp [epilogue, Program.pythonEpilogue, Program.quickJsEpilogue]
  have some_body : Program.bodyOf script ≠ [] := by simp [Program.bodyOf]
  rw [wrap_eq, Program.source, List.append_assoc, textOf_append some_preamble,
    textOf_append some_body some_epilogue]
  · simp [String.append_assoc, indent, Program.bodyOf]
  · simp [some_body]

/-- How texts with this margin stand to those without. -/
structure Faithful (margin : String) : Prop where
  /-- No line is lost, made or moved, whatever it holds. -/
  lines : ∀ text, linesOf (indent margin text) = (linesOf text).map (margin ++ ·)
  feed : ∀ a b, indent margin (a ++ "\n" ++ b) = indent margin a ++ "\n" ++ indent margin b
  inj : ∀ a b, indent margin a = indent margin b → a = b
  /-- Any other margin may be put before it. -/
  again : ∀ outer text, indent outer (indent margin text) = indent (outer ++ margin) text

theorem faithful_indent {margin : String} (one_line : IsLine margin) : Faithful margin where
  lines := linesOf_indent one_line
  feed := indent_feed margin
  inj _ _ := (indent_inj one_line).mp
  again := indent_indent one_line

/-- The margin of function bodies. -/
theorem faithful_body : IsLine Program.margin ∧ Faithful Program.margin :=
  have one_line : IsLine Program.margin := isLine_ofList (by decide)
  ⟨one_line, faithful_indent one_line⟩

/-- Neither an empty line, nor a carriage return, nor the end of a last line is lost. -/
example : indent "> " "a\r\n\nb\n" = "> a\r\n> \n> b\n> " := by decide

end ScriptSandbox.Proofs.Margins
