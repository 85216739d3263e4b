import ScriptSandbox.Toml.Grammar

namespace ScriptSandbox.Proofs.TextForms
open Toml TextForm

section
variable {f : TextForm} {c : Char} {tail : List Char}

@[simp]
theorem newline_cons (feed : c ≠ '\n') (carriage : c ≠ '\r') : newline (c :: tail) = none := by
  simp [newline, feed, carriage]

theorem not_control_feed (shown : isControl c = false) : c ≠ '\n' ∧ c ≠ '\r' := by
  constructor <;> rintro rfl <;> revert shown <;> decide

/-- A character that is no control character stands for itself, unless it is a backslash where
backslashes escape. -/
theorem part_self (shown : isControl c = false) (plain : c = '\\' → f.escapes = false) :
    f.part (c :: tail) = some ([c], tail) := by
  obtain ⟨feed, carriage⟩ := not_control_feed shown
  have no_escape : ¬ (c = '\\' ∧ f.escapes = true) := by
    rintro ⟨rfl, escapes⟩
    cases escapes.symm.trans (plain rfl)
  simp [part, no_escape, feed, carriage, shown]

theorem part_feed (triple : f.triple = true) : f.part ('\n' :: tail) = some (['\n'], tail) := by
  simp [part, triple, newline]

/-- A backslash before a character that ends no line is the start of an escape. -/
theorem part_backslash {rest : List Char} {x : Char} (escapes : f.escapes = true)
    (read : escaped (x :: tail) = some (c, rest)) (space : isSpace x = false) (feed : x ≠ '\n')
    (carriage : x ≠ '\r') : f.part ('\\' :: x :: tail) = some ([c], rest) := by
  have no_end : newline ((x :: tail).dropWhile isSpace) = none := by
    rw [List.dropWhile_cons_of_neg (by simp [space])]
    exact newline_cons feed carriage
  simp only [part, escapes, and_self, if_true, no_end, read, Option.map_some]

@[simp]
theorem digitValue_hexDigit (n : Nat) : Scalar.digitValue 16 (hexDigit n) = some (n % 16) := by
  have table : ∀ m : Fin 16, Scalar.digitValue 16 (Nat.digitChar m).toUpper = some m.val := by
    decide
  exact table ⟨n % 16, Nat.mod_lt n (by decide)⟩

theorem numbered_hexDigits (small : c.toNat < 0x100) :
    numbered 4 ('0' :: '0' :: hexDigit (c.toNat / 16) :: hexDigit c.toNat :: tail) =
      some (c, tail) := by
  have zero : Scalar.digitValue 16 '0' = some 0 := by decide
  have number : (c.toNat / 16 % 16) * 16 + c.toNat % 16 = c.toNat := by omega
  have valid : c.toNat.isValidChar := c.valid
  simp [numbered, zero, number, valid]

theorem control_small (control : isControl c = true) : c.toNat < 0x100 := by
  simp only [isControl, Bool.or_eq_true, Bool.and_eq_true, decide_eq_true_eq, beq_iff_eq] at control
  rcases control with ⟨low, -⟩ | rfl
  · omega
  · decide

/-- What `escape` writes for a character stands for it. -/
theorem part_escape (escapes : f.escapes = true) :
    f.part (escape c ++ tail) = some ([c], tail) := by
  unfold escape
  repeat' split
  iterate 6
    next same =>
      exact part_backslash escapes (by rw [same]; rfl) (by decide) (by decide) (by decide)
  next control =>
    exact part_backslash escapes (numbered_hexDigits (control_small control)) (by decide)
      (by decide) (by decide)
  next slash _ _ _ _ _ shown =>
    exact part_self (by simpa using shown) (fun same => absurd same slash)

end

/-- The number of quotes that may stand for themselves in a row. -/
def spare (f : TextForm) : Nat := if f.triple then 2 else 0

/-- The characters of a text and what is written for them, of which the first `room` may be
quotes. -/
inductive Shown (f : TextForm) : Nat → List Char → List Char → Prop
  | nil (room : Nat) : Shown f room [] []
  | quote {room : Nat} {cs shown : List Char} (more : Shown f room cs shown) :
      Shown f (room + 1) (f.quote :: cs) (f.quote :: shown)
  | char {room : Nat} {c x : Char} {cs unit shown : List Char}
      (reads : ∀ tail, f.part (x :: (unit ++ tail)) = some ([c], tail)) (visible : x ≠ f.quote)
      (inLine : c ≠ '\n' → x ≠ '\n' ∧ x ≠ '\r')
      (more : Shown f (spare f) cs shown) : Shown f room (c :: cs) (x :: (unit ++ shown))

section
variable {f : TextForm} {room : Nat} {cs shown rest : List Char}

/-- A text is all quotes, or after some quotes something else is written. -/
theorem Shown.leads (h : Shown f room cs shown) :
    (∃ q, q ≤ room ∧ cs = List.replicate q f.quote ∧ shown = cs) ∨
      ∃ q x tail, q ≤ room ∧ shown = List.replicate q f.quote ++ x :: tail ∧ x ≠ f.quote := by
  induction h with
  | nil room => exact .inl ⟨0, Nat.zero_le _, rfl, rfl⟩
  | quote more ih =>
    rcases ih with ⟨q, few, rfl, rfl⟩ | ⟨q, x, tail, few, rfl, visible⟩
    · exact .inl ⟨q + 1, Nat.succ_le_succ few, rfl, rfl⟩
    · exact .inr ⟨q + 1, x, tail, Nat.succ_le_succ few, rfl, visible⟩
  | char reads visible inLine more => exact .inr ⟨0, _, _, Nat.zero_le _, rfl, visible⟩

theorem takeWhile_quotes (q : Nat) {tail : List Char} (stop : tail.head? ≠ some f.quote) :
    (List.replicate q f.quote ++ tail).takeWhile (· == f.quote) = List.replicate q f.quote := by
  rw [List.takeWhile_append_of_pos (by simp)]
  cases tail with
  | nil => simp
  | cons x tail =>
    have other : x ≠ f.quote := fun same => stop (congrArg some same)
    rw [List.takeWhile_cons_of_neg (by simpa using other), List.append_nil]

/-- Quotes before the closing ones belong to the text. -/
theorem ending_quotes {q : Nat} (few : q ≤ spare f) (stop : rest.head? ≠ some f.quote) :
    f.ending (List.replicate q f.quote ++ f.fence ++ rest) =
      some (List.replicate q f.quote, rest) := by
  unfold spare at few
  unfold fence ending
  split at few
  next triple =>
    have all : List.replicate q f.quote ++ [f.quote, f.quote, f.quote] =
        List.replicate (q + 3) f.quote := by
      rw [← List.replicate_append_replicate]
      rfl
    simp only [triple, if_true, all, takeWhile_quotes (q + 3) stop]
    match q, few with
    | 0, _ | 1, _ | 2, _ => rfl
  next single =>
    obtain rfl := Nat.le_zero.mp few
    simp [single]

/-- Too few quotes are no end. -/
theorem ending_none {q : Nat} {x : Char} {tail : List Char} (few : q ≤ spare f)
    (visible : x ≠ f.quote) : f.ending (List.replicate q f.quote ++ x :: tail) = none := by
  unfold spare at few
  unfold ending
  split at few
  next triple =>
    have stop : (x :: tail).head? ≠ some f.quote := fun same => visible (Option.some.inj same)
    simp only [triple, if_true, takeWhile_quotes q stop]
    match q, few with
    | 0, _ | 1, _ | 2, _ => rfl
  next single =>
    obtain rfl := Nat.le_zero.mp few
    simp [single, visible]

theorem body_of_ending {input text : List Char} (ends : f.ending input = some (text, rest)) :
    f.body input = some (text, rest) := by
  rw [body, ends]

theorem body_of_part {input text after : List Char} (goes_on : f.ending input = none)
    (reads : f.part input = some (text, after)) :
    f.body input = (f.body after).map fun p => (text ++ p.1, p.2) := by
  rw [body, goes_on]
  dsimp only
  split
  next nothing => cases nothing.symm.trans reads
  next text' after' found =>
    obtain ⟨rfl, rfl⟩ := Prod.mk.inj (Option.some.inj (found.symm.trans reads))
    rfl

/-- The end of a text is found when only quotes are left of it, and not before. -/
theorem Shown.ends_or_goes_on (h : Shown f room cs shown) (within : room ≤ spare f)
    (stop : rest.head? ≠ some f.quote) :
    f.body (shown ++ f.fence ++ rest) = some (cs, rest) ∨
      f.ending (shown ++ f.fence ++ rest) = none := by
  rcases h.leads with ⟨q, few, all, same⟩ | ⟨q, x, tail, few, same, visible⟩
  · rw [same, all]
    exact .inl (body_of_ending (ending_quotes (Nat.le_trans few within) stop))
  · rw [same, List.append_assoc, List.append_assoc]
    exact .inr (ending_none (Nat.le_trans few within) visible)

/-- What is shown is read up to the closing quotes. -/
theorem Shown.body (h : Shown f room cs shown) (within : room ≤ spare f)
    (quote_self : ∀ tail, f.part (f.quote :: tail) = some ([f.quote], tail))
    (stop : rest.head? ≠ some f.quote) : f.body (shown ++ f.fence ++ rest) = some (cs, rest) := by
  induction h with
  | nil room => exact body_of_ending (ending_quotes (Nat.zero_le _) stop)
  | quote more ih =>
    rcases (Shown.quote more).ends_or_goes_on within stop with done | goes_on
    · exact done
    · rename_i room cs shown
      have part : f.part (f.quote :: shown ++ f.fence ++ rest) =
          some ([f.quote], shown ++ f.fence ++ rest) := quote_self _
      rw [body_of_part goes_on part, ih (Nat.le_of_succ_le within)]
      rfl
  | char reads visible inLine more ih =>
    rcases (Shown.char reads visible inLine more).ends_or_goes_on within stop with done | goes_on
    · exact done
    · rename_i room c x cs unit shown
      have part : f.part (x :: (unit ++ shown) ++ f.fence ++ rest) =
          some ([c], shown ++ f.fence ++ rest) := by
        simpa using reads (shown ++ f.fence ++ rest)
      rw [body_of_part goes_on part, ih (Nat.le_refl _)]
      rfl

end

/-- The form shows every text, or it shows this one as it is. -/
inductive Suits (f : TextForm) (cs : List Char) : Prop
  | escaping (escapes : f.escapes = true) (quote : f.quote = '"')
  | raw (escapes : f.escapes = false) (quote : f.quote = '\x27')
      (shown : ∀ c ∈ cs, isControl c = false ∨ (c = '\n' ∧ f.triple = true))
      (few : longestRun f.quote 0 cs ≤ spare f)

section
variable {f : TextForm} {cs rest : List Char}

theorem written_raw (escapes : f.escapes = false) (run : Nat) : f.written run cs = cs := by
  induction cs generalizing run with
  | nil => rw [written]
  | cons c cs ih => simp [written, escapes, ih]

theorem run_le_longestRun (q : Char) (run : Nat) (cs : List Char) :
    run ≤ longestRun q run cs := by
  induction cs generalizing run with
  | nil => exact Nat.le_refl _
  | cons c cs ih =>
    unfold longestRun
    split
    · exact Nat.le_of_succ_le (ih (run + 1))
    · exact Nat.le_max_left _ _

theorem part_raw {c : Char} {tail : List Char} (escapes : f.escapes = false)
    (shown : isControl c = false ∨ (c = '\n' ∧ f.triple = true)) :
    f.part (c :: tail) = some ([c], tail) := by
  rcases shown with shown | ⟨rfl, triple⟩
  · exact part_self shown (fun _ => escapes)
  · exact part_feed triple

/-- After `run` quotes a text is shown as it is if no more than the spare ones come in a row. -/
theorem shown_raw {run : Nat} (escapes : f.escapes = false)
    (shown : ∀ c ∈ cs, isControl c = false ∨ (c = '\n' ∧ f.triple = true))
    (few : longestRun f.quote run cs ≤ spare f) : Shown f (spare f - run) cs cs := by
  induction cs generalizing run with
  | nil => exact .nil _
  | cons c cs ih =>
    have later := fun c within => shown c (List.mem_cons_of_mem _ within)
    unfold longestRun at few
    split at few
    next same =>
      have counted := run_le_longestRun f.quote (run + 1) cs
      have room : spare f - run = spare f - (run + 1) + 1 := by omega
      rw [room, same]
      exact .quote (ih later few)
    next other =>
      have more := ih later (Nat.le_trans (Nat.le_max_right _ _) few)
      have here := shown c List.mem_cons_self
      have inLine (no_feed : c ≠ '\n') : c ≠ '\n' ∧ c ≠ '\r' :=
        not_control_feed (here.resolve_right fun feed => no_feed feed.1)
      have reads (tail : List Char) : f.part (c :: ([] ++ tail)) = some ([c], tail) :=
        part_raw escapes here
      exact .char reads other inLine more

theorem escape_cons (c : Char) :
    ∃ x unit, escape c = x :: unit ∧ (x = '\\' ∨ x = c ∧ isControl c = false) := by
  unfold escape
  repeat' split
  iterate 7
    next => exact ⟨'\\', _, rfl, .inl rfl⟩
  next shown => exact ⟨c, [], rfl, .inr ⟨rfl, by simpa using shown⟩⟩

/-- After `run` quotes a text is shown with escapes. -/
theorem shown_escaping {run : Nat} (escapes : f.escapes = true) (quote : f.quote = '"')
    (few : run ≤ spare f) : Shown f (spare f - run) cs (f.written run cs) := by
  induction cs generalizing run with
  | nil =>
    rw [written]
    exact .nil _
  | cons c cs ih =>
    have more : Shown f (spare f) cs (f.written 0 cs) := ih (Nat.zero_le _)
    simp only [written, escapes, Bool.not_true, Bool.false_eq_true, if_false]
    split
    next same =>
      subst same
      split
      next raw =>
        simp only [Bool.and_eq_true, decide_eq_true_eq] at raw
        have two : spare f = 2 := if_pos raw.1
        have room : spare f - run = spare f - (run + 1) + 1 := by omega
        rw [room]
        exact .quote (ih (by omega))
      next =>
        have reads (tail : List Char) :
            f.part ('\\' :: ([f.quote] ++ tail)) = some ([f.quote], tail) := by
          rw [quote]
          exact part_backslash escapes rfl (by decide) (by decide) (by decide)
        exact .char reads (by rw [quote]; decide) (fun _ => by decide) more
    next other =>
      split
      next feed =>
        simp only [Bool.and_eq_true, decide_eq_true_eq] at feed
        have reads (tail : List Char) : f.part (c :: ([] ++ tail)) = some ([c], tail) := by
          rw [feed.1]
          exact part_feed feed.2
        exact .char reads other (fun no_feed => absurd feed.1 no_feed) more
      next =>
        obtain ⟨x, unit, same, first⟩ := escape_cons c
        have reads (tail : List Char) : f.part (x :: (unit ++ tail)) = some ([c], tail) := by
          rw [← List.cons_append, ← same]
          exact part_escape escapes
        rw [same]
        rcases first with rfl | ⟨rfl, shown⟩
        · exact .char reads (by rw [quote]; decide) (fun _ => by decide) more
        · exact .char reads other (fun _ => not_control_feed shown) more

/-- What is written for a text shows it. -/
theorem shown_written (suits : Suits f cs) : Shown f (spare f) cs (f.written 0 cs) := by
  cases suits with
  | escaping escapes quote => exact shown_escaping escapes quote (Nat.zero_le _)
  | raw escapes quote shown few =>
    rw [written_raw escapes]
    exact shown_raw escapes shown few

theorem longestRun_absent {q : Char} (absent : ∀ c ∈ cs, c ≠ q) (run : Nat) :
    longestRun q run cs = run := by
  induction cs generalizing run with
  | nil => rfl
  | cons c cs ih =>
    have later := fun c within => absent c (List.mem_cons_of_mem _ within)
    simp [longestRun, absent c List.mem_cons_self, ih later]

/-- The form that is chosen for a text can show it. -/
theorem suits_choose (cs : List Char) : Suits (choose cs) cs := by
  unfold choose
  dsimp only
  repeat' split
  next => exact .escaping rfl rfl
  next line =>
    simp only [Bool.and_eq_true, Bool.not_eq_true', List.any_eq_false, List.contains_eq_mem,
      decide_eq_false_iff_not, Bool.or_eq_true, not_or] at line
    refine .raw rfl rfl (fun c within => .inl (by simpa using (line.1 c within).2)) ?_
    have absent (c : Char) (within : c ∈ cs) : c ≠ '\x27' := by
      rintro rfl
      exact line.2 within
    exact Nat.le_of_eq (longestRun_absent absent 0)
  next => exact .escaping rfl rfl
  next lines =>
    simp only [Bool.and_eq_true, Bool.not_eq_true', List.any_eq_false, decide_eq_true_eq] at lines
    refine .raw rfl rfl (fun c within => ?_) (Nat.le_of_lt_succ lines.2)
    have shown := lines.1 c within
    by_cases feed : c = '\n'
    · exact .inr ⟨feed, rfl⟩
    · exact .inl (by simpa [feed] using shown)
  next => exact .escaping rfl rfl
  next => exact .escaping rfl rfl

theorem Suits.quote_visible (suits : Suits f cs) :
    isControl f.quote = false ∧ f.quote ≠ '\\' ∧ f.quote ≠ '\n' ∧ f.quote ≠ '\r' := by
  cases suits with
  | escaping escapes quote | raw escapes quote shown few =>
    rw [quote]
    decide

theorem fence_eq (f : TextForm) : ∃ more, f.fence = f.quote :: more := by
  unfold fence
  split <;> exact ⟨_, rfl⟩

/-- A text of one line does not start with the end of a line. -/
theorem Shown.newline_none {room : Nat} {shown : List Char} (h : Shown f room cs shown)
    (line : '\n' ∉ cs) (quote : f.quote ≠ '\n' ∧ f.quote ≠ '\r') :
    newline (shown ++ f.fence ++ rest) = none := by
  cases h with
  | nil room =>
    obtain ⟨more, fence⟩ := fence_eq f
    rw [fence]
    exact newline_cons quote.1 quote.2
  | quote more => exact newline_cons quote.1 quote.2
  | char reads visible inLine more =>
    obtain ⟨feed, carriage⟩ := inLine fun same => line (same ▸ List.mem_cons_self)
    exact newline_cons feed carriage

/-- A line feed that was put before the text is passed over, and there is none if it is not. -/
theorem afterFence_start (suits : Suits f cs) :
    f.afterFence ((if f.triple && cs.contains '\n' then ['\n'] else []) ++
      (f.written 0 cs ++ f.fence ++ rest)) = f.written 0 cs ++ f.fence ++ rest := by
  unfold afterFence
  split
  next triple =>
    by_cases lines : '\n' ∈ cs
    · simp [triple, lines, newline]
    · have quote := suits.quote_visible
      simp only [triple, lines, Bool.true_and, List.contains_eq_mem, decide_false,
        Bool.false_eq_true, if_false, List.nil_append,
        (shown_written suits).newline_none lines quote.2.2]
  next single => simp [single]

/-- A text is read back from a form that suits it. -/
theorem read_write (suits : Suits f cs) (stop : rest.head? ≠ some f.quote) :
    f.read (f.write cs ++ rest) = some (String.ofList cs, rest) := by
  obtain ⟨shown, slash, -⟩ := suits.quote_visible
  have body :=
    (shown_written suits).body (Nat.le_refl _) (fun _ => part_self shown (absurd · slash)) stop
  have parts : f.write cs ++ rest = f.fence ++
      ((if f.triple && cs.contains '\n' then ['\n'] else []) ++
        (f.written 0 cs ++ f.fence ++ rest)) := by
    simp [write]
  have fenced (tail : List Char) : f.fence.isPrefixOf (f.fence ++ tail) = true := by simp
  rw [parts, TextForm.read, if_pos (fenced _), List.drop_left, afterFence_start suits, body]
  rfl

/-- A text between single quotes does not look like one between three. -/
theorem not_triple (suits : Suits f cs) (single : f.triple = false)
    (stop : rest.head? ≠ some f.quote) :
    [f.quote, f.quote, f.quote].isPrefixOf (f.write cs ++ rest) = false := by
  have shown := shown_written suits
  have none_spare : spare f = 0 := by simp [spare, single]
  have parts : f.write cs ++ rest = f.quote :: (f.written 0 cs ++ f.quote :: rest) := by
    simp [write, fence, single]
  rw [parts]
  rw [none_spare] at shown
  generalize f.written 0 cs = shown' at shown ⊢
  cases shown with
  | nil =>
    cases rest with
    | nil => simp
    | cons x rest =>
      have other : f.quote ≠ x := fun same => stop (congrArg some same.symm)
      simp [List.isPrefixOf, other]
  | char reads visible inLine more => simp [List.isPrefixOf, Ne.symm visible]

theorem not_other_fence (f g : TextForm) (other : g.quote ≠ f.quote) (cs rest : List Char) :
    g.fence.isPrefixOf (f.write cs ++ rest) = false := by
  obtain ⟨more, fence⟩ := fence_eq f
  obtain ⟨more', fence'⟩ := fence_eq g
  simp [write, fence, fence', List.isPrefixOf, other]

theorem text_of_form (form : f = basic ∨ f = literal ∨ f = basicLines ∨ f = literalLines)
    (suits : Suits f cs) (stop : rest.head? ≠ some f.quote) :
    Toml.text (f.write cs ++ rest) = some (String.ofList cs, rest) := by
  have read := read_write suits stop
  have fenced : f.fence.isPrefixOf (f.write cs ++ rest) = true := by simp [write]
  unfold Toml.text
  rcases form with rfl | rfl | rfl | rfl
  · have short : basicLines.fence.isPrefixOf (basic.write cs ++ rest) = false :=
      not_triple suits rfl stop
    have other := not_other_fence basic literalLines (by decide) cs rest
    simp [short, other, fenced, read]
  · have short : literalLines.fence.isPrefixOf (literal.write cs ++ rest) = false :=
      not_triple suits rfl stop
    have other := not_other_fence literal basicLines (by decide) cs rest
    have other' := not_other_fence literal basic (by decide) cs rest
    simp [short, other, other', read]
  · simp [fenced, read]
  · have other := not_other_fence literalLines basicLines (by decide) cs rest
    simp [other, fenced, read]

/-- The form that is chosen is one of four. -/
theorem choose_cases (cs : List Char) :
    choose cs = basic ∨ choose cs = literal ∨ choose cs = basicLines ∨
      choose cs = literalLines := by
  unfold choose
  dsimp only
  repeat' split
  all_goals simp

theorem quote_choose (cs : List Char) : (choose cs).quote = '"' ∨ (choose cs).quote = '\x27' := by
  rcases choose_cases cs with form | form | form | form <;> rw [form] <;> decide

/-- A text is read back from what is written for it. -/
theorem text_textLiteral (s : String) (stop : rest.head? ≠ some (choose s.toList).quote) :
    Toml.text ((textLiteral s).toList ++ rest) = some (s, rest) := by
  rw [textLiteral, String.toList_ofList,
    text_of_form (choose_cases s.toList) (suits_choose s.toList) stop, String.ofList_toList]

end

end ScriptSandbox.Proofs.TextForms
