import ScriptSandbox.Proofs.Layout
import ScriptSandbox.Proofs.RoundTrip

namespace ScriptSandbox.Proofs.Determined
open Program Layout Splicing Json
open NumberText (Ended digitsValue_toDigits digits_toDigits)

/-- What follows a value inside of a document: nothing, a comma or a closing bracket. -/
def Closed (rest : List Char) : Prop := ∀ c ∈ rest.head?, c ∈ [',', ']', '\x7d']

theorem Closed.ended {rest : List Char} (h : Closed rest) : Ended rest := by
  intro c hc
  have end_mark := h c hc
  simp only [List.mem_cons, List.not_mem_nil, or_false] at end_mark
  rcases end_mark with rfl | rfl | rfl
  all_goals decide

theorem Closed.not_numeric {c : Char} {rest : List Char} (h : Closed (c :: rest)) :
    ¬ Numeric c := by
  have end_mark := h c rfl
  simp only [List.mem_cons, List.not_mem_nil, or_false] at end_mark
  rcases end_mark with rfl | rfl | rfl
  all_goals simp [Numeric]

/-- The text of a number ends where something else begins. -/
theorem numeric_append_inj {a b rest rest' : List Char} (ha : ∀ c ∈ a, Numeric c)
    (hb : ∀ c ∈ b, Numeric c) (closed : Closed rest) (closed' : Closed rest')
    (same : a ++ rest = b ++ rest') : a = b ∧ rest = rest' := by
  rcases List.append_eq_append_iff.mp same with ⟨more, rfl, rfl⟩ | ⟨more, rfl, rfl⟩
  · cases more with
    | nil => simp
    | cons c more => exact absurd (hb c (by simp)) closed.not_numeric
  · cases more with
    | nil => simp
    | cons c more => exact absurd (ha c (by simp)) closed'.not_numeric

theorem toDigits_inj {m n : Nat} (same : Nat.toDigits 10 m = Nat.toDigits 10 n) : m = n := by
  rw [← digitsValue_toDigits m, same, digitsValue_toDigits]

theorem toDigits_ne_minus (n : Nat) (ds : List Char) : Nat.toDigits 10 n ≠ '-' :: ds := by
  intro same
  have digit := digits_toDigits n '-' (by simp [same])
  cases digit

theorem whole_inj {i j : Int} (same : whole i = whole j) : i = j := by
  unfold whole at same
  split at same
  · split at same
    · have := toDigits_inj (List.cons.inj same).2
      omega
    · exact absurd same.symm (toDigits_ne_minus _ _)
  · split at same
    · exact absurd same (toDigits_ne_minus _ _)
    · have := toDigits_inj same
      omega

/-- A binary number is written with a point or an exponent. -/
theorem mark_mem_magnitude (style : FloatStyle) (digits : List Char) (point : Int) :
    '.' ∈ style.magnitude digits point ∨ 'e' ∈ style.magnitude digits point := by
  unfold FloatStyle.magnitude
  dsimp only
  repeat' split
  all_goals simp

theorem mark_mem_text (style : FloatStyle) (x : Binary64) :
    '.' ∈ style.text x ∨ 'e' ∈ style.text x := by
  unfold FloatStyle.text
  dsimp only
  split
  · simp
  · rcases mark_mem_magnitude style _ _ with mark | mark
    · exact .inl (List.mem_append_right _ mark)
    · exact .inr (List.mem_append_right _ mark)

/-- A whole number is written without. -/
theorem whole_ne_text (i : Int) (style : FloatStyle) (x : Binary64) : whole i ≠ style.text x := by
  intro same
  have digits := digits_toDigits i.natAbs
  have absent {c : Char} (mark : c ∈ style.text x) : c = '-' ∨ c.isDigit = true := by
    rw [← same] at mark
    unfold whole at mark
    split at mark
    · exact (List.mem_cons.mp mark).imp_right (digits c)
    · exact .inr (digits c mark)
  rcases mark_mem_text style x with mark | mark
  · have := absent mark
    contradiction
  · have := absent mark
    contradiction

theorem float_append_inj {x y : Binary64} {rest rest' : List Char} (ended : Ended rest)
    (ended' : Ended rest') (same : floatStyle.text x ++ rest = floatStyle.text y ++ rest') :
    x = y ∧ rest = rest' := by
  have read : Json.Parser.valueOver none (floatStyle.text x ++ rest) = .ok (.float x, rest) :=
    NumberText.valueOver_float x ended
  rw [same, NumberText.valueOver_float y ended'] at read
  obtain ⟨number, after⟩ := Prod.mk.inj (Except.ok.inj read)
  exact ⟨(Json.float.inj number).symm, after.symm⟩

theorem quote_append_inj {s s' : String} {rest rest' : List Char}
    (same : quote s.toList ++ rest = quote s'.toList ++ rest') : s = s' ∧ rest = rest' := by
  simp only [quote, List.cons_append, List.append_assoc, List.nil_append, List.cons.injEq, true_and]
    at same
  have read := RoundTrip.string_quote s rest
  rw [same, RoundTrip.string_quote] at read
  obtain ⟨text, after⟩ := Prod.mk.inj (Except.ok.inj read)
  exact ⟨text.symm, after.symm⟩

/-- What can be told from the first character of a document. -/
inductive Shape where
  | null | yes | no | number | string | array | object
deriving DecidableEq

def shape : Json → Shape
  | .null => .null
  | .bool true => .yes
  | .bool false => .no
  | .int _ | .float _ => .number
  | .string _ => .string
  | .array _ => .array
  | .object _ => .object

instance : DecidablePred Numeric := fun c =>
  inferInstanceAs (Decidable (c.isDigit = true ∨ c ∈ ['-', '+', '.', 'e']))

def shapeAt (c : Char) : Option Shape :=
  if Numeric c then some .number
  else
    match c with
    | 'n' => some .null
    | 't' => some .yes
    | 'f' => some .no
    | '"' => some .string
    | '[' => some .array
    | '\x7b' => some .object
    | _ => none

theorem shapeAt_head {cs : List Char} (numeric : ∀ c ∈ cs, Numeric c) (some_left : cs ≠ []) :
    ∃ c more, cs = c :: more ∧ shapeAt c = some .number := by
  obtain ⟨c, more, rfl⟩ := List.exists_cons_of_ne_nil some_left
  exact ⟨c, more, rfl, if_pos (numeric c List.mem_cons_self)⟩

theorem shape_chars (v : Json) : ∃ c more, chars v = c :: more ∧ shapeAt c = some (shape v) := by
  cases v with
  | null => exact ⟨_, _, by rw [chars], rfl⟩
  | bool b => cases b <;> exact ⟨_, _, by rw [chars], rfl⟩
  | int i =>
    rw [chars]
    apply shapeAt_head (numeric_whole i)
    unfold whole
    split
    · exact List.cons_ne_nil _ _
    · exact Nat.toDigits_ne_nil
  | float x =>
    rw [chars]
    apply shapeAt_head (numeric_float floatStyle x)
    intro nothing
    have mark := mark_mem_text floatStyle x
    simp [nothing] at mark
  | string s => exact ⟨_, _, by rw [chars, quote], rfl⟩
  | array vs => cases vs <;> exact ⟨_, _, by rw [chars], rfl⟩
  | object ms => cases ms <;> exact ⟨_, _, by rw [chars], rfl⟩

theorem shape_eq {v v' : Json} {rest rest' : List Char}
    (same : chars v ++ rest = chars v' ++ rest') : shape v = shape v' := by
  obtain ⟨c, more, first, told⟩ := shape_chars v
  obtain ⟨c', more', first', told'⟩ := shape_chars v'
  rw [first, first'] at same
  rw [(List.cons.inj same).1, told'] at told
  exact (Option.some.inj told).symm

theorem closed_cons {c : Char} (h : c ∈ [',', ']', '\x7d']) (cs : List Char) :
    Closed (c :: cs) := by
  intro d hd
  obtain rfl : c = d := Option.some.inj hd
  exact h

theorem closed_moreItems (vs : List Json) (rest : List Char) :
    Closed (moreItems vs ++ ']' :: rest) := by
  cases vs with
  | nil => exact closed_cons (by simp) _
  | cons v vs => exact closed_cons (by simp) _

theorem closed_moreMembers (ms : List (String × Json)) (rest : List Char) :
    Closed (moreMembers ms ++ '\x7d' :: rest) := by
  cases ms with
  | nil => exact closed_cons (by simp) _
  | cons m ms => exact closed_cons (by simp) _

/-- No value begins with the end of a list. -/
theorem chars_append_ne (v : Json) (rest rest' : List Char) : chars v ++ rest ≠ ']' :: rest' := by
  intro same
  obtain ⟨c, more, first, told⟩ := shape_chars v
  rw [first] at same
  rw [(List.cons.inj same).1] at told
  cases told

mutual

/-- The document of a value is no start of that of another one, and ends where the value does. -/
theorem chars_append_inj : ∀ (v v' : Json) {rest rest' : List Char}, Closed rest → Closed rest' →
    chars v ++ rest = chars v' ++ rest' → v = v' ∧ rest = rest'
  | .null, v', _, _, _, _, same => by
    have alike := shape_eq same
    cases v' with
    | null => exact ⟨rfl, List.append_cancel_left same⟩
    | bool b => cases b <;> cases alike
    | _ => cases alike
  | .bool b, v', _, _, _, _, same => by
    have alike := shape_eq same
    cases v' with
    | bool b' =>
      obtain rfl : b = b' := by
        cases b <;> cases b' <;> first
          | rfl
          | cases alike
      exact ⟨rfl, List.append_cancel_left same⟩
    | _ => cases b <;> cases alike
  | .int i, v', _, _, closed, closed', same => by
    have alike := shape_eq same
    cases v' with
    | int j =>
      simp only [chars] at same
      obtain ⟨text, after⟩ :=
        numeric_append_inj (numeric_whole i) (numeric_whole j) closed closed' same
      exact ⟨congrArg Json.int (whole_inj text), after⟩
    | float y =>
      simp only [chars] at same
      obtain ⟨text, -⟩ :=
        numeric_append_inj (numeric_whole i) (numeric_float _ y) closed closed' same
      exact absurd text (whole_ne_text i floatStyle y)
    | bool b => cases b <;> cases alike
    | _ => cases alike
  | .float x, v', _, _, closed, closed', same => by
    have alike := shape_eq same
    cases v' with
    | int j =>
      simp only [chars] at same
      obtain ⟨text, -⟩ :=
        numeric_append_inj (numeric_float _ x) (numeric_whole j) closed closed' same
      exact absurd text.symm (whole_ne_text j floatStyle x)
    | float y =>
      simp only [chars] at same
      obtain ⟨number, after⟩ := float_append_inj closed.ended closed'.ended same
      exact ⟨congrArg Json.float number, after⟩
    | bool b => cases b <;> cases alike
    | _ => cases alike
  | .string s, v', _, _, _, _, same => by
    have alike := shape_eq same
    cases v' with
    | string s' =>
      simp only [chars] at same
      obtain ⟨text, after⟩ := quote_append_inj same
      exact ⟨congrArg Json.string text, after⟩
    | bool b => cases b <;> cases alike
    | _ => cases alike
  | .array vs, v', _, _, _, _, same => by
    have alike := shape_eq same
    cases v' with
    | array vs' =>
      obtain ⟨items, after⟩ := items_append_inj vs vs' same
      exact ⟨congrArg Json.array items, after⟩
    | bool b => cases b <;> cases alike
    | _ => cases alike
  | .object ms, v', _, _, _, _, same => by
    have alike := shape_eq same
    cases v' with
    | object ms' =>
      obtain ⟨members, after⟩ := members_append_inj ms ms' same
      exact ⟨congrArg Json.object members, after⟩
    | bool b => cases b <;> cases alike
    | _ => cases alike

theorem items_append_inj : ∀ (vs vs' : List Json) {rest rest' : List Char},
    chars (.array vs) ++ rest = chars (.array vs') ++ rest' → vs = vs' ∧ rest = rest'
  | [], [], _, _, same => ⟨rfl, List.append_cancel_left same⟩
  | [], v' :: vs', _, _, same => by
    simp only [chars, List.cons_append, List.append_assoc, List.nil_append, List.cons.injEq,
      true_and] at same
    exact absurd same.symm (chars_append_ne v' _ _)
  | v :: vs, [], _, _, same => by
    simp only [chars, List.cons_append, List.append_assoc, List.nil_append, List.cons.injEq,
      true_and] at same
    exact absurd same (chars_append_ne v _ _)
  | v :: vs, v' :: vs', _, _, same => by
    simp only [chars, List.cons_append, List.append_assoc, List.nil_append, List.cons.injEq,
      true_and] at same
    obtain ⟨rfl, others⟩ :=
      chars_append_inj v v' (closed_moreItems vs _) (closed_moreItems vs' _) same
    obtain ⟨rfl, after⟩ := moreItems_append_inj vs vs' others
    exact ⟨rfl, after⟩

theorem moreItems_append_inj : ∀ (vs vs' : List Json) {rest rest' : List Char},
    moreItems vs ++ ']' :: rest = moreItems vs' ++ ']' :: rest' → vs = vs' ∧ rest = rest'
  | [], [], _, _, same => ⟨rfl, (List.cons.inj same).2⟩
  | [], v' :: vs', _, _, same => by
    simp [moreItems] at same
  | v :: vs, [], _, _, same => by
    simp [moreItems] at same
  | v :: vs, v' :: vs', _, _, same => by
    simp only [moreItems, List.cons_append, List.append_assoc, List.cons.injEq, true_and] at same
    obtain ⟨rfl, others⟩ :=
      chars_append_inj v v' (closed_moreItems vs _) (closed_moreItems vs' _) same
    obtain ⟨rfl, after⟩ := moreItems_append_inj vs vs' others
    exact ⟨rfl, after⟩

theorem member_append_inj : ∀ (m m' : String × Json) {rest rest' : List Char},
    Closed rest → Closed rest' → member m ++ rest = member m' ++ rest' → m = m' ∧ rest = rest'
  | (name, v), (name', v'), _, _, closed, closed', same => by
    simp only [member, List.append_assoc, List.cons_append] at same
    obtain ⟨rfl, value⟩ := quote_append_inj same
    obtain ⟨rfl, after⟩ := chars_append_inj v v' closed closed' (List.cons.inj value).2
    exact ⟨rfl, after⟩

theorem members_append_inj : ∀ (ms ms' : List (String × Json)) {rest rest' : List Char},
    chars (.object ms) ++ rest = chars (.object ms') ++ rest' → ms = ms' ∧ rest = rest'
  | [], [], _, _, same => ⟨rfl, List.append_cancel_left same⟩
  | [], (name', v') :: ms', _, _, same => by
    simp [chars, member, quote] at same
  | (name, v) :: ms, [], _, _, same => by
    simp [chars, member, quote] at same
  | m :: ms, m' :: ms', _, _, same => by
    simp only [chars, List.cons_append, List.append_assoc, List.nil_append, List.cons.injEq,
      true_and] at same
    obtain ⟨rfl, others⟩ :=
      member_append_inj m m' (closed_moreMembers ms _) (closed_moreMembers ms' _) same
    obtain ⟨rfl, after⟩ := moreMembers_append_inj ms ms' others
    exact ⟨rfl, after⟩

theorem moreMembers_append_inj : ∀ (ms ms' : List (String × Json)) {rest rest' : List Char},
    moreMembers ms ++ '\x7d' :: rest = moreMembers ms' ++ '\x7d' :: rest' →
      ms = ms' ∧ rest = rest'
  | [], [], _, _, same => ⟨rfl, (List.cons.inj same).2⟩
  | [], m' :: ms', _, _, same => by
    simp [moreMembers] at same
  | m :: ms, [], _, _, same => by
    simp [moreMembers] at same
  | m :: ms, m' :: ms', _, _, same => by
    simp only [moreMembers, List.cons_append, List.append_assoc, List.cons.injEq, true_and] at same
    obtain ⟨rfl, others⟩ :=
      member_append_inj m m' (closed_moreMembers ms _) (closed_moreMembers ms' _) same
    obtain ⟨rfl, after⟩ := moreMembers_append_inj ms ms' others
    exact ⟨rfl, after⟩

end

theorem literal_inj {v v' : Json} (same : v.literal = v'.literal) : v = v' := by
  have quoted : quote v.text.toList ++ [] = quote v'.text.toList ++ [] := by
    simpa only [literal, text, String.toList_ofList, List.append_nil]
      using String.ofList_inj.mp same
  have texts := (quote_append_inj quoted).1
  have documents : chars v ++ [] = chars v' ++ [] := by
    simpa only [List.append_nil] using String.ofList_inj.mp texts
  have closed : Closed [] := fun c hc => by cases hc
  exact (chars_append_inj v v' closed closed documents).1

/-- The script has no statement, and `pass` stands after it. -/
def Passed (script other : String) : Prop :=
  (∀ line ∈ linesOf script, Idle line) ∧ other = script ++ "\n" ++ "pass"

@[simp]
theorem bodyOf_inj {script script' : String} : bodyOf script = bodyOf script' ↔ script = script' :=
  (List.map_inj_right fun _ _ => (String.append_right_inj margin).mp).trans linesOf_inj

@[simp]
theorem bodyOf_pass (script : String) :
    bodyOf (script ++ "\n" ++ "pass") = bodyOf script ++ [margin ++ "pass"] := by
  rw [bodyOf, linesOf_feed, List.map_append]
  rfl

theorem filler_of_idle {script : String} (idle : ∀ line ∈ linesOf script, Idle line) :
    filler script = [margin ++ "pass"] := by
  rw [filler, (hasStatements_eq_false_iff script).mpr idle]
  rfl

theorem filler_of_statement {script : String} (busy : ¬ ∀ line ∈ linesOf script, Idle line) :
    filler script = [] := by
  rw [filler, if_pos]
  rw [← hasStatements_eq_false_iff, Bool.not_eq_false] at busy
  exact busy

theorem Passed.filler {script other : String} (passed : Passed script other) :
    filler other = [] := by
  apply filler_of_statement
  intro idle
  have last : "pass" ∈ linesOf other := by
    rw [passed.2, linesOf_feed]
    exact List.mem_append_right _ (List.mem_singleton_self _)
  have busy : isStatement "pass" = true := by decide
  rw [(isStatement_eq_false_iff "pass").mpr (idle _ last)] at busy
  cases busy

theorem Passed.body {script other : String} (passed : Passed script other) :
    bodyOf other ++ Program.filler other = bodyOf script ++ Program.filler script := by
  rw [passed.filler, filler_of_idle passed.1, List.append_nil, passed.2, bodyOf_pass]

/-- A script with `pass` after it takes the place of the same script without. -/
theorem passed_of_body {script other : String} (idle : ∀ line ∈ linesOf script, Idle line)
    (busy : ¬ ∀ line ∈ linesOf other, Idle line)
    (same : bodyOf script ++ filler script = bodyOf other ++ filler other) :
    Passed script other := by
  rw [filler_of_idle idle, filler_of_statement busy, List.append_nil, ← bodyOf_pass] at same
  exact ⟨idle, (bodyOf_inj.mp same).symm⟩

/-- The function body of Python tells the script, but for that `pass`. -/
theorem body_eq_iff {script script' : String} :
    bodyOf script ++ filler script = bodyOf script' ++ filler script' ↔
      script = script' ∨ Passed script script' ∨ Passed script' script := by
  constructor
  · intro same
    by_cases idle : ∀ line ∈ linesOf script, Idle line
    · by_cases idle' : ∀ line ∈ linesOf script', Idle line
      · rw [filler_of_idle idle, filler_of_idle idle'] at same
        exact .inl (by simpa using same)
      · exact .inr (.inl (passed_of_body idle idle' same))
    · by_cases idle' : ∀ line ∈ linesOf script', Idle line
      · exact .inr (.inr (passed_of_body idle' idle same.symm))
      · rw [filler_of_statement idle, filler_of_statement idle'] at same
        exact .inl (by simpa using same)
  · rintro (rfl | passed | passed)
    · rfl
    · exact passed.body.symm
    · exact passed.body

theorem preamble_inj {l : Language} {v v' : Json}
    (same : preamble l v.literal = preamble l v'.literal) : v = v' := by
  apply literal_inj
  cases l with
  | python =>
    have line := (List.cons.inj (List.cons.inj same).2).1
    exact (String.append_right_inj _).mp ((String.append_left_inj _).mp line)
  | quickJs =>
    have line := (List.cons.inj same).1
    exact (String.append_right_inj _).mp ((String.append_left_inj _).mp line)

/-- Sources are the same if the inputs are and the lines between preamble and epilogue. -/
theorem source_wrap_eq_iff {l : Language} {script script' : String} {v v' : Json} :
    (l.wrap script v).source = (l.wrap script' v').source ↔
      v = v' ∧ bodyOf script ++ gap l script = bodyOf script' ++ gap l script' := by
  rw [← linesOf_inj, linesOf_source, linesOf_source]
  simp only [List.append_assoc]
  constructor
  · intro same
    have length : (preamble l v.literal).length = (preamble l v'.literal).length := by simp
    obtain ⟨first, rest⟩ := List.append_inj same length
    refine ⟨preamble_inj first, ?_⟩
    simp only [← List.append_assoc] at rest
    exact List.append_cancel_right rest
  · rintro ⟨rfl, body⟩
    rw [← List.append_assoc (bodyOf script), body, List.append_assoc]

/-- A program is that of one input only. In JavaScript it is that of one script, and in Python of
one script or of two, of which the longer one ends in a `pass` that the shorter one is in need
of. -/
theorem source_eq_iff (script script' : String) (v v' : Json) :
    ((Program.quickJs script v).source = (Program.quickJs script' v').source ↔
      script = script' ∧ v = v') ∧
    ((Program.python script v).source = (Program.python script' v').source ↔
      v = v' ∧ (script = script' ∨ Passed script script' ∨ Passed script' script)) := by
  constructor
  · have same := @source_wrap_eq_iff .quickJs script script' v v'
    simp only [gap, List.append_nil, bodyOf_inj] at same
    exact same.trans and_comm
  · have same := @source_wrap_eq_iff .python script script' v v'
    simp only [gap, body_eq_iff] at same
    exact same

end ScriptSandbox.Proofs.Determined
