import ScriptSandbox.Command.Program
import ScriptSandbox.Proofs.NumberText
import ScriptSandbox.Proofs.TextForms

namespace ScriptSandbox.Proofs.ConfigText
open Toml NumberText TextForms

section
variable {cs rest : List Char} {c : Char}

/-- What neither is passed over in front of a line nor ends it. -/
def Starts (c : Char) : Prop :=
  TextForm.isSpace c = false ∧ c ≠ '#' ∧ c ≠ '\n' ∧ c ≠ '\r'

@[simp]
theorem skipSpace_cons (visible : TextForm.isSpace c = false) : skipSpace (c :: cs) = c :: cs :=
  List.dropWhile_cons_of_neg (by simp [visible])

theorem skipFiller_of_newline
    (ends : TextForm.newline (skipComment (skipSpace cs)) = some ((), rest)) :
    skipFiller cs = skipFiller rest := by
  rw [skipFiller]
  split
  next found =>
    obtain ⟨-, rfl⟩ := Prod.mk.inj (Option.some.inj (found.symm.trans ends))
    rfl
  next nothing => cases nothing.symm.trans ends

theorem skipFiller_of_none (stays : TextForm.newline (skipComment (skipSpace cs)) = none) :
    skipFiller cs = if skipComment (skipSpace cs) = [] then [] else skipSpace cs := by
  rw [skipFiller]
  split
  next found => cases stays.symm.trans found
  next => rfl

@[simp]
theorem skipFiller_start (starts : Starts c) : skipFiller (c :: cs) = c :: cs := by
  obtain ⟨visible, no_comment, feed, carriage⟩ := starts
  have stays : skipComment (skipSpace (c :: cs)) = c :: cs := by
    simp [visible, skipComment, no_comment]
  have no_end : TextForm.newline (skipComment (skipSpace (c :: cs))) = none := by
    simp [stays, feed, carriage]
  rw [skipFiller_of_none no_end, stays, skipSpace_cons visible]
  rfl

@[simp]
theorem skipFiller_feed : skipFiller ('\n' :: cs) = skipFiller cs := skipFiller_of_newline rfl

@[simp]
theorem skipFiller_nil : skipFiller [] = [] := skipFiller_of_none rfl

@[simp]
theorem lineEnd_feed : lineEnd ('\n' :: rest) = some ((), rest) := rfl

end

/-- What the lines of a document say. -/
inductive Spells : List Char → List Statement → Prop
  | nil : Spells [] []
  | blank {cs : List Char} {ss : List Statement} (more : Spells cs ss) : Spells ('\n' :: cs) ss
  | line {c : Char} {front rest : List Char} {s : Statement} {ss : List Statement}
      (starts : Starts c)
      (reads : Statement.scan (c :: (front ++ '\n' :: rest)) = some (s, '\n' :: rest))
      (more : Spells rest ss) : Spells (c :: (front ++ '\n' :: rest)) (s :: ss)

theorem Spells.statements {cs : List Char} {ss : List Statement} (h : Spells cs ss) {limit : Nat}
    (enough : cs.length < limit) : statementsWithin limit cs = some ss := by
  induction h generalizing limit with
  | nil =>
    cases limit with
    | zero => cases enough
    | succ limit =>
      simp [statementsWithin]
  | blank more ih =>
    cases limit with
    | zero => cases enough
    | succ limit =>
      have same := @ih (limit + 1) (Nat.lt_of_succ_lt enough)
      rw [statementsWithin] at same ⊢
      rw [skipFiller_feed]
      exact same
  | line starts reads more ih =>
    cases limit with
    | zero => cases enough
    | succ limit =>
      rw [statementsWithin, skipFiller_start starts]
      simp only [List.length_cons, List.length_append] at enough
      simp [reads, @ih limit (by omega)]

section
variable {name : List Char} {rest : List Char}

/-- A key without quotes, before a blank or a bracket. -/
structure Bare (name rest : List Char) : Prop where
  some_character : name ≠ []
  all : ∀ c ∈ name, isKeyChar c = true
  stops : ∀ c ∈ rest.head?, isKeyChar c = false

/-- Whether the name can be a key without quotes. -/
def isBare (name : String) : Bool := !name.toList.isEmpty && name.toList.all isKeyChar

theorem bare_of_name {name : String} (bare : isBare name = true) {c : Char} {rest : List Char}
    (stop : isKeyChar c = false) : Bare name.toList (c :: rest) := by
  simp only [isBare, Bool.and_eq_true, Bool.not_eq_true', List.isEmpty_eq_false_iff,
    List.all_eq_true] at bare
  refine ⟨bare.1, bare.2, ?_⟩
  intro c' first
  obtain rfl := Option.some.inj first
  exact stop

theorem isKeyChar_start {c : Char} (h : isKeyChar c = true) :
    Starts c ∧ c ≠ '"' ∧ c ≠ '\x27' ∧ c ≠ '[' := by
  have other {d : Char} (none_key : isKeyChar d = false) : c ≠ d := by
    rintro rfl
    cases h.symm.trans none_key
  refine ⟨⟨?_, other rfl, other rfl, other rfl⟩, other rfl, other rfl, other rfl⟩
  simp [TextForm.isSpace, other (d := ' ') rfl, other (d := '\t') rfl]

theorem Bare.taken (bare : Bare name rest) : (name ++ rest).takeWhile isKeyChar = name := by
  rw [List.takeWhile_append_of_pos bare.all]
  cases rest with
  | nil => simp
  | cons c rest => simp [bare.stops c rfl]

theorem Bare.dropped (bare : Bare name rest) : (name ++ rest).dropWhile isKeyChar = rest := by
  rw [List.dropWhile_append_of_pos bare.all]
  cases rest with
  | nil => rfl
  | cons c rest => exact List.dropWhile_cons_of_neg (by simp [bare.stops c rfl])

theorem Bare.key (bare : Bare name rest) :
    Toml.key (name ++ rest) = some (String.ofList name, rest) := by
  obtain ⟨c, more, rfl⟩ := List.exists_cons_of_ne_nil bare.some_character
  obtain ⟨-, quote, apostrophe, -⟩ := isKeyChar_start (bare.all c List.mem_cons_self)
  have taken := bare.taken
  have dropped := bare.dropped
  unfold Toml.key
  split
  next same => exact absurd (List.cons.inj same).1 quote
  next same => exact absurd (List.cons.inj same).1 apostrophe
  next => rw [taken, dropped]

theorem Bare.keysWithin (bare : Bare name rest) (no_dot : ∀ more, skipSpace rest ≠ '.' :: more)
    (limit : Nat) :
    Toml.keysWithin (limit + 1) (name ++ rest) = some ([String.ofList name], skipSpace rest) := by
  obtain ⟨c, more, rfl⟩ := List.exists_cons_of_ne_nil bare.some_character
  have starts := (isKeyChar_start (bare.all c List.mem_cons_self)).1
  have stays : skipSpace (c :: more ++ rest) = c :: more ++ rest := skipSpace_cons starts.1
  rw [Toml.keysWithin, stays, bare.key]
  simp only [Option.bind_eq_bind, Option.bind_some]

theorem Bare.keys (bare : Bare name rest) (no_dot : ∀ more, skipSpace rest ≠ '.' :: more) :
    Toml.keys (name ++ rest) = some ([String.ofList name], skipSpace rest) :=
  bare.keysWithin no_dot 78

/-- The header of a table. -/
theorem scan_header (bare : Bare name (']' :: rest)) :
    Statement.scan ('[' :: (name ++ ']' :: rest)) = some (.table [String.ofList name], rest) := by
  have keys := bare.keys (by intro more same; cases same)
  have stays : skipSpace (']' :: rest) = ']' :: rest := skipSpace_cons rfl
  obtain ⟨c, more, rfl⟩ := List.exists_cons_of_ne_nil bare.some_character
  have bracket := (isKeyChar_start (bare.all c List.mem_cons_self)).2.2.2
  unfold Statement.scan
  split
  next same => exact absurd (List.cons.inj (List.cons.inj same).2).1 bracket
  next same =>
    obtain rfl := (List.cons.inj same).2
    simp only [keys, stays, Option.bind_eq_bind, Option.bind_some]
  next no_bracket => exact absurd rfl (no_bracket _)

/-- An entry of a table. -/
theorem scan_entry {shown : List Char} {v : Toml} (bare : Bare name (' ' :: '=' :: ' ' :: shown))
    (visible : skipSpace shown = shown) (reads : value depthLimit shown = some (v, rest)) :
    Statement.scan (name ++ ' ' :: '=' :: ' ' :: shown) =
      some (.entry [String.ofList name] v, rest) := by
  have keys := bare.keys (by intro more same; cases same)
  have equals : skipSpace (' ' :: '=' :: ' ' :: shown) = '=' :: ' ' :: shown := rfl
  have space : skipSpace (' ' :: shown) = shown := visible
  obtain ⟨c, more, rfl⟩ := List.exists_cons_of_ne_nil bare.some_character
  have bracket := (isKeyChar_start (bare.all c List.mem_cons_self)).2.2.2
  unfold Statement.scan
  split
  next same => exact absurd (List.cons.inj same).1 bracket
  next same => exact absurd (List.cons.inj same).1 bracket
  next =>
    simp only [entry, keys, equals, space, reads, Option.bind_eq_bind, Option.bind_some]

end

section
variable {ds : List Char}

theorem digitValue_digit {c : Char} (digit : c.isDigit = true) :
    Scalar.digitValue 10 c = some (c.toNat - 48) := by
  have bound : c.toNat ≤ 57 := by
    simp only [Char.isDigit, Bool.and_eq_true, decide_eq_true_eq] at digit
    exact digit.2
  have less : c.toNat - 48 < 10 := by omega
  simp [Scalar.digitValue, digit, less]

theorem digitsFrom_digits (some_digit : ds ≠ []) (digits : Digits ds) (n count : Nat) :
    Scalar.digitsFrom 10 n count ds = some (Nat.ofDigitChars 10 ds n, count + ds.length) := by
  induction ds generalizing n count with
  | nil => exact absurd rfl some_digit
  | cons c ds ih =>
    have value := digitValue_digit (digits c List.mem_cons_self)
    have later : Digits ds := fun d within => digits d (List.mem_cons_of_mem _ within)
    cases ds with
    | nil => simp [Scalar.digitsFrom, value, Nat.ofDigitChars_cons, Nat.mul_comm]
    | cons d ds =>
      have no_underscore : d ≠ '_' := by
        rintro rfl
        cases later '_' List.mem_cons_self
      rw [Scalar.digitsFrom]
      · simp only [value, ih (List.cons_ne_nil _ _) later, Nat.ofDigitChars_cons]
        simp [Nat.mul_comm, Nat.add_assoc, Nat.add_comm 1]
      · simp
      · intro cs same
        exact no_underscore (List.cons.inj same).1

theorem digits_head_ne {c d : Char} {cs : List Char} (digits : Digits (c :: cs))
    (other : d.isDigit = false) : c ≠ d := by
  rintro rfl
  cases (digits c List.mem_cons_self).symm.trans other

theorem natural_digits (some_digit : ds ≠ []) (digits : Digits ds) (leading : Leading ds) :
    Scalar.natural ds = some (Nat.ofDigitChars 10 ds 0) := by
  unfold Scalar.natural
  split
  next same => cases leading _ rfl
  next => simp [Scalar.digits, digitsFrom_digits some_digit digits]

theorem signed_digits (digits : Digits ds) : Scalar.signed ds = (false, ds) := by
  unfold Scalar.signed
  split
  next => exact absurd rfl (digits_head_ne digits (d := '-') rfl)
  next => exact absurd rfl (digits_head_ne digits (d := '+') rfl)
  next => rfl

theorem integer_digits {n : Nat} (small : n < 0x8000000000000000) :
    Scalar.integer (Nat.toDigits 10 n) = some (n : Int) := by
  have digits := digits_toDigits n
  have read := natural_digits Nat.toDigits_ne_nil digits (leading_toDigits n)
  rw [Nat.ofDigitChars_ten_toDigits] at read
  generalize Nat.toDigits 10 n = ds at digits read
  have no_letter {c d : Char} {cs : List Char} (letter : d.isDigit = false) :
      ds ≠ c :: d :: cs := by
    rintro rfl
    have digits' : Digits (d :: cs) := fun e within => digits e (List.mem_cons_of_mem _ within)
    exact absurd rfl (digits_head_ne digits' letter)
  have inRange : Scalar.inRange n = true := by
    simp only [Scalar.inRange, Bool.and_eq_true, decide_eq_true_eq]
    omega
  unfold Scalar.integer
  split
  next => exact absurd rfl (no_letter rfl)
  next => exact absurd rfl (no_letter rfl)
  next => exact absurd rfl (no_letter rfl)
  next => simp [signed_digits digits, read, inRange]

theorem isDate_digits (digits : Digits ds) : Scalar.isDate ds = false := by
  unfold Scalar.isDate
  split
  next => cases digits '-' (by simp)
  next => rfl

theorem isWordChar_digit {c : Char} (digit : c.isDigit = true) : Scalar.isWordChar c = true := by
  simp [Scalar.isWordChar, Char.isAlphanum, digit]

theorem ofWord_digits {n : Nat} (small : n < 0x8000000000000000) :
    Scalar.ofWord (Nat.toDigits 10 n) = some (.integer n) := by
  have digits := digits_toDigits n
  have no_word {c : Char} {cs : List Char} (letter : c.isDigit = false) :
      Nat.toDigits 10 n ≠ c :: cs := by
    intro same
    rw [same] at digits
    exact absurd rfl (digits_head_ne digits letter)
  simp only [Scalar.ofWord, no_word (c := 't') rfl, no_word (c := 'f') rfl, if_false,
    integer_digits small]

end

section
variable {rest : List Char}

theorem textLiteral_cons (s : String) : ∃ more,
    (textLiteral s).toList = (TextForm.choose s.toList).quote :: more := by
  obtain ⟨more, fence⟩ := fence_eq (TextForm.choose s.toList)
  simp [textLiteral, TextForm.write, fence]

/-- What is shown at the end of a line is read as a value. -/
structure ReadsAs (shown : String) (v : Toml) : Prop where
  visible : ∀ rest, skipSpace (shown.toList ++ '\n' :: rest) = shown.toList ++ '\n' :: rest
  reads : ∀ rest, value depthLimit (shown.toList ++ '\n' :: rest) = some (v, '\n' :: rest)

theorem value_eq (depth : Nat) : ∃ inner, value depth = valueOver inner := by
  cases depth with
  | zero => exact ⟨none, rfl⟩
  | succ depth => exact ⟨some (value depth), rfl⟩

theorem valueOver_quote {inner : Option (Scanner Toml)} {q : Char} (quote : q = '"' ∨ q = '\x27')
    (cs : List Char) :
    valueOver inner (q :: cs) = (Toml.text (q :: cs)).map fun p => (.string p.1, p.2) := by
  rcases quote with rfl | rfl <;> rfl

theorem readsAs_textLiteral (s : String) : ReadsAs (textLiteral s) (.string s) := by
  obtain ⟨more, literal⟩ := textLiteral_cons s
  have quote := quote_choose s.toList
  constructor
  · intro rest
    rw [literal]
    rcases quote with quote | quote <;> rw [quote] <;> exact skipSpace_cons rfl
  · intro rest
    have stop : ('\n' :: rest).head? ≠ some (TextForm.choose s.toList).quote := by
      rcases quote with quote | quote <;> rw [quote] <;> simp
    have read := text_textLiteral s stop
    obtain ⟨inner, same⟩ := value_eq depthLimit
    rw [literal, List.cons_append] at read ⊢
    rw [same, valueOver_quote quote, read]
    rfl

/-- A word that is read as one value is read up to the end of the line. -/
theorem scalar_word (rest : List Char) {w : List Char} {v : Toml}
    (word : ∀ c ∈ w, Scalar.isWordChar c = true) (no_date : Scalar.isDate w = false)
    (reads : Scalar.ofWord w = some v) :
    scalar (w ++ '\n' :: rest) = some (v, '\n' :: rest) := by
  have ended : ¬ Scalar.isWordChar '\n' = true := Bool.false_ne_true
  have taken : (w ++ '\n' :: rest).takeWhile Scalar.isWordChar = w := by
    rw [List.takeWhile_append_of_pos word, List.takeWhile_cons_of_neg ended, List.append_nil]
  have dropped : (w ++ '\n' :: rest).dropWhile Scalar.isWordChar = '\n' :: rest := by
    rw [List.dropWhile_append_of_pos word, List.dropWhile_cons_of_neg ended]
  simp only [scalar, Scalar.word, taken, dropped, no_date, reads, Option.map_some]

/-- A value that starts with a letter or a digit is one word. -/
theorem value_word {c : Char} {w : List Char} (start : c.isAlphanum = true) (depth : Nat) :
    value depth (c :: w) = scalar (c :: w) := by
  obtain ⟨inner, same⟩ := value_eq depth
  have other {d : Char} (mark : d.isAlphanum = false) : c ≠ d := by
    rintro rfl
    cases start.symm.trans mark
  rw [same]
  unfold valueOver
  split
  next same => exact absurd (List.cons.inj same).1 (other rfl)
  next same => exact absurd (List.cons.inj same).1 (other rfl)
  next same => exact absurd (List.cons.inj same).1 (other rfl)
  next same => exact absurd (List.cons.inj same).1 (other rfl)
  next => rfl

theorem readsAs_word {s : String} {c : Char} {w : List Char} {v : Toml} (same : s.toList = c :: w)
    (start : c.isAlphanum = true) (word : s.toList.all Scalar.isWordChar = true)
    (no_date : Scalar.isDate s.toList = false) (reads : Scalar.ofWord s.toList = some v) :
    ReadsAs s v := by
  constructor
  · intro rest
    rw [same]
    exact skipSpace_cons (isKeyChar_start (by simp [isKeyChar, start])).1.1
  · intro rest
    have read := scalar_word rest (List.all_eq_true.mp word) no_date reads
    rw [same] at read ⊢
    exact (value_word start depthLimit).trans read

theorem readsAs_boolean (b : Bool) : ReadsAs (Config.booleanText b) (.boolean b) := by
  cases b with
  | true => exact readsAs_word (w := ['r', 'u', 'e']) rfl rfl rfl rfl rfl
  | false => exact readsAs_word (w := ['a', 'l', 's', 'e']) rfl rfl rfl rfl rfl

theorem readsAs_natural {n : Nat} (small : n < 0x8000000000000000) :
    ReadsAs (toString n) (.integer n) := by
  have digits := digits_toDigits n
  have text : (toString n).toList = Nat.toDigits 10 n := by simp
  obtain ⟨c, ds, same⟩ := List.exists_cons_of_ne_nil (Nat.toDigits_ne_nil (b := 10) (n := n))
  have first : c.isDigit = true := digits c (same ▸ List.mem_cons_self)
  apply readsAs_word (text.trans same) (by simp [Char.isAlphanum, first])
  · rw [text, List.all_eq_true]
    exact fun c within => isWordChar_digit (digits c within)
  · rw [text]
    exact isDate_digits digits
  · rw [text]
    exact ofWord_digits small

end

section
variable {rest : List Char} {ss : List Statement}

theorem Spells.header (name : String) (bare : isBare name = true) (more : Spells rest ss) :
    Spells (("[" ++ name ++ "]").toList ++ '\n' :: rest) (.table [name] :: ss) := by
  have reads := scan_header (bare_of_name bare rfl : Bare name.toList (']' :: '\n' :: rest))
  rw [String.ofList_toList] at reads
  have parts : ("[" ++ name ++ "]").toList ++ '\n' :: rest =
      '[' :: ((name.toList ++ [']']) ++ '\n' :: rest) := by simp
  rw [parts]
  have starts : Starts '[' := ⟨rfl, by simp, by simp, by simp⟩
  refine .line starts ?_ more
  simpa using reads

theorem Spells.entry (name : String) {shown : String} {v : Toml} (bare : isBare name = true)
    (value : ReadsAs shown v) (more : Spells rest ss) :
    Spells ((name ++ " = " ++ shown).toList ++ '\n' :: rest) (.entry [name] v :: ss) := by
  have bare : Bare name.toList (' ' :: '=' :: ' ' :: (shown.toList ++ '\n' :: rest)) :=
    bare_of_name bare rfl
  have scanned := scan_entry bare (value.visible rest) (value.reads rest)
  rw [String.ofList_toList] at scanned
  obtain ⟨c, cs, same⟩ := List.exists_cons_of_ne_nil bare.some_character
  have parts : (name ++ " = " ++ shown).toList ++ '\n' :: rest =
      c :: ((cs ++ ' ' :: '=' :: ' ' :: shown.toList) ++ '\n' :: rest) := by simp [same]
  rw [parts]
  refine .line (isKeyChar_start (bare.all c (same ▸ List.mem_cons_self))).1 ?_ more
  simpa [same] using scanned

end

theorem join_lines (ls : List (List Char)) :
    Lines.join (ls ++ [[]]) = ls.flatMap (· ++ ['\n']) := by
  induction ls with
  | nil => rfl
  | cons l ls ih =>
    obtain ⟨m, ms, same⟩ := List.exists_cons_of_ne_nil
      (List.append_ne_nil_of_right_ne_nil ls (List.cons_ne_nil [] []))
    rw [List.cons_append, List.flatMap_cons, ← ih, same, Lines.join, List.append_assoc]
    rfl

/-- The lines of a document, each with its end. -/
theorem toList_document (c : Config) : c.document.toList =
    (["[python]", Config.textLine "binary" c.python.binary,
      Config.textLine "lib_dir" c.python.library, "", "[quickjs]",
      Config.textLine "binary" c.quickJs.binary, "", "[wasmer]"] ++
        Config.wasmerLines c.wasmer).flatMap (·.toList ++ ['\n']) := by
  rw [Config.document, textOf, String.toList_ofList, List.map_append]
  exact (join_lines _).trans (List.flatMap_map ..)

/-- What a document says of the settings of wasmer. -/
def wasmerStatements (w : WasmerConfig) : List Statement :=
  (w.binary.map fun s => Statement.entry ["binary"] (Toml.string s)).toList ++
    (w.timeout.map fun n : Nat => Statement.entry ["timeout_seconds"] (Toml.integer n)).toList ++
    [Statement.entry ["auto_download"] (Toml.boolean w.autoDownload)]

def statementsOf (c : Config) : List Statement :=
  .table ["python"] :: .entry ["binary"] (.string c.python.binary) ::
    .entry ["lib_dir"] (.string c.python.library) ::
    .table ["quickjs"] :: .entry ["binary"] (.string c.quickJs.binary) ::
    .table ["wasmer"] :: wasmerStatements c.wasmer

section
variable {rest : List Char} {ss : List Statement}

/-- A setting without value has no line. -/
theorem Spells.option {α : Type} {found : Option α} (name : String) {shown : α → String}
    {v : α → Toml} (bare : isBare name = true)
    (value : ∀ x, found = some x → ReadsAs (shown x) (v x)) (more : Spells rest ss) :
    Spells
      ((found.map fun x => name ++ " = " ++ shown x).toList.flatMap (·.toList ++ ['\n']) ++ rest)
      ((found.map fun x => .entry [name] (v x)).toList ++ ss) := by
  cases found with
  | none => exact more
  | some x => simpa using Spells.entry name bare (value x rfl) more

theorem spells_wasmer {w : WasmerConfig} (small : ∀ n, w.timeout = some n → n < 0x8000000000000000)
    (more : Spells rest []) :
    Spells ((Config.wasmerLines w).flatMap (·.toList ++ ['\n']) ++ rest) (wasmerStatements w) := by
  have download := Spells.entry "auto_download" rfl
    (readsAs_boolean w.autoDownload) more
  have timed := Spells.option "timeout_seconds" rfl
    (fun n limit => readsAs_natural (small n limit)) download
  have binary := Spells.option "binary" rfl
    (fun s (_ : w.binary = some s) => readsAs_textLiteral s) timed
  have lines : "timeout_seconds" ++ " = " = "timeout_seconds = " := rfl
  have lines' : "auto_download" ++ " = " = "auto_download = " := rfl
  have line : Config.textLine "binary" = fun s => "binary" ++ " = " ++ textLiteral s := rfl
  rw [lines, lines'] at binary
  simpa [Config.wasmerLines, wasmerStatements, line] using binary

/-- A document says each setting, and nothing else. -/
theorem spells_document {c : Config}
    (small : ∀ n, c.wasmer.timeout = some n → n < 0x8000000000000000) (more : Spells rest []) :
    Spells (c.document.toList ++ rest) (statementsOf c) := by
  have wasmer := Spells.header "wasmer" rfl (spells_wasmer small more)
  have quickJs := Spells.header "quickjs" rfl
    (.entry "binary" rfl (readsAs_textLiteral c.quickJs.binary)
      (.blank wasmer))
  have python := Spells.header "python" rfl
    (.entry "binary" rfl (readsAs_textLiteral c.python.binary)
      (.entry "lib_dir" rfl (readsAs_textLiteral c.python.library)
        (.blank quickJs)))
  rw [toList_document]
  simp only [List.cons_append, List.nil_append, List.flatMap_cons, List.append_assoc]
  exact python

end

theorem markAt?_eq_none {marks : Draft.Marks} {place : List String}
    (free : place ∉ marks.map (·.1)) : Draft.markAt? marks place = none := by
  rw [Draft.markAt?, Option.map_eq_none_iff, List.find?_eq_none]
  intro m within same
  exact free (List.mem_map.mpr ⟨m, within, eq_of_beq same⟩)

theorem setMark_new {marks : Draft.Marks} {place : List String} (mark : Mark)
    (free : place ∉ marks.map (·.1)) :
    Draft.setMark marks place mark = marks ++ [(place, mark)] := by
  simp [Draft.setMark, markAt?_eq_none free]

/-- A header with a new name opens a table. -/
theorem openTable_new {d : Draft} {name : String} (free : [name] ∉ d.marks.map (·.1)) :
    d.openTable [name] = some ⟨d.marks ++ [([name], Mark.header)], [name]⟩ := by
  simp [Draft.openTable, Draft.descend, markAt?_eq_none free, setMark_new _ free]

/-- An entry with a new name is added to the current table. -/
theorem addEntry_new {d : Draft} {name : String} {v : Toml}
    (free : d.current ++ [name] ∉ d.marks.map (·.1)) :
    d.addEntry [name] v = some ⟨d.marks ++ [(d.current ++ [name], Mark.value v)], d.current⟩ := by
  simp [Draft.addEntry, Draft.descend, markAt?_eq_none free, setMark_new _ free]

/-- The places that statements with single names mention, from the table `here` on. -/
inductive Mentions : List String → List Statement → Draft.Marks → Prop
  | nil {here : List String} : Mentions here [] []
  | table {here : List String} (name : String) {ss : List Statement} {marks : Draft.Marks}
      (more : Mentions [name] ss marks) :
      Mentions here (.table [name] :: ss) (([name], .header) :: marks)
  | entry {here : List String} (name : String) (v : Toml) {ss : List Statement}
      {marks : Draft.Marks} (more : Mentions here ss marks) :
      Mentions here (.entry [name] v :: ss) ((here ++ [name], .value v) :: marks)

theorem free_of_nodup {old new : Draft.Marks} {place : List String} {mark : Mark}
    (apart : ((old ++ (place, mark) :: new).map (·.1)).Nodup) : place ∉ old.map (·.1) := by
  rw [List.map_append, List.nodup_append] at apart
  exact fun within => apart.2.2 place within place List.mem_cons_self rfl

/-- Statements about different new places add each of them. -/
theorem Mentions.foldlM {here : List String} {ss : List Statement} {new : Draft.Marks}
    (h : Mentions here ss new) (old : Draft.Marks) (apart : ((old ++ new).map (·.1)).Nodup) :
    ∃ last, ss.foldlM Statement.apply ⟨old, here⟩ = some ⟨old ++ new, last⟩ := by
  induction h generalizing old with
  | nil =>
    rename_i here
    exact ⟨here, by simp⟩
  | table name more ih =>
    have free : [name] ∉ old.map (·.1) := free_of_nodup apart
    obtain ⟨last, done⟩ := ih (old ++ [([name], .header)]) (by simpa using apart)
    refine ⟨last, ?_⟩
    rw [List.foldlM_cons, Statement.apply, openTable_new free]
    simpa using done
  | @entry here name v ss marks more ih =>
    have free : here ++ [name] ∉ old.map (·.1) := free_of_nodup apart
    obtain ⟨last, done⟩ := ih (old ++ [(here ++ [name], .value v)]) (by simpa using apart)
    refine ⟨last, ?_⟩
    rw [List.foldlM_cons, Statement.apply, addEntry_new free]
    simpa using done

/-- What the document of a configuration mentions of the settings of wasmer. -/
def wasmerMarks (w : WasmerConfig) : Draft.Marks :=
  (w.binary.map fun s => (["wasmer", "binary"], Mark.value (Toml.string s))).toList ++
    (w.timeout.map fun n : Nat =>
      (["wasmer", "timeout_seconds"], Mark.value (Toml.integer n))).toList ++
    [(["wasmer", "auto_download"], Mark.value (Toml.boolean w.autoDownload))]

/-- What the document of a configuration mentions. -/
def marksOf (c : Config) : Draft.Marks :=
  (["python"], .header) :: (["python", "binary"], .value (.string c.python.binary)) ::
    (["python", "lib_dir"], .value (.string c.python.library)) ::
    (["quickjs"], .header) :: (["quickjs", "binary"], .value (.string c.quickJs.binary)) ::
    (["wasmer"], .header) :: wasmerMarks c.wasmer

theorem Mentions.option {α : Type} {here : List String} {ss : List Statement} {marks : Draft.Marks}
    (found : Option α) (name : String) (v : α → Toml) (more : Mentions here ss marks) :
    Mentions here ((found.map fun x => .entry [name] (v x)).toList ++ ss)
      ((found.map fun x => (here ++ [name], .value (v x))).toList ++ marks) := by
  cases found with
  | none => exact more
  | some x => exact .entry name (v x) more

theorem mentions_statements (c : Config) : Mentions [] (statementsOf c) (marksOf c) := by
  have download : Mentions ["wasmer"] [.entry ["auto_download"] (.boolean c.wasmer.autoDownload)]
      [(["wasmer", "auto_download"], .value (.boolean c.wasmer.autoDownload))] := .entry _ _ .nil
  have timed := Mentions.option c.wasmer.timeout "timeout_seconds" (fun n => .integer n) download
  have wasmer := Mentions.option c.wasmer.binary "binary" .string timed
  have all : Mentions [] _ _ := .table "python"
    (.entry "binary" (.string c.python.binary)
      (.entry "lib_dir" (.string c.python.library)
        (.table "quickjs"
          (.entry "binary" (.string c.quickJs.binary)
            (.table "wasmer" wasmer)))))
  simpa [statementsOf, wasmerStatements, marksOf, wasmerMarks] using all

theorem nodup_marksOf (c : Config) : ((marksOf c).map (·.1)).Nodup := by
  rcases c with ⟨python, quickJs, ⟨binary, timeout, download⟩⟩
  cases binary <;> cases timeout <;> simp [marksOf, wasmerMarks]

/-- The tables that the document describes. -/
def tablesOf (c : Config) : Toml := .table (Draft.entries { marks := marksOf c })

theorem ofToml_tables (c : Config) : Config.ofToml (tablesOf c) = some c := by
  rcases c with ⟨python, quickJs, ⟨binary, timeout, download⟩⟩
  cases binary with
  | none =>
    cases timeout with
    | none => rfl
    | some n => rfl
  | some s =>
    cases timeout with
    | none => rfl
    | some n => rfl

section
variable {c : Config} (rest : String)

/-- The document is read, also with empty lines after it. -/
theorem parse_tables (small : ∀ n, c.wasmer.timeout = some n → n < 0x8000000000000000)
    (silent : Spells rest.toList []) : Toml.parse (c.document ++ rest) = some (tablesOf c) := by
  have no_mark : skipMark (c.document ++ rest).toList = (c.document ++ rest).toList := by
    rw [String.toList_append, toList_document]
    rfl
  have spells := spells_document small silent
  rw [← String.toList_append] at spells
  obtain ⟨last, done⟩ := (mentions_statements c).foldlM [] (nodup_marksOf c)
  simp only [Toml.parse, no_mark, spells.statements (Nat.lt_succ_self _), Option.bind_eq_bind,
    Option.bind_some]
  change (List.foldlM Statement.apply ⟨[], []⟩ _).bind _ = _
  rw [done]
  rfl

/-- A configuration is read back from its document. -/
theorem parse_document (small : ∀ n, c.wasmer.timeout = some n → n < 0x8000000000000000)
    (silent : Spells rest.toList []) : Config.parse (c.document ++ rest) = .ok c := by
  simp only [Config.parse, parse_tables rest small silent, ofToml_tables]

end

end ScriptSandbox.Proofs.ConfigText
