import ScriptSandbox.Json.Parser
import ScriptSandbox.Json.Value

namespace ScriptSandbox.Proofs.Splicing
open Json

def Visible (c : Char) : Prop := 0x20 ≤ c.toNat

instance : DecidablePred Visible := fun c => inferInstanceAs (Decidable (0x20 ≤ c.toNat))

/-- A piece of a literal and the character that it stands for. -/
inductive Piece : List Char → Char → Prop
  | plain {c : Char} (visible : Visible c) (no_quote : c ≠ '"') (no_backslash : c ≠ '\\') :
      Piece [c] c
  | quote : Piece ['\\', '"'] '"'
  | backslash : Piece ['\\', '\\'] '\\'

/-- What may stand between the quotes of a literal, and what it stands for. -/
inductive Body : List Char → List Char → Prop
  | nil : Body [] []
  | cons {piece body cs : List Char} {c : Char} (first : Piece piece c) (rest : Body body cs) :
      Body (piece ++ body) (c :: cs)

/-- What stands before the first quote without a backslash, and what comes after it. A backslash
hides the next character. -/
def upToQuote : List Char → Option (List Char × List Char)
  | [] => none
  | '"' :: rest => some ([], rest)
  | '\\' :: [] => none
  | '\\' :: c :: rest => (upToQuote rest).map fun (body, after) => ('\\' :: c :: body, after)
  | c :: rest => (upToQuote rest).map fun (body, after) => (c :: body, after)

/-- The body of the literal at the front. -/
def scan : List Char → Option (List Char × List Char)
  | '"' :: rest => upToQuote rest
  | _ => none

/-- The characters with the two escapes undone, and nothing else. -/
def undo : List Char → List Char
  | [] => []
  | '\\' :: '"' :: rest => '"' :: undo rest
  | '\\' :: '\\' :: rest => '\\' :: undo rest
  | c :: rest => c :: undo rest

/-- How a language reads what is neither the quote nor one of the two escapes. -/
structure Dialect where
  /-- Whether the character may stand for itself. -/
  plain : Char → Bool
  plain_of_visible : ∀ c, Visible c → plain c = true
  /-- What the escape stands for whose backslash is gone, and what comes after it. -/
  further : (cs : List Char) → Option (List Char × { rest : List Char // rest.length ≤ cs.length })

/-- The text of a literal without its opening quote, and what comes after it. -/
def Dialect.textFrom (d : Dialect) (cs : List Char) : Option (List Char × List Char) :=
  match cs with
  | [] => none
  | '"' :: rest => some ([], rest)
  | '\\' :: '"' :: rest => (d.textFrom rest).map fun (text, after) => ('"' :: text, after)
  | '\\' :: '\\' :: rest => (d.textFrom rest).map fun (text, after) => ('\\' :: text, after)
  | '\\' :: rest =>
    match d.further rest with
    | none => none
    | some (meaning, ⟨rest', _⟩) =>
      (d.textFrom rest').map fun (text, after) => (meaning ++ text, after)
  | c :: rest =>
    if d.plain c then (d.textFrom rest).map fun (text, after) => (c :: text, after) else none
termination_by cs.length

def Dialect.text (d : Dialect) : List Char → Option (List Char × List Char)
  | '"' :: rest => d.textFrom rest
  | _ => none

/-- Strings in documents are read in such a dialect. -/
def json : Dialect where
  plain c := decide (Visible c)
  plain_of_visible _ h := decide_eq_true h
  further cs :=
    match h : Parser.escaped cs with
    | .error _ => none
    | .ok (c, rest) => some ([c], ⟨rest, Nat.le_of_lt (Parser.escaped_shorter h)⟩)

/-- The two escapes are no exception among the escapes of documents. -/
theorem textFrom_escape (cs : List Char) :
    json.textFrom ('\\' :: cs) =
      match Parser.escaped cs with
      | .error _ => none
      | .ok (c, rest) => (json.textFrom rest).map fun (text, after) => (c :: text, after) := by
  by_cases hq : ∃ rest, cs = '"' :: rest
  · obtain ⟨rest, rfl⟩ := hq
    simp [Dialect.textFrom, Parser.escaped]
  · by_cases hb : ∃ rest, cs = '\\' :: rest
    · obtain ⟨rest, rfl⟩ := hb
      simp [Dialect.textFrom, Parser.escaped]
    · rw [Dialect.textFrom]
      · simp only [json]
        split
        · rename_i none_left
          split at none_left
          · rename_i he
            simp only [he]
          · simp at none_left
        · rename_i some_left
          split at some_left
          · simp at some_left
          · rename_i he
            simp only [Option.some.injEq, Prod.mk.injEq, Subtype.mk.injEq] at some_left
            obtain ⟨rfl, rfl⟩ := some_left
            simp only [he, List.singleton_append]
      · exact fun rest h => hq ⟨rest, h⟩
      · exact fun rest h => hb ⟨rest, h⟩

/-- The parser reads a text as the dialect of JSON has it. -/
theorem stringFrom_eq_textFrom (done cs : List Char) :
    (Parser.stringFrom done cs).toOption =
      (json.textFrom cs).map fun (text, after) =>
        (String.ofList (done.reverse ++ text), after) := by
  fun_induction Parser.stringFrom done cs with
  | case1 => simp [Dialect.textFrom, Except.toOption]
  | case2 => simp [Dialect.textFrom, Except.toOption]
  | case3 done rest e he =>
    rw [textFrom_escape]
    simp only [he, Except.toOption, Option.map_none]
  | case4 done rest c after he shorter ih =>
    rw [textFrom_escape]
    simp only [he, ih, Option.map_map]
    congr 1
    funext p
    simp
  | case5 done c rest no_quote no_backslash low =>
    have hidden : ¬ Visible c := Nat.not_le.mpr low
    rw [Dialect.textFrom]
    · simp [json, hidden, Except.toOption]
    all_goals simp_all
  | case6 done c rest no_quote no_backslash low ih =>
    have visible : Visible c := Nat.not_lt.mp low
    rw [Dialect.textFrom]
    · simp only [json, visible, decide_true, ↓reduceIte]
      rw [ih]
      simp only [json, Option.map_map]
      congr 1
      funext p
      simp
    all_goals simp_all

theorem Body.upToQuote {body cs : List Char} (h : Body body cs) (rest : List Char) :
    upToQuote (body ++ '"' :: rest) = some (body, rest) := by
  induction h with
  | nil => simp [Splicing.upToQuote]
  | cons first tail ih =>
    cases first with
    | plain _ no_quote no_backslash =>
      simp [Splicing.upToQuote, no_backslash, ih]
    | quote => simp [Splicing.upToQuote, ih]
    | backslash => simp [Splicing.upToQuote, ih]

theorem Body.undo {body cs : List Char} (h : Body body cs) : undo body = cs := by
  induction h with
  | nil => rfl
  | cons first tail ih =>
    cases first with
    | plain _ _ no_backslash => simp [Splicing.undo, no_backslash, ih]
    | quote => simp [Splicing.undo, ih]
    | backslash => simp [Splicing.undo, ih]

/-- The escapes in which languages differ do not occur. -/
theorem Body.textFrom {body cs : List Char} (h : Body body cs) (d : Dialect) (rest : List Char) :
    d.textFrom (body ++ '"' :: rest) = some (cs, rest) := by
  induction h with
  | nil => simp [Dialect.textFrom]
  | cons first tail ih =>
    cases first with
    | plain visible no_quote no_backslash =>
      rw [List.singleton_append, List.cons_append, Dialect.textFrom]
      · simp [d.plain_of_visible _ visible, ih]
      all_goals simp_all
    | quote => simp [Dialect.textFrom, ih]
    | backslash => simp [Dialect.textFrom, ih]

theorem piece_escape {c : Char} (h : Visible c) : Piece (escape c) c := by
  by_cases hq : c = '"'
  · subst hq
    exact .quote
  · by_cases hb : c = '\\'
    · subst hb
      exact .backslash
    · have low : ¬ c.toNat < 0x20 := Nat.not_lt.mpr h
      have no_letter {d : Char} (hd : d.toNat < 0x20) : c ≠ d := fun e => low (e ▸ hd)
      have plain : escape c = [c] := by
        unfold escape
        rw [if_neg hq, if_neg hb, if_neg (no_letter (by decide)), if_neg (no_letter (by decide)),
          if_neg (no_letter (by decide)), if_neg (no_letter (by decide)),
          if_neg (no_letter (by decide)), if_neg low]
      rw [plain]
      exact .plain h hq hb

theorem body_escape {cs : List Char} (h : ∀ c ∈ cs, Visible c) : Body (cs.flatMap escape) cs := by
  induction cs with
  | nil => exact .nil
  | cons c cs ih =>
    rw [List.flatMap_cons]
    exact .cons (piece_escape (h c List.mem_cons_self))
      (ih fun d hd => h d (List.mem_cons_of_mem _ hd))

theorem visible_hexDigit (n : Nat) : Visible (hexDigit n) := by
  have all : ∀ m < 16, Visible (Nat.digitChar m) := by decide
  exact all _ (Nat.mod_lt _ (by decide))

/-- Escaping leaves nothing below U+0020. -/
theorem visible_escape (c : Char) : ∀ d ∈ escape c, Visible d := by
  unfold escape
  repeat' split
  all_goals intro d hd
  all_goals simp only [List.mem_cons, List.not_mem_nil, or_false] at hd
  all_goals rcases hd with rfl | rfl | rfl | rfl | rfl | rfl
  all_goals first
    | decide
    | exact Nat.not_lt.mp (by assumption)
    | exact visible_hexDigit _

theorem visible_quote (cs : List Char) : ∀ c ∈ quote cs, Visible c := by
  intro c hc
  simp only [quote, List.mem_cons, List.mem_append, List.mem_flatMap, List.not_mem_nil,
    or_false] at hc
  rcases hc with rfl | ⟨d, _, hd⟩ | rfl
  · decide
  · exact visible_escape d c hd
  · decide

/-- What numbers are written with. -/
def Numeric (c : Char) : Prop := c.isDigit = true ∨ c ∈ ['-', '+', '.', 'e']

theorem Numeric.visible {c : Char} (h : Numeric c) : Visible c := by
  rcases h with digit | sign
  · have low : '0'.toNat ≤ c.toNat := by
      simp only [Char.isDigit, Bool.and_eq_true, decide_eq_true_eq] at digit
      exact digit.1
    exact Nat.le_trans (by decide) low
  · simp only [List.mem_cons, List.not_mem_nil, or_false] at sign
    rcases sign with rfl | rfl | rfl | rfl
    all_goals decide

theorem numeric_toDigits (n : Nat) : ∀ c ∈ Nat.toDigits 10 n, Numeric c := fun _ hc =>
  .inl (Nat.isDigit_of_mem_toDigits (by decide) (by decide) hc)

theorem numeric_whole (i : Int) : ∀ c ∈ whole i, Numeric c := by
  intro c hc
  unfold whole at hc
  split at hc
  · rcases List.mem_cons.mp hc with rfl | hc
    · exact .inr (by simp)
    · exact numeric_toDigits _ c hc
  · exact numeric_toDigits _ c hc

theorem mem_of_mem_stripZeros {c : Char} {digits : List Char}
    (h : c ∈ FloatStyle.stripZeros digits) : c ∈ digits := by
  simp only [FloatStyle.stripZeros, List.mem_reverse] at h
  simpa using (List.dropWhile_sublist _).subset h

theorem numeric_magnitude (style : FloatStyle) {digits : List Char} (point : Int)
    (h : ∀ c ∈ digits, Numeric c) : ∀ c ∈ style.magnitude digits point, Numeric c := by
  have zero : ∀ c ∈ "0.".toList, Numeric c := by simp [Numeric]
  have whole : ∀ c ∈ ".0".toList, Numeric c := by simp [Numeric]
  have taken (n : Nat) : ∀ c ∈ digits.take n, Numeric c := fun c hc => h c (List.mem_of_mem_take hc)
  have dropped (n : Nat) : ∀ c ∈ digits.drop n, Numeric c :=
    fun c hc => h c (List.mem_of_mem_drop hc)
  intro c hc
  unfold FloatStyle.magnitude at hc
  dsimp only at hc
  split at hc
  · split at hc
    · simp only [List.mem_append, List.mem_replicate] at hc
      rcases hc with (hc | ⟨_, rfl⟩) | hc
      · exact zero c hc
      · exact .inl rfl
      · exact h c hc
    · split at hc
      · simp only [List.mem_append, List.mem_replicate] at hc
        rcases hc with (hc | ⟨_, rfl⟩) | hc
        · exact h c hc
        · exact .inl rfl
        · exact whole c hc
      · rcases List.mem_append.mp hc with hc | hc
        · exact taken _ c hc
        · rcases List.mem_cons.mp hc with rfl | hc
          · exact .inr (by simp)
          · exact dropped _ c hc
  · simp only [List.mem_append, List.mem_cons] at hc
    rcases hc with (hc | hc) | rfl | rfl | hc
    · exact taken _ c hc
    · split at hc
      · simp at hc
      · rename_i rest _
        rcases List.mem_cons.mp hc with rfl | hc
        · exact .inr (by simp)
        · exact dropped 1 c (by simp_all)
    · exact .inr (by simp)
    · exact .inr (by split <;> simp)
    · exact numeric_toDigits _ c hc

theorem numeric_float (style : FloatStyle) (x : Binary64) : ∀ c ∈ style.text x, Numeric c := by
  have sign : ∀ c ∈ if x.negative then ['-'] else [], Numeric c := by
    split <;> simp [Numeric]
  have zero : ∀ c ∈ "0.0".toList, Numeric c := by simp [Numeric]
  intro c hc
  unfold FloatStyle.text at hc
  dsimp only at hc
  split at hc
  · rcases List.mem_append.mp hc with hc | hc
    · exact sign c hc
    · exact zero c hc
  · rcases List.mem_append.mp hc with hc | hc
    · exact sign c hc
    · exact numeric_magnitude style _
        (fun d hd => numeric_toDigits _ d (mem_of_mem_stripZeros hd)) c hc

mutual

/-- No document has a control character, however deep a name or a text lies in it. -/
theorem visible_chars : ∀ (v : Json), ∀ c ∈ chars v, Visible c
  | .null | .bool true | .bool false => by simp [chars, Visible]
  | .int i => by simpa [chars] using fun c hc => (numeric_whole i c hc).visible
  | .float x => by simpa [chars] using fun c hc => (numeric_float floatStyle x c hc).visible
  | .string s => by simpa [chars] using visible_quote s.toList
  | .array [] | .object [] => by simp [chars, Visible]
  | .array (v :: vs) => by
    intro c hc
    simp only [chars, List.mem_cons, List.mem_append, List.not_mem_nil, or_false] at hc
    rcases hc with rfl | (hc | hc) | rfl
    · decide
    · exact visible_chars v c hc
    · exact visible_moreItems vs c hc
    · decide
  | .object (m :: ms) => by
    intro c hc
    simp only [chars, List.mem_cons, List.mem_append, List.not_mem_nil, or_false] at hc
    rcases hc with rfl | (hc | hc) | rfl
    · decide
    · exact visible_member m c hc
    · exact visible_moreMembers ms c hc
    · decide

theorem visible_moreItems : ∀ (vs : List Json), ∀ c ∈ moreItems vs, Visible c
  | [] => by simp [moreItems]
  | v :: vs => by
    intro c hc
    simp only [moreItems, List.mem_cons, List.mem_append] at hc
    rcases hc with rfl | hc | hc
    · decide
    · exact visible_chars v c hc
    · exact visible_moreItems vs c hc

theorem visible_member : ∀ (m : String × Json), ∀ c ∈ member m, Visible c
  | (name, value) => by
    intro c hc
    simp only [member, List.mem_cons, List.mem_append] at hc
    rcases hc with hc | rfl | hc
    · exact visible_quote name.toList c hc
    · decide
    · exact visible_chars value c hc

theorem visible_moreMembers : ∀ (ms : List (String × Json)), ∀ c ∈ moreMembers ms, Visible c
  | [] => by simp [moreMembers]
  | m :: ms => by
    intro c hc
    simp only [moreMembers, List.mem_cons, List.mem_append] at hc
    rcases hc with rfl | hc | hc
    · decide
    · exact visible_member m c hc
    · exact visible_moreMembers ms c hc

end

theorem toList_literal (v : Json) :
    v.literal.toList = '"' :: ((chars v).flatMap escape ++ ['"']) := by
  simp [literal, quote]

theorem toList_text (v : Json) : v.text.toList = chars v := by
  simp [text]

theorem body_chars (v : Json) : Body ((chars v).flatMap escape) (chars v) :=
  body_escape (visible_chars v)

/-- A literal is a body between quotes. Every reader finds its end, whatever follows, and every
dialect reads the document out of it. -/
theorem literal_spliceable (v : Json) :
    ∃ body, v.literal.toList = '"' :: (body ++ ['"']) ∧ Body body v.text.toList ∧
      undo body = v.text.toList ∧
      ∀ after : String, scan (v.literal ++ after).toList = some (body, after.toList) ∧
        ∀ d : Dialect, d.text (v.literal ++ after).toList = some (v.text.toList, after.toList) := by
  have inside := body_chars v
  rw [toList_text]
  refine ⟨_, toList_literal v, inside, inside.undo, ?_⟩
  intro after
  have spliced : (v.literal ++ after).toList =
      '"' :: ((chars v).flatMap escape ++ '"' :: after.toList) := by
    rw [String.toList_append, toList_literal]
    simp
  rw [spliced]
  exact ⟨inside.upToQuote _, fun d => inside.textFrom d _⟩

end ScriptSandbox.Proofs.Splicing
