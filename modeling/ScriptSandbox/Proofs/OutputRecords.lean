import Mathlib.Data.List.TakeWhile
import ScriptSandbox.Command.Run
import ScriptSandbox.Proofs.Layout
import ScriptSandbox.Proofs.RoundTrip

namespace ScriptSandbox.Proofs.OutputRecords
open Json Json.Parser Output Splicing
open Layout (IsLine)
open RoundTrip (string_quote)

/-- A name and a text, without the quote that the name begins with. -/
def fieldTail (f : String × String) : List Char :=
  f.1.toList.flatMap escape ++ '"' :: ':' :: quote f.2.toList

/-- The record of two texts under names. -/
def recordOf (first second : String × String) : String :=
  String.ofList ('\x7b' :: '"' :: (fieldTail first ++ ',' :: '"' :: (fieldTail second ++ ['\x7d'])))

/-- The two streams without names. -/
def pairOf (o : Output) : String := (Json.array [.string o.stdout, .string o.stderr]).text

/-- The names of the streams. -/
def IsStream (name : String) : Prop := name = "stdout" ∨ name = "stderr"

section
variable {f first second : String × String} {o : Output}

@[simp]
theorem scanText_quote (text : String) (rest : List Char) :
    scanText (quote text.toList ++ rest) = .ok (text, rest) := by
  have quoted : skipSpace (quote text.toList ++ rest) =
      '"' :: (text.toList.flatMap escape ++ '"' :: rest) := by
    simp only [quote, List.cons_append, List.append_assoc, List.nil_append]
    rfl
  rw [scanText, quoted]
  exact string_quote text rest

@[simp]
theorem scanField_quote (stream : IsStream f.1) (rest : List Char) :
    scanField f.1 (quote f.2.toList ++ rest) = .ok (some f.2, rest) := by
  have known : f.1 = "stdout" ∨ f.1 = "stderr" := stream
  simp [scanField, known, bind, Except.bind]

@[simp]
theorem member_fieldTail (stream : IsStream f.1) (rest : List Char) :
    Parser.member string scanField (fieldTail f ++ rest) = .ok ((f.1, some f.2), rest) := by
  have name := string_quote f.1 (':' :: (quote f.2.toList ++ rest))
  have colon : skipSpace (':' :: (quote f.2.toList ++ rest)) =
      ':' :: (quote f.2.toList ++ rest) := rfl
  simp only [Parser.member, fieldTail, List.append_assoc, List.cons_append, name, colon,
    scanField_quote stream, bind, Except.bind]

/-- The two fields of a record are read in the order in which they stand. -/
theorem members_fields (one : IsStream first.1) (other : IsStream second.1) (rest : List Char) :
    members string scanField
      ('"' :: (fieldTail first ++ ',' :: '"' :: (fieldTail second ++ '\x7d' :: rest))) =
        .ok ([(first.1, some first.2), (second.1, some second.2)], rest) := by
  have last : membersFrom string scanField ((fieldTail second ++ '\x7d' :: rest).length + 1 + 1)
      [(second.1, some second.2), (first.1, some first.2)] ('\x7d' :: rest) =
        .ok ([(first.1, some first.2), (second.1, some second.2)], rest) := rfl
  have more : membersFrom string scanField
      ((fieldTail second ++ '\x7d' :: rest).length + 1 + 1 + 1) [(first.1, some first.2)]
      (',' :: '"' :: (fieldTail second ++ '\x7d' :: rest)) =
        .ok ([(first.1, some first.2), (second.1, some second.2)], rest) := by
    show (Parser.member string scanField (fieldTail second ++ '\x7d' :: rest) >>= fun p =>
      membersFrom string scanField _ (p.1 :: [(first.1, some first.2)]) p.2) = _
    rw [member_fieldTail other]
    exact last
  show (Parser.member string scanField _ >>= fun p =>
    membersFrom string scanField (p.2.length + 1) [p.1] p.2) = _
  rw [member_fieldTail one]
  exact more

/-- White space after the last brace or bracket does not count. -/
theorem complete_of_read {α : Type} {scan : Scanner α} {cs space : List Char} {a : α}
    (read : scan cs = .ok (a, space)) (blank : ∀ c ∈ space, isSpace c = true) :
    complete scan cs = .ok a := by
  have nothing : skipSpace space = [] := List.dropWhile_eq_nil_iff.mpr blank
  rw [complete, read]
  simp only [bind, Except.bind, nothing]

theorem parse_brace {document : String} {rest : List Char}
    (text : document.toList = '\x7b' :: rest) :
    Output.parse document = match complete (members string scanField) rest with
      | .ok fields => ofFields fields
      | .error _ => none := by
  unfold Output.parse
  rw [text]
  rfl

theorem parse_bracket {document : String} {rest : List Char}
    (text : document.toList = '[' :: rest) :
    Output.parse document = match complete (items scanText) rest with
      | .ok [out, err] => some ⟨out, err⟩
      | _ => none := by
  unfold Output.parse
  rw [text]
  rfl

theorem parse_recordOf {space : String} (one : IsStream first.1) (other : IsStream second.1)
    (blank : ∀ c ∈ space.toList, isSpace c = true) :
    Output.parse (recordOf first second ++ space) =
      ofFields [(first.1, some first.2), (second.1, some second.2)] := by
  have text : (recordOf first second ++ space).toList = '\x7b' :: '"' :: (fieldTail first ++
      ',' :: '"' :: (fieldTail second ++ '\x7d' :: space.toList)) := by
    rw [String.toList_append, recordOf, String.toList_ofList]
    simp only [List.cons_append, List.append_assoc, List.nil_append]
  rw [parse_brace text, complete_of_read (members_fields one other space.toList) blank]

theorem items_texts (first second : String) (rest : List Char) :
    items scanText (quote first.toList ++ ',' :: (quote second.toList ++ ']' :: rest)) =
      .ok ([first, second], rest) := by
  have last : itemsFrom scanText ((quote second.toList ++ ']' :: rest).length + 1) [second, first]
      (']' :: rest) = .ok ([first, second], rest) := rfl
  have more : itemsFrom scanText ((quote second.toList ++ ']' :: rest).length + 1 + 1) [first]
      (',' :: (quote second.toList ++ ']' :: rest)) = .ok ([first, second], rest) := by
    show (scanText (quote second.toList ++ ']' :: rest) >>= fun p =>
      itemsFrom scanText _ (p.1 :: [first]) p.2) = _
    rw [scanText_quote]
    exact last
  show (scanText (quote first.toList ++ _) >>= fun p =>
    itemsFrom scanText (p.2.length + 1) [p.1] p.2) = _
  rw [scanText_quote]
  exact more

theorem parse_pairOf : Output.parse (pairOf o) = some o := by
  have text : (pairOf o).toList =
      '[' :: (quote o.stdout.toList ++ ',' :: (quote o.stderr.toList ++ [']'])) := by
    simp [pairOf, Json.text, chars, moreItems]
  have nothing : ∀ c ∈ ([] : List Char), isSpace c = true := by simp
  rw [parse_bracket text, complete_of_read (items_texts o.stdout o.stderr []) nothing]

theorem isStream_stdout : IsStream "stdout" := .inl rfl

theorem isStream_stderr : IsStream "stderr" := .inr rfl

theorem toJson_eq (o : Output) :
    o.toJson = .object [("stderr", .string o.stderr), ("stdout", .string o.stdout)] := by
  have before : "stderr" < "stdout" := by decide
  simp only [Output.toJson, Json.ofMembers, List.foldl_cons, List.foldl_nil, Json.putMember,
    if_pos before]

theorem text_toJson (o : Output) :
    o.toJson.text = recordOf ("stderr", o.stderr) ("stdout", o.stdout) := by
  rw [toJson_eq, Json.text, recordOf]
  simp only [chars, Json.member, moreMembers, quote, fieldTail, List.cons_append, List.append_assoc,
    List.nil_append]

theorem record_eq (o : Output) :
    o.record = recordOf ("stdout", o.stdout) ("stderr", o.stderr) := by
  have plain : "stdout".toList.flatMap escape = "stdout".toList := rfl
  have plain' : "stderr".toList.flatMap escape = "stderr".toList := rfl
  have opening : "\x7b\"stdout\":".toList = '\x7b' :: '"' :: ("stdout".toList ++ ['"', ':']) := rfl
  have between : ",\"stderr\":".toList = ',' :: '"' :: ("stderr".toList ++ ['"', ':']) := rfl
  unfold Output.record recordOf fieldTail
  rw [opening, between, plain, plain']
  simp only [List.cons_append, List.append_assoc, List.nil_append]

end

/-- The line is a record of the output, and of no other one. -/
structure Records (o : Output) (line : String) : Prop where
  visible : ∀ c ∈ line.toList, Visible c
  /-- So it is one line when it is printed. -/
  alone : linesOf (line ++ "\n") = [line, ""]
  read : Output.parse line = some o
  read_printed : Output.parse (line ++ "\n") = some o

/-- What is printed of an output is a record of it, and it is read back from two other forms, in one
of which the streams stand the other way round. -/
theorem records_ofOutput (o : Output) :
    (∃ line, Report.ofOutput .json o = { stdout := line ++ "\n" } ∧ Records o line ∧
      line = recordOf ("stderr", o.stderr) ("stdout", o.stdout)) ∧
    o.record = recordOf ("stdout", o.stdout) ("stderr", o.stderr) ∧
    Output.parse o.record = some o ∧ Output.parse (pairOf o) = some o := by
  have visible : ∀ c ∈ o.toJson.text.toList, Visible c := by
    rw [toList_text]
    exact visible_chars o.toJson
  have line : IsLine o.toJson.text := fun feed => absurd (visible _ feed) (by decide)
  have alone : linesOf (o.toJson.text ++ "\n") = [o.toJson.text, ""] := by
    have cut := linesOf_feed o.toJson.text ""
    rw [String.append_empty] at cut
    rw [cut, linesOf, piecesOf, cutAt_whole line, List.map_singleton, String.ofList_toList]
    rfl
  have read (space : String) (blank : ∀ c ∈ space.toList, isSpace c = true) :
      Output.parse (o.toJson.text ++ space) = some o := by
    rw [text_toJson, parse_recordOf isStream_stderr isStream_stdout blank]
    rfl
  have derived : Output.parse (o.record ++ "") = some o := by
    rw [record_eq, parse_recordOf isStream_stdout isStream_stderr (by simp)]
    rfl
  rw [String.append_empty] at derived
  have feed : ∀ c ∈ "\n".toList, isSpace c = true := by
    intro c there
    obtain rfl := List.mem_singleton.mp there
    rfl
  refine ⟨⟨o.toJson.text, rfl, ⟨visible, alone, ?_, read "\n" feed⟩, text_toJson o⟩,
    record_eq o, derived, parse_pairOf⟩
  have bare := read "" (by simp)
  rwa [String.append_empty] at bare

end ScriptSandbox.Proofs.OutputRecords
