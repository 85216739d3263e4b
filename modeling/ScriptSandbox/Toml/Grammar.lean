import ScriptSandbox.Toml.TextForm

namespace ScriptSandbox.Toml

def skipSpace (cs : List Char) : List Char := cs.dropWhile TextForm.isSpace

/-- What follows a comment, if one stands in front: the end of the line, or a character that must
not be in a comment. -/
def skipComment : List Char → List Char
  | '#' :: cs => cs.dropWhile (!TextForm.isControl ·)
  | cs => cs

theorem skipComment_length (cs : List Char) : (skipComment cs).length ≤ cs.length := by
  unfold skipComment
  split
  · exact Nat.le_succ_of_le (TextForm.dropWhile_length _ _)
  · exact Nat.le_refl _

/-- What follows the blanks, comments and line ends in front. -/
def skipFiller (cs : List Char) : List Char :=
  match h : TextForm.newline (skipComment (skipSpace cs)) with
  | some ((), rest) =>
    have : rest.length < cs.length := by
      have := TextForm.newline_shorter h
      have := skipComment_length (skipSpace cs)
      have := TextForm.dropWhile_length TextForm.isSpace cs
      grind [skipSpace]
    skipFiller rest
  | none => if skipComment (skipSpace cs) = [] then [] else skipSpace cs
termination_by cs.length

/-- The end of a line, perhaps with a comment before it. -/
def lineEnd : Scanner Unit := fun cs =>
  match skipComment (skipSpace cs) with
  | [] => some ((), [])
  | rest => TextForm.newline rest

/-- The characters of a key without quotes. -/
def isKeyChar (c : Char) : Bool := c.isAlphanum || c == '_' || c == '-'

def key : Scanner String
  | '"' :: cs => TextForm.basic.read ('"' :: cs)
  | '\x27' :: cs => TextForm.literal.read ('\x27' :: cs)
  | cs =>
    match cs.takeWhile isKeyChar with
    | [] => none
    | name => some (String.ofList name, cs.dropWhile isKeyChar)

/-- Keys with dots between them, at most so many, and blanks around each. -/
def keysWithin : Nat → Scanner (List String)
  | 0, _ => none
  | limit + 1, cs => do
    let (first, rest) ← key (skipSpace cs)
    match skipSpace rest with
    | '.' :: more => do
      let (others, rest) ← keysWithin limit more
      some (first :: others, rest)
    | rest => some ([first], rest)

/-- Neither a row of dotted keys nor values inside values go further than this. -/
def depthLimit : Nat := 79

def keys : Scanner (List String) := keysWithin depthLimit

/-- The items of a list whose opening bracket is gone. A comma may follow the last one. -/
def itemsWithin (value : Scanner Toml) : Nat → Scanner (List Toml)
  | 0, _ => none
  | limit + 1, cs =>
    match skipFiller cs with
    | ']' :: rest => some ([], rest)
    | start => do
      let (v, rest) ← value start
      match skipFiller rest with
      | ']' :: rest => some ([v], rest)
      | ',' :: rest => do
        let (vs, rest) ← itemsWithin value limit rest
        some (v :: vs, rest)
      | _ => none

/-- Keys and their value. -/
def entry (value : Scanner Toml) : Scanner (List String × Toml) := fun cs => do
  let (ks, rest) ← keys cs
  match rest with
  | '=' :: rest => do
    let (v, rest) ← value (skipSpace rest)
    some ((ks, v), rest)
  | _ => none

/-- One or more entries and the closing brace. -/
def entriesWithin (value : Scanner Toml) : Nat → Scanner (List (List String × Toml))
  | 0, _ => none
  | limit + 1, cs => do
    let (e, rest) ← entry value cs
    match skipSpace rest with
    | '\x7d' :: rest => some ([e], rest)
    | ',' :: rest => do
      let (es, rest) ← entriesWithin value limit rest
      some (e :: es, rest)
    | _ => none

/-- Whether no entry's keys lead to another one or through it. -/
def areApart (entries : List (List String × Toml)) : Bool :=
  decide (entries.Pairwise fun a b => !a.1.isPrefixOf b.1 ∧ !b.1.isPrefixOf a.1)

/-- The entries of a table whose opening brace is gone. -/
def entries (value : Scanner Toml) : Scanner (List (List String × Toml)) := fun cs =>
  match skipSpace cs with
  | '\x7d' :: rest => some ([], rest)
  | start => do
    let (es, rest) ← entriesWithin value (start.length + 1) start
    if areApart es then some (es, rest) else none

/-- A value, with `inner` for the values inside lists and tables. -/
def valueOver (inner : Option (Scanner Toml)) : Scanner Toml
  | '[' :: cs => do
    let (vs, rest) ← itemsWithin (← inner) (cs.length + 1) cs
    some (.array vs, rest)
  | '\x7b' :: cs => do
    let (es, rest) ← entries (← inner) cs
    some (.table es, rest)
  | '"' :: cs => (text ('"' :: cs)).map fun p => (.string p.1, p.2)
  | '\x27' :: cs => (text ('\x27' :: cs)).map fun p => (.string p.1, p.2)
  | cs => scalar cs

/-- A value with at most `depth` lists and tables around its innermost part. -/
def value : Nat → Scanner Toml
  | 0 => valueOver none
  | depth + 1 => valueOver (some (value depth))

end ScriptSandbox.Toml
