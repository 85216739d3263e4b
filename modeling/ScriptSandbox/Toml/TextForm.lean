import ScriptSandbox.Toml.Value

namespace ScriptSandbox.Toml

/-- Quotes of one of two kinds, one or three of them at either end. Backslashes escape between
double quotes only, and line feeds stand for themselves between three quotes only. -/
structure TextForm where
  quote : Char
  triple : Bool
  escapes : Bool
deriving Repr, DecidableEq

namespace TextForm

def basic : TextForm := ⟨'"', false, true⟩
def literal : TextForm := ⟨'\x27', false, false⟩
def basicLines : TextForm := ⟨'"', true, true⟩
def literalLines : TextForm := ⟨'\x27', true, false⟩

/-- The quotes at either end. -/
def fence (f : TextForm) : List Char :=
  if f.triple then [f.quote, f.quote, f.quote] else [f.quote]

/-- Control characters other than the tab cannot be written as themselves. -/
def isControl (c : Char) : Bool := (c.toNat < 0x20 && c != '\t') || c == '\x7f'

def isSpace (c : Char) : Bool := c == ' ' || c == '\t'

/-- A line feed, a carriage return before it passed over. -/
def newline : Scanner Unit
  | '\n' :: cs => some ((), cs)
  | '\r' :: '\n' :: cs => some ((), cs)
  | _ => none

/-- What follows the spaces and line ends in front. -/
def skipBlank : List Char → List Char
  | ' ' :: cs => skipBlank cs
  | '\t' :: cs => skipBlank cs
  | '\n' :: cs => skipBlank cs
  | '\r' :: '\n' :: cs => skipBlank cs
  | cs => cs

/-- The character with the number that so many hexadecimal digits write. -/
def numbered (count : Nat) : Scanner Char := fun cs =>
  match (cs.take count).mapM (Scalar.digitValue 16) with
  | none => none
  | some values =>
    let n := values.foldl (fun n d => n * 16 + d) 0
    if values.length = count ∧ n.isValidChar then some (Char.ofNat n, cs.drop count) else none

/-- The character that is written by what follows a backslash. -/
def escaped : Scanner Char
  | 'b' :: cs => some ('\x08', cs)
  | 't' :: cs => some ('\t', cs)
  | 'n' :: cs => some ('\n', cs)
  | 'f' :: cs => some ('\x0c', cs)
  | 'r' :: cs => some ('\r', cs)
  | '"' :: cs => some ('"', cs)
  | '\\' :: cs => some ('\\', cs)
  | 'u' :: cs => numbered 4 cs
  | 'U' :: cs => numbered 8 cs
  | _ => none

/-- The end of the text: what its last quotes still belong to it, and what follows. Three quotes
end a text, and up to two more before them are part of it. -/
def ending (f : TextForm) (cs : List Char) : Option (List Char × List Char) :=
  if f.triple then
    match cs.takeWhile (· == f.quote) with
    | [_, _, _] => some ([], cs.drop 3)
    | [a, _, _, _] => some ([a], cs.drop 4)
    | a :: b :: _ :: _ :: _ :: _ => some ([a, b], cs.drop 5)
    | _ => none
  else
    match cs with
    | c :: rest => if c = f.quote then some ([], rest) else none
    | [] => none

/-- The characters that the next part of the text stands for. A backslash at the end of a line
hides all up to the next visible character. -/
def part (f : TextForm) : List Char → Option (List Char × List Char)
  | [] => none
  | c :: cs =>
    if c = '\\' ∧ f.escapes then
      match newline (cs.dropWhile isSpace), f.triple with
      | some ((), rest), true => some ([], skipBlank rest)
      | _, _ => (escaped cs).map fun p => ([p.1], p.2)
    else if c = '\n' ∨ c = '\r' then
      if f.triple then (newline (c :: cs)).map fun p => (['\n'], p.2) else none
    else if isControl c then none
    else some ([c], cs)

theorem skipBlank_length (cs : List Char) : (skipBlank cs).length ≤ cs.length := by
  fun_induction skipBlank cs <;> grind

theorem newline_shorter {cs rest : List Char} (h : newline cs = some ((), rest)) :
    rest.length < cs.length := by
  unfold newline at h
  split at h <;> grind

theorem numbered_length {count : Nat} {cs rest : List Char} {c : Char}
    (h : numbered count cs = some (c, rest)) : rest.length ≤ cs.length := by
  unfold numbered at h
  split at h
  · simp at h
  · simp only [Option.ite_none_right_eq_some, Option.some.injEq, Prod.mk.injEq] at h
    rw [← h.2.2, List.length_drop]
    omega

theorem escaped_shorter {cs rest : List Char} {c : Char} (h : escaped cs = some (c, rest)) :
    rest.length < cs.length := by
  unfold escaped at h
  split at h <;> grind [→ numbered_length]

theorem dropWhile_length {α : Type} (p : α → Bool) (l : List α) :
    (l.dropWhile p).length ≤ l.length := (List.dropWhile_sublist p).length_le

theorem part_shorter {f : TextForm} {cs text rest : List Char} (h : part f cs = some (text, rest)) :
    rest.length < cs.length := by
  cases cs with
  | nil => simp [part] at h
  | cons c cs =>
    simp only [part] at h
    split at h
    · split at h
      · rename_i after hn _
        have shorter := newline_shorter hn
        have := dropWhile_length isSpace cs
        have := skipBlank_length after
        grind
      · cases he : escaped cs with
        | none => simp [he] at h
        | some p =>
          obtain ⟨c, rest⟩ := p
          have := escaped_shorter he
          grind
    · split at h
      · split at h
        · cases hn : newline (c :: cs) with
          | none => simp [hn] at h
          | some p =>
            obtain ⟨_, rest⟩ := p
            have := newline_shorter hn
            grind
        · simp at h
      · split at h <;> grind

/-- The text whose opening quotes are gone. -/
def body (f : TextForm) (cs : List Char) : Option (List Char × List Char) :=
  match f.ending cs with
  | some (last, rest) => some (last, rest)
  | none =>
    match h : f.part cs with
    | none => none
    | some (text, rest) =>
      have := part_shorter h
      (body f rest).map fun p => (text ++ p.1, p.2)
termination_by cs.length

/-- What follows the opening quotes. A line end right after three quotes is passed over. -/
def afterFence (f : TextForm) (cs : List Char) : List Char :=
  if f.triple then
    match newline cs with
    | some ((), rest) => rest
    | none => cs
  else cs

/-- A text in this form, opening quotes and all. -/
def read (f : TextForm) : Scanner String := fun cs =>
  if f.fence.isPrefixOf cs then
    (f.body (f.afterFence (cs.drop f.fence.length))).map fun p => (String.ofList p.1, p.2)
  else none

def hexDigit (n : Nat) : Char := (Nat.digitChar (n % 16)).toUpper

/-- A character between double quotes that is not a quote. -/
def escape (c : Char) : List Char :=
  if c = '\\' then ['\\', '\\']
  else if c = '\x08' then ['\\', 'b']
  else if c = '\t' then ['\\', 't']
  else if c = '\n' then ['\\', 'n']
  else if c = '\x0c' then ['\\', 'f']
  else if c = '\r' then ['\\', 'r']
  else if isControl c then ['\\', 'u', '0', '0', hexDigit (c.toNat / 16), hexDigit c.toNat]
  else [c]

/-- The characters after `run` quotes that were written as they are. Of three such quotes in a row
the third is escaped. -/
def written (f : TextForm) : Nat → List Char → List Char
  | _, [] => []
  | run, c :: cs =>
    if !f.escapes then c :: f.written 0 cs
    else if c = f.quote then
      if f.triple && run < 2 then c :: f.written (run + 1) cs
      else '\\' :: c :: f.written 0 cs
    else if c = '\n' && f.triple then c :: f.written 0 cs
    else escape c ++ f.written 0 cs

/-- The text in this form. Between three quotes a text with several lines starts on a line of its
own. -/
def write (f : TextForm) (cs : List Char) : List Char :=
  let start := if f.triple && cs.contains '\n' then ['\n'] else []
  f.fence ++ start ++ f.written 0 cs ++ f.fence

/-- The greatest number of `q` in a row. -/
def longestRun (q : Char) : Nat → List Char → Nat
  | run, [] => run
  | run, c :: cs => if c = q then longestRun q (run + 1) cs else max run (longestRun q 0 cs)

/-- The first form that shows the text as it is, and otherwise a form with escapes. -/
def choose (cs : List Char) : TextForm :=
  let oneLine := !cs.any fun c => c == '\n' || isControl c
  let visible := !cs.any fun c => c != '\n' && isControl c
  if oneLine && !cs.contains '"' && !cs.contains '\\' then basic
  else if oneLine && !cs.contains '\x27' then literal
  else if visible && !cs.contains '\\' && longestRun '"' 0 cs < 3 then basicLines
  else if visible && longestRun '\x27' 0 cs < 3 then literalLines
  else if cs.contains '\n' then basicLines
  else basic

end TextForm

/-- A text in whatever form it is written. -/
def text : Scanner String := fun cs =>
  if TextForm.basicLines.fence.isPrefixOf cs then TextForm.basicLines.read cs
  else if TextForm.literalLines.fence.isPrefixOf cs then TextForm.literalLines.read cs
  else if TextForm.basic.fence.isPrefixOf cs then TextForm.basic.read cs
  else TextForm.literal.read cs

/-- The text as it is written. -/
def textLiteral (s : String) : String :=
  String.ofList ((TextForm.choose s.toList).write s.toList)

end ScriptSandbox.Toml
