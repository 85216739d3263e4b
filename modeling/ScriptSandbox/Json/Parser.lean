import ScriptSandbox.Json.Value
import ScriptSandbox.Text.Character

namespace ScriptSandbox.Json

/-- A scanner takes its part from the front of the characters and returns the rest. The first fault
in reading order is the one reported. -/
abbrev Scanner (α : Type) := List Char → Except Fault (α × List Char)

namespace Parser

def isSpace (c : Char) : Bool := c == ' ' || c == '\t' || c == '\n' || c == '\r'

def skipSpace (cs : List Char) : List Char := cs.dropWhile isSpace

/-- The rest of a word whose first letter is gone. -/
def word {α : Type} (value : α) : List Char → Scanner α
  | [], cs => .ok (value, cs)
  | _ :: _, [] => .error .valueCutOff
  | e :: es, c :: cs => if c = e then word value es cs else .error .wordExpected

/-- The number of four hexadecimal digits. Fewer than four octets before the end are a string cut
off, whatever they are. -/
def hexNumber : Scanner Nat
  | a :: b :: c :: d :: rest =>
    match hexValue a, hexValue b, hexValue c, hexValue d with
    | some a, some b, some c, some d => .ok (((a * 16 + b) * 16 + c) * 16 + d, rest)
    | _, _, _, _ => .error .escapeUnknown
  | short =>
    if short.foldl (fun n c => n + c.utf8Size) 0 < 4 then .error .stringCutOff
    else .error .escapeUnknown

/-- The second half of a character beyond U+FFFF, whose first half is `high`. -/
def secondHalf (high : Nat) : Scanner Char
  | [] => .error .stringCutOff
  | '\\' :: [] => .error .stringCutOff
  | '\\' :: 'u' :: cs => do
    let (low, rest) ← hexNumber cs
    if 0xDC00 ≤ low ∧ low ≤ 0xDFFF then
      .ok (Char.ofNat (0x10000 + (high - 0xD800) * 0x400 + (low - 0xDC00)), rest)
    else .error .surrogateAlone
  | _ => .error .surrogateUnpaired

/-- The character that stands after `\u`. -/
def numbered (cs : List Char) : Except Fault (Char × List Char) := do
  let (n, rest) ← hexNumber cs
  if 0xDC00 ≤ n ∧ n ≤ 0xDFFF then .error .surrogateAlone
  else if 0xD800 ≤ n ∧ n ≤ 0xDBFF then secondHalf n rest
  else .ok (Char.ofNat n, rest)

/-- The character that stands after a backslash. -/
def escaped : Scanner Char
  | [] => .error .stringCutOff
  | '"' :: cs => .ok ('"', cs)
  | '\\' :: cs => .ok ('\\', cs)
  | '/' :: cs => .ok ('/', cs)
  | 'b' :: cs => .ok ('\x08', cs)
  | 'f' :: cs => .ok ('\x0c', cs)
  | 'n' :: cs => .ok ('\n', cs)
  | 'r' :: cs => .ok ('\r', cs)
  | 't' :: cs => .ok ('\t', cs)
  | 'u' :: cs => numbered cs
  | _ => .error .escapeUnknown

theorem hexNumber_shorter {cs rest : List Char} {n : Nat} (h : hexNumber cs = .ok (n, rest)) :
    rest.length < cs.length := by
  unfold hexNumber at h
  split at h
  · split at h
    · simp only [Except.ok.injEq, Prod.mk.injEq] at h
      rw [← h.2]
      simp only [List.length_cons]
      omega
    · simp at h
  · split at h <;> simp at h

theorem secondHalf_shorter {cs rest : List Char} {high : Nat} {c : Char}
    (h : secondHalf high cs = .ok (c, rest)) : rest.length < cs.length := by
  unfold secondHalf at h
  split at h
  · simp at h
  · simp at h
  · rename_i tail
    cases hn : hexNumber tail with
    | error e => simp [hn, bind, Except.bind] at h
    | ok p =>
      obtain ⟨low, after⟩ := p
      have shorter := hexNumber_shorter hn
      simp only [hn, bind, Except.bind] at h
      split at h
      · simp only [Except.ok.injEq, Prod.mk.injEq] at h
        rw [← h.2]
        simp only [List.length_cons]
        omega
      · simp at h
  · simp at h

theorem numbered_shorter {cs rest : List Char} {c : Char} (h : numbered cs = .ok (c, rest)) :
    rest.length < cs.length := by
  unfold numbered at h
  cases hn : hexNumber cs with
  | error e => simp [hn, bind, Except.bind] at h
  | ok p =>
    obtain ⟨n, after⟩ := p
    have shorter := hexNumber_shorter hn
    simp only [hn, bind, Except.bind] at h
    split at h
    · simp at h
    · split at h
      · have := secondHalf_shorter h
        omega
      · simp only [Except.ok.injEq, Prod.mk.injEq] at h
        rw [← h.2]
        exact shorter

theorem escaped_shorter {cs rest : List Char} {c : Char} (h : escaped cs = .ok (c, rest)) :
    rest.length < cs.length := by
  unfold escaped at h
  split at h
  all_goals first
    | (simp only [Except.ok.injEq, Prod.mk.injEq] at h
       rw [← h.2]
       simp)
    | (have shorter := numbered_shorter h
       simp only [List.length_cons]
       omega)
    | simp at h

/-- The rest of a string whose opening quote is gone, after the characters `done`, which are held
last first. -/
def stringFrom (done cs : List Char) : Except Fault (String × List Char) :=
  match cs with
  | [] => .error .stringCutOff
  | '"' :: rest => .ok (String.ofList done.reverse, rest)
  | '\\' :: rest =>
    match h : escaped rest with
    | .error e => .error e
    | .ok (c, rest') =>
      have := escaped_shorter h
      stringFrom (c :: done) rest'
  | c :: rest => if c.toNat < 0x20 then .error .controlCharacter else stringFrom (c :: done) rest
termination_by cs.length

/-- A string without its opening quote. -/
def string : Scanner String := stringFrom []

def digitsValue (ds : List Char) : Nat :=
  ds.foldl (fun n d => n * 10 + (d.toNat - '0'.toNat)) 0

/-- One or more digits. -/
def someDigits (cs : List Char) : Except Fault (List Char × List Char) :=
  match cs.takeWhile Char.isDigit, cs.dropWhile Char.isDigit with
  | [], [] => .error .valueCutOff
  | [], _ => .error .numberMalformed
  | ds, rest => .ok (ds, rest)

/-- The digits before point and exponent: a lone zero, or digits that start with another one. -/
def integerPart (cs : List Char) : Except Fault (List Char × List Char) := do
  let (ds, rest) ← someDigits cs
  match ds with
  | '0' :: _ :: _ => .error .numberMalformed
  | _ => .ok (ds, rest)

/-- The digits after the point, if there is one. -/
def fractionPart : Scanner (Option (List Char))
  | '.' :: cs => do
    let (ds, rest) ← someDigits cs
    .ok (some ds, rest)
  | cs => .ok (none, cs)

def signedExponent : Scanner Int
  | '+' :: cs => do
    let (ds, rest) ← someDigits cs
    .ok ((digitsValue ds : Int), rest)
  | '-' :: cs => do
    let (ds, rest) ← someDigits cs
    .ok (-(digitsValue ds : Int), rest)
  | cs => do
    let (ds, rest) ← someDigits cs
    .ok ((digitsValue ds : Int), rest)

/-- The power of ten, if one is given. -/
def exponentPart : Scanner (Option Int)
  | c :: cs =>
    if c = 'e' ∨ c = 'E' then do
      let (e, rest) ← signedExponent cs
      .ok (some e, rest)
    else .ok (none, c :: cs)
  | [] => .ok (none, [])

/-- Digits alone are a whole number, unless it is out of range or a negative zero. -/
def ofDigits (negative : Bool) (n : Nat) : Option Json :=
  let i : Int := if negative then -n else n
  if (negative && n == 0) || !inRange i then
    (Binary64.ofDecimal negative ⟨n, 0⟩).map .float
  else some (.int i)

/-- A number with its fraction and its power of ten. Where a fast reader of decimals may end beside
the nearest binary number, as one that multiplies in that format does for `1.5e-300`, this one takes
the nearest itself. -/
def number (negative : Bool) (cs : List Char) : Except Fault (Json × List Char) := do
  let (ds, rest) ← integerPart cs
  let (fraction, rest) ← fractionPart rest
  let (exponent, rest) ← exponentPart rest
  let value := match fraction, exponent with
    | none, none => ofDigits negative (digitsValue ds)
    | _, _ =>
      let after := fraction.getD []
      let d : Decimal := ⟨digitsValue (ds ++ after), exponent.getD 0 - after.length⟩
      (Binary64.ofDecimal negative d).map .float
  match value with
  | some v => .ok (v, rest)
  | none => .error .numberTooLarge

/-- The items after those in `done`, which are held last first. Each round takes at least a comma,
so more rounds than characters are never needed. -/
def itemsFrom {α : Type} (item : Scanner α) : Nat → List α → Scanner (List α)
  | 0, _, _ => .error .listCutOff
  | rounds + 1, done, cs =>
    match skipSpace cs with
    | [] => .error .listCutOff
    | ']' :: rest => .ok (done.reverse, rest)
    | ',' :: rest =>
      match skipSpace rest with
      | [] => .error .valueCutOff
      | ']' :: _ => .error .trailingComma
      | next => do
        let (v, after) ← item next
        itemsFrom item rounds (v :: done) after
    | _ => .error .listEndExpected

/-- A list without its opening bracket. -/
def items {α : Type} (item : Scanner α) (cs : List Char) : Except Fault (List α × List Char) :=
  match skipSpace cs with
  | [] => .error .listCutOff
  | ']' :: rest => .ok ([], rest)
  | next => do
    let (v, after) ← item next
    itemsFrom item (after.length + 1) [v] after

/-- A name, without its opening quote, and what belongs to it. -/
def member {κ α : Type} (name : Scanner κ) (value : κ → Scanner α) (cs : List Char) :
    Except Fault ((κ × α) × List Char) := do
  let (k, rest) ← name cs
  match skipSpace rest with
  | [] => .error .objectCutOff
  | ':' :: after => do
    let (v, rest) ← value k after
    .ok ((k, v), rest)
  | _ => .error .colonExpected

/-- The members after those in `done`, which are held last first. -/
def membersFrom {κ α : Type} (name : Scanner κ) (value : κ → Scanner α) :
    Nat → List (κ × α) → Scanner (List (κ × α))
  | 0, _, _ => .error .objectCutOff
  | rounds + 1, done, cs =>
    match skipSpace cs with
    | [] => .error .objectCutOff
    | '\x7d' :: rest => .ok (done.reverse, rest)
    | ',' :: rest =>
      match skipSpace rest with
      | [] => .error .valueCutOff
      | '\x7d' :: _ => .error .trailingComma
      | '"' :: next => do
        let (m, after) ← member name value next
        membersFrom name value rounds (m :: done) after
      | _ => .error .keyNotText
    | _ => .error .objectEndExpected

/-- An object without its opening brace. -/
def members {κ α : Type} (name : Scanner κ) (value : κ → Scanner α) (cs : List Char) :
    Except Fault (List (κ × α) × List Char) :=
  match skipSpace cs with
  | [] => .error .objectCutOff
  | '\x7d' :: rest => .ok ([], rest)
  | '"' :: next => do
    let (m, after) ← member name value next
    membersFrom name value (after.length + 1) [m] after
  | _ => .error .keyNotText

/-- A value, with `inner` for the values inside lists and objects; without it they are nested too
deep. -/
def valueOver (inner : Option (Scanner Json)) (cs : List Char) : Except Fault (Json × List Char) :=
  match skipSpace cs with
  | [] => .error .valueCutOff
  | 'n' :: rest => word .null ['u', 'l', 'l'] rest
  | 't' :: rest => word (.bool true) ['r', 'u', 'e'] rest
  | 'f' :: rest => word (.bool false) ['a', 'l', 's', 'e'] rest
  | '"' :: rest => do
    let (s, after) ← string rest
    .ok (.string s, after)
  | '-' :: rest => number true rest
  | '[' :: rest =>
    match inner with
    | none => .error .nestedTooDeep
    | some value => do
      let (vs, after) ← items value rest
      .ok (.array vs, after)
  | '\x7b' :: rest =>
    match inner with
    | none => .error .nestedTooDeep
    | some value => do
      let (ms, after) ← members string (fun _ => value) rest
      .ok (ofMembers ms, after)
  | c :: rest => if c.isDigit then number false (c :: rest) else .error .valueExpected

/-- A value with at most `depth` lists and objects around its innermost part. -/
def value : Nat → Scanner Json
  | 0 => valueOver none
  | depth + 1 => valueOver (some (value depth))

/-- What the scanner reads, provided that nothing but white space is left. -/
def complete {α : Type} (scan : Scanner α) (cs : List Char) : Except Fault α := do
  let (v, rest) ← scan cs
  match skipSpace rest with
  | [] => .ok v
  | _ => .error .trailingCharacters

end Parser

/-- The greatest depth that is read. -/
def depthLimit : Nat := 127

/-- The value of a document. -/
def parse (document : String) : Except Fault Json :=
  Parser.complete (Parser.value depthLimit) document.toList

end ScriptSandbox.Json

namespace ScriptSandbox.Json.Skip

/-- The rest of a string whose opening quote is gone. -/
def stringFrom : Nat → Scanner Unit
  | 0, _ => .error .stringCutOff
  | _ + 1, [] => .error .stringCutOff
  | _ + 1, '"' :: rest => .ok ((), rest)
  | rounds + 1, '\\' :: 'u' :: rest => do
    let (_, after) ← Parser.hexNumber rest
    stringFrom rounds after
  | rounds + 1, '\\' :: c :: rest =>
    if ['"', '\\', '/', 'b', 'f', 'n', 'r', 't'].contains c then stringFrom rounds rest
    else .error .escapeUnknown
  | rounds + 1, c :: rest =>
    if c = '\\' then .error .stringCutOff
    else if c.toNat < 0x20 then .error .controlCharacter
    else stringFrom rounds rest

def string : Scanner Unit := fun cs => stringFrom (cs.length + 1) cs

def number : Scanner Unit := fun cs => do
  let (_, rest) ← Parser.integerPart cs
  let (_, rest) ← Parser.fractionPart rest
  let (_, rest) ← Parser.exponentPart rest
  .ok ((), rest)

/-- A value, with `inner` for the values inside lists and objects. -/
def valueOver (inner : Scanner Unit) (cs : List Char) : Except Fault (Unit × List Char) :=
  match Parser.skipSpace cs with
  | [] => .error .valueCutOff
  | 'n' :: rest => Parser.word () ['u', 'l', 'l'] rest
  | 't' :: rest => Parser.word () ['r', 'u', 'e'] rest
  | 'f' :: rest => Parser.word () ['a', 'l', 's', 'e'] rest
  | '"' :: rest => string rest
  | '-' :: rest => number rest
  | '[' :: rest => do
    let (_, after) ← Parser.items inner rest
    .ok ((), after)
  | '\x7b' :: rest => do
    let (_, after) ← Parser.members string (fun () => inner) rest
    .ok ((), after)
  | c :: rest => if c.isDigit then number (c :: rest) else .error .valueExpected

/-- A value nested no deeper than `depth`. -/
def valueWithin : Nat → Scanner Unit
  | 0 => fun _ => .error .nestedTooDeep
  | depth + 1 => valueOver (valueWithin depth)

/-- Passes over a value that is not wanted. Only its form counts: numbers may be too large,
surrogates may stand alone, and it cannot be nested deeper than it is long. -/
def value : Scanner Unit := fun cs => valueWithin (cs.length + 1) cs

end ScriptSandbox.Json.Skip
