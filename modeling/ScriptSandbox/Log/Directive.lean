import ScriptSandbox.Log.Event
import ScriptSandbox.Log.Pattern
import ScriptSandbox.Text.Character
import ScriptSandbox.Text.Lines
import ScriptSandbox.Text.Quoted
import ScriptSandbox.Text.Utf8

namespace ScriptSandbox.Numeral

/-- The names of what has no digits, in small letters. -/
def names : List String := ["inf", "infinity", "nan"]

def dropSign : List Char → List Char
  | '+' :: rest => rest
  | '-' :: rest => rest
  | cs => cs

def isExponent (cs : List Char) : Bool :=
  let digits := dropSign cs
  !digits.isEmpty && digits.all Char.isDigit

/-- Whether the text may come after the digits of a number: nothing, or the power of ten. -/
def isEnd : List Char → Bool
  | [] => true
  | 'e' :: rest | 'E' :: rest => isExponent rest
  | _ => false

/-- Digits with a point anywhere among them or without one, and then perhaps a power of ten. -/
def isDecimal (cs : List Char) : Bool :=
  let whole := cs.takeWhile Char.isDigit
  match cs.dropWhile Char.isDigit with
  | '.' :: rest =>
    let fraction := rest.takeWhile Char.isDigit
    !(whole ++ fraction).isEmpty && isEnd (rest.dropWhile Char.isDigit)
  | rest => !whole.isEmpty && isEnd rest

end ScriptSandbox.Numeral

namespace ScriptSandbox

/-- Whether a text names a number, in letters of any case. -/
def isNumeral (cs : List Char) : Bool :=
  let body := Numeral.dropSign cs
  Numeral.names.contains (String.ofList (body.map Char.toLower)) || Numeral.isDecimal body

namespace Verbosity

/-- Everything there is. -/
def greatest : Nat := 5

/-- The numbers of levels may have zeros in front and a sign before these. -/
def ofDigits? (cs : List Char) : Option Nat :=
  let digits := match cs with
    | '+' :: rest => rest
    | _ => cs
  match digits with
  | [] => none
  | _ =>
    match digits.dropWhile (· == '0') with
    | [] => some 0
    | [c] => ['1', '2', '3', '4', '5'].idxOf? c |>.map (· + 1)
    | _ => none

/-- How much the name of a level, in letters of any case, or its number shows. -/
def ofText? (text : String) : Option Nat :=
  let lower := String.ofList (text.toList.map Char.toLower)
  ["off", "error", "warn", "info", "debug", "trace"].idxOf? lower <|> ofDigits? text.toList

end Verbosity

/-- A part of a text that starts or ends inside of a character, from one octet up to another. -/
structure Misfit where
  text : String
  first : Nat
  last : Nat
deriving Repr, DecidableEq

namespace Misfit

/-- Whether a part of these octets may start or end here. -/
def isPlace (octets : Bytes) (n : Nat) : Bool := (octets[n]?).all (!Utf8.isTail ·)

/-- The character that an octet belongs to, and the octet that it starts at, if the characters start
at `start`. -/
def characterAt (place start : Nat) : List Char → Option (Nat × Char)
  | [] => none
  | c :: cs =>
    if place < start + c.utf8Size then some (start, c)
    else characterAt place (start + c.utf8Size) cs

/-- As many of the characters as have room. -/
def clip : Nat → List Char → List Char
  | _, [] => []
  | room, c :: cs => if c.utf8Size ≤ room then c :: clip (room - c.utf8Size) cs else []

/-- How the runtime puts it. A long text is only shown in part. -/
def message (m : Misfit) : String :=
  let cs := m.text.toList
  let place := if isPlace (Utf8.encode m.text) m.first then m.last else m.first
  let shown := clip 256 cs
  let text := String.ofList shown ++ "`" ++ if shown.length < cs.length then "[...]" else ""
  match characterAt place 0 cs with
  | none => "byte index " ++ toString place ++ " is out of bounds of `" ++ text
  | some (start, c) =>
    "byte index " ++ toString place ++ " is not a char boundary; it is inside '" ++
      String.ofList (Quoted.char c) ++ "' (bytes " ++ toString start ++ ".." ++
      toString (start + c.utf8Size) ++ ") of `" ++ text

end Misfit

/-- What may be wrong with a text that ought to hold directives. -/
inductive Defect where
  | malformed
  /-- Some part of it could not be cut out. -/
  | misaligned (m : Misfit)
deriving Repr, DecidableEq

/-- A level for the events that it is about, written `area[span{detail,…}]=level`, where each part
may be missing. -/
structure Directive where
  /-- How the names of their areas start. -/
  start : Option String := none
  /-- The span that they lie in. -/
  span : Option String := none
  /-- The names that they have, each with whether the value matters too. -/
  names : List (String × Bool) := []
  verbosity : Nat := Verbosity.greatest
deriving Repr, DecidableEq

namespace Directive

/-- Which part of a directive is being read, and where it started. -/
inductive Stage where
  | start
  | area (first : Nat)
  | span (first : Nat)
  | name (first : Nat)
  | named
  | closed
  | level (first : Nat)

def mayStart (c : Char) : Bool := isAlphanumeric c || c == '-' || c == ':' || c == '_'

/-- A name, perhaps with a number or a pattern that its value has to match. -/
def readName (text : String) : Option (String × Bool) :=
  let name := String.ofList (text.toList.takeWhile (· != '='))
  match text.toList, text.toList.dropWhile (· != '=') with
  | [], _ => none
  | _, [] => some (name, false)
  | _, _ :: rest =>
    let value := rest.takeWhile (· != '=')
    if isNumeral value || isPattern value then some (name, true) else none

/-- How the text between two places is given. -/
abbrev Cut := Nat → Nat → Except Defect String

/-- A part of the text, if it starts and ends where characters do. -/
def cutOf (text : String) : Cut := fun first last =>
  let octets := Utf8.encode text
  if Misfit.isPlace octets first && Misfit.isPlace octets last then
    .ok (Utf8.decodeLossy ((octets.take last).drop first))
  else .error (.misaligned ⟨text, first, last⟩)

def orMalformed {α : Type} : Option α → Except Defect α
  | some x => .ok x
  | none => .error .malformed

/-- What the character at `i` makes of the directive read so far. -/
def step (cut : Cut) (d : Directive) (i : Nat) (c : Char) :
    Stage → Except Defect (Directive × Stage)
  | .start =>
    if c = '[' then .ok (d, .span (i + 1))
    else if mayStart c then .ok (d, .area i)
    else .error .malformed
  | .area first => do
    if c = '=' then return ({ d with start := some (← cut first i) }, .level (i + 1))
    else if c = '[' then return ({ d with start := some (← cut first i) }, .span (i + 1))
    else return (d, .area first)
  | .span first => do
    if c = ']' then return ({ d with span := some (← cut first i) }, .closed)
    else if c = '\x7b' then
      let span ← cut first i
      return ({ d with span := if span = "" then none else some span }, .name (i + 1))
    else return (d, .span first)
  | .name first => do
    if c = '\x7d' then
      let name ← orMalformed (readName (← cut first i))
      return ({ d with names := d.names ++ [name] }, .named)
    else return (d, .name first)
  | .named => if c = ']' then .ok (d, .closed) else .error .malformed
  | .closed => if c = '=' then .ok (d, .level (i + 1)) else .error .malformed
  | .level first => .ok (d, .level first)

def walk (cut : Cut) (d : Directive) (stage : Stage) (i : Nat) :
    List Char → Except Defect (Directive × Stage)
  | [] => .ok (d, stage)
  | c :: rest => do
    let (d, stage) ← step cut d i c stage
    walk cut d stage (i + c.utf8Size) rest

/-- The directive as it is at the end of the text, of which `tail` gives what comes from a place
on. Without a level everything is shown. -/
def finish (tail : Nat → Except Defect String) (d : Directive) : Stage → Except Defect Directive
  | .area first => do
    let text ← tail first
    match Verbosity.ofText? text with
    | some verbosity => return { d with verbosity }
    | none => return { d with start := some text }
  | .level first => do
    let text ← tail first
    if text = "" then return d
    else return { d with verbosity := ← orMalformed (Verbosity.ofText? text) }
  | .closed => .ok d
  | _ => .error .malformed

/-- The characters are those of the text without blanks at its ends, but the parts are cut out of
the whole text at the places that they have there. So blanks in front shift every cut, and those at
the end belong to the last part. -/
def ofText (text : String) : Except Defect Directive := do
  let cut := cutOf text
  let (d, stage) ← walk cut {} .start 0 (Blank.trim text.toList)
  d.finish (fun first => cut first text.utf8ByteSize) stage

/-- The directives that commas separate. The first defect is the one that counts. Between two
commas there may be nothing. -/
def listOf (text : String) : Except Defect (List Directive) :=
  ((piecesOf ',' text).filter (· ≠ "")).mapM ofText

/-- Whether the directive is about the event. Events lie in no span, and values are only looked at
in spans. -/
def concerns (d : Directive) (e : Event) : Bool :=
  d.span.isNone && d.names.all (fun n => !n.2 && e.names.contains n.1) &&
    d.start.all fun start => start.toList.isPrefixOf e.area.name.toList

/-- Whether the second directive counts before the first, of two that concern one event: the longer
start does, then more names, then the names that come later in the order of texts. Of two that
are alike the later one counts. -/
def yields (d e : Directive) : Bool :=
  let size (d : Directive) : Nat := (d.start.map fun start => start.utf8ByteSize + 1).getD 0
  if size d ≠ size e then size d < size e
  else if d.names.length ≠ e.names.length then d.names.length < e.names.length
  else !List.lex (e.names.map (·.1)) (d.names.map (·.1)) fun a b => a < b

/-- The one of the directives that counts for the event. -/
def counting? (directives : List Directive) (e : Event) : Option Directive :=
  (directives.filter (·.concerns e)).foldl
    (fun best d => match best with
      | none => some d
      | some b => if b.yields d then some d else some b)
    none

end Directive

/-- What is shown without directives, for so many wishes to see more. -/
def usualDirective (wishes : Nat) : Directive :=
  { verbosity := min Verbosity.greatest (wishes + Level.warn.verbosity) }

/-- The directives of a filter, and the usual one if there is no filter or a malformed one. Only a
filter that cannot be cut into its parts leaves nothing to go by. -/
def directivesOf (filter : Option String) (wishes : Nat) : Except Misfit (List Directive) :=
  match filter.map Directive.listOf with
  | none | some (.error .malformed) => .ok [usualDirective wishes]
  | some (.error (.misaligned m)) => .error m
  | some (.ok directives) => .ok directives

/-- What no directive concerns is not shown. -/
def Event.isShown (directives : List Directive) (e : Event) : Bool :=
  match Directive.counting? directives e with
  | some d => e.level.verbosity ≤ d.verbosity
  | none => false

end ScriptSandbox
