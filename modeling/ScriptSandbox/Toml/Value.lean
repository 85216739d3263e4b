import ScriptSandbox.Number.Binary64

namespace ScriptSandbox

/-- A table is the list of its entries, each with the keys that lead to it. -/
inductive Toml where
  | string (s : String)
  | integer (i : Int)
  /-- No setting is a fraction, so its value is not kept. -/
  | float
  | boolean (b : Bool)
  /-- No setting is a date or a time, so its value is not kept. -/
  | datetime
  | array (items : List Toml)
  | table (entries : List (List String × Toml))
deriving Inhabited, BEq

namespace Toml

/-- The entries under `key`, with the keys that lead on from there. -/
def under (entries : List (List String × Toml)) (key : String) : List (List String × Toml) :=
  entries.filterMap fun e =>
    match e.1 with
    | first :: keys => if first = key then some (keys, e.2) else none
    | [] => none

/-- The value of a key in a table. A key with entries further down is a table itself. -/
def member? (entries : List (List String × Toml)) (key : String) : Option Toml :=
  match under entries key with
  | [] => none
  | [([], v)] => some v
  | more => some (.table (more.filter (!·.1.isEmpty)))

abbrev Scanner (α : Type) := List Char → Option (α × List Char)

namespace Scalar

def digitValue (base : Nat) (c : Char) : Option Nat :=
  let n :=
    if c.isDigit then c.toNat - '0'.toNat
    else if 'a' ≤ c ∧ c ≤ 'f' then c.toNat - 'a'.toNat + 10
    else if 'A' ≤ c ∧ c ≤ 'F' then c.toNat - 'A'.toNat + 10
    else base
  if n < base then some n else none

/-- The number whose digits follow those of `n`, and how many there are. There is at least one, and
single underscores may stand between them. -/
def digitsFrom (base : Nat) : Nat → Nat → List Char → Option (Nat × Nat)
  | _, _, [] => none
  | n, count, [c] => (digitValue base c).map fun d => (n * base + d, count + 1)
  | n, count, c :: '_' :: cs =>
    match digitValue base c with
    | some d => digitsFrom base (n * base + d) (count + 1) cs
    | none => none
  | n, count, c :: cs =>
    match digitValue base c with
    | some d => digitsFrom base (n * base + d) (count + 1) cs
    | none => none

def digits (base : Nat) (cs : List Char) : Option Nat :=
  (digitsFrom base 0 0 cs).map (·.1)

/-- A decimal number without needless zeros in front. -/
def natural (cs : List Char) : Option Nat :=
  match cs with
  | '0' :: _ :: _ => none
  | _ => digits 10 cs

/-- Whether a minus sign stands in front, and what follows the sign. -/
def signed : List Char → Bool × List Char
  | '-' :: cs => (true, cs)
  | '+' :: cs => (false, cs)
  | cs => (false, cs)

def inRange (i : Int) : Bool := -0x8000000000000000 ≤ i && i < 0x8000000000000000

def integer (cs : List Char) : Option Int :=
  let value : Option Int :=
    match cs with
    | '0' :: 'x' :: ds => (digits 16 ds).map Int.ofNat
    | '0' :: 'o' :: ds => (digits 8 ds).map Int.ofNat
    | '0' :: 'b' :: ds => (digits 2 ds).map Int.ofNat
    | _ =>
      let (negative, ds) := signed cs
      (natural ds).map fun n => if negative then -(n : Int) else n
  value.filter inRange

/-- What stands before the first character of the kind, and what after it, if there is one. -/
def cutAt (kind : Char → Bool) (cs : List Char) : List Char × Option (List Char) :=
  match cs.dropWhile (!kind ·) with
  | [] => (cs, none)
  | _ :: after => (cs.takeWhile (!kind ·), some after)

/-- The number after the point and how many digits it has; zero if there is no point. -/
def fraction : Option (List Char) → Option (Nat × Nat)
  | none => some (0, 0)
  | some cs => digitsFrom 10 0 0 cs

def exponent : Option (List Char) → Option Int
  | none => some 0
  | some cs =>
    let (negative, ds) := signed cs
    (digits 10 ds).map fun n => if negative then -(n : Int) else n

/-- Whether the characters are a fraction. A large one must not exceed all finite numbers; a
negative one may. -/
def isFloat (cs : List Char) : Bool :=
  let (negative, body) := signed cs
  if body = ['i', 'n', 'f'] ∨ body = ['n', 'a', 'n'] then true
  else
    let (mantissa, scale) := cutAt (fun c => c == 'e' || c == 'E') body
    let (whole, places) := cutAt (· == '.') mantissa
    if places.isNone && scale.isNone then false
    else
      match natural whole, fraction places, exponent scale with
      | some n, some (f, count), some e =>
        negative || (Binary64.ofDecimal negative ⟨n * power 10 count + f, e - count⟩).isSome
      | _, _, _ => false

/-- The number of exactly this many digits. -/
def fixed (count : Nat) (cs : List Char) : Option Nat :=
  if cs.length = count && cs.all Char.isDigit then digits 10 cs else none

def isLeap (year : Nat) : Bool := year % 4 == 0 && (year % 100 != 0 || year % 400 == 0)

def daysIn (year month : Nat) : Nat :=
  if month = 2 then (if isLeap year then 29 else 28)
  else if month ∈ [4, 6, 9, 11] then 30
  else 31

def isDate : List Char → Bool
  | a :: b :: c :: d :: '-' :: e :: f :: '-' :: day =>
    match fixed 4 [a, b, c, d], fixed 2 [e, f], fixed 2 day with
    | some year, some month, some day =>
      1 ≤ month && month ≤ 12 && 1 ≤ day && day ≤ daysIn year month
    | _, _, _ => false
  | _ => false

/-- Hours and minutes. -/
def isClock (a b c d : Char) : Bool :=
  match fixed 2 [a, b], fixed 2 [c, d] with
  | some hour, some minute => hour ≤ 23 && minute ≤ 59
  | _, _ => false

def isOffset : List Char → Bool
  | ['Z'] | ['z'] => true
  | [sign, a, b, ':', c, d] => (sign == '+' || sign == '-') && isClock a b c d
  | _ => false

/-- A time with seconds, and perhaps parts of seconds, followed by something of the kind `after`. -/
def isTime (after : List Char → Bool) : List Char → Bool
  | a :: b :: ':' :: c :: d :: ':' :: e :: f :: rest =>
    let rest? := match rest with
      | '.' :: parts =>
        if (parts.takeWhile Char.isDigit).isEmpty then none
        else some (parts.dropWhile Char.isDigit)
      | _ => some rest
    isClock a b c d && (fixed 2 [e, f]).any (· ≤ 60) && rest?.any after
  | _ => false

def isDatetime (cs : List Char) : Bool :=
  isTime List.isEmpty cs || isDate cs ||
    (isDate (cs.take 10) &&
      match cs.drop 10 with
      | sep :: time =>
        (sep == 'T' || sep == 't' || sep == ' ') &&
          isTime (fun rest => rest.isEmpty || isOffset rest) time
      | [] => false)

def isWordChar (c : Char) : Bool := c.isAlphanum || ['+', '-', '.', ':', '_'].contains c

/-- The longest word in front. A single space between a date and a time belongs to it. -/
def word (cs : List Char) : List Char × List Char :=
  let first := cs.takeWhile isWordChar
  match isDate first, cs.dropWhile isWordChar with
  | true, ' ' :: d :: rest =>
    if d.isDigit then
      (first ++ ' ' :: (d :: rest).takeWhile isWordChar, (d :: rest).dropWhile isWordChar)
    else (first, ' ' :: d :: rest)
  | _, rest => (first, rest)

/-- Numbers, truth values, dates and times are words of a few kinds of characters, none of which can
follow them. So a word is cut off first and classified as a whole. -/
def ofWord (w : List Char) : Option Toml :=
  if w = ['t', 'r', 'u', 'e'] then some (.boolean true)
  else if w = ['f', 'a', 'l', 's', 'e'] then some (.boolean false)
  else
    match integer w with
    | some i => some (.integer i)
    | none =>
      if isFloat w then some .float
      else if isDatetime w then some .datetime
      else none

end Scalar

/-- A value that is one word. -/
def scalar : Scanner Toml := fun cs =>
  let (w, rest) := Scalar.word cs
  (Scalar.ofWord w).map (·, rest)

end Toml
end ScriptSandbox
