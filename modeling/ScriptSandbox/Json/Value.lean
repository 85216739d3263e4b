import ScriptSandbox.Number.Binary64
import ScriptSandbox.Number.Shortest

namespace ScriptSandbox

/-- Whole numbers of 64 bits, signed or not, stay whole; all other numbers are binary64. -/
inductive Json where
  | null
  | bool (b : Bool)
  | int (i : Int)
  | float (x : Binary64)
  | string (s : String)
  | array (items : List Json)
  /-- The members ascend by name, and no name occurs twice. -/
  | object (members : List (String × Json))
deriving Inhabited, BEq

namespace Json

/-- The whole numbers kept as such. -/
def inRange (i : Int) : Bool := -0x8000000000000000 ≤ i && i < 0x10000000000000000

/-- Adds a member to ascending members, or replaces the one of its name. -/
def putMember {α : Type} (name : String) (value : α) : List (String × α) → List (String × α)
  | [] => [(name, value)]
  | m :: ms =>
    if name < m.1 then (name, value) :: m :: ms
    else if name = m.1 then (name, value) :: ms
    else m :: putMember name value ms

/-- The object with these members, given in any order; of one name the last counts. -/
def ofMembers (members : List (String × Json)) : Json :=
  .object (members.foldl (fun ms m => putMember m.1 m.2 ms) [])

/-- What can be wrong with a JSON document, or with data that has none. -/
inductive Fault where
  | valueCutOff | listCutOff | objectCutOff | stringCutOff
  | valueExpected | wordExpected | colonExpected | listEndExpected | objectEndExpected
  | trailingComma | trailingCharacters | keyNotText
  | escapeUnknown | surrogateUnpaired | surrogateAlone
  | controlCharacter | numberMalformed | numberTooLarge | nestedTooDeep
deriving Repr, DecidableEq

def Fault.message : Fault → String
  | valueCutOff => "EOF while parsing a value"
  | listCutOff => "EOF while parsing a list"
  | objectCutOff => "EOF while parsing an object"
  | stringCutOff => "EOF while parsing a string"
  | valueExpected => "expected value"
  | wordExpected => "expected ident"
  | colonExpected => "expected `:`"
  | listEndExpected => "expected `,` or `]`"
  | objectEndExpected => "expected `,` or `\x7d`"
  | trailingComma => "trailing comma"
  | trailingCharacters => "trailing characters"
  | keyNotText => "key must be a string"
  | escapeUnknown => "invalid escape"
  | surrogateUnpaired => "unexpected end of hex escape"
  | surrogateAlone => "lone leading surrogate in hex escape"
  | controlCharacter => "control character (\\u0000-\\u001F) found while parsing a string"
  | numberMalformed => "invalid number"
  | numberTooLarge => "number out of range"
  | nestedTooDeep => "recursion limit exceeded"

/-- Numbers from `10 ^ -5` up to below `10 ^ 16` are written without exponent. -/
def floatStyle : FloatStyle := ⟨-5, 16⟩

def hexDigit (n : Nat) : Char := Nat.digitChar (n % 16)

/-- The quote, the backslash and the characters below U+0020 are escaped, the commoner ones of
these by a letter. -/
def escape (c : Char) : List Char :=
  if c = '"' then ['\\', '"']
  else if c = '\\' then ['\\', '\\']
  else if c = '\x08' then ['\\', 'b']
  else if c = '\x0c' then ['\\', 'f']
  else if c = '\n' then ['\\', 'n']
  else if c = '\r' then ['\\', 'r']
  else if c = '\t' then ['\\', 't']
  else if c.toNat < 0x20 then
    ['\\', 'u', '0', '0', hexDigit (c.toNat / 16), hexDigit c.toNat]
  else [c]

def quote (cs : List Char) : List Char :=
  '"' :: (cs.flatMap escape ++ ['"'])

def whole (i : Int) : List Char :=
  if i < 0 then '-' :: Nat.toDigits 10 i.natAbs else Nat.toDigits 10 i.natAbs

mutual

def chars : Json → List Char
  | .null => ['n', 'u', 'l', 'l']
  | .bool true => ['t', 'r', 'u', 'e']
  | .bool false => ['f', 'a', 'l', 's', 'e']
  | .int i => whole i
  | .float x => floatStyle.text x
  | .string s => quote s.toList
  | .array [] => ['[', ']']
  | .array (v :: vs) => '[' :: (chars v ++ moreItems vs ++ [']'])
  | .object [] => ['\x7b', '\x7d']
  | .object (m :: ms) => '\x7b' :: (member m ++ moreMembers ms ++ ['\x7d'])

/-- Items with a comma before each. -/
def moreItems : List Json → List Char
  | [] => []
  | v :: vs => ',' :: (chars v ++ moreItems vs)

def member : String × Json → List Char
  | (name, value) => quote name.toList ++ ':' :: chars value

/-- Members with a comma before each. -/
def moreMembers : List (String × Json) → List Char
  | [] => []
  | m :: ms => ',' :: (member m ++ moreMembers ms)

end

/-- The document of the value. -/
def text (v : Json) : String := String.ofList v.chars

/-- The document of the value, quoted once more. -/
def literal (v : Json) : String := String.ofList (quote v.chars)

end Json
end ScriptSandbox
