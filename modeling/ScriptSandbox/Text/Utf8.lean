namespace ScriptSandbox

abbrev Bytes := List UInt8

namespace Utf8

def encode (text : String) : Bytes :=
  text.toList.flatMap String.utf8EncodeChar

/-- Whether the octet may stand third or later in a character. -/
def isTail (b : UInt8) : Bool := 0x80 ≤ b && b ≤ 0xBF

/-- Whether `b` may follow the first octet `a` of a character. The narrower ranges leave out
overlong forms, surrogates and numbers above U+10FFFF. -/
def follows (a b : UInt8) : Bool :=
  if a == 0xE0 then 0xA0 ≤ b && b ≤ 0xBF
  else if a == 0xED then 0x80 ≤ b && b ≤ 0x9F
  else if a == 0xF0 then 0x90 ≤ b && b ≤ 0xBF
  else if a == 0xF4 then 0x80 ≤ b && b ≤ 0x8F
  else isTail b

/-- The character whose number has these digits in base 64, most significant first. -/
def compose (digits : List Nat) : Char :=
  Char.ofNat (digits.foldl (fun n d => n * 64 + d) 0)

/-- The low six bits, which later octets carry. -/
def low (b : UInt8) : Nat := b.toNat % 64

/-- The first character of `a :: rest`, or nothing for an ill-formed part, and what comes after. -/
def step (a : UInt8) (rest : Bytes) : Option Char × Bytes :=
  if a < 0x80 then (some (compose [a.toNat]), rest)
  else
    match rest with
    | [] => (none, [])
    | b :: r =>
      if 0xC2 ≤ a ∧ a ≤ 0xDF then
        if follows a b then (some (compose [a.toNat % 32, low b]), r) else (none, rest)
      else if 0xE0 ≤ a ∧ a ≤ 0xEF then
        if follows a b then
          match r with
          | [] => (none, [])
          | c :: s =>
            if isTail c then (some (compose [a.toNat % 16, low b, low c]), s) else (none, r)
        else (none, rest)
      else if 0xF0 ≤ a ∧ a ≤ 0xF4 then
        if follows a b then
          match r with
          | [] => (none, [])
          | c :: s =>
            if isTail c then
              match s with
              | [] => (none, [])
              | d :: t =>
                if isTail d then (some (compose [a.toNat % 8, low b, low c, low d]), t)
                else (none, s)
            else (none, r)
        else (none, rest)
      else (none, rest)

theorem step_length (a : UInt8) (rest : Bytes) : (step a rest).2.length ≤ rest.length := by
  unfold step
  repeat' split
  all_goals simp
  all_goals omega

/-- The characters and, as nothing, the ill-formed parts of the octets. Such a part is as long as
the start of some character goes, and ends before the octet that does not fit. -/
def parts : Bytes → List (Option Char)
  | [] => []
  | a :: rest => (step a rest).1 :: parts (step a rest).2
termination_by bytes => bytes.length
decreasing_by simpa using Nat.lt_succ_of_le (step_length a rest)

/-- The text that the octets encode, if they encode one. -/
def decode (bytes : Bytes) : Option String :=
  ((parts bytes).mapM id).map String.ofList

/-- The octets as text, with U+FFFD in place of each ill-formed part. -/
def decodeLossy (bytes : Bytes) : String :=
  String.ofList ((parts bytes).map (·.getD '\uFFFD'))

end Utf8
end ScriptSandbox
