import ScriptSandbox.Number.Binary64

namespace ScriptSandbox.Binary64

/-- The magnitude written out in full. -/
def exact (x : Binary64) : Decimal := ⟨x.scaled * power 5 1074, -1074⟩

def readsBack (x : Binary64) (d : Decimal) : Bool :=
  ofDecimal x.negative d == some x

/-- The magnitude times `2 ^ 1074` and `10 ^ 400`. A positive magnitude times `10 ^ 400` has more
than seventeen digits before the point. -/
def shifted (x : Binary64) : Nat := x.scaled * power 10 400

def digitCount (n : Nat) : Nat := (Nat.toDigits 10 n).length

/-- The two decimals of `n` digits next to a magnitude, the nearer one first and of two as near the
even one. The magnitude is shifted, and then has `count` digits before the point. -/
def neighbours (shifted count n : Nat) : List Decimal :=
  let places := count - n
  let step := power 2 1074 * power 10 places
  let below : Decimal := ⟨shifted / step, (places : Int) - 400⟩
  let above : Decimal := { below with digits := below.digits + 1 }
  let twice := 2 * (shifted % step)
  if twice < step ∨ (twice = step ∧ below.digits % 2 = 0) then [below, above] else [above, below]

/-- Seventeen digits always suffice, so the full decimal is never needed; with it the result reads
back by construction. -/
def shortest (x : Binary64) : Decimal :=
  let shifted := x.shifted
  let count := digitCount (shifted / power 2 1074)
  ((List.range 17).findSome? fun n => (neighbours shifted count (n + 1)).find? x.readsBack).getD
    x.exact

end ScriptSandbox.Binary64

namespace ScriptSandbox

/-- Where numbers are written without an exponent. -/
structure FloatStyle where
  /-- The least power of ten that still is. -/
  least : Int
  /-- The least power of ten that no longer is. -/
  limit : Int
deriving DecidableEq, Repr

namespace FloatStyle

def stripZeros (digits : List Char) : List Char :=
  (digits.reverse.dropWhile (· == '0')).reverse

/-- A magnitude is `0.digits · 10 ^ point`. -/
def magnitude (style : FloatStyle) (digits : List Char) (point : Int) : List Char :=
  let zeros (n : Int) : List Char := List.replicate n.toNat '0'
  if style.least < point ∧ point ≤ style.limit then
    if point ≤ 0 then "0.".toList ++ zeros (-point) ++ digits
    else if digits.length ≤ point then digits ++ zeros (point - digits.length) ++ ".0".toList
    else digits.take point.toNat ++ '.' :: digits.drop point.toNat
  else
    let fraction := match digits.drop 1 with
      | [] => []
      | rest => '.' :: rest
    let exponent := point - 1
    let sign := if exponent < 0 then '-' else '+'
    digits.take 1 ++ fraction ++ 'e' :: sign :: Nat.toDigits 10 exponent.natAbs

/-- The number in its fewest digits. A point or an exponent is always there, and zero keeps its
sign. -/
def text (style : FloatStyle) (x : Binary64) : List Char :=
  let sign := if x.negative then ['-'] else []
  if x.rank = 0 then sign ++ "0.0".toList
  else
    let d := x.shortest
    let all := Nat.toDigits 10 d.digits
    sign ++ style.magnitude (stripZeros all) (d.exponent + all.length)

end FloatStyle
end ScriptSandbox
