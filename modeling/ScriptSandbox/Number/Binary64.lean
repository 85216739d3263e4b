namespace ScriptSandbox

/-- Powers under a name of their own, so that proofs about huge ones do not work them out. -/
def power (base n : Nat) : Nat := Nat.pow base n

@[simp]
theorem power_zero (b : Nat) : power b 0 = 1 := rfl

@[simp]
theorem power_one (b : Nat) : power b 1 = b := Nat.pow_one b

theorem power_add (b m n : Nat) : power b (m + n) = power b m * power b n := Nat.pow_add b m n

theorem power_mul (b m n : Nat) : power b (m * n) = power (power b m) n := Nat.pow_mul b m n

theorem mul_power (a b n : Nat) : power (a * b) n = power a n * power b n := Nat.mul_pow a b n

theorem power_pos {b : Nat} (h : 0 < b) (n : Nat) : 0 < power b n := Nat.pow_pos h

theorem power_le_right {b m n : Nat} (hb : 0 < b) (h : m ≤ n) : power b m ≤ power b n :=
  Nat.pow_le_pow_right hb h

theorem power_le_left {a b : Nat} (h : a ≤ b) (n : Nat) : power a n ≤ power b n :=
  Nat.pow_le_pow_left h n

theorem le_of_power_le {a b n : Nat} (hn : n ≠ 0) (h : power a n ≤ power b n) : a ≤ b :=
  (Nat.pow_le_pow_iff_left hn).mp h

theorem power_log2_le {n : Nat} (h : n ≠ 0) : power 2 n.log2 ≤ n := Nat.log2_self_le h

theorem lt_power_log2 (n : Nat) : n < power 2 (n.log2 + 1) := Nat.lt_log2_self

theorem le_log2_of_power_le {e n : Nat} (h : power 2 e ≤ n) : e ≤ n.log2 :=
  (Nat.le_log2 (Nat.ne_of_gt (Nat.lt_of_lt_of_le (power_pos (by decide) e) h))).mpr h

theorem log2_eq_of_power {e n : Nat} (low : power 2 e ≤ n) (high : n < power 2 (e + 1)) :
    n.log2 = e :=
  (Nat.log2_eq_iff (Nat.ne_of_gt (Nat.lt_of_lt_of_le (power_pos (by decide) e) low))).mpr
    ⟨low, high⟩

/-- A sign and a magnitude. The magnitudes are counted upwards from zero, so the two zeros differ
in their sign alone. -/
structure Binary64 where
  negative : Bool
  rank : Nat
  finite : rank < 2047 * power 2 52
deriving DecidableEq, Repr

/-- `digits · 10 ^ exponent`. -/
structure Decimal where
  digits : Nat
  exponent : Int
deriving DecidableEq, Repr

namespace Binary64

def zero (negative : Bool) : Binary64 := ⟨negative, 0, by decide⟩

/-- The magnitude as a multiple of `2 ^ -1074`, the least positive one. -/
def scaled (x : Binary64) : Nat :=
  if x.rank < power 2 52 then x.rank
  else (power 2 52 + x.rank % power 2 52) * power 2 (x.rank / power 2 52 - 1)

/-- The quotient to the nearest whole number, halves to the even one. -/
def roundQuotient (num den : Nat) : Nat :=
  let q := num / den
  let r := num % den
  if 2 * r < den then q
  else if den < 2 * r then q + 1
  else q + q % 2

/-- The rank of the magnitude nearest to `num / den`. Between `2 ^ (e - 1022)` and the next power
of two the magnitudes are `2 ^ (e - 1074)` apart, and below `2 ^ -1022` as far as just above it. -/
def nearestRank (num den : Nat) : Nat :=
  let e := Nat.log2 (num * power 2 1022 / den)
  e * power 2 52 + roundQuotient (num * power 2 1074) (den * power 2 e)

/-- The number nearest to the quotient, unless it is nearer to the first power of two without a
finite number. -/
def ofQuotient (negative : Bool) (num den : Nat) : Option Binary64 :=
  if h : nearestRank num den < 2047 * power 2 52 then some ⟨negative, nearestRank num den, h⟩
  else none

/-- The number nearest to a decimal, halves to the even one; a reader that does its best only may
give a neighbour of it. The two early answers only save the arithmetic on decimals far outside the
range: `2 ^ 10` is more than `10 ^ 3`, and `2 ^ 3` less than `10`. -/
def ofDecimal (negative : Bool) (d : Decimal) : Option Binary64 :=
  let bits := d.digits.log2
  if d.digits = 0 then some (zero negative)
  else if d.exponent + bits * 3 / 10 > 310 then none
  else if d.exponent + bits / 3 + 1 < -330 then some (zero negative)
  else
    match d.exponent with
    | .ofNat e => ofQuotient negative (d.digits * power 10 e) 1
    | .negSucc e => ofQuotient negative d.digits (power 10 (e + 1))

end Binary64
end ScriptSandbox
