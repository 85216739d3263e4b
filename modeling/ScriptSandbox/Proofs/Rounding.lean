import ScriptSandbox.Number.Shortest

namespace ScriptSandbox.Proofs.Rounding
open Binary64

/-- A common factor of numerator and denominator does not count. -/
theorem roundQuotient_mul_right (num den : Nat) {k : Nat} (hk : 0 < k) :
    roundQuotient (num * k) (den * k) = roundQuotient num den := by
  have quotient : num * k / (den * k) = num / den := Nat.mul_div_mul_right _ _ hk
  have remainder : 2 * (num * k % (den * k)) = 2 * (num % den) * k := by
    rw [Nat.mul_mod_mul_right, Nat.mul_assoc]
  have below : 2 * (num % den) * k < den * k ↔ 2 * (num % den) < den := Nat.mul_lt_mul_right hk
  have above : den * k < 2 * (num % den) * k ↔ den < 2 * (num % den) := Nat.mul_lt_mul_right hk
  simp only [roundQuotient, quotient, remainder, below, above]

/-- Whole numbers are not rounded. -/
theorem roundQuotient_whole (n : Nat) {den : Nat} (hd : 0 < den) :
    roundQuotient (n * den) den = n := by
  simp [roundQuotient, Nat.mul_div_cancel _ hd, hd]

theorem nearestRank_mul_right (num den : Nat) {k : Nat} (hk : 0 < k) :
    nearestRank (num * k) (den * k) = nearestRank num den := by
  have size : num * k * power 2 1022 / (den * k) = num * power 2 1022 / den := by
    rw [Nat.mul_right_comm, Nat.mul_div_mul_right _ _ hk]
  have rounded (e : Nat) : roundQuotient (num * k * power 2 1074) (den * k * power 2 e) =
      roundQuotient (num * power 2 1074) (den * power 2 e) := by
    rw [Nat.mul_right_comm num, Nat.mul_right_comm den, roundQuotient_mul_right _ _ hk]
  simp only [nearestRank, size, rounded]

/-- Equal quotients have the same rank. -/
theorem nearestRank_congr {a b c d : Nat} (hb : 0 < b) (hd : 0 < d) (h : a * d = c * b) :
    nearestRank a b = nearestRank c d := by
  calc nearestRank a b = nearestRank (a * d) (b * d) := (nearestRank_mul_right a b hd).symm
    _ = nearestRank (c * b) (d * b) := by rw [h, Nat.mul_comm b d]
    _ = nearestRank c d := nearestRank_mul_right c d hb

theorem ofQuotient_congr {a b c d : Nat} (negative : Bool) (hb : 0 < b) (hd : 0 < d)
    (h : a * d = c * b) : ofQuotient negative a b = ofQuotient negative c d := by
  simp only [ofQuotient, nearestRank_congr hb hd h]

def num (d : Decimal) : Nat := d.digits * power 10 d.exponent.toNat

def den (d : Decimal) : Nat := power 10 (-d.exponent).toNat

theorem den_pos (d : Decimal) : 0 < den d := power_pos (by decide) _

@[simp]
theorem nearestRank_zero (den : Nat) : nearestRank 0 den = 0 := by
  cases den <;> simp [nearestRank, roundQuotient]

theorem mul_power_two (n : Nat) {a b c : Nat} (h : a + b = c) :
    n * power 2 a * power 2 b = n * power 2 c := by
  rw [Nat.mul_assoc, ← power_add, h]

/-- From `2 ^ 1024` on the rank is beyond all finite ones. -/
theorem rank_too_large {num den : Nat} (hd : 0 < den) (h : den * power 2 1024 ≤ num) :
    2047 * power 2 52 ≤ nearestRank num den := by
  have large : power 2 2046 ≤ num * power 2 1022 / den := by
    rw [Nat.le_div_iff_mul_le hd]
    calc power 2 2046 * den = den * power 2 2046 := Nat.mul_comm _ _
      _ = den * power 2 1024 * power 2 1022 :=
        (mul_power_two den (show 1024 + 1022 = 2046 by decide)).symm
      _ ≤ num * power 2 1022 := Nat.mul_le_mul_right _ h
  have nonzero : num * power 2 1022 / den ≠ 0 :=
    Nat.ne_of_gt (Nat.lt_of_lt_of_le (power_pos (by decide) _) large)
  have order := le_log2_of_power_le large
  -- The quotient that is rounded is at least `2 ^ 52`, by the choice of the power of two.
  have mantissa : power 2 52 ≤
      num * power 2 1074 / (den * power 2 (Nat.log2 (num * power 2 1022 / den))) := by
    rw [Nat.le_div_iff_mul_le (Nat.mul_pos hd (power_pos (by decide) _))]
    have step := (Nat.le_div_iff_mul_le hd).mp (power_log2_le nonzero)
    calc power 2 52 * (den * power 2 (Nat.log2 (num * power 2 1022 / den)))
        = power 2 (Nat.log2 (num * power 2 1022 / den)) * den * power 2 52 := by
          rw [Nat.mul_comm, Nat.mul_comm den]
      _ ≤ num * power 2 1022 * power 2 52 := Nat.mul_le_mul_right _ step
      _ = num * power 2 1074 := mul_power_two num rfl
  have kept (n m : Nat) : n / m ≤ roundQuotient n m := by
    unfold roundQuotient
    dsimp only
    split
    · exact Nat.le_refl _
    · split <;> omega
  have rounded := Nat.le_trans mantissa (kept _ _)
  have sum := Nat.add_le_add (Nat.mul_le_mul_right (power 2 52) order) rounded
  calc 2047 * power 2 52 = 2046 * power 2 52 + power 2 52 := Nat.succ_mul 2046 _
    _ ≤ nearestRank num den := sum

/-- Half the least positive magnitude is rounded to zero, and so is all below it. -/
theorem rank_too_small {num den : Nat} (h : num * power 2 1075 < den) :
    nearestRank num den = 0 := by
  have tiny : num * power 2 1022 / den = 0 := by
    apply Nat.div_eq_of_lt
    calc num * power 2 1022 ≤ num * power 2 1022 * power 2 53 :=
          Nat.le_mul_of_pos_right _ (power_pos (by decide) _)
      _ = num * power 2 1075 := mul_power_two num rfl
      _ < den := h
  have half : 2 * (num * power 2 1074) < den := by
    calc 2 * (num * power 2 1074) = num * power 2 1074 * power 2 1 := Nat.mul_comm _ _
      _ = num * power 2 1075 := mul_power_two num rfl
      _ < den := h
  have whole : num * power 2 1074 < den :=
    Nat.lt_of_le_of_lt (Nat.le_mul_of_pos_left _ (by decide)) half
  simp only [nearestRank, tiny, Nat.log2_zero, Nat.zero_mul, Nat.zero_add, power_zero,
    Nat.mul_one, roundQuotient, Nat.div_eq_of_lt whole, Nat.mod_eq_of_lt whole, half, ↓reduceIte]

theorem power_ten_le_power_two (bits : Nat) : power 10 (bits * 3 / 10) ≤ power 2 bits := by
  apply le_of_power_le (n := 10) (by decide)
  calc power (power 10 (bits * 3 / 10)) 10 = power 10 (bits * 3 / 10 * 10) := by rw [power_mul]
    _ ≤ power 10 (3 * bits) := power_le_right (by decide) (by omega)
    _ = power 1000 bits := power_mul 10 3 bits
    _ ≤ power 1024 bits := power_le_left (by decide) _
    _ = power 2 (10 * bits) := (power_mul 2 10 bits).symm
    _ = power (power 2 bits) 10 := by rw [← power_mul, Nat.mul_comm]

theorem power_two_le_power_ten (bits : Nat) : power 2 (bits + 1) ≤ power 10 (bits / 3 + 1) := by
  calc power 2 (bits + 1) ≤ power 2 (3 * (bits / 3 + 1)) :=
        power_le_right (by decide) (by omega)
    _ = power 8 (bits / 3 + 1) := power_mul 2 3 _
    _ ≤ power 10 (bits / 3 + 1) := power_le_left (by decide) _

/-- The first early answer is that of the full arithmetic. -/
theorem ofQuotient_huge {d : Decimal} (negative : Bool) (some_digit : d.digits ≠ 0)
    (h : d.exponent + d.digits.log2 * 3 / 10 > 310) :
    ofQuotient negative (num d) (den d) = none := by
  have digits : power 10 (d.digits.log2 * 3 / 10) ≤ d.digits :=
    Nat.le_trans (power_ten_le_power_two _) (power_log2_le some_digit)
  have places : 311 + (-d.exponent).toNat ≤ d.digits.log2 * 3 / 10 + d.exponent.toNat := by omega
  have large : den d * power 2 1024 ≤ num d := by
    calc den d * power 2 1024 ≤ den d * power 10 311 :=
          Nat.mul_le_mul_left _ (by decide +kernel)
      _ = power 10 (311 + (-d.exponent).toNat) := by rw [den, power_add, Nat.mul_comm]
      _ ≤ power 10 (d.digits.log2 * 3 / 10 + d.exponent.toNat) :=
        power_le_right (by decide) places
      _ = power 10 (d.digits.log2 * 3 / 10) * power 10 d.exponent.toNat := power_add _ _ _
      _ ≤ num d := Nat.mul_le_mul_right _ digits
  have := rank_too_large (den_pos d) large
  simp only [ofQuotient, Nat.not_lt.mpr this, ↓reduceDIte]

/-- So is the second one. -/
theorem ofQuotient_tiny {d : Decimal} (negative : Bool)
    (h : d.exponent + d.digits.log2 / 3 + 1 < -330) :
    ofQuotient negative (num d) (den d) = some (zero negative) := by
  have whole : d.exponent.toNat = 0 := by omega
  have digits : d.digits < power 10 (d.digits.log2 / 3 + 1) :=
    Nat.lt_of_lt_of_le (lt_power_log2 _) (power_two_le_power_ten _)
  have places : d.digits.log2 / 3 + 1 + 331 ≤ (-d.exponent).toNat := by omega
  have small : num d * power 2 1075 < den d := by
    calc num d * power 2 1075 = d.digits * power 2 1075 := by
          rw [num, whole, power_zero, Nat.mul_one]
      _ < power 10 (d.digits.log2 / 3 + 1) * power 2 1075 :=
        Nat.mul_lt_mul_of_pos_right digits (power_pos (by decide) _)
      _ ≤ power 10 (d.digits.log2 / 3 + 1) * power 10 331 :=
        Nat.mul_le_mul_left _ (by decide +kernel)
      _ = power 10 (d.digits.log2 / 3 + 1 + 331) := (power_add _ _ _).symm
      _ ≤ den d := power_le_right (by decide) places
  have room : 0 < 2047 * power 2 52 := by decide
  simp only [ofQuotient, rank_too_small small, zero, room, ↓reduceDIte]

/-- Reading a decimal is rounding its value. -/
theorem ofDecimal_eq_ofQuotient (negative : Bool) (d : Decimal) :
    ofDecimal negative d = ofQuotient negative (num d) (den d) := by
  unfold ofDecimal
  dsimp only
  split
  · rename_i none_left
    have room : 0 < 2047 * power 2 52 := by decide
    simp only [num, none_left, Nat.zero_mul, ofQuotient, nearestRank_zero, zero, room,
      ↓reduceDIte]
  · rename_i some_digit
    split
    · rename_i huge
      exact (ofQuotient_huge negative some_digit huge).symm
    · split
      · rename_i tiny
        exact (ofQuotient_tiny negative tiny).symm
      · split
        · rename_i e he
          simp [num, den, he]
        · rename_i e he
          simp [num, den, he]

/-- Zeros at the end of the digits can go into the exponent. -/
theorem ofDecimal_shift (negative : Bool) (n k : Nat) (e : Int) :
    ofDecimal negative ⟨n * power 10 k, e⟩ = ofDecimal negative ⟨n, e + k⟩ := by
  rw [ofDecimal_eq_ofQuotient, ofDecimal_eq_ofQuotient]
  apply ofQuotient_congr negative (den_pos _) (den_pos _)
  have places : k + e.toNat + (-(e + k)).toNat = (e + k).toNat + (-e).toNat := by omega
  simp only [num, den]
  calc n * power 10 k * power 10 e.toNat * power 10 (-(e + k)).toNat
      = n * power 10 (k + e.toNat + (-(e + k)).toNat) := by
        rw [power_add, power_add, ← Nat.mul_assoc, ← Nat.mul_assoc]
    _ = n * power 10 ((e + k).toNat + (-e).toNat) := by rw [places]
    _ = n * power 10 (e + k).toNat * power 10 (-e).toNat := by rw [power_add, ← Nat.mul_assoc]

theorem log2_mantissa {m j : Nat} (fraction : m < power 2 52) :
    Nat.log2 ((power 2 52 + m) * power 2 j / power 2 52) = j := by
  have unit : 0 < power 2 52 := power_pos (by decide) _
  apply log2_eq_of_power
  · rw [Nat.le_div_iff_mul_le unit, Nat.mul_comm]
    exact Nat.mul_le_mul_right _ (Nat.le_add_right _ _)
  · have step : 0 < power 2 j := power_pos (by decide) _
    rw [Nat.div_lt_iff_lt_mul unit]
    calc (power 2 52 + m) * power 2 j < (power 2 52 + power 2 52) * power 2 j :=
          Nat.mul_lt_mul_of_pos_right (Nat.add_lt_add_left fraction _) step
      _ = power 2 (j + 1) * power 2 52 := by
        rw [power_add, power_one, ← Nat.two_mul, Nat.mul_comm 2, Nat.mul_assoc, Nat.mul_comm,
          Nat.mul_comm 2]

/-- The rank of a magnitude is its own. -/
theorem nearestRank_scaled (x : Binary64) : nearestRank x.scaled (power 2 1074) = x.rank := by
  have factor : 0 < power 2 1022 := power_pos (by decide) _
  have size : x.scaled * power 2 1022 / power 2 1074 = x.scaled / power 2 52 := by
    rw [← Nat.mul_div_mul_right x.scaled (power 2 52) factor, ← power_add]
  have rounded (e : Nat) : roundQuotient (x.scaled * power 2 1074) (power 2 1074 * power 2 e) =
      roundQuotient x.scaled (power 2 e) := by
    rw [Nat.mul_comm (power 2 1074) (power 2 e)]
    exact roundQuotient_mul_right _ _ (power_pos (by decide) _)
  simp only [nearestRank, size, rounded]
  unfold scaled
  split
  · rename_i subnormal
    rw [Nat.div_eq_of_lt subnormal, Nat.log2_zero, Nat.zero_mul, Nat.zero_add, power_zero]
    simpa using roundQuotient_whole x.rank Nat.one_pos
  · rename_i normal
    have parts := Nat.div_add_mod x.rank (power 2 52)
    have fraction : x.rank % power 2 52 < power 2 52 := Nat.mod_lt _ (power_pos (by decide) _)
    have some_step : 0 < x.rank / power 2 52 :=
      Nat.div_pos (Nat.not_lt.mp normal) (power_pos (by decide) _)
    obtain ⟨j, hj⟩ : ∃ j, x.rank / power 2 52 = j + 1 :=
      ⟨_, (Nat.succ_pred_eq_of_pos some_step).symm⟩
    have unit : 0 < power 2 j := power_pos (by decide) _
    rw [hj, Nat.add_sub_cancel, log2_mantissa fraction, roundQuotient_whole _ unit]
    rw [hj, Nat.mul_succ, Nat.mul_comm] at parts
    omega

/-- The decimal with all digits reads back. -/
theorem ofDecimal_exact (x : Binary64) : ofDecimal x.negative x.exact = some x := by
  have value : nearestRank (num x.exact) (den x.exact) = x.rank := by
    rw [← nearestRank_scaled x]
    apply nearestRank_congr (den_pos _) (power_pos (by decide) _)
    calc x.scaled * power 5 1074 * power 10 0 * power 2 1074
        = x.scaled * power (5 * 2) 1074 := by
          rw [power_zero, Nat.mul_one, Nat.mul_assoc, ← mul_power]
      _ = x.scaled * den x.exact := rfl
  rw [ofDecimal_eq_ofQuotient, ofQuotient]
  simp only [value, x.finite, ↓reduceDIte]

/-- The shortest decimal reads back. -/
theorem ofDecimal_shortest (x : Binary64) : ofDecimal x.negative x.shortest = some x := by
  unfold shortest
  dsimp only
  generalize found : List.findSome? _ _ = answer
  cases answer with
  | none => exact ofDecimal_exact x
  | some d =>
    obtain ⟨n, _, hit⟩ := List.exists_of_findSome?_eq_some found
    simpa [readsBack] using List.find?_some hit

/-- A number other than zero has a digit. -/
theorem shortest_digits_pos {x : Binary64} (h : x.rank ≠ 0) : 0 < x.shortest.digits := by
  apply Nat.pos_of_ne_zero
  intro none_left
  have back := ofDecimal_shortest x
  simp only [ofDecimal, none_left, ↓reduceIte, Option.some.injEq] at back
  exact h (congrArg rank back).symm

end ScriptSandbox.Proofs.Rounding
