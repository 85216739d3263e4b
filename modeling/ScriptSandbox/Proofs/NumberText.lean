import ScriptSandbox.Json.Parser
import ScriptSandbox.Json.Value
import ScriptSandbox.Proofs.Rounding

namespace ScriptSandbox.Proofs.NumberText
open Json Json.Parser Binary64

def Digits (ds : List Char) : Prop := ∀ c ∈ ds, c.isDigit = true

/-- What no digit stands in front of. -/
def Stopped (rest : List Char) : Prop := ∀ c ∈ rest.head?, c.isDigit = false

theorem stopped_cons {c : Char} (h : c.isDigit = false) (cs : List Char) : Stopped (c :: cs) := by
  intro d hd
  obtain rfl : c = d := Option.some.inj hd
  exact h

/-- Zero is in front of no other digit. -/
def Leading (ds : List Char) : Prop := ∀ more, ds = '0' :: more → more = []

theorem digits_toDigits (n : Nat) : Digits (Nat.toDigits 10 n) :=
  fun _ hc => Nat.isDigit_of_mem_toDigits (by decide) (by decide) hc

theorem digits_replicate (k : Nat) : Digits (List.replicate k '0') := by
  intro c hc
  rw [List.eq_of_mem_replicate hc]
  rfl

theorem Digits.append {a b : List Char} (ha : Digits a) (hb : Digits b) : Digits (a ++ b) := by
  intro c hc
  rcases List.mem_append.mp hc with h | h
  · exact ha c h
  · exact hb c h

theorem Digits.take {ds : List Char} (h : Digits ds) (k : Nat) : Digits (ds.take k) :=
  fun c hc => h c (List.mem_of_mem_take hc)

theorem Digits.drop {ds : List Char} (h : Digits ds) (k : Nat) : Digits (ds.drop k) :=
  fun c hc => h c (List.mem_of_mem_drop hc)

theorem someDigits_append {ds rest : List Char} (some_digit : ds ≠ []) (digits : Digits ds)
    (stopped : Stopped rest) : someDigits (ds ++ rest) = .ok (ds, rest) := by
  have none_taken : rest.takeWhile Char.isDigit = [] := by
    cases rest with
    | nil => rfl
    | cons c cs => simp [stopped c rfl]
  have none_dropped : rest.dropWhile Char.isDigit = rest := by
    cases rest with
    | nil => rfl
    | cons c cs => simp [stopped c rfl]
  have taken : (ds ++ rest).takeWhile Char.isDigit = ds := by
    rw [List.takeWhile_append_of_pos digits, none_taken, List.append_nil]
  have dropped : (ds ++ rest).dropWhile Char.isDigit = rest := by
    rw [List.dropWhile_append_of_pos digits, none_dropped]
  obtain ⟨d, more, rfl⟩ := List.exists_cons_of_ne_nil some_digit
  rw [someDigits, taken, dropped]

theorem integerPart_append {ds rest : List Char} (some_digit : ds ≠ []) (digits : Digits ds)
    (leading : Leading ds) (stopped : Stopped rest) :
    integerPart (ds ++ rest) = .ok (ds, rest) := by
  simp only [integerPart, someDigits_append some_digit digits stopped, bind, Except.bind]
  split
  · rename_i more
    have := leading _ rfl
    simp at this
  · rfl

theorem digitsValue_eq (ds : List Char) : digitsValue ds = Nat.ofDigitChars 10 ds 0 := by
  simp only [digitsValue, Nat.ofDigitChars, Nat.mul_comm]

@[simp]
theorem digitsValue_toDigits (n : Nat) : digitsValue (Nat.toDigits 10 n) = n := by
  rw [digitsValue_eq, Nat.ofDigitChars_ten_toDigits]

@[simp]
theorem digitsValue_zeros_append (k : Nat) (ds : List Char) :
    digitsValue (List.replicate k '0' ++ ds) = digitsValue ds := by
  rw [digitsValue_eq, digitsValue_eq, Nat.ofDigitChars_append, Nat.ofDigitChars_replicate_zero,
    Nat.mul_zero]

@[simp]
theorem digitsValue_append_zeros (ds : List Char) (k : Nat) :
    digitsValue (ds ++ List.replicate k '0') = digitsValue ds * power 10 k := by
  rw [digitsValue_eq, digitsValue_eq, Nat.ofDigitChars_append, Nat.ofDigitChars_replicate_zero,
    Nat.mul_comm]
  rfl

/-- The digits of a positive number start with another one than zero. -/
theorem toDigits_head {n : Nat} (h : n ≠ 0) : ∃ d ds, Nat.toDigits 10 n = d :: ds ∧ d ≠ '0' := by
  induction n using Nat.strongRecOn with
  | ind n ih =>
    by_cases small : n < 10
    · refine ⟨n.digitChar, [], Nat.toDigits_of_lt_base small, ?_⟩
      intro zero
      have value := Nat.toNat_digitChar_sub_48_of_lt_ten small
      rw [zero] at value
      exact h value.symm
    · have large : 10 ≤ n := Nat.le_of_not_lt small
      obtain ⟨d, ds, digits, some_digit⟩ := ih (n / 10) (by omega) (by omega)
      refine ⟨d, ds ++ [(n % 10).digitChar], ?_, some_digit⟩
      rw [Nat.toDigits_of_base_le (by decide) large, digits, List.cons_append]

theorem leading_toDigits (n : Nat) : Leading (Nat.toDigits 10 n) := by
  intro more zero_first
  by_cases h : n = 0
  · rw [h, Nat.toDigits_zero] at zero_first
    exact (List.cons.inj zero_first).2.symm
  · obtain ⟨d, ds, digits, some_digit⟩ := toDigits_head h
    rw [digits] at zero_first
    exact absurd (List.cons.inj zero_first).1 some_digit

/-- What ends a number, whatever part of it comes last. -/
def Ended (rest : List Char) : Prop :=
  ∀ c ∈ rest.head?, c.isDigit = false ∧ c ≠ '.' ∧ c ≠ 'e' ∧ c ≠ 'E'

theorem Ended.stopped {rest : List Char} (h : Ended rest) : Stopped rest :=
  fun c hc => (h c hc).1

theorem fractionPart_none {rest : List Char} (no_point : ∀ c ∈ rest.head?, c ≠ '.') :
    fractionPart rest = .ok (none, rest) := by
  unfold fractionPart
  split
  · exact absurd rfl (no_point '.' rfl)
  · rfl

theorem fractionPart_some {ds rest : List Char} (some_digit : ds ≠ []) (digits : Digits ds)
    (stopped : Stopped rest) :
    fractionPart ('.' :: (ds ++ rest)) = .ok (some ds, rest) := by
  simp only [fractionPart, someDigits_append some_digit digits stopped, bind, Except.bind]

theorem exponentPart_none {rest : List Char} (ended : Ended rest) :
    exponentPart rest = .ok (none, rest) := by
  cases rest with
  | nil => rfl
  | cons c cs =>
    obtain ⟨-, -, small, capital⟩ := ended c rfl
    simp only [exponentPart, small, capital, or_self, ↓reduceIte]

/-- The text of an exponent, without its letter. -/
def exponentText (e : Int) : List Char :=
  (if e < 0 then '-' else '+') :: Nat.toDigits 10 e.natAbs

theorem exponentPart_some (e : Int) {rest : List Char} (stopped : Stopped rest) :
    exponentPart ('e' :: (exponentText e ++ rest)) = .ok (some e, rest) := by
  have digits := someDigits_append Nat.toDigits_ne_nil (digits_toDigits e.natAbs) stopped
  have value : digitsValue (Nat.toDigits 10 e.natAbs) = e.natAbs := digitsValue_toDigits _
  unfold exponentText exponentPart
  by_cases negative : e < 0
  · have back : -(e.natAbs : Int) = e := by omega
    simp only [negative, ↓reduceIte, true_or, List.cons_append, signedExponent, digits, value, back,
      bind, Except.bind]
  · have back : (e.natAbs : Int) = e := by omega
    simp only [negative, ↓reduceIte, true_or, List.cons_append, signedExponent, digits, value, back,
      bind, Except.bind]

section
variable {negative : Bool} {ds after rest : List Char} {x : Binary64}

theorem number_digits {v : Json} (some_digit : ds ≠ []) (digits : Digits ds)
    (leading : Leading ds) (ended : Ended rest)
    (value : ofDigits negative (digitsValue ds) = some v) :
    number negative (ds ++ rest) = .ok (v, rest) := by
  have no_point : ∀ c ∈ rest.head?, c ≠ '.' := fun c hc => (ended c hc).2.1
  simp only [number, integerPart_append some_digit digits leading ended.stopped,
    fractionPart_none no_point, exponentPart_none ended, value, bind, Except.bind]

theorem number_point (some_digit : ds ≠ []) (digits : Digits ds) (leading : Leading ds)
    (some_after : after ≠ []) (digits_after : Digits after) (ended : Ended rest)
    (value : ofDecimal negative ⟨digitsValue (ds ++ after), -(after.length : Int)⟩ = some x) :
    number negative (ds ++ '.' :: (after ++ rest)) = .ok (.float x, rest) := by
  have point : Stopped ('.' :: (after ++ rest)) := stopped_cons rfl _
  simp only [number, integerPart_append some_digit digits leading point,
    fractionPart_some some_after digits_after ended.stopped, exponentPart_none ended,
    Option.getD_some, Option.getD_none, Int.zero_sub, value, Option.map_some, bind, Except.bind]

/-- The digits after the point with the point, which goes when there are none. -/
def fractionText : List Char → List Char
  | [] => []
  | c :: cs => '.' :: c :: cs

theorem number_exponent (e : Int) (some_digit : ds ≠ []) (digits : Digits ds)
    (leading : Leading ds) (digits_after : Digits after) (ended : Ended rest)
    (value : ofDecimal negative ⟨digitsValue (ds ++ after), e - after.length⟩ = some x) :
    number negative (ds ++ (fractionText after ++ 'e' :: (exponentText e ++ rest))) =
      .ok (.float x, rest) := by
  have letter : Stopped ('e' :: (exponentText e ++ rest)) := stopped_cons rfl _
  have exponent := exponentPart_some e ended.stopped
  cases after with
  | nil =>
    have no_point : ∀ c ∈ ('e' :: (exponentText e ++ rest)).head?, c ≠ '.' := by
      intro c hc
      obtain rfl : 'e' = c := Option.some.inj hc
      decide
    simp only [fractionText, List.nil_append, number,
      integerPart_append some_digit digits leading letter, fractionPart_none no_point, exponent,
      Option.getD_some, Option.getD_none, value, Option.map_some, bind, Except.bind]
  | cons a more =>
    have point : Stopped ('.' :: (a :: more ++ 'e' :: (exponentText e ++ rest))) :=
      stopped_cons rfl _
    have fraction := fractionPart_some (List.cons_ne_nil a more) digits_after letter
    simp only [fractionText, List.cons_append] at point fraction ⊢
    simp only [number, integerPart_append some_digit digits leading point, fraction, exponent,
      Option.getD_some, value, Option.map_some, bind, Except.bind]

variable {point : Int}

/-- All digits are after the point, where zeros come first. -/
theorem number_below (below : point ≤ 0) (some_digit : ds ≠ []) (digits : Digits ds)
    (ended : Ended rest) (value : ofDecimal negative ⟨digitsValue ds, point - ds.length⟩ = some x) :
    number negative ("0.".toList ++ List.replicate (-point).toNat '0' ++ ds ++ rest) =
      .ok (.float x, rest) := by
  have digits_after := (digits_replicate (-point).toNat).append digits
  have some_after : List.replicate (-point).toNat '0' ++ ds ≠ [] := by simp [some_digit]
  have places : -((List.replicate (-point).toNat '0' ++ ds).length : Int) = point - ds.length := by
    simp only [List.length_append, List.length_replicate]
    omega
  have zeros : digitsValue (['0'] ++ (List.replicate (-point).toNat '0' ++ ds)) = digitsValue ds :=
    digitsValue_zeros_append ((-point).toNat + 1) ds
  have read := number_point (List.cons_ne_nil '0' []) (digits_replicate 1) (leading_toDigits 0)
    some_after digits_after ended (by rw [zeros, places, value])
  simpa using read

/-- All digits are before the point, which zeros may precede. -/
theorem number_above (above : ds.length ≤ point) (some_digit : ds ≠ []) (digits : Digits ds)
    (no_zero : ds.head? ≠ some '0') (ended : Ended rest)
    (value : ofDecimal negative ⟨digitsValue ds, point - ds.length⟩ = some x) :
    number negative (ds ++ List.replicate (point - ds.length).toNat '0' ++ ".0".toList ++ rest) =
      .ok (.float x, rest) := by
  obtain ⟨k, hk⟩ : ∃ k : Nat, point - ds.length = k := Int.eq_ofNat_of_zero_le (by omega)
  have leading : Leading (ds ++ List.replicate k '0') := by
    intro more zero_first
    obtain ⟨d, others, rfl⟩ := List.exists_cons_of_ne_nil some_digit
    obtain rfl : d = '0' := (List.cons.inj zero_first).1
    exact absurd rfl no_zero
  have zeros : ds ++ List.replicate k '0' ++ ['0'] = ds ++ List.replicate (k + 1) '0' := by
    rw [List.append_assoc, ← List.replicate_succ']
  have shifted : ofDecimal negative
      ⟨digitsValue (ds ++ List.replicate k '0' ++ ['0']), -((['0'].length : Nat) : Int)⟩ =
        some x := by
    have places : -((['0'].length : Nat) : Int) + (k + 1 : Nat) = point - ds.length := by
      rw [hk]
      simp only [List.length_singleton]
      omega
    rw [zeros, digitsValue_append_zeros, Rounding.ofDecimal_shift, places, value]
  have read := number_point (by simp [some_digit]) (digits.append (digits_replicate k)) leading
    (List.cons_ne_nil '0' []) (digits_replicate 1) ended shifted
  rw [hk, Int.toNat_natCast]
  simpa using read

/-- The point is between the digits. -/
theorem number_inside (low : 0 < point) (high : point < ds.length) (digits : Digits ds)
    (no_zero : ds.head? ≠ some '0') (ended : Ended rest)
    (value : ofDecimal negative ⟨digitsValue ds, point - ds.length⟩ = some x) :
    number negative (ds.take point.toNat ++ '.' :: ds.drop point.toNat ++ rest) =
      .ok (.float x, rest) := by
  obtain ⟨p, rfl⟩ : ∃ p : Nat, point = p := Int.eq_ofNat_of_zero_le (by omega)
  have low : 0 < p := by omega
  have high : p < ds.length := by omega
  have some_before : ds.take p ≠ [] := by
    intro none_left
    have := congrArg List.length none_left
    simp only [List.length_take, List.length_nil] at this
    omega
  have some_after : ds.drop p ≠ [] := by
    intro none_left
    have := congrArg List.length none_left
    simp only [List.length_drop, List.length_nil] at this
    omega
  have leading : Leading (ds.take p) := by
    intro more zero_first
    have first := congrArg List.head? zero_first
    rw [List.head?_take, if_neg (by omega)] at first
    exact absurd first no_zero
  have places : -((ds.drop p).length : Int) = p - ds.length := by
    rw [List.length_drop]
    omega
  have read := number_point some_before (digits.take p) leading some_after (digits.drop p) ended
    (by rw [List.take_append_drop, places, value])
  rw [Int.toNat_natCast]
  simpa using read

/-- An exponent follows the digits, of which one is before the point. -/
theorem number_scientific (some_digit : ds ≠ []) (digits : Digits ds) (ended : Ended rest)
    (value : ofDecimal negative ⟨digitsValue ds, point - ds.length⟩ = some x) :
    number negative
        (ds.take 1 ++ (fractionText (ds.drop 1) ++ 'e' :: (exponentText (point - 1) ++ rest))) =
      .ok (.float x, rest) := by
  obtain ⟨d, more, rfl⟩ := List.exists_cons_of_ne_nil some_digit
  have leading : Leading [d] := by
    intro others zero_first
    exact (List.cons.inj zero_first).2.symm
  have places : point - 1 - (more.length : Int) = point - (d :: more).length := by
    rw [List.length_cons]
    omega
  exact number_exponent (point - 1) (List.cons_ne_nil d []) (digits.take 1) leading
    (digits.drop 1) ended (places ▸ value)

/-- A number reads back in every layout. -/
theorem number_magnitude (style : FloatStyle) (some_digit : ds ≠ []) (digits : Digits ds)
    (no_zero : ds.head? ≠ some '0') (ended : Ended rest)
    (value : ofDecimal negative ⟨digitsValue ds, point - ds.length⟩ = some x) :
    number negative (style.magnitude ds point ++ rest) = .ok (.float x, rest) := by
  unfold FloatStyle.magnitude
  dsimp only
  split
  · split
    · rename_i below
      exact number_below below some_digit digits ended value
    · rename_i positive
      split
      · rename_i above
        exact number_above above some_digit digits no_zero ended value
      · rename_i inside
        exact number_inside (by omega) (by omega) digits no_zero ended value
  · have read := number_scientific some_digit digits ended value
    generalize ds.drop 1 = after at read ⊢
    cases after with
    | nil => simpa [fractionText, exponentText] using read
    | cons a more => simpa [fractionText, exponentText] using read

end

theorem dropWhile_zeros (ds : List Char) :
    ∃ k, ds = List.replicate k '0' ++ ds.dropWhile (· == '0') := by
  induction ds with
  | nil => exact ⟨0, rfl⟩
  | cons d more ih =>
    by_cases zero : d = '0'
    · obtain ⟨k, hk⟩ := ih
      refine ⟨k + 1, ?_⟩
      rw [List.dropWhile_cons_of_pos (by simp [zero]), List.replicate_succ, List.cons_append, ← hk,
        zero]
    · refine ⟨0, ?_⟩
      rw [List.dropWhile_cons_of_neg (by simp [zero]), List.replicate_zero, List.nil_append]

theorem stripZeros_append (ds : List Char) :
    ∃ k, ds = FloatStyle.stripZeros ds ++ List.replicate k '0' := by
  obtain ⟨k, hk⟩ := dropWhile_zeros ds.reverse
  refine ⟨k, ?_⟩
  calc ds = ds.reverse.reverse := (List.reverse_reverse ds).symm
    _ = (List.replicate k '0' ++ ds.reverse.dropWhile (· == '0')).reverse := by rw [← hk]
    _ = FloatStyle.stripZeros ds ++ List.replicate k '0' := by
      rw [List.reverse_append, List.reverse_replicate, FloatStyle.stripZeros]

/-- What is left of the digits of a number that is not zero. -/
theorem stripZeros_toDigits {n : Nat} (h : n ≠ 0) :
    FloatStyle.stripZeros (Nat.toDigits 10 n) ≠ [] ∧
      Digits (FloatStyle.stripZeros (Nat.toDigits 10 n)) ∧
      (FloatStyle.stripZeros (Nat.toDigits 10 n)).head? ≠ some '0' := by
  obtain ⟨k, hk⟩ := stripZeros_append (Nat.toDigits 10 n)
  obtain ⟨d, ds, digits, some_digit⟩ := toDigits_head h
  generalize FloatStyle.stripZeros (Nat.toDigits 10 n) = stripped at hk ⊢
  cases stripped with
  | nil =>
    -- Zeros alone would start with one.
    rw [digits] at hk
    cases k with
    | zero => exact absurd hk (List.cons_ne_nil d ds)
    | succ k => exact absurd (List.cons.inj hk).1 some_digit
  | cons c more =>
    refine ⟨List.cons_ne_nil c more, ?_, ?_⟩
    · intro e he
      apply digits_toDigits n
      rw [hk]
      exact List.mem_append_left _ he
    · rw [digits, List.cons_append] at hk
      obtain ⟨rfl, -⟩ := List.cons.inj hk
      intro zero_first
      exact some_digit (Option.some.inj zero_first)

@[simp]
theorem ofDecimal_zero (negative : Bool) (e : Int) :
    ofDecimal negative ⟨0, e⟩ = some (Binary64.zero negative) := by
  simp only [ofDecimal, ↓reduceIte]

/-- Zero reads back with its sign. -/
theorem number_zero (negative : Bool) {rest : List Char} (ended : Ended rest) :
    number negative ("0.0".toList ++ rest) = .ok (.float (Binary64.zero negative), rest) := by
  have value : ofDecimal negative ⟨digitsValue (['0'] ++ ['0']), -((['0'].length : Nat) : Int)⟩ =
      some (Binary64.zero negative) := ofDecimal_zero negative _
  exact number_point (List.cons_ne_nil '0' []) (digits_replicate 1) (leading_toDigits 0)
    (List.cons_ne_nil '0' []) (digits_replicate 1) ended value

/-- A decimal reads back once zeros at the end of its digits are gone. -/
theorem number_decimal (style : FloatStyle) {negative : Bool} {d : Decimal} {x : Binary64}
    {rest : List Char} (some_digit : d.digits ≠ 0) (ended : Ended rest)
    (value : ofDecimal negative d = some x) :
    number negative (style.magnitude (FloatStyle.stripZeros (Nat.toDigits 10 d.digits))
      (d.exponent + (Nat.toDigits 10 d.digits).length) ++ rest) = .ok (.float x, rest) := by
  obtain ⟨nonempty, digits, no_zero⟩ := stripZeros_toDigits some_digit
  obtain ⟨k, hk⟩ := stripZeros_append (Nat.toDigits 10 d.digits)
  apply number_magnitude style nonempty digits no_zero ended
  generalize FloatStyle.stripZeros (Nat.toDigits 10 d.digits) = stripped at hk ⊢
  have places : d.exponent + (Nat.toDigits 10 d.digits).length - stripped.length =
      d.exponent + k := by
    rw [hk, List.length_append, List.length_replicate]
    omega
  have digits_value : digitsValue stripped * power 10 k = d.digits := by
    rw [← digitsValue_append_zeros, ← hk, digitsValue_toDigits]
  rw [places, ← Rounding.ofDecimal_shift, digits_value]
  exact value

/-- A number starts with a digit. -/
theorem number_head {negative : Bool} {cs rest : List Char} {v : Json}
    (h : number negative cs = .ok (v, rest)) : ∃ d more, cs = d :: more ∧ d.isDigit = true := by
  cases cs with
  | nil => simp [number, integerPart, someDigits, bind, Except.bind] at h
  | cons d more =>
    refine ⟨d, more, rfl, ?_⟩
    by_cases digit : d.isDigit = true
    · exact digit
    · simp [number, integerPart, someDigits, digit, bind, Except.bind] at h

theorem valueOver_number {inner : Option (Scanner Json)} {cs rest : List Char} {v : Json}
    (h : number false cs = .ok (v, rest)) : valueOver inner cs = .ok (v, rest) := by
  obtain ⟨d, more, rfl, digit⟩ := number_head h
  have no_space : isSpace d = false := by
    apply Bool.eq_false_iff.mpr
    intro space
    simp only [isSpace, Bool.or_eq_true, beq_iff_eq] at space
    rcases space with ((rfl | rfl) | rfl) | rfl <;> exact absurd digit (by decide)
  have kept : skipSpace (d :: more) = d :: more := List.dropWhile_cons_of_neg (by simp [no_space])
  unfold valueOver
  rw [kept]
  -- Every first character but a digit is excluded.
  split <;> rename_i first <;> cases first
  case h_9.refl => rw [if_pos digit, h]
  all_goals exact absurd digit (by decide)

theorem valueOver_whole {inner : Option (Scanner Json)} {i : Int} {rest : List Char}
    (within : inRange i = true) (ended : Ended rest) :
    valueOver inner (whole i ++ rest) = .ok (.int i, rest) := by
  have digits := digits_toDigits i.natAbs
  have leading := leading_toDigits i.natAbs
  unfold whole
  split
  · rename_i negative
    have back : -(i.natAbs : Int) = i := by omega
    have some_size : (i.natAbs == 0) = false := beq_false_of_ne (by omega)
    have value : ofDigits true (digitsValue (Nat.toDigits 10 i.natAbs)) = some (.int i) := by
      simp only [digitsValue_toDigits, ofDigits, ↓reduceIte, back, within, some_size,
        Bool.and_false, Bool.not_true, Bool.or_self, Bool.false_eq_true]
    exact number_digits Nat.toDigits_ne_nil digits leading ended value
  · rename_i positive
    have back : (i.natAbs : Int) = i := by omega
    have value : ofDigits false (digitsValue (Nat.toDigits 10 i.natAbs)) = some (.int i) := by
      simp only [digitsValue_toDigits, ofDigits, Bool.false_eq_true, ↓reduceIte, back, within,
        Bool.false_and, Bool.not_true, Bool.or_self]
    exact valueOver_number (number_digits Nat.toDigits_ne_nil digits leading ended value)

theorem valueOver_float {inner : Option (Scanner Json)} (x : Binary64) {rest : List Char}
    (ended : Ended rest) : valueOver inner (floatStyle.text x ++ rest) = .ok (.float x, rest) := by
  obtain ⟨body, text, read⟩ : ∃ body,
      floatStyle.text x = (if x.negative then ['-'] else []) ++ body ∧
      number x.negative (body ++ rest) = .ok (.float x, rest) := by
    unfold FloatStyle.text
    dsimp only
    split
    · rename_i zero
      have same : Binary64.zero x.negative = x := by
        obtain ⟨negative, rank, finite⟩ := x
        obtain rfl : rank = 0 := zero
        rfl
      refine ⟨"0.0".toList, rfl, ?_⟩
      rw [number_zero x.negative ended, same]
    · rename_i some_size
      have some_digit := Nat.ne_of_gt (Rounding.shortest_digits_pos some_size)
      exact ⟨_, rfl, number_decimal floatStyle some_digit ended (Rounding.ofDecimal_shortest x)⟩
  rw [text]
  cases negative : x.negative with
  | true =>
    rw [negative] at read
    exact read
  | false =>
    rw [negative] at read
    exact valueOver_number read

end ScriptSandbox.Proofs.NumberText
