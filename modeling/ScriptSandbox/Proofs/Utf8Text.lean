import ScriptSandbox.Text.Utf8

namespace ScriptSandbox.Proofs.Utf8Text
open Utf8

/-- Octets by how many there are, with the range of each as numbers. -/
inductive Encoded : Bytes → Prop
  | one {a : UInt8} (lead : a.toNat < 0x80) : Encoded [a]
  | two {a b : UInt8} (lead : 0xC2 ≤ a.toNat ∧ a.toNat ≤ 0xDF) (second : follows a b = true) :
      Encoded [a, b]
  | three {a b c : UInt8} (lead : 0xE0 ≤ a.toNat ∧ a.toNat ≤ 0xEF) (second : follows a b = true)
      (third : isTail c = true) : Encoded [a, b, c]
  | four {a b c d : UInt8} (lead : 0xF0 ≤ a.toNat ∧ a.toNat ≤ 0xF4) (second : follows a b = true)
      (third : isTail c = true) (fourth : isTail d = true) : Encoded [a, b, c, d]

theorem isTail_iff {b : UInt8} : isTail b = true ↔ 0x80 ≤ b.toNat ∧ b.toNat ≤ 0xBF := by
  simp [isTail, UInt8.le_iff_toNat_le]

theorem follows_iff {a b : UInt8} : follows a b = true ↔ 0x80 ≤ b.toNat ∧ b.toNat ≤ 0xBF ∧
    (a.toNat = 0xE0 → 0xA0 ≤ b.toNat) ∧ (a.toNat = 0xED → b.toNat ≤ 0x9F) ∧
    (a.toNat = 0xF0 → 0x90 ≤ b.toNat) ∧ (a.toNat = 0xF4 → b.toNat ≤ 0x8F) := by
  simp only [follows, beq_iff_eq, ← UInt8.toNat_inj]
  repeat' split
  all_goals simp_all [isTail, UInt8.le_iff_toNat_le]
  all_goals omega

theorem toNat_ofNat {n : Nat} (h : n < 256) : (UInt8.ofNat n).toNat = n := by
  rw [UInt8.toNat_ofNat']
  omega

theorem ofNat_eq {n : Nat} {a : UInt8} (h : n = a.toNat) : UInt8.ofNat n = a := by
  subst h
  exact UInt8.ofNat_toNat

theorem encoded (c : Char) : Encoded (String.utf8EncodeChar c) := by
  have valid := c.valid
  simp only [UInt32.isValidChar, Nat.isValidChar] at valid
  unfold String.utf8EncodeChar
  dsimp only
  generalize c.val.toNat = v at valid
  split
  · apply Encoded.one
    rw [toNat_ofNat (by omega)]
    omega
  · split
    · apply Encoded.two
      · rw [toNat_ofNat (by omega)]
        omega
      · rw [follows_iff, toNat_ofNat (by omega), toNat_ofNat (by omega)]
        omega
    · split
      · apply Encoded.three
        · rw [toNat_ofNat (by omega)]
          omega
        · rw [follows_iff, toNat_ofNat (by omega), toNat_ofNat (by omega)]
          omega
        · rw [isTail_iff, toNat_ofNat (by omega)]
          omega
      · apply Encoded.four
        · rw [toNat_ofNat (by omega)]
          omega
        · rw [follows_iff, toNat_ofNat (by omega), toNat_ofNat (by omega)]
          omega
        · rw [isTail_iff, toNat_ofNat (by omega)]
          omega
        · rw [isTail_iff, toNat_ofNat (by omega)]
          omega

section
variable {a b c d : UInt8}

theorem toNat_compose (digits : List Nat) {n : Nat}
    (number : digits.foldl (fun n d => n * 64 + d) 0 = n) (valid : n.isValidChar) :
    (compose digits).val.toNat = n := by
  subst number
  unfold compose Char.ofNat
  rw [dif_pos valid]
  rfl

theorem encode_one (lead : a.toNat < 0x80) :
    String.utf8EncodeChar (compose [a.toNat]) = [a] := by
  have number := toNat_compose [a.toNat] (n := a.toNat) (Nat.zero_add _)
    (.inl (by omega))
  simp only [String.utf8EncodeChar, number, if_pos (Nat.le_of_lt_succ lead), UInt8.ofNat_toNat]

theorem encode_two (lead : 0xC2 ≤ a.toNat ∧ a.toNat ≤ 0xDF) (second : follows a b = true) :
    String.utf8EncodeChar (compose [a.toNat % 32, low b]) = [a, b] := by
  obtain ⟨least, most, -⟩ := follows_iff.mp second
  generalize size : a.toNat % 32 * 64 + b.toNat % 64 = n
  have number := toNat_compose [a.toNat % 32, low b] (n := n) (by simp [low, size])
    (.inl (by omega))
  have some_more : ¬ n ≤ 0x7F := by omega
  have no_more : n ≤ 0x7FF := by omega
  simp only [String.utf8EncodeChar, number, if_neg some_more, if_pos no_more]
  rw [ofNat_eq (a := a) (by omega), ofNat_eq (a := b) (by omega)]

theorem encode_three (lead : 0xE0 ≤ a.toNat ∧ a.toNat ≤ 0xEF) (second : follows a b = true)
    (third : isTail c = true) :
    String.utf8EncodeChar (compose [a.toNat % 16, low b, low c]) = [a, b, c] := by
  obtain ⟨least, most, e0, ed, -⟩ := follows_iff.mp second
  have third := isTail_iff.mp third
  generalize size : (a.toNat % 16 * 64 + b.toNat % 64) * 64 + c.toNat % 64 = n
  have number := toNat_compose [a.toNat % 16, low b, low c] (n := n)
    (by simp [low, size]) (by simp only [Nat.isValidChar]; omega)
  have some_more : ¬ n ≤ 0x7F := by omega
  have more : ¬ n ≤ 0x7FF := by omega
  have no_more : n ≤ 0xFFFF := by omega
  simp only [String.utf8EncodeChar, number, if_neg some_more, if_neg more, if_pos no_more]
  rw [ofNat_eq (a := a) (by omega), ofNat_eq (a := b) (by omega), ofNat_eq (a := c) (by omega)]

theorem encode_four (lead : 0xF0 ≤ a.toNat ∧ a.toNat ≤ 0xF4) (second : follows a b = true)
    (third : isTail c = true) (fourth : isTail d = true) :
    String.utf8EncodeChar (compose [a.toNat % 8, low b, low c, low d]) = [a, b, c, d] := by
  obtain ⟨least, most, -, -, f0, f4⟩ := follows_iff.mp second
  have third := isTail_iff.mp third
  have fourth := isTail_iff.mp fourth
  generalize size : ((a.toNat % 8 * 64 + b.toNat % 64) * 64 + c.toNat % 64) * 64 + d.toNat % 64 = n
  have number := toNat_compose [a.toNat % 8, low b, low c, low d] (n := n)
    (by simp [low, size]) (by simp only [Nat.isValidChar]; omega)
  have some_more : ¬ n ≤ 0x7F := by omega
  have more : ¬ n ≤ 0x7FF := by omega
  have most : ¬ n ≤ 0xFFFF := by omega
  simp only [String.utf8EncodeChar, number, if_neg some_more, if_neg more, if_neg most]
  rw [ofNat_eq (a := a) (by omega), ofNat_eq (a := b) (by omega), ofNat_eq (a := c) (by omega),
    ofNat_eq (a := d) (by omega)]

theorem Encoded.exists_char {bytes : Bytes} (h : Encoded bytes) :
    ∃ c, String.utf8EncodeChar c = bytes := by
  cases h with
  | one lead => exact ⟨_, encode_one lead⟩
  | two lead second => exact ⟨_, encode_two lead second⟩
  | three lead second third => exact ⟨_, encode_three lead second third⟩
  | four lead second third fourth => exact ⟨_, encode_four lead second third fourth⟩

/-- The octets at the front of `part ++ rest` that belong to no character: one octet, or as many as
some character starts with, up to where the next octet does not fit. -/
structure IllFormed (part rest : Bytes) : Prop where
  nonempty : part ≠ []
  no_char : ∀ c, ¬ String.utf8EncodeChar c <+: part
  start : part.length = 1 ∨ ∃ c, part <+: String.utf8EncodeChar c
  ends : ∀ next, rest.head? = some next → ∀ c, ¬ part ++ [next] <+: String.utf8EncodeChar c

/-- The octets are these characters and, as nothing, these ill-formed parts. -/
inductive Reading : Bytes → List (Option Char) → Prop
  | nil : Reading [] []
  | char (c : Char) {rest : Bytes} {ps : List (Option Char)} (more : Reading rest ps) :
      Reading (String.utf8EncodeChar c ++ rest) (some c :: ps)
  | illFormed {part rest : Bytes} {ps : List (Option Char)} (bad : IllFormed part rest)
      (more : Reading rest ps) : Reading (part ++ rest) (none :: ps)

section
variable {rest more : Bytes}

theorem Encoded.second_of (h : Encoded (a :: b :: more)) :
    0xC2 ≤ a.toNat ∧ a.toNat ≤ 0xF4 ∧ follows a b = true := by
  cases h with
  | two lead second | three lead second third | four lead second third fourth =>
    refine ⟨?_, ?_, second⟩ <;> omega

theorem Encoded.third_of (h : Encoded (a :: b :: c :: more)) : isTail c = true := by
  cases h with
  | three lead second third | four lead second third fourth => exact third

theorem Encoded.fourth_of (h : Encoded (a :: b :: c :: d :: more)) : isTail d = true := by
  cases h with
  | four lead second third fourth => exact fourth

theorem encoded_from {part : Bytes} {ch : Char} (h : part <+: String.utf8EncodeChar ch) :
    ∃ more, Encoded (part ++ more) := by
  obtain ⟨more, same⟩ := h
  exact ⟨more, same ▸ encoded ch⟩

/-- Octets that are too few for how they start hold no character. -/
theorem no_char_of {part : Bytes} (h : ∀ front, Encoded front → ¬ front <+: part) (ch : Char) :
    ¬ String.utf8EncodeChar ch <+: part := h _ (encoded ch)

theorem illFormed_one (high : 0x80 ≤ a.toNat) (ends : ∀ next, rest.head? = some next →
    0xC2 ≤ a.toNat → a.toNat ≤ 0xF4 → follows a next = false) : IllFormed [a] rest := by
  refine ⟨List.cons_ne_nil _ _, no_char_of ?_, .inl rfl, ?_⟩
  · intro front shape within
    cases shape <;>
      simp only [List.cons_prefix_cons, List.prefix_nil, reduceCtorEq, and_false] at within
    next lead =>
      obtain ⟨rfl, -⟩ := within
      omega
  · intro next first ch start
    obtain ⟨more, shape⟩ := encoded_from start
    obtain ⟨least, most, second⟩ := shape.second_of
    rw [ends next first least most] at second
    cases second

theorem illFormed_two (lead : 0xE0 ≤ a.toNat ∧ a.toNat ≤ 0xF4) (second : follows a b = true)
    (ends : ∀ next, rest.head? = some next → isTail next = false) : IllFormed [a, b] rest := by
  refine ⟨List.cons_ne_nil _ _, no_char_of ?_, .inr ?_, ?_⟩
  · intro front shape within
    cases shape <;>
      simp only [List.cons_prefix_cons, List.prefix_nil, reduceCtorEq, and_false] at within
    all_goals
      obtain ⟨rfl, -⟩ := within
      omega
  · by_cases small : a.toNat ≤ 0xEF
    · obtain ⟨ch, same⟩ := (Encoded.three ⟨lead.1, small⟩ second (c := 0x80) rfl).exists_char
      exact ⟨ch, [0x80], same.symm⟩
    · obtain ⟨ch, same⟩ :=
        (Encoded.four ⟨by omega, lead.2⟩ second (c := 0x80) (d := 0x80) rfl rfl).exists_char
      exact ⟨ch, [0x80, 0x80], same.symm⟩
  · intro next first ch start
    obtain ⟨more, shape⟩ := encoded_from start
    have third := shape.third_of
    rw [ends next first] at third
    cases third

theorem illFormed_three (lead : 0xF0 ≤ a.toNat ∧ a.toNat ≤ 0xF4) (second : follows a b = true)
    (third : isTail c = true) (ends : ∀ next, rest.head? = some next → isTail next = false) :
    IllFormed [a, b, c] rest := by
  refine ⟨List.cons_ne_nil _ _, no_char_of ?_, .inr ?_, ?_⟩
  · intro front shape within
    cases shape <;>
      simp only [List.cons_prefix_cons, List.prefix_nil, reduceCtorEq, and_false] at within
    all_goals
      obtain ⟨rfl, -⟩ := within
      omega
  · obtain ⟨ch, same⟩ := (Encoded.four lead second third (d := 0x80) rfl).exists_char
    exact ⟨ch, [0x80], same.symm⟩
  · intro next first ch start
    obtain ⟨more, shape⟩ := encoded_from start
    have fourth := shape.fourth_of
    rw [ends next first] at fourth
    cases fourth

/-- What one step reads: a character, or an ill-formed part. -/
inductive FirstRead : Bytes → Option Char × Bytes → Prop
  | char (ch : Char) (rest : Bytes) : FirstRead (String.utf8EncodeChar ch ++ rest) (some ch, rest)
  | illFormed (part : Bytes) {rest : Bytes} (bad : IllFormed part rest) :
      FirstRead (part ++ rest) (none, rest)

theorem FirstRead.of_encode {ch : Char} {front : Bytes} (same : String.utf8EncodeChar ch = front)
    (rest : Bytes) : FirstRead (front ++ rest) (some ch, rest) := same ▸ .char ch rest

theorem no_head {P : UInt8 → Prop} : ∀ next, ([] : Bytes).head? = some next → P next := by
  intro next first
  cases first

theorem head_tail {x : UInt8} {l : Bytes} {P : UInt8 → Prop} (h : P x) :
    ∀ next, (x :: l).head? = some next → P next := by
  intro next first
  obtain rfl := Option.some.inj first
  exact h

theorem firstRead_step (a : UInt8) (rest : Bytes) : FirstRead (a :: rest) (step a rest) := by
  unfold step
  simp only [UInt8.lt_iff_toNat_lt, UInt8.le_iff_toNat_le]
  split
  next lead => exact .of_encode (encode_one lead) rest
  next high =>
  have high : 0x80 ≤ a.toNat := Nat.le_of_not_lt high
  split
  next => exact .illFormed [a] (illFormed_one high no_head)
  next b r =>
  split
  next lead =>
    split
    next second => exact .of_encode (encode_two lead second) r
    next second =>
      exact .illFormed [a] (illFormed_one high (head_tail (fun _ _ => by simpa using second)))
  next not_two =>
  split
  next lead =>
    split
    next second =>
      have lead' : 0xE0 ≤ a.toNat ∧ a.toNat ≤ 0xF4 := ⟨lead.1, Nat.le_trans lead.2 (by decide)⟩
      split
      next => exact .illFormed [a, b] (illFormed_two lead' second no_head)
      next c s =>
        split
        next third => exact .of_encode (encode_three lead second third) s
        next third =>
          exact .illFormed [a, b] (illFormed_two lead' second (head_tail (by simpa using third)))
    next second =>
      exact .illFormed [a] (illFormed_one high (head_tail (fun _ _ => by simpa using second)))
  next not_three =>
  split
  next lead =>
    split
    next second =>
      have lead' : 0xE0 ≤ a.toNat ∧ a.toNat ≤ 0xF4 := ⟨Nat.le_trans (by decide) lead.1, lead.2⟩
      split
      next => exact .illFormed [a, b] (illFormed_two lead' second no_head)
      next c s =>
        split
        next third =>
          split
          next => exact .illFormed [a, b, c] (illFormed_three lead second third no_head)
          next d t =>
            split
            next fourth => exact .of_encode (encode_four lead second third fourth) t
            next fourth =>
              exact .illFormed [a, b, c]
                (illFormed_three lead second third (head_tail (by simpa using fourth)))
        next third =>
          exact .illFormed [a, b] (illFormed_two lead' second (head_tail (by simpa using third)))
    next second =>
      exact .illFormed [a] (illFormed_one high (head_tail (fun _ _ => by simpa using second)))
  next not_four =>
    refine .illFormed [a] (illFormed_one high (head_tail (fun least most => ?_)))
    have two : ¬ (0xC2 ≤ a.toNat ∧ a.toNat ≤ 0xDF) := not_two
    have three : ¬ (0xE0 ≤ a.toNat ∧ a.toNat ≤ 0xEF) := not_three
    have four : ¬ (0xF0 ≤ a.toNat ∧ a.toNat ≤ 0xF4) := not_four
    omega

/-- Octets that go on after a part of others take the next octet. -/
theorem takes_next {front part : Bytes} (within : front <+: part ++ rest)
    (past : ¬ front <+: part) : ∃ next, rest.head? = some next ∧ part ++ [next] <+: front := by
  rcases List.prefix_or_prefix_of_prefix within (List.prefix_append part rest) with short | long
  · exact absurd short past
  · obtain ⟨extra, rfl⟩ := long
    have inside : extra <+: rest := (List.prefix_append_right_inj part).mp within
    cases extra with
    | nil => exact absurd (by simp) past
    | cons next extra =>
      obtain ⟨others, rfl⟩ := inside
      exact ⟨next, rfl, (List.prefix_append_right_inj part).mpr ⟨extra, rfl⟩⟩

/-- Where an ill-formed part is, no character is. -/
theorem IllFormed.not_char {part : Bytes} (bad : IllFormed part rest) (ch : Char) :
    ¬ String.utf8EncodeChar ch <+: part ++ rest := by
  intro within
  obtain ⟨next, first, start⟩ := takes_next within (bad.no_char ch)
  exact bad.ends next first ch start

/-- Of two ill-formed parts at one place neither is longer. -/
theorem IllFormed.within {part part' rest' : Bytes} (bad : IllFormed part rest)
    (bad' : IllFormed part' rest') (same : part ++ rest = part' ++ rest') : part <+: part' := by
  have within : part <+: part' ++ rest' := same ▸ List.prefix_append part rest
  by_cases short : part <+: part'
  · exact short
  obtain ⟨next, first, longer⟩ := takes_next within short
  rcases bad.start with one | ⟨ch, start⟩
  · have more := longer.length_le
    have some_octet := List.length_pos_iff.mpr bad'.nonempty
    simp only [List.length_append, List.length_singleton, one] at more
    omega
  · exact (bad'.ends next first ch (longer.trans start)).elim

theorem same_char {c c' : Char} {rest' : Bytes}
    (same : String.utf8EncodeChar c ++ rest = String.utf8EncodeChar c' ++ rest') : c = c' := by
  have first (c : Char) (rest : Bytes) :
      ByteArray.utf8DecodeChar? (String.utf8EncodeChar c ++ rest).toByteArray 0 = some c := by
    rw [List.toByteArray_append, ByteArray.utf8DecodeChar?_utf8EncodeChar_append]
  have found := first c rest
  rw [same, first c' rest'] at found
  exact (Option.some.inj found).symm

theorem FirstRead.unique {bytes : Bytes} {x y : Option Char × Bytes} (hx : FirstRead bytes x)
    (hy : FirstRead bytes y) : x = y := by
  generalize same : bytes = bytes' at hy
  cases hx with
  | char ch rest =>
    cases hy with
    | char ch' rest' =>
      obtain rfl := same_char same
      rw [List.append_cancel_left same]
    | illFormed part bad => exact absurd (same ▸ List.prefix_append _ rest) (bad.not_char ch)
  | illFormed part bad =>
    cases hy with
    | char ch' rest' => exact absurd (same ▸ List.prefix_append _ rest') (bad.not_char ch')
    | illFormed part' bad' =>
      obtain rfl := (bad.within bad' same).eq_of_length_le (bad'.within bad same.symm).length_le
      rw [List.append_cancel_left same]

/-- What a step reads is read, and what follows is what is read after it. -/
theorem parts_of_firstRead {bytes : Bytes} {result : Option Char × Bytes}
    (first : FirstRead bytes result) : parts bytes = result.1 :: parts result.2 := by
  cases bytes with
  | nil =>
    generalize empty : ([] : Bytes) = bytes at first
    cases first with
    | char ch rest =>
      exact absurd (List.append_eq_nil_iff.mp empty.symm).1 String.utf8EncodeChar_ne_nil
    | illFormed part bad => exact absurd (List.append_eq_nil_iff.mp empty.symm).1 bad.nonempty
  | cons a rest => rw [parts, first.unique (firstRead_step a rest)]

/-- The octets have one reading. -/
theorem reading_iff {bytes : Bytes} {ps : List (Option Char)} :
    Reading bytes ps ↔ parts bytes = ps := by
  constructor
  · intro h
    induction h with
    | nil => rw [parts]
    | char c more ih => rw [parts_of_firstRead (.char c _), ih]
    | illFormed bad more ih => rw [parts_of_firstRead (.illFormed _ bad), ih]
  · rintro rfl
    induction bytes using parts.induct with
    | case1 =>
      rw [parts]
      exact .nil
    | case2 a rest ih =>
      rw [parts]
      have first := firstRead_step a rest
      generalize a :: rest = bytes, step a rest = result at first ih
      cases first with
      | char ch rest => exact .char ch ih
      | illFormed part bad => exact .illFormed bad ih

theorem reading_encode (text : List Char) :
    Reading (text.flatMap String.utf8EncodeChar) (text.map some) := by
  induction text with
  | nil => exact .nil
  | cons c text ih =>
    rw [List.flatMap_cons]
    exact .char c ih

theorem encode_of_reading {cs : List Char} {bytes : Bytes} (h : Reading bytes (cs.map some)) :
    bytes = cs.flatMap String.utf8EncodeChar := by
  induction cs generalizing bytes with
  | nil =>
    cases h
    rfl
  | cons c cs ih =>
    cases h with
    | char _ more => rw [ih more, List.flatMap_cons]

theorem mapM_eq_some {ps : List (Option Char)} {cs : List Char} :
    ps.mapM id = some cs ↔ ps = cs.map some := by
  induction ps generalizing cs with
  | nil => cases cs <;> simp
  | cons p ps ih =>
    cases p with
    | none => cases cs <;> simp
    | some c =>
      cases cs with
      | nil => simp [Option.bind_eq_some_iff]
      | cons c' cs =>
        have first : c = c' ∧ ps = cs.map some ↔ ps = cs.map some ∧ c = c' := and_comm
        simpa [Option.bind_eq_some_iff, ih] using first.symm

/-- Octets are read as a text when they are its octets. -/
theorem decode_eq_some {bytes : Bytes} {text : String} :
    decode bytes = some text ↔ bytes = encode text := by
  simp only [decode, Option.map_eq_some_iff, mapM_eq_some, ← reading_iff]
  constructor
  · rintro ⟨cs, read, rfl⟩
    rw [encode, String.toList_ofList, encode_of_reading read]
  · rintro rfl
    exact ⟨text.toList, reading_encode text.toList, String.ofList_toList⟩

theorem decodeLossy_of_reading {bytes : Bytes} {ps : List (Option Char)} (h : Reading bytes ps) :
    decodeLossy bytes = String.ofList (ps.map (·.getD '\uFFFD')) := by
  rw [decodeLossy, reading_iff.mp h]

@[simp]
theorem decodeLossy_encode (text : String) : decodeLossy (encode text) = text := by
  rw [encode, decodeLossy_of_reading (reading_encode text.toList)]
  simp [Function.comp_def]

end
end
end ScriptSandbox.Proofs.Utf8Text
