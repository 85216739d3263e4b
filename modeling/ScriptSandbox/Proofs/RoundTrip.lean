import ScriptSandbox.Command.Run
import ScriptSandbox.Proofs.NumberText

namespace ScriptSandbox.Proofs.RoundTrip
open Json Json.Parser
open NumberText (Ended)

@[simp]
theorem hexValue_hexDigit (n : Nat) : hexValue (hexDigit n) = some (n % 16) := by
  have all : ∀ m < 16, hexValue (Nat.digitChar m) = some m := by decide
  exact all _ (Nat.mod_lt _ (by decide))

/-- The number of a control character. -/
theorem numbered_hexDigits {c : Char} (low : c.toNat < 0x20) (rest : List Char) :
    numbered ('0' :: '0' :: hexDigit (c.toNat / 16) :: hexDigit c.toNat :: rest) =
      .ok (c, rest) := by
  have zero : hexValue '0' = some 0 := by decide
  have value : ((0 * 16 + 0) * 16 + c.toNat / 16 % 16) * 16 + c.toNat % 16 = c.toNat := by omega
  have number : hexNumber ('0' :: '0' :: hexDigit (c.toNat / 16) :: hexDigit c.toNat :: rest) =
      .ok (c.toNat, rest) := by
    simp only [hexNumber, zero, hexValue_hexDigit, value]
  simp only [numbered, number, bind, Except.bind]
  rw [if_neg (by omega), if_neg (by omega), Char.ofNat_toNat]

/-- Characters stand for themselves, or an escape stands for them. -/
theorem escape_cases (c : Char) :
    (escape c = [c] ∧ ¬ c.toNat < 0x20 ∧ c ≠ '"' ∧ c ≠ '\\') ∨
      ∃ tail, escape c = '\\' :: tail ∧ ∀ rest, escaped (tail ++ rest) = .ok (c, rest) := by
  unfold escape
  repeat' split
  -- The seven characters with an escape of their own come first.
  iterate 7
    · rename_i same
      subst same
      exact .inr ⟨_, rfl, fun _ => rfl⟩
  · rename_i low
    exact .inr ⟨_, rfl, numbered_hexDigits low⟩
  · rename_i no_quote no_backslash _ _ _ _ _ low
    exact .inl ⟨rfl, low, no_quote, no_backslash⟩

theorem stringFrom_escape {done rest after : List Char} {c : Char}
    (h : escaped rest = .ok (c, after)) :
    stringFrom done ('\\' :: rest) = stringFrom (c :: done) after := by
  rw [stringFrom]
  split
  · rename_i e he
    rw [h] at he
    cases he
  · rename_i d after' he
    rw [h] at he
    cases he
    rfl

theorem stringFrom_plain {done rest : List Char} {c : Char} (visible : ¬ c.toNat < 0x20)
    (no_quote : c ≠ '"') (no_backslash : c ≠ '\\') :
    stringFrom done (c :: rest) = stringFrom (c :: done) rest := by
  rw [stringFrom]
  · rw [if_neg visible]
  all_goals simp_all

theorem stringFrom_flatMap (done cs rest : List Char) :
    stringFrom done (cs.flatMap escape ++ '"' :: rest) =
      .ok (String.ofList (done.reverse ++ cs), rest) := by
  induction cs generalizing done with
  | nil => rw [List.flatMap_nil, List.nil_append, stringFrom, List.append_nil]
  | cons c cs ih =>
    have next := ih (c :: done)
    rw [List.reverse_cons, List.append_assoc, List.singleton_append] at next
    rw [List.flatMap_cons, List.append_assoc]
    rcases escape_cases c with ⟨same, visible, no_quote, no_backslash⟩ | ⟨tail, split, read⟩
    · rw [same, List.singleton_append, stringFrom_plain visible no_quote no_backslash, next]
    · rw [split, List.cons_append, stringFrom_escape (read _), next]

/-- A string reads back, whatever characters are in it. -/
@[simp]
theorem string_quote (s : String) (rest : List Char) :
    string (s.toList.flatMap escape ++ '"' :: rest) = .ok (s, rest) := by
  have read := stringFrom_flatMap [] s.toList rest
  rw [List.reverse_nil, List.nil_append, String.ofList_toList] at read
  exact read

def Ascending (ms : List (String × Json)) : Prop := ms.Pairwise fun m n => m.1 < n.1

theorem putMember_last {ms : List (String × Json)} {name : String} {v : Json}
    (h : ∀ m ∈ ms, m.1 < name) : putMember name v ms = ms ++ [(name, v)] := by
  induction ms with
  | nil => rfl
  | cons m ms ih =>
    have before : m.1 < name := h m List.mem_cons_self
    have later : ¬ name < m.1 := String.lt_asymm before
    have other : name ≠ m.1 := (String.ne_of_lt before).symm
    have tail := ih fun n hn => h n (List.mem_cons_of_mem _ hn)
    rw [putMember, if_neg later, if_neg other, tail, List.cons_append]

theorem foldl_putMember {ms done : List (String × Json)} (h : Ascending (done ++ ms)) :
    ms.foldl (fun ms m => putMember m.1 m.2 ms) done = done ++ ms := by
  induction ms generalizing done with
  | nil => rw [List.append_nil, List.foldl_nil]
  | cons m ms ih =>
    have before : ∀ n ∈ done, n.1 < m.1 := fun n hn =>
      (List.pairwise_append.mp h).2.2 n hn m List.mem_cons_self
    have rest : Ascending (done ++ [m] ++ ms) := by
      rw [List.append_assoc]
      exact h
    rw [List.foldl_cons, putMember_last before, ih rest, List.append_assoc, List.singleton_append]

/-- Ascending members stay as they are. -/
theorem ofMembers_ascending {ms : List (String × Json)} (h : Ascending ms) :
    ofMembers ms = .object ms := by
  rw [ofMembers, foldl_putMember (by simpa using h), List.nil_append]

theorem mem_putMember {name : String} {v : Json} {ms : List (String × Json)} {m : String × Json}
    (h : m ∈ putMember name v ms) : m = (name, v) ∨ m ∈ ms := by
  induction ms with
  | nil => exact .inl (List.mem_singleton.mp h)
  | cons n ms ih =>
    unfold putMember at h
    split at h
    · exact List.mem_cons.mp h
    · split at h
      · rcases List.mem_cons.mp h with same | old
        · exact .inl same
        · exact .inr (List.mem_cons_of_mem _ old)
      · rcases List.mem_cons.mp h with same | later
        · exact .inr (same ▸ List.mem_cons_self)
        · rcases ih later with new | old
          · exact .inl new
          · exact .inr (List.mem_cons_of_mem _ old)

theorem ascending_putMember {name : String} {v : Json} {ms : List (String × Json)}
    (h : Ascending ms) : Ascending (putMember name v ms) := by
  induction ms with
  | nil => exact List.pairwise_singleton _ _
  | cons n ms ih =>
    obtain ⟨first, tail⟩ := List.pairwise_cons.mp h
    unfold putMember
    split
    · rename_i before
      apply List.pairwise_cons.mpr
      refine ⟨?_, h⟩
      intro m hm
      rcases List.mem_cons.mp hm with rfl | hm
      · exact before
      · exact String.lt_trans before (first m hm)
    · rename_i later
      split
      · rename_i same
        apply List.pairwise_cons.mpr
        exact ⟨fun m hm => same ▸ first m hm, tail⟩
      · rename_i other
        have after : n.1 < name := by
          apply String.not_le.mp
          intro le
          exact other (String.le_antisymm le (String.not_lt.mp later))
        apply List.pairwise_cons.mpr
        refine ⟨?_, ih tail⟩
        intro m hm
        rcases mem_putMember hm with rfl | old
        · exact after
        · exact first m old

/-- The members of an object ascend, whatever their order was. -/
theorem ofMembers_eq (ms : List (String × Json)) :
    ∃ sorted, ofMembers ms = .object sorted ∧ Ascending sorted ∧ ∀ m ∈ sorted, m ∈ ms := by
  suffices h : ∀ done, Ascending done → ∃ sorted,
      ms.foldl (fun ms m => putMember m.1 m.2 ms) done = sorted ∧ Ascending sorted ∧
        ∀ m ∈ sorted, m ∈ done ∨ m ∈ ms by
    obtain ⟨sorted, same, ascending, origin⟩ := h [] List.Pairwise.nil
    refine ⟨sorted, congrArg Json.object same, ascending, ?_⟩
    intro m hm
    rcases origin m hm with none_left | old
    · cases none_left
    · exact old
  induction ms with
  | nil =>
    intro done ascending
    exact ⟨done, rfl, ascending, fun m hm => .inl hm⟩
  | cons n ms ih =>
    intro done ascending
    obtain ⟨sorted, same, ascending, origin⟩ := ih _ (ascending_putMember ascending)
    refine ⟨sorted, same, ascending, ?_⟩
    intro m hm
    rcases origin m hm with put | old
    · rcases mem_putMember put with rfl | old
      · exact .inr List.mem_cons_self
      · exact .inl old
    · exact .inr (List.mem_cons_of_mem _ old)

/-- What a document can say, with at most `depth` lists and objects around the innermost part. -/
inductive Readable : Nat → Json → Prop
  | null {depth : Nat} : Readable depth .null
  | bool {depth : Nat} (b : Bool) : Readable depth (.bool b)
  | int {depth : Nat} {i : Int} (within : inRange i = true) : Readable depth (.int i)
  | float {depth : Nat} (x : Binary64) : Readable depth (.float x)
  | string {depth : Nat} (s : String) : Readable depth (.string s)
  | array {depth : Nat} {vs : List Json} (items : ∀ v ∈ vs, Readable depth v) :
      Readable (depth + 1) (.array vs)
  | object {depth : Nat} {ms : List (String × Json)} (ascending : Ascending ms)
      (values : ∀ m ∈ ms, Readable depth m.2) : Readable (depth + 1) (.object ms)

@[simp]
theorem skipSpace_skipSpace (cs : List Char) : skipSpace (skipSpace cs) = skipSpace cs := by
  induction cs with
  | nil => rfl
  | cons c cs ih =>
    by_cases space : isSpace c = true
    · have skipped : skipSpace (c :: cs) = skipSpace cs := List.dropWhile_cons_of_pos space
      rw [skipped, ih]
    · have kept : skipSpace (c :: cs) = c :: cs := List.dropWhile_cons_of_neg space
      rw [kept, kept]

theorem value_eq (depth : Nat) : ∃ inner, value depth = valueOver inner := by
  cases depth with
  | zero => exact ⟨none, rfl⟩
  | succ depth => exact ⟨some (value depth), rfl⟩

/-- White space in front of a value does not count. -/
@[simp]
theorem value_skipSpace (depth : Nat) (cs : List Char) :
    value depth (skipSpace cs) = value depth cs := by
  obtain ⟨inner, same⟩ := value_eq depth
  rw [same, valueOver, valueOver, skipSpace_skipSpace]

/-- A value does not start with the end of a list. -/
theorem value_first {depth : Nat} {cs rest : List Char} {v : Json}
    (h : value depth cs = .ok (v, rest)) : ∃ c more, skipSpace cs = c :: more ∧ c ≠ ']' := by
  obtain ⟨inner, same⟩ := value_eq depth
  rw [same, valueOver] at h
  cases first : skipSpace cs with
  | nil =>
    rw [first] at h
    cases h
  | cons c more =>
    refine ⟨c, more, rfl, ?_⟩
    rintro rfl
    rw [first] at h
    cases h

/-- The first item of a list is read as a value. -/
theorem items_cons {depth : Nat} {cs after : List Char} {v : Json}
    (h : value depth cs = .ok (v, after)) :
    items (value depth) cs = itemsFrom (value depth) (after.length + 1) [v] after := by
  obtain ⟨c, more, first, no_end⟩ := value_first h
  rw [← value_skipSpace, first] at h
  unfold items
  rw [first]
  split
  · rename_i none_left
    cases none_left
  · rename_i end_first
    exact absurd (List.cons.inj end_first).1 no_end
  · simp only [h, bind, Except.bind]

/-- So is every further one, after a comma. -/
theorem itemsFrom_cons {depth rounds : Nat} {done : List Json} {cs after : List Char} {v : Json}
    (h : value depth cs = .ok (v, after)) :
    itemsFrom (value depth) (rounds + 1) done (',' :: cs) =
      itemsFrom (value depth) rounds (v :: done) after := by
  obtain ⟨c, more, first, no_end⟩ := value_first h
  have comma : skipSpace (',' :: cs) = ',' :: cs := rfl
  rw [← value_skipSpace, first] at h
  rw [itemsFrom, comma]
  simp only [first]
  split
  · rename_i none_left
    cases none_left
  · rename_i end_first
    exact absurd (List.cons.inj end_first).1 no_end
  · simp only [h, bind, Except.bind]

/-- The text of the value reads back in front of whatever ends a number. -/
def ReadsBack (depth : Nat) (v : Json) : Prop :=
  ∀ rest, Ended rest → value depth (chars v ++ rest) = .ok (v, rest)

theorem ended_cons {c : Char} (h : c.isDigit = false ∧ c ≠ '.' ∧ c ≠ 'e' ∧ c ≠ 'E')
    (cs : List Char) : Ended (c :: cs) := by
  intro d hd
  obtain rfl : c = d := Option.some.inj hd
  exact h

theorem ended_moreItems (vs : List Json) (rest : List Char) :
    Ended (moreItems vs ++ ']' :: rest) := by
  cases vs with
  | nil => exact ended_cons (by decide) _
  | cons v vs => exact ended_cons (by decide) _

theorem length_moreItems (vs : List Json) : vs.length ≤ (moreItems vs).length := by
  induction vs with
  | nil => exact Nat.le_refl _
  | cons v vs ih =>
    simp only [moreItems, List.length_cons, List.length_append]
    omega

theorem itemsFrom_moreItems {depth rounds : Nat} {vs : List Json} (done : List Json)
    (rest : List Char)
    (back : ∀ v ∈ vs, ReadsBack depth v) (enough : vs.length < rounds) :
    itemsFrom (value depth) rounds done (moreItems vs ++ ']' :: rest) =
      .ok (done.reverse ++ vs, rest) := by
  induction vs generalizing rounds done with
  | nil =>
    obtain ⟨rounds, rfl⟩ : ∃ n, rounds = n + 1 := ⟨rounds - 1, by omega⟩
    rw [List.append_nil]
    rfl
  | cons v vs ih =>
    obtain ⟨rounds, rfl⟩ : ∃ n, rounds = n + 1 := ⟨rounds - 1, by omega⟩
    have first := back v List.mem_cons_self _ (ended_moreItems vs rest)
    have others : ∀ w ∈ vs, ReadsBack depth w := fun w hw => back w (List.mem_cons_of_mem _ hw)
    have fewer : vs.length < rounds := Nat.lt_of_succ_lt_succ enough
    rw [moreItems, List.cons_append, List.append_assoc, itemsFrom_cons first, ih _ others fewer,
      List.reverse_cons, List.append_assoc, List.singleton_append]

/-- Lists read back when their items do. -/
theorem readsBack_array {depth : Nat} {vs : List Json} (back : ∀ v ∈ vs, ReadsBack depth v) :
    ReadsBack (depth + 1) (.array vs) := by
  intro rest _
  cases vs with
  | nil => rfl
  | cons v vs =>
    have first := back v List.mem_cons_self _ (ended_moreItems vs rest)
    have others : ∀ w ∈ vs, ReadsBack depth w := fun w hw => back w (List.mem_cons_of_mem _ hw)
    have enough : vs.length < (moreItems vs ++ ']' :: rest).length + 1 := by
      have := length_moreItems vs
      rw [List.length_append]
      omega
    have all := itemsFrom_moreItems [v] rest others enough
    have read : items (value depth) (chars v ++ (moreItems vs ++ ']' :: rest)) =
        .ok (v :: vs, rest) := by
      rw [items_cons first, all]
      rfl
    have text : chars (.array (v :: vs)) ++ rest =
        '[' :: (chars v ++ (moreItems vs ++ ']' :: rest)) := by
      simp only [chars, List.cons_append, List.append_assoc, List.nil_append]
    rw [text]
    show (items (value depth) _ >>= fun p => Except.ok (Json.array p.1, p.2)) = _
    rw [read]
    rfl

theorem ended_moreMembers (ms : List (String × Json)) (rest : List Char) :
    Ended (moreMembers ms ++ '\x7d' :: rest) := by
  cases ms with
  | nil => exact ended_cons (by decide) _
  | cons m ms => exact ended_cons (by decide) _

theorem length_moreMembers (ms : List (String × Json)) :
    ms.length ≤ (moreMembers ms).length := by
  induction ms with
  | nil => exact Nat.le_refl _
  | cons m ms ih =>
    simp only [moreMembers, List.length_cons, List.length_append]
    omega

/-- A member without its opening quote. -/
def memberTail (m : String × Json) : List Char :=
  m.1.toList.flatMap escape ++ '"' :: ':' :: chars m.2

theorem member_eq (m : String × Json) : Json.member m = '"' :: memberTail m := by
  obtain ⟨name, v⟩ := m
  simp only [Json.member, quote, memberTail, List.cons_append, List.append_assoc, List.nil_append]

theorem member_memberTail {depth : Nat} {m : String × Json} {rest : List Char}
    (back : ReadsBack depth m.2) (ended : Ended rest) :
    Parser.member string (fun _ => value depth) (memberTail m ++ rest) = .ok (m, rest) := by
  have name := string_quote m.1 (':' :: (chars m.2 ++ rest))
  have colon : skipSpace (':' :: (chars m.2 ++ rest)) = ':' :: (chars m.2 ++ rest) := rfl
  simp only [Parser.member, memberTail, List.append_assoc, List.cons_append, name, colon,
    back rest ended, bind, Except.bind]

theorem membersFrom_moreMembers {depth rounds : Nat} {ms : List (String × Json)}
    (done : List (String × Json)) (rest : List Char) (back : ∀ m ∈ ms, ReadsBack depth m.2)
    (enough : ms.length < rounds) :
    membersFrom string (fun _ => value depth) rounds done (moreMembers ms ++ '\x7d' :: rest) =
      .ok (done.reverse ++ ms, rest) := by
  induction ms generalizing rounds done with
  | nil =>
    obtain ⟨rounds, rfl⟩ : ∃ n, rounds = n + 1 := ⟨rounds - 1, by omega⟩
    rw [List.append_nil]
    rfl
  | cons m ms ih =>
    obtain ⟨rounds, rfl⟩ : ∃ n, rounds = n + 1 := ⟨rounds - 1, by omega⟩
    have first := member_memberTail (back m List.mem_cons_self) (ended_moreMembers ms rest)
    have others : ∀ n ∈ ms, ReadsBack depth n.2 := fun n hn => back n (List.mem_cons_of_mem _ hn)
    have fewer : ms.length < rounds := Nat.lt_of_succ_lt_succ enough
    have text : moreMembers (m :: ms) ++ '\x7d' :: rest =
        ',' :: '"' :: (memberTail m ++ (moreMembers ms ++ '\x7d' :: rest)) := by
      simp only [moreMembers, member_eq, List.cons_append, List.append_assoc]
    rw [text]
    show (Parser.member string (fun _ => value depth) _ >>= fun p =>
      membersFrom string (fun _ => value depth) rounds (p.1 :: done) p.2) = _
    rw [first]
    show membersFrom string (fun _ => value depth) rounds (m :: done) _ = _
    rw [ih _ others fewer, List.reverse_cons, List.append_assoc, List.singleton_append]

/-- Objects read back when the values in them do and the members ascend. -/
theorem readsBack_object {depth : Nat} {ms : List (String × Json)} (ascending : Ascending ms)
    (back : ∀ m ∈ ms, ReadsBack depth m.2) : ReadsBack (depth + 1) (.object ms) := by
  intro rest _
  cases ms with
  | nil => rfl
  | cons m ms =>
    have first := member_memberTail (back m List.mem_cons_self) (ended_moreMembers ms rest)
    have others : ∀ n ∈ ms, ReadsBack depth n.2 := fun n hn => back n (List.mem_cons_of_mem _ hn)
    have enough : ms.length < (moreMembers ms ++ '\x7d' :: rest).length + 1 := by
      have := length_moreMembers ms
      rw [List.length_append]
      omega
    have all := membersFrom_moreMembers [m] rest others enough
    have read : members string (fun _ => value depth)
        ('"' :: (memberTail m ++ (moreMembers ms ++ '\x7d' :: rest))) = .ok (m :: ms, rest) := by
      show (Parser.member string (fun _ => value depth) _ >>= fun p =>
        membersFrom string (fun _ => value depth) (p.2.length + 1) [p.1] p.2) = _
      rw [first]
      exact all
    have text : chars (.object (m :: ms)) ++ rest =
        '\x7b' :: '"' :: (memberTail m ++ (moreMembers ms ++ '\x7d' :: rest)) := by
      simp only [chars, member_eq, List.cons_append, List.append_assoc, List.nil_append]
    rw [text]
    show (members string (fun _ => value depth) _ >>= fun p => Except.ok (ofMembers p.1, p.2)) = _
    rw [read]
    show Except.ok (ofMembers (m :: ms), rest) = _
    rw [ofMembers_ascending ascending]

/-- Readable values read back. -/
theorem readsBack {depth : Nat} {v : Json} (h : Readable depth v) : ReadsBack depth v := by
  induction h with
  | @null depth =>
    intro rest _
    obtain ⟨inner, same⟩ := value_eq depth
    rw [same]
    rfl
  | @bool depth b =>
    intro rest _
    obtain ⟨inner, same⟩ := value_eq depth
    rw [same]
    cases b <;> rfl
  | @int depth i within =>
    intro rest ended
    obtain ⟨inner, same⟩ := value_eq depth
    rw [same, chars]
    exact NumberText.valueOver_whole within ended
  | @float depth x =>
    intro rest ended
    obtain ⟨inner, same⟩ := value_eq depth
    rw [same, chars]
    exact NumberText.valueOver_float x ended
  | @string depth s =>
    intro rest _
    obtain ⟨inner, same⟩ := value_eq depth
    have text : chars (.string s) ++ rest = '"' :: (s.toList.flatMap escape ++ '"' :: rest) := by
      simp only [chars, quote, List.cons_append, List.append_assoc, List.nil_append]
    rw [same, text]
    show (string _ >>= fun p => Except.ok (Json.string p.1, p.2)) = _
    rw [string_quote]
    rfl
  | array _ ih => exact readsBack_array ih
  | object ascending _ ih => exact readsBack_object ascending ih

theorem bind_eq_ok {ε α β : Type} {x : Except ε α} {f : α → Except ε β} {b : β} :
    x >>= f = .ok b ↔ ∃ a, x = .ok a ∧ f a = .ok b := by
  cases x with
  | error e => simp [bind, Except.bind]
  | ok a => simp [bind, Except.bind]

theorem readable_word {depth : Nat} {v w : Json} {es cs rest : List Char}
    (h : word v es cs = .ok (w, rest)) (readable : Readable depth v) : Readable depth w := by
  induction es generalizing cs with
  | nil =>
    obtain rfl : v = w := congrArg Prod.fst (Except.ok.inj h)
    exact readable
  | cons e es ih =>
    cases cs with
    | nil => cases h
    | cons c cs =>
      unfold word at h
      split at h
      · exact ih h
      · cases h

/-- A whole number in range, or one that is not whole. -/
inductive IsNumber : Json → Prop
  | int {i : Int} (within : inRange i = true) : IsNumber (.int i)
  | float (x : Binary64) : IsNumber (.float x)

theorem IsNumber.readable {depth : Nat} {v : Json} (h : IsNumber v) : Readable depth v := by
  cases h with
  | int within => exact .int within
  | float x => exact .float x

theorem isNumber_float {x : Option Binary64} {v : Json} (h : x.map Json.float = some v) :
    IsNumber v := by
  obtain ⟨y, -, rfl⟩ := Option.map_eq_some_iff.mp h
  exact .float y

theorem isNumber_ofDigits {negative : Bool} {n : Nat} {v : Json}
    (h : ofDigits negative n = some v) : IsNumber v := by
  unfold ofDigits at h
  dsimp only at h
  generalize (if negative = true then -(n : Int) else n) = i at h
  split at h
  · exact isNumber_float h
  · rename_i within
    obtain rfl := Option.some.inj h
    simp only [Bool.or_eq_true, Bool.not_eq_true', not_or, Bool.not_eq_false] at within
    exact .int within.2

theorem isNumber_number {negative : Bool} {v : Json} {cs rest : List Char}
    (h : number negative cs = .ok (v, rest)) : IsNumber v := by
  obtain ⟨⟨ds, afterDigits⟩, -, h⟩ := bind_eq_ok.mp h
  obtain ⟨⟨fraction, afterFraction⟩, -, h⟩ := bind_eq_ok.mp h
  obtain ⟨⟨exponent, afterExponent⟩, -, h⟩ := bind_eq_ok.mp h
  dsimp only at h
  split at h
  · rename_i w found
    obtain rfl : w = v := congrArg Prod.fst (Except.ok.inj h)
    split at found
    · exact isNumber_ofDigits found
    · exact isNumber_float found
  · cases h

section
variable {α κ : Type} {P : α → Prop}

theorem itemsFrom_forall {item : Scanner α} (each : ∀ {cs v rest}, item cs = .ok (v, rest) → P v)
    {rounds : Nat} {done vs : List α} {cs rest : List Char} (before : ∀ v ∈ done, P v)
    (h : itemsFrom item rounds done cs = .ok (vs, rest)) : ∀ v ∈ vs, P v := by
  induction rounds generalizing done cs with
  | zero => cases h
  | succ rounds ih =>
    unfold itemsFrom at h
    split at h
    · cases h
    · obtain rfl : done.reverse = vs := congrArg Prod.fst (Except.ok.inj h)
      intro v hv
      exact before v (List.mem_reverse.mp hv)
    · split at h
      · cases h
      · cases h
      · obtain ⟨⟨v, after⟩, read, h⟩ := bind_eq_ok.mp h
        apply ih _ h
        intro w hw
        rcases List.mem_cons.mp hw with rfl | old
        · exact each read
        · exact before w old
    · cases h

theorem items_forall {item : Scanner α} (each : ∀ {cs v rest}, item cs = .ok (v, rest) → P v)
    {vs : List α} {cs rest : List Char} (h : items item cs = .ok (vs, rest)) : ∀ v ∈ vs, P v := by
  unfold items at h
  split at h
  · cases h
  · obtain rfl : [] = vs := congrArg Prod.fst (Except.ok.inj h)
    exact fun v hv => nomatch hv
  · obtain ⟨⟨v, after⟩, read, h⟩ := bind_eq_ok.mp h
    apply itemsFrom_forall each _ h
    intro w hw
    obtain rfl := List.mem_singleton.mp hw
    exact each read

variable {name : Scanner κ} {value : κ → Scanner α}

theorem member_ok {m : κ × α} {cs rest : List Char}
    (each : ∀ {k cs v rest}, value k cs = .ok (v, rest) → P v)
    (h : Parser.member name value cs = .ok (m, rest)) : P m.2 := by
  obtain ⟨⟨k, afterName⟩, -, h⟩ := bind_eq_ok.mp h
  dsimp only at h
  split at h
  · cases h
  · obtain ⟨⟨v, after⟩, read, h⟩ := bind_eq_ok.mp h
    obtain rfl : (k, v) = m := congrArg Prod.fst (Except.ok.inj h)
    exact each read
  · cases h

theorem membersFrom_forall (each : ∀ {k cs v rest}, value k cs = .ok (v, rest) → P v)
    {rounds : Nat} {done ms : List (κ × α)} {cs rest : List Char} (before : ∀ m ∈ done, P m.2)
    (h : membersFrom name value rounds done cs = .ok (ms, rest)) : ∀ m ∈ ms, P m.2 := by
  induction rounds generalizing done cs with
  | zero => cases h
  | succ rounds ih =>
    unfold membersFrom at h
    split at h
    · cases h
    · obtain rfl : done.reverse = ms := congrArg Prod.fst (Except.ok.inj h)
      intro m hm
      exact before m (List.mem_reverse.mp hm)
    · split at h
      · cases h
      · cases h
      · obtain ⟨⟨m, after⟩, read, h⟩ := bind_eq_ok.mp h
        apply ih _ h
        intro n hn
        rcases List.mem_cons.mp hn with rfl | old
        · exact member_ok each read
        · exact before n old
      · cases h
    · cases h

theorem members_forall (each : ∀ {k cs v rest}, value k cs = .ok (v, rest) → P v)
    {ms : List (κ × α)} {cs rest : List Char} (h : members name value cs = .ok (ms, rest)) :
    ∀ m ∈ ms, P m.2 := by
  unfold members at h
  split at h
  · cases h
  · obtain rfl : [] = ms := congrArg Prod.fst (Except.ok.inj h)
    exact fun m hm => nomatch hm
  · obtain ⟨⟨m, after⟩, read, h⟩ := bind_eq_ok.mp h
    apply membersFrom_forall each _ h
    intro n hn
    obtain rfl := List.mem_singleton.mp hn
    exact member_ok each read
  · cases h

end

theorem readable_valueOver {depth : Nat} {inner : Option (Scanner Json)} {v : Json}
    {cs rest : List Char}
    (deeper : ∀ scan ∈ inner, ∃ d, depth = d + 1 ∧
      ∀ {cs v rest}, scan cs = .ok (v, rest) → Readable d v)
    (h : valueOver inner cs = .ok (v, rest)) : Readable depth v := by
  unfold valueOver at h
  split at h
  · cases h
  · exact readable_word h .null
  · exact readable_word h (.bool true)
  · exact readable_word h (.bool false)
  · obtain ⟨⟨s, after⟩, -, h⟩ := bind_eq_ok.mp h
    obtain rfl : Json.string s = v := congrArg Prod.fst (Except.ok.inj h)
    exact .string s
  · exact (isNumber_number h).readable
  · split at h
    · cases h
    · rename_i scan
      obtain ⟨d, rfl, each⟩ := deeper scan rfl
      obtain ⟨⟨vs, after⟩, read, h⟩ := bind_eq_ok.mp h
      obtain rfl : Json.array vs = v := congrArg Prod.fst (Except.ok.inj h)
      exact .array (items_forall each read)
  · split at h
    · cases h
    · rename_i scan
      obtain ⟨d, rfl, each⟩ := deeper scan rfl
      obtain ⟨⟨ms, after⟩, read, h⟩ := bind_eq_ok.mp h
      obtain rfl : ofMembers ms = v := congrArg Prod.fst (Except.ok.inj h)
      obtain ⟨sorted, same, ascending, origin⟩ := ofMembers_eq ms
      rw [same]
      exact .object ascending fun m hm => members_forall each read m (origin m hm)
  · split at h
    · exact (isNumber_number h).readable
    · cases h

/-- Nothing but a readable value is read. -/
theorem readable_value {depth : Nat} {v : Json} {cs rest : List Char}
    (h : value depth cs = .ok (v, rest)) : Readable depth v := by
  induction depth generalizing cs v rest with
  | zero =>
    apply readable_valueOver _ h
    intro scan none_left
    cases none_left
  | succ depth ih =>
    apply readable_valueOver _ h
    intro scan some_left
    obtain rfl : value depth = scan := Option.some.inj some_left
    exact ⟨depth, rfl, ih⟩

theorem parse_ofList {v : Json} (h : Readable depthLimit v) :
    parse (String.ofList (chars v)) = .ok v := by
  have read := readsBack h [] (by intro c hc; cases hc)
  rw [List.append_nil] at read
  rw [parse, String.toList_ofList, complete, read]
  rfl

theorem readable_parse {document : String} {v : Json} (h : parse document = .ok v) :
    Readable depthLimit v := by
  obtain ⟨⟨w, rest⟩, read, h⟩ := bind_eq_ok.mp h
  dsimp only at h
  split at h
  · obtain rfl := Except.ok.inj h
    exact readable_value read
  · cases h

theorem parseInput_eq_ok {document : String} {v : Json} :
    Command.parseInput document = .ok v ↔ parse document = .ok v := by
  unfold Command.parseInput
  cases parse document <;> simp

/-- Input is a readable value, and every readable value may be input. The literal that a program
holds for it is a string, and the string is a document of the very same value. -/
theorem parseInput_text (v : Json) :
    ((∃ document, Command.parseInput document = .ok v) ↔ Readable depthLimit v) ∧
      ∀ document, Command.parseInput document = .ok v →
        parse v.literal = .ok (.string v.text) ∧ Command.parseInput v.text = .ok v := by
  have written (readable : Readable depthLimit v) : Command.parseInput v.text = .ok v :=
    parseInput_eq_ok.mpr (parse_ofList readable)
  refine ⟨⟨?_, ?_⟩, ?_⟩
  · intro ⟨document, h⟩
    exact readable_parse (parseInput_eq_ok.mp h)
  · intro readable
    exact ⟨v.text, written readable⟩
  · intro document h
    refine ⟨?_, written (readable_parse (parseInput_eq_ok.mp h))⟩
    have literal := parse_ofList (v := .string v.text) (.string v.text)
    rw [chars, text, String.toList_ofList] at literal
    exact literal

/-- The number `1.0`. -/
def one : Binary64 := ⟨false, 1023 * power 2 52, by decide⟩

/-- Two names with a quote and a line end, over a list of a whole number, one that is not and a
negative zero. -/
def sample : Json :=
  .object [("\"", .array [.int 1, .float one, .float (Binary64.zero true)]), ("\"\n", .string "\n")]

theorem parseInput_text_sample :
    Readable depthLimit sample ∧ parse sample.literal = .ok (.string sample.text) ∧
      Command.parseInput sample.text = .ok sample := by
  have list : Readable 126 (.array [.int 1, .float one, .float (Binary64.zero true)]) := by
    apply Readable.array
    intro v hv
    simp only [List.mem_cons, List.not_mem_nil, or_false] at hv
    rcases hv with rfl | rfl | rfl
    · exact .int (by decide)
    · exact .float one
    · exact .float _
  have readable : Readable depthLimit sample := by
    apply Readable.object
    · unfold Ascending
      decide
    · intro m hm
      simp only [List.mem_cons, List.not_mem_nil, or_false] at hm
      rcases hm with rfl | rfl
      · exact list
      · exact .string "\n"
  obtain ⟨document, h⟩ := (parseInput_text sample).1.mpr readable
  exact ⟨readable, (parseInput_text sample).2 document h⟩

end ScriptSandbox.Proofs.RoundTrip
