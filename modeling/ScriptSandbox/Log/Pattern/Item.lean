import ScriptSandbox.Log.Pattern.Modes
import ScriptSandbox.Text.Character

namespace ScriptSandbox.Pattern

/-- Parts side by side: how many there are, and how deep the deepest of them is nested. -/
structure Extent where
  count : Nat := 0
  depth : Nat := 0
deriving Repr, DecidableEq

namespace Extent

def add (e : Extent) (depth : Nat) : Extent := ⟨e.count + 1, max e.depth depth⟩

/-- How deep they are nested together. Several are one deeper than the deepest of them. -/
def nesting (e : Extent) : Nat := if e.count ≤ 1 then e.depth else e.depth + 1

end Extent

inductive Item where
  /-- The character itself, or the octet if two digits name it. -/
  | char (c : Char) (octet : Bool)
  | any
  /-- A digit, a blank or a word character, or any other. -/
  | kind (negated : Bool)
  /-- The start or the end of a text or line. -/
  | edge
  /-- The start or the end of a word. -/
  | wordEdge
deriving Repr, DecidableEq

namespace Item

/-- Whether the item may stand outside of classes. Only the kinds and cases of ASCII characters are
known, and nothing may stand for a part of a character. -/
def isUsable (m : Modes) : Item → Bool
  | char c octet => if m.wide then !m.caseless else !octet || c.toNat < 0x80
  | any => m.wide
  | kind negated => !m.wide && !negated
  | edge => true
  | wordEdge => !m.wide

/-- Whether the item may stand in a class. -/
def fitsClass (m : Modes) : Item → Bool
  | char c _ => if m.wide then !m.caseless else c.toNat < 0x80
  | kind negated => !m.wide && !negated
  | _ => false

/-- Adds so many hexadecimal digits to a number. -/
def digits (m : Modes) : Nat → Nat → List Char → Option (Nat × List Char)
  | 0, n, cs => some (n, cs)
  | _ + 1, _, [] => none
  | more + 1, n, c :: rest => do
    let d ← hexValue c
    digits m more (n * 16 + d) (m.skip rest)

/-- The character with the number that so many digits name. -/
def numbered (m : Modes) (count : Nat) (cs : List Char) : Option (Item × List Char) := do
  let (n, rest) ← digits m count 0 (m.skip cs)
  if n.isValidChar then some (char (Char.ofNat n) (count == 2), rest) else none

/-- What a backslash makes of a single character: letters have meanings of their own, and any other
ASCII character that is no digit stands for itself. -/
def ofEscape? (c : Char) : Option Item :=
  match c with
  | 'd' | 's' | 'w' => some (kind false)
  | 'D' | 'S' | 'W' => some (kind true)
  | 'A' | 'z' => some edge
  | 'b' | 'B' | '<' | '>' => some wordEdge
  | 'a' => some (char '\x07' false)
  | 't' => some (char '\t' false)
  | 'n' => some (char '\n' false)
  | 'v' => some (char '\x0b' false)
  | 'f' => some (char '\x0c' false)
  | 'r' => some (char '\r' false)
  | _ => if c.toNat < 0x80 && !c.isAlphanum then some (char c false) else none

/-- The item that a backslash starts, from the character after it on. -/
def escaped (m : Modes) : List Char → Option (Item × List Char)
  | [] => none
  | 'x' :: rest => numbered m 2 rest
  | 'u' :: rest => numbered m 4 rest
  | 'U' :: rest => numbered m 8 rest
  | c :: rest => (ofEscape? c).map (·, rest)

/-- The item at the start, where only a backslash has a meaning. -/
def plain (m : Modes) : List Char → Option (Item × List Char)
  | [] => none
  | '\\' :: rest => escaped m rest
  | c :: rest => some (char c false, rest)

theorem digits_length {m : Modes} {more n value : Nat} {cs rest : List Char}
    (h : digits m more n cs = some (value, rest)) : rest.length ≤ cs.length := by
  induction more generalizing n cs with
  | zero =>
    simp only [digits, Option.some.injEq, Prod.mk.injEq] at h
    simp [h.2]
  | succ more ih =>
    cases cs with
    | nil => simp [digits] at h
    | cons c tail =>
      simp only [digits, Option.bind_eq_bind, Option.bind_eq_some_iff] at h
      obtain ⟨d, _, h⟩ := h
      have := ih h
      have := m.skip_length tail
      simp only [List.length_cons]
      omega

theorem numbered_length {m : Modes} {count : Nat} {cs rest : List Char} {i : Item}
    (h : numbered m count cs = some (i, rest)) : rest.length ≤ cs.length := by
  simp only [numbered, Option.bind_eq_bind, Option.bind_eq_some_iff] at h
  obtain ⟨⟨n, after⟩, hd, h⟩ := h
  have := digits_length hd
  have := m.skip_length cs
  split at h
  · simp only [Option.some.injEq, Prod.mk.injEq] at h
    rw [← h.2]
    omega
  · simp at h

theorem escaped_length {m : Modes} {cs rest : List Char} {i : Item}
    (h : escaped m cs = some (i, rest)) : rest.length < cs.length := by
  unfold escaped at h
  split at h
  · simp at h
  · have := numbered_length h
    simp only [List.length_cons]
    omega
  · have := numbered_length h
    simp only [List.length_cons]
    omega
  · have := numbered_length h
    simp only [List.length_cons]
    omega
  · simp only [Option.map_eq_some_iff, Prod.mk.injEq] at h
    obtain ⟨_, _, _, h⟩ := h
    simp [← h]

theorem plain_length {m : Modes} {cs rest : List Char} {i : Item}
    (h : plain m cs = some (i, rest)) : rest.length < cs.length := by
  unfold plain at h
  split at h
  · simp at h
  · have := escaped_length h
    simp only [List.length_cons]
    omega
  · simp only [Option.some.injEq, Prod.mk.injEq] at h
    simp [← h.2]

end Item
end ScriptSandbox.Pattern
