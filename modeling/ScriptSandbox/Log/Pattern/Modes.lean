import ScriptSandbox.Text.Character

namespace ScriptSandbox.Pattern

structure Modes where
  /-- Blanks and comments do not count. -/
  spaced : Bool := false
  /-- Letters stand for both of their cases. -/
  caseless : Bool := false
  /-- Items stand for characters and not for octets. -/
  wide : Bool := true
deriving Repr, DecidableEq

namespace Modes

/-- The letters that a change of modes is made of. Letters after the dash turn modes off; those for
which there is no mode here only tell how a text is matched. -/
def letters : List Char := ['i', 'm', 's', 'U', 'u', 'R', 'x', '-']

/-- The modes after a change. No letter comes twice, and after the dash there is one. -/
def change? (m : Modes) (cs : List Char) : Option Modes :=
  let on := cs.takeWhile (· != '-')
  let off := cs.dropWhile (· != '-')
  let mode (letter : Char) (before : Bool) : Bool :=
    on.contains letter || before && !off.contains letter
  if cs.all letters.contains && decide cs.Nodup && cs.getLast? != some '-' then
    some { spaced := mode 'x' m.spaced, caseless := mode 'i' m.caseless, wide := mode 'u' m.wide }
  else none

/-- The characters without the blanks and comments in front, from inside of a comment or not. A
comment reaches from `#` to the end of its line. -/
def dropSpace : Bool → List Char → List Char
  | _, [] => []
  | true, c :: rest => dropSpace (c != '\n') rest
  | false, c :: rest =>
    if isBlank c then dropSpace false rest
    else if c = '#' then dropSpace true rest
    else c :: rest

theorem dropSpace_length (comment : Bool) (cs : List Char) :
    (dropSpace comment cs).length ≤ cs.length := by
  induction cs generalizing comment with
  | nil => simp [dropSpace]
  | cons c rest ih =>
    cases comment with
    | true =>
      have := ih (c != '\n')
      simp only [dropSpace, List.length_cons]
      omega
    | false =>
      have free := ih false
      have inside := ih true
      simp only [dropSpace, List.length_cons]
      split
      · omega
      · split
        · omega
        · simp

def skip (m : Modes) (cs : List Char) : List Char := if m.spaced then dropSpace false cs else cs

theorem skip_length (m : Modes) (cs : List Char) : (m.skip cs).length ≤ cs.length := by
  unfold skip
  split
  · exact dropSpace_length false cs
  · exact Nat.le_refl _

/-- The next character that counts. Looking ahead passes over one `#`, but not over a comment. If
nothing is left then, it is the character that comes first. -/
def peek (m : Modes) (cs : List Char) : Option Char :=
  if m.spaced then
    let ahead := match cs.dropWhile isBlank with
      | '#' :: rest => rest.dropWhile isBlank
      | rest => rest
    ahead.head? <|> cs.head?
  else cs.head?

end Modes
end ScriptSandbox.Pattern
