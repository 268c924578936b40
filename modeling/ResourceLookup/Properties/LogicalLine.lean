import ResourceLookup.Properties.Source

/-!
# Logical lines

A line that ends in an odd number of backslashes continues on the next one: the last backslash
and the blanks that open the next line go away. Lines that are empty, blank, or open with `#` or
`!` hold nothing, unless a line before them continues there.

A logical line carries the number of the line on which it starts. Where the source ends the last
logical line is complete even if it asks for another line; where the source fails it is lost.
-/

namespace ResourceLookup

/-- A line of a property stream after joining, with the number of the line that it starts on. -/
structure LogicalLine where
  number : Nat
  text : Text
deriving DecidableEq, Repr

namespace LogicalLine

/-- Whether a line, taken without its leading blanks, holds nothing. -/
def isIdle (t : Text) : Bool := t.isEmpty || t.head? == some '#' || t.head? == some '!'

/-- Whether a line continues on the next one. -/
def continues (t : Text) : Bool := (t.reverse.takeWhile (· == '\\')).length % 2 == 1

/-- Joins lines into logical ones. The first of the lines has the given number, and a logical
line that was begun before waits for it; if no line is left, the waiting one counts only where
the source has `ended`. -/
def join (ended : Bool) (number : Nat) (waiting : Option LogicalLine) :
    List Text → List LogicalLine
  | [] => if ended then waiting.toList else []
  | line :: rest =>
    let opened := waiting.isSome
    let start := (waiting.map (·.number)).getD number
    let text := (waiting.map (·.text)).getD [] ++ line.trimStart
    if !opened && isIdle text then join ended (number + 1) none rest
    else if continues text then join ended (number + 1) (some ⟨start, text.dropLast⟩) rest
    else ⟨start, text⟩ :: join ended (number + 1) none rest

/-- The logical lines of a source. -/
def ofSource (s : Source) : List LogicalLine := join s.failure.isNone 1 none s.lines

end LogicalLine

end ResourceLookup
