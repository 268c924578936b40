import ResourceLookup.Properties.Entry

/-!
# Property streams

A property stream is read to a list of entries in the order of the file. A line with a malformed
escape is passed over with a warning; reading as a whole fails only if the source does, and the
warnings of the lines before the failure stand.
-/

namespace ResourceLookup

namespace Properties

/-- What becomes of each logical line of a source. -/
def lineResults (s : Source) : List (Except Warning Entry) :=
  (LogicalLine.ofSource s).map Entry.ofLine

/-- The entries among the results of lines. -/
def entries (results : List (Except Warning Entry)) : List Entry :=
  results.filterMap Except.toOption

/-- The warnings among the results of lines. -/
def complaints (results : List (Except Warning Entry)) : List Warning :=
  results.filterMap fun
    | .ok _ => none
    | .error warning => some warning

/-- Reads a property stream. -/
def parse (s : Source) : Logged (List Entry) where
  outcome :=
    match s.failure with
    | none => .ok (entries (lineResults s))
    | some cause => .error (.io cause)
  warnings := complaints (lineResults s)

end Properties

end ResourceLookup
