import ResourceLookup.Store.Basic
import ResourceLookup.Text.Lines
import ResourceLookup.Text.Utf8

/-!
# Writing resources

A store is written as the lines of its contents below a header of comment lines. The lines of a
header text become comments unless they are comments already; empty ones are dropped.
-/

namespace ResourceLookup

/-- Where text is written: what takes a limited number of bytes fails on any further one. -/
structure Sink where
  capacity : Option Nat
  cause : Text
deriving DecidableEq, Repr

namespace Sink

/-- A sink that takes everything. -/
def unlimited : Sink := ⟨none, []⟩

/-- Writes a text as a whole, or fails. -/
def write (sink : Sink) (t : Text) : Except Error Text :=
  if sink.capacity.any (· < t.utf8.length) then .error (.io sink.cause) else .ok t

end Sink

namespace Store

/-- A line of a header as a comment. -/
def commentLine (line : Text) : Text :=
  (if line.head? = some '#' then line else "# ".toList ++ line) ++ ['\n']

/-- A header text as comment lines. -/
def headerText (header : Text) : Text :=
  ((Lines.all '\n' '\r' header).filter (!·.isEmpty)).flatMap commentLine

/-- The contents of a store below a header. -/
def written (s : Store) (header : Option Text) : Text :=
  (header.map headerText).getD [] ++ s.dump none

/-- Writes the contents of a store below a header. -/
def writeResources (s : Store) (header : Option Text) (sink : Sink) : Except Error Text :=
  sink.write (s.written header)

end Store

end ResourceLookup
