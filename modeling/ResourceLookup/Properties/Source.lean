import ResourceLookup.Text.Lines
import ResourceLookup.Text.Utf8

/-!
# Byte sources

A source delivers bytes and then either ends or fails. Its lines end at line feeds. What follows
the last line feed is a line too if the source ends after it; a source that fails never delivers
it.
-/

namespace ResourceLookup

/-- Bytes that can be read, and the cause with which reading fails after them, if it does. -/
structure Source where
  bytes : List UInt8
  failure : Option Text
deriving DecidableEq, Repr

namespace Source

/-- A source that delivers all the bytes. -/
def ofBytes (bytes : List UInt8) : Source := ⟨bytes, none⟩

/-- A source that delivers the UTF-8 bytes of a text. -/
def ofText (t : Text) : Source := ofBytes t.utf8

/-- A source that fails when more than `limit` bytes are asked of it, if it holds more. -/
def failingAfter (limit : Nat) (cause : Text) (bytes : List UInt8) : Source :=
  if limit < bytes.length then ⟨bytes.take limit, some cause⟩ else ofBytes bytes

/-- The bytes of the lines that can be read. -/
def byteLines (s : Source) : List (List UInt8) :=
  if s.failure.isSome then Lines.ended 10 13 s.bytes else Lines.all 10 13 s.bytes

/-- The lines that can be read. Each is read as UTF-8 if it is well formed, and byte by byte
otherwise. -/
def lines (s : Source) : List Text := s.byteLines.map Text.ofBytes

end Source

end ResourceLookup
