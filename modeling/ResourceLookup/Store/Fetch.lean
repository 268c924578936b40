import ResourceLookup.Numeral.Decimal
import ResourceLookup.Store.Basic

/-!
# Typed access

A single value can be fetched as a number or as a truth value, its blanks trimmed. What is
absent, is a list, or does not read as a number gives the default; a malformed key still fails.
-/

namespace ResourceLookup.Store

/-- The trimmed text of the single value that a key resolves to. -/
def fetchText (s : Store) (objects : Objects) (raw : Text) : Except Error (Option Text) :=
  (s.resolve objects raw).map fun value => (value.bind Value.asSingle).map Text.trim

/-- Fetches a value that `read` reads, or the default. -/
def fetch {α : Type} (read : Text → Option α) (s : Store) (objects : Objects) (raw : Text)
    (default : α) : Except Error α :=
  (s.fetchText objects raw).map fun t => (t.bind read).getD default

/-- Fetches an integer. -/
def fetchInt (s : Store) (objects : Objects) (raw : Text) (default : Int64) : Except Error Int64 :=
  s.fetch Numeral.int64? objects raw default

/-- Fetches a floating-point number. -/
def fetchFloat (s : Store) (objects : Objects) (raw : Text) (default : Float) :
    Except Error Float :=
  s.fetch Numeral.float? objects raw default

/-- Whether a text is the word `true`, in any case. -/
def isTrue (t : Text) : Bool := t.map Char.toLower == "true".toList

/-- Fetches a truth value. Every single value but `true` is false. -/
def fetchBool (s : Store) (objects : Objects) (raw : Text) (default : Bool) : Except Error Bool :=
  s.fetch (some ∘ isTrue) objects raw default

end ResourceLookup.Store
